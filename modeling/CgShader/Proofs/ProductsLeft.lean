import CgShader.Proofs.StatementLines

/-!
What is left of products in a formatted body. Each line has at most its first product as a call, and
the operand of the call is taken as it stands. The main statement: a product is left over exactly if
such an operand holds another one, and exactly then formatting the products once more would change
the text.
-/

namespace CgShader.Proofs.ProductsLeft

open CgShader.Text
open CgShader.Body
open CgShader.Proofs.TextRuns
open CgShader.Proofs.WhiteSpace
open CgShader.Proofs.BodyEdits
open CgShader.Proofs.WordEdits
open CgShader.Proofs.StatementLines

/-- The core stands in the text behind `front`, where a word can begin. -/
structure StandsAt (core front s : Text) : Prop where
  outside : isWordAt front.getLast? = false
  text : ∃ rest, s = front ++ core ++ rest

/-- Some text of a kind stands in the text. -/
def Holds (kind : Text → Prop) (s : Text) : Prop :=
  ∃ core front, kind core ∧ StandsAt core front s

/-- A matrix with a star behind it. -/
def Starred (names : List Text) (core : Text) : Prop :=
  ∃ name gap, name ∈ names ∧ Spaces gap ∧ core = name ++ gap ++ ['*']

/-- A matrix with a star behind it, up to a semicolon on the same line. -/
def FullProduct (names : List Text) (core : Text) : Prop :=
  ∃ name gap operand, name ∈ names ∧ Spaces gap ∧ '\n' ∉ operand ∧
    core = name ++ gap ++ '*' :: operand ++ [';']

def BeginsWord (kind : Text → Prop) : Prop := ∀ core, kind core → isWordAt core.head? = true

theorem beginsWord_starred {names : List Text} (hnames : AreWords names) :
    BeginsWord (Starred names) := by
  rintro core ⟨name, gap, hname, -, rfl⟩
  rw [List.append_assoc]
  exact isWordAt_head?_append (hnames name hname).1 (hnames name hname).2 _

theorem beginsWord_fullProduct {names : List Text} (hnames : AreWords names) :
    BeginsWord (FullProduct names) := by
  rintro core ⟨name, gap, operand, hname, -, -, rfl⟩
  simp only [List.append_assoc]
  exact isWordAt_head?_append (hnames name hname).1 (hnames name hname).2 _

theorem ne_nil_of_isWordAt_head? {s : Text} (h : isWordAt s.head? = true) : s ≠ [] := by
  rintro rfl
  cases h

section Places

variable {kind : Text → Prop} {core front s t : Text}

theorem StandsAt.append (h : StandsAt core front s) (t : Text) : StandsAt core front (s ++ t) := by
  obtain ⟨rest, rfl⟩ := h.text
  exact ⟨h.outside, rest ++ t, by simp⟩

theorem StandsAt.of_append {c : Char} (hlast : core.getLast? = some c) (ht : c ∉ t)
    (h : StandsAt core front (s ++ t)) : StandsAt core front s := by
  obtain ⟨rest, htext⟩ := h.text
  rcases List.append_eq_append_iff.mp htext with ⟨more, hmore, htail⟩ | ⟨more, hmore, -⟩
  · rcases List.eq_nil_or_concat more with rfl | ⟨before, last, rfl⟩
    · exact ⟨h.outside, [], by simpa using hmore.symm⟩
    · have hend := congrArg List.getLast? hmore
      rw [List.getLast?_append, hlast, List.concat_eq_append, ← List.append_assoc,
        List.getLast?_concat, Option.some_or, Option.some.injEq] at hend
      subst hend
      exact absurd (by simp [htail]) ht
  · exact ⟨h.outside, more, hmore⟩

theorem standsAt_cons_iff {c : Char} (hc : isWord c = false) (hcore : isWordAt core.head? = true) :
    StandsAt core front (c :: s) ↔ ∃ inner, front = c :: inner ∧ StandsAt core inner s := by
  constructor
  · rintro ⟨houtside, rest, htext⟩
    rcases front with _ | ⟨d, inner⟩
    · have hhead := congrArg List.head? htext
      rw [List.nil_append, List.head?_append_of_ne_nil _ (ne_nil_of_isWordAt_head? hcore),
        List.head?_cons] at hhead
      rw [← hhead] at hcore
      simp [isWordAt, hc] at hcore
    · obtain ⟨rfl, htail⟩ := List.cons.inj htext
      exact ⟨inner, rfl, isWordAt_getLast?_of_append (s := [c]) houtside, rest, htail⟩
  · rintro ⟨inner, rfl, houtside, rest, rfl⟩
    refine ⟨?_, rest, rfl⟩
    rwa [← List.nil_append (c :: inner), isWordAt_getLast?_append_cons [] hc]

theorem holds_cons_iff (hkind : BeginsWord kind) {c : Char} (hc : isWord c = false) (s : Text) :
    Holds kind (c :: s) ↔ Holds kind s := by
  constructor
  · rintro ⟨core, front, hcore, hstands⟩
    obtain ⟨inner, -, hinner⟩ := (standsAt_cons_iff hc (hkind core hcore)).mp hstands
    exact ⟨core, inner, hcore, hinner⟩
  · rintro ⟨core, front, hcore, hstands⟩
    exact ⟨core, c :: front, hcore,
      (standsAt_cons_iff hc (hkind core hcore)).mpr ⟨front, rfl, hstands⟩⟩

theorem holds_append_cons_iff {c : Char} (hc : isWord c = false)
    (hfree : ∀ core, kind core → c ∉ core) (s t : Text) :
    Holds kind (s ++ c :: t) ↔ Holds kind s ∨ Holds kind t := by
  constructor
  · rintro ⟨core, front, hcore, houtside, rest, htext⟩
    rcases append_cons_cases (hfree core hcore) htext with ⟨after, rfl⟩ | ⟨inner, rfl, rfl⟩
    · exact .inl ⟨core, front, hcore, houtside, after, rfl⟩
    · rw [isWordAt_getLast?_append_cons s hc] at houtside
      exact .inr ⟨core, inner, hcore, houtside, rest, rfl⟩
  · rintro (⟨core, front, hcore, hstands⟩ | ⟨core, front, hcore, houtside, rest, rfl⟩)
    · exact ⟨core, front, hcore, hstands.append _⟩
    · refine ⟨core, s ++ c :: front, hcore, ?_, rest, by simp⟩
      rwa [isWordAt_getLast?_append_cons s hc]

end Places

def Alters (find : Option Char → Text → Option Edit) : Prop :=
  ∀ before s edit, find before s = some edit → ¬ edit.replacement <+: s

theorem editAll_eq_self_iff {find : Option Char → Text → Option Edit} (hfind : Alters find)
    (before : Option Char) (s : Text) :
    editAll find before s = s ↔
      ∀ front rest, rest ≠ [] → s = front ++ rest →
        find (front.getLast?.or before) rest = none := by
  induction s generalizing before with
  | nil =>
      refine iff_of_true (by rw [editAll]) ?_
      intro front rest hrest htext
      exact absurd (List.append_eq_nil_iff.mp htext.symm).2 hrest
  | cons c s ih =>
      rcases hfound : find before (c :: s) with _ | edit
      · rw [editAll_cons_of_none hfound, List.cons_inj_right, ih]
        constructor
        · intro h front rest hrest htext
          rcases front with _ | ⟨d, front⟩
          · rw [List.nil_append] at htext
            rwa [← htext]
          · obtain ⟨rfl, htail⟩ := List.cons.inj htext
            rw [← h front rest hrest htail, List.getLast?_cons]
            rcases front.getLast? with _ | last <;> rfl
        · intro h front rest hrest htext
          rw [← h (c :: front) rest hrest (by rw [htext, List.cons_append]), List.getLast?_cons]
          rcases front.getLast? with _ | last <;> rfl
      · refine iff_of_false ?_ ?_
        · intro hsame
          rw [editAll, hfound] at hsame
          exact hfind before (c :: s) edit hfound ⟨_, hsame⟩
        · intro h
          have hnone := h [] (c :: s) (List.cons_ne_nil c s) rfl
          rw [List.getLast?_nil, Option.none_or, hfound] at hnone
          cases hnone

section Search

variable {names : List Text}

theorem alters_product? (hnames : AreWords names) : Alters (product? names) := by
  rintro before s edit hfound ⟨rest, hprefix⟩
  obtain ⟨-, name, hname, hproduct⟩ := product?_eq_some hfound
  obtain ⟨-, gap, gap', operand, after, hgap, -, -, -, rfl, rfl⟩ := exists_of_productOf? hproduct
  have hword : ∀ c ∈ "mul".toList, isWord c = true := by decide
  have hsame :
      "mul".toList ++ '(' :: (' ' :: operand ++ ", ".toList ++ name ++ " );".toList ++ rest) =
        name ++ (gap ++ '*' :: (gap' ++ operand ++ ';' :: after)) := by
    simpa [Edit.replacing] using hprefix
  have hbracket : ∀ t : Text, isWordAt ('(' :: t).head? = false := by
    intro t
    rw [List.head?_cons]
    decide
  obtain ⟨-, hopen⟩ := word_eq_of_append_eq hword (hnames name hname).2 (hbracket _)
    (isWordAt_head?_of_spaces hgap (by decide)) hsame
  -- a call has a bracket behind its name and a product a space or a star
  rcases gap with _ | ⟨c, gap⟩
  · cases (List.cons.inj hopen).1
  · rw [← (List.cons.inj hopen).1] at hgap
    exact absurd (hgap '(' (by simp)) (by decide)

theorem exists_operand {text : Text} (htext : '\n' ∉ text) (rest : Text) :
    ∃ gap operand after, Spaces gap ∧ ' ' ∉ operand.head? ∧
      (∀ c ∈ operand, isOperandChar c = true) ∧
      text ++ ';' :: rest = gap ++ operand ++ ';' :: after := by
  obtain ⟨after, hafter⟩ : ∃ after, text.dropWhile isOperandChar ++ ';' :: rest = ';' :: after := by
    rcases hdrop : text.dropWhile isOperandChar with _ | ⟨c, more⟩
    · exact ⟨rest, rfl⟩
    · have hmem : c ∈ text := (List.dropWhile_suffix isOperandChar).subset (by simp [hdrop])
      have hstop := not_of_mem_head?_dropWhile isOperandChar text c (by simp [hdrop])
      have hline : c ≠ '\n' := fun hc => htext (hc ▸ hmem)
      obtain rfl : c = ';' := by simpa [isOperandChar, hline] using hstop
      exact ⟨more ++ ';' :: rest, rfl⟩
  refine ⟨spaces (text.takeWhile isOperandChar), dropSpaces (text.takeWhile isOperandChar), after,
    spaces_spaces _, space_not_mem_head?_dropSpaces _, ?_, ?_⟩
  · intro c hc
    exact List.mem_takeWhile_imp ((List.dropWhile_suffix _).subset hc)
  · rw [spaces_append_dropSpaces, ← hafter, ← List.append_assoc, List.takeWhile_append_dropWhile]

theorem exists_fullProduct_of_product? {before : Option Char} {s : Text} {edit : Edit}
    (h : product? names before s = some edit) :
    ∃ core rest, FullProduct names core ∧ s = core ++ rest := by
  obtain ⟨-, name, hname, hproduct⟩ := product?_eq_some h
  obtain ⟨-, gap, gap', operand, rest, hgap, hgap', -, hoperand, rfl, -⟩ :=
    exists_of_productOf? hproduct
  refine ⟨name ++ gap ++ '*' :: (gap' ++ operand) ++ [';'], rest,
    ⟨name, gap, gap' ++ operand, hname, hgap, ?_, rfl⟩, by simp⟩
  intro hline
  rcases List.mem_append.mp hline with hline | hline
  · exact absurd (hgap' _ hline) (by decide)
  · exact absurd (hoperand _ hline) (by decide)

theorem product?_ne_none_iff (hnames : AreWords names) (front rest : Text) :
    product? names front.getLast? rest ≠ none ↔
      ∃ core, FullProduct names core ∧ StandsAt core front (front ++ rest) := by
  constructor
  · intro hfound
    obtain ⟨edit, hedit⟩ := Option.ne_none_iff_exists'.mp hfound
    obtain ⟨core, after, hcore, rfl⟩ := exists_fullProduct_of_product? hedit
    exact ⟨core, hcore, (startsWord_product? hnames _ _ _ hedit).1, after, by simp⟩
  · rintro ⟨_, ⟨name, gap, operand, hname, hgap, hline, rfl⟩, houtside, after, htext⟩
    obtain ⟨gap', inner, after', hgap', hspace, hinner, hsplit⟩ := exists_operand hline after
    have hrest : rest = name ++ (gap ++ '*' :: (gap' ++ inner ++ ';' :: after')) := by
      rw [← hsplit]
      simpa using htext
    have hfound := productOf?_append (isWordAt_getLast?_or (hnames name hname).1
      (hnames name hname).2 front.getLast?) hgap hgap' hspace hinner after'
    simp only [List.append_assoc, List.cons_append] at hrest hfound
    rw [hrest, product?_of_productOf? hnames houtside hname
      (isWordAt_head?_of_spaces hgap (by decide)) hfound]
    exact Option.some_ne_none _

theorem editAll_product?_eq_self_iff (hnames : AreWords names) (s : Text) :
    editAll (product? names) none s = s ↔ ¬ Holds (FullProduct names) s := by
  rw [editAll_eq_self_iff (alters_product? hnames)]
  simp only [Option.or_none]
  constructor
  · rintro h ⟨core, front, hcore, hstands⟩
    obtain ⟨rest, htext⟩ := hstands.text
    rw [List.append_assoc] at htext
    have hne : core ++ rest ≠ [] :=
      List.append_ne_nil_of_left_ne_nil
        (ne_nil_of_isWordAt_head? (beginsWord_fullProduct hnames core hcore)) rest
    exact (product?_ne_none_iff hnames front (core ++ rest)).mpr
      ⟨core, hcore, htext ▸ hstands⟩ (h front (core ++ rest) hne htext)
  · intro h front rest _ htext
    by_contra hfound
    obtain ⟨core, hcore, hstands⟩ := (product?_ne_none_iff hnames front rest).mp hfound
    exact h ⟨core, front, hcore, htext ▸ hstands⟩

end Search

theorem standsAt_append_word {core front word rest : Text}
    (hword : ∀ c ∈ word, isWord c = true) (h : StandsAt core front (word ++ rest)) :
    front = [] ∨ ∃ inner, front = word ++ inner ∧ StandsAt core inner rest := by
  obtain ⟨houtside, after, htext⟩ := h
  rw [List.append_assoc] at htext
  rcases List.append_eq_append_iff.mp htext with ⟨inner, rfl, hrest⟩ | ⟨more, hsplit, -⟩
  · exact .inr ⟨inner, rfl, isWordAt_getLast?_of_append houtside, after, by simpa using hrest⟩
  · -- otherwise the core would begin inside the word
    left
    by_contra hfront
    obtain ⟨last, hlast⟩ := Option.ne_none_iff_exists'.mp (mt List.getLast?_eq_none_iff.mp hfront)
    have hmem : last ∈ word := by
      rw [hsplit]
      exact List.mem_append_left _ (List.mem_of_getLast? hlast)
    simp [hlast, isWordAt, hword last hmem] at houtside

theorem exists_firstProduct? {names : List Text} (hnames : AreWords names) {core front s : Text}
    (hcore : Starred names core) (hstands : StandsAt core front s) :
    ∃ product, firstProduct? names s = some product ∧
      product.front.length ≤ front.length := by
  have hbegins := beginsWord_starred hnames core hcore
  induction s using word_induction generalizing front with
  | nil =>
      obtain ⟨rest, htext⟩ := hstands.text
      obtain ⟨hfront, -⟩ := List.append_eq_nil_iff.mp htext.symm
      exact absurd (List.append_eq_nil_iff.mp hfront).2 (ne_nil_of_isWordAt_head? hbegins)
  | other c rest hc ih =>
      obtain ⟨inner, rfl, hinner⟩ := (standsAt_cons_iff hc hbegins).mp hstands
      obtain ⟨product, hproduct, hlength⟩ := ih hinner
      refine ⟨product.behind [c], ?_, ?_⟩
      · rw [firstProduct?_cons_of_not_word names hc, hproduct, Option.map_some]
      · simpa [Product.behind] using hlength
  | word word rest hne hword hrest ih =>
      rw [firstProduct?_append_word names hne hword hrest]
      rcases hoperand : operandOf? names word rest with _ | operand
      · rcases standsAt_append_word hword hstands with rfl | ⟨inner, rfl, hinner⟩
        · -- the word itself has the star
          obtain ⟨name, gap, hname, hgap, rfl⟩ := hcore
          obtain ⟨after, htext⟩ := hstands.text
          have hsplit : word ++ rest = name ++ (gap ++ '*' :: after) := by simpa using htext
          obtain ⟨rfl, rfl⟩ := word_eq_of_append_eq hword (hnames name hname).2 hrest
            (isWordAt_head?_of_spaces hgap (by decide)) hsplit
          have hafter : afterMark? '*' (gap ++ '*' :: after) = some (dropSpaces after) :=
            (afterMark?_eq_some_iff (by decide) _ _).mpr ⟨gap, spaces after, hgap,
              spaces_spaces after, space_not_mem_head?_dropSpaces after,
              by rw [spaces_append_dropSpaces]⟩
          rw [(operandOf?_eq_some_iff ..).mpr ⟨hname, hafter⟩] at hoperand
          cases hoperand
        · obtain ⟨product, hproduct, hlength⟩ := ih rest le_rfl hinner
          refine ⟨product.behind word, ?_, ?_⟩
          · rw [hproduct]
            rfl
          · simpa [Product.behind] using hlength
      · exact ⟨⟨[], word, operand⟩, rfl, Nat.zero_le _⟩

section Calls

variable {names : List Text}

theorem not_mem_starred (hnames : AreWords names) {c : Char} (hc : isWord c = false)
    (hspace : c ≠ ' ') (hstar : c ≠ '*') : ∀ core, Starred names core → c ∉ core := by
  rintro core ⟨name, gap, hname, hgap, rfl⟩ hmem
  simp only [List.mem_append, List.mem_singleton] at hmem
  rcases hmem with (hmem | hmem) | hmem
  · rw [(hnames name hname).2 c hmem] at hc
    cases hc
  · exact hspace (hgap c hmem)
  · exact hstar hmem

theorem getLast?_of_starred {core : Text} (h : Starred names core) : core.getLast? = some '*' := by
  obtain ⟨name, gap, -, -, rfl⟩ := h
  exact List.getLast?_concat

theorem star_mem_of_holds {s : Text} (h : Holds (Starred names) s) : '*' ∈ s := by
  obtain ⟨core, front, ⟨name, gap, -, -, rfl⟩, -, rest, rfl⟩ := h
  simp

/-- Before its first product a statement has no matrix with a star behind it, and it gets none from
the name of the call. -/
theorem not_holds_front {statement : Text} {product : Product} (hnames : AreWords names)
    (hfirst : firstProduct? names statement = some product) :
    ¬ Holds (Starred names) (product.front ++ "mul".toList) := by
  rintro ⟨core, front, hcore, hstands⟩
  have hstar := getLast?_of_starred hcore
  obtain ⟨more, hmore⟩ := (hstands.of_append hstar (by decide)).text
  obtain ⟨-, gap, gap', -, -, hstatement⟩ := eq_of_firstProduct? hfirst
  have hearlier : StandsAt core front statement := by
    refine ⟨hstands.outside, more ++ statement.drop product.front.length, ?_⟩
    rw [← List.append_assoc, ← hmore, hstatement]
    simp [Product.upTo]
  obtain ⟨product', hfirst', hlength⟩ := exists_firstProduct? hnames hcore hearlier
  rw [hfirst, Option.some.injEq] at hfirst'
  subst hfirst'
  have hpos := List.length_pos_iff.mpr
    (ne_nil_of_isWordAt_head? (beginsWord_starred hnames core hcore))
  rw [hmore, List.length_append, List.length_append] at hlength
  omega

theorem holds_starred_call_iff (hnames : AreWords names) {statement : Text} {product : Product}
    (hfirst : firstProduct? names statement = some product) :
    Holds (Starred names) (product.front ++ "mul( ".toList ++ product.operand ++ ", ".toList ++
      product.matrix ++ " )".toList) ↔ Holds (Starred names) product.operand := by
  have hbegins := beginsWord_starred hnames
  have hmatrix : ¬ Holds (Starred names) (' ' :: product.matrix ++ [' ']) := by
    intro h
    have hstar := star_mem_of_holds h
    simp only [List.cons_append, List.mem_cons, List.mem_append, List.not_mem_nil,
      or_false] at hstar
    rcases hstar with hstar | hstar | hstar
    · exact absurd hstar (by decide)
    · exact absurd ((eq_of_firstProduct? hfirst).1 '*' hstar) (by decide)
    · exact absurd hstar (by decide)
  have hend : ¬ Holds (Starred names) [] := fun h => absurd (star_mem_of_holds h) (by simp)
  have hsplit : product.front ++ "mul( ".toList ++ product.operand ++ ", ".toList ++
      product.matrix ++ " )".toList = (product.front ++ "mul".toList) ++ '(' ::
        ((' ' :: product.operand) ++ ',' :: ((' ' :: product.matrix ++ [' ']) ++ ')' :: [])) := by
    simp
  have hcut : ∀ c ∈ ['(', ',', ')'], ∀ s t : Text,
      Holds (Starred names) (s ++ c :: t) ↔ Holds (Starred names) s ∨ Holds (Starred names) t := by
    intro c hc
    have hkind : ∀ d ∈ ['(', ',', ')'], isWord d = false ∧ d ≠ ' ' ∧ d ≠ '*' := by decide
    obtain ⟨hword, hspace, hstar⟩ := hkind c hc
    exact holds_append_cons_iff hword (not_mem_starred hnames hword hspace hstar)
  rw [hsplit, hcut '(' (by decide), hcut ',' (by decide), hcut ')' (by decide),
    holds_cons_iff hbegins (by decide)]
  simp only [not_holds_front hnames hfirst, hmatrix, hend, false_or, or_false]

theorem holds_fullProduct_statement_iff {statement : Text}
    (hstatement : ∀ c ∈ statement, isOperandChar c = true) :
    Holds (FullProduct names) (statement ++ [';']) ↔ Holds (Starred names) statement := by
  constructor
  · rintro ⟨_, front, ⟨name, gap, operand, hname, hgap, -, rfl⟩, houtside, rest, htext⟩
    have hrest : rest = [] := by
      rcases List.eq_nil_or_concat rest with hrest | ⟨before, last, rfl⟩
      · exact hrest
      · rw [List.concat_eq_append, ← List.append_assoc] at htext
        have hmem : ';' ∈ statement := by simp [(List.append_inj' htext rfl).1]
        exact absurd (hstatement ';' hmem) (by decide)
    rw [hrest, List.append_nil, ← List.append_assoc] at htext
    exact ⟨name ++ gap ++ ['*'], front, ⟨name, gap, hname, hgap, rfl⟩, houtside, operand,
      by simp [(List.append_inj' htext rfl).1]⟩
  · rintro ⟨_, front, ⟨name, gap, hname, hgap, rfl⟩, houtside, rest, rfl⟩
    refine ⟨_, front, ⟨name, gap, rest, hname, hgap, ?_, rfl⟩, houtside, [], by simp⟩
    intro hline
    exact absurd (hstatement '\n' (by simp [hline])) (by decide)

theorem semicolon_mem_of_holds {s : Text} (h : Holds (FullProduct names) s) : ';' ∈ s := by
  obtain ⟨core, front, ⟨name, gap, operand, -, -, -, rfl⟩, -, rest, rfl⟩ := h
  simp

/-- A line of a body: a statement, or the start of one that goes on after it. -/
inductive IsLine : Text → Prop
  | statement {statement : Text} (h : ∀ c ∈ statement, isOperandChar c = true) :
      IsLine (statement ++ [';'])
  | start {line : Text} (h : ∀ c ∈ line, isOperandChar c = true) : IsLine line

theorem holds_turnProduct_iff (hnames : AreWords names) {line : Text} (hline : IsLine line) :
    Holds (FullProduct names) (turnProduct names line) ↔
      ∃ product, productIn? names line = some product ∧ Holds (Starred names) product.operand := by
  rcases hline with @⟨statement, hchars⟩ | hchars
  · rw [productIn?_statement]
    rcases hfirst : firstProduct? names statement with _ | product
    · refine iff_of_false ?_ (by simp)
      rw [turnProduct, productIn?_statement, hfirst, Option.map_none, Option.getD_none,
        holds_fullProduct_statement_iff hchars]
      rintro ⟨core, front, hcore, hstands⟩
      obtain ⟨product, hproduct, -⟩ := exists_firstProduct? hnames hcore hstands
      rw [hfirst] at hproduct
      cases hproduct
    · have hturned : turnProduct names (statement ++ [';']) =
          product.front ++ "mul( ".toList ++ product.operand ++ ", ".toList ++ product.matrix ++
            " )".toList ++ [';'] := by
        rw [turnProduct_of_productIn? ((productIn?_statement names statement).trans hfirst)]
        simp [Product.call]
      have hcall : ∀ c ∈ product.front ++ "mul( ".toList ++ product.operand ++ ", ".toList ++
          product.matrix ++ " )".toList, isOperandChar c = true := by
        obtain ⟨-, gap, gap', -, -, rfl⟩ := eq_of_firstProduct? hfirst
        have hadded : ∀ c ∈ "mul( , )".toList, isOperandChar c = true := by decide
        intro c hc
        simp only [List.mem_append] at hc
        rcases hc with ((((hc | hc) | hc) | hc) | hc) | hc
        · exact hchars c (by simp [Product.upTo, hc])
        · exact hadded c (by revert hc; revert c; decide)
        · exact hchars c (by simp [hc])
        · exact hadded c (by revert hc; revert c; decide)
        · exact hchars c (by simp [Product.upTo, hc])
        · exact hadded c (by revert hc; revert c; decide)
      rw [hturned, holds_fullProduct_statement_iff hcall, holds_starred_call_iff hnames hfirst]
      simp
  · have hnone : ';' ∉ line := fun hmem => absurd (hchars ';' hmem) (by decide)
    rw [turnProduct_of_not_mem names hnone]
    refine iff_of_false (fun h => hnone (semicolon_mem_of_holds h)) ?_
    rintro ⟨product, hproduct, -⟩
    obtain ⟨statement, rfl, -⟩ := exists_statement_of_productIn? hproduct
    exact hnone (by simp)

end Calls

theorem IsLine.cons {c : Char} {line : Text} (hc : isOperandChar c = true) (h : IsLine line) :
    IsLine (c :: line) := by
  rcases h with h | h
  · exact .statement (List.forall_mem_cons.mpr ⟨hc, h⟩)
  · exact .start (List.forall_mem_cons.mpr ⟨hc, h⟩)

theorem isLine_of_mem_modifyHead {c : Char} (hc : isOperandChar c = true) {lines : List Text}
    (hlines : ∀ line ∈ lines, IsLine line) : ∀ line ∈ lines.modifyHead (c :: ·), IsLine line := by
  rcases lines with _ | ⟨first, later⟩
  · simp
  · rw [List.modifyHead_cons, List.forall_mem_cons]
    rw [List.forall_mem_cons] at hlines
    exact ⟨hlines.1.cons hc, hlines.2⟩

theorem isLine_of_mem_breakLines (s : Text) :
    ∀ line ∈ (breakLines s).splitOn '\n', IsLine line := by
  fun_induction breakLines s with
  | case1 =>
      rw [List.splitOn_nil, List.forall_mem_singleton]
      exact .start (by simp)
  | case2 rest ih =>
      show ∀ line ∈ (';' :: '\n' :: '\t' :: breakLines (dropSpaces rest)).splitOn '\n', IsLine line
      rw [List.splitOn_cons_eq_if_modifyHead, List.splitOn_cons_eq_if_modifyHead,
        List.splitOn_cons_eq_if_modifyHead, if_neg (by decide), if_pos (by decide),
        if_neg (by decide), List.modifyHead_cons, List.forall_mem_cons]
      have hempty : ∀ c ∈ ([] : Text), isOperandChar c = true := by simp
      exact ⟨.statement hempty, isLine_of_mem_modifyHead (by decide) ih⟩
  | case3 c rest hc ih =>
      rw [List.splitOn_cons_eq_if_modifyHead]
      split
      · rw [List.forall_mem_cons]
        exact ⟨.start (by simp), ih⟩
      · rename_i hline
        exact isLine_of_mem_modifyHead (by simp_all [isOperandChar]) ih

section Lines

variable {names : List Text}

theorem newline_not_mem_fullProduct (hnames : AreWords names) :
    ∀ core, FullProduct names core → '\n' ∉ core := by
  rintro core ⟨name, gap, operand, hname, hgap, hoperand, rfl⟩ hmem
  simp only [List.mem_append, List.mem_cons, List.not_mem_nil, or_false] at hmem
  rcases hmem with ((hmem | hmem) | hmem | hmem) | hmem
  · exact absurd ((hnames name hname).2 _ hmem) (by decide)
  · exact absurd (hgap _ hmem) (by decide)
  · exact absurd hmem (by decide)
  · exact hoperand hmem
  · exact absurd hmem (by decide)

theorem editAll_product?_start (hnames : AreWords names) (before : Option Char) {line : Text}
    (hline : ∀ c ∈ line, isOperandChar c = true) (rest : Text) :
    editAll (product? names) before (line ++ '\n' :: rest) =
      line ++ '\n' :: editAll (product? names) (some '\n') rest := by
  rw [editAll_append_of_none, editAll_cons_of_not_word (startsWord_product? hnames) _ (by decide)]
  intro front inner _ htext
  rcases hfound : product? names (front.getLast?.or before) (inner ++ '\n' :: rest) with _ | edit
  · rfl
  · obtain ⟨core, after, hcore, hsplit⟩ := exists_fullProduct_of_product? hfound
    have hend : ';' ∈ core := by
      obtain ⟨name, gap, operand, -, -, -, rfl⟩ := hcore
      simp
    have hnone : ';' ∉ inner := by
      intro hmem
      exact absurd (hline ';' (by simp [htext, hmem])) (by decide)
    -- the product would end before the line does, but a statement does not
    have hwhole : inner ++ '\n' :: rest = [] ++ core ++ after := by simpa using hsplit
    rcases append_cons_cases (newline_not_mem_fullProduct hnames core hcore) hwhole with
      ⟨more, rfl⟩ | ⟨before, hbefore, -⟩
    · exact absurd (by simp [hend]) hnone
    · simp at hbefore

theorem editAll_product?_line (hnames : AreWords names) {before : Option Char}
    (hbefore : isWordAt before = false) {line : Text} (hline : IsLine line) (rest : Text) :
    editAll (product? names) before (line ++ '\n' :: rest) =
      turnProduct names line ++ '\n' :: editAll (product? names) (some '\n') rest := by
  rcases hline with @⟨statement, hchars⟩ | hchars
  · rw [List.append_assoc, List.singleton_append,
      editAll_product?_statement hnames hchars (.inl hbefore),
      editAll_cons_of_not_word (startsWord_product? hnames) _ (by decide)]
  · have hnone : ';' ∉ line := fun hmem => absurd (hchars ';' hmem) (by decide)
    rw [editAll_product?_start hnames before hchars, turnProduct_of_not_mem names hnone]

theorem editAll_product?_last (hnames : AreWords names) {before : Option Char}
    (hbefore : isWordAt before = false) {line : Text} (hline : IsLine line) :
    editAll (product? names) before line = turnProduct names line := by
  rcases hline with @⟨statement, hchars⟩ | hchars
  · rw [editAll_product?_statement hnames hchars (.inl hbefore), editAll, List.append_nil]
  · have hnone : ';' ∉ line := fun hmem => absurd (hchars ';' hmem) (by decide)
    rw [editAll_product?_of_not_mem names before hnone, turnProduct_of_not_mem names hnone]

theorem editAll_product?_lines (hnames : AreWords names) {before : Option Char}
    (hbefore : isWordAt before = false) {lines : List Text}
    (hlines : ∀ line ∈ lines, IsLine line) :
    editAll (product? names) before (['\n'].intercalate lines) =
      ['\n'].intercalate (lines.map (turnProduct names)) := by
  induction lines generalizing before with
  | nil => simp [editAll]
  | cons line later ih =>
      obtain ⟨hline, hlater⟩ := List.forall_mem_cons.mp hlines
      rcases eq_or_ne later [] with rfl | hne
      · simpa using editAll_product?_last hnames hbefore hline
      · rw [List.intercalate_cons_of_ne_nil hne, List.map_cons,
          List.intercalate_cons_of_ne_nil (by simpa using hne),
          ← ih (show isWordAt (some '\n') = false by decide) hlater]
        simpa using editAll_product?_line hnames hbefore hline _

theorem holds_intercalate_iff (hnames : AreWords names) (lines : List Text) :
    Holds (FullProduct names) (['\n'].intercalate lines) ↔
      ∃ line ∈ lines, Holds (FullProduct names) line := by
  induction lines with
  | nil => simpa using fun h => absurd (semicolon_mem_of_holds h) (by simp)
  | cons line later ih =>
      rcases eq_or_ne later [] with rfl | hne
      · simp
      · rw [List.intercalate_cons_of_ne_nil hne, List.append_assoc, List.singleton_append,
          holds_append_cons_iff (by decide) (newline_not_mem_fullProduct hnames), ih,
          List.exists_mem_cons_iff]

theorem holds_trimEnd_iff (s : Text) :
    Holds (FullProduct names) (trimEnd s) ↔ Holds (FullProduct names) s := by
  obtain ⟨trail, htrail, hsplit⟩ := exists_trimEnd_append s
  constructor
  · rintro ⟨core, front, hcore, hstands⟩
    rw [hsplit]
    exact ⟨core, front, hcore, hstands.append trail⟩
  · rintro ⟨core, front, hcore, hstands⟩
    rw [hsplit] at hstands
    refine ⟨core, front, hcore, hstands.of_append (c := ';') ?_ ?_⟩
    · obtain ⟨name, gap, operand, -, -, -, rfl⟩ := hcore
      exact List.getLast?_concat
    · intro hmem
      exact absurd (htrail ';' hmem) (by decide)

end Lines

/-- The lines of a body before its products are turned. -/
def linesOf (stage : Stage) (body : Text) : List Text :=
  (breakLines (returnColor stage (trim body))).splitOn '\n'

theorem holds_format_iff (stage : Stage) {names : List Text} (hnames : AreWords names)
    (body : Text) :
    Holds (FullProduct names) (format stage names body) ↔
      ∃ line ∈ linesOf stage body, ∃ product, productIn? names line = some product ∧
        Holds (Starred names) product.operand := by
  have hlines : ∀ line ∈ linesOf stage body, IsLine line := isLine_of_mem_breakLines _
  have hturned : Holds (FullProduct names)
      (editAll (product? names) none (breakLines (returnColor stage (trim body)))) ↔
        ∃ line ∈ linesOf stage body, ∃ product, productIn? names line = some product ∧
          Holds (Starred names) product.operand := by
    have hwhole : breakLines (returnColor stage (trim body)) =
        ['\n'].intercalate (linesOf stage body) := (List.intercalate_splitOn '\n').symm
    rw [hwhole, editAll_product?_lines hnames (show isWordAt none = false by decide) hlines,
      holds_intercalate_iff hnames]
    simp only [List.mem_map, exists_exists_and_eq_and]
    exact exists_congr fun line => and_congr_right fun hline =>
      holds_turnProduct_iff hnames (hlines line hline)
  rw [← hturned]
  by_cases hbody : Blank body
  · rw [format_of_blank stage names hbody, (trim_eq_nil_iff body).mpr hbody]
    cases stage <;> simp [returnColor, editAll, breakLines]
  · rw [format_of_not_blank stage names hbody,
      holds_cons_iff (beginsWord_fullProduct hnames) (by decide), holds_trimEnd_iff]

/-- Formatting the products of a formatted body once more changes it exactly if it still holds one,
a matrix as a whole word with a star behind it and a semicolon later on its line. That is so exactly
if a line has a product whose operand holds another matrix with a star. -/
theorem product_left_iff (stage : Stage) {names : List Text} (hnames : AreWords names)
    (body : Text) :
    (editAll (product? names) none (format stage names body) = format stage names body ↔
      ¬ Holds (FullProduct names) (format stage names body)) ∧
    (Holds (FullProduct names) (format stage names body) ↔
      ∃ line ∈ linesOf stage body, ∃ product, productIn? names line = some product ∧
        Holds (Starred names) product.operand) :=
  ⟨editAll_product?_eq_self_iff hnames _, holds_format_iff stage hnames body⟩

theorem product_left_iff_call_argument :
    AreWords ["M".toList, "N".toList] ∧
      Holds (FullProduct ["M".toList, "N".toList])
        (format .fragment ["M".toList, "N".toList] "gl_FragColor = M * f(N*v); N * w;".toList) ∧
      ¬ Holds (FullProduct ["M".toList, "N".toList])
        (format .fragment ["M".toList, "N".toList] "a = b\n+ M * v; N * w;".toList) := by
  have hnames : AreWords ["M".toList, "N".toList] := by decide
  refine ⟨hnames, ?_, ?_⟩
  · refine (product_left_iff .fragment hnames _).2.mpr
      ⟨"return M * f(N*v);".toList, by decide +kernel,
        ⟨"return ".toList, "M".toList, "f(N*v)".toList⟩, by decide +kernel, "N*".toList,
        "f(".toList, ⟨"N".toList, [], by decide, by simp [Spaces], rfl⟩, by decide,
        "v)".toList, rfl⟩
  · rw [← (product_left_iff .fragment hnames _).1]
    decide +kernel

theorem chain_keeps_product :
    AreWords ["N1".toList, "N2".toList] ∧
      format .vertex ["N1".toList, "N2".toList] "p = N1 * N2 * v;".toList =
        "\tp = mul( N2 * v, N1 );".toList ∧
      Holds (FullProduct ["N1".toList, "N2".toList]) "\tp = mul( N2 * v, N1 );".toList ∧
      editAll (product? ["N1".toList, "N2".toList]) none "\tp = mul( N2 * v, N1 );".toList ≠
        "\tp = mul( N2 * v, N1 );".toList ∧
      ¬ ∀ stage names body, AreWords names →
        ¬ Holds (FullProduct names) (format stage names body) := by
  have hnames : AreWords ["N1".toList, "N2".toList] := by decide
  have hformat : format .vertex ["N1".toList, "N2".toList] "p = N1 * N2 * v;".toList =
      "\tp = mul( N2 * v, N1 );".toList := by decide +kernel
  have hholds : Holds (FullProduct ["N1".toList, "N2".toList])
      "\tp = mul( N2 * v, N1 );".toList :=
    ⟨"N2 * v, N1 );".toList, "\tp = mul( ".toList,
      ⟨"N2".toList, " ".toList, " v, N1 )".toList, by decide, by simp [Spaces], by decide, rfl⟩,
      by decide, [], rfl⟩
  refine ⟨hnames, hformat, hholds, by decide +kernel, fun h => ?_⟩
  exact h .vertex _ "p = N1 * N2 * v;".toList hnames (hformat ▸ hholds)

end CgShader.Proofs.ProductsLeft
