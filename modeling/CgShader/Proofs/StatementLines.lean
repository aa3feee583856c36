import CgShader.Proofs.WordEdits

/-!
The body of a generated function, statement by statement. `bodyLines` puts one statement on each
line and looks at each statement alone; `format` edits the whole text at once. The main statement is
that both give the same body.
-/

namespace CgShader.Proofs.StatementLines

open CgShader.Text
open CgShader.Body
open CgShader.Proofs.TextRuns
open CgShader.Proofs.WhiteSpace
open CgShader.Proofs.BodyEdits
open CgShader.Proofs.WordEdits

/-- The statements of a fragment, word by word: the name of the color with the equals sign behind
it makes way for a return. -/
def returnWrites : Text → Text
  | [] => []
  | c :: rest =>
    if isWord c then
      match _h : if c :: rest.takeWhile isWord = colorName then
          afterMark? '=' (rest.dropWhile isWord) else none with
      | some right => "return ".toList ++ returnWrites right
      | none => c :: rest.takeWhile isWord ++ returnWrites (rest.dropWhile isWord)
    else c :: returnWrites rest
termination_by s => s.length
decreasing_by
  · have hrest := length_dropWhile_le isWord rest
    split at _h
    · have hright := length_lt_of_afterMark? _h
      simp only [List.length_cons]
      omega
    · cases _h
  · have hrest := length_dropWhile_le isWord rest
    simp only [List.length_cons]
    omega
  · simp

theorem returnWrites_nil : returnWrites [] = [] := by
  rw [returnWrites]

theorem returnWrites_cons_of_not_word {c : Char} (hc : isWord c = false) (rest : Text) :
    returnWrites (c :: rest) = c :: returnWrites rest := by
  rw [returnWrites, hc]
  rfl

theorem returnWrites_colorName_append {rest right : Text} (hrest : isWordAt rest.head? = false)
    (h : afterMark? '=' rest = some right) :
    returnWrites (colorName ++ rest) = "return ".toList ++ returnWrites right := by
  have hname : colorName = 'g' :: colorName.tail := by decide
  have htail : ∀ c ∈ colorName.tail, isWord c = true := by decide
  have hstop := not_word_of_isWordAt_head? hrest
  rw [hname, List.cons_append, returnWrites, if_pos (by decide)]
  split
  · rename_i right' h'
    rw [takeWhile_run htail hstop, dropWhile_run htail hstop, if_pos hname.symm, h] at h'
    cases h'
    rfl
  · rename_i h'
    rw [takeWhile_run htail hstop, dropWhile_run htail hstop, if_pos hname.symm, h] at h'
    cases h'

theorem returnWrites_append_word {word rest : Text} (hne : word ≠ [])
    (hword : ∀ c ∈ word, isWord c = true) (hrest : isWordAt rest.head? = false)
    (h : word = colorName → afterMark? '=' rest = none) :
    returnWrites (word ++ rest) = word ++ returnWrites rest := by
  rcases word with _ | ⟨c, word⟩
  · exact absurd rfl hne
  have hc := hword c (by simp)
  have htail : ∀ d ∈ word, isWord d = true := fun d hd => hword d (List.mem_cons_of_mem c hd)
  have hstop := not_word_of_isWordAt_head? hrest
  rw [List.cons_append, returnWrites, if_pos hc]
  split
  · rename_i right h'
    rw [takeWhile_run htail hstop, dropWhile_run htail hstop] at h'
    split at h'
    · rename_i hname
      rw [h hname] at h'
      cases h'
    · cases h'
  · rw [takeWhile_run htail hstop, dropWhile_run htail hstop]

theorem editAll_colorWrite? {before : Option Char} {s : Text} (houtside : Outside before s) :
    editAll colorWrite? before s = returnWrites s := by
  induction s using word_induction generalizing before with
  | nil => rw [editAll, returnWrites_nil]
  | other c rest hc ih =>
      rw [editAll_cons_of_not_word startsWord_colorWrite? before hc,
        returnWrites_cons_of_not_word hc, ih (.inl (by simpa [isWordAt] using hc))]
  | word word rest hne hword hrest ih =>
      have hbefore := isWordAt_of_outside hne hword houtside
      have hboundary := (isBoundary_iff_of_word (isWordAt_head?_append hne hword rest)).mpr hbefore
      by_cases hwrite : word = colorName ∧ ∃ right, afterMark? '=' rest = some right
      · obtain ⟨rfl, right, hright⟩ := hwrite
        rw [returnWrites_colorName_append hrest hright]
        obtain ⟨gap, gap', hgap, hgap', hstop, rfl⟩ :=
          (afterMark?_eq_some_iff (by decide) _ _).mp hright
        have hcovered : colorName ++ (gap ++ '=' :: (gap' ++ right)) =
            colorName ++ gap ++ '=' :: gap' ++ right := by simp
        rw [hcovered] at hboundary ⊢
        rw [editAll_append_of_some (by simp) ((colorWrite?_eq_some_iff ..).mpr
          ⟨hboundary, gap, gap', right, hgap, hgap', hstop, rfl, rfl⟩),
          ih right (by simp; omega) (.inl (isWordAt_getLast?_of_spaces _ hgap' (by decide)))]
      · have hnone : colorWrite? before (word ++ rest) = none := by
          rcases hresult : colorWrite? before (word ++ rest) with _ | edit
          · rfl
          · exact absurd (colorWrite?_append_word hword hrest hresult) hwrite
        obtain ⟨last, -, hedit⟩ := editAll_append_word startsWord_colorWrite? hne hword hnone
        rw [hedit, ih rest le_rfl (.inr hrest), returnWrites_append_word hne hword hrest]
        intro hname
        rcases hafter : afterMark? '=' rest with _ | right
        · rfl
        · exact absurd ⟨hname, right, hafter⟩ hwrite

/-- The pieces of a text: it is cut behind each semicolon, and the spaces there are dropped. -/
def pieces : Text → List Text
  | [] => [[]]
  | c :: rest =>
    if c = ';' then [';'] :: pieces (dropSpaces rest)
    else (pieces rest).modifyHead (c :: ·)
termination_by s => s.length
decreasing_by
  · have hrest := length_dropSpaces_le rest
    simp only [List.length_cons]
    omega
  · simp

theorem pieces_cons_of_ne {c : Char} (hc : c ≠ ';') (rest : Text) :
    pieces (c :: rest) = (pieces rest).modifyHead (c :: ·) := by
  rw [pieces, if_neg hc]

theorem pieces_of_not_mem {s : Text} (hs : ';' ∉ s) : pieces s = [s] := by
  induction s with
  | nil => rw [pieces]
  | cons c s ih =>
      obtain ⟨hc, hs⟩ := List.ne_and_not_mem_of_not_mem_cons hs
      rw [pieces_cons_of_ne hc.symm, ih hs, List.modifyHead_cons]

theorem pieces_append {statement : Text} (hstatement : ';' ∉ statement) (rest : Text) :
    pieces (statement ++ ';' :: rest) = (statement ++ [';']) :: pieces (dropSpaces rest) := by
  induction statement with
  | nil => rw [List.nil_append, pieces, if_pos rfl, List.nil_append]
  | cons c statement ih =>
      obtain ⟨hc, hstatement⟩ := List.ne_and_not_mem_of_not_mem_cons hstatement
      rw [List.cons_append, pieces_cons_of_ne hc.symm, ih hstatement, List.modifyHead_cons,
        List.cons_append]

/-- To go through a text statement by statement: it ends, or a statement ends in it. -/
theorem statement_induction {motive : Text → Prop} (last : ∀ s, ';' ∉ s → motive s)
    (statement : ∀ statement rest, ';' ∉ statement → motive (dropSpaces rest) →
      motive (statement ++ ';' :: rest)) (s : Text) : motive s := by
  induction hlength : s.length using Nat.strongRecOn generalizing s with
  | ind length ih =>
      subst hlength
      by_cases hs : ';' ∈ s
      · obtain ⟨front, rest, rfl, hfront⟩ := List.eq_append_cons_of_mem hs
        have hshorter : (dropSpaces rest).length < (front ++ ';' :: rest).length := by
          have := length_dropSpaces_le rest
          simp only [List.length_append, List.length_cons]
          omega
        exact statement front rest hfront (ih _ hshorter _ rfl)
      · exact last s hs

theorem pieces_ne_nil (s : Text) : pieces s ≠ [] := by
  induction s using statement_induction with
  | last s hs =>
      rw [pieces_of_not_mem hs]
      exact List.cons_ne_nil s []
  | statement statement rest hstatement _ =>
      rw [pieces_append hstatement]
      exact List.cons_ne_nil _ _

theorem breakLines_append_of_not_mem {s : Text} (hs : ';' ∉ s) (rest : Text) :
    breakLines (s ++ rest) = s ++ breakLines rest := by
  induction s with
  | nil => rfl
  | cons c s ih =>
      obtain ⟨hc, hs⟩ := List.ne_and_not_mem_of_not_mem_cons hs
      rw [List.cons_append, breakLines, ih hs, List.cons_append]
      exact hc.symm

theorem breakLines_eq_intercalate (s : Text) :
    breakLines s = ['\n', '\t'].intercalate (pieces s) := by
  induction s using statement_induction with
  | last s hs =>
      have hbreak := breakLines_append_of_not_mem hs []
      rw [breakLines, List.append_nil] at hbreak
      rw [hbreak, pieces_of_not_mem hs, List.intercalate_singleton]
  | statement statement rest hstatement ih =>
      rw [breakLines_append_of_not_mem hstatement, breakLines, ih, pieces_append hstatement,
        List.intercalate_cons_of_ne_nil (pieces_ne_nil _)]
      simp

/-- A product with a matrix on its left: what stands before it in the statement, the matrix, and
all that follows the star. -/
structure Product where
  front : Text
  matrix : Text
  operand : Text
deriving DecidableEq

namespace Product

def behind (text : Text) (product : Product) : Product :=
  { product with front := text ++ product.front }

def upTo (product : Product) (gap gap' : Text) : Text :=
  product.front ++ product.matrix ++ gap ++ '*' :: gap'

def call (product : Product) : Text :=
  product.front ++ "mul( ".toList ++ product.operand ++ ", ".toList ++ product.matrix ++
    " );".toList

theorem call_behind (text : Text) (product : Product) :
    (product.behind text).call = text ++ product.call := by
  simp [call, behind]

end Product

/-- What follows a word and a star behind it, if the word is one of the matrices. -/
def operandOf? (names : List Text) (word rest : Text) : Option Text :=
  if word ∈ names then afterMark? '*' rest else none

theorem operandOf?_eq_some_iff (names : List Text) (word rest operand : Text) :
    operandOf? names word rest = some operand ↔
      word ∈ names ∧ afterMark? '*' rest = some operand := by
  rw [operandOf?, Option.ite_none_right_eq_some]

/-- The first product in a statement whose matrix, a whole word, is among `names`. -/
def firstProduct? (names : List Text) : Text → Option Product
  | [] => none
  | c :: rest =>
    if isWord c then
      match operandOf? names (c :: rest.takeWhile isWord) (rest.dropWhile isWord) with
      | some operand => some ⟨[], c :: rest.takeWhile isWord, operand⟩
      | none => (firstProduct? names (rest.dropWhile isWord)).map
          (.behind (c :: rest.takeWhile isWord))
    else (firstProduct? names rest).map (.behind [c])
termination_by s => s.length
decreasing_by
  · have hrest := length_dropWhile_le isWord rest
    simp only [List.length_cons]
    omega
  · simp

theorem firstProduct?_cons_of_not_word (names : List Text) {c : Char} (hc : isWord c = false)
    (rest : Text) : firstProduct? names (c :: rest) =
      (firstProduct? names rest).map (.behind [c]) := by
  rw [firstProduct?, hc]
  rfl

theorem firstProduct?_append_word (names : List Text) {word rest : Text} (hne : word ≠ [])
    (hword : ∀ c ∈ word, isWord c = true) (hrest : isWordAt rest.head? = false) :
    firstProduct? names (word ++ rest) =
      match operandOf? names word rest with
      | some operand => some ⟨[], word, operand⟩
      | none => (firstProduct? names rest).map (.behind word) := by
  rcases word with _ | ⟨c, word⟩
  · exact absurd rfl hne
  have hc := hword c (by simp)
  have htail : ∀ d ∈ word, isWord d = true := fun d hd => hword d (List.mem_cons_of_mem c hd)
  have hstop := not_word_of_isWordAt_head? hrest
  rw [List.cons_append, firstProduct?, if_pos hc, takeWhile_run htail hstop,
    dropWhile_run htail hstop]

theorem eq_of_firstProduct? {names : List Text} {s : Text} {product : Product}
    (h : firstProduct? names s = some product) :
    (∀ c ∈ product.matrix, isWord c = true) ∧
      ∃ gap gap', Spaces gap ∧ Spaces gap' ∧ s = product.upTo gap gap' ++ product.operand := by
  induction s using word_induction generalizing product with
  | nil =>
      rw [firstProduct?] at h
      cases h
  | other c rest hc ih =>
      rw [firstProduct?_cons_of_not_word names hc] at h
      obtain ⟨found, hfound, rfl⟩ := Option.map_eq_some_iff.mp h
      obtain ⟨hmatrix, gap, gap', hgap, hgap', rfl⟩ := ih hfound
      exact ⟨hmatrix, gap, gap', hgap, hgap', rfl⟩
  | word word rest hne hword hrest ih =>
      rw [firstProduct?_append_word names hne hword hrest] at h
      split at h
      · rename_i operand hoperand
        cases h
        obtain ⟨gap, gap', hgap, hgap', -, rfl⟩ := (afterMark?_eq_some_iff (by decide) _ _).mp
          ((operandOf?_eq_some_iff ..).mp hoperand).2
        exact ⟨hword, gap, gap', hgap, hgap', by simp [Product.upTo]⟩
      · obtain ⟨found, hfound, rfl⟩ := Option.map_eq_some_iff.mp h
        obtain ⟨hmatrix, gap, gap', hgap, hgap', rfl⟩ := ih rest le_rfl hfound
        exact ⟨hmatrix, gap, gap', hgap, hgap', by simp [Product.upTo, Product.behind]⟩

/-- The first product in a piece, if the piece is a whole statement. -/
def productIn? (names : List Text) (piece : Text) : Option Product :=
  if piece.getLast? = some ';' then firstProduct? names piece.dropLast else none

/-- A piece with its first product, if it has one, as a call. -/
def turnProduct (names : List Text) (piece : Text) : Text :=
  ((productIn? names piece).map Product.call).getD piece

theorem productIn?_statement (names : List Text) (statement : Text) :
    productIn? names (statement ++ [';']) = firstProduct? names statement := by
  rw [productIn?, List.getLast?_concat, if_pos rfl, List.dropLast_concat]

theorem exists_statement_of_productIn? {names : List Text} {piece : Text} {product : Product}
    (h : productIn? names piece = some product) :
    ∃ statement, piece = statement ++ [';'] ∧ firstProduct? names statement = some product := by
  unfold productIn? at h
  split at h
  · rename_i hlast
    exact ⟨piece.dropLast, (List.dropLast_append_getLast? ';' hlast).symm, h⟩
  · cases h

theorem turnProduct_of_productIn? {names : List Text} {piece : Text} {product : Product}
    (h : productIn? names piece = some product) : turnProduct names piece = product.call := by
  rw [turnProduct, h]
  rfl

theorem turnProduct_of_firstProduct?_behind {names : List Text} {front statement : Text}
    (h : firstProduct? names (front ++ statement) =
      (firstProduct? names statement).map (.behind front)) :
    turnProduct names (front ++ statement ++ [';']) =
      front ++ turnProduct names (statement ++ [';']) := by
  rw [turnProduct, turnProduct, productIn?_statement, productIn?_statement, h]
  rcases firstProduct? names statement with _ | product
  · simp
  · simp [Product.call_behind]

theorem turnProduct_of_not_mem (names : List Text) {piece : Text} (hpiece : ';' ∉ piece) :
    turnProduct names piece = piece := by
  rw [turnProduct, productIn?, if_neg]
  · rfl
  · intro hlast
    exact hpiece (List.mem_of_getLast? hlast)

theorem productOf?_statement_iff (word : Text) (before : Option Char) {rest : Text}
    (hword : isWordAt (word.getLast?.or before) = true)
    (hrest : ∀ c ∈ rest, isOperandChar c = true) (after : Text) (edit : Edit) :
    productOf? word before (word ++ (rest ++ ';' :: after)) = some edit ↔
      ∃ operand, afterMark? '*' rest = some operand ∧
        edit = .replacing (word ++ rest ++ [';'])
          ("mul( ".toList ++ operand ++ ", ".toList ++ word ++ " );".toList) := by
  constructor
  · intro h
    obtain ⟨-, gap, gap', operand, after', hgap, hgap', hspace, hoperand, happend, rfl⟩ :=
      exists_of_productOf? h
    have hstop : ∀ t : Text, ∀ c ∈ (';' :: t).head?, isOperandChar c = false := by
      intro t c hc
      obtain rfl : ';' = c := by simpa using hc
      decide
    have hgapChar : ∀ {gap : Text}, Spaces gap → ∀ c ∈ gap, isOperandChar c = true := by
      intro gap hgap c hc
      rw [hgap c hc]
      decide
    have hfound : ∀ c ∈ gap ++ '*' :: (gap' ++ operand), isOperandChar c = true := by
      intro c hc
      simp only [List.mem_append, List.mem_cons] at hc
      rcases hc with hc | rfl | hc | hc
      · exact hgapChar hgap c hc
      · decide
      · exact hgapChar hgap' c hc
      · exact hoperand c hc
    have hsame : rest ++ ';' :: after = gap ++ '*' :: (gap' ++ operand) ++ ';' :: after' := by
      simpa using happend
    have htake := congrArg (List.takeWhile isOperandChar) hsame
    rw [takeWhile_run hrest (hstop after), takeWhile_run hfound (hstop after')] at htake
    subst htake
    exact ⟨operand, (afterMark?_eq_some_iff (by decide) _ _).mpr
      ⟨gap, gap', hgap, hgap', hspace, rfl⟩, by simp⟩
  · rintro ⟨operand, hoperand, rfl⟩
    obtain ⟨gap, gap', hgap, hgap', hspace, rfl⟩ :=
      (afterMark?_eq_some_iff (by decide) _ _).mp hoperand
    have hoperand : ∀ c ∈ operand, isOperandChar c = true := by
      intro c hc
      exact hrest c (by simp [hc])
    simpa using productOf?_append hword hgap hgap' hspace hoperand after

theorem product?_statement {names : List Text} (hnames : AreWords names) {before : Option Char}
    (hbefore : isWordAt before = false) {word rest : Text} (hne : word ≠ [])
    (hword : ∀ c ∈ word, isWord c = true) (hrest : isWordAt rest.head? = false)
    (hchars : ∀ c ∈ rest, isOperandChar c = true) (after : Text) :
    product? names before (word ++ (rest ++ ';' :: after)) =
      (operandOf? names word rest).map fun operand => .replacing (word ++ rest ++ [';'])
        ("mul( ".toList ++ operand ++ ", ".toList ++ word ++ " );".toList) := by
  have hend := isWordAt_head?_append_semicolon hrest after
  have hfound := productOf?_statement_iff word before (isWordAt_getLast?_or hne hword before)
    hchars after
  rcases hoperand : operandOf? names word rest with _ | operand
  · rcases hresult : product? names before (word ++ (rest ++ ';' :: after)) with _ | edit
    · rfl
    · obtain ⟨hmem, hproduct⟩ := product?_append_word hnames hword hend hresult
      obtain ⟨operand, hafter, -⟩ := (hfound edit).mp hproduct
      rw [(operandOf?_eq_some_iff ..).mpr ⟨hmem, hafter⟩] at hoperand
      cases hoperand
  · obtain ⟨hmem, hafter⟩ := (operandOf?_eq_some_iff ..).mp hoperand
    exact product?_of_productOf? hnames hbefore hmem hend
      ((hfound _).mpr ⟨operand, hafter, rfl⟩)

theorem editAll_product?_statement {names : List Text} (hnames : AreWords names)
    {before : Option Char} {statement : Text}
    (hstatement : ∀ c ∈ statement, isOperandChar c = true)
    (houtside : Outside before statement) (after : Text) :
    editAll (product? names) before (statement ++ ';' :: after) =
      turnProduct names (statement ++ [';']) ++ editAll (product? names) (some ';') after := by
  have hstarts := startsWord_product? hnames
  induction statement using word_induction generalizing before with
  | nil =>
      rw [List.nil_append, editAll_cons_of_not_word hstarts before (by decide), turnProduct,
        productIn?_statement, firstProduct?]
      rfl
  | other c rest hc ih =>
      have hturn : turnProduct names ([c] ++ rest ++ [';']) =
          [c] ++ turnProduct names (rest ++ [';']) :=
        turnProduct_of_firstProduct?_behind (firstProduct?_cons_of_not_word names hc rest)
      rw [List.cons_append, editAll_cons_of_not_word hstarts before hc,
        ih (fun d hd => hstatement d (List.mem_cons_of_mem c hd))
          (.inl (by simpa [isWordAt] using hc))]
      simp only [List.cons_append, List.nil_append] at hturn ⊢
      rw [hturn, List.cons_append]
  | word word rest hne hword hrest ih =>
      have hchars : ∀ c ∈ rest, isOperandChar c = true :=
        fun c hc => hstatement c (List.mem_append_right word hc)
      have hfirst := firstProduct?_append_word names hne hword hrest
      have hfound := product?_statement hnames (isWordAt_of_outside hne hword houtside) hne hword
        hrest hchars after
      rw [List.append_assoc]
      rcases hoperand : operandOf? names word rest with _ | operand
      · rw [hoperand] at hfirst hfound
        obtain ⟨last, -, hedit⟩ := editAll_append_word hstarts hne hword hfound
        rw [hedit, ih rest le_rfl hchars (.inr hrest), turnProduct_of_firstProduct?_behind hfirst,
          List.append_assoc]
      · rw [hoperand, ← productIn?_statement] at hfirst
        have hcovered : word ++ (rest ++ ';' :: after) = word ++ rest ++ [';'] ++ after := by simp
        rw [hoperand, hcovered] at hfound
        rw [hcovered, editAll_append_of_some (by simp) hfound, List.getLast?_concat,
          turnProduct_of_productIn? hfirst]
        simp [Product.call]

/-- The statements of a body as its stage has them: a fragment returns its color. -/
def statements : Stage → Text → Text
  | .vertex, body => trim body
  | .fragment, body => returnWrites (trim body)

/-- The body with one piece on each line, behind a tab. -/
def bodyLines (stage : Stage) (names : List Text) (body : Text) : Text :=
  trimEnd (['\n'].intercalate
    ((pieces (statements stage body)).map fun piece => '\t' :: turnProduct names piece))

theorem editAll_product?_of_not_mem (names : List Text) (before : Option Char) {s : Text}
    (hs : ';' ∉ s) : editAll (product? names) before s = s := by
  induction s generalizing before with
  | nil => rw [editAll]
  | cons c s ih =>
      rw [editAll_cons_of_none, ih (some c) (fun h => hs (List.mem_cons_of_mem c h))]
      rcases hresult : product? names before (c :: s) with _ | edit
      · rfl
      · obtain ⟨-, name, -, hproduct⟩ := product?_eq_some hresult
        obtain ⟨-, gap, gap', operand, rest, -, -, -, -, happend, -⟩ :=
          exists_of_productOf? hproduct
        exact absurd (by simp [happend]) hs

theorem editAll_product?_breakLines {names : List Text} (hnames : AreWords names)
    {before : Option Char} (hbefore : isWordAt before = false) {s : Text} (hs : '\n' ∉ s) :
    editAll (product? names) before (breakLines s) =
      ['\n', '\t'].intercalate ((pieces s).map (turnProduct names)) := by
  induction s using statement_induction generalizing before with
  | last s hend =>
      rw [breakLines_eq_intercalate, pieces_of_not_mem hend, List.map_singleton,
        List.intercalate_singleton, List.intercalate_singleton, turnProduct_of_not_mem names hend,
        editAll_product?_of_not_mem names before hend]
  | statement statement rest hstatement ih =>
      have hchars : ∀ c ∈ statement, isOperandChar c = true := by
        intro c hc
        have hsemicolon : c ≠ ';' := fun h => hstatement (h ▸ hc)
        have hnewline : c ≠ '\n' := fun h => hs (List.mem_append_left _ (h ▸ hc))
        simp [isOperandChar, hsemicolon, hnewline]
      have hrest : '\n' ∉ dropSpaces rest := by
        intro h
        exact hs (by simp [(List.dropWhile_sublist (· == ' ')).mem h])
      have hstarts := startsWord_product? hnames
      rw [breakLines_append_of_not_mem hstatement, breakLines, pieces_append hstatement,
        List.map_cons, List.intercalate_cons_of_ne_nil (by simpa using pieces_ne_nil _),
        ← ih (show isWordAt (some '\t') = false by decide) hrest]
      show editAll (product? names) before (statement ++ ';' :: '\n' :: '\t' :: _) = _
      rw [editAll_product?_statement hnames hchars (.inl hbefore),
        editAll_cons_of_not_word hstarts _ (by decide),
        editAll_cons_of_not_word hstarts _ (by decide)]
      simp

theorem returnColor_trim (stage : Stage) (body : Text) :
    returnColor stage (trim body) = statements stage body := by
  cases stage with
  | vertex => rfl
  | fragment => exact editAll_colorWrite? (.inl rfl)

theorem replacement_of_colorWrite? {before : Option Char} {s : Text} {edit : Edit}
    (h : colorWrite? before s = some edit) : edit.replacement = "return ".toList := by
  obtain ⟨-, gap, gap', rest, -, -, -, -, rfl⟩ := (colorWrite?_eq_some_iff ..).mp h
  rfl

theorem newline_not_mem_returnColor (stage : Stage) {s : Text} (hs : '\n' ∉ s) :
    '\n' ∉ returnColor stage s := by
  cases stage with
  | vertex => exact hs
  | fragment =>
      apply not_mem_editAll _ none hs
      intro before t edit h
      rw [replacement_of_colorWrite? h]
      decide

theorem startsVisible_returnColor (stage : Stage) {s : Text} (hs : StartsVisible s) :
    StartsVisible (returnColor stage s) := by
  cases stage with
  | vertex => exact hs
  | fragment =>
      apply startsVisible_editAll _ none hs
      intro before t edit h
      rw [replacement_of_colorWrite? h]
      exact ⟨'r', rfl, by decide⟩

theorem startsVisible_breakLines {s : Text} (hs : StartsVisible s) :
    StartsVisible (breakLines s) := by
  fun_cases breakLines s with
  | case1 => exact hs
  | case2 rest => exact ⟨';', rfl, by decide⟩
  | case3 c rest hc => exact hs

theorem startsVisible_editAll_product? (names : List Text) {s : Text} (hs : StartsVisible s) :
    StartsVisible (editAll (product? names) none s) := by
  apply startsVisible_editAll _ none hs
  intro before t edit h
  obtain ⟨-, name, -, hproduct⟩ := product?_eq_some h
  obtain ⟨-, gap, gap', operand, rest, -, -, -, -, -, rfl⟩ :=
    exists_of_productOf? hproduct
  exact ⟨'m', rfl, by decide⟩

theorem intercalate_tabs {pieces : List Text} (hpieces : pieces ≠ []) :
    ['\n'].intercalate (pieces.map ('\t' :: ·)) = '\t' :: ['\n', '\t'].intercalate pieces := by
  induction pieces with
  | nil => exact absurd rfl hpieces
  | cons piece pieces ih =>
      rcases pieces with _ | ⟨next, pieces⟩
      · simp
      · rw [List.map_cons, List.intercalate_cons_of_ne_nil (by simp), ih (by simp),
          List.intercalate_cons_cons]
        simp

theorem bodyLines_of_blank (stage : Stage) (names : List Text) {body : Text}
    (hbody : Blank body) : bodyLines stage names body = [] := by
  have hstatements : statements stage body = [] := by
    cases stage with
    | vertex => exact (trim_eq_nil_iff body).mpr hbody
    | fragment => rw [statements, (trim_eq_nil_iff body).mpr hbody, returnWrites_nil]
  rw [bodyLines, hstatements, pieces_of_not_mem List.not_mem_nil, List.map_singleton,
    turnProduct_of_not_mem names List.not_mem_nil, List.intercalate_singleton]
  decide

theorem format_of_one_line (stage : Stage) {names : List Text} (hnames : AreWords names)
    {body : Text} (hline : '\n' ∉ body) (hbody : ¬ Blank body) :
    format stage names body = bodyLines stage names body := by
  have hstatements : '\n' ∉ returnColor stage (trim body) :=
    newline_not_mem_returnColor stage (fun h => hline (mem_of_mem_trim h))
  have hvisible : StartsVisible (breakLines (returnColor stage (trim body))) :=
    startsVisible_breakLines (startsVisible_returnColor stage (startsVisible_trim hbody))
  have hedited := (startsVisible_editAll_product? names hvisible).not_blank
  rw [format_of_not_blank stage names hbody, ← trimEnd_cons_of_not_blank '\t' hedited,
    editAll_product?_breakLines hnames rfl hstatements, returnColor_trim, bodyLines,
    ← intercalate_tabs (by simpa using pieces_ne_nil _), List.map_map]
  rfl

/-- A body on one line is formatted statement by statement: a blank one is empty, any other has its
statements on lines of their own, each with its own first product as a call. -/
theorem format_eq_bodyLines (stage : Stage) {names : List Text} (hnames : AreWords names)
    {body : Text} (hline : '\n' ∉ body) :
    format stage names body = if Blank body then [] else bodyLines stage names body := by
  split
  · rename_i hbody
    exact format_of_blank stage names hbody
  · rename_i hbody
    exact format_of_one_line stage hnames hline hbody

theorem format_eq_bodyLines_fragment :
    AreWords ["u_mvp".toList, "N".toList] ∧
      '\n' ∉ " gl_FragColor  = tint; p = N*u_mvp * $1;   my_N * q; tail ".toList ∧
      format .fragment ["u_mvp".toList, "N".toList]
          " gl_FragColor  = tint; p = N*u_mvp * $1;   my_N * q; tail ".toList =
        "\treturn tint;\n\tp = mul( u_mvp * $1, N );\n\tmy_N * q;\n\ttail".toList := by
  refine ⟨by decide, by decide, ?_⟩
  rw [format_eq_bodyLines .fragment (by decide) (by decide)]
  decide +kernel

end CgShader.Proofs.StatementLines
