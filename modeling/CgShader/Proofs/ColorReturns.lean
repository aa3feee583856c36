import Mathlib.Data.List.Infix
import CgShader.Proofs.StatementLines

namespace CgShader.Proofs.ColorReturns

open CgShader.Text
open CgShader.Body
open CgShader.Proofs.TextRuns
open CgShader.Proofs.WhiteSpace
open CgShader.Proofs.BodyEdits
open CgShader.Proofs.WordEdits
open CgShader.Proofs.StatementLines

/-- The name of the color stands between two texts as a word of its own. -/
structure ColorBetween (front rest : Text) : Prop where
  before : isWordAt front.getLast? = false
  after : isWordAt rest.head? = false

def EqualsNext (rest : Text) : Prop := ∃ gap right, Spaces gap ∧ rest = gap ++ '=' :: right

/-- The equals sign that comes next is not the first of two. -/
def AssignsNext (rest : Text) : Prop :=
  ∃ gap right, Spaces gap ∧ right.head? ≠ some '=' ∧ rest = gap ++ '=' :: right

theorem afterMark?_eq_none_of_not_equalsNext {rest : Text} (h : ¬ EqualsNext rest) :
    afterMark? '=' rest = none := by
  rcases hmark : afterMark? '=' rest with _ | right
  · rfl
  · obtain ⟨gap, gap', hgap, -, -, rfl⟩ := (afterMark?_eq_some_iff (by decide) _ _).mp hmark
    exact absurd ⟨gap, gap' ++ right, hgap, rfl⟩ h

theorem afterMark?_append_word {mark : Char} (hmark : isWord mark = false) {t : Text}
    (ht : isWordAt t.head? = true) (rest : Text) :
    afterMark? mark (rest ++ t) = (afterMark? mark rest).map (· ++ t) := by
  rcases t with _ | ⟨d, t⟩
  · cases ht
  have hd : isWord d = true := ht
  have hstop : ∀ c ∈ (d :: t).head?, (c == ' ') = false := by
    intro c hc
    obtain rfl : d = c := by simpa using hc
    rw [beq_eq_false_iff_ne]
    rintro rfl
    exact absurd hd (by decide)
  have hdrop : ∀ s, dropSpaces (s ++ d :: t) = dropSpaces s ++ d :: t :=
    dropWhile_append_stop hstop
  unfold afterMark?
  rw [hdrop rest]
  rcases dropSpaces rest with _ | ⟨c, right⟩
  · have hne : d ≠ mark := by
      rintro rfl
      rw [hd] at hmark
      cases hmark
    simp [hne]
  · by_cases hc : c = mark <;> simp [hc, hdrop]

theorem write_cases (word rest : Text) :
    (word = colorName ∧ ∃ right, afterMark? '=' rest = some right) ∨
      (word = colorName → afterMark? '=' rest = none) := by
  rcases afterMark? '=' rest with _ | right
  · exact .inr fun _ => rfl
  · by_cases hname : word = colorName
    · exact .inl ⟨hname, right, rfl⟩
    · exact .inr fun h => absurd h hname

theorem returnWrites_append {front t : Text} (hfront : isWordAt front.getLast? = false)
    (ht : isWordAt t.head? = true) :
    returnWrites (front ++ t) = returnWrites front ++ returnWrites t := by
  induction front using word_induction with
  | nil => rw [returnWrites_nil, List.nil_append, List.nil_append]
  | other c rest hc ih =>
      rw [List.cons_append, returnWrites_cons_of_not_word hc, returnWrites_cons_of_not_word hc,
        ih (isWordAt_getLast?_of_append (s := [c]) hfront), List.cons_append]
  | word word rest hne hword hrest ih =>
      have hnil : rest ≠ [] := by
        rintro rfl
        have hlast := isWordAt_getLast?_or hne hword none
        rw [Option.or_none] at hlast
        rw [List.append_nil, hlast] at hfront
        cases hfront
      have hrest' : isWordAt (rest ++ t).head? = false := by
        rwa [List.head?_append_of_ne_nil rest hnil]
      have hafter : afterMark? '=' (rest ++ t) = (afterMark? '=' rest).map (· ++ t) :=
        afterMark?_append_word (by decide) ht rest
      rw [List.append_assoc]
      rcases write_cases word rest with ⟨rfl, right, hright⟩ | hnone
      · rw [hright, Option.map_some] at hafter
        obtain ⟨gap, gap', -, -, -, rfl⟩ := (afterMark?_eq_some_iff (by decide) _ _).mp hright
        have hright' : isWordAt right.getLast? = false := by
          apply isWordAt_getLast?_of_append (s := colorName ++ gap ++ '=' :: gap')
          simpa using hfront
        rw [returnWrites_colorName_append hrest' hafter, returnWrites_colorName_append hrest hright,
          ih right (by simp; omega) hright', List.append_assoc]
      · have hnone' : word = colorName → afterMark? '=' (rest ++ t) = none := by
          intro hname
          rw [hafter, hnone hname, Option.map_none]
        rw [returnWrites_append_word hne hword hrest' hnone',
          returnWrites_append_word hne hword hrest hnone,
          ih rest le_rfl (isWordAt_getLast?_of_append hfront), List.append_assoc]

theorem exists_first_write (s : Text) :
    returnWrites s = s ∨
      ∃ front gap gap' right, isWordAt front.getLast? = false ∧ Spaces gap ∧
        s = front ++ colorName ++ (gap ++ '=' :: (gap' ++ right)) ∧
        returnWrites s = front ++ "return".toList ++ ' ' :: returnWrites right := by
  induction s using word_induction with
  | nil => exact .inl returnWrites_nil
  | other c rest hc ih =>
      rw [returnWrites_cons_of_not_word hc]
      rcases ih with hsame | ⟨front, gap, gap', right, hfront, hgap, rfl, hreturn⟩
      · exact .inl (by rw [hsame])
      · refine .inr ⟨c :: front, gap, gap', right, ?_, hgap, rfl, by rw [hreturn]; rfl⟩
        rwa [← List.nil_append (c :: front), isWordAt_getLast?_append_cons [] hc]
  | word word rest hne hword hrest ih =>
      rcases write_cases word rest with ⟨rfl, right, hright⟩ | hnone
      · rw [returnWrites_colorName_append hrest hright]
        obtain ⟨gap, gap', hgap, -, -, rfl⟩ := (afterMark?_eq_some_iff (by decide) _ _).mp hright
        exact .inr ⟨[], gap, gap', right, rfl, hgap, rfl, rfl⟩
      · rw [returnWrites_append_word hne hword hrest hnone]
        rcases ih rest le_rfl with hsame | ⟨front, gap, gap', right, hfront, hgap, rfl, hreturn⟩
        · exact .inl (by rw [hsame])
        · have hnil : front ≠ [] := by
            rintro rfl
            rw [List.nil_append, isWordAt_head?_append (by decide) isWord_colorName] at hrest
            cases hrest
          refine .inr ⟨word ++ front, gap, gap', right, ?_, hgap, ?_, ?_⟩
          · rwa [List.getLast?_append_of_ne_nil word hnil]
          · simp only [List.append_assoc]
          · rw [hreturn]
            simp only [List.append_assoc]

theorem returnColor_fragment (s : Text) : returnColor .fragment s = returnWrites s :=
  editAll_colorWrite? (.inl rfl)

theorem returnColor_of_equalsNext {front gap gap' right : Text}
    (hfront : isWordAt front.getLast? = false) (hgap : Spaces gap) (hgap' : Spaces gap')
    (hright : ' ' ∉ right.head?) :
    returnColor .fragment (front ++ colorName ++ (gap ++ '=' :: (gap' ++ right))) =
      returnColor .fragment front ++ "return ".toList ++ returnColor .fragment right := by
  simp only [returnColor_fragment]
  rw [List.append_assoc, returnWrites_append hfront
    (isWordAt_head?_append (by decide) isWord_colorName _), returnWrites_colorName_append
    (isWordAt_head?_of_spaces hgap (by decide)) ((afterMark?_eq_some_iff (by decide) _ _).mpr
      ⟨gap, gap', hgap, hgap', hright, rfl⟩), List.append_assoc]

theorem returnColor_of_not_equalsNext {front rest : Text} (hcolor : ColorBetween front rest)
    (hrest : ¬ EqualsNext rest) :
    returnColor .fragment (front ++ colorName ++ rest) =
      returnColor .fragment front ++ colorName ++ returnColor .fragment rest := by
  simp only [returnColor_fragment]
  rw [List.append_assoc, returnWrites_append hcolor.before
    (isWordAt_head?_append (by decide) isWord_colorName _), returnWrites_append_word (by decide)
    isWord_colorName hcolor.after (fun _ => afterMark?_eq_none_of_not_equalsNext hrest),
    List.append_assoc]

theorem returnColor_eq_self {s : Text}
    (h : ∀ front rest, s = front ++ colorName ++ rest → ColorBetween front rest →
      ¬ EqualsNext rest) : returnColor .fragment s = s := by
  rw [returnColor_fragment]
  rcases exists_first_write s with hsame | ⟨front, gap, gap', right, hfront, hgap, hs, -⟩
  · exact hsame
  · exact absurd ⟨gap, gap' ++ right, hgap, rfl⟩
      (h _ _ hs ⟨hfront, isWordAt_head?_of_spaces hgap (by decide)⟩)

/-- A name that the edits of a body cannot put together. It does not begin with a space, does not
hold the word `return` at its end or before a space, and goes over no line break. -/
structure NeverFormed (name : Text) : Prop where
  start : name.head? ≠ some ' '
  inner : ∀ before rest, name = before ++ "return".toList ++ rest →
    (∀ c ∈ rest.head?, c = ' ') → isWordAt before.getLast? = true
  lines : ¬ ";\n\t".toList <:+: name

namespace NeverFormed

variable {name : Text}

/-- No part of a name that ends it or stands before a space ends where an inserted `return` ends. -/
theorem not_end_of_return (hname : NeverFormed name) {part rest : Text} (hpart : part ≠ [])
    (hsplit : name = part ++ rest) (hrest : ∀ c ∈ rest.head?, c = ' ') {front before : Text}
    (hfront : isWordAt front.getLast? = false)
    (hboundary : isBoundary before.getLast? name.head? = true) :
    front ++ "return".toList ≠ before ++ part := by
  have hletters : ∀ c ∈ "return".toList, isWord c = true := by decide
  intro hend
  rcases List.append_eq_append_iff.mp hend with ⟨more, rfl, hmore⟩ | ⟨more, rfl, hmore⟩
  · rcases List.eq_nil_or_concat more with rfl | ⟨more, last, rfl⟩
    · rw [List.nil_append] at hmore
      exact absurd (hname.inner [] rest (by simp [hsplit, ← hmore]) hrest) (by decide)
    -- the name would begin inside the inserted word
    · rcases part with _ | ⟨initial, part⟩
      · exact hpart rfl
      · have hlast : isWord last = true := hletters last (by rw [hmore]; simp)
        have hinitial : isWord initial = true := hletters initial (by rw [hmore]; simp)
        simp [hsplit, isBoundary, isWordAt, ← List.append_assoc, hlast, hinitial] at hboundary
  · have hmore' := hname.inner more rest (by rw [hsplit, hmore]) hrest
    rw [isWordAt_getLast?_of_append hfront] at hmore'
    cases hmore'

theorem infix_of_before_return (hname : NeverFormed name) (hne : name ≠ []) {c : Char}
    (hc : isWord c = false) {front before after rest behind : Text}
    (hfront : isWordAt front.getLast? = false)
    (hboundary : isBoundary before.getLast? name.head? = true)
    (hreturn : front ++ "return".toList = before ++ name ++ after)
    (hafter : after ++ behind = c :: rest) : name <:+: front := by
  rcases after with _ | ⟨d, after⟩
  · rw [List.append_nil] at hreturn
    exact absurd hreturn (hname.not_end_of_return hne (List.append_nil name).symm (by simp) hfront
      hboundary)
  · obtain ⟨rfl, -⟩ := List.cons.inj hafter
    have hletter : d ∉ "return".toList := by
      intro hmem
      have hletters : ∀ c ∈ "return".toList, isWord c = true := by decide
      rw [hletters d hmem] at hc
      cases hc
    have hwhole : before ++ name ++ d :: after = front ++ "return".toList ++ [] := by
      rw [List.append_nil, hreturn]
    rcases append_cons_cases hletter hwhole with ⟨more, hmore⟩ | ⟨inner, rfl, -⟩
    · have hlength := congrArg List.length hwhole
      simp [hmore] at hlength
    · exact ⟨before, d :: inner, rfl⟩

theorem infix_of_returnWrites (hname : NeverFormed name) (hne : name ≠ []) {c : Char}
    (hc : isWord c = false) {s before rest : Text}
    (hboundary : isBoundary before.getLast? name.head? = true)
    (h : returnWrites s = before ++ name ++ c :: rest) : name <:+: s := by
  induction hlength : s.length using Nat.strongRecOn generalizing s before with
  | ind length ih =>
      subst hlength
      rcases exists_first_write s with hsame | ⟨front, gap, gap', right, hfront, -, hs, hreturn⟩
      · exact ⟨before, c :: rest, by rw [← h, hsame]⟩
      rw [h] at hreturn
      rcases append_cons_split hreturn.symm with
        ⟨after, hafter, hrest⟩ | ⟨inner, rfl, hinner⟩ | ⟨left, right', hsplit, hleft, -⟩
      · have hstands := hname.infix_of_before_return hne hc hfront hboundary hafter hrest.symm
        rw [hs, List.append_assoc]
        exact hstands.trans (List.prefix_append ..).isInfix
      · have hspace : isWordAt (front ++ "return".toList ++ ' ' :: inner).getLast? =
            isWordAt inner.getLast? := isWordAt_getLast?_append_cons _ (by decide) inner
        rw [isBoundary, hspace] at hboundary
        have hshorter : right.length < s.length := by
          rw [hs]
          simp
          omega
        have hstands := ih _ hshorter hboundary hinner rfl
        refine hstands.trans ?_
        rw [hs]
        exact ⟨front ++ colorName ++ gap ++ '=' :: gap', [], by simp⟩
      · have hpart : left ≠ [] := by
          rintro rfl
          exact hname.start (by rw [hsplit]; rfl)
        exact absurd hleft (hname.not_end_of_return hpart hsplit (by simp) hfront hboundary)

end NeverFormed

theorem isWordAt_getLast?_spaces_append {gap : Text} (hgap : Spaces gap) (s : Text) :
    isWordAt (gap ++ s).getLast? = isWordAt s.getLast? := by
  induction gap with
  | nil => rfl
  | cons c gap ih =>
      obtain rfl := hgap c (by simp)
      rw [← ih fun d hd => hgap d (List.mem_cons_of_mem ' ' hd)]
      exact isWordAt_getLast?_append_cons [] (by decide) (gap ++ s)

/-- A text over a line break of which it does not hold all begins between the semicolon and the
break. -/
theorem isBoundary_of_over_break {statement front left right behind rest : Text}
    (hcore : ¬ ";\n\t".toList <:+: left ++ '\n' :: right)
    (hlast : (left ++ '\n' :: right).getLast? ≠ some '\n')
    (hleft : statement ++ [';'] = front ++ left) (hright : '\t' :: behind = right ++ rest) :
    isBoundary front.getLast? (left ++ '\n' :: right).head? = false := by
  rcases List.eq_nil_or_concat left with rfl | ⟨left, last, rfl⟩
  · rw [List.append_nil] at hleft
    rw [← hleft, List.getLast?_concat]
    exact show isBoundary (some ';') (some '\n') = false by decide
  · rw [List.concat_eq_append, ← List.append_assoc] at hleft
    obtain ⟨-, hsemicolon⟩ := List.append_inj' hleft rfl
    obtain rfl := List.singleton_inj.mp hsemicolon
    rcases right with _ | ⟨tab, right⟩
    · simp at hlast
    · obtain ⟨rfl, -⟩ := List.cons.inj hright
      exact absurd ⟨left, right, by simp⟩ hcore

theorem exists_of_breakLines {core s front rest : Text} (hcore : ¬ ";\n\t".toList <:+: core)
    (hlast : core.getLast? ≠ some '\n')
    (hboundary : isBoundary front.getLast? core.head? = true)
    (h : breakLines s = front ++ core ++ rest) :
    ∃ front' rest', s = front' ++ core ++ rest' ∧
      isBoundary front'.getLast? core.head? = true := by
  induction s using statement_induction generalizing front with
  | last s hs =>
      have hbreak := breakLines_append_of_not_mem hs []
      rw [breakLines, List.append_nil] at hbreak
      exact ⟨front, rest, by rw [← h, hbreak], hboundary⟩
  | statement statement behind hstatement ih =>
      rw [breakLines_append_of_not_mem hstatement, breakLines] at h
      have hlines : (statement ++ [';']) ++ '\n' :: '\t' :: breakLines (dropSpaces behind) =
          front ++ core ++ rest := by
        rw [← h]
        simp
      rcases append_cons_split hlines with
        ⟨after, hafter, -⟩ | ⟨inner, rfl, hinner⟩ | ⟨left, right, rfl, hleft, hright⟩
      · refine ⟨front, after ++ behind, ?_, hboundary⟩
        rw [← List.append_assoc, ← hafter]
        simp
      · rw [isBoundary, isWordAt_getLast?_append_cons _ (by decide)] at hboundary
        rcases inner with _ | ⟨tab, inner⟩
        -- it would begin with the indent, where no word begins or ends
        · rcases core with _ | ⟨tab, core⟩
          · cases hboundary
          · obtain ⟨rfl, -⟩ := List.cons.inj hinner
            exact absurd hboundary (show ¬ (isWordAt none != isWordAt (some '\t')) = true by decide)
        · obtain ⟨rfl, hbreak⟩ := List.cons.inj hinner
          rw [← List.nil_append ('\t' :: inner),
            isWordAt_getLast?_append_cons [] (by decide)] at hboundary
          obtain ⟨front', rest', hbehind, hboundary'⟩ := ih hboundary hbreak
          refine ⟨statement ++ ';' :: (spaces behind ++ front'), rest', ?_, ?_⟩
          · nth_rewrite 1 [← spaces_append_dropSpaces behind]
            rw [hbehind]
            simp
          · rwa [isBoundary, isWordAt_getLast?_append_cons _ (by decide),
              isWordAt_getLast?_spaces_append (spaces_spaces behind)]
      · rw [isBoundary_of_over_break hcore hlast hleft hright] at hboundary
        cases hboundary

theorem product?_eq_none {names : List Text} {statements : Text}
    (hnames : ∀ name ∈ names, NeverFormed name ∧ ¬ name <:+: statements) {front rest : Text}
    (h : breakLines (returnColor .fragment statements) = front ++ rest) :
    product? names front.getLast? rest = none := by
  rcases hfound : product? names front.getLast? rest with _ | edit
  · rfl
  obtain ⟨hboundary, name, hmem, hproduct⟩ := product?_eq_some hfound
  obtain ⟨-, gap, gap', operand, behind, hgap, -, -, -, rfl, -⟩ := exists_of_productOf? hproduct
  obtain ⟨hname, habsent⟩ := hnames name hmem
  have hne : name ≠ [] := by
    rintro rfl
    exact habsent (List.nil_infix)
  have hhead : ∀ s, (name ++ s).head? = name.head? := by
    intro s
    rw [List.head?_append_of_ne_nil name hne]
  -- what follows the name is a space or the star
  obtain ⟨c, more, hnewline, htab, hc, hmore⟩ : ∃ c more, c ≠ '\n' ∧ c ≠ '\t' ∧ isWord c = false ∧
      gap ++ '*' :: gap' ++ operand ++ ';' :: behind = c :: more := by
    rcases gap with _ | ⟨c, gap⟩
    · exact ⟨'*', _, by decide, by decide, by decide, rfl⟩
    · obtain rfl := hgap c (by simp)
      exact ⟨' ', _, by decide, by decide, by decide, rfl⟩
  have hcore : ¬ ";\n\t".toList <:+: name ++ [c] := by
    rw [List.infix_concat_iff, not_or]
    refine ⟨?_, hname.lines⟩
    rintro ⟨before, hbefore⟩
    have hlast := congrArg List.getLast? hbefore
    simp [htab.symm] at hlast
  have hlines : breakLines (returnColor .fragment statements) = front ++ (name ++ [c]) ++ more := by
    rw [h]
    simp only [List.append_assoc, List.singleton_append, ← hmore]
  simp only [List.append_assoc, hhead] at hboundary
  obtain ⟨front', rest', hreturn, hboundary'⟩ :=
    exists_of_breakLines hcore (by simpa using hnewline) (by rwa [hhead]) hlines
  rw [hhead] at hboundary'
  rw [returnColor_fragment, ← List.append_assoc front', List.append_assoc _ [c]] at hreturn
  exact absurd (hname.infix_of_returnWrites hne hc hboundary' hreturn) habsent

theorem format_of_absent {names : List Text} {body : Text}
    (hnames : ∀ name ∈ names, NeverFormed name ∧ ¬ name <:+: body) (hbody : ¬ Blank body) :
    format .fragment names body =
      '\t' :: trimEnd (['\n', '\t'].intercalate (pieces (returnColor .fragment (trim body)))) := by
  have hstatements : ∀ name ∈ names, NeverFormed name ∧ ¬ name <:+: trim body := by
    intro name hmem
    refine ⟨(hnames name hmem).1, fun hstands => (hnames name hmem).2 (hstands.trans ?_)⟩
    obtain ⟨before, after, -, -, hsplit⟩ := exists_append_trim_append body
    exact ⟨before, after, hsplit.symm⟩
  have hlines : editAll (product? names) none (breakLines (returnColor .fragment (trim body))) =
      breakLines (returnColor .fragment (trim body)) := by
    rw [← List.append_nil (breakLines _), editAll_append_of_none, editAll]
    intro front rest _ hsplit
    rw [List.append_nil, Option.or_none]
    exact product?_eq_none hstatements hsplit
  rw [format_of_not_blank .fragment names hbody, hlines, breakLines_eq_intercalate]

/-- The name of the color as a word of its own makes way for a return exactly if an equals sign
follows, be it an assignment or the first half of a comparison. Where no matrix is named in the
body, nothing else changes but that each statement gets a line. -/
theorem color_returned_before_equals {names : List Text} {body : Text}
    (hnames : ∀ name ∈ names, NeverFormed name ∧ ¬ name <:+: body) :
    ((Blank body → format .fragment names body = []) ∧
      (¬ Blank body → format .fragment names body =
        '\t' :: trimEnd
          (['\n', '\t'].intercalate (pieces (returnColor .fragment (trim body)))))) ∧
    (∀ s, (∀ front rest, s = front ++ colorName ++ rest → ColorBetween front rest →
      ¬ EqualsNext rest) → returnColor .fragment s = s) ∧
    ∀ front rest, ColorBetween front rest →
      (¬ EqualsNext rest → returnColor .fragment (front ++ colorName ++ rest) =
        returnColor .fragment front ++ colorName ++ returnColor .fragment rest) ∧
      ∀ gap gap' right, Spaces gap → Spaces gap' → ' ' ∉ right.head? →
        rest = gap ++ '=' :: (gap' ++ right) →
        returnColor .fragment (front ++ colorName ++ rest) =
          returnColor .fragment front ++ "return ".toList ++ returnColor .fragment right := by
  refine ⟨⟨format_of_blank .fragment names, format_of_absent hnames⟩, fun s => returnColor_eq_self,
    fun front rest hcolor => ⟨returnColor_of_not_equalsNext hcolor, ?_⟩⟩
  rintro gap gap' right hgap hgap' hright rfl
  exact returnColor_of_equalsNext hcolor.before hgap hgap' hright

theorem color_returned_before_equals_swizzle :
    let names := ["u_mvp".toList, "model view".toList]
    let body := " gl_FragColors = x;  gl_FragColor  =  gl_FragColor.bgra ;".toList
    (∀ name ∈ names, NeverFormed name ∧ ¬ name <:+: body) ∧
      format .fragment names body =
        "\tgl_FragColors = x;\n\treturn gl_FragColor.bgra ;".toList := by
  intro names body
  have hnames : ∀ name ∈ names, NeverFormed name ∧ ¬ name <:+: body := by
    intro name hmem
    have hletter : ∀ name ∈ names, 't' ∉ name := by decide
    have hothers : ∀ name ∈ names, name.head? ≠ some ' ' ∧ ¬ ";\n\t".toList <:+: name ∧
      ¬ name <:+: body := by decide
    obtain ⟨hstart, hlines, habsent⟩ := hothers name hmem
    refine ⟨⟨hstart, fun before rest hsplit _ => ?_, hlines⟩, habsent⟩
    exact absurd (by simp [hsplit]) (hletter name hmem)
  refine ⟨hnames, ?_⟩
  rw [(color_returned_before_equals hnames).1.2 (by decide)]
  decide +kernel

/-- A comparison is taken for a write, and a matrix of the name `return` for a factor. -/
theorem comparison_becomes_return :
    (let front := "if (".toList
    let rest := " == c) x = 1.0;".toList
    ColorBetween front rest ∧ ¬ AssignsNext rest ∧
      format .fragment ["u_mvp".toList] (front ++ colorName ++ rest) =
        "\tif (return = c) x = 1.0;".toList) ∧
    ¬ "return".toList <:+: "gl_FragColor = *p;".toList ∧
      format .fragment ["return".toList] "gl_FragColor = *p;".toList =
        "\tmul( p, return );".toList := by
  refine ⟨⟨⟨by decide, by decide⟩, ?_, by decide +kernel⟩, by decide, by decide +kernel⟩
  rintro ⟨gap, right, hgap, hright, hrest⟩
  have hdrop := congrArg dropSpaces hrest
  rw [dropSpaces_run hgap (by simp)] at hdrop
  obtain ⟨-, rfl⟩ := List.cons.inj hdrop
  exact hright rfl

end CgShader.Proofs.ColorReturns
