import CgShader.Program.Body
import CgShader.Proofs.WhiteSpace

namespace CgShader.Proofs.BodyEdits

open CgShader.Text
open CgShader.Body
open CgShader.Proofs.TextRuns
open CgShader.Proofs.WhiteSpace

theorem editAll_cons_of_none {find : Option Char → Text → Option Edit} {before : Option Char}
    {c : Char} {rest : Text} (h : find before (c :: rest) = none) :
    editAll find before (c :: rest) = c :: editAll find (some c) rest := by
  rw [editAll, h]

theorem editAll_append_of_some {find : Option Char → Text → Option Edit} {before : Option Char}
    {covered rest replacement : Text} (hcovered : covered ≠ [])
    (h : find before (covered ++ rest) = some (.replacing covered replacement)) :
    editAll find before (covered ++ rest) =
      replacement ++ editAll find covered.getLast? rest := by
  rcases covered with _ | ⟨c, covered⟩
  · exact absurd rfl hcovered
  · rw [List.cons_append] at h ⊢
    rw [editAll, h]
    simp [Edit.replacing]

theorem editAll_append_of_none {find : Option Char → Text → Option Edit} {before : Option Char}
    {s t : Text} (h : ∀ front rest, rest ≠ [] → s = front ++ rest →
      find (front.getLast?.or before) (rest ++ t) = none) :
    editAll find before (s ++ t) = s ++ editAll find (s.getLast?.or before) t := by
  induction s generalizing before with
  | nil => simp
  | cons c s ih =>
      have hfirst := h [] (c :: s) (List.cons_ne_nil c s) rfl
      rw [List.getLast?_nil, Option.none_or, List.cons_append] at hfirst
      rw [List.cons_append, editAll_cons_of_none hfirst, ih, List.cons_append, List.getLast?_cons]
      · rcases s.getLast? with _ | last <;> rfl
      · intro front rest hrest htext
        rw [← h (c :: front) rest hrest (by rw [htext, List.cons_append]), List.getLast?_cons]
        rcases front.getLast? with _ | last <;> rfl

theorem colorWrite?_eq_some_iff (before : Option Char) (s : Text) (edit : Edit) :
    colorWrite? before s = some edit ↔
      isBoundary before s.head? = true ∧
        ∃ gap gap' rest, Spaces gap ∧ Spaces gap' ∧ ' ' ∉ rest.head? ∧
          s = colorName ++ gap ++ '=' :: gap' ++ rest ∧
          edit = .replacing (colorName ++ gap ++ '=' :: gap') "return ".toList := by
  unfold colorWrite?
  constructor
  · intro h
    split at h
    · rename_i hboundary
      refine ⟨hboundary, ?_⟩
      split at h
      · cases h
      · rename_i rest hafter
        split at h
        · rename_i right hright
          cases h
          refine ⟨spaces rest, spaces right, dropSpaces right, spaces_spaces rest,
            spaces_spaces right, space_not_mem_head?_dropSpaces right, ?_, rfl⟩
          rw [(after?_eq_some_iff ..).mp hafter, List.append_assoc, List.append_assoc,
            List.cons_append, spaces_append_dropSpaces, ← hright, spaces_append_dropSpaces]
        · cases h
    · cases h
  · rintro ⟨hboundary, gap, gap', rest, hgap, hgap', hrest, rfl, rfl⟩
    rw [if_pos hboundary]
    have hafter : after? colorName (colorName ++ gap ++ '=' :: gap' ++ rest) =
        some (gap ++ '=' :: (gap' ++ rest)) := by
      rw [after?_eq_some_iff]
      simp
    have hequals : ' ' ∉ ('=' :: (gap' ++ rest)).head? := by simp
    simp only [hafter, dropSpaces_run hgap hequals, spaces_run hgap hequals,
      spaces_run hgap' hrest]

theorem isWordAt_head?_of_spaces {gap rest : Text} {c : Char} (hgap : Spaces gap)
    (hc : isWord c = false) : isWordAt (gap ++ c :: rest).head? = false := by
  rcases gap with _ | ⟨d, gap⟩
  · simpa [isWordAt] using hc
  · obtain rfl := hgap d (by simp)
    simp only [List.cons_append, List.head?_cons]
    decide

/-- What a product covers, from the name of its matrix through the end of its statement, and the
call that is put there. -/
theorem exists_of_productOf? {name : Text} {before : Option Char} {s : Text} {edit : Edit}
    (h : productOf? name before s = some edit) :
    isWordAt (name.getLast?.or before) = true ∧
      ∃ gap gap' operand rest, Spaces gap ∧ Spaces gap' ∧ ' ' ∉ operand.head? ∧
        (∀ c ∈ operand, isOperandChar c = true) ∧
        s = name ++ gap ++ '*' :: gap' ++ operand ++ ';' :: rest ∧
        edit = .replacing (name ++ gap ++ '*' :: gap' ++ operand ++ [';'])
          ("mul( ".toList ++ operand ++ ", ".toList ++ name ++ " );".toList) := by
  unfold productOf? at h
  split at h
  · cases h
  rename_i rest hafter
  split at h
  · rename_i hboundary
    split at h
    · rename_i right hright
      split at h
      · rename_i after hend
        cases h
        have hgap := spaces_append_dropSpaces rest
        rw [hright] at hgap
        have hoperand := List.takeWhile_append_dropWhile (p := isOperandChar)
          (l := dropSpaces right)
        rw [hend] at hoperand
        refine ⟨?_, spaces rest, spaces right, (dropSpaces right).takeWhile isOperandChar, after,
          spaces_spaces rest, spaces_spaces right, ?_, ?_, ?_, rfl⟩
        · rw [← hgap, isBoundary,
            isWordAt_head?_of_spaces (spaces_spaces rest) (by decide)] at hboundary
          simpa using hboundary
        · intro hspace
          apply space_not_mem_head?_dropSpaces right
          rw [← hoperand]
          exact List.mem_head?_append_of_mem_head? hspace
        · intro c hc
          exact List.mem_takeWhile_imp hc
        · rw [(after?_eq_some_iff ..).mp hafter]
          simp only [List.append_assoc, List.cons_append, hoperand, spaces_append_dropSpaces,
            hgap]
      · cases h
    · cases h
  · cases h

theorem productOf?_append {name : Text} {before : Option Char}
    (hword : isWordAt (name.getLast?.or before) = true) {gap gap' operand : Text}
    (hgap : Spaces gap) (hgap' : Spaces gap') (hspace : ' ' ∉ operand.head?)
    (hoperand : ∀ c ∈ operand, isOperandChar c = true) (rest : Text) :
    productOf? name before (name ++ gap ++ '*' :: gap' ++ operand ++ ';' :: rest) =
      some (.replacing (name ++ gap ++ '*' :: gap' ++ operand ++ [';'])
        ("mul( ".toList ++ operand ++ ", ".toList ++ name ++ " );".toList)) := by
  have hafter : after? name (name ++ gap ++ '*' :: gap' ++ operand ++ ';' :: rest) =
      some (gap ++ '*' :: (gap' ++ (operand ++ ';' :: rest))) := by
    rw [after?_eq_some_iff]
    simp
  have hedge : isWordAt (gap ++ '*' :: (gap' ++ (operand ++ ';' :: rest))).head? = false :=
    isWordAt_head?_of_spaces hgap (by decide)
  have hstar : ' ' ∉ ('*' :: (gap' ++ (operand ++ ';' :: rest))).head? := by simp
  have hright : ' ' ∉ (operand ++ ';' :: rest).head? := by
    rcases operand with _ | ⟨c, operand⟩
    · simp
    · simpa using hspace
  have hend : ∀ c ∈ (';' :: rest).head?, isOperandChar c = false := by
    intro c hc
    obtain rfl : ';' = c := by simpa using hc
    decide
  unfold productOf?
  simp only [hafter, isBoundary, hedge, hword, dropSpaces_run hgap hstar, spaces_run hgap hstar,
    dropSpaces_run hgap' hright, spaces_run hgap' hright, takeWhile_run hoperand hend,
    dropWhile_run hoperand hend]
  rfl

theorem product?_eq_some {names : List Text} {before : Option Char} {s : Text} {edit : Edit}
    (h : product? names before s = some edit) :
    isBoundary before s.head? = true ∧ ∃ name ∈ names, productOf? name before s = some edit := by
  unfold product? at h
  split at h
  · exact ⟨by assumption, List.exists_of_findSome?_eq_some h⟩
  · cases h

/-- A search puts nothing in another place: of the characters of a kind, it finds as many as it
leaves, in the same order. -/
def KeepsAll (p : Char → Bool) (find : Option Char → Text → Option Edit) : Prop :=
  ∀ before s edit, find before s = some edit →
    ∃ covered rest replacement, covered ≠ [] ∧ s = covered ++ rest ∧
      edit = .replacing covered replacement ∧ replacement.filter p = covered.filter p

theorem filter_editAll {p : Char → Bool} {find : Option Char → Text → Option Edit}
    (hfind : KeepsAll p find) (before : Option Char) (s : Text) :
    (editAll find before s).filter p = s.filter p := by
  fun_induction editAll find before s with
  | case1 => rfl
  | case2 before c rest hnone ih => simp only [List.filter_cons, ih]
  | case3 before c rest edit hsome ih =>
      obtain ⟨covered, rest', replacement, hcovered, hsplit, rfl, hfilter⟩ :=
        hfind before (c :: rest) edit hsome
      rcases covered with _ | ⟨d, covered⟩
      · exact absurd rfl hcovered
      simp only [List.cons_append, List.cons.injEq] at hsplit
      obtain ⟨rfl, rfl⟩ := hsplit
      have hdrop : (covered ++ rest').drop (Edit.replacing (c :: covered) replacement).extra =
          rest' := by
        simp [Edit.replacing]
      rw [hdrop] at ih ⊢
      rw [List.filter_append, ih, ← List.cons_append, List.filter_append, ← hfilter]
      rfl

theorem not_mem_editAll {c : Char} {find : Option Char → Text → Option Edit}
    (hfind : ∀ before s edit, find before s = some edit → c ∉ edit.replacement)
    (before : Option Char) {s : Text} (hs : c ∉ s) : c ∉ editAll find before s := by
  fun_induction editAll find before s with
  | case1 => exact hs
  | case2 before d rest hnone ih =>
      obtain ⟨hd, hrest⟩ := List.ne_and_not_mem_of_not_mem_cons hs
      exact List.not_mem_cons_of_ne_of_not_mem hd (ih hrest)
  | case3 before d rest edit hsome ih =>
      refine List.not_mem_append (hfind _ _ _ hsome) (ih ?_)
      intro hmem
      exact hs (List.mem_cons_of_mem d (List.mem_of_mem_drop hmem))

theorem startsVisible_editAll {find : Option Char → Text → Option Edit}
    (hfind : ∀ before s edit, find before s = some edit → StartsVisible edit.replacement)
    (before : Option Char) {s : Text} (hs : StartsVisible s) :
    StartsVisible (editAll find before s) := by
  unfold editAll
  split
  · exact hs
  · split
    · exact hs
    · rename_i edit hsome
      obtain ⟨c, hc, hwhite⟩ := hfind _ _ _ hsome
      exact ⟨c, List.mem_head?_append_of_mem_head? hc, hwhite⟩

/-- The statements of a body with the color writes of a fragment turned into returns. -/
def returnColor : Stage → Text → Text
  | .vertex, statements => statements
  | .fragment, statements => editAll colorWrite? none statements

theorem format_of_blank (stage : Stage) (names : List Text) {body : Text} (hbody : Blank body) :
    format stage names body = [] := by
  unfold format
  rw [(trim_eq_nil_iff body).mpr hbody]
  rfl

theorem format_of_not_blank (stage : Stage) (names : List Text) {body : Text}
    (hbody : ¬ Blank body) :
    format stage names body =
      '\t' :: trimEnd (editAll (product? names) none
        (breakLines (returnColor stage (trim body)))) := by
  have htrim : ¬ (trim body).isEmpty = true := by
    rw [List.isEmpty_iff, trim_eq_nil_iff]
    exact hbody
  unfold format
  cases stage <;> exact if_neg htrim

end CgShader.Proofs.BodyEdits
