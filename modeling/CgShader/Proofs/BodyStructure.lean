import CgShader.Proofs.BalancedBlocks
import CgShader.Proofs.BodyEdits

namespace CgShader.Proofs.BodyStructure

open CgShader.Text
open CgShader.Body
open CgShader.Bracket
open CgShader.Proofs.BalancedBlocks
open CgShader.Proofs.TextRuns
open CgShader.Proofs.WhiteSpace
open CgShader.Proofs.BodyEdits

def isStructural (c : Char) : Bool := c == '{' || c == '}' || c == ';'

/-- A name whose product, if it is ever found, moves no structural character. A name that does not
end in a word character is never found. -/
def MovesNothing (name : Text) : Prop :=
  (∀ c ∈ name, isStructural c = false) ∨ ∃ c ∈ name.getLast?, isWord c = false

theorem not_structural_of_white (c : Char) (hc : isWhite c = true) : isStructural c = false := by
  simp only [isStructural, Bool.or_eq_false_iff, beq_eq_false_iff_ne]
  refine ⟨⟨?_, ?_⟩, ?_⟩ <;>
  · rintro rfl
    exact absurd hc (by decide)

theorem filter_eq_nil_of_forall {p : Char → Bool} {s : Text} (hs : ∀ c ∈ s, p c = false) :
    s.filter p = [] := by
  rw [List.filter_eq_nil_iff]
  intro c hc
  simp [hs c hc]

theorem filter_spaces {p : Char → Bool} (hp : p ' ' = false) {s : Text} (hs : Spaces s) :
    s.filter p = [] :=
  filter_eq_nil_of_forall fun c hc => hs c hc ▸ hp

theorem filter_blank {p : Char → Bool} (hp : ∀ c, isWhite c = true → p c = false) {s : Text}
    (hs : Blank s) : s.filter p = [] :=
  filter_eq_nil_of_forall fun c hc => hp c (hs c hc)

theorem filter_dropSpaces {p : Char → Bool} (hp : p ' ' = false) (s : Text) :
    (dropSpaces s).filter p = s.filter p := by
  conv_rhs => rw [← spaces_append_dropSpaces s, List.filter_append,
    filter_spaces hp (spaces_spaces s)]
  rfl

theorem keepsAll_colorWrite? {p : Char → Bool}
    (hp : ∀ c ∈ colorName ++ "= return ".toList, p c = false) : KeepsAll p colorWrite? := by
  intro before s edit h
  obtain ⟨-, gap, gap', rest, hgap, hgap', -, rfl, rfl⟩ := (colorWrite?_eq_some_iff ..).mp h
  refine ⟨colorName ++ gap ++ '=' :: gap', rest, _, by simp, rfl, rfl, ?_⟩
  have hspace : p ' ' = false := hp ' ' (by decide)
  have hfree : ∀ t : Text, (∀ c ∈ t, c ∈ colorName ++ "= return ".toList) → t.filter p = [] :=
    fun t ht => filter_eq_nil_of_forall fun c hc => hp c (ht c hc)
  have hequals : ('=' :: gap').filter p = [] := by
    rw [List.filter_cons_of_neg (by simp [hp '=' (by decide)]), filter_spaces hspace hgap']
  rw [List.filter_append, List.filter_append, hfree colorName (by decide),
    filter_spaces hspace hgap, hequals, hfree "return ".toList (by decide)]
  rfl

theorem keepsAll_product? {names : List Text} (hnames : ∀ name ∈ names, MovesNothing name) :
    KeepsAll isStructural (product? names) := by
  intro before s edit h
  obtain ⟨-, name, hname, hproduct⟩ := product?_eq_some h
  obtain ⟨hword, gap, gap', operand, rest, hgap, hgap', -, -, rfl, rfl⟩ :=
    exists_of_productOf? hproduct
  refine ⟨name ++ gap ++ '*' :: gap' ++ operand ++ [';'], rest, _, by simp, by simp, rfl, ?_⟩
  have hfree : name.filter isStructural = [] := by
    rcases hnames name hname with hfree | ⟨c, hc, hnotWord⟩
    · exact filter_eq_nil_of_forall hfree
    · rw [Option.mem_def.mp hc, Option.some_or] at hword
      simp only [isWordAt, Option.any_some, hnotWord, Bool.false_eq_true] at hword
  have hspace : isStructural ' ' = false := by decide
  have hstar : ('*' :: gap').filter isStructural = [] := by
    rw [List.filter_cons_of_neg (by decide), filter_spaces hspace hgap']
  simp only [List.filter_append, hfree, filter_spaces hspace hgap, hstar]
  simp [isStructural]

theorem filter_breakLines (s : Text) :
    (breakLines s).filter isStructural = s.filter isStructural := by
  fun_induction breakLines s with
  | case1 => rfl
  | case2 rest ih =>
      rw [List.filter_append, ih, List.filter_cons_of_pos (by decide),
        filter_dropSpaces (by decide)]
      rfl
  | case3 c rest hc ih => simp only [List.filter_cons, ih]

theorem filter_trim {p : Char → Bool} (hp : ∀ c, isWhite c = true → p c = false) (s : Text) :
    (trim s).filter p = s.filter p := by
  obtain ⟨lead, trail, hlead, htrail, hsplit⟩ := exists_append_trim_append s
  conv_rhs => rw [hsplit]
  simp only [List.filter_append, filter_blank hp hlead, filter_blank hp htrail,
    List.nil_append, List.append_nil]

theorem filter_trimEnd {p : Char → Bool} (hp : ∀ c, isWhite c = true → p c = false) (s : Text) :
    (trimEnd s).filter p = s.filter p := by
  obtain ⟨trail, htrail, hsplit⟩ := exists_trimEnd_append s
  conv_rhs => rw [hsplit]
  rw [List.filter_append, filter_blank hp htrail, List.append_nil]

theorem filter_returnColor {p : Char → Bool}
    (hp : ∀ c ∈ colorName ++ "= return ".toList, p c = false) (stage : Stage) (s : Text) :
    (returnColor stage s).filter p = s.filter p := by
  cases stage with
  | vertex => rfl
  | fragment => exact filter_editAll (keepsAll_colorWrite? hp) none s

theorem filter_format (stage : Stage) {names : List Text}
    (hnames : ∀ name ∈ names, MovesNothing name) (body : Text) :
    (format stage names body).filter isStructural = body.filter isStructural := by
  by_cases hbody : Blank body
  · rw [format_of_blank stage names hbody, filter_blank not_structural_of_white hbody]
    rfl
  · rw [format_of_not_blank stage names hbody, List.filter_cons_of_neg (by decide),
      filter_trimEnd not_structural_of_white, filter_editAll (keepsAll_product? hnames),
      filter_breakLines, filter_returnColor (by decide), filter_trim not_structural_of_white]

theorem isBalanced_format_iff (stage : Stage) {names : List Text}
    (hnames : ∀ name ∈ names, MovesNothing name) (body : Text) :
    IsBalanced '{' '}' (format stage names body) ↔ IsBalanced '{' '}' body :=
  isBalanced_iff_of_filter_eq (by decide) rfl rfl (filter_format stage hnames body)

/-- Under names without structural characters, the sequence of these characters stays as it is. The
formatted body, put before a closing brace, is the block that this brace closes exactly if the body
itself is balanced. -/
theorem structure_kept_and_block_closed (stage : Stage) {names : List Text}
    (hnames : ∀ name ∈ names, ∀ c ∈ name, isStructural c = false) (body : Text) :
    (format stage names body).filter isStructural = body.filter isStructural ∧
      ∀ rest, splitBlock? 0 (format stage names body ++ '}' :: rest) =
        some (format stage names body, rest) ↔ IsBalanced '{' '}' body := by
  have hmoves : ∀ name ∈ names, MovesNothing name := fun name hname => .inl (hnames name hname)
  refine ⟨filter_format stage hmoves body, fun rest => ?_⟩
  rw [splitBlock?_eq_some_iff, ← isBalanced_format_iff stage hmoves body]
  exact and_iff_right rfl

theorem structure_kept_and_block_closed_moved_braces :
    let names := ["u_mvp".toList, "N".toList]
    let body := " if (a) \x7b gl_FragColor = N * \x7b b \x7d + u_mvp * c;\n\x7d d;; ".toList
    let formatted :=
      "\tif (a) \x7b return mul( \x7b b \x7d + u_mvp * c, N );\n\t\n\x7d d;\n\t;".toList
    (∀ name ∈ names, ∀ c ∈ name, isStructural c = false) ∧ IsBalanced '{' '}' body ∧
      format .fragment names body = formatted ∧
      formatted.filter isStructural = body.filter isStructural ∧
      splitBlock? 0 (formatted ++ "\x7d\x7d".toList) = some (formatted, "\x7d".toList) := by
  intro names body formatted
  have hnames : ∀ name ∈ names, ∀ c ∈ name, isStructural c = false := by decide
  have hbody : IsBalanced '{' '}' body := by decide +kernel
  have hformatted : format .fragment names body = formatted := by decide +kernel
  obtain ⟨hkept, hclosed⟩ := structure_kept_and_block_closed .fragment hnames body
  rw [hformatted] at hkept hclosed
  exact ⟨hnames, hbody, hformatted, hkept, (hclosed _).mpr hbody⟩

end CgShader.Proofs.BodyStructure
