import CgShader.Proofs.BalancedBlocks
import CgShader.Proofs.BodyStructure
import CgShader.Proofs.StatementLines

namespace CgShader.Proofs.ProductOperands

open CgShader.Text
open CgShader.Body
open CgShader.Proofs.TextRuns
open CgShader.Proofs.WhiteSpace
open CgShader.Proofs.BalancedBlocks
open CgShader.Proofs.BodyEdits
open CgShader.Proofs.BodyStructure
open CgShader.Proofs.WordEdits
open CgShader.Proofs.StatementLines

/-- A place outside all brackets: what stands before it closes as many as it opens. -/
def AtTop (front : Text) : Prop :=
  front.count '(' = front.count ')' ∧ front.count '[' = front.count ']'

instance (front : Text) : Decidable (AtTop front) :=
  inferInstanceAs (Decidable (_ ∧ _))

/-- Whether a text ends in an operand, up to white space. -/
def endsInOperand (s : Text) : Bool :=
  (s.reverse.dropWhile isWhite).head?.any fun c => isWord c || c == '.' || c == ')' || c == ']'

/-- Whether a text ends in a number up to the sign of its exponent. -/
def endsInExponent (s : Text) : Bool :=
  match s.reverse with
  | [] => false
  | c :: rest =>
    let number := rest.takeWhile fun d => isWord d || d == '.'
    (c == 'e' || c == 'E') && number.any Char.isDigit && number.all fun d => d.isDigit || d == '.'

/-- Whether the character `c` behind `front` is an operator that binds looser than a product. A
minus is one if it has a left operand. -/
def isLooser (front : Text) (c : Char) : Bool :=
  "+,?<>".toList.contains c || c == '-' && endsInOperand front && !endsInExponent front

/-- No looser operator stands outside all brackets in `s`, which follows `front`. -/
def Tight (front s : Text) : Prop :=
  ∀ start c rest, s = start ++ c :: rest → AtTop (front ++ start) →
    isLooser (front ++ start) c = false

theorem tight_nil (front : Text) : Tight front [] := by
  intro start c rest h
  simp at h

theorem tight_cons_iff (front : Text) (c : Char) (s : Text) :
    Tight front (c :: s) ↔
      (AtTop front → isLooser front c = false) ∧ Tight (front ++ [c]) s := by
  constructor
  · intro h
    refine ⟨fun htop => ?_, ?_⟩
    · simpa using h [] c s rfl (by simpa using htop)
    · intro start d rest hs htop
      have hd := h (c :: start) d rest (by rw [hs, List.cons_append])
      rw [← List.append_cons] at htop ⊢
      exact hd htop
  · rintro ⟨hc, hs⟩ start d rest hsplit htop
    rcases start with _ | ⟨e, start⟩
    · obtain ⟨rfl, rfl⟩ : c = d ∧ s = rest := by simpa using hsplit
      rw [List.append_nil] at htop ⊢
      exact hc htop
    · obtain ⟨rfl, rfl⟩ : c = e ∧ s = start ++ d :: rest := by simpa using hsplit
      rw [List.append_cons] at htop ⊢
      exact hs start d rest rfl htop

instance decidableTight (front : Text) : (s : Text) → Decidable (Tight front s)
  | [] => .isTrue (tight_nil front)
  | c :: s =>
    have := decidableTight (front ++ [c]) s
    decidable_of_iff _ (tight_cons_iff front c s).symm

theorem tight_append_iff (front s t : Text) :
    Tight front (s ++ t) ↔ Tight front s ∧ Tight (front ++ s) t := by
  induction s generalizing front with
  | nil => simp [tight_nil]
  | cons c s ih =>
      rw [List.cons_append, tight_cons_iff, ih, tight_cons_iff, and_assoc, ← List.append_cons]

theorem tight_of_forall (front : Text) {s : Text}
    (hs : ∀ c ∈ s, c ∉ "+,?<>".toList ∧ c ≠ '-') : Tight front s := by
  rintro start c rest rfl -
  obtain ⟨hlist, hminus⟩ := hs c (by simp)
  rw [isLooser, List.contains_eq_mem, decide_eq_false hlist, beq_eq_false_iff_ne.mpr hminus]
  rfl

/-- The operand of a product: it closes the brackets that it opens and no others, and it holds no
looser operator outside them. -/
structure IsOperand (s : Text) : Prop where
  parentheses : IsBalanced '(' ')' s
  brackets : IsBalanced '[' ']' s
  tight : Tight [] s

theorem atTop_append_iff {front : Text} (hfront : AtTop front) (s : Text) :
    AtTop (front ++ s) ↔ AtTop s := by
  obtain ⟨hparentheses, hbrackets⟩ := hfront
  simp only [AtTop, List.count_append]
  omega

theorem reverse_star (front : Text) {gap : Text} (hgap : Spaces gap) (s : Text) :
    ∃ gap', Spaces gap' ∧
      (front ++ '*' :: gap ++ s).reverse = s.reverse ++ (gap' ++ '*' :: front.reverse) := by
  refine ⟨gap.reverse, ?_, by simp⟩
  intro c hc
  exact hgap c (List.mem_reverse.mp hc)

theorem endsInOperand_append (front : Text) {gap : Text} (hgap : Spaces gap) (s : Text) :
    endsInOperand (front ++ '*' :: gap ++ s) = endsInOperand s := by
  obtain ⟨gap', hgap', hreverse⟩ := reverse_star front hgap s
  unfold endsInOperand
  rw [hreverse, List.dropWhile_append]
  split
  · rename_i hblank
    rw [List.isEmpty_iff] at hblank
    rw [hblank, dropWhile_run (blank_of_spaces hgap') (by simp; decide), List.head?_cons]
    decide
  · rename_i hrest
    rcases hdrop : s.reverse.dropWhile isWhite with _ | ⟨c, rest⟩
    · simp [hdrop] at hrest
    · rfl

theorem endsInExponent_append (front : Text) {gap : Text} (hgap : Spaces gap) (s : Text) :
    endsInExponent (front ++ '*' :: gap ++ s) = endsInExponent s := by
  obtain ⟨gap', hgap', hreverse⟩ := reverse_star front hgap s
  have hstop : ∀ c ∈ (gap' ++ '*' :: front.reverse).head?, c = ' ' ∨ c = '*' := by
    intro c hc
    rcases gap' with _ | ⟨d, gap'⟩
    · right
      simpa using hc.symm
    · left
      rw [← hgap' d (by simp)]
      simpa using hc.symm
  unfold endsInExponent
  rw [hreverse]
  rcases s.reverse with _ | ⟨c, rest⟩
  · rcases hhead : gap' ++ '*' :: front.reverse with _ | ⟨c, rest⟩
    · rfl
    · rcases hstop c (by simp [hhead]) with rfl | rfl <;> rfl
  · rw [List.cons_append]
    simp only
    rw [takeWhile_append_stop]
    intro d hd
    rcases hstop d hd with rfl | rfl <;> decide

theorem tight_star_iff {front gap : Text} (hgap : Spaces gap)
    (hfront : AtTop (front ++ '*' :: gap)) (s : Text) :
    Tight (front ++ '*' :: gap) s ↔ Tight [] s := by
  have hlooser : ∀ start c, isLooser (front ++ '*' :: gap ++ start) c = isLooser start c := by
    intro start c
    rw [isLooser, endsInOperand_append front hgap, endsInExponent_append front hgap, isLooser]
  simp only [Tight, hlooser, atTop_append_iff hfront, List.nil_append]

theorem count_upTo {bracket : Char} (hword : isWord bracket = false)
    (hspace : bracket ≠ ' ') (hstar : bracket ≠ '*') {product : Product}
    (hmatrix : ∀ c ∈ product.matrix, isWord c = true) {gap gap' : Text} (hgap : Spaces gap)
    (hgap' : Spaces gap') :
    (product.upTo gap gap').count bracket = product.front.count bracket := by
  have hfree : ∀ {s : Text}, (∀ c ∈ s, c ≠ bracket) → s.count bracket = 0 := by
    intro s hs
    rw [List.count_eq_zero]
    exact fun hmem => hs bracket hmem rfl
  have hname : product.matrix.count bracket = 0 := by
    apply hfree
    rintro c hc rfl
    rw [hmatrix c hc] at hword
    cases hword
  have hspaces : ∀ {s : Text}, Spaces s → s.count bracket = 0 := by
    intro s hs
    apply hfree
    intro c hc
    rw [hs c hc]
    exact hspace.symm
  rw [Product.upTo, List.count_append, List.count_append, List.count_append,
    List.count_cons_of_ne hstar.symm, hname, hspaces hgap, hspaces hgap']
  omega

theorem isOperand_iff {product : Product} (hmatrix : ∀ c ∈ product.matrix, isWord c = true)
    {gap gap' : Text} (hgap : Spaces gap) (hgap' : Spaces gap')
    (hparentheses : IsBalanced '(' ')' (product.upTo gap gap' ++ product.operand))
    (hbrackets : IsBalanced '[' ']' (product.upTo gap gap' ++ product.operand)) :
    IsOperand product.operand ↔
      AtTop product.front ∧ Tight (product.upTo gap gap') product.operand := by
  have hcount : ∀ bracket ∈ ['(', ')', '[', ']'],
      (product.upTo gap gap').count bracket = product.front.count bracket := by
    intro bracket hbracket
    have hkind : ∀ b ∈ ['(', ')', '[', ']'], isWord b = false ∧ b ≠ ' ' ∧ b ≠ '*' := by decide
    obtain ⟨hword, hspace, hstar⟩ := hkind bracket hbracket
    exact count_upTo hword hspace hstar hmatrix hgap hgap'
  have htop : AtTop (product.upTo gap gap') ↔ AtTop product.front := by
    rw [AtTop, AtTop, hcount '(' (by decide), hcount ')' (by decide), hcount '[' (by decide),
      hcount ']' (by decide)]
  have hbalanced : IsBalanced '(' ')' product.operand ∧ IsBalanced '[' ']' product.operand ↔
      AtTop (product.upTo gap gap') :=
    and_congr (balanced_iff_of_balanced_append hparentheses)
      (balanced_iff_of_balanced_append hbrackets)
  rw [← htop]
  constructor
  · intro h
    have hfront := hbalanced.mp ⟨h.parentheses, h.brackets⟩
    exact ⟨hfront, (tight_star_iff hgap' hfront _).mpr h.tight⟩
  · rintro ⟨hfront, htight⟩
    obtain ⟨hround, hsquare⟩ := hbalanced.mpr hfront
    exact ⟨hround, hsquare, (tight_star_iff hgap' hfront _).mp htight⟩

def isBracketing (c : Char) : Bool := "()[];".toList.contains c

theorem not_bracketing_of_white (c : Char) (hc : isWhite c = true) : isBracketing c = false := by
  have hmarks : ∀ d ∈ "()[];".toList, isWhite d = false := by decide
  rw [isBracketing, List.contains_eq_mem, decide_eq_false_iff_not]
  intro hmem
  rw [hmarks c hmem] at hc
  cases hc

theorem dropSpaces_filter {p : Char → Bool} (hp : p ' ' = false) (s : Text) :
    dropSpaces (s.filter p) = (dropSpaces s).filter p := by
  have hhead : ' ' ∉ (s.filter p).head? := by
    intro h
    have hspace := (List.mem_filter.mp (List.mem_of_mem_head? h)).2
    rw [hp] at hspace
    cases hspace
  have hdrop := dropSpaces_run (show Spaces [] by simp [Spaces]) hhead
  rw [List.nil_append] at hdrop
  rw [hdrop, filter_dropSpaces hp]

theorem pieces_filter {p : Char → Bool} (hsemicolon : p ';' = true) (hspace : p ' ' = false)
    (s : Text) : pieces (s.filter p) = (pieces s).map (List.filter p) := by
  induction s using statement_induction with
  | last s hs =>
      rw [pieces_of_not_mem hs, pieces_of_not_mem fun h => hs (List.mem_filter.mp h).1,
        List.map_singleton]
  | statement statement rest hstatement ih =>
      have hkept : ';' ∉ statement.filter p := fun h => hstatement (List.mem_filter.mp h).1
      rw [List.filter_append, List.filter_cons_of_pos hsemicolon, pieces_append hkept,
        dropSpaces_filter hspace, ih, pieces_append hstatement, List.map_cons, List.filter_append,
        List.filter_cons_of_pos hsemicolon, List.filter_nil]

theorem filter_statements {p : Char → Bool} (hwhite : ∀ c, isWhite c = true → p c = false)
    (hcolor : ∀ c ∈ colorName ++ "= return ".toList, p c = false) (stage : Stage) (body : Text) :
    (statements stage body).filter p = body.filter p := by
  rw [← returnColor_trim, filter_returnColor hcolor, filter_trim hwhite]

theorem exists_piece_of_mem_statements {stage : Stage} {body piece : Text}
    (hpiece : piece ∈ pieces (statements stage body)) :
    ∃ source ∈ pieces body, source.filter isBracketing = piece.filter isBracketing := by
  have hmem : piece.filter isBracketing ∈ (pieces (statements stage body)).map
      (List.filter isBracketing) := List.mem_map_of_mem hpiece
  rw [← pieces_filter rfl rfl, filter_statements not_bracketing_of_white (by decide),
    pieces_filter rfl rfl] at hmem
  exact List.mem_map.mp hmem

theorem balanced_of_filter_eq {opening closing : Char} (hne : opening ≠ closing)
    (hopening : isBracketing opening = true) (hclosing : isBracketing closing = true)
    {s t : Text} (hfilter : s.filter isBracketing = t.filter isBracketing)
    (hs : IsBalanced opening closing s) : IsBalanced opening closing t :=
  (isBalanced_iff_of_filter_eq hne hopening hclosing hfilter).mp hs

theorem tight_front_iff {product : Product} (hmatrix : ∀ c ∈ product.matrix, isWord c = true)
    {gap gap' : Text} (hgap : Spaces gap) (hgap' : Spaces gap') :
    Tight product.front
        ((product.upTo gap gap' ++ product.operand ++ [';']).drop product.front.length) ↔
      Tight (product.upTo gap gap') product.operand := by
  have hoperators : ∀ d ∈ "+,?<>".toList, isWord d = false := by decide
  have hspace : ' ' ∉ "+,?<>".toList ∧ ' ' ≠ '-' := by decide
  have hmiddle : Tight product.front (product.matrix ++ gap ++ '*' :: gap') := by
    apply tight_of_forall
    intro c hc
    simp only [List.mem_append, List.mem_cons] at hc
    rcases hc with (hc | hc) | rfl | hc
    · have hword := hmatrix c hc
      constructor
      · intro hmem
        rw [hoperators c hmem] at hword
        cases hword
      · rintro rfl
        exact absurd hword (by decide)
    · rw [hgap c hc]
      exact hspace
    · decide
    · rw [hgap' c hc]
      exact hspace
  have hdrop : (product.upTo gap gap' ++ product.operand ++ [';']).drop product.front.length =
      product.matrix ++ gap ++ '*' :: gap' ++ (product.operand ++ [';']) := by
    simp [Product.upTo]
  have hupTo : product.front ++ (product.matrix ++ gap ++ '*' :: gap') =
      product.upTo gap gap' := by
    simp [Product.upTo]
  have hend : ∀ front, Tight front [';'] := fun front => tight_of_forall front (by decide)
  rw [hdrop, tight_append_iff, hupTo, tight_append_iff _ product.operand]
  exact ⟨fun h => h.2.1, fun h => ⟨hmiddle, h, hend _⟩⟩

theorem balanced_of_append_semicolon {opening closing : Char} (hne : opening ≠ closing)
    (hopening : opening ≠ ';') (hclosing : closing ≠ ';') {s : Text}
    (hs : IsBalanced opening closing (s ++ [';'])) : IsBalanced opening closing s := by
  have hkeep : ∀ c, c ≠ ';' → (c != ';') = true := fun c hc => by simpa using hc
  rw [IsBalanced, ← balancedFrom_filter_iff hne (· != ';') (hkeep _ hopening)
    (hkeep _ hclosing)] at hs ⊢
  simpa using hs

/-- Formatting a body on one line with balanced statements. Each product that becomes a call takes
all text up to the end of its statement. This text is the right operand of the product exactly if
the product stands outside all brackets and no looser operator follows there. -/
theorem isOperand_iff_of_format (stage : Stage) {names : List Text} (hnames : AreWords names)
    {body : Text} (hline : '\n' ∉ body)
    (hbalanced : ∀ statement ∈ pieces body,
      IsBalanced '(' ')' statement ∧ IsBalanced '[' ']' statement) :
    format stage names body = bodyLines stage names body ∧
      ∀ piece ∈ pieces (statements stage body), ∀ product,
        productIn? names piece = some product →
          turnProduct names piece = product.call ∧
          (∃ gap gap', Spaces gap ∧ Spaces gap' ∧
            piece = product.upTo gap gap' ++ product.operand ++ [';']) ∧
          (IsOperand product.operand ↔
            AtTop product.front ∧ Tight product.front (piece.drop product.front.length)) := by
  refine ⟨?_, ?_⟩
  · by_cases hbody : Blank body
    · rw [format_of_blank stage names hbody, bodyLines_of_blank stage names hbody]
    · exact format_of_one_line stage hnames hline hbody
  intro piece hpiece product hproduct
  obtain ⟨statement, rfl, hfirst⟩ := exists_statement_of_productIn? hproduct
  obtain ⟨hmatrix, gap, gap', hgap, hgap', rfl⟩ := eq_of_firstProduct? hfirst
  refine ⟨turnProduct_of_productIn? hproduct, ⟨gap, gap', hgap, hgap', rfl⟩, ?_⟩
  obtain ⟨source, hsource, hfilter⟩ := exists_piece_of_mem_statements hpiece
  obtain ⟨hparentheses, hbrackets⟩ := hbalanced source hsource
  rw [tight_front_iff hmatrix hgap hgap']
  apply isOperand_iff hmatrix hgap hgap'
  · exact balanced_of_append_semicolon (by decide) (by decide) (by decide)
      (balanced_of_filter_eq (by decide) rfl rfl hfilter hparentheses)
  · exact balanced_of_append_semicolon (by decide) (by decide) (by decide)
      (balanced_of_filter_eq (by decide) rfl rfl hfilter hbrackets)

theorem isOperand_iff_of_format_lone :
    AreWords ["u_mvp".toList] ∧
      '\n' ∉ "p = u_mvp*float4(a[0] - b, 1.0) ; x = 1.0;".toList ∧
      (∀ statement ∈ pieces "p = u_mvp*float4(a[0] - b, 1.0) ; x = 1.0;".toList,
        IsBalanced '(' ')' statement ∧ IsBalanced '[' ']' statement) ∧
      IsOperand "float4(a[0] - b, 1.0) ".toList := by
  have hbalanced : ∀ statement ∈ pieces "p = u_mvp*float4(a[0] - b, 1.0) ; x = 1.0;".toList,
      IsBalanced '(' ')' statement ∧ IsBalanced '[' ']' statement := by
    decide +kernel
  have hformat := isOperand_iff_of_format .vertex (show AreWords ["u_mvp".toList] by decide)
    (show '\n' ∉ "p = u_mvp*float4(a[0] - b, 1.0) ; x = 1.0;".toList by decide) hbalanced
  refine ⟨by decide, by decide, hbalanced, ?_⟩
  have hproduct := hformat.2 "p = u_mvp*float4(a[0] - b, 1.0) ;".toList (by decide +kernel)
    ⟨"p = ".toList, "u_mvp".toList, "float4(a[0] - b, 1.0) ".toList⟩ (by decide +kernel)
  exact hproduct.2.2.mpr (by decide +kernel)

theorem call_without_operand :
    AreWords ["u_mvp".toList] ∧ '\n' ∉ "u_mvp * v + w; f(u_mvp * v);".toList ∧
      (∀ statement ∈ pieces "u_mvp * v + w; f(u_mvp * v);".toList,
        IsBalanced '(' ')' statement ∧ IsBalanced '[' ']' statement) ∧
      format .vertex ["u_mvp".toList] "u_mvp * v + w; f(u_mvp * v);".toList =
        "\tmul( v + w, u_mvp );\n\tf(mul( v), u_mvp );".toList ∧
      ¬ IsOperand "v + w".toList ∧ ¬ IsOperand "v)".toList := by
  refine ⟨by decide, by decide, by decide +kernel, by decide +kernel, fun h => ?_, fun h => ?_⟩
  · exact absurd h.tight (by decide)
  · exact absurd h.parentheses (by decide)

end CgShader.Proofs.ProductOperands
