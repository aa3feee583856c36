import CgShader.Proofs.ItemGrammar

namespace CgShader.Proofs.ItemSoundness

open CgShader.Text
open CgShader.Item
open CgShader.Proofs.WhiteSpace
open CgShader.Proofs.BalancedBlocks
open CgShader.Proofs.TokenReading
open CgShader.Proofs.ItemGrammar

theorem exists_of_map_eq_ok {α β : Type} {result : Except ShaderError α} {f : α → β} {b : β}
    (h : result.map f = .ok b) : ∃ a, result = .ok a ∧ f a = b := by
  rcases result with error | a
  · cases h
  · exact ⟨a, rfl, Except.ok.inj h⟩

theorem token_ne_nil_of_token {cursor : Cursor} (h : cursor.token.2.token.1 ≠ []) :
    cursor.token.1 ≠ [] := by
  intro hnil
  rcases next_cases cursor.rest with ⟨-, hnext⟩ | ⟨lead, t, rest, -, ht, -, -, hnext⟩
  · apply h
    simp [Cursor.token, Cursor.moveBehind, hnext, next_of_blank blank_nil]
  · exact ht.ne_nil (by simpa [Cursor.token, hnext] using hnil)

theorem token_of_terminator {cursor after : Cursor} (h : terminator cursor = .ok after) :
    cursor.token.1 = [';'] := by
  unfold terminator at h
  split at h
  · assumption
  · cases h

theorem wellFormed_of_declaration {cursor after : Cursor} {read : Declaration}
    (h : declaration cursor = .ok (read, after)) : WellFormedDeclaration read := by
  simp only [declaration, bind, Except.bind, pure, Except.pure] at h
  split at h
  · cases h
  · rename_i afterSemicolon hterminator
    cases h
    have hname : cursor.token.2.token.1 ≠ [] := by
      apply token_ne_nil_of_token
      rw [token_of_terminator hterminator]
      simp
    exact ⟨isToken_token (token_ne_nil_of_token hname), isToken_token hname⟩

theorem token_of_expect {cursor after : Cursor} {expected : Char} {opened : Unit}
    (h : cursor.expect expected = (.ok opened, after)) : cursor.token.1 = [expected] := by
  simp only [Cursor.expect, Prod.mk.injEq] at h
  by_contra hne
  rw [if_neg hne] at h
  cases h.1

theorem not_mem_of_parameters {cursor after : Cursor} {taken : Text}
    (h : cursor.parameters = (.ok taken, after)) : ')' ∉ taken := by
  unfold Cursor.parameters at h
  split at h
  · rename_i taken' rest hsplit
    cases h
    exact ((splitParameters?_eq_some_iff ..).mp hsplit).2
  · cases h

theorem balanced_of_block {cursor after : Cursor} {taken : Text}
    (h : cursor.block = (.ok taken, after)) : IsBalanced '{' '}' taken := by
  unfold Cursor.block at h
  split at h
  · rename_i taken' rest hsplit
    cases h
    exact ((splitBlock?_eq_some_iff ..).mp hsplit).2
  · cases h

theorem exists_of_functionAfter_eq_ok {returnType : Text} {cursor after : Cursor} {read : Function}
    (h : functionAfter returnType cursor = .ok (read, after)) :
    ∃ afterOpen parameters afterParameters afterBrace body,
      cursor.token.2.expect '(' = (.ok (), afterOpen) ∧
      afterOpen.parameters = (.ok parameters, afterParameters) ∧
      afterParameters.expect '{' = (.ok (), afterBrace) ∧
      afterBrace.block = (.ok body, after) ∧
      read = ⟨cursor.token.1, returnType, trim parameters, body⟩ := by
  simp only [functionAfter, bind, Except.bind, pure, Except.pure] at h
  rcases hopen : cursor.token.2.expect '(' with ⟨_ | opened, afterOpen⟩
  · simp [hopen] at h
  rcases hparameters : afterOpen.parameters with ⟨_ | parameters, afterParameters⟩
  · simp [hopen, hparameters] at h
  rcases hbrace : afterParameters.expect '{' with ⟨_ | blockOpened, afterBrace⟩
  · simp [hopen, hparameters, hbrace] at h
  rcases hblock : afterBrace.block with ⟨_ | body, afterBlock⟩
  · simp [hopen, hparameters, hbrace, hblock] at h
  simp only [hopen, hparameters, hbrace, hblock, Except.ok.injEq, Prod.mk.injEq] at h
  obtain ⟨rfl, rfl⟩ := h
  exact ⟨afterOpen, parameters, afterParameters, afterBrace, body, rfl, hparameters, hbrace,
    hblock, rfl⟩

theorem wellFormed_of_functionAfter {returnType : Text} {cursor after : Cursor} {read : Function}
    (hreturnType : IsToken returnType)
    (hunqualified : ∀ qualifier : Qualifier, returnType ≠ qualifier.keyword)
    (hprecision : returnType ≠ precisionKeyword)
    (h : functionAfter returnType cursor = .ok (read, after)) : WellFormedFunction read := by
  obtain ⟨afterOpen, parameters, afterParameters, afterBrace, body, hopen, hparameters, -, hblock,
    rfl⟩ := exists_of_functionAfter_eq_ok h
  have hname : cursor.token.1 ≠ [] := by
    apply token_ne_nil_of_token
    rw [token_of_expect hopen]
    simp
  exact {
    returnType := hreturnType
    unqualified := hunqualified
    notPrecision := hprecision
    name := isToken_token hname
    trimmed := trim_trim parameters
    unclosed := fun hmem => not_mem_of_parameters hparameters (mem_of_mem_trim hmem)
    balanced := balanced_of_block hblock }

def WellFormed : Item → Prop
  | .declared _ declaration => WellFormedDeclaration declaration
  | .precision => True
  | .defined function => WellFormedFunction function

theorem wellFormed_of_readAfter {first : Text} {cursor after : Cursor} {item : Item}
    (hfirst : IsToken first) (h : readAfter first cursor = .ok (item, after)) :
    WellFormed item := by
  unfold readAfter at h
  split at h
  · obtain ⟨⟨read, after'⟩, hread, hsame⟩ := exists_of_map_eq_ok h
    cases hsame
    exact wellFormed_of_declaration hread
  · rename_i hkeyword
    split at h
    · obtain ⟨after', -, hsame⟩ := exists_of_map_eq_ok h
      cases hsame
      trivial
    · rename_i hprecision
      obtain ⟨⟨read, after'⟩, hread, hsame⟩ := exists_of_map_eq_ok h
      cases hsame
      exact wellFormed_of_functionAfter hfirst ((ofKeyword?_eq_none_iff first).mp hkeyword)
        hprecision hread

theorem wellFormed_of_readAll {cursor : Cursor} {items : List Item}
    (h : readAll cursor = .ok items) : ∀ item ∈ items, WellFormed item := by
  fun_induction readAll cursor generalizing items with
  | case1 cursor hend =>
      cases h
      simp
  | case2 => cases h
  | case3 cursor htoken first after hread ih =>
      obtain ⟨rest, hrest, rfl⟩ := exists_of_map_eq_ok h
      intro item hitem
      rcases List.mem_cons.mp hitem with rfl | hitem
      · exact wellFormed_of_readAfter (isToken_token htoken) hread
      · exact ih hrest item hitem

structure WellFormedShader (shader : Shader) : Prop where
  attributes : ∀ declaration ∈ shader.attributes, WellFormedDeclaration declaration
  uniforms : ∀ declaration ∈ shader.uniforms, WellFormedDeclaration declaration
  varyings : ∀ declaration ∈ shader.varyings, WellFormedDeclaration declaration
  functions : ∀ function ∈ shader.functions, WellFormedFunction function

theorem wellFormed_of_mem_declared {items : List Item}
    (hitems : ∀ item ∈ items, WellFormed item) (qualifier : Qualifier) :
    ∀ declaration ∈ items.filterMap (declaration? qualifier),
      WellFormedDeclaration declaration := by
  intro declaration hmem
  obtain ⟨item, hitem, hdeclared⟩ := List.mem_filterMap.mp hmem
  cases item with
  | declared own read =>
      simp only [declaration?] at hdeclared
      split at hdeclared
      · cases hdeclared
        exact hitems _ hitem
      · cases hdeclared
  | precision => cases hdeclared
  | defined function => cases hdeclared

theorem wellFormedShader_of_read {stage : Stage} {text : Text} {shader : Shader}
    (h : Shader.read stage text = .ok shader) : WellFormedShader shader := by
  obtain ⟨items, hread, rfl⟩ := exists_of_map_eq_ok h
  have hitems := wellFormed_of_readAll hread
  refine ⟨wellFormed_of_mem_declared hitems .attr, wellFormed_of_mem_declared hitems .uniform,
    wellFormed_of_mem_declared hitems .varying, ?_⟩
  intro function hmem
  obtain ⟨item, hitem, hdefined⟩ := List.mem_filterMap.mp hmem
  cases item with
  | declared own read => cases hdefined
  | precision => cases hdefined
  | defined read =>
      cases hdefined
      exact hitems _ hitem

theorem stage_of_read {stage : Stage} {text : Text} {shader : Shader}
    (h : Shader.read stage text = .ok shader) : shader.stage = stage := by
  obtain ⟨items, -, rfl⟩ := exists_of_map_eq_ok h
  rfl

end CgShader.Proofs.ItemSoundness
