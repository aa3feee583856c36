import CgShader.Proofs.ItemSoundness

namespace CgShader.Proofs.CanonicalText

open CgShader.Item
open CgShader.Proofs.WhiteSpace
open CgShader.Proofs.ItemGrammar
open CgShader.Proofs.ItemSoundness

def declarationText (qualifier : Qualifier) (declaration : Declaration) : Text :=
  qualifier.keyword ++ [' '] ++ declaration.type ++ [' '] ++ declaration.name ++ " ; ".toList

def functionText (function : Function) : Text :=
  function.returnType ++ [' '] ++ function.name ++ " (".toList ++ function.parameters ++
    ")\x7b".toList ++ function.body ++ "\x7d ".toList

/-- The text of a shader without any choice of order or layout. -/
def canonicalText (shader : Shader) : Text :=
  shader.attributes.flatMap (declarationText .attr) ++
    (shader.uniforms.flatMap (declarationText .uniform) ++
      (shader.varyings.flatMap (declarationText .varying) ++
        shader.functions.flatMap functionText))

def canonicalItems (shader : Shader) : List Item :=
  shader.attributes.map (.declared .attr) ++
    (shader.uniforms.map (.declared .uniform) ++
      (shader.varyings.map (.declared .varying) ++ shader.functions.map .defined))

theorem writtenAll_declarationText (qualifier : Qualifier) {declaration : Declaration}
    (hdeclaration : WellFormedDeclaration declaration) {items : List Item} {rest : Text}
    (hrest : WrittenAll items rest) :
    WrittenAll (.declared qualifier declaration :: items)
      (declarationText qualifier declaration ++ rest) := by
  have hwritten : Written (.declared qualifier declaration)
      (qualifier.keyword ++ [' '] ++ declaration.type ++ [' '] ++ declaration.name ++ [' '] ++
        [';']) :=
    .declared qualifier hdeclaration (by decide) (by decide) (by decide)
  have hall := WrittenAll.cons blank_nil hwritten
    (hrest.blank_append (show Blank [' '] by decide))
  simpa [declarationText] using hall

theorem writtenAll_functionText {function : Function} (hfunction : WellFormedFunction function)
    {items : List Item} {rest : Text} (hrest : WrittenAll items rest) :
    WrittenAll (.defined function :: items) (functionText function ++ rest) := by
  have hwritten : Written (.defined function)
      (function.returnType ++ [' '] ++ function.name ++ [' '] ++ ['('] ++
        ([] ++ function.parameters ++ []) ++ [')'] ++ [] ++ ['{'] ++ function.body ++ ['}']) :=
    .defined hfunction (by decide) (by decide) blank_nil blank_nil blank_nil
  have hall := WrittenAll.cons blank_nil hwritten
    (hrest.blank_append (show Blank [' '] by decide))
  simpa [functionText] using hall

theorem writtenAll_canonicalText {shader : Shader} (hshader : WellFormedShader shader) :
    WrittenAll (canonicalItems shader) (canonicalText shader) := by
  have hdeclarations : ∀ (qualifier : Qualifier) (declarations : List Declaration),
      (∀ declaration ∈ declarations, WellFormedDeclaration declaration) →
      ∀ items rest, WrittenAll items rest →
        WrittenAll (declarations.map (.declared qualifier) ++ items)
          (declarations.flatMap (declarationText qualifier) ++ rest) := by
    intro qualifier declarations hwellFormed items rest hrest
    apply writtenAll_map_append _ hrest
    intro declaration hmem items rest hrest
    exact writtenAll_declarationText qualifier (hwellFormed declaration hmem) hrest
  have hfunctions : WrittenAll (shader.functions.map .defined ++ [])
      (shader.functions.flatMap functionText ++ []) := by
    apply writtenAll_map_append _ (.nil blank_nil)
    intro function hmem items rest hrest
    exact writtenAll_functionText (hshader.functions function hmem) hrest
  rw [List.append_nil, List.append_nil] at hfunctions
  apply hdeclarations .attr _ hshader.attributes
  apply hdeclarations .uniform _ hshader.uniforms
  exact hdeclarations .varying _ hshader.varyings _ _ hfunctions

theorem filterMap_declared (own qualifier : Qualifier) (declarations : List Declaration) :
    (declarations.map (.declared own)).filterMap (declaration? qualifier) =
      if own = qualifier then declarations else [] := by
  rw [List.filterMap_map]
  split
  · rename_i hown
    have hsome : declaration? qualifier ∘ Item.declared own = some := by
      funext declaration
      exact if_pos hown
    rw [hsome, List.filterMap_some]
  · rename_i hown
    have hnone : declaration? qualifier ∘ Item.declared own = fun _ => none := by
      funext declaration
      exact if_neg hown
    rw [hnone]
    simp

theorem ofItems_canonicalItems (shader : Shader) :
    Shader.ofItems shader.stage (canonicalItems shader) = shader := by
  have hfunctions : ∀ qualifier,
      (shader.functions.map Item.defined).filterMap (declaration? qualifier) = [] := by
    intro qualifier
    rw [List.filterMap_map]
    exact List.filterMap_eq_nil_iff.mpr (fun _ _ => rfl)
  have hdeclarations : ∀ qualifier (declarations : List Declaration),
      (declarations.map (Item.declared qualifier)).filterMap function? = [] := by
    intro qualifier declarations
    rw [List.filterMap_map]
    exact List.filterMap_eq_nil_iff.mpr (fun _ _ => rfl)
  have hdefined : (shader.functions.map Item.defined).filterMap function? = shader.functions := by
    rw [List.filterMap_map]
    exact List.filterMap_some
  simp only [Shader.ofItems, canonicalItems, List.filterMap_append, filterMap_declared, hfunctions,
    hdeclarations, hdefined, reduceCtorEq, if_true, if_false, List.append_nil, List.nil_append]

theorem read_canonicalText {shader : Shader} (hshader : WellFormedShader shader) :
    Shader.read shader.stage (canonicalText shader) = .ok shader := by
  rw [Shader.read, Cursor.start, readAll_of_writtenAll 0 (writtenAll_canonicalText hshader)]
  exact congrArg Except.ok (ofItems_canonicalItems shader)

/-- Whatever text a shader has been read from, it is well formed and its canonical text is read as
the same shader. -/
theorem wellFormed_and_read_canonicalText {stage : Stage} {text : Text} {shader : Shader}
    (h : Shader.read stage text = .ok shader) :
    WellFormedShader shader ∧ Shader.read stage (canonicalText shader) = .ok shader := by
  have hwellFormed := wellFormedShader_of_read h
  have hread := read_canonicalText hwellFormed
  rw [stage_of_read h] at hread
  exact ⟨hwellFormed, hread⟩

theorem wellFormed_and_read_canonicalText_odd_tokens :
    let shader : Shader := ⟨.fragment, [], [⟨";".toList, "a\tb".toList⟩],
      [⟨"*".toList, "-".toList⟩],
      [⟨"(".toList, "f=".toList, "\x7b int".toList, "\x7b;\x7d".toList⟩]⟩
    Shader.read .fragment
        "f=((\x7b int\t)\n\x7b\x7b;\x7d\x7duniform;a\tb;varying* -;precision;".toList = .ok shader ∧
      canonicalText shader =
        "uniform ; a\tb ; varying * - ; f= ( (\x7b int)\x7b\x7b;\x7d\x7d ".toList ∧
      WellFormedShader shader ∧ Shader.read .fragment (canonicalText shader) = .ok shader := by
  intro shader
  have hread : Shader.read .fragment
      "f=((\x7b int\t)\n\x7b\x7b;\x7d\x7duniform;a\tb;varying* -;precision;".toList =
        .ok shader := by
    decide +kernel
  exact ⟨hread, by decide +kernel, wellFormed_and_read_canonicalText hread⟩

end CgShader.Proofs.CanonicalText
