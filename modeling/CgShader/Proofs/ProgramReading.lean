import CgShader.Program.Basic
import CgShader.Proofs.BodyStructure
import CgShader.Proofs.ItemSoundness
import CgShader.Proofs.ParameterBindings

namespace CgShader.Proofs.ProgramReading

open CgShader.Text
open CgShader.Proofs.WhiteSpace
open CgShader.Proofs.BalancedBlocks
open CgShader.Proofs.TokenReading
open CgShader.Proofs.ItemGrammar
open CgShader.Proofs.ItemSoundness
open CgShader.Proofs.BodyEdits
open CgShader.Proofs.BodyStructure
open CgShader.Proofs.ParameterBindings

/-- A function with its body on lines of its own, as it stands in a program. -/
def onLines (function : Function) : Function :=
  { function with body := '\n' :: function.body ++ ['\n'] }

def entryOf (program : Program) : Function :=
  onLines {
    name := Function.entryName
    returnType := Program.entryType program.stage
    parameters := trim ((",\n".toList).intercalate (program.parameters.map Parameter.render))
    body := program.body }

structure WellFormedProgram (program : Program) : Prop where
  helpers : ∀ helper ∈ program.helpers, WellFormedFunction helper
  parameters : ∀ parameter ∈ program.parameters, ')' ∉ parameter.render
  body : IsBalanced '{' '}' program.body

theorem balanced_onLines {body : Text} (hbody : IsBalanced '{' '}' body) :
    IsBalanced '{' '}' ('\n' :: body ++ ['\n']) := by
  have hfilter : ('\n' :: body ++ ['\n']).filter isStructural = body.filter isStructural := by
    rw [List.filter_append, List.filter_cons_of_neg (by decide)]
    exact List.append_nil _
  exact (isBalanced_iff_of_filter_eq (by decide) rfl rfl hfilter).mpr hbody

theorem wellFormed_onLines {function : Function} (hfunction : WellFormedFunction function) :
    WellFormedFunction (onLines function) :=
  { hfunction with balanced := balanced_onLines hfunction.balanced }

theorem writtenAll_renderHelper {helper : Function} {items : List Item} {rest : Text}
    (hhelper : WellFormedFunction helper) (hrest : WrittenAll items rest) :
    WrittenAll (.defined (onLines helper) :: items) (Program.renderHelper helper ++ rest) := by
  have hwritten : Written (.defined (onLines helper))
      ((onLines helper).returnType ++ [' '] ++ (onLines helper).name ++ [' '] ++ ['('] ++
        ([] ++ (onLines helper).parameters ++ []) ++ [')'] ++ ['\n'] ++ ['{'] ++
        (onLines helper).body ++ ['}']) :=
    .defined (wellFormed_onLines hhelper) (by decide) (by decide) blank_nil blank_nil (by decide)
  have hall := WrittenAll.cons blank_nil hwritten
    (hrest.blank_append (show Blank "\n\n".toList by decide))
  simpa [Program.renderHelper, Program.renderBlock, onLines] using hall

theorem writtenAll_renderHelpers {helpers : List Function} {items : List Item} {rest : Text}
    (hhelpers : ∀ helper ∈ helpers, WellFormedFunction helper)
    (hrest : WrittenAll items rest) :
    WrittenAll (helpers.map (fun helper => .defined (onLines helper)) ++ items)
      (helpers.flatMap Program.renderHelper ++ rest) := by
  apply writtenAll_map_append _ hrest
  intro helper hhelper items rest hrest
  exact writtenAll_renderHelper (hhelpers helper hhelper) hrest

theorem isWord_entryType (stage : Stage) : IsWord (Program.entryType stage) := by
  cases stage <;> decide

theorem entryType_ne_keyword (stage : Stage) (qualifier : Qualifier) :
    Program.entryType stage ≠ qualifier.keyword := by
  cases stage <;> cases qualifier <;> decide

theorem entryType_ne_precisionKeyword (stage : Stage) :
    Program.entryType stage ≠ Item.precisionKeyword := by
  cases stage <;> decide

theorem entryType_eq (stage : Stage) :
    Program.entryType stage = if stage = .vertex then "void".toList else "float4".toList := by
  cases stage <;> rfl

theorem isWord_entryName : IsWord Function.entryName := by decide

theorem not_mem_intercalate {c : Char} {separator : Text} {lines : List Text}
    (hseparator : c ∉ separator) (hlines : ∀ line ∈ lines, c ∉ line) :
    c ∉ separator.intercalate lines := by
  induction lines with
  | nil => simp
  | cons line lines ih =>
      have hline := hlines line (by simp)
      have hrest := ih (fun other hother => hlines other (by simp [hother]))
      rcases lines with _ | ⟨next, lines⟩
      · simpa using hline
      · rw [List.intercalate_cons_cons]
        simp only [List.mem_append, not_or]
        exact ⟨⟨hline, hseparator⟩, hrest⟩

theorem wellFormed_entryOf {program : Program} (hprogram : WellFormedProgram program) :
    WellFormedFunction (entryOf program) := by
  refine wellFormed_onLines {
    returnType := .word (isWord_entryType program.stage)
    unqualified := entryType_ne_keyword program.stage
    notPrecision := entryType_ne_precisionKeyword program.stage
    name := .word isWord_entryName
    trimmed := trim_trim _
    unclosed := ?_
    balanced := hprogram.body }
  intro hmem
  apply not_mem_intercalate (show ')' ∉ ",\n".toList by decide) _ (mem_of_mem_trim hmem)
  intro line hline
  obtain ⟨parameter, hparameter, rfl⟩ := List.mem_map.mp hline
  exact hprogram.parameters parameter hparameter

theorem exists_renderParameters (parameters : List Parameter) :
    ∃ lead trail, Blank lead ∧ Blank trail ∧
      '\n' :: (Program.renderParameters parameters ++ ['\t']) =
        lead ++ trim ((",\n".toList).intercalate (parameters.map Parameter.render)) ++ trail := by
  obtain ⟨lead, trail, hlead, htrail, hsplit⟩ :=
    exists_append_trim_append ((",\n".toList).intercalate (parameters.map Parameter.render))
  rcases parameters with _ | ⟨parameter, parameters⟩
  · exact ⟨"\n\t".toList, [], by decide, blank_nil, rfl⟩
  · refine ⟨'\n' :: lead, trail ++ "\n\t".toList, ?_, ?_, ?_⟩
    · exact (blank_append_iff ['\n'] lead).mpr ⟨by decide, hlead⟩
    · exact (blank_append_iff ..).mpr ⟨htrail, by decide⟩
    · have hlines : Program.renderParameters (parameter :: parameters) =
          (",\n".toList).intercalate ((parameter :: parameters).map Parameter.render) ++ ['\n'] :=
        rfl
      rw [hlines]
      conv_lhs => rw [hsplit]
      simp

theorem writtenAll_renderEntry {program : Program} (hprogram : WellFormedProgram program) :
    WrittenAll [.defined (entryOf program)]
      (Program.entryType program.stage ++ " main(\n".toList ++
        Program.renderParameters program.parameters ++ "\t)\n".toList ++
        Program.renderBlock program.body) := by
  obtain ⟨lead, trail, hlead, htrail, hparameters⟩ := exists_renderParameters program.parameters
  have hwritten : Written (.defined (entryOf program))
      ((entryOf program).returnType ++ [' '] ++ (entryOf program).name ++ [] ++ ['('] ++
        (lead ++ (entryOf program).parameters ++ trail) ++ [')'] ++ ['\n'] ++ ['{'] ++
        (entryOf program).body ++ ['}']) :=
    .defined (wellFormed_entryOf hprogram) (by decide) (.inl rfl) hlead htrail (by decide)
  have hall := WrittenAll.cons blank_nil hwritten
    (.nil (show Blank ['\n'] by decide))
  have hinside : lead ++ (entryOf program).parameters ++ trail =
      '\n' :: (Program.renderParameters program.parameters ++ ['\t']) :=
    hparameters.symm
  rw [hinside] at hall
  simpa [entryOf, onLines, Program.renderBlock, Function.entryName] using hall

theorem afterLine_banner (stage : Stage) (rest : Text) :
    Source.afterLine (Program.banner stage ++ rest) = rest := by
  cases stage <;> rfl

theorem render_eq_banner_append (program : Program) :
    program.render = Program.banner program.stage ++
      (program.helpers.flatMap Program.renderHelper ++
        (Program.entryType program.stage ++ " main(\n".toList ++
          Program.renderParameters program.parameters ++ "\t)\n".toList ++
          Program.renderBlock program.body)) := by
  simp [Program.render]

theorem read_afterLine_render (stage : Stage) {program : Program}
    (hprogram : WellFormedProgram program) :
    Shader.read stage (Source.afterLine program.render) =
      .ok ⟨stage, [], [], [], program.helpers.map onLines ++ [entryOf program]⟩ := by
  have hall := writtenAll_renderHelpers hprogram.helpers (writtenAll_renderEntry hprogram)
  rw [render_eq_banner_append, afterLine_banner, Shader.read, Cursor.start,
    readAll_of_writtenAll 0 hall]
  simp [Except.map, Shader.ofItems, List.filterMap_map, Function.comp_def, Item.declaration?,
    Item.function?]

theorem toProgram_eq_ok {check : NameCheck} {config : Config} {shader : Shader} {program : Program}
    (h : shader.toProgram check config = .ok program) :
    ∃ entry, shader.entry = .ok entry ∧ program = {
      stage := shader.stage
      helpers := shader.helpers.map fun helper =>
        { helper with body := Body.format shader.stage (shader.matrixNames config) helper.body }
      parameters := Parameter.ofShader config shader
      body := Body.format shader.stage (shader.matrixNames config) entry.body } := by
  simp only [Shader.toProgram, bind, Except.bind, pure, Except.pure] at h
  rcases hentry : shader.entry with error | entry
  · simp [hentry] at h
  · simp only [hentry] at h
    repeat' split at h
    all_goals cases h
    all_goals exact ⟨entry, rfl, rfl⟩

theorem isStructural_of_isDelimiter_eq_false {c : Char} (hc : Token.isDelimiter c = false) :
    isStructural c = false := by
  simp only [isStructural, Bool.or_eq_false_iff, beq_eq_false_iff_ne]
  refine ⟨⟨?_, ?_⟩, ?_⟩ <;>
  · rintro rfl
    exact absurd hc (by decide)

theorem isWord_of_isMark {c : Char} (hmark : IsMark c) : isWord c = false := by
  have hall : ∀ d ∈ Token.delimiters, isWord d = false := by decide
  exact hall c (List.contains_iff_mem.mp hmark.delimiter)

/-- No token can move a brace or a semicolon: a word holds none, and a mark is no whole word. -/
theorem movesNothing_of_isToken {t : Text} (ht : IsToken t) : MovesNothing t := by
  cases ht with
  | word hword =>
      left
      intro c hc
      exact isStructural_of_isDelimiter_eq_false (hword.plain c hc)
  | mark hmark => exact .inr ⟨_, rfl, isWord_of_isMark hmark⟩

theorem movesNothing_of_mem_matrixNames {config : Config} {shader : Shader}
    (hshader : WellFormedShader shader)
    (htransform : ∀ c ∈ config.transform, isStructural c = false) :
    ∀ name ∈ shader.matrixNames config, MovesNothing name := by
  intro name hname
  simp only [Shader.matrixNames, List.mem_eraseDups, List.mem_append] at hname
  rcases hname with hname | hname
  · split at hname
    · simp at hname
    · obtain rfl : name = config.transform := by simpa using hname
      exact .inl htransform
  · split at hname
    · obtain ⟨declaration, hdeclaration, rfl⟩ := List.mem_map.mp hname
      exact movesNothing_of_isToken
        (hshader.uniforms declaration (List.mem_of_mem_filter hdeclaration)).name
    · simp at hname

theorem balanced_format (stage : Stage) {names : List Text}
    (hnames : ∀ name ∈ names, MovesNothing name) {body : Text}
    (hbody : IsBalanced '{' '}' body) : IsBalanced '{' '}' (Body.format stage names body) :=
  (isBalanced_format_iff stage hnames body).mpr hbody

theorem not_mem_ofNat (n : Nat) : ')' ∉ Text.ofNat n := by
  intro hmem
  exact absurd (Nat.isDigit_of_mem_toDigits (by decide) (by decide) hmem) (by decide)

theorem not_mem_renderBinding (binding : Binding) : ')' ∉ binding.render := by
  cases binding with
  | textureUnit index =>
      exact List.not_mem_append (by decide) (not_mem_ofNat index)
  | position => decide
  | textureCoordinate index =>
      exact List.not_mem_append (by decide) (not_mem_ofNat index)

theorem not_mem_renderPassing (passing : Passing) : ')' ∉ passing.render := by
  cases passing <;> decide

theorem not_mem_render {parameter : Parameter} (htype : ')' ∉ parameter.type)
    (hname : ')' ∉ parameter.name) : ')' ∉ parameter.render := by
  have hdeclared : ')' ∉ parameter.passing.render ++ parameter.type ++ ' ' :: parameter.name := by
    apply List.not_mem_append
      (List.not_mem_append (not_mem_renderPassing parameter.passing) htype)
    simpa using hname
  unfold Parameter.render
  apply List.not_mem_cons_of_ne_of_not_mem (by decide)
  apply List.not_mem_append hdeclared
  split
  · exact List.not_mem_append (by decide) (not_mem_renderBinding _)
  · simp

theorem exists_of_mem_ofUniforms {unit : Nat} {declarations : List Declaration}
    {parameter : Parameter} (h : parameter ∈ Parameter.ofUniforms unit declarations) :
    ∃ declaration ∈ declarations,
      parameter.type = declaration.type ∧ parameter.name = declaration.name := by
  rw [ofUniforms_eq_mapIdx] at h
  obtain ⟨index, hindex, rfl⟩ := List.mem_mapIdx.mp h
  exact ⟨declarations[index], List.getElem_mem hindex, rfl, rfl⟩

theorem exists_of_mem_ofVaryings {passing : Passing} {index : Nat}
    {declarations : List Declaration} {parameter : Parameter}
    (h : parameter ∈ Parameter.ofVaryings passing index declarations) :
    ∃ declaration ∈ declarations,
      parameter.type = declaration.type ∧ parameter.name = declaration.name := by
  rw [ofVaryings_eq_mapIdx] at h
  obtain ⟨place, hplace, rfl⟩ := List.mem_mapIdx.mp h
  exact ⟨declarations[place], List.getElem_mem hplace, rfl, rfl⟩

theorem not_mem_render_of_mem_ofShader {config : Config} {shader : Shader}
    (hdeclarations : ∀ declaration ∈ shader.attributes ++ shader.uniforms ++ shader.varyings,
      ')' ∉ declaration.type ∧ ')' ∉ declaration.name)
    (hposition : ')' ∉ config.positionOutput) :
    ∀ parameter ∈ Parameter.ofShader config shader, ')' ∉ parameter.render := by
  intro parameter hparameter
  have hof : ∀ declaration ∈ shader.attributes ++ shader.uniforms ++ shader.varyings,
      parameter.type = declaration.type ∧ parameter.name = declaration.name →
        ')' ∉ parameter.render := by
    rintro declaration hdeclaration ⟨htype, hname⟩
    apply not_mem_render
    · rw [htype]
      exact (hdeclarations declaration hdeclaration).1
    · rw [hname]
      exact (hdeclarations declaration hdeclaration).2
  simp only [Parameter.ofShader, List.mem_append, List.mem_map] at hparameter
  rcases hparameter with ((⟨declaration, hmem, rfl⟩ | huniform) | hstage) | hvarying
  · exact hof declaration (by simp [hmem]) ⟨rfl, rfl⟩
  · obtain ⟨declaration, hmem, hsame⟩ := exists_of_mem_ofUniforms huniform
    exact hof declaration (by simp [hmem]) hsame
  · unfold Parameter.ofPosition at hstage
    split at hstage
    · obtain rfl := List.mem_singleton.mp hstage
      exact not_mem_render (show ')' ∉ "float4".toList by decide) hposition
    · simp at hstage
  · obtain ⟨declaration, hmem, hsame⟩ := exists_of_mem_ofVaryings hvarying
    exact hof declaration (by simp [hmem]) hsame

theorem wellFormed_of_entry {shader : Shader} {entry : Function}
    (hshader : WellFormedShader shader) (hentry : shader.entry = .ok entry) :
    WellFormedFunction entry := by
  unfold Shader.entry at hentry
  split at hentry
  · rename_i function hfind
    cases hentry
    exact hshader.functions entry (List.mem_of_find?_eq_some hfind)
  · cases hentry

/-- Without its banner, a generated program is read as the helpers of its shader and one entry
point, each with its formatted body on lines of its own. -/
theorem read_generate (stage' : Stage) {stage : Stage} {text out : Text} {shader : Shader}
    {check : NameCheck} {config : Config}
    (hread : Shader.read stage text = .ok shader)
    (hdeclarations : ∀ declaration ∈ shader.attributes ++ shader.uniforms ++ shader.varyings,
      ')' ∉ declaration.type ∧ ')' ∉ declaration.name)
    (hposition : ')' ∉ config.positionOutput)
    (htransform : ∀ c ∈ config.transform, c ≠ ';' ∧ c ≠ '{' ∧ c ≠ '}')
    (hgenerate : shader.generate check config = .ok out) :
    ∃ entry, shader.entry = .ok entry ∧
      out = Program.banner stage ++ Source.afterLine out ∧
      Shader.read stage' (Source.afterLine out) = .ok {
        stage := stage'
        attributes := []
        uniforms := []
        varyings := []
        functions := shader.helpers.map (fun helper => {
            name := helper.name
            returnType := helper.returnType
            parameters := helper.parameters
            body :=
              '\n' :: Body.format stage (shader.matrixNames config) helper.body ++ ['\n'] }) ++
          [{
            name := "main".toList
            returnType := if stage = .vertex then "void".toList else "float4".toList
            parameters := trim ((",\n".toList).intercalate
              ((Parameter.ofShader config shader).map Parameter.render))
            body :=
              '\n' :: Body.format stage (shader.matrixNames config) entry.body ++ ['\n'] }] } ∧
      ∀ body, Blank body →
        '\n' :: Body.format stage (shader.matrixNames config) body ++ ['\n'] = ['\n', '\n'] := by
  have hshader := wellFormedShader_of_read hread
  obtain rfl := stage_of_read hread
  obtain ⟨program, hprogram, rfl⟩ := exists_of_map_eq_ok hgenerate
  obtain ⟨entry, hentry, rfl⟩ := toProgram_eq_ok hprogram
  have hnames : ∀ name ∈ shader.matrixNames config, MovesNothing name := by
    apply movesNothing_of_mem_matrixNames hshader
    intro c hc
    obtain ⟨hsemicolon, hopening, hclosing⟩ := htransform c hc
    simp [isStructural, hsemicolon, hopening, hclosing]
  have hwellFormed : WellFormedProgram {
      stage := shader.stage
      helpers := shader.helpers.map fun helper =>
        { helper with body := Body.format shader.stage (shader.matrixNames config) helper.body }
      parameters := Parameter.ofShader config shader
      body := Body.format shader.stage (shader.matrixNames config) entry.body } := by
    refine ⟨?_, not_mem_render_of_mem_ofShader hdeclarations hposition,
      balanced_format shader.stage hnames (wellFormed_of_entry hshader hentry).balanced⟩
    intro helper hhelper
    obtain ⟨function, hfunction, rfl⟩ := List.mem_map.mp hhelper
    have horiginal := hshader.functions function (List.mem_of_mem_filter hfunction)
    exact { horiginal with balanced := balanced_format shader.stage hnames horiginal.balanced }
  refine ⟨entry, hentry, ?_, ?_, ?_⟩
  · rw [render_eq_banner_append, afterLine_banner]
  · rw [read_afterLine_render stage' hwellFormed, List.map_map, ← entryType_eq]
    rfl
  · intro body hbody
    rw [format_of_blank _ _ hbody]
    rfl

theorem read_generate_product :
    let text := ("attribute float4 a; uniform sampler2D t; varying float2 v; " ++
      "float f(float a)\x7b return a; \x7d void main()\x7bx=u_mvp*p;\x7b\x7d\x7d").toList
    let shader : Shader := ⟨.vertex, [⟨"float4".toList, "a".toList⟩],
      [⟨"sampler2D".toList, "t".toList⟩], [⟨"float2".toList, "v".toList⟩],
      [⟨"f".toList, "float".toList, "float a".toList, " return a; ".toList⟩,
        ⟨"main".toList, "void".toList, [], "x=u_mvp*p;\x7b\x7d".toList⟩]⟩
    let parameters := ("float4 a,\n\tuniform sampler2D t : TEXUNIT0,\n" ++
      "\tout float4 v_position : POSITION,\n\tout float2 v : TEXCOORD0").toList
    let out := "// Auto-generated from GLSL vertex shader\n".toList ++
      "float f (float a)\n\x7b\n\treturn a;\n\x7d\n\nvoid main(\n\t".toList ++ parameters ++
      "\n\t)\n\x7b\n\tx=mul( p, u_mvp );\n\t\x7b\x7d\n\x7d\n".toList
    Shader.read .vertex text = .ok shader ∧ shader.generate .trivial .default = .ok out ∧
      Shader.read .fragment (Source.afterLine out) = .ok ⟨.fragment, [], [], [],
        [⟨"f".toList, "float".toList, "float a".toList, "\n\treturn a;\n".toList⟩,
          ⟨"main".toList, "void".toList, parameters,
            "\n\tx=mul( p, u_mvp );\n\t\x7b\x7d\n".toList⟩]⟩ := by
  intro text shader parameters out
  have hread : Shader.read .vertex text = .ok shader := by decide +kernel
  have hgenerate : shader.generate .trivial .default = .ok out := by decide +kernel
  obtain ⟨entry, hentry, -, hagain, -⟩ := read_generate .fragment hread (by decide +kernel)
    (by decide) (by decide) hgenerate
  refine ⟨hread, hgenerate, ?_⟩
  cases hentry
  rw [hagain]
  decide +kernel

end CgShader.Proofs.ProgramReading
