import Mathlib.Data.List.DropRight
import Mathlib.Data.List.Nodup
import CgShader.Program.Basic

namespace CgShader.Proofs.ParameterBindings

open CgShader.Parameter

def lines (config : Config) (shader : Shader) : List Text :=
  (ofShader config shader).map render

/-- What is written of a parameter before its binding. -/
def declared (passing : Text) (declaration : Declaration) : Text :=
  '\t' :: (passing ++ declaration.type ++ ' ' :: declaration.name)

def samplersBefore (uniforms : List Declaration) (index : Nat) : Nat :=
  (uniforms.take index).countP (·.isSampler)

/-- The line of a uniform. Only a sampler is bound, to the unit of this number. -/
def uniformLine (unit : Nat) (uniform : Declaration) : Text :=
  declared "uniform ".toList uniform ++
    if uniform.type = "sampler2D".toList then " : TEXUNIT".toList ++ Text.ofNat unit else []

def positionLine (config : Config) : Text :=
  declared "out ".toList ⟨"float4".toList, config.positionOutput⟩ ++ " : POSITION".toList

def direction : Stage → Text
  | .vertex => "out ".toList
  | .fragment => "in ".toList

def varyingLine (stage : Stage) (index : Nat) (varying : Declaration) : Text :=
  declared (direction stage) varying ++ " : TEXCOORD".toList ++ Text.ofNat index

def uniformAt (unit : Nat) (declaration : Declaration) : Parameter :=
  ⟨.uniform, declaration.type, declaration.name,
    if declaration.isSampler then some (.textureUnit unit) else none⟩

def varyingAt (passing : Passing) (index : Nat) (declaration : Declaration) : Parameter :=
  ⟨passing, declaration.type, declaration.name, some (.textureCoordinate index)⟩

theorem ofUniforms_cons (unit : Nat) (declaration : Declaration) (rest : List Declaration) :
    ofUniforms unit (declaration :: rest) = uniformAt unit declaration ::
      ofUniforms (unit + if declaration.isSampler then 1 else 0) rest := by
  rw [ofUniforms, uniformAt]
  split <;> rfl

theorem samplersBefore_cons (declaration : Declaration) (rest : List Declaration) (index : Nat) :
    samplersBefore (declaration :: rest) (index + 1) =
      samplersBefore rest index + if declaration.isSampler then 1 else 0 := by
  rw [samplersBefore, List.take_succ_cons, List.countP_cons, samplersBefore]

theorem ofUniforms_eq_mapIdx (unit : Nat) (uniforms : List Declaration) :
    ofUniforms unit uniforms =
      uniforms.mapIdx fun index => uniformAt (unit + samplersBefore uniforms index) := by
  induction uniforms generalizing unit with
  | nil => rfl
  | cons declaration rest ih =>
      rw [ofUniforms_cons, ih, List.mapIdx_cons]
      congr 2
      funext index
      rw [samplersBefore_cons, Nat.add_assoc, Nat.add_comm (samplersBefore rest index)]

theorem ofVaryings_eq_mapIdx (passing : Passing) (first : Nat) (varyings : List Declaration) :
    ofVaryings passing first varyings =
      varyings.mapIdx fun index => varyingAt passing (first + index) := by
  induction varyings generalizing first with
  | nil => rfl
  | cons declaration rest ih =>
      rw [ofVaryings, ih, List.mapIdx_cons]
      congr 2
      funext index
      rw [Nat.add_assoc, Nat.add_comm 1]

theorem render_bound (passing : Passing) (declaration : Declaration) (binding : Binding) :
    render ⟨passing, declaration.type, declaration.name, some binding⟩ =
      declared passing.render declaration ++ (" : ".toList ++ binding.render) :=
  rfl

theorem render_unbound (passing : Passing) (declaration : Declaration) :
    render ⟨passing, declaration.type, declaration.name, none⟩ =
      declared passing.render declaration := by
  simp only [render, declared, List.append_nil]

theorem isSampler_iff (declaration : Declaration) :
    declaration.isSampler = true ↔ declaration.type = "sampler2D".toList :=
  beq_iff_eq

theorem render_uniformAt (unit : Nat) (uniform : Declaration) :
    render (uniformAt unit uniform) = uniformLine unit uniform := by
  unfold uniformAt uniformLine
  by_cases hsampler : uniform.type = "sampler2D".toList
  · rw [if_pos ((isSampler_iff uniform).mpr hsampler), render_bound, if_pos hsampler]
    rfl
  · rw [if_neg (mt (isSampler_iff uniform).mp hsampler), render_unbound, if_neg hsampler,
      List.append_nil]
    rfl

theorem render_varyingAt (stage : Stage) (index : Nat) (varying : Declaration) :
    render (varyingAt (.ofVarying stage) index varying) = varyingLine stage index varying := by
  unfold varyingAt varyingLine
  rw [render_bound, List.append_assoc]
  cases stage <;> rfl

theorem map_mapIdx {α β γ : Type} (f : β → γ) (g : Nat → α → β) (l : List α) :
    (l.mapIdx g).map f = l.mapIdx fun index a => f (g index a) := by
  apply List.ext_getElem?
  intro index
  rw [List.getElem?_map, List.getElem?_mapIdx, List.getElem?_mapIdx, Option.map_map]
  rfl

theorem lines_eq (config : Config) (shader : Shader) :
    lines config shader =
      shader.attributes.map (declared []) ++
      shader.uniforms.mapIdx (fun index =>
        uniformLine (samplersBefore shader.uniforms index)) ++
      (if shader.stage = .vertex then [positionLine config] else []) ++
      shader.varyings.mapIdx (varyingLine shader.stage) := by
  have hattributes : (shader.attributes.map ofAttribute).map render =
      shader.attributes.map (declared []) := by
    rw [List.map_map]
    exact List.map_congr_left fun declaration _ => render_unbound .plain declaration
  have hposition : (ofPosition shader.stage config.positionOutput).map render =
      if shader.stage = .vertex then [positionLine config] else [] := by
    cases shader.stage <;> rfl
  rw [lines, ofShader, List.map_append, List.map_append, List.map_append, hattributes, hposition,
    ofUniforms_eq_mapIdx, ofVaryings_eq_mapIdx, map_mapIdx, map_mapIdx]
  simp only [render_uniformAt, render_varyingAt, Nat.zero_add]

theorem bindings_ofUniforms (unit : Nat) (uniforms : List Declaration) :
    (ofUniforms unit uniforms).filterMap (·.binding) =
      (List.range' unit (uniforms.countP (·.isSampler))).map .textureUnit := by
  induction uniforms generalizing unit with
  | nil => rfl
  | cons uniform rest ih =>
      rw [ofUniforms_cons, List.filterMap_cons, ih, List.countP_cons]
      by_cases hsampler : uniform.isSampler = true
      · simp [uniformAt, hsampler, List.range'_succ]
      · simp [uniformAt, hsampler]

theorem bindings_ofVaryings (passing : Passing) (first : Nat) (varyings : List Declaration) :
    (ofVaryings passing first varyings).filterMap (·.binding) =
      (List.range' first varyings.length).map .textureCoordinate := by
  induction varyings generalizing first with
  | nil => rfl
  | cons varying rest ih =>
      rw [ofVaryings, List.filterMap_cons, ih, List.length_cons, List.range'_succ, List.map_cons]

theorem bindings_ofShader (config : Config) (shader : Shader) :
    (ofShader config shader).filterMap (·.binding) =
      (List.range (shader.uniforms.countP (·.isSampler))).map .textureUnit ++
      (if shader.stage = .vertex then [.position] else []) ++
      (List.range shader.varyings.length).map .textureCoordinate := by
  have hattributes : (shader.attributes.map ofAttribute).filterMap (·.binding) = [] := by
    rw [List.filterMap_map, List.filterMap_eq_nil_iff]
    exact fun declaration _ => rfl
  have hposition : (ofPosition shader.stage config.positionOutput).filterMap (·.binding) =
      if shader.stage = .vertex then [.position] else [] := by
    cases shader.stage <;> rfl
  rw [ofShader, List.filterMap_append, List.filterMap_append, List.filterMap_append, hattributes,
    hposition, bindings_ofUniforms, bindings_ofVaryings, List.nil_append, ← List.range_eq_range',
    ← List.range_eq_range']

theorem ofNat_injective : Function.Injective Text.ofNat := by
  intro n m h
  have hvalue := congrArg (Nat.ofDigitChars 10 · 0) h
  rwa [Text.ofNat, Text.ofNat, Nat.ofDigitChars_ten_toDigits, Nat.ofDigitChars_ten_toDigits]
    at hvalue

theorem render_binding_injective : Function.Injective Binding.render := by
  intro binding other h
  -- the fourth character tells the kinds apart
  have hkind : binding.render[3]? = other.render[3]? := by rw [h]
  cases binding with
  | textureUnit index =>
      cases other with
      | textureUnit index' => exact congrArg _ (ofNat_injective (List.append_cancel_left h))
      | position => exact absurd hkind (show some 'U' ≠ some 'I' by decide)
      | textureCoordinate index' => exact absurd hkind (show some 'U' ≠ some 'C' by decide)
  | position =>
      cases other with
      | textureUnit index' => exact absurd hkind (show some 'I' ≠ some 'U' by decide)
      | position => rfl
      | textureCoordinate index' => exact absurd hkind (show some 'I' ≠ some 'C' by decide)
  | textureCoordinate index =>
      cases other with
      | textureUnit index' => exact absurd hkind (show some 'C' ≠ some 'U' by decide)
      | position => exact absurd hkind (show some 'C' ≠ some 'I' by decide)
      | textureCoordinate index' => exact congrArg _ (ofNat_injective (List.append_cancel_left h))

theorem nodup_bindings (config : Config) (shader : Shader) :
    (((ofShader config shader).filterMap (·.binding)).map Binding.render).Nodup := by
  apply List.Nodup.map render_binding_injective
  have hunits : Function.Injective Binding.textureUnit := fun _ _ h => Binding.textureUnit.inj h
  have hcoordinates : Function.Injective Binding.textureCoordinate :=
    fun _ _ h => Binding.textureCoordinate.inj h
  have hposition : ∀ binding ∈ if shader.stage = .vertex then [Binding.position] else [],
      binding = .position := by
    split <;> simp
  rw [bindings_ofShader, List.nodup_append, List.nodup_append]
  refine ⟨⟨List.nodup_range.map hunits, by split <;> simp, ?_⟩,
    List.nodup_range.map hcoordinates, ?_⟩
  · rintro binding hunit _ hother rfl
    obtain ⟨unit, -, rfl⟩ := List.mem_map.mp hunit
    cases hposition _ hother
  · rintro binding hbefore _ hcoordinate rfl
    obtain ⟨index, -, rfl⟩ := List.mem_map.mp hcoordinate
    rcases List.mem_append.mp hbefore with hunit | hother
    · obtain ⟨unit, -, hunit⟩ := List.mem_map.mp hunit
      cases hunit
    · cases hposition _ hother

theorem getElem?_lines_uniform (config : Config) (shader : Shader) {index : Nat}
    {uniform : Declaration} (h : shader.uniforms[index]? = some uniform) :
    (lines config shader)[shader.attributes.length + index]? =
      some (uniformLine (samplersBefore shader.uniforms index) uniform) := by
  have hindex : index < shader.uniforms.length := (List.getElem?_eq_some_iff.mp h).1
  rw [lines_eq, List.append_assoc, List.append_assoc, List.getElem?_append_right (by simp),
    List.length_map, Nat.add_sub_cancel_left, List.getElem?_append_left (by simpa using hindex),
    List.getElem?_mapIdx, h, Option.map_some]

theorem uniformLine_of_sampler (unit : Nat) {uniform : Declaration}
    (h : uniform.type = "sampler2D".toList) : uniformLine unit uniform =
      declared "uniform ".toList uniform ++ " : TEXUNIT".toList ++ Text.ofNat unit := by
  rw [uniformLine, if_pos h, List.append_assoc]

theorem uniformLine_of_not_sampler (unit : Nat) {uniform : Declaration}
    (h : uniform.type ≠ "sampler2D".toList) :
    uniformLine unit uniform = declared "uniform ".toList uniform := by
  rw [uniformLine, if_neg h, List.append_nil]

theorem declared_ne_bound (unit : Nat) (s : Text) :
    s ≠ s ++ " : TEXUNIT".toList ++ Text.ofNat unit := by
  rw [List.append_assoc]
  intro h
  cases List.self_eq_append_right.mp h

theorem uniformLine_eq_bound_iff (unit : Nat) (uniform : Declaration) :
    uniformLine unit uniform =
        declared "uniform ".toList uniform ++ " : TEXUNIT".toList ++ Text.ofNat unit ↔
      uniform.type = "sampler2D".toList := by
  refine ⟨fun h => ?_, uniformLine_of_sampler unit⟩
  by_contra hsampler
  rw [uniformLine_of_not_sampler unit hsampler] at h
  exact declared_ne_bound unit _ h

theorem uniformLine_eq_declared_iff (unit : Nat) (uniform : Declaration) :
    uniformLine unit uniform = declared "uniform ".toList uniform ↔
      uniform.type ≠ "sampler2D".toList := by
  refine ⟨fun h hsampler => ?_, uniformLine_of_not_sampler unit⟩
  rw [uniformLine_of_sampler unit hsampler] at h
  exact declared_ne_bound unit _ h.symm

theorem suffix_uniformLine_iff (unit : Nat) (uniform : Declaration) :
    " : TEXUNIT".toList ++ Text.ofNat unit <:+ uniformLine unit uniform ↔
      uniform.type = "sampler2D".toList ∨
        " : TEXUNIT".toList ++ Text.ofNat unit <:+ declared "uniform ".toList uniform := by
  by_cases hsampler : uniform.type = "sampler2D".toList
  · rw [uniformLine_of_sampler unit hsampler, List.append_assoc]
    exact iff_of_true (List.suffix_append _ _) (.inl hsampler)
  · rw [uniformLine_of_not_sampler unit hsampler]
    exact (or_iff_right hsampler).symm

def varyingLines (config : Config) (shader : Shader) : List Text :=
  (lines config shader).rtake shader.varyings.length

theorem varyingLines_eq (config : Config) (shader : Shader) :
    varyingLines config shader = shader.varyings.mapIdx (varyingLine shader.stage) := by
  rw [varyingLines, List.rtake, lines_eq]
  apply List.drop_left'
  simp only [List.length_append, List.length_mapIdx, Nat.add_sub_cancel]

/-- What is written of a varying behind the word that says how it is passed. -/
def varyingTail (index : Nat) (varying : Declaration) : Text :=
  varying.type ++ ' ' :: varying.name ++ " : TEXCOORD".toList ++ Text.ofNat index

theorem varyingLines_eq_map (config : Config) (shader : Shader) :
    varyingLines config shader =
      (shader.varyings.mapIdx varyingTail).map (('\t' :: direction shader.stage) ++ ·) := by
  rw [varyingLines_eq, map_mapIdx]
  congr 1
  funext index varying
  simp only [varyingLine, declared, varyingTail, List.append_assoc, List.cons_append]

/-- The lines are one for each attribute, each uniform, the position of a vertex and each varying.
Behind the declaration of a uniform stands a texture unit exactly if it is a sampler; any other line
ends like one only if its type and name spell it. The numbers of units and coordinates run from zero
without gaps, and no two parameters have the same binding. The lines of the same varyings differ
between the stages only in the direction, whatever else the two shaders declare. -/
theorem bindings_dense_and_shared (config : Config) (shader : Shader) :
    lines config shader =
      shader.attributes.map (declared []) ++
      shader.uniforms.mapIdx (fun index =>
        uniformLine (samplersBefore shader.uniforms index)) ++
      (if shader.stage = .vertex then [positionLine config] else []) ++
      shader.varyings.mapIdx (varyingLine shader.stage) ∧
    (∀ index uniform, shader.uniforms[index]? = some uniform → ∃ line,
      (lines config shader)[shader.attributes.length + index]? = some line ∧
      (line = declared "uniform ".toList uniform ++ " : TEXUNIT".toList ++
          Text.ofNat (samplersBefore shader.uniforms index) ↔
        uniform.type = "sampler2D".toList) ∧
      (line = declared "uniform ".toList uniform ↔ uniform.type ≠ "sampler2D".toList) ∧
      (" : TEXUNIT".toList ++ Text.ofNat (samplersBefore shader.uniforms index) <:+ line ↔
        uniform.type = "sampler2D".toList ∨
          " : TEXUNIT".toList ++ Text.ofNat (samplersBefore shader.uniforms index) <:+
            declared "uniform ".toList uniform)) ∧
    (ofShader config shader).filterMap (·.binding) =
      (List.range (shader.uniforms.countP (·.isSampler))).map .textureUnit ++
      (if shader.stage = .vertex then [.position] else []) ++
      (List.range shader.varyings.length).map .textureCoordinate ∧
    (((ofShader config shader).filterMap (·.binding)).map Binding.render).Nodup ∧
    ∀ (config' : Config) (fragment : Shader), shader.stage = .vertex →
      fragment.stage = .fragment → fragment.varyings = shader.varyings →
      ∃ tails : List Text, tails.length = shader.varyings.length ∧
        varyingLines config shader = tails.map ("\tout ".toList ++ ·) ∧
        varyingLines config' fragment = tails.map ("\tin ".toList ++ ·) := by
  refine ⟨lines_eq config shader, ?_, bindings_ofShader config shader,
    nodup_bindings config shader, ?_⟩
  · intro index uniform h
    exact ⟨_, getElem?_lines_uniform config shader h, uniformLine_eq_bound_iff _ uniform,
      uniformLine_eq_declared_iff _ uniform, suffix_uniformLine_iff _ uniform⟩
  · intro config' fragment hvertex hfragment hvaryings
    refine ⟨shader.varyings.mapIdx varyingTail, List.length_mapIdx, ?_, ?_⟩
    · rw [varyingLines_eq_map, hvertex]
      rfl
    · rw [varyingLines_eq_map, hfragment, hvaryings]
      rfl

theorem bindings_dense_and_shared_mixed :
    let vertex : Shader := {
      stage := .vertex
      attributes := [⟨"float4".toList, "p".toList⟩]
      uniforms := [⟨"float4x4".toList, "m".toList⟩, ⟨"sampler2D".toList, "s".toList⟩,
        ⟨"float".toList, "sampler2D".toList⟩, ⟨"sampler2D".toList, "t".toList⟩]
      varyings := [⟨"float2".toList, "uv".toList⟩, ⟨"sampler2D".toList, "v".toList⟩]
      functions := [] }
    let fragment : Shader := { vertex with stage := .fragment, attributes := [], uniforms := [] }
    lines .default vertex = ["\tfloat4 p".toList, "\tuniform float4x4 m".toList,
      "\tuniform sampler2D s : TEXUNIT0".toList, "\tuniform float sampler2D".toList,
      "\tuniform sampler2D t : TEXUNIT1".toList, "\tout float4 v_position : POSITION".toList,
      "\tout float2 uv : TEXCOORD0".toList, "\tout sampler2D v : TEXCOORD1".toList] ∧
    (lines .default vertex)[1 + 3]? = some (declared "uniform ".toList
      ⟨"sampler2D".toList, "t".toList⟩ ++ " : TEXUNIT".toList ++ Text.ofNat 1) ∧
    ∃ tails : List Text, tails.length = 2 ∧
      varyingLines .default vertex = tails.map ("\tout ".toList ++ ·) ∧
      varyingLines .default fragment = tails.map ("\tin ".toList ++ ·) := by
  intro vertex fragment
  obtain ⟨-, huniform, -, -, hshared⟩ := bindings_dense_and_shared .default vertex
  obtain ⟨line, hline, hbound, -⟩ := huniform 3 ⟨"sampler2D".toList, "t".toList⟩ rfl
  rw [hbound.mpr rfl] at hline
  exact ⟨by decide +kernel, hline, hshared .default fragment rfl rfl rfl⟩

/-- A uniform that is no sampler, with a type and a name that end its line like a binding. -/
theorem declaration_spells_binding :
    let uniform : Declaration := ⟨":".toList, "TEXUNIT0".toList⟩
    let shader : Shader := ⟨.fragment, [], [uniform], [], [⟨"main".toList, "void".toList, [], []⟩]⟩
    Shader.ofSource .default .fragment "uniform : TEXUNIT0; void main()\x7b\x7d".toList =
        .ok shader ∧
      lines .default shader = ["\tuniform : TEXUNIT0".toList] ∧
      samplersBefore shader.uniforms 0 = 0 ∧
      " : TEXUNIT".toList ++ Text.ofNat 0 <:+ "\tuniform : TEXUNIT0".toList ∧
      uniform.type ≠ "sampler2D".toList := by
  intro uniform shader
  exact ⟨by decide +kernel, by decide +kernel, by decide, ⟨"\tuniform".toList, by decide⟩,
    by decide⟩

end CgShader.Proofs.ParameterBindings
