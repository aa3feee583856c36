import CgShader.Config.Basic
import CgShader.Shader.Basic

namespace CgShader

inductive Binding where
  | textureUnit (index : Nat)
  | position
  | textureCoordinate (index : Nat)
deriving DecidableEq

namespace Binding

def render : Binding → Text
  | textureUnit index => "TEXUNIT".toList ++ Text.ofNat index
  | position => "POSITION".toList
  | textureCoordinate index => "TEXCOORD".toList ++ Text.ofNat index

end Binding

inductive Passing where
  | plain
  | uniform
  | input
  | output
deriving DecidableEq

namespace Passing

def render : Passing → Text
  | plain => []
  | uniform => "uniform ".toList
  | input => "in ".toList
  | output => "out ".toList

/-- How a stage passes its varyings. -/
def ofVarying : Stage → Passing
  | .vertex => output
  | .fragment => input

end Passing

structure Parameter where
  passing : Passing
  type : Text
  name : Text
  binding : Option Binding
deriving DecidableEq

namespace Parameter

def render (parameter : Parameter) : Text :=
  '\t' :: (parameter.passing.render ++ parameter.type ++ ' ' :: parameter.name ++
    match parameter.binding with
    | some binding => " : ".toList ++ binding.render
    | none => [])

def ofAttribute (declaration : Declaration) : Parameter :=
  ⟨.plain, declaration.type, declaration.name, none⟩

/-- The uniforms, of which the first sampler is bound to the texture unit `unit`. -/
def ofUniforms (unit : Nat) : List Declaration → List Parameter
  | [] => []
  | declaration :: rest =>
    if declaration.isSampler then
      ⟨.uniform, declaration.type, declaration.name, some (.textureUnit unit)⟩ ::
        ofUniforms (unit + 1) rest
    else ⟨.uniform, declaration.type, declaration.name, none⟩ :: ofUniforms unit rest

/-- The varyings, of which the first is bound to the texture coordinate `index`. -/
def ofVaryings (passing : Passing) (index : Nat) : List Declaration → List Parameter
  | [] => []
  | declaration :: rest =>
    ⟨passing, declaration.type, declaration.name, some (.textureCoordinate index)⟩ ::
      ofVaryings passing (index + 1) rest

def ofPosition (stage : Stage) (name : Text) : List Parameter :=
  match stage with
  | .vertex => [⟨.output, "float4".toList, name, some .position⟩]
  | .fragment => []

def ofShader (config : Config) (shader : Shader) : List Parameter :=
  shader.attributes.map ofAttribute ++ ofUniforms 0 shader.uniforms ++
    ofPosition shader.stage config.positionOutput ++
    ofVaryings (.ofVarying shader.stage) 0 shader.varyings

end Parameter

end CgShader
