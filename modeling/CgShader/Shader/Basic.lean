import CgShader.Shader.Error
import CgShader.Stage

namespace CgShader

/-- One `attribute`, `uniform` or `varying`. -/
structure Declaration where
  type : Text
  name : Text
deriving DecidableEq

namespace Declaration

def isSampler (declaration : Declaration) : Bool := declaration.type == "sampler2D".toList

def isMatrix (declaration : Declaration) : Bool :=
  ["float2x2".toList, "float3x3".toList, "float4x4".toList].contains declaration.type

end Declaration

/-- One function definition. -/
structure Function where
  name : Text
  returnType : Text
  parameters : Text
  body : Text
deriving DecidableEq

namespace Function

def entryName : Text := "main".toList

def isEntry (function : Function) : Bool := function.name == entryName

end Function

structure Shader where
  stage : Stage
  attributes : List Declaration
  uniforms : List Declaration
  varyings : List Declaration
  functions : List Function
deriving DecidableEq

namespace Shader

/-- The first function with the name of the entry point. -/
def entry (shader : Shader) : Except ShaderError Function :=
  match shader.functions.find? Function.isEntry with
  | some function => .ok function
  | none => .error .noEntryPoint

def helpers (shader : Shader) : List Function := shader.functions.filter (!·.isEntry)

end Shader

end CgShader
