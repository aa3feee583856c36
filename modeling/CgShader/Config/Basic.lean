import CgShader.Source.Spelling

namespace CgShader

structure Config where
  spelling : Spelling
  /-- The name of the matrix that takes a vertex to its position; none if it is empty. -/
  transform : Text
  /-- Whether products of every matrix uniform are turned round as well. -/
  allMatrices : Bool

namespace Config

/-- The output that a vertex position is written to, unless the user names another. -/
def defaultPosition : Text := "v_position".toList

/-- The spellings of the types, qualifiers, functions and outputs that the two languages name
differently. -/
def defaultSpelling : Spelling where
  entries :=
    [("vec2", "float2"), ("vec3", "float3"), ("vec4", "float4"),
      ("mat2", "float2x2"), ("mat3", "float3x3"), ("mat4", "float4x4"),
      ("lowp", ""), ("mediump", ""), ("highp", ""),
      ("mix", "lerp"), ("fract", "frac"), ("inversesqrt", "rsqrt"), ("texture2D", "tex2D"),
      ("gl_Position", "v_position"), ("gl_PointSize", "float psize")].map
        fun entry => (entry.1.toList, entry.2.toList)
  distinct := by decide +kernel

def default : Config := ⟨defaultSpelling, "u_mvp".toList, false⟩

def agrees (config other : Config) : Bool :=
  config.spelling.agrees other.spelling && config.transform == other.transform &&
    config.allMatrices == other.allMatrices

/-- The output that a vertex position is written to: the spelling of the built-in position without
white space around it, or the default where there is none or it is blank. -/
def positionOutput (config : Config) : Text :=
  match config.spelling.get? Source.positionName with
  | some name => if (Text.trim name).isEmpty then defaultPosition else Text.trim name
  | none => defaultPosition

end Config

end CgShader
