import CgShader.Program.Body
import CgShader.Program.Parameter
import CgShader.Shader.Item
import CgShader.Source.Prepared

namespace CgShader

structure Program where
  stage : Stage
  /-- The functions that the entry point can call, with their bodies formatted. -/
  helpers : List Function
  parameters : List Parameter
  /-- The formatted body of the entry point. -/
  body : Text
deriving DecidableEq

/-- Why names cannot be looked for all at once, or nothing if they can be. What the check is depends
on what looks for them. -/
abbrev NameCheck := List Text → Option Text

/-- The check that all names pass. -/
def NameCheck.trivial : NameCheck := fun _ => none

namespace Shader

/-- The matrices whose products are turned round: the configured one, and on request every matrix
uniform. -/
def matrixNames (config : Config) (shader : Shader) : List Text :=
  let configured := if config.transform.isEmpty then [] else [config.transform]
  let declared :=
    if config.allMatrices then (shader.uniforms.filter (·.isMatrix)).map (·.name) else []
  (configured ++ declared).eraseDups

/-- The program that a shader becomes. If there are matrices to look for, they have to pass the
check. -/
def toProgram (check : NameCheck) (config : Config) (shader : Shader) :
    Except ShaderError Program := do
  let entry ← shader.entry
  let matrices := shader.matrixNames config
  unless matrices.isEmpty do
    if let some reason := check matrices then
      throw (.matrixNamesTooLong matrices reason)
  return {
    stage := shader.stage
    helpers := shader.helpers.map fun helper =>
      { helper with body := Body.format shader.stage matrices helper.body }
    parameters := Parameter.ofShader config shader
    body := Body.format shader.stage matrices entry.body }

end Shader

namespace Program

/-- A body between the braces of its function, on lines of their own. -/
def renderBlock (body : Text) : Text := "\x7b\n".toList ++ body ++ "\n\x7d\n".toList

def renderHelper (helper : Function) : Text :=
  helper.returnType ++ ' ' :: helper.name ++ " (".toList ++ helper.parameters ++ ")\n".toList ++
    renderBlock helper.body ++ ['\n']

def entryType : Stage → Text
  | .vertex => "void".toList
  | .fragment => "float4".toList

/-- The parameters, one a line; nothing if there are none. -/
def renderParameters (parameters : List Parameter) : Text :=
  if parameters.isEmpty then []
  else (",\n".toList).intercalate (parameters.map Parameter.render) ++ ['\n']

def banner (stage : Stage) : Text :=
  "// Auto-generated from GLSL ".toList ++ stage.name ++ " shader\n".toList

def render (program : Program) : Text :=
  banner program.stage ++ program.helpers.flatMap renderHelper ++
    entryType program.stage ++ " main(\n".toList ++ renderParameters program.parameters ++
    "\t)\n".toList ++ renderBlock program.body

end Program

namespace Shader

def ofSource (config : Config) (stage : Stage) (source : Text) : Except ShaderError Shader :=
  read stage (Source.prepare config source)

def generate (check : NameCheck) (config : Config) (shader : Shader) : Except ShaderError Text :=
  (shader.toProgram check config).map Program.render

end Shader

def compile (check : NameCheck) (config : Config) (stage : Stage) (source : Text) :
    Except ShaderError Text := do
  (← Shader.ofSource config stage source).generate check config

end CgShader
