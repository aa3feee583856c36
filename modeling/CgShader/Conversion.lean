import CgShader.Config.Json
import CgShader.FileTree
import CgShader.Program.Basic

namespace CgShader

inductive FileError where
  /-- The path's extension stands for no stage. -/
  | unsupported (source : Path)
  | reading (source : Path) (fault : FileFault)
  | shader (source : Path) (error : ShaderError)
  | writing (output : Path) (fault : FileFault)
deriving DecidableEq

namespace FileError

def message : FileError → Text
  | unsupported source =>
    "unsupported file extension for ".toList ++ source.text ++ ", expected .vp or .fp".toList
  | reading source fault => "Reading ".toList ++ source.text ++ ": ".toList ++ fault.message
  | shader source error => "Translating ".toList ++ source.text ++ ": ".toList ++ error.message
  | writing output fault => "Writing ".toList ++ output.text ++ ": ".toList ++ fault.message

end FileError

inductive Event where
  | loading (source : Path)
  | prepared (stage : Stage) (text : Text)
  | understood (shader : Shader)
  | written (stage : Stage) (output : Path)
  | failed (error : FileError)
  | finished (converted total : Nat)
deriving DecidableEq

structure Run (α : Type) where
  events : List Event
  tree : FileTree
  result : Except FileError α

def compileReporting (check : NameCheck) (config : Config) (stage : Stage) (source : Text) :
    List Event × Except ShaderError Text :=
  let text := Source.prepare config source
  match Shader.read stage text with
  | .error error => ([.prepared stage text], .error error)
  | .ok shader => ([.prepared stage text, .understood shader], shader.generate check config)

theorem compileReporting_snd (check : NameCheck) (config : Config) (stage : Stage)
    (source : Text) :
    (compileReporting check config stage source).2 = compile check config stage source := by
  simp only [compileReporting, compile, Shader.ofSource, bind, Except.bind]
  split <;> simp_all

def convert (check : NameCheck) (config : Config) (stage : Stage) (source output : Path)
    (tree : FileTree) : Run Unit :=
  match tree.readText source with
  | .error fault => ⟨[.loading source], tree, .error (.reading source fault)⟩
  | .ok text =>
    match compileReporting check config stage text with
    | (events, .error error) => ⟨.loading source :: events, tree, .error (.shader source error)⟩
    | (events, .ok program) =>
      match tree.emit output (.text program) with
      | (.error fault, grown) =>
        ⟨.loading source :: events, grown, .error (.writing output fault)⟩
      | (.ok (), grown) =>
        ⟨.loading source :: events ++ [.written stage output], grown, .ok ()⟩

/-- Converts one source file, and gives the path of its program: beside the source, or in
`directory`. -/
def convertFile (check : NameCheck) (config : Config) (directory : Option Path) (source : Path)
    (tree : FileTree) : Run Path :=
  match Stage.ofPath? source with
  | none => ⟨[], tree, .error (.unsupported source)⟩
  | some stage =>
    let output := stage.outputPath source directory
    let run := convert check config stage source output tree
    ⟨run.events, run.tree, run.result.map fun _ => output⟩

structure Batch where
  events : List Event
  tree : FileTree
  failures : Nat

/-- Converts source files in order. A failure does not keep the later ones from being converted. -/
def convertAll (check : NameCheck) (config : Config) (directory : Option Path) (tree : FileTree) :
    List Path → Batch
  | [] => ⟨[], tree, 0⟩
  | source :: rest =>
    let run := convertFile check config directory source tree
    let batch := convertAll check config directory run.tree rest
    match run.result with
    | .ok _ => ⟨run.events ++ batch.events, batch.tree, batch.failures⟩
    | .error error =>
      ⟨run.events ++ .failed error :: batch.events, batch.tree, batch.failures + 1⟩

inductive ConfigError where
  | reading (path : Path) (fault : FileFault)
  | parsing (path : Path) (text : Text) (fault : Json.Fault)

namespace ConfigError

def context : ConfigError → Text
  | reading path _ => "Reading config ".toList ++ path.text
  | parsing path _ _ => "Parsing config ".toList ++ path.text

def cause : ConfigError → Text
  | reading _ fault => fault.message
  | parsing _ text fault => fault.message text

end ConfigError

namespace Config

def load (tree : FileTree) (path : Path) : Except ConfigError Config :=
  match tree.readText path with
  | .error fault => .error (.reading path fault)
  | .ok text =>
    match ofJson text with
    | .error fault => .error (.parsing path text fault)
    | .ok config => .ok config

end Config

end CgShader
