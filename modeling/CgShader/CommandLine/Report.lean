import CgShader.CommandLine.Arguments
import CgShader.CommandLine.Log

namespace CgShader.CommandLine

/-- What a run of the command shows: its exit status and the lines of its two outputs. -/
structure Report where
  status : Nat
  output : List Text
  errors : List Text

def versionLine : Text := "glsl2cg 0.1.0".toList

def helpLines : List Text :=
  ["Usage: glsl2cg [OPTIONS] <INPUTS>...",
    "",
    "Arguments:",
    "  <INPUTS>...  GLSL sources to translate (`.vp` vertex, `.fp` fragment)",
    "",
    "Options:",
    "  -o, --out-dir <OUT_DIR>    Write outputs here instead of next to each input",
    "  -c, --config <CONFIG>      JSON translator config (replacement table, matrix rewrite)",
    "      --mvp <MVP>            Uniform name treated as the model-view-projection matrix",
    "      --all-matrix-uniforms  Rewrite `m * v` into `mul( v, m )` for every matrix uniform",
    "  -h, --help                 Print help",
    "  -V, --version              Print version"].map String.toList

/-- The report of arguments that are not run. Of an error only the first line is shown. -/
def Stop.report : Stop → Report
  | .help => ⟨0, helpLines, []⟩
  | .version => ⟨0, [versionLine], []⟩
  | .refused error => ⟨2, [], (Text.lines error.message).take 1⟩

/-- The configuration that options ask for: that of a file or the default, with what they set
themselves. -/
def Options.toConfig (options : Options) (tree : FileTree) : Except ConfigError Config := do
  let config ←
    match options.config with
    | some path => Config.load tree ⟨path⟩
    | none => pure Config.default
  return { config with
    transform := options.transform.getD config.transform
    allMatrices := config.allMatrices || options.allMatrices }

/-- All paths that a run with these options may read or write. -/
def Options.paths (options : Options) : List Path :=
  let directory := options.directory.map Path.mk
  let sources := options.inputs.map Path.mk
  (options.config.map Path.mk).toList ++ sources ++ sources.filterMap fun source =>
    (Stage.ofPath? source).map fun stage => stage.outputPath source directory

def configReport (error : ConfigError) : Report :=
  ⟨1, [],
    Text.lines ("Error: ".toList ++ error.context ++ "\n\nCaused by:\n    ".toList ++ error.cause)⟩

def batchReport (verbosity : Verbosity) (total : Nat) (batch : Batch) : Report :=
  let events := batch.events ++ [.finished (total - batch.failures) total]
  let errors :=
    if batch.failures = 0 then []
    else
      ["Error: ".toList ++ Text.ofNat batch.failures ++ " of ".toList ++ Text.ofNat total ++
        " files failed to translate".toList]
  ⟨if batch.failures = 0 then 0 else 1, Log.lines verbosity events, errors⟩

def run (check : NameCheck) (verbosity : Verbosity) (arguments : List Text) (tree : FileTree) :
    Report × FileTree :=
  match parse arguments with
  | .error stop => (stop.report, tree)
  | .ok options =>
    match options.toConfig tree with
    | .error error => (configReport error, tree)
    | .ok config =>
      let sources := options.inputs.map Path.mk
      let batch := convertAll check config (options.directory.map Path.mk) tree sources
      (batchReport verbosity sources.length batch, batch.tree)

end CgShader.CommandLine
