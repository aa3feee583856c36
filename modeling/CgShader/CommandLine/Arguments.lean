import CgShader.Path
import CgShader.Text.Terminal

/-!
The arguments of the command. Options may stand before, between and after the inputs; a value is
the next argument, or is attached to its option. A value is accepted only once the argument after it
is known to be another option, an input or the end.
-/

namespace CgShader.CommandLine

inductive Valued where
  | directory
  | config
  | transform
deriving DecidableEq

namespace Valued

def long : Valued → Text
  | directory => "out-dir".toList
  | config => "config".toList
  | transform => "mvp".toList

def short? : Valued → Option Char
  | directory => some 'o'
  | config => some 'c'
  | transform => none

def shown : Valued → Text
  | directory => "--out-dir <OUT_DIR>".toList
  | config => "--config <CONFIG>".toList
  | transform => "--mvp <MVP>".toList

/-- Whether the value is a path, which is never empty. -/
def isPath : Valued → Bool
  | transform => false
  | _ => true

def all : List Valued := [directory, config, transform]

end Valued

inductive Flag where
  | allMatrices
  | help
  | version
deriving DecidableEq

namespace Flag

def long : Flag → Text
  | allMatrices => "all-matrix-uniforms".toList
  | help => "help".toList
  | version => "version".toList

def short? : Flag → Option Char
  | allMatrices => none
  | help => some 'h'
  | version => some 'V'

def shown (flag : Flag) : Text := "--".toList ++ flag.long

def all : List Flag := [allMatrices, help, version]

end Flag

def shownInputs : Text := "<INPUTS>...".toList

inductive UsageError where
  | noInputs
  | unexpected (argument : Text)
  | noValue (option : Text)
  | repeated (option : Text)
  | needlessValue (value option : Text)
deriving DecidableEq

namespace UsageError

/-- The error in words. What the user has written is shown without commands to a terminal. -/
def message : UsageError → Text
  | noInputs => "error: the following required arguments were not provided:".toList
  | unexpected argument =>
    "error: unexpected argument '".toList ++ Text.withoutCommands argument ++ "' found".toList
  | noValue option =>
    "error: a value is required for '".toList ++ option ++ "' but none was supplied".toList
  | repeated option =>
    "error: the argument '".toList ++ option ++ "' cannot be used multiple times".toList
  | needlessValue value option =>
    "error: unexpected value '".toList ++ Text.withoutCommands value ++ "' for '".toList ++
      option ++ "' found; no more were expected".toList

end UsageError

/-- Why arguments are not read to their end. -/
inductive Stop where
  | help
  | version
  | refused (error : UsageError)
deriving DecidableEq

/-- An argument that has been read and not yet been accepted. -/
inductive Pending where
  | nothing
  | option (option : Valued)
  | value (option : Valued) (value : Text)
  | inputs (inputs : List Text)
deriving DecidableEq

structure Options where
  directory : Option Text
  config : Option Text
  transform : Option Text
  allMatrices : Bool
  inputs : List Text
deriving DecidableEq

namespace Options

def initial : Options := ⟨none, none, none, false, []⟩

def get? (options : Options) : Valued → Option Text
  | .directory => options.directory
  | .config => options.config
  | .transform => options.transform

def set (options : Options) (option : Valued) (value : Text) : Options :=
  match option with
  | .directory => { options with directory := some value }
  | .config => { options with config := some value }
  | .transform => { options with transform := some value }

/-- Accepts an option's value: the option's first, and not an empty path. -/
def accept (options : Options) (option : Valued) (value : Text) : Except Stop Options :=
  if (options.get? option).isSome then .error (.refused (.repeated option.shown))
  else if option.isPath && value.isEmpty then .error (.refused (.noValue option.shown))
  else .ok (options.set option value)

def settle (options : Options) : Pending → Except Stop Options
  | .nothing => .ok options
  | .option option => .error (.refused (.noValue option.shown))
  | .value option value => options.accept option value
  | .inputs inputs =>
    if inputs.any List.isEmpty then .error (.refused (.noValue shownInputs))
    else .ok { options with inputs := options.inputs ++ inputs }

end Options

/-- The options accepted so far, and what is pending after them. -/
abbrev Progress := Options × Pending

def readFlag (flag : Flag) : Progress → Except Stop Progress
  | (options, pending) => do
    let options ← options.settle pending
    match flag with
    | .help => throw .help
    | .version => throw .version
    | .allMatrices =>
      if options.allMatrices then throw (.refused (.repeated flag.shown))
      else return ({ options with allMatrices := true }, .nothing)

/-- Reads an option and the value attached to it, if there is one. -/
def readValued (option : Valued) (attached : Option Text) : Progress → Except Stop Progress
  | (options, pending) => do
    let options ← options.settle pending
    match attached with
    | none => return (options, .option option)
    | some value => return (← options.accept option value, .nothing)

def readInput (input : Text) : Progress → Except Stop Progress
  | (options, .inputs inputs) => .ok (options, .inputs (inputs ++ [input]))
  | (options, pending) => do return (← options.settle pending, .inputs [input])

/-- Reads an argument that is not an option: the value of an option that waits for one, or an
input. -/
def readWord (word : Text) : Progress → Except Stop Progress
  | (options, .option option) => .ok (options, .value option word)
  | progress => readInput word progress

/-- Reads an option in its long form, without the dashes. -/
def readLong (argument : Text) (progress : Progress) : Except Stop Progress :=
  let name := argument.takeWhile (· != '=')
  let attached :=
    match argument.dropWhile (· != '=') with
    | [] => none
    | _ :: value => some value
  match Valued.all.find? (·.long == name), Flag.all.find? (·.long == name), attached with
  | some option, _, attached => readValued option attached progress
  | none, some flag, none => readFlag flag progress
  | none, some flag, some value => .error (.refused (.needlessValue value flag.shown))
  | none, none, _ => .error (.refused (.unexpected ("--".toList ++ name)))

/-- Reads options in their short forms, without the dash. What follows an option that takes a value
is its value, after an equals sign or at once. -/
def readShort : Text → Progress → Except Stop Progress
  | [], progress => .ok progress
  | c :: rest, progress =>
    match Valued.all.find? (·.short? == some c), Flag.all.find? (·.short? == some c) with
    | some option, _ =>
      let attached :=
        match rest with
        | [] => none
        | '=' :: value => some value
        | value => some value
      readValued option attached progress
    | none, some flag => do readShort rest (← readFlag flag progress)
    | none, none => .error (.refused (.unexpected ['-', c]))

/-- Reads arguments in order. After two dashes all are inputs. -/
def readAll : List Text → Progress → Except Stop Progress
  | [], progress => .ok progress
  | argument :: rest, progress =>
    match argument with
    | ['-', '-'] => rest.foldlM (fun progress input => readInput input progress) progress
    | '-' :: '-' :: long => do readAll rest (← readLong long progress)
    | '-' :: c :: short => do readAll rest (← readShort (c :: short) progress)
    | word => do readAll rest (← readWord word progress)

def parse (arguments : List Text) : Except Stop Options := do
  let (options, pending) ← readAll arguments (.initial, .nothing)
  let options ← options.settle pending
  if options.inputs.isEmpty then throw (.refused .noInputs)
  return options

end CgShader.CommandLine
