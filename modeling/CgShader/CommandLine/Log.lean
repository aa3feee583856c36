import CgShader.Conversion

namespace CgShader

inductive Verbosity where
  | off
  | error
  | warn
  | info
  | debug
  | trace
deriving DecidableEq

namespace Verbosity

def rank : Verbosity → Nat
  | off => 0
  | error => 1
  | warn => 2
  | info => 3
  | debug => 4
  | trace => 5

def ofName? (name : Text) : Option Verbosity :=
  [("off", off), ("error", error), ("warn", warn), ("info", info), ("debug", debug),
    ("trace", trace)].lookup (String.ofList name)

end Verbosity

namespace Log

/-- The level of an event: a log of lower verbosity leaves it out. -/
def level : Event → Verbosity
  | .failed _ => .error
  | .prepared .. | .understood _ => .debug
  | _ => .info

/-- The name of an event's level and of the part of the program that reports it. -/
def heading : Event → Text
  | .failed _ => "ERROR glsl2cg: ".toList
  | .prepared .. | .understood _ => "DEBUG glsl2cg::processor: ".toList
  | _ => "INFO glsl2cg: ".toList

def count {α : Type} (name : String) (values : List α) : Text :=
  ' ' :: name.toList ++ '=' :: Text.ofNat values.length

def message : Event → Text
  | .loading source => "Loading file: ".toList ++ source.text
  | .prepared _ text => "massaged source: ".toList ++ text
  | .understood _ => "parsed shader model".toList
  | .written stage output =>
    "Translated ".toList ++ stage.name ++ " shader to file: ".toList ++ output.text
  | .failed error => error.message
  | .finished converted total =>
    "Translated ".toList ++ Text.ofNat converted ++ " of ".toList ++ Text.ofNat total ++
      " files".toList

def fields : Event → Text
  | .prepared stage _ => " stage=".toList ++ stage.name
  | .understood shader =>
    count "attributes" shader.attributes ++ count "uniforms" shader.uniforms ++
      count "varyings" shader.varyings ++ count "functions" shader.functions
  | _ => []

/-- A character as a log shows it. Those that a terminal may take for commands are written by their
code point. -/
def shownChar (c : Char) : Text :=
  if c.toNat = 7 ∨ c.toNat = 8 ∨ c.toNat = 12 ∨ c.toNat = 27 ∨ c.toNat = 127 then
    "\\x".toList ++ (if c.toNat < 16 then ['0'] else []) ++ Nat.toDigits 16 c.toNat
  else if 0x80 ≤ c.toNat ∧ c.toNat ≤ 0x9F then
    "\\u\x7b".toList ++ Nat.toDigits 16 c.toNat ++ "\x7d".toList
  else [c]

def render (event : Event) : Text :=
  heading event ++ (message event).flatMap shownChar ++ fields event

def lines (verbosity : Verbosity) (events : List Event) : List Text :=
  (events.filter fun event => (level event).rank ≤ verbosity.rank).flatMap fun event =>
    Text.lines (render event)

end Log

end CgShader
