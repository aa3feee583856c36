import CgShader.Text.Basic

/-!
Texts without the commands that they give to a terminal. A command begins with the escape character;
`Terminal.next` says how far it goes. Besides commands, control characters are left out unless they
are white space.
-/

namespace CgShader.Text

/-- What a terminal reads. -/
inductive Terminal where
  /-- Text to be shown. -/
  | plain
  /-- What follows the escape character. -/
  | escape
  /-- A command that has begun with an intermediate character, up to its final character. -/
  | intermediate
  /-- A control sequence, up to its final character. -/
  | control
  /-- The head of a device control string. -/
  | device
  /-- The head of a device control string after its first parameter. -/
  | deviceParameter
  /-- The head of a device control string after its first intermediate character. -/
  | deviceIntermediate
  /-- A string of any characters, up to the terminator of strings. -/
  | string
  /-- A command to the operating system, up to the bell. -/
  | system
deriving DecidableEq

/-- Whether a control character is white space. -/
def isWhiteControl (c : Char) : Bool :=
  c == '\t' || c == '\n' || c == '\r' || c.toNat == 0x0C

/-- Whether the UTF-8 form of a character holds the byte that terminates strings. -/
def hasTerminator (c : Char) : Bool := (String.utf8EncodeChar c).contains 0x9C

namespace Terminal

/-- Whether a character is shown. Inside a control sequence and before it, white space is. -/
def shows (state : Terminal) (c : Char) : Bool :=
  match state with
  | plain => isWhiteControl c || (0x20 ≤ c.toNat && c.toNat != 0x7F)
  | escape | intermediate | control => isWhiteControl c
  | _ => false

/-- What the character after an escape character begins. -/
def opened (c : Char) : Terminal :=
  if c.toNat < 0x20 ∨ 0x7F ≤ c.toNat then escape
  else if c.toNat < 0x30 then intermediate
  else if c = '[' then control
  else if c = ']' then system
  else if c = 'P' then device
  else if c = 'X' ∨ c = '^' ∨ c = '_' then string
  else plain

/-- The state after a character in the head of a device control string. The head ends in its final
character, or where a parameter stands out of place; what follows is a string. -/
def deviceNext (state : Terminal) (c : Char) : Terminal :=
  if c.toNat < 0x20 ∨ 0x7F ≤ c.toNat then state
  else if c.toNat < 0x30 then deviceIntermediate
  else if 0x40 ≤ c.toNat then string
  else if state = deviceIntermediate then string
  else if state = deviceParameter ∧ 0x3C ≤ c.toNat then string
  else deviceParameter

def next (state : Terminal) (c : Char) : Terminal :=
  if c.toNat = 0x1B then escape
  else if c.toNat = 0x18 ∨ c.toNat = 0x1A then plain
  else
    match state with
    | plain => plain
    | escape => opened c
    | intermediate => if 0x30 ≤ c.toNat ∧ c.toNat < 0x7F then plain else intermediate
    | control => if 0x40 ≤ c.toNat ∧ c.toNat < 0x7F then plain else control
    | string => if hasTerminator c then plain else string
    | system => if c.toNat = 7 then plain else system
    | state => deviceNext state c

/-- The state after a character that is shown: one outside ASCII ends all commands. -/
def nextShown (state : Terminal) (c : Char) : Terminal := if c.toNat < 0x80 then state else plain

/-- The characters of a text that are shown. `running` tells whether the character before has been:
white space inside a command is followed by text, and the command goes on only after a character
that is not shown in text. -/
def visible (running : Bool) (state : Terminal) : Text → Text
  | [] => []
  | c :: rest =>
    if (if running then plain else state).shows c then c :: visible true (state.nextShown c) rest
    else visible false (state.next c) rest

end Terminal

def withoutCommands (s : Text) : Text := Terminal.plain.visible false s

end CgShader.Text
