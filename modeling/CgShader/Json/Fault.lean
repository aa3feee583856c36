import CgShader.Text.Quoted

namespace CgShader.Json

/-- What can be wrong with a JSON text: it ends too early, it is not JSON, or it holds a value that
does not belong where it stands. -/
inductive Cause where
  | endInList
  | endInObject
  | endInString
  | endInValue
  | noColon
  | noListEnd
  | noObjectEnd
  | wrongWord
  | noValue
  | badEscape
  | badNumber
  | numberTooLarge
  | controlCharacter
  | keyNotString
  | loneSurrogate
  | brokenSurrogatePair
  | trailingComma
  | trailingText
  /-- A value of another type than the one expected. -/
  | wrongType (found expected : Text)
  /-- A field that has been given before. -/
  | repeatedField (name : Text)
deriving DecidableEq

namespace Cause

def message : Cause → Text
  | endInList => "EOF while parsing a list".toList
  | endInObject => "EOF while parsing an object".toList
  | endInString => "EOF while parsing a string".toList
  | endInValue => "EOF while parsing a value".toList
  | noColon => "expected `:`".toList
  | noListEnd => "expected `,` or `]`".toList
  | noObjectEnd => "expected `,` or `\x7d`".toList
  | wrongWord => "expected ident".toList
  | noValue => "expected value".toList
  | badEscape => "invalid escape".toList
  | badNumber => "invalid number".toList
  | numberTooLarge => "number out of range".toList
  | controlCharacter =>
    "control character (\\u0000-\\u001F) found while parsing a string".toList
  | keyNotString => "key must be a string".toList
  | loneSurrogate => "lone leading surrogate in hex escape".toList
  | brokenSurrogatePair => "unexpected end of hex escape".toList
  | trailingComma => "trailing comma".toList
  | trailingText => "trailing characters".toList
  | wrongType found expected =>
    "invalid type: ".toList ++ found ++ ", expected ".toList ++ expected
  | repeatedField name => "duplicate field `".toList ++ name ++ "`".toList

end Cause

/-- A cause and the text that had not been read when it was found. -/
structure Fault where
  cause : Cause
  rest : Text

namespace Fault

/-- The fault in words, with the line and the byte of the line at which `text` shows it. -/
def message (fault : Fault) (text : Text) : Text :=
  let read := text.take (text.length - fault.rest.length)
  let line := (read.reverse.takeWhile (· != '\n')).reverse
  fault.cause.message ++ " at line ".toList ++ Text.ofNat (read.count '\n' + 1) ++
    " column ".toList ++ Text.ofNat (Text.size line)

end Fault

/-- What reading a value off the front of a text gives: the value and the rest of the text. -/
abbrev Reading (α : Type) := Except Fault (α × Text)

namespace Reading

def map {α β : Type} (f : α → β) (reading : Reading α) : Reading β :=
  match reading with
  | .error fault => .error fault
  | .ok (value, rest) => .ok (f value, rest)

def skipped {α : Type} (reading : Reading α) : Except Fault Text :=
  match reading with
  | .error fault => .error fault
  | .ok (_, rest) => .ok rest

theorem of_map_eq_ok {α β : Type} {f : α → β} {reading : Reading α} {value : β} {rest : Text}
    (h : map f reading = .ok (value, rest)) : ∃ read, reading = .ok (read, rest) := by
  unfold map at h
  split at h
  · cases h
  · rename_i read after
    cases h
    exact ⟨read, rfl⟩

theorem of_skipped_eq_ok {α : Type} {reading : Reading α} {rest : Text}
    (h : skipped reading = .ok rest) : ∃ read, reading = .ok (read, rest) := by
  unfold skipped at h
  split at h
  · cases h
  · rename_i read after
    cases h
    exact ⟨read, rfl⟩

end Reading

/-- The text from its first character that is not JSON white space. -/
def skipWhite (s : Text) : Text :=
  s.dropWhile fun c => c == ' ' || c == '\n' || c == '\t' || c == '\r'

theorem length_skipWhite_le (s : Text) : (skipWhite s).length ≤ s.length :=
  (List.dropWhile_suffix _).length_le

theorem length_lt_of_skipWhite {s rest : Text} {c : Char} (h : skipWhite s = c :: rest) :
    rest.length < s.length := by
  have hwhite := length_skipWhite_le s
  rw [h, List.length_cons] at hwhite
  omega

/-- Reads the rest of a literal name such as `true`. -/
def word : Text → Text → Except Fault Text
  | [], s => .ok s
  | _ :: _, [] => .error ⟨.endInValue, []⟩
  | c :: expected, d :: s => if c = d then word expected s else .error ⟨.wrongWord, s⟩

theorem length_word_le {expected s rest : Text} (h : word expected s = .ok rest) :
    rest.length ≤ s.length := by
  fun_induction word expected s with
  | case1 => simp_all
  | case2 => simp at h
  | case3 expected c s ih =>
    have := ih h
    simp only [List.length_cons]
    omega
  | case4 => simp at h

end CgShader.Json
