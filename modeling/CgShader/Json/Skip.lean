import CgShader.Json.Number
import CgShader.Json.String

namespace CgShader.Json

/-- A list or an object that has been opened and not yet closed. -/
inductive Frame where
  | list
  | object
deriving DecidableEq

namespace Frame

def closer : Frame → Char
  | list => ']'
  | object => '}'

/-- The fault of a text that ends inside. -/
def atEnd : Frame → Cause
  | list => .endInList
  | object => .endInObject

/-- The fault of something other than a comma or the closing bracket after a value. -/
def unclosed : Frame → Cause
  | list => .noListEnd
  | object => .noObjectEnd

end Frame

/-- Reads through a value that is neither a list nor an object. -/
def skipScalar (s : Text) : Except Fault Text :=
  match s with
  | [] => .error ⟨.endInValue, []⟩
  | 'n' :: rest => word "ull".toList rest
  | 't' :: rest => word "rue".toList rest
  | 'f' :: rest => word "alse".toList rest
  | '"' :: rest => Reading.skipped (string false rest)
  | '-' :: rest => Reading.skipped (number .badNumber rest)
  | c :: rest =>
    if c.isDigit then Reading.skipped (number .badNumber (c :: rest)) else .error ⟨.noValue, rest⟩

def colon (s : Text) : Except Fault Text :=
  match skipWhite s with
  | [] => .error ⟨.endInObject, []⟩
  | c :: rest => if c = ':' then .ok rest else .error ⟨.noColon, rest⟩

def skipKey (s : Text) : Except Fault Text :=
  match skipWhite s with
  | [] => .error ⟨.endInObject, []⟩
  | c :: rest =>
    if c = '"' then
      match string false rest with
      | .error fault => .error fault
      | .ok (_, after) => colon after
    else .error ⟨.keyNotString, rest⟩

/-- Reads up to the next value inside a frame: through the key in an object. -/
def skipToValue (frame : Frame) (s : Text) : Except Fault Text :=
  match frame with
  | .list => .ok s
  | .object => skipKey s

theorem length_skipScalar_lt {s rest : Text} (h : skipScalar s = .ok rest) :
    rest.length < s.length := by
  unfold skipScalar at h
  split at h
  · cases h
  · exact Nat.lt_succ_of_le (length_word_le h)
  · exact Nat.lt_succ_of_le (length_word_le h)
  · exact Nat.lt_succ_of_le (length_word_le h)
  · obtain ⟨cs, hread⟩ := Reading.of_skipped_eq_ok h
    exact Nat.lt_succ_of_lt (length_string_lt hread)
  · obtain ⟨value, hread⟩ := Reading.of_skipped_eq_ok h
    exact Nat.lt_succ_of_lt (length_number_lt hread)
  · split at h
    · obtain ⟨value, hread⟩ := Reading.of_skipped_eq_ok h
      exact length_number_lt hread
    · cases h

theorem length_colon_le {s rest : Text} (h : colon s = .ok rest) : rest.length ≤ s.length := by
  unfold colon at h
  split at h
  · cases h
  · rename_i c after hs
    split at h
    · cases h
      exact Nat.le_of_lt (length_lt_of_skipWhite hs)
    · cases h

theorem length_skipKey_le {s rest : Text} (h : skipKey s = .ok rest) :
    rest.length ≤ s.length := by
  unfold skipKey at h
  split at h
  · cases h
  · rename_i c after hs
    have hlt := length_lt_of_skipWhite hs
    split at h
    · split at h
      · cases h
      · rename_i key left hread
        have hkey := length_string_lt hread
        have hcolon := length_colon_le h
        omega
    · cases h

theorem length_skipToValue_le {frame : Frame} {s rest : Text}
    (h : skipToValue frame s = .ok rest) : rest.length ≤ s.length := by
  cases frame with
  | list =>
    cases h
    exact Nat.le_refl _
  | object => exact length_skipKey_le h

/-- What the text goes on with while values are skipped. -/
inductive Expecting where
  /-- A value. -/
  | value
  /-- The first value of a list or an object, or its end. -/
  | first
  /-- What follows a value. -/
  | next
deriving DecidableEq

/-- Reads on until all frames are closed. -/
def skipFrames (expecting : Expecting) (stack : List Frame) (s : Text) : Except Fault Text :=
  match expecting, stack, _hs : skipWhite s with
  | .value, stack, '[' :: rest => skipFrames .first (.list :: stack) rest
  | .value, stack, '{' :: rest => skipFrames .first (.object :: stack) rest
  | .value, stack, s' =>
    match _hread : skipScalar s' with
    | .error fault => .error fault
    | .ok rest => skipFrames .next stack rest
  | _, [], _ => .ok s
  | _, frame :: _, [] => .error ⟨frame.atEnd, []⟩
  | .first, frame :: stack, c :: rest =>
    if c = frame.closer then skipFrames .next stack rest
    else
      match _hread : skipToValue frame (c :: rest) with
      | .error fault => .error fault
      | .ok after => skipFrames .value (frame :: stack) after
  | .next, frame :: stack, c :: rest =>
    if c = frame.closer then skipFrames .next stack rest
    else if c = ',' then
      match _hread : skipToValue frame rest with
      | .error fault => .error fault
      | .ok after => skipFrames .value (frame :: stack) after
    else .error ⟨frame.unclosed, rest⟩
termination_by 2 * s.length + (if expecting = .first then 1 else 0)
decreasing_by
  all_goals
    have hwhite := length_skipWhite_le s
    rw [_hs] at hwhite
    simp only [List.length_cons, if_true, if_false] at hwhite ⊢
  · omega
  · omega
  · have := length_skipScalar_lt _hread
    omega
  · omega
  · have := length_skipToValue_le _hread
    rw [List.length_cons] at this
    omega
  · omega
  · have := length_skipToValue_le _hread
    omega

theorem length_skipFrames_le {expecting : Expecting} {stack : List Frame} {s rest : Text}
    (h : skipFrames expecting stack s = .ok rest) : rest.length ≤ s.length := by
  fun_induction skipFrames expecting stack s with
  | case1 s stack after hs ih | case2 s stack after hs ih | case7 s frame stack after hs ih
  | case10 s frame stack after hs ih =>
    exact Nat.le_of_lt (Nat.lt_of_le_of_lt (ih h) (length_lt_of_skipWhite hs))
  | case3 | case6 | case8 | case11 | case13 => cases h
  | case4 s stack after _ _ hread ih =>
    have hscalar := length_skipScalar_lt hread
    have hwhite := length_skipWhite_le s
    have hafter := ih h
    omega
  | case5 =>
    cases h
    exact Nat.le_refl _
  | case9 s frame stack c after hs _ left hread ih =>
    have hvalue := length_skipToValue_le hread
    have hlt := length_lt_of_skipWhite hs
    have hafter := ih h
    rw [List.length_cons] at hvalue
    omega
  | case12 s frame stack after left hread hs _ ih =>
    have hvalue := length_skipToValue_le hread
    have hlt := length_lt_of_skipWhite hs
    have hafter := ih h
    omega

def skipValue (s : Text) : Except Fault Text := skipFrames .value [] s

theorem length_skipValue_le {s rest : Text} (h : skipValue s = .ok rest) :
    rest.length ≤ s.length :=
  length_skipFrames_le h

/-- The fault of a value where another type is expected. A value that is neither a list nor an
object is read first, which may show another fault. -/
def mismatch (expected : Text) (s : Text) : Fault :=
  let named (word : Text) (found : Text) : Except Fault Text → Fault
    | .error fault => fault
    | .ok rest => ⟨.wrongType (found ++ word) expected, rest⟩
  let numeric (sign : Text) (digits : Text) : Fault :=
    match number .endInValue digits with
    | .error fault => fault
    | .ok (read, rest) =>
      if read.isTooLarge then ⟨.numberTooLarge, rest⟩
      else
        let found := sign ++ digits.take (digits.length - rest.length)
        ⟨.wrongType ("number `".toList ++ found ++ "`".toList) expected, rest⟩
  match s with
  | [] => ⟨.endInValue, []⟩
  | '[' :: _ => ⟨.wrongType "sequence".toList expected, s⟩
  | '{' :: _ => ⟨.wrongType "map".toList expected, s⟩
  | 'n' :: rest => named [] "null".toList (word "ull".toList rest)
  | 't' :: rest => named "`true`".toList "boolean ".toList (word "rue".toList rest)
  | 'f' :: rest => named "`false`".toList "boolean ".toList (word "alse".toList rest)
  | '"' :: rest =>
    match string true rest with
    | .error fault => fault
    | .ok (read, after) =>
      ⟨.wrongType ("string ".toList ++ Text.quoted read) expected, after⟩
  | '-' :: rest => numeric ['-'] rest
  | c :: rest => if c.isDigit then numeric [] (c :: rest) else ⟨.noValue, rest⟩

end CgShader.Json
