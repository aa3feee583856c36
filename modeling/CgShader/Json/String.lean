import CgShader.Json.Fault

namespace CgShader.Json

def hexDigit? (c : Char) : Option Nat :=
  if c.isDigit then some (c.toNat - '0'.toNat)
  else if 'a' ≤ c ∧ c ≤ 'f' then some (c.toNat - 'a'.toNat + 10)
  else if 'A' ≤ c ∧ c ≤ 'F' then some (c.toNat - 'A'.toNat + 10)
  else none

/-- Reads four hexadecimal digits. A text with fewer than four bytes ends too early. -/
def codeUnit (s : Text) : Reading Nat :=
  match s with
  | a :: b :: c :: d :: rest =>
    match [a, b, c, d].mapM hexDigit? with
    | some ds => .ok (ds.foldl (fun value digit => 16 * value + digit) 0, rest)
    | none => .error ⟨.badEscape, rest⟩
  | s => .error ⟨if Text.size s < 4 then .endInString else .badEscape, []⟩

def isHighSurrogate (unit : Nat) : Bool := 0xD800 ≤ unit && unit ≤ 0xDBFF

def isLowSurrogate (unit : Nat) : Bool := 0xDC00 ≤ unit && unit ≤ 0xDFFF

/-- Reads the second half of a character that two escapes stand for. -/
def lowSurrogate (high : Nat) (s : Text) : Reading Char :=
  match s with
  | [] | ['\\'] => .error ⟨.endInString, []⟩
  | '\\' :: 'u' :: rest =>
    match codeUnit rest with
    | .error fault => .error fault
    | .ok (low, after) =>
      if isLowSurrogate low then
        .ok (Char.ofNat (0x10000 + (high - 0xD800) * 0x400 + (low - 0xDC00)), after)
      else .error ⟨.loneSurrogate, after⟩
  | '\\' :: _ :: rest => .error ⟨.brokenSurrogatePair, rest⟩
  | _ :: rest => .error ⟨.brokenSurrogatePair, rest⟩

/-- Reads an escaped code point after its `u`. Where a string is not `checked`, its characters do
not matter and a surrogate needs no partner. -/
def codePoint (checked : Bool) (s : Text) : Reading Char :=
  match codeUnit s with
  | .error fault => .error fault
  | .ok (unit, rest) =>
    if checked && isLowSurrogate unit then .error ⟨.loneSurrogate, rest⟩
    else if checked && isHighSurrogate unit then lowSurrogate unit rest
    else .ok (Char.ofNat unit, rest)

def escaped (checked : Bool) (s : Text) : Reading Char :=
  match s with
  | [] => .error ⟨.endInString, []⟩
  | '"' :: rest => .ok ('"', rest)
  | '\\' :: rest => .ok ('\\', rest)
  | '/' :: rest => .ok ('/', rest)
  | 'b' :: rest => .ok ('\x08', rest)
  | 'f' :: rest => .ok ('\x0c', rest)
  | 'n' :: rest => .ok ('\n', rest)
  | 'r' :: rest => .ok ('\r', rest)
  | 't' :: rest => .ok ('\t', rest)
  | 'u' :: rest => codePoint checked rest
  | _ :: rest => .error ⟨.badEscape, rest⟩

/-- Reads one character of a string, or its closing quote. -/
def character (checked : Bool) (s : Text) : Reading (Option Char) :=
  match s with
  | [] => .error ⟨.endInString, []⟩
  | '"' :: rest => .ok (none, rest)
  | '\\' :: rest => Reading.map some (escaped checked rest)
  | c :: rest => if c.toNat < 0x20 then .error ⟨.controlCharacter, rest⟩ else .ok (some c, rest)

theorem length_codeUnit_le {s rest : Text} {unit : Nat} (h : codeUnit s = .ok (unit, rest)) :
    rest.length ≤ s.length := by
  unfold codeUnit at h
  split at h
  · split at h
    · cases h
      simp only [List.length_cons]
      omega
    · cases h
  · cases h

theorem length_lowSurrogate_le {high : Nat} {s rest : Text} {c : Char}
    (h : lowSurrogate high s = .ok (c, rest)) : rest.length ≤ s.length := by
  unfold lowSurrogate at h
  repeat' split at h
  all_goals simp only [Except.ok.injEq, Prod.mk.injEq, reduceCtorEq] at h
  rename_i hunit _
  have := length_codeUnit_le hunit
  rw [← h.2, List.length_cons, List.length_cons]
  omega

theorem length_codePoint_le {checked : Bool} {s rest : Text} {c : Char}
    (h : codePoint checked s = .ok (c, rest)) : rest.length ≤ s.length := by
  unfold codePoint at h
  split at h
  · cases h
  · rename_i unit after hunit
    have hle := length_codeUnit_le hunit
    repeat' split at h
    · cases h
    · exact Nat.le_trans (length_lowSurrogate_le h) hle
    · cases h
      exact hle

theorem length_escaped_le {checked : Bool} {s rest : Text} {c : Char}
    (h : escaped checked s = .ok (c, rest)) : rest.length ≤ s.length := by
  unfold escaped at h
  split at h
  case h_10 => exact Nat.le_succ_of_le (length_codePoint_le h)
  all_goals cases h
  all_goals simp

theorem length_character_lt {checked : Bool} {s rest : Text} {c : Option Char}
    (h : character checked s = .ok (c, rest)) : rest.length < s.length := by
  unfold character at h
  split at h
  · cases h
  · cases h
    simp
  · rename_i after
    obtain ⟨d, hescaped⟩ := Reading.of_map_eq_ok h
    exact Nat.lt_succ_of_le (length_escaped_le hescaped)
  · split at h
    · cases h
    · cases h
      simp

def string (checked : Bool) (s : Text) : Reading Text :=
  match _hread : character checked s with
  | .error fault => .error fault
  | .ok (none, rest) => .ok ([], rest)
  | .ok (some c, rest) => Reading.map (c :: ·) (string checked rest)
termination_by s.length
decreasing_by exact length_character_lt _hread

theorem length_string_lt {checked : Bool} {s rest : Text} {cs : Text}
    (h : string checked s = .ok (cs, rest)) : rest.length < s.length := by
  fun_induction string checked s generalizing cs with
  | case1 => cases h
  | case2 s after hread =>
    cases h
    exact length_character_lt hread
  | case3 s c after hread ih =>
    obtain ⟨ds, hrest⟩ := Reading.of_map_eq_ok h
    exact Nat.lt_trans (ih hrest) (length_character_lt hread)

end CgShader.Json
