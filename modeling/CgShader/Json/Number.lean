import CgShader.Json.Fault

/-!
JSON numbers. Their values matter only in so far as one may be too large for a double. A number is
read into a significand of 64 bits and a power of ten, and its double is their product, where the
significand, the power and the product are each rounded to 53 bits.
-/

namespace CgShader.Json

/-- The number of at most `bits` significant bits that is nearest to `n`. Of two, it is the one with
the even significand. -/
def roundToBits (bits n : Nat) : Nat :=
  let unit := Nat.pow 2 (n.log2 + 1 - bits)
  let quotient := n / unit
  let remainder := n % unit
  if unit < 2 * remainder ∨ (2 * remainder = unit ∧ quotient % 2 = 1) then (quotient + 1) * unit
  else quotient * unit

/-- A number without its sign: `significand * 10 ^ exponent`. -/
structure Number where
  significand : Nat
  exponent : Int

namespace Number

/-- The largest significand that is kept. -/
def maxSignificand : Nat := Nat.pow 2 64 - 1

/-- Appends digits to a significand while it does not grow too large, and gives the digits that are
left. -/
def absorb (significand : Nat) (ds : Text) : Nat × Text :=
  match ds with
  | [] => (significand, [])
  | c :: rest =>
    let longer := 10 * significand + (c.toNat - '0'.toNat)
    if longer ≤ maxSignificand then absorb longer rest else (significand, c :: rest)

/-- The number that digits before and after the point and an exponent stand for. Digits that the
significand has no room for count as zeros before the point, and not at all after it. -/
def ofDigits (whole fraction : Text) (exponent : Int) : Number :=
  let (leading, places) := absorb 0 whole
  let (significand, dropped) := absorb leading fraction
  ⟨significand, exponent + places.length - (fraction.length - dropped.length)⟩

def doubleBits : Nat := 53

/-- The exponent of the largest power of ten within the range of doubles. -/
def maxExponent : Nat := 308

def isTooLarge (number : Number) : Bool :=
  if number.significand = 0 ∨ number.exponent < 0 then false
  else if maxExponent < number.exponent then true
  else
    let power := roundToBits doubleBits (Nat.pow 10 number.exponent.toNat)
    Nat.pow 2 1024 ≤ roundToBits doubleBits (roundToBits doubleBits number.significand * power)

end Number

def digitsValue (ds : Text) : Nat :=
  ds.foldl (fun value c => 10 * value + (c.toNat - '0'.toNat)) 0

/-- Reads a run of digits, of which there has to be one. `atEnd` is the fault of a text that ends
before it. -/
def digits (atEnd : Cause) (s : Text) : Reading Text :=
  match s with
  | [] => .error ⟨atEnd, []⟩
  | c :: rest =>
    if c.isDigit then .ok (c :: rest.takeWhile Char.isDigit, rest.dropWhile Char.isDigit)
    else .error ⟨.badNumber, rest⟩

/-- Reads the digits before the point, which begin with a zero only if that is all. -/
def wholePart (atEnd : Cause) (s : Text) : Reading Text :=
  match s with
  | '0' :: c :: rest => if c.isDigit then .error ⟨.badNumber, rest⟩ else .ok (['0'], c :: rest)
  | s => digits atEnd s

/-- Reads a point and the digits after it, if there is a point. -/
def fractionPart (atEnd : Cause) (s : Text) : Reading Text :=
  match s with
  | '.' :: rest => digits atEnd rest
  | s => .ok ([], s)

def exponentSign (s : Text) : Bool × Text :=
  match s with
  | '-' :: rest => (true, rest)
  | '+' :: rest => (false, rest)
  | s => (false, s)

def exponentValue (negative : Bool) (ds : Text) : Int :=
  let magnitude : Int := digitsValue ds
  if negative then -magnitude else magnitude

def exponentPart (atEnd : Cause) (s : Text) : Reading Int :=
  match s with
  | [] => .ok (0, [])
  | c :: rest =>
    if c = 'e' ∨ c = 'E' then
      Reading.map (fun ds => exponentValue (exponentSign rest).1 ds)
        (digits atEnd (exponentSign rest).2)
    else .ok (0, c :: rest)

def number (atEnd : Cause) (s : Text) : Reading Number :=
  match wholePart atEnd s with
  | .error fault => .error fault
  | .ok (whole, afterWhole) =>
    match fractionPart atEnd afterWhole with
    | .error fault => .error fault
    | .ok (fraction, afterFraction) =>
      Reading.map (.ofDigits whole fraction) (exponentPart atEnd afterFraction)

theorem length_digits_lt {atEnd : Cause} {s ds rest : Text} (h : digits atEnd s = .ok (ds, rest)) :
    rest.length < s.length := by
  unfold digits at h
  split at h
  · cases h
  · rename_i c after
    split at h
    · cases h
      have := (List.dropWhile_suffix (l := after) Char.isDigit).length_le
      simp only [List.length_cons]
      omega
    · cases h

theorem length_wholePart_lt {atEnd : Cause} {s ds rest : Text}
    (h : wholePart atEnd s = .ok (ds, rest)) : rest.length < s.length := by
  unfold wholePart at h
  split at h
  · split at h
    · cases h
    · cases h
      simp
  · exact length_digits_lt h

theorem length_fractionPart_le {atEnd : Cause} {s ds rest : Text}
    (h : fractionPart atEnd s = .ok (ds, rest)) : rest.length ≤ s.length := by
  unfold fractionPart at h
  split at h
  · have := length_digits_lt h
    simp only [List.length_cons]
    omega
  · cases h
    exact Nat.le_refl _

theorem length_exponentSign_le (s : Text) : (exponentSign s).2.length ≤ s.length := by
  unfold exponentSign
  split <;> simp

theorem length_exponentPart_le {atEnd : Cause} {s rest : Text} {exponent : Int}
    (h : exponentPart atEnd s = .ok (exponent, rest)) : rest.length ≤ s.length := by
  unfold exponentPart at h
  split at h
  · cases h
    exact Nat.le_refl _
  · rename_i c after
    split at h
    · obtain ⟨ds, hdigits⟩ := Reading.of_map_eq_ok h
      have hlt := length_digits_lt hdigits
      have hsign := length_exponentSign_le after
      rw [List.length_cons]
      omega
    · cases h
      exact Nat.le_refl _

theorem length_number_lt {atEnd : Cause} {s rest : Text} {read : Number}
    (h : number atEnd s = .ok (read, rest)) : rest.length < s.length := by
  unfold number at h
  split at h
  · cases h
  · rename_i whole afterWhole hwhole
    split at h
    · cases h
    · rename_i fraction afterFraction hfraction
      obtain ⟨exponent, hexponent⟩ := Reading.of_map_eq_ok h
      have hlt := length_wholePart_lt hwhole
      have hmiddle := length_fractionPart_le hfraction
      have hlast := length_exponentPart_le hexponent
      omega

end CgShader.Json
