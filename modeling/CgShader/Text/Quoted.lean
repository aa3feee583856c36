import CgShader.Text.Basic

namespace CgShader.Text

/-- A character inside quotes: the quote and the backslash are written with a backslash, the usual
control characters by their letter, and other control characters by their code point. -/
def escapeChar (c : Char) : Text :=
  if c = '"' ∨ c = '\\' then ['\\', c]
  else if c = '\n' then ['\\', 'n']
  else if c = '\r' then ['\\', 'r']
  else if c = '\t' then ['\\', 't']
  else if c.toNat = 0 then ['\\', '0']
  else if c.toNat < 0x20 ∨ (0x7F ≤ c.toNat ∧ c.toNat ≤ 0x9F) then
    "\\u\x7b".toList ++ Nat.toDigits 16 c.toNat ++ "\x7d".toList
  else [c]

def quoted (s : Text) : Text := '"' :: (s.flatMap escapeChar ++ ['"'])

/-- The texts in quotes and square brackets, divided by commas. -/
def quotedList (items : List Text) : Text :=
  '[' :: ((", ".toList).intercalate (items.map quoted) ++ [']'])

end CgShader.Text
