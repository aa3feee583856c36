/-!
Texts are lists of characters. A position in a text is counted in the bytes of its UTF-8 form, and a
line ends in a line feed, which a carriage return may precede.
-/

namespace CgShader

/-- A piece of source, program, path or message, as its characters. -/
abbrev Text := List Char

namespace Text

/-- The number of bytes that the text takes in UTF-8. -/
def size : Text → Nat
  | [] => 0
  | c :: s => c.utf8Size + size s

@[simp]
theorem size_nil : size [] = 0 := rfl

@[simp]
theorem size_cons (c : Char) (s : Text) : size (c :: s) = c.utf8Size + size s := rfl

@[simp]
theorem size_append (s t : Text) : size (s ++ t) = size s + size t := by
  induction s with
  | nil => simp
  | cons c s ih => rw [List.cons_append, size_cons, ih, size_cons, Nat.add_assoc]

def ofNat (n : Nat) : Text := Nat.toDigits 10 n

def dropEndWhile (p : Char → Bool) (s : Text) : Text := (s.reverse.dropWhile p).reverse

/-- A text with a line feed alone at the end of each line. -/
def withPlainLineEnds : Text → Text
  | [] => []
  | '\r' :: '\n' :: rest => '\n' :: withPlainLineEnds rest
  | c :: rest => c :: withPlainLineEnds rest

/-- The lines of a text, without their ends. -/
def lines (s : Text) : List Text := (withPlainLineEnds s).splitOn '\n'

end Text

end CgShader
