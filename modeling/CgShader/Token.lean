import CgShader.Text.White

namespace CgShader.Token

/-- The characters that end a token and are tokens of their own, and the space. -/
def delimiters : Text := " *<>-+/%()\x7b\x7d,;[]".toList

def isDelimiter (c : Char) : Bool := delimiters.contains c

/-- The first token of a text and what follows it. The token is empty only where nothing but white
space is left. -/
def next (s : Text) : Text × Text :=
  match Text.trimStart s with
  | [] => ([], [])
  | c :: rest =>
    if isDelimiter c then ([c], rest)
    else (c :: rest.takeWhile (!isDelimiter ·), rest.dropWhile (!isDelimiter ·))

theorem next_append (s : Text) : (next s).1 ++ (next s).2 = Text.trimStart s := by
  unfold next
  split
  · simp_all
  · split <;> simp_all

theorem length_next_le (s : Text) : (next s).2.length ≤ s.length := by
  have happend := congrArg List.length (next_append s)
  have htrim := Text.length_trimStart_le s
  rw [List.length_append] at happend
  omega

theorem length_next_lt (s : Text) (htoken : (next s).1 ≠ []) : (next s).2.length < s.length := by
  have happend := congrArg List.length (next_append s)
  have htrim := Text.length_trimStart_le s
  have hpos := List.length_pos_iff.2 htoken
  rw [List.length_append] at happend
  omega

def tokens (s : Text) : List Text :=
  if (next s).1 = [] then [] else (next s).1 :: tokens (next s).2
termination_by s.length
decreasing_by exact length_next_lt s (by assumption)

/-- A token as an error message shows it. -/
def describe (token : Text) : Text := if token.isEmpty then "end of input".toList else token

end CgShader.Token
