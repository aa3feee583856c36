import CgShader.Bracket
import CgShader.Shader.Error

namespace CgShader

/-- A place in a source: the bytes before it and the text after it. -/
structure Cursor where
  offset : Nat
  rest : Text

namespace Cursor

def start (source : Text) : Cursor := ⟨0, source⟩

/-- The cursor behind `read`, with `rest` left. -/
def moveBehind (cursor : Cursor) (read rest : Text) : Cursor :=
  ⟨cursor.offset + Text.size read, rest⟩

def skipWhite (cursor : Cursor) : Cursor :=
  cursor.moveBehind (cursor.rest.takeWhile Text.isWhite) (Text.trimStart cursor.rest)

/-- Reads one token, which is empty at the end of the source. -/
def token (cursor : Cursor) : Text × Cursor :=
  let (token, rest) := Token.next cursor.rest
  (token, cursor.skipWhite.moveBehind token rest)

def token? (cursor : Cursor) : Option Text × Cursor :=
  (if cursor.token.1.isEmpty then none else some cursor.token.1, cursor.token.2)

/-- Reads one token, which has to be `expected`. The token is read even if it is another one. -/
def expect (expected : Char) (cursor : Cursor) : Except ShaderError Unit × Cursor :=
  (if cursor.token.1 = [expected] then .ok ()
    else .error (.mismatched expected cursor.token.1 cursor.offset),
    cursor.token.2)

/-- Reads through the `)` that closes a parameter list, and gives the text before it. Without one
the cursor stays. -/
def parameters (cursor : Cursor) : Except ShaderError Text × Cursor :=
  match Bracket.splitParameters? cursor.skipWhite.rest with
  | some (taken, rest) => (.ok taken, cursor.skipWhite.moveBehind (taken ++ [')']) rest)
  | none => (.error (.openParameters cursor.skipWhite.offset), cursor)

/-- Reads through the `}` that closes a block, and gives the text before it. Without one the cursor
stays. -/
def block (cursor : Cursor) : Except ShaderError Text × Cursor :=
  match Bracket.splitBlock? 0 cursor.rest with
  | some (taken, rest) => (.ok taken, cursor.moveBehind (taken ++ ['}']) rest)
  | none => (.error (.openBlock cursor.offset), cursor)

theorem length_token_le (cursor : Cursor) :
    cursor.token.2.rest.length ≤ cursor.rest.length :=
  Token.length_next_le cursor.rest

theorem length_token_lt (cursor : Cursor) (htoken : cursor.token.1 ≠ []) :
    cursor.token.2.rest.length < cursor.rest.length :=
  Token.length_next_lt cursor.rest htoken

theorem length_expect_le (expected : Char) (cursor : Cursor) :
    (cursor.expect expected).2.rest.length ≤ cursor.rest.length :=
  Token.length_next_le cursor.rest

theorem length_parameters_le (cursor : Cursor) :
    cursor.parameters.2.rest.length ≤ cursor.rest.length := by
  unfold parameters
  split
  · rename_i taken rest hsplit
    have happend := congrArg List.length (Bracket.splitParameters?_append hsplit)
    have htrim := Text.length_trimStart_le cursor.rest
    simp only [skipWhite, moveBehind, List.length_append, List.length_cons] at happend htrim ⊢
    omega
  · exact Nat.le_refl _

theorem length_block_le (cursor : Cursor) :
    cursor.block.2.rest.length ≤ cursor.rest.length := by
  unfold block
  split
  · rename_i taken rest hsplit
    have happend := congrArg List.length (Bracket.splitBlock?_append hsplit)
    simp only [moveBehind, List.length_append, List.length_cons] at happend ⊢
    omega
  · exact Nat.le_refl _

end Cursor

end CgShader
