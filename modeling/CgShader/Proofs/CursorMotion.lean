import CgShader.Proofs.TokenReading

namespace CgShader.Proofs.CursorMotion

open CgShader.Text
open CgShader.Proofs.WhiteSpace

/-- The second cursor stands behind the first, and `taken` is the text between them. -/
structure Moves (cursor : Cursor) (taken : Text) (after : Cursor) : Prop where
  rest : cursor.rest = taken ++ after.rest
  offset : after.offset = cursor.offset + size taken

theorem Moves.refl (cursor : Cursor) : Moves cursor [] cursor := ⟨rfl, rfl⟩

theorem Moves.trans {cursor middle after : Cursor} {taken later : Text}
    (hfirst : Moves cursor taken middle) (hsecond : Moves middle later after) :
    Moves cursor (taken ++ later) after := by
  constructor
  · rw [hfirst.rest, hsecond.rest, List.append_assoc]
  · rw [hsecond.offset, hfirst.offset, size_append, Nat.add_assoc]

theorem moves_moveBehind {cursor : Cursor} {taken rest : Text} (h : cursor.rest = taken ++ rest) :
    Moves cursor taken (cursor.moveBehind taken rest) :=
  ⟨h, rfl⟩

theorem moves_skipWhite (cursor : Cursor) :
    Moves cursor (cursor.rest.takeWhile isWhite) cursor.skipWhite :=
  moves_moveBehind (takeWhile_append_trimStart cursor.rest).symm

theorem moves_token (cursor : Cursor) :
    Moves cursor (cursor.rest.takeWhile isWhite ++ cursor.token.1) cursor.token.2 :=
  (moves_skipWhite cursor).trans (moves_moveBehind (Token.next_append cursor.rest).symm)

theorem moves_expect {cursor after : Cursor} {expected : Char} {opened : Unit}
    (h : cursor.expect expected = (.ok opened, after)) :
    Moves cursor (cursor.rest.takeWhile isWhite ++ [expected]) after := by
  have hmoves := moves_token cursor
  simp only [Cursor.expect, Prod.mk.injEq] at h
  obtain ⟨htoken, rfl⟩ := h
  split at htoken
  · rename_i hexpected
    rwa [hexpected] at hmoves
  · cases htoken

theorem moves_parameters {cursor after : Cursor} {taken : Text}
    (h : cursor.parameters = (.ok taken, after)) :
    Moves cursor (cursor.rest.takeWhile isWhite ++ (taken ++ [')'])) after := by
  unfold Cursor.parameters at h
  split at h
  · rename_i inside rest hsplit
    cases h
    refine (moves_skipWhite cursor).trans (moves_moveBehind ?_)
    rw [List.append_assoc]
    exact Bracket.splitParameters?_append hsplit
  · cases h

theorem moves_block {cursor after : Cursor} {taken : Text}
    (h : cursor.block = (.ok taken, after)) : Moves cursor (taken ++ ['}']) after := by
  unfold Cursor.block at h
  split at h
  · rename_i inside rest hsplit
    cases h
    apply moves_moveBehind
    rw [List.append_assoc]
    exact Bracket.splitBlock?_append hsplit
  · cases h

end CgShader.Proofs.CursorMotion
