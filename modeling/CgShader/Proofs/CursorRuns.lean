import CgShader.Proofs.CursorMotion

/-!
Runs of a cursor: any operations in any order, whether they succeed or fail. Each operation consumes
pieces of the text that its answer names, so that the text before the cursor is made of the pieces
of all answers so far and the cursor always stands at the place that its offset says.
-/

namespace CgShader.Proofs.CursorRuns

open CgShader.Text
open CgShader.Proofs.WhiteSpace
open CgShader.Proofs.TokenReading
open CgShader.Proofs.CursorMotion

inductive Operation where
  | token
  | next
  | expect (expected : Char)
  | parameters
  | block

inductive Answer where
  | token (found : Text)
  | next (found : Option Text)
  | expect (expected : Char) (result : Except ShaderError Unit)
  | parameters (result : Except ShaderError Text)
  | block (result : Except ShaderError Text)

def Operation.apply : Operation → Cursor → Answer × Cursor
  | token, cursor => (.token cursor.token.1, cursor.token.2)
  | next, cursor => (.next cursor.token?.1, cursor.token?.2)
  | expect expected, cursor =>
    (.expect expected (cursor.expect expected).1, (cursor.expect expected).2)
  | parameters, cursor => (.parameters cursor.parameters.1, cursor.parameters.2)
  | block, cursor => (.block cursor.block.1, cursor.block.2)

/-- All answers to operations one after the other, and where the cursor stands at the end. -/
def run (cursor : Cursor) : List Operation → List Answer × Cursor
  | [] => ([], cursor)
  | operation :: rest =>
    let later := run (operation.apply cursor).2 rest
    ((operation.apply cursor).1 :: later.1, later.2)

/-- The token that an answer shows, also where it is not the expected one; empty at the end of the
source. -/
def Answer.token? : Answer → Option Text
  | token found => some found
  | next found => some (found.getD [])
  | expect expected (.ok ()) => some [expected]
  | expect _ (.error (.mismatched _ found _)) => some found
  | _ => none

/-- An answer with something that has been read: a token, or the text before a closing bracket. -/
def Answer.Reads (answer : Answer) : Prop :=
  (∃ t, answer.token? = some t ∧ t ≠ []) ∨
    ∃ taken, answer = .parameters (.ok taken) ∨ answer = .block (.ok taken)

inductive Piece where
  | white (s : Text)
  | token (t : Text)
  | parameters (taken : Text)
  | block (taken : Text)

/-- The text of a piece, which goes through the closing bracket if there is one. -/
def Piece.text : Piece → Text
  | white s => s
  | token t => t
  | parameters taken => taken ++ [')']
  | block taken => taken ++ ['}']

/-- The pieces that an operation with this answer can have consumed. -/
inductive Consumes : Answer → List Piece → Prop
  | token {answer : Answer} {white t : Text} (hwhite : Blank white) (ht : IsToken t)
      (hanswer : answer.token? = some t) : Consumes answer [.white white, .token t]
  | atEnd {answer : Answer} {white : Text} (hwhite : Blank white)
      (hanswer : answer.token? = some []) : Consumes answer [.white white]
  | parameters {white taken : Text} (hwhite : Blank white) :
      Consumes (.parameters (.ok taken)) [.white white, .parameters taken]
  | openParameters (error : ShaderError) : Consumes (.parameters (.error error)) []
  | block (taken : Text) : Consumes (.block (.ok taken)) [.block taken]
  | openBlock (error : ShaderError) : Consumes (.block (.error error)) []

/-- The text behind the first `count` bytes of a text, if a character ends there. -/
def behind? : Nat → Text → Option Text
  | 0, s => some s
  | _ + 1, [] => none
  | count + 1, c :: s =>
    if c.utf8Size ≤ count + 1 then behind? (count + 1 - c.utf8Size) s else none

theorem size_pos {s : Text} (hs : s ≠ []) : 0 < size s := by
  rcases s with _ | ⟨c, s⟩
  · exact absurd rfl hs
  · have hc := c.utf8Size_pos
    rw [size_cons]
    omega

theorem behind?_size_append (s t : Text) : behind? (size s) (s ++ t) = some t := by
  induction s with
  | nil => simp [behind?]
  | cons c s ih =>
      obtain ⟨count, hcount⟩ := Nat.exists_eq_add_one.mpr c.utf8Size_pos
      rw [size_cons, hcount, Nat.add_right_comm, List.cons_append, behind?, hcount,
        if_pos (by omega)]
      simpa using ih

theorem Consumes.size_pos_of_reads {answer : Answer} {pieces : List Piece}
    (h : Consumes answer pieces) (hreads : answer.Reads) :
    0 < size (pieces.flatMap Piece.text) := by
  rcases h with ⟨hwhite, ht, hanswer⟩ | ⟨hwhite, hanswer⟩ | hwhite | error | taken | error
  · have hpos := size_pos ht.ne_nil
    simp only [List.flatMap_cons, List.flatMap_nil, Piece.text, size_append]
    omega
  · rcases hreads with ⟨t, ht, hne⟩ | ⟨taken, rfl | rfl⟩
    · exact absurd (Option.some.inj (ht.symm.trans hanswer)) hne
    · simp [Answer.token?] at hanswer
    · simp [Answer.token?] at hanswer
  · exact size_pos (by simp [Piece.text])
  · simp [Answer.Reads, Answer.token?] at hreads
  · exact size_pos (by simp [Piece.text])
  · simp [Answer.Reads, Answer.token?] at hreads

theorem exists_consumes_token (cursor : Cursor) {answer : Answer}
    (hanswer : answer.token? = some cursor.token.1) :
    ∃ pieces, Consumes answer pieces ∧
      Moves cursor (pieces.flatMap Piece.text) cursor.token.2 := by
  have hmoves := moves_token cursor
  have hwhite := blank_takeWhile cursor.rest
  by_cases hend : cursor.token.1 = []
  · refine ⟨[.white (cursor.rest.takeWhile isWhite)], .atEnd hwhite (hend ▸ hanswer), ?_⟩
    simpa [Piece.text, hend] using hmoves
  · refine ⟨[.white (cursor.rest.takeWhile isWhite), .token cursor.token.1],
      .token hwhite (isToken_token hend) hanswer, ?_⟩
    simpa [Piece.text] using hmoves

theorem parameters_of_error {cursor : Cursor} {error : ShaderError}
    (h : cursor.parameters.1 = .error error) : cursor.parameters.2 = cursor := by
  unfold Cursor.parameters at h ⊢
  split at h
  · cases h
  · rfl

theorem block_of_error {cursor : Cursor} {error : ShaderError}
    (h : cursor.block.1 = .error error) : cursor.block.2 = cursor := by
  unfold Cursor.block at h ⊢
  split at h
  · cases h
  · rfl

/-- What one operation does, on success and on failure. -/
theorem exists_consumes_apply (operation : Operation) (cursor : Cursor) :
    ∃ pieces, Consumes (operation.apply cursor).1 pieces ∧
      Moves cursor (pieces.flatMap Piece.text) (operation.apply cursor).2 := by
  rcases operation with _ | _ | expected | _ | _
  · exact exists_consumes_token cursor rfl
  · apply exists_consumes_token cursor
    rcases htoken : cursor.token.1 with _ | ⟨c, t⟩ <;>
      simp [Operation.apply, Answer.token?, Cursor.token?, htoken]
  · apply exists_consumes_token cursor
    by_cases hexpected : cursor.token.1 = [expected] <;>
      simp [Operation.apply, Answer.token?, Cursor.expect, hexpected]
  · rw [Operation.apply]
    rcases hresult : cursor.parameters.1 with error | taken
    · rw [parameters_of_error hresult]
      exact ⟨[], .openParameters error, .refl cursor⟩
    · refine ⟨_, .parameters (blank_takeWhile cursor.rest), ?_⟩
      simpa [Piece.text] using moves_parameters (Prod.ext hresult rfl)
  · rw [Operation.apply]
    rcases hresult : cursor.block.1 with error | taken
    · rw [block_of_error hresult]
      exact ⟨[], .openBlock error, .refl cursor⟩
    · refine ⟨_, .block taken, ?_⟩
      simpa [Piece.text] using moves_block (Prod.ext hresult rfl)

theorem apply_of_unclosed {operation : Operation} {cursor : Cursor} {error : ShaderError}
    (h : (operation.apply cursor).1 = .parameters (.error error) ∨
      (operation.apply cursor).1 = .block (.error error)) :
    (operation.apply cursor).2 = cursor := by
  rcases operation with _ | _ | expected | _ | _ <;>
    simp only [Operation.apply, reduceCtorEq, or_self, or_false, false_or, Answer.parameters.injEq,
      Answer.block.injEq] at h
  · exact parameters_of_error h
  · exact block_of_error h

theorem apply_of_unexpected {operation : Operation} {cursor : Cursor} {expected : Char}
    {error : ShaderError} (h : (operation.apply cursor).1 = .expect expected (.error error)) :
    (operation.apply cursor).2 = (Operation.token.apply cursor).2 := by
  rcases operation with _ | _ | expected | _ | _ <;>
    simp only [Operation.apply, reduceCtorEq] at h
  rfl

theorem exists_consumes_run (cursor : Cursor) (operations : List Operation) :
    ∃ pieces, List.Forall₂ Consumes (run cursor operations).1 pieces ∧
      Moves cursor (pieces.flatten.flatMap Piece.text) (run cursor operations).2 := by
  induction operations generalizing cursor with
  | nil => exact ⟨[], .nil, .refl cursor⟩
  | cons operation operations ih =>
      obtain ⟨first, hfirst, hmoves⟩ := exists_consumes_apply operation cursor
      obtain ⟨later, hlater, hmoves'⟩ := ih (operation.apply cursor).2
      refine ⟨first :: later, .cons hfirst hlater, ?_⟩
      rw [List.flatten_cons, List.flatMap_append]
      exact hmoves.trans hmoves'

/-- After any operations the rest of the source stands behind the offset, and the pieces that the
answers name make up the source before it. No operation goes back, one that reads something goes
forward, a bracket that is not found leaves the cursor, and a token is passed also where it is not
the expected one. -/
theorem run_keeps_place (source : Text) (operations : List Operation) :
    let cursor := (run (Cursor.start source) operations).2
    behind? cursor.offset source = some cursor.rest ∧ cursor.offset ≤ size source ∧
      (∃ pieces, List.Forall₂ Consumes (run (Cursor.start source) operations).1 pieces ∧
        source = pieces.flatten.flatMap Piece.text ++ cursor.rest) ∧
      ∀ operation : Operation,
        let answer := (operation.apply cursor).1
        let after := (operation.apply cursor).2
        cursor.offset ≤ after.offset ∧ (answer.Reads → cursor.offset < after.offset) ∧
          (∀ error, answer = .parameters (.error error) ∨ answer = .block (.error error) →
            after = cursor) ∧
          ∀ expected error, answer = .expect expected (.error error) →
            after = (Operation.token.apply cursor).2 := by
  intro cursor
  obtain ⟨pieces, hpieces, hmoves⟩ := exists_consumes_run (Cursor.start source) operations
  have hsource : source = pieces.flatten.flatMap Piece.text ++ cursor.rest := hmoves.rest
  have hoffset : cursor.offset = size (pieces.flatten.flatMap Piece.text) :=
    hmoves.offset.trans (Nat.zero_add _)
  refine ⟨?_, ?_, ⟨pieces, hpieces, hsource⟩, ?_⟩
  · conv_lhs => rw [hsource, hoffset]
    exact behind?_size_append _ _
  · rw [hsource, size_append, hoffset]
    omega
  · intro operation answer after
    obtain ⟨consumed, hconsumes, hstep⟩ := exists_consumes_apply operation cursor
    have hadvance : after.offset = cursor.offset + size (consumed.flatMap Piece.text) :=
      hstep.offset
    refine ⟨by omega, ?_, ?_, ?_⟩
    · intro hreads
      have hpos := hconsumes.size_pos_of_reads hreads
      omega
    · intro error herror
      exact apply_of_unclosed herror
    · intro expected error herror
      exact apply_of_unexpected herror

theorem run_keeps_place_unclosed :
    let source := "\té\x7bb\x7b;\x7dé\x7d(a )x".toList
    let opened := (run (Cursor.start source) [.token, .expect '{']).2
    let closed := (run (Cursor.start source) [.token, .expect '{', .block]).2
    let cursor := (run (Cursor.start source) [.token, .expect '{', .block, .expect ';']).2
    (Operation.block.apply opened).1 = .block (.ok "b\x7b;\x7dé".toList) ∧
      opened.offset < (Operation.block.apply opened).2.offset ∧
      behind? 11 source = some "(a )x".toList ∧
      (Operation.block.apply closed).1 = .block (.error (.openBlock 11)) ∧
      (Operation.block.apply closed).2 = closed ∧ behind? 12 source = some "a )x".toList ∧
      (Operation.parameters.apply cursor).1 = .parameters (.ok "a ".toList) ∧
      cursor.offset < (Operation.parameters.apply cursor).2.offset := by
  intro source opened closed cursor
  obtain ⟨-, -, -, hopened⟩ := run_keeps_place source [.token, .expect '{']
  obtain ⟨hplace, -, -, hclosed⟩ := run_keeps_place source [.token, .expect '{', .block]
  obtain ⟨hplace', -, -, hsteps⟩ :=
    run_keeps_place source [.token, .expect '{', .block, .expect ';']
  have hblock : (Operation.block.apply opened).1 = .block (.ok "b\x7b;\x7dé".toList) := rfl
  have hopen : (Operation.block.apply closed).1 = .block (.error (.openBlock 11)) := rfl
  have hparameters : (Operation.parameters.apply cursor).1 = .parameters (.ok "a ".toList) := rfl
  exact ⟨hblock, (hopened .block).2.1 (.inr ⟨_, .inr hblock⟩), hplace, hopen,
    (hclosed .block).2.2.1 _ (.inr hopen), hplace', hparameters,
    (hsteps .parameters).2.1 (.inr ⟨_, .inl hparameters⟩)⟩

end CgShader.Proofs.CursorRuns
