import CgShader.Proofs.CursorMotion
import CgShader.Proofs.ItemLocality

namespace CgShader.Proofs.ErrorPlaces

open CgShader.Text
open CgShader.Item
open CgShader.Proofs.WhiteSpace
open CgShader.Proofs.BalancedBlocks
open CgShader.Proofs.TokenReading
open CgShader.Proofs.ItemGrammar
open CgShader.Proofs.ItemSoundness
open CgShader.Proofs.ItemLocality
open CgShader.Proofs.CursorMotion

/-- The offset that an error gives, if it is one of reading. -/
def offset? : ShaderError → Option Nat
  | .unterminated _ offset | .mismatched _ _ offset | .openParameters offset
  | .openBlock offset => some offset
  | .noEntryPoint | .matrixNamesTooLong .. => none

/-- What is shown as found before a text: its first token, which is not the expected one, or the end
of input where only white space follows. -/
structure ShowsFound (expected : Char) (found behind : Text) : Prop where
  atEnd : Token.describe found = "end of input".toList ↔ Blank behind
  token : ¬ Blank behind → Token.describe found = (Token.next behind).1
  unexpected : Token.describe found ≠ [expected]

/-- What an error says about the text before its place and the text behind it. -/
def Reports (before behind : Text) : ShaderError → Prop
  | .unterminated found _ => ShowsFound ';' found behind
  | .mismatched expected found _ => ShowsFound expected found behind
  | .openParameters _ =>
    ')' ∉ behind ∧ ∃ earlier blank, Blank blank ∧ before = earlier ++ '(' :: blank
  | .openBlock _ =>
    (∀ front, front <+: behind → front.count '}' ≤ front.count '{') ∧
      ∃ earlier, before = earlier ++ ['{']
  | .noEntryPoint | .matrixNamesTooLong .. => False

theorem Reports.append {before behind : Text} {error : ShaderError}
    (h : Reports before behind error) (earlier : Text) :
    Reports (earlier ++ before) behind error := by
  cases error with
  | unterminated found offset => exact h
  | mismatched expected found offset => exact h
  | openParameters offset =>
      obtain ⟨hnone, start, blank, hblank, rfl⟩ := h
      exact ⟨hnone, earlier ++ start, blank, hblank, (List.append_assoc ..).symm⟩
  | openBlock offset =>
      obtain ⟨hfronts, start, rfl⟩ := h
      exact ⟨hfronts, earlier ++ start, (List.append_assoc ..).symm⟩
  | noEntryPoint => exact h
  | matrixNamesTooLong names reason => exact h

/-- An error that points at a place behind a cursor. -/
def Pinpoints (cursor : Cursor) (error : ShaderError) : Prop :=
  ∃ before place, Moves cursor before place ∧ offset? error = some place.offset ∧
    Reports before place.rest error

theorem Pinpoints.of_moves {cursor after : Cursor} {taken : Text} {error : ShaderError}
    (hmoves : Moves cursor taken after) (h : Pinpoints after error) : Pinpoints cursor error := by
  obtain ⟨before, place, hplace, hoffset, hreports⟩ := h
  exact ⟨taken ++ before, place, hmoves.trans hplace, hoffset, hreports.append taken⟩

theorem not_isToken_end : ¬ IsToken "end of input".toList := by decide

theorem showsFound_token (cursor : Cursor) {expected : Char}
    (h : cursor.token.1 ≠ [expected]) : ShowsFound expected cursor.token.1 cursor.rest := by
  rcases next_cases cursor.rest with ⟨hblank, hnext⟩ | ⟨lead, t, rest, hlead, ht, -, hsplit, hnext⟩
  · have htoken : cursor.token.1 = [] := by simp [Cursor.token, hnext]
    rw [htoken]
    exact ⟨iff_of_true rfl hblank, fun hvisible => absurd hblank hvisible, by simp [Token.describe]⟩
  · have htoken : cursor.token.1 = t := by simp [Cursor.token, hnext]
    have hdescribe : Token.describe t = t := by simp [Token.describe, ht.ne_nil]
    have hvisible : ¬ Blank cursor.rest := by
      intro hblank
      rw [next_of_blank hblank] at hnext
      exact ht.ne_nil (congrArg Prod.fst hnext).symm
    rw [htoken] at h ⊢
    refine ⟨iff_of_false ?_ hvisible, fun _ => ?_, ?_⟩
    · rw [hdescribe]
      rintro rfl
      exact not_isToken_end ht
    · rw [hdescribe, hnext]
    · rwa [hdescribe]

theorem pinpoints_of_terminator {cursor : Cursor} {error : ShaderError}
    (h : terminator cursor = .error error) : Pinpoints cursor error := by
  unfold terminator at h
  split at h
  · cases h
  · rename_i hsemicolon
    cases h
    exact ⟨[], cursor, .refl cursor, rfl, showsFound_token cursor hsemicolon⟩

theorem pinpoints_of_declaration {cursor : Cursor} {error : ShaderError}
    (h : declaration cursor = .error error) : Pinpoints cursor error := by
  simp only [declaration, bind, Except.bind, pure, Except.pure] at h
  split at h
  · rename_i error' hterminator
    cases h
    apply Pinpoints.of_moves (moves_token cursor)
    apply Pinpoints.of_moves (moves_token cursor.token.2)
    exact pinpoints_of_terminator hterminator
  · cases h

theorem pinpoints_of_skipStatement {cursor : Cursor} {error : ShaderError}
    (h : skipStatement cursor = .error error) : Pinpoints cursor error := by
  fun_induction skipStatement cursor with
  | case1 => cases h
  | case2 cursor hsemicolon hend =>
      cases h
      have hfound := showsFound_token cursor hsemicolon
      rw [hend] at hfound
      exact ⟨[], cursor, .refl cursor, rfl, hfound⟩
  | case3 cursor hsemicolon hend ih => exact (ih h).of_moves (moves_token cursor)

theorem pinpoints_of_expect {cursor after : Cursor} {expected : Char} {error : ShaderError}
    (h : cursor.expect expected = (.error error, after)) : Pinpoints cursor error := by
  simp only [Cursor.expect, Prod.mk.injEq] at h
  obtain ⟨herror, -⟩ := h
  split at herror
  · cases herror
  · rename_i hexpected
    cases herror
    exact ⟨[], cursor, .refl cursor, rfl, showsFound_token cursor hexpected⟩

theorem pinpoints_of_parameters {cursor afterOpen after : Cursor} {opened : Unit}
    {error : ShaderError} (hopen : cursor.expect '(' = (.ok opened, afterOpen))
    (h : afterOpen.parameters = (.error error, after)) : Pinpoints cursor error := by
  unfold Cursor.parameters at h
  split at h
  · cases h
  · rename_i hsplit
    cases h
    have hplace := (moves_expect hopen).trans (moves_skipWhite afterOpen)
    rw [List.append_assoc] at hplace
    exact ⟨_, afterOpen.skipWhite, hplace, rfl, (splitParameters?_eq_none_iff _).mp hsplit, _, _,
      blank_takeWhile afterOpen.rest, rfl⟩

theorem pinpoints_of_block {cursor afterBrace after : Cursor} {opened : Unit}
    {error : ShaderError} (hbrace : cursor.expect '{' = (.ok opened, afterBrace))
    (h : afterBrace.block = (.error error, after)) : Pinpoints cursor error := by
  unfold Cursor.block at h
  split at h
  · cases h
  · rename_i hsplit
    cases h
    exact ⟨_, afterBrace, moves_expect hbrace, rfl, (splitBlock?_eq_none_iff 0 _).mp hsplit, _, rfl⟩

theorem pinpoints_of_functionAfter {returnType : Text} {cursor : Cursor} {error : ShaderError}
    (h : functionAfter returnType cursor = .error error) : Pinpoints cursor error := by
  simp only [functionAfter, bind, Except.bind, pure, Except.pure] at h
  apply Pinpoints.of_moves (moves_token cursor)
  rcases hopen : cursor.token.2.expect '(' with ⟨error' | opened, afterOpen⟩
  · obtain rfl : error' = error := by simpa [hopen] using h
    exact pinpoints_of_expect hopen
  rcases hparameters : afterOpen.parameters with ⟨error' | parameters, afterParameters⟩
  · obtain rfl : error' = error := by simpa [hopen, hparameters] using h
    exact pinpoints_of_parameters hopen hparameters
  apply Pinpoints.of_moves ((moves_expect hopen).trans (moves_parameters hparameters))
  rcases hbrace : afterParameters.expect '{' with ⟨error' | blockOpened, afterBrace⟩
  · obtain rfl : error' = error := by simpa [hopen, hparameters, hbrace] using h
    exact pinpoints_of_expect hbrace
  rcases hblock : afterBrace.block with ⟨error' | body, afterBlock⟩
  · obtain rfl : error' = error := by simpa [hopen, hparameters, hbrace, hblock] using h
    exact pinpoints_of_block hbrace hblock
  · simp [hopen, hparameters, hbrace, hblock] at h

theorem error_of_map_eq_error {α β : Type} {result : Except ShaderError α} {f : α → β}
    {error : ShaderError} (h : result.map f = .error error) : result = .error error := by
  rcases result with error' | a
  · cases h
    rfl
  · cases h

theorem pinpoints_of_readAfter {first : Text} {cursor : Cursor} {error : ShaderError}
    (h : readAfter first cursor = .error error) : Pinpoints cursor error := by
  unfold readAfter at h
  split at h
  · exact pinpoints_of_declaration (error_of_map_eq_error h)
  · split at h
    · exact pinpoints_of_skipStatement (error_of_map_eq_error h)
    · exact pinpoints_of_functionAfter (error_of_map_eq_error h)

theorem exists_moves_of_readAfter {first : Text} {cursor after : Cursor} {item : Item}
    (h : readAfter first cursor = .ok (item, after)) : ∃ taken, Moves cursor taken after := by
  obtain ⟨taken, -, hsplit, htakes⟩ := exists_taken_readAfter h
  have hread := htakes cursor.offset after.rest
  rw [← hsplit] at hread
  have hafter : after = ⟨cursor.offset + size taken, after.rest⟩ :=
    (Prod.mk.inj (Except.ok.inj (h.symm.trans hread))).2
  exact ⟨taken, hsplit, congrArg Cursor.offset hafter⟩

theorem pinpoints_of_readAll {cursor : Cursor} {error : ShaderError}
    (h : readAll cursor = .error error) : Pinpoints cursor error := by
  fun_induction readAll cursor with
  | case1 => cases h
  | case2 cursor hend error' hread =>
      cases h
      exact (pinpoints_of_readAfter hread).of_moves (moves_token cursor)
  | case3 cursor hend item after hread ih =>
      obtain ⟨taken, hmoves⟩ := exists_moves_of_readAfter hread
      have hlater := ih (error_of_map_eq_error h)
      exact (hlater.of_moves hmoves).of_moves (moves_token cursor)

/-- Where reading fails, the offset of the error is the size of a front of the text, and the error
says what stands there. -/
theorem reports_of_read_eq_error {stage : Stage} {text : Text} {error : ShaderError}
    (h : Shader.read stage text = .error error) :
    ∃ before behind, text = before ++ behind ∧ offset? error = some (size before) ∧
      Reports before behind error := by
  obtain ⟨before, place, hmoves, hoffset, hreports⟩ :=
    pinpoints_of_readAll (error_of_map_eq_error h)
  have hplace : place.offset = size before := hmoves.offset.trans (Nat.zero_add _)
  exact ⟨before, place.rest, hmoves.rest, hoffset.trans (congrArg some hplace), hreports⟩

theorem reports_of_read_eq_error_parameters :
    let text := "uniform int é;float ü(\u3000a \x7b;\x7d".toList
    Shader.read .vertex text = .error (.openParameters 27) ∧
      ∃ before behind, text = before ++ behind ∧
        offset? (.openParameters 27) = some (size before) ∧
        Reports before behind (.openParameters 27) := by
  intro text
  have hread : Shader.read .vertex text = .error (.openParameters 27) := by decide +kernel
  exact ⟨hread, reports_of_read_eq_error hread⟩

end CgShader.Proofs.ErrorPlaces
