import CgShader.Proofs.ItemSoundness

namespace CgShader.Proofs.ItemLocality

open CgShader.Text
open CgShader.Item
open CgShader.Proofs.WhiteSpace
open CgShader.Proofs.BalancedBlocks
open CgShader.Proofs.TokenReading
open CgShader.Proofs.ItemGrammar
open CgShader.Proofs.ItemSoundness

def shiftError (distance : Nat) : ShaderError → ShaderError
  | .unterminated found offset => .unterminated found (offset + distance)
  | .mismatched expected found offset => .mismatched expected found (offset + distance)
  | .openParameters offset => .openParameters (offset + distance)
  | .openBlock offset => .openBlock (offset + distance)
  | .noEntryPoint => .noEntryPoint
  | .matrixNamesTooLong names reason => .matrixNamesTooLong names reason

def shiftCursor (distance : Nat) (cursor : Cursor) : Cursor :=
  ⟨cursor.offset + distance, cursor.rest⟩

theorem token_shiftCursor (distance : Nat) (cursor : Cursor) :
    (shiftCursor distance cursor).token =
      (cursor.token.1, shiftCursor distance cursor.token.2) := by
  simp only [shiftCursor, Cursor.token, Cursor.skipWhite, Cursor.moveBehind, Prod.mk.injEq,
    Cursor.mk.injEq, true_and, and_true]
  omega

theorem expect_shiftCursor (expected : Char) (distance : Nat) (cursor : Cursor) :
    (shiftCursor distance cursor).expect expected =
      ((cursor.expect expected).1.mapError (shiftError distance),
        shiftCursor distance (cursor.expect expected).2) := by
  simp only [Cursor.expect, token_shiftCursor, Prod.mk.injEq, and_true]
  split <;> rfl

theorem skipWhite_shiftCursor (distance : Nat) (cursor : Cursor) :
    (shiftCursor distance cursor).skipWhite = shiftCursor distance cursor.skipWhite := by
  simp only [shiftCursor, Cursor.skipWhite, Cursor.moveBehind, Cursor.mk.injEq, and_true]
  omega

theorem moveBehind_shiftCursor (distance : Nat) (cursor : Cursor) (taken rest : Text) :
    (shiftCursor distance cursor).moveBehind taken rest =
      shiftCursor distance (cursor.moveBehind taken rest) := by
  simp only [shiftCursor, Cursor.moveBehind, Cursor.mk.injEq, and_true]
  omega

theorem parameters_shiftCursor (distance : Nat) (cursor : Cursor) :
    (shiftCursor distance cursor).parameters =
      (cursor.parameters.1.mapError (shiftError distance),
        shiftCursor distance cursor.parameters.2) := by
  have hrest : (shiftCursor distance cursor.skipWhite).rest = cursor.skipWhite.rest := rfl
  simp only [Cursor.parameters, skipWhite_shiftCursor, hrest]
  rcases Bracket.splitParameters? cursor.skipWhite.rest with _ | ⟨taken, rest⟩
  · rfl
  · simp only [moveBehind_shiftCursor]
    rfl

theorem block_shiftCursor (distance : Nat) (cursor : Cursor) :
    (shiftCursor distance cursor).block =
      (cursor.block.1.mapError (shiftError distance),
        shiftCursor distance cursor.block.2) := by
  have hrest : (shiftCursor distance cursor).rest = cursor.rest := rfl
  simp only [Cursor.block, hrest]
  rcases Bracket.splitBlock? 0 cursor.rest with _ | ⟨taken, rest⟩
  · rfl
  · simp only [moveBehind_shiftCursor]
    rfl

def shiftResult {α : Type} (distance : Nat) (result : Except ShaderError (α × Cursor)) :
    Except ShaderError (α × Cursor) :=
  (result.mapError (shiftError distance)).map (Prod.map id (shiftCursor distance))

theorem terminator_shiftCursor (distance : Nat) (cursor : Cursor) :
    terminator (shiftCursor distance cursor) =
      ((terminator cursor).mapError (shiftError distance)).map (shiftCursor distance) := by
  simp only [terminator, token_shiftCursor]
  split <;> rfl

theorem declaration_shiftCursor (distance : Nat) (cursor : Cursor) :
    declaration (shiftCursor distance cursor) = shiftResult distance (declaration cursor) := by
  simp only [declaration, token_shiftCursor, terminator_shiftCursor, bind, Except.bind, pure,
    Except.pure]
  rcases terminator cursor.token.2.token.2 with error | after <;> rfl

theorem skipStatement_shiftCursor (distance : Nat) (cursor : Cursor) :
    skipStatement (shiftCursor distance cursor) =
      ((skipStatement cursor).mapError (shiftError distance)).map (shiftCursor distance) := by
  fun_induction skipStatement cursor with
  | case1 cursor hsemicolon =>
      rw [skipStatement, token_shiftCursor, if_pos hsemicolon]
      rfl
  | case2 cursor hsemicolon hend =>
      rw [skipStatement, token_shiftCursor, if_neg hsemicolon, if_pos hend]
      rfl
  | case3 cursor hsemicolon hend ih =>
      rw [skipStatement, token_shiftCursor, if_neg hsemicolon, if_neg hend]
      exact ih

theorem functionAfter_shiftCursor (returnType : Text) (distance : Nat) (cursor : Cursor) :
    functionAfter returnType (shiftCursor distance cursor) =
      shiftResult distance (functionAfter returnType cursor) := by
  simp only [functionAfter, token_shiftCursor, expect_shiftCursor, parameters_shiftCursor,
    block_shiftCursor, bind, Except.bind, pure, Except.pure]
  rcases cursor.token.2.expect '(' with ⟨error | opened, afterOpen⟩
  · rfl
  dsimp only
  rcases afterOpen.parameters with ⟨error | parameters, afterParameters⟩
  · rfl
  dsimp only
  rcases afterParameters.expect '{' with ⟨error | blockOpened, afterBrace⟩
  · rfl
  dsimp only
  rcases afterBrace.block with ⟨error | body, afterBlock⟩ <;> rfl

theorem readAfter_shiftCursor (first : Text) (distance : Nat) (cursor : Cursor) :
    readAfter first (shiftCursor distance cursor) =
      shiftResult distance (readAfter first cursor) := by
  simp only [readAfter, declaration_shiftCursor, skipStatement_shiftCursor,
    functionAfter_shiftCursor]
  rcases Qualifier.ofKeyword? first with _ | qualifier
  · by_cases hprecision : first = precisionKeyword
    · simp only [if_pos hprecision]
      rcases skipStatement cursor with error | after <;> rfl
    · simp only [if_neg hprecision]
      rcases functionAfter first cursor with error | ⟨read, after⟩ <;> rfl
  · rcases declaration cursor with error | ⟨read, after⟩ <;> rfl

theorem readAll_shiftCursor (distance : Nat) (cursor : Cursor) :
    readAll (shiftCursor distance cursor) =
      (readAll cursor).mapError (shiftError distance) := by
  fun_induction readAll cursor with
  | case1 cursor hend =>
      rw [readAll, token_shiftCursor, if_pos hend]
      rfl
  | case2 cursor hend error hread =>
      apply readAll_of_readAfter_eq_error
      · rwa [token_shiftCursor]
      · rw [token_shiftCursor, readAfter_shiftCursor, hread]
        rfl
  | case3 cursor hend item after hread ih =>
      have hshifted : readAll (shiftCursor distance cursor) =
          (readAll (shiftCursor distance after)).map (item :: ·) := by
        apply readAll_of_readAfter_eq_ok
        · rwa [token_shiftCursor]
        · rw [token_shiftCursor, readAfter_shiftCursor, hread]
          rfl
      rw [hshifted, ih]
      rcases readAll after with error | items <;> rfl

/-- A reader that takes `taken` off every text that begins with it, and gives `value` for it. -/
def TakesOff {α : Type} (read : Cursor → Except ShaderError (α × Cursor)) (taken : Text)
    (value : α) : Prop :=
  ∀ offset rest, read ⟨offset, taken ++ rest⟩ = .ok (value, ⟨offset + size taken, rest⟩)

theorem endsWord_append_of_ne_nil {s rest : Text} (hs : s ≠ []) (h : EndsWord (s ++ rest))
    (rest' : Text) : EndsWord (s ++ rest') := by
  intro c hc
  rw [List.head?_append_of_ne_nil s hs] at hc
  apply h
  rwa [List.head?_append_of_ne_nil s hs]

/-- A token is read together with the white space before it. Only a delimiter behind a word decides
where it ends. -/
theorem exists_taken_token (cursor : Cursor) (h : cursor.token.1 ≠ []) :
    ∃ taken, taken ≠ [] ∧ cursor.rest = taken ++ cursor.token.2.rest ∧
      (IsWord cursor.token.1 → EndsWord cursor.token.2.rest) ∧
      ∀ offset rest, (IsWord cursor.token.1 → EndsWord rest) →
        Cursor.token ⟨offset, taken ++ rest⟩ =
          (cursor.token.1, ⟨offset + size taken, rest⟩) := by
  rcases next_cases cursor.rest with ⟨-, hnext⟩ | ⟨lead, t, rest, hlead, ht, hrest, hsplit, hnext⟩
  · exact absurd (by simp [Cursor.token, hnext]) h
  · have htoken : cursor.token.1 = t := by simp [Cursor.token, hnext]
    have hafter : cursor.token.2.rest = rest := by
      simp [Cursor.token, Cursor.moveBehind, hnext]
    rw [htoken, hafter]
    refine ⟨lead ++ t, by simp [ht.ne_nil], hsplit, hrest, ?_⟩
    intro offset rest' hrest'
    rw [List.append_assoc, token_append_token offset rest' hlead ht hrest', size_append]

theorem exists_taken_terminator {cursor after : Cursor} (h : terminator cursor = .ok after) :
    ∃ taken, taken ≠ [] ∧ cursor.rest = taken ++ after.rest ∧
      ∀ offset rest, terminator ⟨offset, taken ++ rest⟩ = .ok ⟨offset + size taken, rest⟩ := by
  have hsemicolon := token_of_terminator h
  obtain ⟨taken, hne, hsplit, -, htoken⟩ :=
    exists_taken_token cursor (by simp [hsemicolon])
  rw [hsemicolon] at htoken
  rw [terminator, if_pos hsemicolon] at h
  cases h
  refine ⟨taken, hne, hsplit, ?_⟩
  intro offset rest
  rw [terminator, htoken offset rest (fun hword => absurd hword (by decide)), if_pos rfl]

theorem exists_taken_declaration {cursor after : Cursor} {read : Declaration}
    (h : declaration cursor = .ok (read, after)) :
    ∃ taken, taken ≠ [] ∧ cursor.rest = taken ++ after.rest ∧
      TakesOff declaration taken read := by
  have hwellFormed := wellFormed_of_declaration h
  simp only [declaration, bind, Except.bind, pure, Except.pure] at h
  rcases hterminator : terminator cursor.token.2.token.2 with error | afterSemicolon
  · simp [hterminator] at h
  simp only [hterminator, Except.ok.injEq, Prod.mk.injEq] at h
  obtain ⟨rfl, rfl⟩ := h
  obtain ⟨type, htypeNe, htypeSplit, htypeEnds, htype⟩ :=
    exists_taken_token cursor hwellFormed.type.ne_nil
  obtain ⟨name, hnameNe, hnameSplit, hnameEnds, hname⟩ :=
    exists_taken_token cursor.token.2 hwellFormed.name.ne_nil
  obtain ⟨mark, hmarkNe, hmarkSplit, hmark⟩ := exists_taken_terminator hterminator
  -- each piece begins with the delimiter that ends the token before it, so what follows is free
  rw [hmarkSplit] at hnameSplit hnameEnds
  rw [hnameSplit] at htypeSplit htypeEnds
  refine ⟨type ++ (name ++ mark), by simp [htypeNe], by simpa using htypeSplit, ?_⟩
  intro offset rest
  have htypeRest : IsWord cursor.token.1 → EndsWord (name ++ (mark ++ rest)) := fun hword =>
    endsWord_append_of_ne_nil hnameNe (htypeEnds hword) _
  have hnameRest : IsWord cursor.token.2.token.1 → EndsWord (mark ++ rest) := fun hword =>
    endsWord_append_of_ne_nil hmarkNe (hnameEnds hword) _
  simp only [declaration, List.append_assoc, htype _ _ htypeRest, hname _ _ hnameRest, hmark,
    bind, Except.bind, pure, Except.pure, size_append, Nat.add_assoc]

theorem exists_taken_skipStatement {cursor after : Cursor} (h : skipStatement cursor = .ok after) :
    ∃ taken, taken ≠ [] ∧ cursor.rest = taken ++ after.rest ∧
      ∀ offset rest, skipStatement ⟨offset, taken ++ rest⟩ =
        .ok ⟨offset + size taken, rest⟩ := by
  fun_induction skipStatement cursor with
  | case1 cursor hsemicolon =>
      cases h
      obtain ⟨taken, hne, hsplit, -, htoken⟩ :=
        exists_taken_token cursor (by simp [hsemicolon])
      rw [hsemicolon] at htoken
      refine ⟨taken, hne, hsplit, ?_⟩
      intro offset rest
      rw [skipStatement, htoken offset rest (fun hword => absurd hword (by decide)), if_pos rfl]
  | case2 => cases h
  | case3 cursor hsemicolon hend ih =>
      obtain ⟨statement, hstatementNe, hstatementSplit, hstatement⟩ := ih h
      obtain ⟨word, hwordNe, hwordSplit, hwordEnds, hword⟩ := exists_taken_token cursor hend
      rw [hstatementSplit] at hwordSplit hwordEnds
      refine ⟨word ++ statement, by simp [hwordNe], by simpa using hwordSplit, ?_⟩
      intro offset rest
      have hwordRest : IsWord cursor.token.1 → EndsWord (statement ++ rest) := fun hplain =>
        endsWord_append_of_ne_nil hstatementNe (hwordEnds hplain) _
      rw [skipStatement, List.append_assoc, hword _ _ hwordRest, if_neg hsemicolon, if_neg hend,
        hstatement, size_append, Nat.add_assoc]

theorem exists_taken_expect {cursor after : Cursor} {expected : Char} {opened : Unit}
    (hmark : IsMark expected) (h : cursor.expect expected = (.ok opened, after)) :
    ∃ taken, taken ≠ [] ∧ cursor.rest = taken ++ after.rest ∧
      ∀ offset rest, Cursor.expect expected ⟨offset, taken ++ rest⟩ =
        (.ok (), ⟨offset + size taken, rest⟩) := by
  have htoken := token_of_expect h
  obtain ⟨taken, hne, hsplit, -, hread⟩ :=
    exists_taken_token cursor (by simp [htoken])
  rw [htoken] at hread
  simp only [Cursor.expect, Prod.mk.injEq] at h
  obtain ⟨-, rfl⟩ := h
  refine ⟨taken, hne, hsplit, ?_⟩
  intro offset rest
  have hmarkRest : IsWord [expected] → EndsWord rest := by
    intro hword
    exact absurd hmark.delimiter (by simp [hword.plain expected (by simp)])
  simp only [Cursor.expect, hread offset rest hmarkRest, if_true]

theorem exists_taken_parameters {cursor after : Cursor} {parameters : Text}
    (h : cursor.parameters = (.ok parameters, after)) :
    ∃ taken, cursor.rest = taken ++ after.rest ∧
      ∀ offset rest, Cursor.parameters ⟨offset, taken ++ rest⟩ =
        (.ok parameters, ⟨offset + size taken, rest⟩) := by
  have hclosed := not_mem_of_parameters h
  unfold Cursor.parameters at h
  split at h
  · rename_i inside rest hsplit
    cases h
    have happend : trimStart cursor.rest = parameters ++ ')' :: rest :=
      ((splitParameters?_eq_some_iff ..).mp hsplit).1
    have hblank := blank_takeWhile cursor.rest
    have hinside : trimStart (cursor.rest.takeWhile isWhite ++ parameters) = parameters := by
      apply trimStart_append hblank
      intro c hc
      apply not_white_head_trimStart cursor.rest
      rw [happend]
      exact List.mem_head?_append_of_mem_head? hc
    have hunclosed : ')' ∉ cursor.rest.takeWhile isWhite ++ parameters := by
      have hwhite : isWhite ')' ≠ true := by decide
      simpa [hclosed] using fun h => hwhite (hblank _ h)
    refine ⟨cursor.rest.takeWhile isWhite ++ parameters ++ [')'], ?_, ?_⟩
    · have hsplit := takeWhile_append_trimStart cursor.rest
      rw [happend] at hsplit
      rw [List.append_assoc, List.append_assoc]
      exact hsplit.symm
    · intro offset rest'
      rw [List.append_assoc _ [')'], parameters_append offset hunclosed, hinside,
        size_append _ [')']]
  · cases h

theorem exists_taken_block {cursor after : Cursor} {body : Text}
    (h : cursor.block = (.ok body, after)) :
    ∃ taken, cursor.rest = taken ++ after.rest ∧
      ∀ offset rest, Cursor.block ⟨offset, taken ++ rest⟩ =
        (.ok body, ⟨offset + size taken, rest⟩) := by
  have hbalanced := balanced_of_block h
  unfold Cursor.block at h
  split at h
  · rename_i inside rest hsplit
    cases h
    obtain ⟨happend, -⟩ := (splitBlock?_eq_some_iff ..).mp hsplit
    refine ⟨body ++ ['}'], ?_, ?_⟩
    · rw [List.append_assoc]
      exact happend
    intro offset rest'
    rw [List.append_assoc, block_append offset hbalanced, size_append]
  · cases h

theorem exists_taken_functionAfter {returnType : Text} {cursor after : Cursor} {read : Function}
    (h : functionAfter returnType cursor = .ok (read, after)) :
    ∃ taken, taken ≠ [] ∧ cursor.rest = taken ++ after.rest ∧
      TakesOff (functionAfter returnType) taken read := by
  obtain ⟨afterOpen, parameters, afterParameters, afterBrace, body, hopen, hparameters, hbrace,
    hblock, rfl⟩ := exists_of_functionAfter_eq_ok h
  have hname : cursor.token.1 ≠ [] := by
    apply token_ne_nil_of_token
    rw [token_of_expect hopen]
    simp
  obtain ⟨name, hnameNe, hnameSplit, hnameEnds, hname⟩ := exists_taken_token cursor hname
  obtain ⟨mark, hmarkNe, hmarkSplit, hmark⟩ := exists_taken_expect isMark_parenthesis hopen
  obtain ⟨inside, hinsideSplit, hinside⟩ := exists_taken_parameters hparameters
  obtain ⟨brace, -, hbraceSplit, hbrace⟩ := exists_taken_expect isMark_brace hbrace
  obtain ⟨rest, hrestSplit, hrest⟩ := exists_taken_block hblock
  rw [hmarkSplit] at hnameSplit hnameEnds
  refine ⟨name ++ (mark ++ (inside ++ (brace ++ rest))), by simp [hnameNe], ?_, ?_⟩
  · simp only [hnameSplit, hinsideSplit, hbraceSplit, hrestSplit, List.append_assoc]
  · intro offset rest'
    have hnameRest : IsWord cursor.token.1 →
        EndsWord (mark ++ (inside ++ (brace ++ (rest ++ rest')))) := fun hword =>
      endsWord_append_of_ne_nil hmarkNe (hnameEnds hword) _
    simp only [functionAfter, List.append_assoc, hname _ _ hnameRest, hmark, hinside, hbrace,
      hrest, bind, Except.bind, pure, Except.pure, size_append, Nat.add_assoc]

/-- An item that can be read is read off every text that begins as it does: no reader looks at what
follows the item. -/
theorem exists_taken_readAfter {first : Text} {cursor after : Cursor} {item : Item}
    (h : readAfter first cursor = .ok (item, after)) :
    ∃ taken, taken ≠ [] ∧ cursor.rest = taken ++ after.rest ∧
      TakesOff (readAfter first) taken item := by
  unfold readAfter at h
  split at h
  · rename_i qualifier hkeyword
    obtain ⟨⟨read, after'⟩, hread, hsame⟩ := exists_of_map_eq_ok h
    cases hsame
    obtain ⟨taken, hne, hsplit, htaken⟩ := exists_taken_declaration hread
    refine ⟨taken, hne, hsplit, ?_⟩
    intro offset rest
    rw [readAfter, hkeyword, htaken offset rest]
    rfl
  · rename_i hkeyword
    split at h
    · rename_i hprecision
      obtain ⟨after', hread, hsame⟩ := exists_of_map_eq_ok h
      cases hsame
      obtain ⟨taken, hne, hsplit, htaken⟩ := exists_taken_skipStatement hread
      refine ⟨taken, hne, hsplit, ?_⟩
      intro offset rest
      rw [readAfter, hkeyword, if_pos hprecision, htaken offset rest]
      rfl
    · rename_i hprecision
      obtain ⟨⟨read, after'⟩, hread, hsame⟩ := exists_of_map_eq_ok h
      cases hsame
      obtain ⟨taken, hne, hsplit, htaken⟩ := exists_taken_functionAfter hread
      refine ⟨taken, hne, hsplit, ?_⟩
      intro offset rest
      rw [readAfter, hkeyword, if_neg hprecision, htaken offset rest]
      rfl

theorem readAll_congr {cursor cursor' : Cursor} (h : cursor.token = cursor'.token) :
    readAll cursor = readAll cursor' := by
  by_cases hend : cursor.token.1 = []
  · have hend' : cursor'.token.1 = [] := h ▸ hend
    rw [readAll, if_pos hend, readAll, if_pos hend']
  · have hend' : cursor'.token.1 ≠ [] := h ▸ hend
    rcases hread : readAfter cursor.token.1 cursor.token.2 with error | ⟨item, after⟩
    · rw [readAll_of_readAfter_eq_error hend hread]
      rw [h] at hread
      rw [readAll_of_readAfter_eq_error hend' hread]
    · rw [readAll_of_readAfter_eq_ok hend hread]
      rw [h] at hread
      rw [readAll_of_readAfter_eq_ok hend' hread]

theorem readAll_blank_append (offset : Nat) {lead : Text} (hlead : Blank lead) (rest : Text) :
    readAll ⟨offset, lead ++ rest⟩ = readAll ⟨offset + size lead, rest⟩ := by
  rcases next_cases rest with ⟨hblank, -⟩ | ⟨lead', t, tail, hlead', ht, htail, rfl, -⟩
  · rw [readAll_of_blank _ hblank, readAll_of_blank _ ((blank_append_iff ..).mpr ⟨hlead, hblank⟩)]
  · apply readAll_congr
    have hblank : Blank (lead ++ lead') := (blank_append_iff ..).mpr ⟨hlead, hlead'⟩
    rw [List.append_assoc, ← List.append_assoc, token_append_token _ _ hblank ht htail,
      token_append_token _ _ hlead' ht htail, size_append]
    simp only [Nat.add_assoc]

theorem blank_of_token_eq_nil {cursor : Cursor} (h : cursor.token.1 = []) : Blank cursor.rest := by
  rcases next_cases cursor.rest with ⟨hblank, -⟩ | ⟨lead, t, rest, -, ht, -, -, hnext⟩
  · exact hblank
  · exact absurd (by simpa [Cursor.token, hnext] using h) ht.ne_nil

theorem readAll_append {cursor : Cursor} {items : List Item} (h : readAll cursor = .ok items)
    (offset : Nat) (rest : Text) :
    readAll ⟨offset, cursor.rest ++ rest⟩ =
      (readAll ⟨offset + size cursor.rest, rest⟩).map (items ++ ·) := by
  fun_induction readAll cursor generalizing items offset with
  | case1 cursor hend =>
      cases h
      rw [readAll_blank_append offset (blank_of_token_eq_nil hend)]
      rcases readAll _ with error | items <;> rfl
  | case2 => cases h
  | case3 cursor hend item after hread ih =>
      obtain ⟨later, hlater, rfl⟩ := exists_of_map_eq_ok h
      obtain ⟨first, -, hfirstSplit, hfirstEnds, hfirst⟩ := exists_taken_token cursor hend
      obtain ⟨taken, hne, hsplit, htaken⟩ := exists_taken_readAfter hread
      rw [hsplit] at hfirstSplit hfirstEnds
      have hfirstRest : IsWord cursor.token.1 → EndsWord (taken ++ (after.rest ++ rest)) :=
        fun hword => endsWord_append_of_ne_nil hne (hfirstEnds hword) _
      have hstep : readAll ⟨offset, first ++ (taken ++ (after.rest ++ rest))⟩ =
          (readAll ⟨offset + size first + size taken, after.rest ++ rest⟩).map (item :: ·) := by
        apply readAll_of_readAfter_eq_ok
        · rwa [hfirst _ _ hfirstRest]
        · rw [hfirst _ _ hfirstRest]
          exact htaken _ _
      simp only [hfirstSplit, List.append_assoc, size_append, hstep, ih hlater, Nat.add_assoc]
      rcases readAll _ with error | behind <;> rfl

/-- A source behind another that can be read is read on its own: its declarations and functions
follow those of the first, and its error, if it has one, stands as much further on as the first is
long. -/
theorem read_append (stage : Stage) {front : Text} {shader : Shader}
    (h : Shader.read stage front = .ok shader) (back : Text) :
    Shader.read stage (front ++ back) =
      match Shader.read stage back with
      | .ok later => .ok {
          stage := stage
          attributes := shader.attributes ++ later.attributes
          uniforms := shader.uniforms ++ later.uniforms
          varyings := shader.varyings ++ later.varyings
          functions := shader.functions ++ later.functions }
      | .error error => .error (shiftError (size front) error) := by
  obtain ⟨items, hitems, rfl⟩ := exists_of_map_eq_ok h
  have happend : readAll (Cursor.start (front ++ back)) =
      (readAll (shiftCursor (size front) (Cursor.start back))).map (items ++ ·) :=
    readAll_append hitems 0 back
  rw [Shader.read, Shader.read, happend, readAll_shiftCursor]
  rcases readAll (Cursor.start back) with error | later
  · rfl
  · simp only [Except.mapError, Except.map, Shader.ofItems, List.filterMap_append]

theorem read_append_varyings :
    let front := "attribute int a;float f(int b)\x7b\x7b;\x7d\x7d".toList
    let back := "varying int c;void main()\x7b\x7d".toList
    let broken := "varying int b c".toList
    let function : Function :=
      ⟨"f".toList, "float".toList, "int b".toList, "\x7b;\x7d".toList⟩
    let entry : Function := ⟨"main".toList, "void".toList, [], []⟩
    Shader.read .vertex front =
        .ok ⟨.vertex, [⟨"int".toList, "a".toList⟩], [], [], [function]⟩ ∧
      Shader.read .vertex (front ++ back) = .ok ⟨.vertex, [⟨"int".toList, "a".toList⟩], [],
        [⟨"int".toList, "c".toList⟩], [function, entry]⟩ ∧
      Shader.read .vertex (front ++ broken) = .error (.unterminated "c".toList 48) := by
  intro front back broken function entry
  have hfront : Shader.read .vertex front =
      .ok ⟨.vertex, [⟨"int".toList, "a".toList⟩], [], [], [function]⟩ := by
    decide +kernel
  have hback : Shader.read .vertex back =
      .ok ⟨.vertex, [], [], [⟨"int".toList, "c".toList⟩], [entry]⟩ := by
    decide +kernel
  have hbroken : Shader.read .vertex broken = .error (.unterminated "c".toList 13) := by
    decide +kernel
  refine ⟨hfront, ?_, ?_⟩
  · rw [read_append .vertex hfront, hback]
    rfl
  · rw [read_append .vertex hfront, hbroken]
    rfl

end CgShader.Proofs.ItemLocality
