import CgShader.Proofs.ItemLocality

namespace CgShader.Proofs.AddedSpace

open CgShader.Text
open CgShader.Item
open CgShader.Token
open CgShader.Bracket
open CgShader.Proofs.WhiteSpace
open CgShader.Proofs.TokenReading
open CgShader.Proofs.ItemGrammar
open CgShader.Proofs.ItemLocality

def unplaced : ShaderError → ShaderError
  | .unterminated found _ => .unterminated found 0
  | .mismatched expected found _ => .mismatched expected found 0
  | .openParameters _ => .openParameters 0
  | .openBlock _ => .openBlock 0
  | .noEntryPoint => .noEntryPoint
  | .matrixNamesTooLong names reason => .matrixNamesTooLong names reason

theorem unplaced_shiftError (distance : Nat) (error : ShaderError) :
    unplaced (shiftError distance error) = unplaced error := by
  cases error <;> rfl

/-- Two texts between which no word runs on. -/
def Apart (before behind : Text) : Prop :=
  (∀ c ∈ before.getLast?, isDelimiter c = true) ∨ EndsWord behind

theorem Apart.of_append (front : Text) {before behind : Text} (h : Apart (front ++ before) behind) :
    Apart before behind := by
  refine h.imp_left fun hlast c hc => ?_
  apply hlast
  rw [List.getLast?_append]
  simp [Option.mem_def.mp hc]

def Spaced (s spaced : Text) : Prop :=
  ∃ front back, s = front ++ back ∧ spaced = front ++ ' ' :: back

/-- `spaced` is the text `s` with one more space, which cuts no word. -/
inductive SpacedApart : Text → Text → Prop
  | intro {before behind : Text} (hapart : Apart before behind) :
      SpacedApart (before ++ behind) (before ++ ' ' :: behind)

/-- Whether a space is still to come where two readers stand, or their texts are the same. -/
def Near : Bool → Cursor → Cursor → Prop
  | true, cursor, cursor' => SpacedApart cursor.rest cursor'.rest
  | false, cursor, cursor' => cursor.rest = cursor'.rest

/-- The results of two readers that stand near each other. Both fail alike, or both give the same
value and still stand so, or the space has been read and their values are related by `ρ`. -/
inductive Similar {α : Type} (ahead : Bool) (ρ : α → α → Prop) :
    Except ShaderError (α × Cursor) → Except ShaderError (α × Cursor) → Prop
  | failed {error error' : ShaderError} (herror : unplaced error = unplaced error') :
      Similar ahead ρ (.error error) (.error error')
  | kept {value : α} {after after' : Cursor} (hnear : Near ahead after after') :
      Similar ahead ρ (.ok (value, after)) (.ok (value, after'))
  | passed {value value' : α} {after after' : Cursor} (hahead : ahead = true)
      (hvalue : ρ value value') (hrest : after.rest = after'.rest) :
      Similar ahead ρ (.ok (value, after)) (.ok (value', after'))

theorem Similar.bind {α β : Type} {ahead ahead' : Bool} {ρ : α → α → Prop} {σ : β → β → Prop}
    {result result' : Except ShaderError (α × Cursor)}
    {next next' : α × Cursor → Except ShaderError (β × Cursor)}
    (h : Similar ahead ρ result result')
    (hkept : ∀ value after after', Near ahead after after' →
      Similar ahead' σ (next (value, after)) (next' (value, after')))
    (hpassed : ahead = true → ∀ value value' after after', ρ value value' →
      after.rest = after'.rest → Similar ahead' σ (next (value, after)) (next' (value', after'))) :
    Similar ahead' σ (result >>= next) (result' >>= next') := by
  cases h with
  | failed herror => exact .failed herror
  | kept hnear => exact hkept _ _ _ hnear
  | passed hahead hvalue hrest => exact hpassed hahead _ _ _ _ hvalue hrest

theorem endsWord_space (s : Text) : EndsWord (' ' :: s) := by
  intro c hc
  obtain rfl : ' ' = c := by simpa using hc
  decide

theorem Similar.of_false {α : Type} {ρ : α → α → Prop} (hρ : ∀ value, ρ value value) (ahead : Bool)
    {result result' : Except ShaderError (α × Cursor)} (h : Similar false ρ result result') :
    Similar ahead ρ result result' := by
  cases ahead with
  | false => exact h
  | true =>
      cases h with
      | failed herror => exact .failed herror
      | kept hnear => exact .passed rfl (hρ _) hnear
      | passed hahead => cases hahead

theorem Similar.bind_eq {α β : Type} {ahead : Bool} {σ : β → β → Prop} (hσ : ∀ value, σ value value)
    {result result' : Except ShaderError (α × Cursor)}
    {next next' : α × Cursor → Except ShaderError (β × Cursor)}
    (h : Similar ahead Eq result result')
    (hnext : ∀ ahead' value after after', Near ahead' after after' →
      Similar ahead' σ (next (value, after)) (next' (value, after'))) :
    Similar ahead σ (result >>= next) (result' >>= next') := by
  refine h.bind (hnext ahead) ?_
  rintro - value _ after after' rfl hrest
  exact (hnext false value after after' hrest).of_false hσ ahead

theorem Similar.map {α β : Type} {ahead : Bool} {ρ : α → α → Prop} {σ : β → β → Prop} (f : α → β)
    (hf : ∀ value value', ρ value value' → σ (f value) (f value'))
    {result result' : Except ShaderError (α × Cursor)} (h : Similar ahead ρ result result') :
    Similar ahead σ (result.map (Prod.map f id)) (result'.map (Prod.map f id)) := by
  cases h with
  | failed herror => exact .failed herror
  | kept hnear => exact .kept hnear
  | passed hahead hvalue hrest => exact .passed hahead (hf _ _ hvalue) hrest

theorem next_spaced {s spaced : Text} (h : SpacedApart s spaced) :
    (next s).1 = (next spaced).1 ∧
      (SpacedApart (next s).2 (next spaced).2 ∨ (next s).2 = (next spaced).2) := by
  obtain @⟨before, behind, hapart⟩ := h
  rcases next_cases before with ⟨hblank, -⟩ | ⟨lead, t, rest, hlead, ht, hrest, rfl, -⟩
  · have htrim : trimStart (before ++ ' ' :: behind) = trimStart (before ++ behind) := by
      rw [trimStart_append_of_blank hblank, trimStart_append_of_blank hblank]
      rfl
    have hnext : next (before ++ ' ' :: behind) = next (before ++ behind) := by
      rw [next, htrim, next]
    rw [hnext]
    exact ⟨rfl, .inr rfl⟩
  · -- a word that ends where the space is added is ended there by a delimiter behind it
    have hbehind : IsWord t → EndsWord (rest ++ behind) := by
      intro hword
      rcases rest with _ | ⟨c, rest⟩
      · refine hapart.resolve_left fun hlast => ?_
        obtain ⟨front, c, rfl⟩ := List.eq_nil_or_concat t |>.resolve_left hword.nonempty
        have hdelimiter := hlast c (by simp)
        rw [hword.plain c (by simp)] at hdelimiter
        cases hdelimiter
      · exact hrest hword
    have hspace : IsWord t → EndsWord (rest ++ ' ' :: behind) := by
      intro hword
      rcases rest with _ | ⟨c, rest⟩
      · exact endsWord_space behind
      · exact hrest hword
    rw [List.append_assoc (lead ++ t), List.append_assoc (lead ++ t),
      next_append_token hlead ht hbehind, next_append_token hlead ht hspace]
    exact ⟨rfl, .inl (.intro (.of_append (lead ++ t) hapart))⟩

theorem token_near {ahead : Bool} {cursor cursor' : Cursor} (h : Near ahead cursor cursor') :
    cursor.token.1 = cursor'.token.1 ∧
      (Near ahead cursor.token.2 cursor'.token.2 ∨
        ahead = true ∧ cursor.token.2.rest = cursor'.token.2.rest) := by
  cases ahead with
  | false =>
      have hrest : cursor.rest = cursor'.rest := h
      exact ⟨congrArg (fun rest => (next rest).1) hrest,
        .inl (congrArg (fun rest => (next rest).2) hrest)⟩
  | true =>
      obtain ⟨hsame, hspaced | hpassed⟩ := next_spaced h
      · exact ⟨hsame, .inl hspaced⟩
      · exact ⟨hsame, .inr ⟨rfl, hpassed⟩⟩

theorem similar_of_near_or_rest_eq {α : Type} {ahead : Bool} (value : α) {after after' : Cursor}
    (h : Near ahead after after' ∨ ahead = true ∧ after.rest = after'.rest) :
    Similar ahead Eq (.ok (value, after)) (.ok (value, after')) := by
  rcases h with hnear | ⟨hahead, hrest⟩
  · exact .kept hnear
  · exact .passed hahead rfl hrest

theorem similar_token {ahead : Bool} {cursor cursor' : Cursor} (h : Near ahead cursor cursor') :
    Similar ahead Eq (.ok cursor.token) (.ok cursor'.token) := by
  obtain ⟨hsame, hnear⟩ := token_near h
  have htoken := similar_of_near_or_rest_eq cursor.token.1 hnear
  nth_rewrite 2 [hsame] at htoken
  exact htoken

/-- A reader's answer and the cursor behind it, if the answer is no error. -/
def together {α : Type} (result : Except ShaderError α × Cursor) :
    Except ShaderError (α × Cursor) :=
  result.1.map (·, result.2)

theorem similar_expect {ahead : Bool} (expected : Char) {cursor cursor' : Cursor}
    (h : Near ahead cursor cursor') :
    Similar ahead Eq (together (cursor.expect expected)) (together (cursor'.expect expected)) := by
  obtain ⟨hsame, hnear⟩ := token_near h
  simp only [together, Cursor.expect, ← hsame]
  by_cases hexpected : cursor.token.1 = [expected]
  · simp only [if_pos hexpected]
    exact similar_of_near_or_rest_eq () hnear
  · simp only [if_neg hexpected]
    exact .failed rfl

theorem similar_terminator {ahead : Bool} {cursor cursor' : Cursor}
    (h : Near ahead cursor cursor') :
    Similar ahead Eq ((terminator cursor).map ((), ·)) ((terminator cursor').map ((), ·)) := by
  obtain ⟨hsame, hnear⟩ := token_near h
  simp only [terminator, ← hsame]
  by_cases hsemicolon : cursor.token.1 = [';']
  · simp only [if_pos hsemicolon]
    exact similar_of_near_or_rest_eq () hnear
  · simp only [if_neg hsemicolon]
    exact .failed rfl

/-- Two splits of texts that differ in a space: both fail, or both take the same and the space is
still to come, or the space is in what they take. -/
inductive SimilarSplit : Option (Text × Text) → Option (Text × Text) → Prop
  | failed : SimilarSplit none none
  | kept {taken rest rest' : Text} (hrest : SpacedApart rest rest') :
      SimilarSplit (some (taken, rest)) (some (taken, rest'))
  | passed {taken taken' rest : Text} (htaken : Spaced taken taken') :
      SimilarSplit (some (taken, rest)) (some (taken', rest))

theorem SimilarSplit.cons {split split' : Option (Text × Text)} (h : SimilarSplit split split')
    (c : Char) :
    SimilarSplit (split.map fun (taken, rest) => (c :: taken, rest))
      (split'.map fun (taken, rest) => (c :: taken, rest)) := by
  cases h with
  | failed => exact .failed
  | kept hrest => exact .kept hrest
  | passed htaken =>
      obtain ⟨front, back, rfl, rfl⟩ := htaken
      exact .passed ⟨c :: front, back, rfl, rfl⟩

theorem similarSplit_space (split : Option (Text × Text)) :
    SimilarSplit split (split.map fun (taken, rest) => (' ' :: taken, rest)) := by
  rcases split with _ | ⟨taken, rest⟩
  · exact .failed
  · exact .passed ⟨[], taken, rfl, rfl⟩

theorem splitParameters?_spaced {s spaced : Text} (h : SpacedApart s spaced) :
    SimilarSplit (splitParameters? s) (splitParameters? spaced) := by
  obtain @⟨before, behind, hapart⟩ := h
  induction before with
  | nil => exact similarSplit_space (splitParameters? behind)
  | cons c before ih =>
      have htail : Apart before behind := .of_append [c] hapart
      by_cases hc : c = ')'
      · subst hc
        exact .kept (.intro htail)
      · have hcons : ∀ rest, splitParameters? (c :: rest) =
            (splitParameters? rest).map fun (taken, rest) => (c :: taken, rest) := by
          intro rest
          rw [splitParameters?]
          exact hc
        rw [List.cons_append, List.cons_append, hcons, hcons]
        exact (ih htail).cons c

theorem splitBlock?_spaced (depth : Nat) {s spaced : Text} (h : SpacedApart s spaced) :
    SimilarSplit (splitBlock? depth s) (splitBlock? depth spaced) := by
  obtain @⟨before, behind, hapart⟩ := h
  induction before generalizing depth with
  | nil =>
      have hspace : splitBlock? depth (' ' :: behind) =
          (splitBlock? depth behind).map fun (taken, rest) => (' ' :: taken, rest) := by
        rw [splitBlock?] <;> simp
      rw [List.nil_append, List.nil_append, hspace]
      exact similarSplit_space (splitBlock? depth behind)
  | cons c before ih =>
      have htail : Apart before behind := .of_append [c] hapart
      by_cases hc : c = '}'
      · subst hc
        cases depth with
        | zero => exact .kept (.intro htail)
        | succ depth =>
            simp only [List.cons_append, splitBlock?]
            exact (ih depth htail).cons '}'
      · have hcons : ∀ rest, splitBlock? depth (c :: rest) =
            (splitBlock? (if c = '{' then depth + 1 else depth) rest).map
              fun (taken, rest) => (c :: taken, rest) := by
          intro rest
          rw [splitBlock?]
          · exact fun _ => hc
          · exact fun _ _ => hc
        rw [List.cons_append, List.cons_append, hcons, hcons]
        exact (ih _ htail).cons c

theorem trimStart_spaced {s spaced : Text} (h : SpacedApart s spaced) :
    SpacedApart (trimStart s) (trimStart spaced) ∨ trimStart s = trimStart spaced := by
  obtain @⟨before, behind, hapart⟩ := h
  by_cases hblank : Blank before
  · right
    rw [trimStart_append_of_blank hblank, trimStart_append_of_blank hblank]
    rfl
  · left
    rw [trimStart_append_of_not_blank hblank, trimStart_append_of_not_blank hblank]
    apply SpacedApart.intro
    apply Apart.of_append (before.takeWhile isWhite)
    rwa [takeWhile_append_trimStart]

def SameOrSpaced (s spaced : Text) : Prop := s = spaced ∨ Spaced s spaced

theorem similar_parameters {ahead : Bool} {cursor cursor' : Cursor}
    (h : Near ahead cursor cursor') :
    Similar ahead SameOrSpaced (together cursor.parameters) (together cursor'.parameters) := by
  cases ahead with
  | false =>
      have hrest : cursor.rest = cursor'.rest := h
      simp only [together, Cursor.parameters, Cursor.skipWhite, Cursor.moveBehind, hrest]
      rcases splitParameters? (trimStart cursor'.rest) with _ | ⟨taken, rest⟩
      · exact .failed rfl
      · exact .kept rfl
  | true =>
      simp only [together, Cursor.parameters, Cursor.skipWhite, Cursor.moveBehind]
      rcases trimStart_spaced h with hspaced | hsame
      · have hsplit := splitParameters?_spaced hspaced
        generalize splitParameters? (trimStart cursor.rest) = split at hsplit ⊢
        generalize splitParameters? (trimStart cursor'.rest) = split' at hsplit ⊢
        cases hsplit with
        | failed => exact .failed rfl
        | kept hrest => exact .kept hrest
        | passed htaken => exact .passed rfl (.inr htaken) rfl
      · rw [hsame]
        rcases splitParameters? (trimStart cursor'.rest) with _ | ⟨taken, rest⟩
        · exact .failed rfl
        · exact .passed rfl (.inl rfl) rfl

theorem similar_block {ahead : Bool} {cursor cursor' : Cursor} (h : Near ahead cursor cursor') :
    Similar ahead SameOrSpaced (together cursor.block) (together cursor'.block) := by
  cases ahead with
  | false =>
      have hrest : cursor.rest = cursor'.rest := h
      simp only [together, Cursor.block, hrest]
      rcases splitBlock? 0 cursor'.rest with _ | ⟨taken, rest⟩
      · exact .failed rfl
      · exact .kept rfl
  | true =>
      have hsplit := splitBlock?_spaced 0 h
      simp only [together, Cursor.block]
      generalize splitBlock? 0 cursor.rest = split at hsplit ⊢
      generalize splitBlock? 0 cursor'.rest = split' at hsplit ⊢
      cases hsplit with
      | failed => exact .failed rfl
      | kept hrest => exact .kept hrest
      | passed htaken => exact .passed rfl (.inr htaken) rfl

theorem trim_spaced {s spaced : Text} (h : SameOrSpaced s spaced) :
    SameOrSpaced (trim s) (trim spaced) := by
  rcases h with rfl | ⟨front, back, rfl, rfl⟩
  · exact .inl rfl
  · have hspace : Blank [' '] := by decide
    by_cases hfront : Blank front
    · left
      have htrim := trim_append_append hfront blank_nil back
      have htrim' := trim_append_append ((blank_append_iff front [' ']).mpr ⟨hfront, hspace⟩)
        blank_nil back
      simp only [List.append_nil, List.append_assoc, List.singleton_append] at htrim htrim'
      rw [htrim, htrim']
    · by_cases hback : Blank back
      · left
        have htrim := trim_append_append blank_nil hback front
        have htrim' := trim_append_append blank_nil ((blank_append_iff [' '] back).mpr
          ⟨hspace, hback⟩) front
        simp only [List.nil_append, List.singleton_append] at htrim htrim'
        rw [htrim, htrim']
      · right
        have hback' : ¬ Blank (' ' :: back) := fun h =>
          hback ((blank_append_iff [' '] back).mp h).2
        refine ⟨trimStart front, trimEnd back, ?_, ?_⟩
        · rw [trim, trimStart_append_of_not_blank hfront, trimEnd_append_of_not_blank _ hback]
        · rw [trim, trimStart_append_of_not_blank hfront, trimEnd_append_of_not_blank _ hback',
            trimEnd_cons_of_not_blank _ hback]

theorem declaration_eq_bind (cursor : Cursor) :
    declaration cursor =
      ((.ok cursor.token : Except ShaderError (Text × Cursor)) >>= fun type =>
        (.ok type.2.token : Except ShaderError (Text × Cursor)) >>= fun name =>
          (terminator name.2).map ((), ·) >>= fun mark => .ok (⟨type.1, name.1⟩, mark.2)) := by
  simp only [declaration, bind, Except.bind, pure, Except.pure]
  rcases terminator cursor.token.2.token.2 with error | after <;> rfl

theorem similar_declaration {ahead : Bool} {cursor cursor' : Cursor}
    (h : Near ahead cursor cursor') :
    Similar ahead Eq (declaration cursor) (declaration cursor') := by
  rw [declaration_eq_bind, declaration_eq_bind]
  refine (similar_token h).bind_eq (fun _ => rfl) fun _ type _ _ htype => ?_
  refine (similar_token htype).bind_eq (fun _ => rfl) fun _ name _ _ hname => ?_
  refine (similar_terminator hname).bind_eq (fun _ => rfl) fun _ _ _ _ hmark => ?_
  exact .kept hmark

theorem similar_skipStatement {ahead : Bool} {cursor cursor' : Cursor}
    (h : Near ahead cursor cursor') :
    Similar ahead Eq ((skipStatement cursor).map ((), ·))
      ((skipStatement cursor').map ((), ·)) := by
  obtain ⟨hsame, hnear⟩ := token_near h
  fun_induction skipStatement cursor generalizing cursor' ahead with
  | case1 cursor hsemicolon =>
      rw [skipStatement, if_pos (hsame ▸ hsemicolon)]
      exact similar_of_near_or_rest_eq () hnear
  | case2 cursor hsemicolon hend =>
      rw [skipStatement, if_neg (hsame ▸ hsemicolon), if_pos (hsame ▸ hend)]
      exact .failed rfl
  | case3 cursor hsemicolon hend ih =>
      rw [skipStatement.eq_def cursor', if_neg (hsame ▸ hsemicolon), if_neg (hsame ▸ hend)]
      rcases hnear with hnear | ⟨-, hrest⟩
      · exact ih hnear (token_near hnear).1 (token_near hnear).2
      · have hnear : Near false cursor.token.2 cursor'.token.2 := hrest
        exact (ih hnear (token_near hnear).1 (token_near hnear).2).of_false (fun _ => rfl) ahead

def SpacedFunction (function spaced : Function) : Prop :=
  Spaced function.parameters spaced.parameters ∧
      spaced = { function with parameters := spaced.parameters } ∨
    Spaced function.body spaced.body ∧ spaced = { function with body := spaced.body }

theorem functionAfter_eq_bind (returnType : Text) (cursor : Cursor) :
    functionAfter returnType cursor =
      ((.ok cursor.token : Except ShaderError (Text × Cursor)) >>= fun name =>
        together (name.2.expect '(') >>= fun opened =>
          together opened.2.parameters >>= fun parameters =>
            together (parameters.2.expect '{') >>= fun brace =>
              together brace.2.block >>= fun body =>
                .ok (⟨name.1, returnType, trim parameters.1, body.1⟩, body.2)) := by
  simp only [functionAfter, together, bind, Except.bind, pure, Except.pure]
  rcases cursor.token.2.expect '(' with ⟨error | opened, afterOpen⟩
  · rfl
  dsimp only [Except.map]
  rcases afterOpen.parameters with ⟨error | parameters, afterParameters⟩
  · rfl
  dsimp only [Except.map]
  rcases afterParameters.expect '{' with ⟨error | blockOpened, afterBrace⟩
  · rfl
  dsimp only [Except.map]
  rcases afterBrace.block with ⟨error | body, afterBlock⟩ <;> rfl

theorem similar_functionAfter {ahead : Bool} (returnType : Text) {cursor cursor' : Cursor}
    (h : Near ahead cursor cursor') :
    Similar ahead (fun function spaced => function = spaced ∨ SpacedFunction function spaced)
      (functionAfter returnType cursor) (functionAfter returnType cursor') := by
  rw [functionAfter_eq_bind, functionAfter_eq_bind]
  refine (similar_token h).bind_eq (fun _ => .inl rfl) fun _ name _ _ hname => ?_
  refine (similar_expect '(' hname).bind_eq (fun _ => .inl rfl) fun _ _ _ _ hopen => ?_
  refine (similar_parameters hopen).bind ?_ ?_
  · intro parameters _ _ hparameters
    refine (similar_expect '{' hparameters).bind_eq (fun _ => .inl rfl) fun _ _ _ _ hbrace => ?_
    refine (similar_block hbrace).bind (fun _ _ _ hblock => .kept hblock) ?_
    rintro rfl body body' _ _ hbody hrest
    refine .passed rfl (hbody.imp (fun hsame => ?_) fun hspaced => .inr ⟨hspaced, rfl⟩) hrest
    rw [hsame]
  · -- the space is in the parameters, so everything behind them is read alike
    rintro rfl parameters parameters' after after' hparameters hrest
    have hnear : Near false after after' := hrest
    refine (similar_expect '{' hnear).bind (fun _ _ _ hbrace => ?_) (fun hahead => nomatch hahead)
    refine (similar_block hbrace).bind (fun body _ _ hblock => ?_) (fun hahead => nomatch hahead)
    refine .passed rfl ((trim_spaced hparameters).imp (fun hsame => ?_) fun hspaced =>
      .inl ⟨hspaced, rfl⟩) hblock
    rw [hsame]

/-- `spaced` is the item with one more space in the texts of its function. -/
inductive SpacedItem : Item → Item → Prop
  | defined {function spaced : Function} (h : SpacedFunction function spaced) :
      SpacedItem (.defined function) (.defined spaced)

theorem similar_readAfter {ahead : Bool} (first : Text) {cursor cursor' : Cursor}
    (h : Near ahead cursor cursor') :
    Similar ahead (fun item spaced => item = spaced ∨ SpacedItem item spaced)
      (readAfter first cursor) (readAfter first cursor') := by
  simp only [readAfter]
  rcases Qualifier.ofKeyword? first with _ | qualifier
  · by_cases hprecision : first = precisionKeyword
    · simp only [if_pos hprecision]
      have hmap : ∀ cursor, (skipStatement cursor).map (fun after => (Item.precision, after)) =
          ((skipStatement cursor).map ((), ·)).map (Prod.map (fun _ => Item.precision) id) := by
        intro cursor
        rcases skipStatement cursor with error | after <;> rfl
      rw [hmap, hmap]
      exact (similar_skipStatement h).map (fun _ => Item.precision) fun _ _ _ => .inl rfl
    · simp only [if_neg hprecision]
      refine (similar_functionAfter first h).map Item.defined fun function spaced hfunction => ?_
      exact hfunction.imp (congrArg Item.defined) .defined
  · refine (similar_declaration h).map (Item.declared qualifier) fun read read' hread => ?_
    exact .inl (congrArg _ hread)

theorem readAll_of_rest_eq {cursor cursor' : Cursor} (h : cursor.rest = cursor'.rest) :
    (readAll cursor).mapError unplaced = (readAll cursor').mapError unplaced := by
  have hstart : ∀ offset rest, (readAll ⟨offset, rest⟩).mapError unplaced =
      (readAll (Cursor.start rest)).mapError unplaced := by
    intro offset rest
    have hshift := readAll_shiftCursor offset (Cursor.start rest)
    simp only [shiftCursor, Cursor.start, Nat.zero_add] at hshift
    rw [hshift, Cursor.start]
    rcases readAll ⟨0, rest⟩ with error | items
    · exact congrArg Except.error (unplaced_shiftError offset error)
    · rfl
  obtain ⟨offset, rest⟩ := cursor
  obtain ⟨offset', rest'⟩ := cursor'
  obtain rfl : rest = rest' := h
  rw [hstart, hstart offset']

/-- Two readings of items that fail alike, or give the same items, or the same but for a space in
one function. -/
def SimilarItems (result result' : Except ShaderError (List Item)) : Prop :=
  result.mapError unplaced = result'.mapError unplaced ∨
    ∃ front item spaced back, SpacedItem item spaced ∧ result = .ok (front ++ item :: back) ∧
      result' = .ok (front ++ spaced :: back)

theorem mapError_map {α β : Type} (result : Except ShaderError α) (f : α → β) :
    (result.map f).mapError unplaced = (result.mapError unplaced).map f := by
  rcases result with error | value <;> rfl

theorem SimilarItems.cons {result result' : Except ShaderError (List Item)}
    (h : SimilarItems result result') (item : Item) :
    SimilarItems (result.map (item :: ·)) (result'.map (item :: ·)) := by
  rcases h with hsame | ⟨front, function, spaced, back, hspaced, rfl, rfl⟩
  · left
    rw [mapError_map, hsame, mapError_map]
  · exact .inr ⟨item :: front, function, spaced, back, hspaced, rfl, rfl⟩

theorem similarItems_spaced {item spaced : Item} (h : item = spaced ∨ SpacedItem item spaced)
    {result result' : Except ShaderError (List Item)}
    (hsame : result.mapError unplaced = result'.mapError unplaced) :
    SimilarItems (result.map (item :: ·)) (result'.map (spaced :: ·)) := by
  rcases h with rfl | hspaced
  · exact SimilarItems.cons (.inl hsame) item
  · rcases result with error | items <;> rcases result' with error' | items'
    · exact .inl hsame
    · cases hsame
    · cases hsame
    · obtain rfl : items = items' := Except.ok.inj hsame
      exact .inr ⟨[], item, spaced, items, hspaced, rfl, rfl⟩

theorem similar_item {cursor cursor' : Cursor} (h : Near true cursor cursor') :
    cursor.token.1 = cursor'.token.1 ∧
      ∃ ahead, Similar ahead (fun item spaced => item = spaced ∨ SpacedItem item spaced)
        (readAfter cursor.token.1 cursor.token.2) (readAfter cursor'.token.1 cursor'.token.2) := by
  obtain ⟨hsame, hnear⟩ := token_near h
  rw [← hsame]
  refine ⟨rfl, ?_⟩
  rcases hnear with hnear | ⟨-, hrest⟩
  · exact ⟨true, similar_readAfter _ hnear⟩
  · exact ⟨false, similar_readAfter _ hrest⟩

theorem readAll_spaced {cursor cursor' : Cursor} (h : Near true cursor cursor') :
    SimilarItems (readAll cursor) (readAll cursor') := by
  fun_induction readAll cursor generalizing cursor' with
  | case1 cursor hend =>
      have hend' : cursor'.token.1 = [] := (token_near h).1 ▸ hend
      rw [readAll, if_pos hend']
      exact .inl rfl
  | case2 cursor hend error hread =>
      obtain ⟨hsame, ahead, hitem⟩ := similar_item h
      have hend' : cursor'.token.1 ≠ [] := hsame ▸ hend
      rw [hread] at hitem
      generalize hread' : readAfter cursor'.token.1 cursor'.token.2 = result' at hitem
      cases hitem with
      | failed herror =>
          rw [readAll_of_readAfter_eq_error hend' hread']
          exact .inl (congrArg Except.error herror)
  | case3 cursor hend item after hread ih =>
      obtain ⟨hsame, ahead, hitem⟩ := similar_item h
      have hend' : cursor'.token.1 ≠ [] := hsame ▸ hend
      rw [hread] at hitem
      generalize hread' : readAfter cursor'.token.1 cursor'.token.2 = result' at hitem
      cases hitem with
      | kept hafter =>
          rw [readAll_of_readAfter_eq_ok hend' hread']
          cases ahead with
          | false => exact similarItems_spaced (.inl rfl) (readAll_of_rest_eq hafter)
          | true => exact (ih hafter).cons item
      | passed hahead hvalue hrest =>
          rw [readAll_of_readAfter_eq_ok hend' hread']
          exact similarItems_spaced hvalue (readAll_of_rest_eq hrest)

def SpacedShader (shader spaced : Shader) : Prop :=
  ∃ front function function' back, SpacedFunction function function' ∧
    shader.functions = front ++ function :: back ∧
    spaced = { shader with functions := front ++ function' :: back }

theorem read_of_readAll_eq (stage : Stage) {s s' : Text}
    (h : (readAll (Cursor.start s)).mapError unplaced =
      (readAll (Cursor.start s')).mapError unplaced) :
    (Shader.read stage s).mapError unplaced = (Shader.read stage s').mapError unplaced := by
  rw [Shader.read, Shader.read, mapError_map, h, mapError_map]

theorem read_spaced (stage : Stage) {s spaced : Text} (h : SpacedApart s spaced) :
    (Shader.read stage s).mapError unplaced = (Shader.read stage spaced).mapError unplaced ∨
      ∃ shader shader', SpacedShader shader shader' ∧ Shader.read stage s = .ok shader ∧
        Shader.read stage spaced = .ok shader' := by
  have hitems : SimilarItems (readAll (Cursor.start s)) (readAll (Cursor.start spaced)) :=
    readAll_spaced h
  refine hitems.imp (read_of_readAll_eq stage) ?_
  rintro ⟨front, _, _, back, @⟨function, function', hfunction⟩, hread, hread'⟩
  rw [Shader.read, Shader.read, hread, hread']
  refine ⟨_, _, ⟨front.filterMap function?, function, function', back.filterMap function?,
    hfunction, ?_, ?_⟩, rfl, rfl⟩
  · simp only [Shader.ofItems, List.filterMap_append]
    rfl
  · simp only [Shader.ofItems, List.filterMap_append]
    rfl

theorem read_space_cons (stage : Stage) (s : Text) :
    (Shader.read stage (' ' :: s)).mapError unplaced = (Shader.read stage s).mapError unplaced := by
  have hspace : Blank [' '] := by decide
  apply read_of_readAll_eq
  calc
    (readAll ⟨0, [' '] ++ s⟩).mapError unplaced =
        (readAll ⟨0 + size [' '], s⟩).mapError unplaced := by rw [readAll_blank_append 0 hspace]
    _ = (readAll (Cursor.start s)).mapError unplaced := readAll_of_rest_eq rfl

theorem read_append_space (stage : Stage) (s : Text) :
    (Shader.read stage (s ++ [' '])).mapError unplaced =
      (Shader.read stage s).mapError unplaced := by
  apply read_of_readAll_eq
  have hapart : Apart s [] := .inr (by simp [EndsWord])
  have hnear : Near true (Cursor.start s) (Cursor.start (s ++ [' '])) := by
    have hspaced := SpacedApart.intro hapart
    rwa [List.append_nil] at hspaced
  rcases readAll_spaced hnear with hsame | ⟨front, item, spaced, back, -, hread, -⟩
  · exact hsame.symm
  · -- a source that can be read is not read otherwise when a space follows it
    have hspace : readAll ⟨0 + size s, [' ']⟩ = .ok [] := readAll_of_blank _ (by decide)
    have hbehind : readAll (Cursor.start (s ++ [' '])) =
        (readAll ⟨0 + size s, [' ']⟩).map ((front ++ item :: back) ++ ·) :=
      readAll_append hread 0 [' ']
    rw [hbehind, hspace, hread, Except.map, List.append_nil]

end CgShader.Proofs.AddedSpace
