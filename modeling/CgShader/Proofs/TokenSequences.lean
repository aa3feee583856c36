import CgShader.Proofs.TokenReading

namespace CgShader.Proofs.TokenSequences

open CgShader.Text
open CgShader.Token
open CgShader.Proofs.WhiteSpace
open CgShader.Proofs.TokenReading

/-- Reading tokens from the cursor until there is none gives these. -/
inductive Yields : Cursor → List Text → Prop
  | done {cursor : Cursor} (hnone : cursor.token?.1 = none) : Yields cursor []
  | more {cursor : Cursor} {t : Text} {ts : List Text} (hsome : cursor.token?.1 = some t)
      (hrest : Yields cursor.token?.2 ts) : Yields cursor (t :: ts)

/-- The texts in which a list of tokens is written: with white space around each, and so that a word
ends where its token does. -/
inductive LaidOut : List Text → Text → Prop
  | done {trail : Text} (htrail : Blank trail) : LaidOut [] trail
  | more {lead t rest : Text} {ts : List Text} (hlead : Blank lead) (ht : IsToken t)
      (hend : IsWord t → EndsWord rest) (hrest : LaidOut ts rest) :
      LaidOut (t :: ts) (lead ++ t ++ rest)

theorem tokens_of_blank {s : Text} (hs : Blank s) : tokens s = [] := by
  rw [tokens, next_of_blank hs]
  simp

theorem tokens_of_next {s t rest : Text} (hnext : next s = (t, rest)) (ht : t ≠ []) :
    tokens s = t :: tokens rest := by
  rw [tokens, hnext]
  simp [ht]

theorem laidOut_tokens (s : Text) : LaidOut (tokens s) s := by
  rcases next_cases s with ⟨hblank, -⟩ | ⟨lead, t, rest, hlead, ht, hend, hsplit, hnext⟩
  · rw [tokens_of_blank hblank]
    exact .done hblank
  · have hrest := laidOut_tokens rest
    rw [tokens_of_next hnext ht.ne_nil, hsplit]
    exact .more hlead ht hend hrest
termination_by s.length
decreasing_by
  have hlength := length_next_lt s (by rw [hnext]; exact ht.ne_nil)
  rwa [hnext] at hlength

theorem LaidOut.tokens_eq {ts : List Text} {s : Text} (h : LaidOut ts s) : tokens s = ts := by
  induction h with
  | done htrail => exact tokens_of_blank htrail
  | more hlead ht hend hrest ih =>
      rw [tokens_of_next (next_append_token hlead ht hend) ht.ne_nil, ih]

theorem LaidOut.isToken {ts : List Text} {s : Text} (h : LaidOut ts s) : ∀ t ∈ ts, IsToken t := by
  induction h with
  | done => simp
  | more hlead ht hend hrest ih => simpa using ⟨ht, ih⟩

theorem LaidOut.exists_gaps {ts : List Text} {s : Text} (h : LaidOut ts s) :
    ∃ (gaps : List Text) (trail : Text), gaps.length = ts.length ∧ (∀ gap ∈ gaps, Blank gap) ∧
      Blank trail ∧ s = (List.zipWith (· ++ ·) gaps ts).flatten ++ trail := by
  induction h with
  | done htrail => exact ⟨[], _, rfl, by simp, htrail, rfl⟩
  | @more lead t rest ts hlead ht hend hrest ih =>
      obtain ⟨gaps, trail, hlength, hgaps, htrail, hsplit⟩ := ih
      refine ⟨lead :: gaps, trail, by simp [hlength], by simpa using ⟨hlead, hgaps⟩, htrail, ?_⟩
      rw [hsplit]
      simp

theorem LaidOut.blank_append {ts : List Text} {s lead : Text} (h : LaidOut ts s)
    (hlead : Blank lead) : LaidOut ts (lead ++ s) := by
  rcases h with htrail | ⟨hblank, ht, hend, hrest⟩
  · exact .done ((blank_append_iff ..).mpr ⟨hlead, htrail⟩)
  · rw [← List.append_assoc, ← List.append_assoc]
    exact .more ((blank_append_iff ..).mpr ⟨hlead, hblank⟩) ht hend hrest

theorem laidOut_intercalate {ts : List Text} (hts : ∀ t ∈ ts, IsToken t) :
    LaidOut ts ([' '].intercalate ts) := by
  induction ts with
  | nil => exact .done blank_nil
  | cons t ts ih =>
      rw [List.forall_mem_cons] at hts
      rcases ts with _ | ⟨t', ts⟩
      · simpa using LaidOut.more blank_nil hts.1 (by simp [EndsWord]) (.done blank_nil)
      · have hspace : LaidOut (t' :: ts) ([' '] ++ [' '].intercalate (t' :: ts)) :=
          (ih hts.2).blank_append (by decide)
        rw [List.intercalate_cons_cons, List.append_assoc]
        refine .more blank_nil hts.1 ?_ hspace
        intro _ c hc
        obtain rfl : ' ' = c := by simpa using hc
        decide

theorem tokens_intercalate {ts : List Text} (hts : ∀ t ∈ ts, IsToken t) :
    tokens ([' '].intercalate ts) = ts :=
  (laidOut_intercalate hts).tokens_eq

theorem yields_tokens (cursor : Cursor) : Yields cursor (tokens cursor.rest) := by
  rcases htoken : (next cursor.rest).1 with _ | ⟨c, t⟩
  · have hnone : cursor.token?.1 = none := by simp [Cursor.token?, Cursor.token, htoken]
    rw [tokens, if_pos htoken]
    exact .done hnone
  · have hsome : cursor.token?.1 = some (c :: t) := by
      simp [Cursor.token?, Cursor.token, htoken]
    have hrest := yields_tokens cursor.token?.2
    rw [tokens, if_neg (by simp [htoken]), htoken]
    exact .more hsome hrest
termination_by cursor.rest.length
decreasing_by exact cursor.length_token_lt (by simp [Cursor.token, htoken])

theorem Yields.unique {cursor : Cursor} {ts us : List Text} (hts : Yields cursor ts)
    (hus : Yields cursor us) : ts = us := by
  induction hts generalizing us with
  | done hnone =>
      rcases hus with - | ⟨hsome, -⟩
      · rfl
      · simp [hnone] at hsome
  | more hsome hrest ih =>
      rcases hus with hnone | ⟨hsome', hrest'⟩
      · simp [hsome] at hnone
      · rw [hsome] at hsome'
        rw [Option.some.inj hsome', ih hrest']

/-- What a cursor yields from the start of a text are tokens, and the text is these tokens with
white space around them. Any list of tokens is what the text yields that joins them by spaces, and
so are the tokens of any text. -/
theorem yields_iff_and_tokens_intercalate :
    (∀ s : Text,
      (∀ ts, Yields (Cursor.start s) ts ↔ ts = tokens s) ∧
      (∀ t ∈ tokens s, IsToken t) ∧
      ∃ (gaps : List Text) (trail : Text), gaps.length = (tokens s).length ∧
        (∀ gap ∈ gaps, Blank gap) ∧ Blank trail ∧
        s = (List.zipWith (· ++ ·) gaps (tokens s)).flatten ++ trail) ∧
    (∀ ts : List Text, (∀ t ∈ ts, IsToken t) →
      Yields (Cursor.start ([' '].intercalate ts)) ts) ∧
    ∀ s : Text, tokens ([' '].intercalate (tokens s)) = tokens s := by
  refine ⟨?_, ?_, ?_⟩
  · intro s
    refine ⟨?_, (laidOut_tokens s).isToken, (laidOut_tokens s).exists_gaps⟩
    intro ts
    constructor
    · intro hts
      exact hts.unique (yields_tokens (Cursor.start s))
    · rintro rfl
      exact yields_tokens (Cursor.start s)
  · intro ts hts
    have hyields := yields_tokens (Cursor.start ([' '].intercalate ts))
    rwa [Cursor.start, tokens_intercalate hts] at hyields
  · intro s
    exact tokens_intercalate (laidOut_tokens s).isToken

theorem yields_iff_and_tokens_intercalate_mixed_white :
    let ts := ["a\tb".toList, "(".toList, "é=".toList, "-".toList, ";".toList]
    tokens "\ta\tb( \u00a0é=-\n;\u3000".toList = ts ∧ (∀ t ∈ ts, IsToken t) ∧
      [' '].intercalate ts = "a\tb ( é= - ;".toList ∧
      Yields (Cursor.start ([' '].intercalate ts)) ts := by
  intro ts
  have hts : ∀ t ∈ ts, IsToken t := by decide
  exact ⟨by decide +kernel, hts, by decide, yields_iff_and_tokens_intercalate.2.1 ts hts⟩

end CgShader.Proofs.TokenSequences
