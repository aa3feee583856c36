import CgShader.Cursor
import CgShader.Proofs.WhiteSpace

namespace CgShader.Proofs.TokenReading

open CgShader.Text
open CgShader.Token
open CgShader.Proofs.TextRuns
open CgShader.Proofs.WhiteSpace

/-- A text without delimiters that does not begin with white space. -/
structure IsWord (t : Text) : Prop where
  nonempty : t ≠ []
  plain : ∀ c ∈ t, isDelimiter c = false
  start : ∀ c ∈ t.head?, isWhite c = false

instance (t : Text) : Decidable (IsWord t) :=
  decidable_of_iff
    (t ≠ [] ∧ (∀ c ∈ t, isDelimiter c = false) ∧ ∀ c ∈ t.head?, isWhite c = false)
    ⟨fun h => ⟨h.1, h.2.1, h.2.2⟩, fun h => ⟨h.nonempty, h.plain, h.start⟩⟩

structure IsMark (c : Char) : Prop where
  delimiter : isDelimiter c = true
  visible : c ≠ ' '

instance (c : Char) : Decidable (IsMark c) :=
  decidable_of_iff (isDelimiter c = true ∧ c ≠ ' ')
    ⟨fun h => ⟨h.1, h.2⟩, fun h => ⟨h.delimiter, h.visible⟩⟩

/-- What a reader of tokens can give: a word or a single mark. -/
inductive IsToken : Text → Prop
  | word {t : Text} (hword : IsWord t) : IsToken t
  | mark {c : Char} (hmark : IsMark c) : IsToken [c]

theorem isToken_iff (t : Text) : IsToken t ↔ IsWord t ∨ ∃ c ∈ t, t = [c] ∧ IsMark c := by
  constructor
  · rintro (hword | hmark)
    · exact .inl hword
    · exact .inr ⟨_, by simp, rfl, hmark⟩
  · rintro (hword | ⟨c, -, rfl, hmark⟩)
    · exact .word hword
    · exact .mark hmark

instance (t : Text) : Decidable (IsToken t) := decidable_of_iff _ (isToken_iff t).symm

/-- A text before which a word ends: it is empty or begins with a delimiter. -/
def EndsWord (s : Text) : Prop := ∀ c ∈ s.head?, isDelimiter c = true

theorem isWhite_of_isMark {c : Char} (hmark : IsMark c) : isWhite c = false := by
  have hall : ∀ d ∈ delimiters, d ≠ ' ' → isWhite d = false := by decide
  exact hall c (List.contains_iff_mem.mp hmark.delimiter) hmark.visible

theorem IsToken.ne_nil {t : Text} (ht : IsToken t) : t ≠ [] := by
  cases ht with
  | word hword => exact hword.nonempty
  | mark hmark => simp

theorem IsToken.head {t : Text} (ht : IsToken t) (rest : Text) :
    ∀ c ∈ (t ++ rest).head?, isWhite c = false := by
  intro c hc
  cases ht with
  | word hword =>
      apply hword.start
      rw [List.head?_append_of_ne_nil _ hword.nonempty] at hc
      exact hc
  | mark hmark =>
      obtain rfl : _ = c := by simpa using hc
      exact isWhite_of_isMark hmark

theorem next_append_word {lead t rest : Text} (hlead : Blank lead) (ht : IsWord t)
    (hrest : EndsWord rest) : next (lead ++ t ++ rest) = (t, rest) := by
  unfold next
  rw [List.append_assoc, trimStart_append hlead (IsToken.head (.word ht) rest)]
  rcases t with _ | ⟨c, t⟩
  · exact absurd rfl ht.nonempty
  · have hplain : ∀ d ∈ t, (!isDelimiter d) = true := by
      intro d hd
      simp [ht.plain d (by simp [hd])]
    have hstop : ∀ d ∈ rest.head?, (!isDelimiter d) = false := by
      intro d hd
      simp [hrest d hd]
    rw [List.cons_append]
    simp only [ht.plain c (by simp), Bool.false_eq_true, if_false, takeWhile_run hplain hstop,
      dropWhile_run hplain hstop]

theorem next_append_mark {lead : Text} {c : Char} (hlead : Blank lead) (hmark : IsMark c)
    (rest : Text) : next (lead ++ [c] ++ rest) = ([c], rest) := by
  unfold next
  rw [List.append_assoc, trimStart_append hlead (IsToken.head (.mark hmark) rest)]
  simp [hmark.delimiter]

theorem next_append_token {lead t rest : Text} (hlead : Blank lead) (ht : IsToken t)
    (hrest : IsWord t → EndsWord rest) : next (lead ++ t ++ rest) = (t, rest) := by
  cases ht with
  | word hword => exact next_append_word hlead hword (hrest hword)
  | mark hmark => exact next_append_mark hlead hmark rest

theorem next_of_blank {s : Text} (hs : Blank s) : next s = ([], []) := by
  unfold next
  rw [(trimStart_eq_nil_iff s).mpr hs]

theorem next_cases (s : Text) :
    Blank s ∧ next s = ([], []) ∨
      ∃ lead t rest, Blank lead ∧ IsToken t ∧ (IsWord t → EndsWord rest) ∧
        s = lead ++ t ++ rest ∧ next s = (t, rest) := by
  rcases htrim : trimStart s with _ | ⟨c, tail⟩
  · have hblank := (trimStart_eq_nil_iff s).mp htrim
    exact .inl ⟨hblank, next_of_blank hblank⟩
  · right
    have hvisible : isWhite c = false := by
      apply not_white_head_trimStart s
      simp [htrim]
    have hsplit := takeWhile_append_trimStart s
    rw [htrim] at hsplit
    by_cases hc : isDelimiter c = true
    · have hmark : IsMark c := by
        refine ⟨hc, ?_⟩
        rintro rfl
        exact absurd hvisible (by decide)
      refine ⟨s.takeWhile isWhite, [c], tail, blank_takeWhile s, .mark hmark, ?_, ?_, ?_⟩
      · intro hword
        exact absurd hc (by simp [hword.plain c (by simp)])
      · simpa using hsplit.symm
      · simp [next, htrim, hc]
    · rw [Bool.not_eq_true] at hc
      refine ⟨s.takeWhile isWhite, c :: tail.takeWhile (!isDelimiter ·),
        tail.dropWhile (!isDelimiter ·), blank_takeWhile s, .word ⟨by simp, ?_, ?_⟩, ?_, ?_, ?_⟩
      · intro d hd
        rcases List.mem_cons.mp hd with rfl | hd
        · exact hc
        · simpa using List.mem_takeWhile_imp hd
      · rintro d hd
        obtain rfl : c = d := by simpa using hd
        exact hvisible
      · intro _ d hd
        simpa using not_of_mem_head?_dropWhile (!isDelimiter ·) tail d hd
      · simpa using hsplit.symm
      · simp [next, htrim, hc]

theorem token_append_token (offset : Nat) {lead t : Text} (rest : Text) (hlead : Blank lead)
    (ht : IsToken t) (hrest : IsWord t → EndsWord rest) :
    Cursor.token ⟨offset, lead ++ (t ++ rest)⟩ =
      (t, ⟨offset + (size lead + size t), rest⟩) := by
  have hnext := next_append_token hlead ht hrest
  rw [List.append_assoc] at hnext
  simp only [Cursor.token, Cursor.skipWhite, Cursor.moveBehind, hnext,
    takeWhile_run hlead (ht.head rest), Nat.add_assoc]

theorem token_append_mark (offset : Nat) {lead : Text} {c : Char} (rest : Text)
    (hlead : Blank lead) (hmark : IsMark c) :
    Cursor.token ⟨offset, lead ++ ([c] ++ rest)⟩ =
      ([c], ⟨offset + (size lead + size [c]), rest⟩) := by
  apply token_append_token offset rest hlead (.mark hmark)
  intro hword
  exact absurd hmark.delimiter (by simp [hword.plain c (by simp)])

theorem token_of_blank (offset : Nat) {s : Text} (hs : Blank s) :
    (Cursor.token ⟨offset, s⟩).1 = [] := by
  simp [Cursor.token, next_of_blank hs]

theorem isToken_token {cursor : Cursor} (h : cursor.token.1 ≠ []) : IsToken cursor.token.1 := by
  rcases next_cases cursor.rest with ⟨-, hnext⟩ | ⟨lead, t, rest, -, ht, -, -, hnext⟩
  · exact absurd (by simp [Cursor.token, hnext]) h
  · simpa [Cursor.token, hnext] using ht

end CgShader.Proofs.TokenReading
