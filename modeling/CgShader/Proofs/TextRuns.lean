import Mathlib.Data.List.Basic
import Mathlib.Data.List.TakeWhile
import CgShader.Text.Edit

namespace CgShader.Proofs.TextRuns

open CgShader.Text

/-- What all characters of a text are is decided by looking at each. -/
instance decidableForallMem (s : Text) (p : Char → Prop) [DecidablePred p] :
    Decidable (∀ c ∈ s, p c) :=
  List.decidableBAll p s

instance decidableExistsMem (s : Text) (p : Char → Prop) [DecidablePred p] :
    Decidable (∃ c ∈ s, p c) :=
  List.decidableBEx p s

instance decidableForallMemOption (c : Option Char) (p : Char → Prop) [DecidablePred p] :
    Decidable (∀ d ∈ c, p d) :=
  Option.decidableForallMem c

theorem not_of_mem_head?_dropWhile (p : Char → Bool) (s : Text) :
    ∀ c ∈ (s.dropWhile p).head?, p c = false := by
  intro c hc
  have hhead := List.head?_dropWhile_not p s
  rw [Option.mem_def.mp hc] at hhead
  exact hhead

theorem takeWhile_append_stop {p : Char → Bool} {stop : Text}
    (hstop : ∀ c ∈ stop.head?, p c = false) (s : Text) :
    (s ++ stop).takeWhile p = s.takeWhile p := by
  induction s with
  | nil =>
      rcases stop with _ | ⟨c, stop⟩
      · rfl
      · simp [hstop c rfl]
  | cons c s ih => rw [List.cons_append, List.takeWhile_cons, List.takeWhile_cons, ih]

theorem dropWhile_append_stop {p : Char → Bool} {stop : Text}
    (hstop : ∀ c ∈ stop.head?, p c = false) (s : Text) :
    (s ++ stop).dropWhile p = s.dropWhile p ++ stop := by
  have hsplit := List.takeWhile_append_dropWhile (p := p) (l := s ++ stop)
  nth_rewrite 3 [← List.takeWhile_append_dropWhile (p := p) (l := s)] at hsplit
  rw [takeWhile_append_stop hstop, List.append_assoc] at hsplit
  exact List.append_cancel_left hsplit

theorem takeWhile_run {p : Char → Bool} {run rest : Text} (hrun : ∀ c ∈ run, p c = true)
    (hrest : ∀ c ∈ rest.head?, p c = false) : (run ++ rest).takeWhile p = run := by
  rw [takeWhile_append_stop hrest, List.takeWhile_eq_self_iff.mpr hrun]

theorem dropWhile_run {p : Char → Bool} {run rest : Text} (hrun : ∀ c ∈ run, p c = true)
    (hrest : ∀ c ∈ rest.head?, p c = false) : (run ++ rest).dropWhile p = rest := by
  rw [List.dropWhile_append_of_pos hrun]
  rcases rest with _ | ⟨c, rest⟩
  · rfl
  · simp [hrest c rfl]

theorem after?_eq_some_iff (start s rest : Text) :
    after? start s = some rest ↔ s = start ++ rest := by
  fun_induction after? start s with
  | case1 s => simp
  | case2 c start => simp
  | case3 start c s ih => simpa using ih
  | case4 c start d s hne => simp [Ne.symm hne]

/-- Where a text stands beside a certain character: before it, behind it, or over it. -/
theorem append_cons_split {s t front core rest : Text} {c : Char}
    (h : s ++ c :: t = front ++ core ++ rest) :
    (∃ after, s = front ++ core ++ after ∧ rest = after ++ c :: t) ∨
      (∃ inner, front = s ++ c :: inner ∧ t = inner ++ core ++ rest) ∨
      ∃ left right, core = left ++ c :: right ∧ s = front ++ left ∧ t = right ++ rest := by
  rw [List.append_assoc] at h
  rcases List.append_eq_append_iff.mp h with ⟨inner, rfl, htail⟩ | ⟨left, rfl, hcore⟩
  · rcases inner with _ | ⟨d, inner⟩
    · rcases core with _ | ⟨d, right⟩
      · exact .inl ⟨[], by simp, by simpa using htail.symm⟩
      · obtain ⟨rfl, rfl⟩ := List.cons.inj htail
        exact .inr (.inr ⟨[], right, rfl, by simp, rfl⟩)
    · obtain ⟨rfl, rfl⟩ := List.cons.inj htail
      exact .inr (.inl ⟨inner, rfl, by simp⟩)
  · rcases List.append_eq_append_iff.mp hcore with ⟨after, rfl, hrest⟩ | ⟨right, rfl, htail⟩
    · exact .inl ⟨after, by simp, hrest⟩
    · rcases right with _ | ⟨d, right⟩
      · exact .inl ⟨[], by simp, by simpa using htail.symm⟩
      · obtain ⟨rfl, rfl⟩ := List.cons.inj htail
        exact .inr (.inr ⟨left, right, rfl, rfl, rfl⟩)

theorem append_cons_cases {s t front core rest : Text} {c : Char} (hc : c ∉ core)
    (h : s ++ c :: t = front ++ core ++ rest) :
    (∃ after, s = front ++ core ++ after) ∨
      ∃ inner, front = s ++ c :: inner ∧ t = inner ++ core ++ rest := by
  rcases append_cons_split h with ⟨after, hs, -⟩ | hinner | ⟨left, right, rfl, -⟩
  · exact .inl ⟨after, hs⟩
  · exact .inr hinner
  · exact absurd (by simp) hc

def Spaces (s : Text) : Prop := ∀ c ∈ s, c = ' '

theorem spaces_spaces (s : Text) : Spaces (spaces s) := by
  intro c hc
  simpa using List.mem_takeWhile_imp (p := (· == ' ')) hc

theorem spaces_append_dropSpaces (s : Text) : spaces s ++ dropSpaces s = s :=
  List.takeWhile_append_dropWhile

theorem space_not_mem_head?_dropSpaces (s : Text) : ' ' ∉ (dropSpaces s).head? := by
  intro hspace
  exact absurd (not_of_mem_head?_dropWhile (· == ' ') s ' ' hspace) (by decide)

theorem spaces_run {gap rest : Text} (hgap : Spaces gap) (hrest : ' ' ∉ rest.head?) :
    spaces (gap ++ rest) = gap := by
  apply takeWhile_run
  · intro c hc
    simp [hgap c hc]
  · intro c hc
    rw [beq_eq_false_iff_ne]
    rintro rfl
    exact hrest hc

theorem dropSpaces_run {gap rest : Text} (hgap : Spaces gap) (hrest : ' ' ∉ rest.head?) :
    dropSpaces (gap ++ rest) = rest := by
  have hsplit := spaces_append_dropSpaces (gap ++ rest)
  rw [spaces_run hgap hrest] at hsplit
  exact List.append_cancel_left hsplit

end CgShader.Proofs.TextRuns
