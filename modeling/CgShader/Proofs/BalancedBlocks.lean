import Mathlib.Data.List.Infix
import CgShader.Bracket

namespace CgShader.Proofs.BalancedBlocks

open CgShader.Bracket

/-- A text that closes all brackets it opens and, besides, `depth` brackets that stand open before
it. No front of the text closes more than that. -/
structure BalancedFrom (opening closing : Char) (depth : Nat) (s : Text) : Prop where
  total : s.count closing = s.count opening + depth
  fronts : ∀ front, front <+: s → front.count closing ≤ front.count opening + depth

def IsBalanced (opening closing : Char) (s : Text) : Prop := BalancedFrom opening closing 0 s

instance (opening closing : Char) (s : Text) : Decidable (IsBalanced opening closing s) :=
  decidable_of_iff
    (s.count closing = s.count opening ∧
      ∀ front ∈ s.inits, front.count closing ≤ front.count opening)
    ⟨fun h => ⟨h.1, fun front hfront => h.2 front ((List.mem_inits front s).mpr hfront)⟩,
      fun h => ⟨h.total, fun front hfront => h.fronts front ((List.mem_inits front s).mp hfront)⟩⟩

theorem forall_fronts_cons (c : Char) (s : Text) (p : Text → Prop) :
    (∀ front, front <+: c :: s → p front) ↔ p [] ∧ ∀ front, front <+: s → p (c :: front) := by
  constructor
  · intro h
    refine ⟨h [] List.nil_prefix, ?_⟩
    intro front hfront
    exact h (c :: front) (by simpa using hfront)
  · rintro ⟨hnil, hcons⟩ front hfront
    rcases List.prefix_cons_iff.mp hfront with rfl | ⟨tail, rfl, htail⟩
    · exact hnil
    · exact hcons tail htail

theorem balancedFrom_nil_iff (opening closing : Char) (depth : Nat) :
    BalancedFrom opening closing depth [] ↔ depth = 0 := by
  constructor
  · intro h
    simpa using h.total.symm
  · rintro rfl
    exact ⟨rfl, by simp⟩

theorem balancedFrom_cons_opening_iff {opening closing : Char} (hne : opening ≠ closing)
    (depth : Nat) (s : Text) :
    BalancedFrom opening closing depth (opening :: s) ↔
      BalancedFrom opening closing (depth + 1) s := by
  constructor
  · rintro ⟨htotal, hfronts⟩
    rw [forall_fronts_cons] at hfronts
    simp only [List.count_cons_of_ne hne, List.count_cons_self] at htotal hfronts
    refine ⟨by omega, ?_⟩
    intro front hfront
    have hfrontBound := hfronts.2 front hfront
    omega
  · rintro ⟨htotal, hfronts⟩
    constructor
    · simp only [List.count_cons_of_ne hne, List.count_cons_self]
      omega
    · rw [forall_fronts_cons]
      refine ⟨by simp, ?_⟩
      intro front hfront
      have hfrontBound := hfronts front hfront
      simp only [List.count_cons_of_ne hne, List.count_cons_self]
      omega

theorem balancedFrom_cons_closing_iff {opening closing : Char} (hne : opening ≠ closing)
    (depth : Nat) (s : Text) :
    BalancedFrom opening closing (depth + 1) (closing :: s) ↔
      BalancedFrom opening closing depth s := by
  constructor
  · rintro ⟨htotal, hfronts⟩
    rw [forall_fronts_cons] at hfronts
    simp only [List.count_cons_of_ne hne.symm, List.count_cons_self] at htotal hfronts
    refine ⟨by omega, ?_⟩
    intro front hfront
    have hfrontBound := hfronts.2 front hfront
    omega
  · rintro ⟨htotal, hfronts⟩
    constructor
    · simp only [List.count_cons_of_ne hne.symm, List.count_cons_self]
      omega
    · rw [forall_fronts_cons]
      refine ⟨by simp, ?_⟩
      intro front hfront
      have hfrontBound := hfronts front hfront
      simp only [List.count_cons_of_ne hne.symm, List.count_cons_self]
      omega

theorem not_balancedFrom_zero_cons_closing {opening closing : Char} (hne : opening ≠ closing)
    (s : Text) : ¬ BalancedFrom opening closing 0 (closing :: s) := by
  intro h
  have hfront := h.fronts [closing] (by simp)
  simp [List.count_cons_of_ne hne.symm] at hfront

theorem balancedFrom_cons_other_iff {opening closing c : Char} (hopening : c ≠ opening)
    (hclosing : c ≠ closing) (depth : Nat) (s : Text) :
    BalancedFrom opening closing depth (c :: s) ↔ BalancedFrom opening closing depth s := by
  constructor
  · rintro ⟨htotal, hfronts⟩
    rw [forall_fronts_cons] at hfronts
    simp only [List.count_cons_of_ne hopening, List.count_cons_of_ne hclosing] at htotal hfronts
    exact ⟨htotal, hfronts.2⟩
  · rintro ⟨htotal, hfronts⟩
    constructor
    · simpa only [List.count_cons_of_ne hopening, List.count_cons_of_ne hclosing] using htotal
    · rw [forall_fronts_cons]
      refine ⟨by simp, ?_⟩
      simpa only [List.count_cons_of_ne hopening, List.count_cons_of_ne hclosing] using hfronts

theorem balanced_iff_of_balanced_append {opening closing : Char} {front rest : Text}
    (h : IsBalanced opening closing (front ++ rest)) :
    IsBalanced opening closing rest ↔ front.count opening = front.count closing := by
  have htotal := h.total
  rw [List.count_append, List.count_append] at htotal
  constructor
  · intro hrest
    have hrestTotal := hrest.total
    omega
  · intro hfront
    refine ⟨by omega, ?_⟩
    intro start hstart
    have hbound := h.fronts (front ++ start) (List.prefix_append_right_inj front |>.mpr hstart)
    rw [List.count_append, List.count_append] at hbound
    omega

theorem balancedFrom_filter_iff {opening closing : Char} (hne : opening ≠ closing)
    (p : Char → Bool) (hopening : p opening = true) (hclosing : p closing = true)
    (depth : Nat) (s : Text) :
    BalancedFrom opening closing depth (s.filter p) ↔ BalancedFrom opening closing depth s := by
  induction s generalizing depth with
  | nil => rfl
  | cons c s ih =>
      by_cases hc : c = opening
      · subst hc
        rw [List.filter_cons_of_pos hopening, balancedFrom_cons_opening_iff hne,
          balancedFrom_cons_opening_iff hne, ih]
      · by_cases hc' : c = closing
        · subst hc'
          rw [List.filter_cons_of_pos hclosing]
          cases depth with
          | zero =>
              exact iff_of_false (not_balancedFrom_zero_cons_closing hne _)
                (not_balancedFrom_zero_cons_closing hne _)
          | succ depth =>
              rw [balancedFrom_cons_closing_iff hne, balancedFrom_cons_closing_iff hne, ih]
        · rw [balancedFrom_cons_other_iff hc hc', ← ih]
          by_cases hp : p c = true
          · rw [List.filter_cons_of_pos hp, balancedFrom_cons_other_iff hc hc']
          · rw [List.filter_cons_of_neg hp]

theorem isBalanced_iff_of_filter_eq {opening closing : Char} (hne : opening ≠ closing)
    {p : Char → Bool} (hopening : p opening = true) (hclosing : p closing = true) {s t : Text}
    (h : s.filter p = t.filter p) :
    IsBalanced opening closing s ↔ IsBalanced opening closing t := by
  have hbrackets := balancedFrom_filter_iff hne p hopening hclosing 0
  rw [IsBalanced, IsBalanced, ← hbrackets s, ← hbrackets t, h]

theorem splitBlock?_eq_some_iff (depth : Nat) (s taken rest : Text) :
    splitBlock? depth s = some (taken, rest) ↔
      s = taken ++ '}' :: rest ∧ BalancedFrom '{' '}' depth taken := by
  have hne : '{' ≠ '}' := by decide
  fun_induction splitBlock? depth s generalizing taken rest with
  | case1 => simp
  | case2 after =>
      simp only [Option.some.injEq, Prod.mk.injEq]
      constructor
      · rintro ⟨rfl, rfl⟩
        exact ⟨rfl, (balancedFrom_nil_iff ..).mpr rfl⟩
      · rintro ⟨happend, hbalanced⟩
        rcases taken with _ | ⟨c, taken⟩
        · simpa using happend
        · obtain ⟨rfl, -⟩ := List.cons.inj happend
          exact absurd hbalanced (not_balancedFrom_zero_cons_closing hne _)
  | case3 depth after ih =>
      simp only [Option.map_eq_some_iff, Prod.exists, Prod.mk.injEq, ih]
      constructor
      · rintro ⟨inner, after', ⟨rfl, hbalanced⟩, rfl, rfl⟩
        exact ⟨rfl, (balancedFrom_cons_closing_iff hne ..).mpr hbalanced⟩
      · rintro ⟨happend, hbalanced⟩
        rcases taken with _ | ⟨c, taken⟩
        · exact absurd ((balancedFrom_nil_iff ..).mp hbalanced) (by simp)
        · obtain ⟨rfl, rfl⟩ := List.cons.inj happend
          exact ⟨taken, rest, ⟨rfl, (balancedFrom_cons_closing_iff hne ..).mp hbalanced⟩, rfl, rfl⟩
  | case4 depth c after hzero hsucc ih =>
      have hclosing : c ≠ '}' := by
        rintro rfl
        cases depth with
        | zero => exact hzero rfl rfl
        | succ depth => exact hsucc depth rfl rfl
      have hcons : ∀ inner, BalancedFrom '{' '}' (if c = '{' then depth + 1 else depth) inner ↔
          BalancedFrom '{' '}' depth (c :: inner) := by
        intro inner
        by_cases hopening : c = '{'
        · subst hopening
          rw [if_pos rfl, balancedFrom_cons_opening_iff hne]
        · rw [if_neg hopening, balancedFrom_cons_other_iff hopening hclosing]
      simp only [Option.map_eq_some_iff, Prod.exists, Prod.mk.injEq, ih, hcons]
      constructor
      · rintro ⟨inner, after', ⟨rfl, hbalanced⟩, rfl, rfl⟩
        exact ⟨rfl, hbalanced⟩
      · rintro ⟨happend, hbalanced⟩
        rcases taken with _ | ⟨d, taken⟩
        · exact absurd (List.cons.inj happend).1 hclosing
        · obtain ⟨rfl, rfl⟩ := List.cons.inj happend
          exact ⟨taken, rest, ⟨rfl, hbalanced⟩, rfl, rfl⟩

theorem splitParameters?_eq_some_iff (s taken rest : Text) :
    splitParameters? s = some (taken, rest) ↔ s = taken ++ ')' :: rest ∧ ')' ∉ taken := by
  fun_induction splitParameters? s generalizing taken rest with
  | case1 => simp
  | case2 after =>
      simp only [Option.some.injEq, Prod.mk.injEq]
      constructor
      · rintro ⟨rfl, rfl⟩
        exact ⟨rfl, by simp⟩
      · rintro ⟨happend, hnone⟩
        rcases taken with _ | ⟨c, taken⟩
        · simpa using happend
        · obtain ⟨rfl, -⟩ := List.cons.inj happend
          exact absurd (List.mem_cons_self) hnone
  | case3 c after hc ih =>
      simp only [Option.map_eq_some_iff, Prod.exists, Prod.mk.injEq, ih]
      constructor
      · rintro ⟨inner, after', ⟨rfl, hnone⟩, rfl, rfl⟩
        refine ⟨rfl, ?_⟩
        simpa [hnone] using fun h => hc h.symm
      · rintro ⟨happend, hnone⟩
        rcases taken with _ | ⟨d, taken⟩
        · exact absurd (List.cons.inj happend).1 hc
        · obtain ⟨rfl, rfl⟩ := List.cons.inj happend
          exact ⟨taken, rest, ⟨rfl, fun h => hnone (List.mem_cons_of_mem _ h)⟩, rfl, rfl⟩

theorem splitParameters?_eq_none_iff (s : Text) : splitParameters? s = none ↔ ')' ∉ s := by
  fun_induction splitParameters? s with
  | case1 => simp
  | case2 after => simp
  | case3 c after hc ih =>
      have hfirst : ')' ≠ c := fun h => hc h.symm
      simp [ih, hfirst]

theorem splitBlock?_eq_none_iff (depth : Nat) (s : Text) :
    splitBlock? depth s = none ↔
      ∀ front, front <+: s → front.count '}' ≤ front.count '{' + depth := by
  fun_induction splitBlock? depth s with
  | case1 depth => simp
  | case2 after =>
      rw [forall_fronts_cons]
      simpa using ⟨[], by simp⟩
  | case3 depth after ih =>
      rw [Option.map_eq_none_iff, ih, forall_fronts_cons]
      simp only [List.count_cons_self, List.count_cons_of_ne (show '}' ≠ '{' by decide)]
      simp [← Nat.add_assoc]
  | case4 depth c after hzero hsucc ih =>
      have hclosing : c ≠ '}' := by
        rintro rfl
        cases depth with
        | zero => exact hzero rfl rfl
        | succ depth => exact hsucc depth rfl rfl
      rw [Option.map_eq_none_iff, ih, forall_fronts_cons]
      by_cases hopening : c = '{'
      · subst hopening
        simp [List.count_cons_of_ne hclosing, Nat.add_right_comm, Nat.add_assoc]
      · simp [List.count_cons_of_ne hclosing, List.count_cons_of_ne hopening, hopening]

end CgShader.Proofs.BalancedBlocks
