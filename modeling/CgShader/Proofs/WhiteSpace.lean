import Mathlib.Data.List.DropRight
import CgShader.Proofs.TextRuns
import CgShader.Text.White

namespace CgShader.Proofs.WhiteSpace

open CgShader.Text
open CgShader.Proofs.TextRuns

def Blank (s : Text) : Prop := ∀ c ∈ s, isWhite c = true

instance (s : Text) : Decidable (Blank s) := inferInstanceAs (Decidable (∀ c ∈ s, _))

theorem blank_nil : Blank [] := by simp [Blank]

theorem blank_append_iff (s t : Text) : Blank (s ++ t) ↔ Blank s ∧ Blank t := by
  simp [Blank, or_imp, forall_and]

theorem blank_of_spaces {s : Text} (hs : Spaces s) : Blank s := by
  intro c hc
  rw [hs c hc]
  decide

theorem blank_takeWhile (s : Text) : Blank (s.takeWhile isWhite) := by
  intro c hc
  exact List.mem_takeWhile_imp hc

theorem trimStart_eq_nil_iff (s : Text) : trimStart s = [] ↔ Blank s :=
  List.dropWhile_eq_nil_iff

theorem takeWhile_append_trimStart (s : Text) : s.takeWhile isWhite ++ trimStart s = s :=
  List.takeWhile_append_dropWhile

theorem trimStart_append_of_blank {s : Text} (hs : Blank s) (t : Text) :
    trimStart (s ++ t) = trimStart t :=
  List.dropWhile_append_of_pos hs

theorem trimStart_append {lead rest : Text} (hlead : Blank lead)
    (hrest : ∀ c ∈ rest.head?, isWhite c = false) : trimStart (lead ++ rest) = rest :=
  dropWhile_run hlead hrest

theorem trimStart_append_of_not_blank {s : Text} (hs : ¬ Blank s) (t : Text) :
    trimStart (s ++ t) = trimStart s ++ t := by
  rw [trimStart, List.dropWhile_append, if_neg]
  · rfl
  · rw [List.isEmpty_iff]
    exact fun h => hs ((trimStart_eq_nil_iff s).mp h)

theorem not_white_head_trimStart (s : Text) :
    ∀ c ∈ (trimStart s).head?, isWhite c = false :=
  not_of_mem_head?_dropWhile isWhite s

theorem trimEnd_append_of_blank (s : Text) {t : Text} (ht : Blank t) :
    trimEnd (s ++ t) = trimEnd s := by
  unfold trimEnd dropEndWhile
  rw [List.reverse_append, List.dropWhile_append_of_pos]
  intro c hc
  exact ht c (List.mem_reverse.mp hc)

theorem trimEnd_cons_of_not_blank (c : Char) {s : Text} (hs : ¬ Blank s) :
    trimEnd (c :: s) = c :: trimEnd s := by
  unfold trimEnd dropEndWhile
  rw [List.reverse_cons, List.dropWhile_append, if_neg]
  · simp
  · rw [List.isEmpty_iff, List.dropWhile_eq_nil_iff]
    intro h
    exact hs (fun d hd => h d (List.mem_reverse.mpr hd))

theorem trimEnd_append_of_not_blank (s : Text) {t : Text} (ht : ¬ Blank t) :
    trimEnd (s ++ t) = s ++ trimEnd t := by
  induction s with
  | nil => rfl
  | cons c s ih =>
      have hrest : ¬ Blank (s ++ t) := fun h => ht ((blank_append_iff s t).mp h).2
      rw [List.cons_append, trimEnd_cons_of_not_blank c hrest, ih, List.cons_append]

theorem exists_trimEnd_append (s : Text) : ∃ trail, Blank trail ∧ s = trimEnd s ++ trail := by
  refine ⟨s.rtakeWhile isWhite, ?_, List.rdropWhile_append_rtakeWhile.symm⟩
  intro c hc
  exact List.mem_rtakeWhile_imp hc

theorem exists_append_trim_append (s : Text) :
    ∃ lead trail, Blank lead ∧ Blank trail ∧ s = lead ++ trim s ++ trail := by
  obtain ⟨trail, htrail, hsplit⟩ := exists_trimEnd_append (trimStart s)
  refine ⟨s.takeWhile isWhite, trail, blank_takeWhile s, htrail, ?_⟩
  rw [trim, List.append_assoc, ← hsplit, takeWhile_append_trimStart]

theorem mem_of_mem_trim {c : Char} {s : Text} (h : c ∈ trim s) : c ∈ s := by
  obtain ⟨lead, trail, -, -, hsplit⟩ := exists_append_trim_append s
  rw [hsplit]
  simp [h]

theorem trim_eq_nil_iff (s : Text) : trim s = [] ↔ Blank s := by
  constructor
  · intro h
    obtain ⟨lead, trail, hlead, htrail, hsplit⟩ := exists_append_trim_append s
    rw [hsplit, h]
    simpa [blank_append_iff] using ⟨hlead, htrail⟩
  · intro h
    rw [trim, (trimStart_eq_nil_iff s).mpr h]
    rfl

theorem trim_append_append {lead trail : Text} (hlead : Blank lead) (htrail : Blank trail)
    (s : Text) : trim (lead ++ s ++ trail) = trim s := by
  by_cases hs : Blank s
  · have hall : Blank (lead ++ s ++ trail) :=
      (blank_append_iff ..).mpr ⟨(blank_append_iff ..).mpr ⟨hlead, hs⟩, htrail⟩
    rw [(trim_eq_nil_iff _).mpr hall, (trim_eq_nil_iff _).mpr hs]
  · rw [List.append_assoc, trim, trimStart_append_of_blank hlead,
      trimStart_append_of_not_blank hs, trimEnd_append_of_blank _ htrail, trim]

theorem trim_trimStart (s : Text) : trim (trimStart s) = trim s := by
  have hsplit := trim_append_append (blank_takeWhile s) blank_nil (trimStart s)
  rw [List.append_nil, takeWhile_append_trimStart] at hsplit
  exact hsplit.symm

theorem trim_trim (s : Text) : trim (trim s) = trim s := by
  obtain ⟨lead, trail, hlead, htrail, hsplit⟩ := exists_append_trim_append s
  have htrim := trim_append_append hlead htrail (trim s)
  rw [← hsplit] at htrim
  exact htrim.symm

theorem not_white_head_trim (s : Text) : ∀ c ∈ (trim s).head?, isWhite c = false := by
  intro c hc
  obtain ⟨trail, -, hsplit⟩ := exists_trimEnd_append (trimStart s)
  apply not_white_head_trimStart s
  rw [hsplit]
  exact List.mem_head?_append_of_mem_head? hc

def StartsVisible (s : Text) : Prop := ∃ c ∈ s.head?, isWhite c = false

theorem StartsVisible.not_blank {s : Text} (hs : StartsVisible s) : ¬ Blank s := by
  obtain ⟨c, hc, hwhite⟩ := hs
  intro hblank
  rw [hblank c (List.mem_of_mem_head? hc)] at hwhite
  cases hwhite

theorem startsVisible_trim {s : Text} (hs : ¬ Blank s) : StartsVisible (trim s) := by
  rcases hhead : (trim s).head? with _ | c
  · rw [List.head?_eq_none_iff, trim_eq_nil_iff] at hhead
    exact absurd hhead hs
  · exact ⟨c, hhead, not_white_head_trim s c hhead⟩

end CgShader.Proofs.WhiteSpace
