import CgShader.Proofs.CommentGrammar

/-!
Stripping a source twice. What stands on both sides of a comment or a directive comes together when
it is gone, and can open a comment that the source does not have. Stripping again changes nothing
exactly if no such comment comes about, which is so where the segments that are left stay apart.
-/

namespace CgShader.Proofs.RepeatedStripping

open CgShader.Source
open CgShader.Proofs.CommentGrammar
open CgShader.Proofs.CommentGrammar.Segment (text left Fits Fitting)

/-- Segments that stay apart when the others are gone: each one that is left as it is can stand
before what is left behind it. -/
def StayApart : List Segment → Prop
  | [] => True
  | segment :: later =>
    (segment.left = segment.text → segment.Fits (later.flatMap left)) ∧ StayApart later

instance decidableStayApart : (segments : List Segment) → Decidable (StayApart segments)
  | [] => .isTrue trivial
  | segment :: later =>
    have := decidableStayApart later
    inferInstanceAs (Decidable ((segment.left = segment.text → segment.Fits (later.flatMap left)) ∧
      StayApart later))

theorem left_cases (segment : Segment) :
    segment.left = segment.text ∨
      segment.left ≠ segment.text ∧ (segment.left = [] ∨ segment.left = ['\n']) := by
  cases segment <;> simp [left, text]

theorem left_eq_text_or_length_lt (segment : Segment) :
    segment.left = segment.text ∨ segment.left.length < segment.text.length := by
  cases segment <;> simp [left, text]

theorem length_left_le (segment : Segment) : segment.left.length ≤ segment.text.length := by
  rcases left_eq_text_or_length_lt segment with heq | hlt
  · rw [heq]
  · exact hlt.le

theorem length_flatMap_left_le (segments : List Segment) :
    (segments.flatMap left).length ≤ (segments.flatMap text).length := by
  induction segments with
  | nil => exact Nat.le_refl _
  | cons segment later ih =>
      rw [List.flatMap_cons, List.flatMap_cons, List.length_append, List.length_append]
      exact Nat.add_le_add (length_left_le segment) ih

theorem length_strip_le (s : Text) : (strip s).length ≤ s.length := by
  obtain ⟨segments, hfitting, rfl⟩ := exists_fitting s
  rw [strip_flatMap_text hfitting]
  exact length_flatMap_left_le segments

theorem flatMap_left_eq_iff (segments : List Segment) :
    segments.flatMap left = segments.flatMap text ↔
      ∀ segment ∈ segments, segment.left = segment.text := by
  constructor
  · intro hsame
    induction segments with
    | nil => simp
    | cons segment later ih =>
        rw [List.flatMap_cons, List.flatMap_cons] at hsame
        -- no segment leaves more than it has, so equal lengths leave every segment whole
        have hlength := congrArg List.length hsame
        have hlater := length_flatMap_left_le later
        rw [List.length_append, List.length_append] at hlength
        have hsegment : segment.left = segment.text := by
          rcases left_eq_text_or_length_lt segment with heq | hlt
          · exact heq
          · omega
        rw [hsegment] at hsame
        intro other hother
        rcases List.mem_cons.mp hother with rfl | hother
        · exact hsegment
        · exact ih (List.append_cancel_left hsame) other hother
  · intro hwhole
    exact List.flatMap_congr hwhole

theorem strip_eq_self_iff (s : Text) :
    strip s = s ↔
      ∃ segments, Fitting segments ∧ (∀ segment ∈ segments, segment.left = segment.text) ∧
        s = segments.flatMap text := by
  constructor
  · intro hsame
    obtain ⟨segments, hfitting, rfl⟩ := exists_fitting s
    rw [strip_flatMap_text hfitting] at hsame
    exact ⟨segments, hfitting, (flatMap_left_eq_iff segments).mp hsame, rfl⟩
  · rintro ⟨segments, hfitting, hwhole, rfl⟩
    rw [strip_flatMap_text hfitting]
    exact (flatMap_left_eq_iff segments).mpr hwhole

theorem strip_line_feed (s : Text) : strip ('\n' :: s) = '\n' :: strip s :=
  strip_plain ((plain_fits_iff '\n' s).mpr (by simp))

theorem strip_flatMap_left {segments : List Segment} (h : StayApart segments) :
    strip (segments.flatMap left) = segments.flatMap left := by
  induction segments with
  | nil => exact strip_nil
  | cons segment later ih =>
      rw [List.flatMap_cons]
      rcases left_cases segment with hwhole | ⟨hne, hnone | hline⟩
      · rw [hwhole, strip_append (h.1 hwhole), ih h.2, hwhole]
      · rw [hnone, List.nil_append, ih h.2]
      · rw [hline, List.singleton_append, strip_line_feed, ih h.2]

theorem mem_text_of_mem_left {segment : Segment} {c : Char} (h : c ∈ segment.left)
    (hc : c ≠ '\n') : c ∈ segment.text := by
  rcases left_cases segment with hwhole | ⟨hne, hnone | hline⟩
  · rwa [← hwhole]
  · simp [hnone] at h
  · simp [hline, hc] at h

theorem quote_not_mem_flatMap_left {segments : List Segment}
    (h : '"' ∉ segments.flatMap text) : '"' ∉ segments.flatMap left := by
  intro hmem
  obtain ⟨segment, hsegment, hquote⟩ := List.mem_flatMap.mp hmem
  exact h (List.mem_flatMap.mpr ⟨segment, hsegment, mem_text_of_mem_left hquote (by decide)⟩)

theorem exists_plain_of_quote_not_mem {segment : Segment} {rest : Text}
    (hfits : segment.Fits rest) (hquote : '"' ∉ segment.text)
    (hwhole : segment.left = segment.text) : ∃ c, segment = .plain c := by
  cases segment with
  | plain c => exact ⟨c, rfl⟩
  | verbatim chunks =>
      have hopen := quote_mem_head?_quoted hfits.1 []
      rw [List.append_nil] at hopen
      exact absurd (List.mem_cons_of_mem _ (List.mem_of_mem_head? hopen)) hquote
  | _ => simp_all [left, text]

/-- A slash that opens a comment before what is left behind it is not left by a second strip. -/
theorem fits_of_strip_eq_self {c : Char} {s rest : Text} (h : (Segment.plain c).Fits s)
    (hc : c ≠ '"') (hquote : '"' ∉ rest) (hsame : strip (c :: rest) = c :: rest) :
    (Segment.plain c).Fits rest := by
  obtain ⟨hdirective, -, -, -⟩ := (plain_fits_iff c s).mp h
  refine (plain_fits_iff c rest).mpr ⟨hdirective, ?_, ?_, fun hquote => absurd hquote hc⟩
  · rintro rfl
    refine ⟨fun hslash => ?_, fun hstar => ?_⟩
    · obtain ⟨tail, rfl⟩ := List.head?_eq_some_iff.mp hslash
      rw [strip_line] at hsame
      exact absurd (List.cons.inj hsame).1 (by decide)
    · obtain ⟨tail, rfl⟩ := List.head?_eq_some_iff.mp hstar
      have hlength := congrArg List.length hsame
      have hstrip := length_strip_le (afterBlock tail)
      have hafter := length_afterBlock_le tail
      rw [strip_block, List.length_cons, List.length_cons] at hlength
      omega
  · intro _ hmem
    exact hquote (List.mem_of_mem_head? hmem)

theorem stayApart_of_strip_eq_self {segments : List Segment} (hfitting : Fitting segments)
    (hquote : '"' ∉ segments.flatMap text)
    (hsame : strip (segments.flatMap left) = segments.flatMap left) : StayApart segments := by
  induction segments with
  | nil => trivial
  | cons segment later ih =>
      rw [List.flatMap_cons, List.mem_append, not_or] at hquote
      rw [List.flatMap_cons] at hsame
      rcases left_cases segment with hwhole | ⟨hne, hnone | hline⟩
      · -- literals have quotes, so a segment that is left whole is a plain character here
        obtain ⟨c, rfl⟩ := exists_plain_of_quote_not_mem hfitting.1 hquote.1 hwhole
        have hc : c ≠ '"' := by
          rintro rfl
          exact hquote.1 (List.mem_singleton_self _)
        have hfits := fits_of_strip_eq_self hfitting.1 hc (quote_not_mem_flatMap_left hquote.2)
          hsame
        have hlater : strip (later.flatMap left) = later.flatMap left := by
          rw [hwhole, strip_append hfits, hwhole] at hsame
          exact List.append_cancel_left hsame
        exact ⟨fun _ => hfits, ih hfitting.2 hquote.2 hlater⟩
      · rw [hnone, List.nil_append] at hsame
        exact ⟨fun hwhole => absurd hwhole hne, ih hfitting.2 hquote.2 hsame⟩
      · rw [hline, List.singleton_append, strip_line_feed] at hsame
        exact ⟨fun hwhole => absurd hwhole hne, ih hfitting.2 hquote.2 (List.cons.inj hsame).2⟩

/-- Stripping a source twice is stripping it once exactly if what is left is made up of literals and
plain characters. That is so if the segments that are left stay apart, and in a source without
quotes only then. -/
theorem strip_strip_iff {source : Text} {segments : List Segment} (hfitting : Fitting segments)
    (hsource : source = segments.flatMap text) :
    (strip (strip source) = strip source ↔
        ∃ whole, Fitting whole ∧ (∀ segment ∈ whole, segment.left = segment.text) ∧
          strip source = whole.flatMap text) ∧
      (StayApart segments → strip (strip source) = strip source) ∧
      ('"' ∉ source → strip (strip source) = strip source → StayApart segments) := by
  refine ⟨strip_eq_self_iff (strip source), ?_, ?_⟩
  · intro hapart
    rw [hsource, strip_flatMap_text hfitting]
    exact strip_flatMap_left hapart
  · intro hquote hsame
    rw [hsource, strip_flatMap_text hfitting] at hsame
    exact stayApart_of_strip_eq_self hfitting (hsource ▸ hquote) hsame

theorem strip_strip_iff_comments :
    let segments : List Segment :=
      [.string "//".toList, .block "a".toList, .plain '/', .directive "b".toList, .plain '"',
        .line "c".toList, .plain '@', .cutDirective []]
    Fitting segments ∧ "\"//\"/*a*//#b\n\"//c\n@#".toList = segments.flatMap text ∧
      StayApart segments ∧
      strip (strip "\"//\"/*a*//#b\n\"//c\n@#".toList) =
        strip "\"//\"/*a*//#b\n\"//c\n@#".toList := by
  intro segments
  have hfitting : Fitting segments := by decide
  have hsource : "\"//\"/*a*//#b\n\"//c\n@#".toList = segments.flatMap text := by decide
  have hapart : StayApart segments := by decide
  exact ⟨hfitting, hsource, hapart, (strip_strip_iff hfitting hsource).2.1 hapart⟩

/-- Two slashes that only a directive keeps apart are a comment when it is gone. -/
theorem strip_strip_ne_of_joined_slashes :
    strip "/#\n/ x".toList = "// x".toList ∧
      strip (strip "/#\n/ x".toList) = "\n".toList ∧
      ¬ ∀ source : Text, strip (strip source) = strip source := by
  have honce : strip "/#\n/ x".toList = "// x".toList := by decide +kernel
  have htwice : strip (strip "/#\n/ x".toList) = "\n".toList := by decide +kernel
  refine ⟨honce, htwice, fun h => ?_⟩
  have hsame := h "/#\n/ x".toList
  rw [htwice, honce] at hsame
  exact absurd hsame (by decide)

end CgShader.Proofs.RepeatedStripping
