import CgShader.Proofs.SourcePreparation

namespace CgShader.Proofs.LoneReturns

open CgShader.Source
open CgShader.Proofs.CommentGrammar
open CgShader.Proofs.CommentGrammar.Segment (text left Fitting)
open CgShader.Proofs.SourcePreparation

section Behind

variable {front content : Text}

theorem strip_behind_comment (hfront : ∀ c ∈ front, c ∉ ['/', '#', '"', '@'])
    (hcontent : '\n' ∉ content) (back : Text) :
    strip (front ++ "//".toList ++ content ++ back) = front ++ '\n' :: strip (afterLine back) := by
  have hopen : front ++ "//".toList ++ content ++ back =
      front ++ '/' :: '/' :: (content ++ back) := by
    simp
  rw [hopen, strip_plain_append hfront, strip_line, afterLine_append_of_not_mem hcontent]

theorem strip_behind_directive (hfront : ∀ c ∈ front, c ∉ ['/', '#', '"', '@'])
    (hcontent : '\n' ∉ content) (back : Text) :
    strip (front ++ "#".toList ++ content ++ back) = front ++ strip (afterLine back) := by
  have hopen : front ++ "#".toList ++ content ++ back = front ++ '#' :: (content ++ back) := by
    simp
  rw [hopen, strip_plain_append hfront, strip_directive, afterLine_append_of_not_mem hcontent]

end Behind

theorem flatten_lineEnd {back : Text} (hback : '\n' ∉ back.head?) :
    ∀ lineEnd ∈ [['\n'], ['\r', '\n'], ['\r']],
      flatten (lineEnd ++ back) = ' ' :: flatten back := by
  have hreturn : flatten ('\r' :: back) = ' ' :: flatten back := by
    rw [flatten, if_pos (.inr rfl)]
    rintro rest - rfl
    exact hback rfl
  simpa [flatten] using hreturn

theorem fitting_of_append {line later : List Segment} (h : Fitting (line ++ later)) :
    Fitting later := by
  induction line with
  | nil => exact h
  | cons segment line ih => exact ih h.2

theorem strip_append_segments {line later : List Segment} (h : Fitting (line ++ later)) :
    strip ((line ++ later).flatMap text) = line.flatMap left ++ strip (later.flatMap text) := by
  rw [strip_flatMap_text h, strip_flatMap_text (fitting_of_append h), List.flatMap_append]

/-- A line feed ends a line comment and a directive, with a carriage return before it or without. A
carriage return alone, though normalization makes a space of it as well, does not end them, and
nothing is lost exactly if the text up to the next line feed leaves nothing of itself. Where it is
made up of segments of its own, they must all be comments in blocks or directives. -/
theorem comment_ends_at_line_feed {front content back : Text}
    (hfront : ∀ c ∈ front, c ∉ ['/', '#', '"', '@'])
    (hcontent : ∀ c ∈ content, c ≠ '\r' ∧ c ≠ '\n') (hback : '\n' ∉ back.head?) :
    let comment lineEnd := front ++ "//".toList ++ content ++ (lineEnd ++ back)
    let directive lineEnd := front ++ "#".toList ++ content ++ (lineEnd ++ back)
    (∀ lineEnd ∈ [['\n'], ['\r', '\n'], ['\r']],
        flatten (lineEnd ++ back) = ' ' :: flatten back) ∧
      (∀ lineEnd ∈ [['\n'], ['\r', '\n']],
        strip (comment lineEnd) = front ++ '\n' :: strip back ∧
          strip (directive lineEnd) = front ++ strip back) ∧
      strip (comment ['\r']) = front ++ '\n' :: strip (afterLine back) ∧
      strip (directive ['\r']) = front ++ strip (afterLine back) ∧
      (strip (comment ['\r']) = front ++ '\n' :: strip back ↔
        strip (afterLine back) = strip back) ∧
      (strip (directive ['\r']) = front ++ strip back ↔ strip (afterLine back) = strip back) ∧
      ∀ line later, Fitting (line ++ later) → back = (line ++ later).flatMap text →
        afterLine back = later.flatMap text →
          (strip (afterLine back) = strip back ↔ ∀ segment ∈ line, segment.left = []) := by
  intro comment directive
  have hline : '\n' ∉ content := fun hmem => (hcontent _ hmem).2 rfl
  have hcomment : ∀ lineEnd, strip (comment lineEnd) =
      front ++ '\n' :: strip (afterLine (lineEnd ++ back)) :=
    fun lineEnd => strip_behind_comment hfront hline (lineEnd ++ back)
  have hdirective : ∀ lineEnd, strip (directive lineEnd) =
      front ++ strip (afterLine (lineEnd ++ back)) :=
    fun lineEnd => strip_behind_directive hfront hline (lineEnd ++ back)
  have hreturn : afterLine (['\r'] ++ back) = afterLine back :=
    afterLine_append_of_not_mem (by decide) back
  refine ⟨flatten_lineEnd hback, ?_, ?_, ?_, ?_, ?_, ?_⟩
  · intro lineEnd hmem
    have hafter : afterLine (lineEnd ++ back) = back := by
      rcases List.mem_pair.mp hmem with rfl | rfl <;> rfl
    rw [hcomment, hdirective, hafter]
    exact ⟨rfl, rfl⟩
  · rw [hcomment, hreturn]
  · rw [hdirective, hreturn]
  · rw [hcomment, hreturn, List.append_right_inj, List.cons_inj_right]
  · rw [hdirective, hreturn, List.append_right_inj]
  · intro line later hfitting hsegments hlater
    rw [hlater, hsegments, strip_append_segments hfitting, List.self_eq_append_left,
      List.flatMap_eq_nil_iff]

theorem comment_ends_at_line_feed_nothing_lost :
    let front := "a;".toList
    let back := "/*x*/#y\nz".toList
    (∀ c ∈ front, c ∉ ['/', '#', '"', '@']) ∧ '\n' ∉ back.head? ∧
      strip "a;//c\r/*x*/#y\nz".toList = front ++ '\n' :: strip back ∧
      strip "a;#c\r/*x*/#y\nz".toList = front ++ strip back := by
  intro front back
  have hfront : ∀ c ∈ front, c ∉ ['/', '#', '"', '@'] := by decide
  have hcontent : ∀ c ∈ "c".toList, c ≠ '\r' ∧ c ≠ '\n' := by decide
  have hback : '\n' ∉ back.head? := by decide
  obtain ⟨-, -, -, -, hcomment, hdirective, hkept⟩ :=
    comment_ends_at_line_feed hfront hcontent hback
  have hnothing := (hkept [.block "x".toList, .directive "y".toList] [.plain 'z'] (by decide)
    (by decide) (by decide)).mpr (by simp [left])
  exact ⟨hfront, hback, hcomment.mpr hnothing, hdirective.mpr hnothing⟩

theorem code_lost_behind_return :
    strip "a;//c\rb;".toList = "a;\n".toList ∧ strip "#c\rb;".toList = [] ∧
      strip "b;".toList = "b;".toList ∧
      ¬ ∀ front content back : Text, (∀ c ∈ front, c ∉ ['/', '#', '"', '@']) →
        (∀ c ∈ content, c ≠ '\r' ∧ c ≠ '\n') → '\n' ∉ back.head? →
          strip (front ++ "//".toList ++ content ++ (['\r'] ++ back)) =
              front ++ '\n' :: strip back ∧
            strip (front ++ "#".toList ++ content ++ (['\r'] ++ back)) = front ++ strip back := by
  have hcomment : strip "a;//c\rb;".toList = "a;\n".toList := by decide +kernel
  have hdirective : strip "#c\rb;".toList = [] := by decide +kernel
  have hcode : strip "b;".toList = "b;".toList := by decide +kernel
  refine ⟨hcomment, hdirective, hcode, fun h => ?_⟩
  have hkept := (h [] "c".toList "b;".toList (by decide) (by decide) (by decide)).2
  rw [List.nil_append, List.nil_append, hcode] at hkept
  exact absurd (hdirective.symm.trans hkept) (by decide)

end CgShader.Proofs.LoneReturns
