import CgShader.Proofs.CommentGrammar

namespace CgShader.Proofs.LiteralEnds

open CgShader.Source
open CgShader.Proofs.CommentGrammar

/-- The literal ends at a quote, and not because the source ends: it is read in the same way from
every source that goes on with more. -/
def EndsAtQuote (s : Text) : Prop :=
  ∀ more, literal (s ++ more) = ((literal s).1, (literal s).2 ++ more)

theorem literal_escape (c : Char) (s : Text) :
    literal ('\\' :: c :: s) = ('\\' :: c :: (literal s).1, (literal s).2) := by
  rw [literal]

theorem literal_character {c : Char} (hquote : c ≠ '"') (hbackslash : c ≠ '\\') (s : Text) :
    literal (c :: s) = (c :: (literal s).1, (literal s).2) := by
  rw [literal]
  · exact hquote
  · exact fun d rest hc _ => hbackslash hc

theorem not_endsAtQuote_nil : ¬ EndsAtQuote [] := by
  intro h
  exact absurd (h ['x']) (by decide)

theorem not_endsAtQuote_backslash : ¬ EndsAtQuote ['\\'] := by
  intro h
  exact absurd (h ['x']) (by decide)

theorem endsAtQuote_escape_iff (c : Char) (s : Text) :
    EndsAtQuote ('\\' :: c :: s) ↔ EndsAtQuote s := by
  simp only [EndsAtQuote, List.cons_append, literal_escape, Prod.ext_iff, List.cons.injEq, true_and]

theorem endsAtQuote_character_iff {c : Char} (hquote : c ≠ '"') (hbackslash : c ≠ '\\') (s : Text) :
    EndsAtQuote (c :: s) ↔ EndsAtQuote s := by
  simp only [EndsAtQuote, List.cons_append, literal_character hquote hbackslash, Prod.ext_iff,
    List.cons.injEq, true_and]

theorem endsAtQuote_of_content {content : Text} (h : StringContent content) (rest : Text) :
    EndsAtQuote (content ++ '"' :: rest) := by
  intro more
  rw [List.append_assoc, List.cons_append, literal_append_quote h, literal_append_quote h]

theorem closesOnLine_of_endsAtQuote {s : Text} (hline : '\n' ∉ (literal s).1)
    (hend : EndsAtQuote s) : closesOnLine s = true := by
  fun_induction closesOnLine s with
  | case1 => exact absurd hend not_endsAtQuote_nil
  | case2 rest => rfl
  | case3 rest =>
      rw [literal_character (by decide) (by decide)] at hline
      simp at hline
  | case4 rest =>
      rw [literal_escape] at hline
      simp at hline
  | case5 c rest hc ih =>
      rw [literal_escape] at hline
      apply ih
      · simp_all
      · exact (endsAtQuote_escape_iff c rest).mp hend
  | case6 c rest hquote hc hescaped hescape ih =>
      -- a backslash is left only at the end of the source
      by_cases hbackslash : c = '\\'
      · subst hbackslash
        rcases rest with _ | ⟨d, rest⟩
        · exact absurd hend not_endsAtQuote_backslash
        · exact absurd rfl (hescape d rest rfl)
      · rw [literal_character hquote hbackslash] at hline
        apply ih
        · simp_all
        · exact (endsAtQuote_character_iff hquote hbackslash rest).mp hend

theorem exists_of_closesOnLine {s : Text} (h : closesOnLine s = true) :
    ∃ content rest, StringContent content ∧ s = content ++ '"' :: rest := by
  obtain ⟨content, hcontent, rest, hsplit⟩ := (closesOnLine_iff s).mp h
  exact ⟨content, rest, hcontent, by rw [← hsplit, List.append_assoc, List.singleton_append]⟩

/-- The look for a closing quote and the reading of the literal agree. The look succeeds exactly if
the source goes on with the content of a literal and a quote, and exactly if the reading passes no
line feed and ends at a quote; what is read is then this content and this quote. -/
theorem closing_quote_agrees (s : Text) :
    (closesOnLine s = true ↔
        ∃ content rest, StringContent content ∧ s = content ++ '"' :: rest) ∧
      (closesOnLine s = true ↔ '\n' ∉ (literal s).1 ∧ EndsAtQuote s) ∧
      ∀ content rest, StringContent content → s = content ++ '"' :: rest →
        literal s = (content ++ ['"'], rest) ∧
          strip ('"' :: s) = '"' :: (content ++ '"' :: strip rest) := by
  refine ⟨⟨exists_of_closesOnLine, ?_⟩, ⟨?_, ?_⟩, ?_⟩
  · rintro ⟨content, rest, hcontent, rfl⟩
    exact closesOnLine_append hcontent rest
  · intro h
    obtain ⟨content, rest, hcontent, rfl⟩ := exists_of_closesOnLine h
    refine ⟨?_, endsAtQuote_of_content hcontent rest⟩
    rw [literal_append_quote hcontent]
    simpa using hcontent.line_not_mem
  · rintro ⟨hline, hend⟩
    exact closesOnLine_of_endsAtQuote hline hend
  · rintro content rest hcontent rfl
    have hstrip : strip ((Segment.string content).text ++ rest) =
        (Segment.string content).left ++ strip rest := strip_append hcontent
    refine ⟨literal_append_quote hcontent rest, ?_⟩
    simpa [Segment.text, Segment.left] using hstrip

theorem closing_quote_agrees_escapes :
    let content := "a\\\"b\\\\\\\r/*".toList
    let rest := "//c\nd\"".toList
    StringContent content ∧ closesOnLine (content ++ '"' :: rest) = true ∧
      literal (content ++ '"' :: rest) = (content ++ ['"'], rest) ∧
      strip ('"' :: (content ++ '"' :: rest)) = "\"a\\\"b\\\\\\\r/*\"\nd\"".toList := by
  intro content rest
  have hcontent : StringContent content := by decide
  obtain ⟨hcloses, -, hread⟩ := closing_quote_agrees (content ++ '"' :: rest)
  obtain ⟨hliteral, hstrip⟩ := hread content rest hcontent rfl
  refine ⟨hcontent, hcloses.mpr ⟨content, rest, hcontent, rfl⟩, hliteral, ?_⟩
  rw [hstrip]
  decide +kernel

end CgShader.Proofs.LiteralEnds
