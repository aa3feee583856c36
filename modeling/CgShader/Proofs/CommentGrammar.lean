import Mathlib.Data.List.Infix
import CgShader.Proofs.TextRuns
import CgShader.Source.Comment

namespace CgShader.Proofs.CommentGrammar

open CgShader.Source

/-- What can stand between the quotes of a string literal: characters of one line, a backslash with
the one behind it. -/
inductive StringContent : Text → Prop
  | nil : StringContent []
  | character {c : Char} {s : Text} (hquote : c ≠ '"') (hbackslash : c ≠ '\\') (hline : c ≠ '\n')
      (hs : StringContent s) : StringContent (c :: s)
  | escape {c : Char} {s : Text} (hline : c ≠ '\n') (hs : StringContent s) :
      StringContent ('\\' :: c :: s)

/-- What can stand between the marks of a block comment: the first `*/` behind it is its own. -/
def BlockContent (s : Text) : Prop :=
  ∀ front back, s ++ ['*', '/'] = front ++ '*' :: '/' :: back → back = []

def Endless (s : Text) : Prop := ∀ front back, s ≠ front ++ '*' :: '/' :: back

/-- The parts of a source. The last four are cut off by the end of the source. -/
inductive Segment where
  | block (content : Text)
  | line (content : Text)
  | directive (content : Text)
  | string (content : Text)
  | verbatim (chunks : List Text)
  | plain (c : Char)
  | cutBlock (content : Text)
  | cutLine (content : Text)
  | cutDirective (content : Text)
  | cutVerbatim (chunks : List Text) (content : Text)
deriving DecidableEq

namespace Segment

def quoted (chunks : List Text) : Text := chunks.flatMap fun chunk => '"' :: (chunk ++ ['"'])

def text : Segment → Text
  | block content => '/' :: '*' :: (content ++ ['*', '/'])
  | line content => '/' :: '/' :: (content ++ ['\n'])
  | directive content => '#' :: (content ++ ['\n'])
  | string content => '"' :: (content ++ ['"'])
  | verbatim chunks => '@' :: quoted chunks
  | plain c => [c]
  | cutBlock content => '/' :: '*' :: content
  | cutLine content => '/' :: '/' :: content
  | cutDirective content => '#' :: content
  | cutVerbatim chunks content => '@' :: (quoted chunks ++ '"' :: content)

def left : Segment → Text
  | block _ | directive _ | cutBlock _ | cutDirective _ => []
  | line _ | cutLine _ => ['\n']
  | string content => (string content).text
  | verbatim chunks => (verbatim chunks).text
  | plain c => (plain c).text
  | cutVerbatim chunks content => (cutVerbatim chunks content).text

def Fits (rest : Text) : Segment → Prop
  | block content => BlockContent content
  | line content | directive content => '\n' ∉ content
  | string content => StringContent content
  | verbatim chunks => chunks ≠ [] ∧ (∀ chunk ∈ chunks, '"' ∉ chunk) ∧ '"' ∉ rest.head?
  | plain c =>
    c ≠ '#' ∧ (c = '/' → '/' ∉ rest.head? ∧ '*' ∉ rest.head?) ∧ (c = '@' → '"' ∉ rest.head?) ∧
      (c = '"' → ∀ content, StringContent content → ¬ content ++ ['"'] <+: rest)
  | cutBlock content => rest = [] ∧ Endless content
  | cutLine content | cutDirective content => rest = [] ∧ '\n' ∉ content
  | cutVerbatim chunks content => rest = [] ∧ (∀ chunk ∈ chunks, '"' ∉ chunk) ∧ '"' ∉ content

def Fitting : List Segment → Prop
  | [] => True
  | segment :: later => segment.Fits (later.flatMap text) ∧ Fitting later

end Segment

open Segment (quoted text left Fits Fitting)

theorem afterBlock_cons_of_not {c : Char} {s : Text} (h : ¬ (c = '*' ∧ '/' ∈ s.head?)) :
    afterBlock (c :: s) = afterBlock s := by
  rw [afterBlock]
  rintro rest rfl rfl
  exact h ⟨rfl, rfl⟩

theorem afterBlock_append {content : Text} (h : BlockContent content) (rest : Text) :
    afterBlock (content ++ '*' :: '/' :: rest) = rest := by
  induction content with
  | nil => rfl
  | cons c content ih =>
      rw [List.cons_append, afterBlock_cons_of_not]
      · apply ih
        intro front back hsplit
        apply h (c :: front) back
        rw [List.cons_append, hsplit, List.cons_append]
      · rintro ⟨rfl, hslash⟩
        rcases content with _ | ⟨d, content⟩
        · simp at hslash
        · obtain rfl : d = '/' := by simpa using hslash
          exact absurd (h [] (content ++ ['*', '/']) (by simp)) (by simp)

theorem afterBlock_of_endless {s : Text} (h : Endless s) : afterBlock s = [] := by
  induction s with
  | nil => rfl
  | cons c s ih =>
      rw [afterBlock_cons_of_not]
      · apply ih
        rintro front back rfl
        exact h (c :: front) back rfl
      · rintro ⟨rfl, hslash⟩
        rcases s with _ | ⟨d, s⟩
        · simp at hslash
        · obtain rfl : d = '/' := by simpa using hslash
          exact h [] s rfl

theorem endless_or_exists_blockContent (s : Text) :
    Endless s ∨ ∃ content rest, BlockContent content ∧ s = content ++ '*' :: '/' :: rest := by
  induction s with
  | nil => exact .inl (by simp [Endless])
  | cons c s ih =>
      by_cases hend : c = '*' ∧ '/' ∈ s.head?
      · obtain ⟨rfl, hslash⟩ := hend
        rcases s with _ | ⟨d, rest⟩
        · simp at hslash
        · obtain rfl : d = '/' := by simpa using hslash
          refine .inr ⟨[], rest, ?_, rfl⟩
          rintro (_ | ⟨e, _ | ⟨e', front⟩⟩) back hsplit <;> simp_all
      · rcases ih with hendless | ⟨content, rest, hcontent, rfl⟩
        · left
          rintro (_ | ⟨d, front⟩) back hsplit
          · obtain ⟨rfl, rfl⟩ := List.cons.inj hsplit
            exact hend ⟨rfl, rfl⟩
          · exact hendless front back (List.cons.inj hsplit).2
        · refine .inr ⟨c :: content, rest, ?_, rfl⟩
          rintro (_ | ⟨d, front⟩) back hsplit
          · obtain ⟨rfl, htail⟩ := List.cons.inj hsplit
            refine absurd ⟨rfl, ?_⟩ hend
            rcases content with _ | ⟨d, content⟩
            · simp at htail
            · simpa using (List.cons.inj htail).1
          · exact hcontent front back (List.cons.inj hsplit).2

theorem afterLine_append_of_not_mem {s : Text} (h : '\n' ∉ s) (t : Text) :
    afterLine (s ++ t) = afterLine t := by
  induction s with
  | nil => rfl
  | cons c s ih =>
      rw [List.mem_cons, not_or] at h
      rw [List.cons_append, afterLine, ih h.2]
      exact fun hc => h.1 hc.symm

theorem afterLine_append {content : Text} (h : '\n' ∉ content) (rest : Text) :
    afterLine (content ++ '\n' :: rest) = rest := by
  rw [afterLine_append_of_not_mem h, afterLine]

theorem afterLine_of_not_mem {s : Text} (h : '\n' ∉ s) : afterLine s = [] := by
  rw [← List.append_nil s, afterLine_append_of_not_mem h, afterLine]

theorem closesOnLine_append {content : Text} (h : StringContent content) (rest : Text) :
    closesOnLine (content ++ '"' :: rest) = true := by
  induction h with
  | nil => rfl
  | character hquote hbackslash hline _ ih => simp_all [closesOnLine]
  | escape hline _ ih => simp_all [closesOnLine]

theorem literal_append_quote {content : Text} (h : StringContent content) (rest : Text) :
    literal (content ++ '"' :: rest) = (content ++ ['"'], rest) := by
  induction h with
  | nil => rfl
  | character hquote hbackslash hline _ ih => simp_all [literal]
  | escape hline _ ih => simp_all [literal]

theorem StringContent.line_not_mem {content : Text} (h : StringContent content) :
    '\n' ∉ content := by
  induction h with
  | nil => simp
  | character _ _ hline _ ih => simp [ih, Ne.symm hline]
  | escape hline _ ih => simp [ih, Ne.symm hline]

theorem exists_stringContent_of_closesOnLine {s : Text} (h : closesOnLine s = true) :
    ∃ content, StringContent content ∧ content ++ ['"'] <+: s := by
  fun_induction closesOnLine s with
  | case1 => cases h
  | case2 rest => exact ⟨[], .nil, by simp⟩
  | case3 => cases h
  | case4 => cases h
  | case5 c rest hline ih =>
      obtain ⟨content, hcontent, hprefix⟩ := ih h
      refine ⟨'\\' :: c :: content, .escape (fun hc => hline hc) hcontent, by simpa using hprefix⟩
  | case6 c rest hquote hline hescape hbackslash ih =>
      obtain ⟨content, hcontent, hprefix⟩ := ih h
      have hrest : rest ≠ [] := by
        rintro rfl
        simp at hprefix
      refine ⟨c :: content, .character hquote ?_ hline hcontent, by simpa using hprefix⟩
      rintro rfl
      rcases rest with _ | ⟨d, rest⟩
      · exact hrest rfl
      · exact hbackslash d rest rfl rfl

theorem closesOnLine_iff (s : Text) :
    closesOnLine s = true ↔ ∃ content, StringContent content ∧ content ++ ['"'] <+: s := by
  constructor
  · exact exists_stringContent_of_closesOnLine
  · rintro ⟨content, hcontent, rest, rfl⟩
    rw [List.append_assoc]
    exact closesOnLine_append hcontent rest

theorem endless_iff (s : Text) : Endless s ↔ ¬ ['*', '/'] <:+: s := by
  constructor
  · rintro h ⟨front, back, hsplit⟩
    exact h front back (by simp [← hsplit])
  · rintro h front back rfl
    exact h ⟨front, back, by simp⟩

theorem blockContent_iff (s : Text) : BlockContent s ↔ afterBlock (s ++ ['*', '/']) = [] := by
  constructor
  · intro h
    exact afterBlock_append h []
  · intro hend
    rcases endless_or_exists_blockContent (s ++ ['*', '/']) with
      hendless | ⟨content, rest, hcontent, hsplit⟩
    · exact absurd rfl (hendless s [])
    · rw [hsplit, afterBlock_append hcontent] at hend
      subst hend
      rwa [List.append_cancel_right hsplit]

theorem stringContent_iff (s : Text) :
    StringContent s ↔
      closesOnLine (s ++ ['"']) = true ∧ literal (s ++ ['"']) = (s ++ ['"'], []) := by
  constructor
  · intro h
    exact ⟨closesOnLine_append h [], literal_append_quote h []⟩
  · rintro ⟨hcloses, hliteral⟩
    obtain ⟨content, hcontent, rest, hsplit⟩ := (closesOnLine_iff _).mp hcloses
    rw [← hsplit, List.append_assoc, List.singleton_append, literal_append_quote hcontent,
      Prod.mk.injEq] at hliteral
    obtain ⟨hsame, rfl⟩ := hliteral
    rw [List.append_nil] at hsplit
    rwa [← List.append_cancel_right hsplit]

instance (s : Text) : Decidable (Endless s) := decidable_of_iff _ (endless_iff s).symm

instance (s : Text) : Decidable (BlockContent s) := decidable_of_iff _ (blockContent_iff s).symm

instance (s : Text) : Decidable (StringContent s) := decidable_of_iff _ (stringContent_iff s).symm

theorem plain_fits_iff (c : Char) (rest : Text) :
    (Segment.plain c).Fits rest ↔
      c ≠ '#' ∧ (c = '/' → '/' ∉ rest.head? ∧ '*' ∉ rest.head?) ∧ (c = '@' → '"' ∉ rest.head?) ∧
        (c = '"' → closesOnLine rest ≠ true) := by
  simp [Fits, closesOnLine_iff]

instance decidableFits (rest : Text) : (segment : Segment) → Decidable (segment.Fits rest)
  | .block content => inferInstanceAs (Decidable (BlockContent content))
  | .line content => inferInstanceAs (Decidable ('\n' ∉ content))
  | .directive content => inferInstanceAs (Decidable ('\n' ∉ content))
  | .string content => inferInstanceAs (Decidable (StringContent content))
  | .verbatim chunks =>
    inferInstanceAs (Decidable (chunks ≠ [] ∧ (∀ chunk ∈ chunks, '"' ∉ chunk) ∧ '"' ∉ rest.head?))
  | .plain c => decidable_of_iff _ (plain_fits_iff c rest).symm
  | .cutBlock content => inferInstanceAs (Decidable (rest = [] ∧ Endless content))
  | .cutLine content => inferInstanceAs (Decidable (rest = [] ∧ '\n' ∉ content))
  | .cutDirective content => inferInstanceAs (Decidable (rest = [] ∧ '\n' ∉ content))
  | .cutVerbatim chunks content =>
    inferInstanceAs (Decidable (rest = [] ∧ (∀ chunk ∈ chunks, '"' ∉ chunk) ∧ '"' ∉ content))

instance decidableFitting : (segments : List Segment) → Decidable (Fitting segments)
  | [] => .isTrue trivial
  | segment :: later =>
    have := decidableFitting later
    inferInstanceAs (Decidable (segment.Fits (later.flatMap text) ∧ Fitting later))

theorem verbatim_true_append {chunk : Text} (h : '"' ∉ chunk) (rest : Text) :
    verbatim true (chunk ++ '"' :: rest) =
      (chunk ++ '"' :: (verbatim false rest).1, (verbatim false rest).2) := by
  induction chunk with
  | nil => rfl
  | cons c chunk ih =>
      rw [List.mem_cons, not_or] at h
      have hc : (c != '"') = true := by simpa using fun hc => h.1 hc.symm
      rw [List.cons_append, verbatim, hc, ih h.2, List.cons_append]

theorem verbatim_true_of_not_mem {s : Text} (h : '"' ∉ s) : verbatim true s = (s, []) := by
  induction s with
  | nil => rfl
  | cons c s ih =>
      rw [List.mem_cons, not_or] at h
      have hc : (c != '"') = true := by simpa using fun hc => h.1 hc.symm
      rw [verbatim, hc, ih h.2]

theorem verbatim_false_of_not_mem {s : Text} (h : '"' ∉ s.head?) : verbatim false s = ([], s) := by
  rcases s with _ | ⟨c, s⟩
  · rfl
  · rw [verbatim]
    rintro rest hsplit
    obtain ⟨rfl, rfl⟩ := List.cons.inj hsplit
    exact h rfl

theorem verbatim_false_append {chunks : List Text} (h : ∀ chunk ∈ chunks, '"' ∉ chunk)
    (rest : Text) :
    verbatim false (quoted chunks ++ rest) =
      (quoted chunks ++ (verbatim false rest).1, (verbatim false rest).2) := by
  induction chunks with
  | nil => rfl
  | cons chunk chunks ih =>
      have hchunks : ∀ other ∈ chunks, '"' ∉ other := by
        intro other hother
        exact h other (by simp [hother])
      have hquoted : quoted (chunk :: chunks) = '"' :: (chunk ++ '"' :: quoted chunks) := by
        simp [quoted]
      rw [hquoted, List.cons_append, verbatim, List.append_assoc, List.cons_append,
        verbatim_true_append (h chunk (by simp)), ih hchunks]
      simp

theorem strip_nil : strip [] = [] := by
  rw [strip]

theorem strip_block (rest : Text) : strip ('/' :: '*' :: rest) = strip (afterBlock rest) := by
  rw [strip]

theorem strip_line (rest : Text) : strip ('/' :: '/' :: rest) = '\n' :: strip (afterLine rest) := by
  rw [strip]

theorem strip_directive (rest : Text) : strip ('#' :: rest) = strip (afterLine rest) := by
  rw [strip]

theorem strip_verbatim {s : Text} (h : '"' ∈ s.head?) :
    strip ('@' :: s) = '@' :: ((verbatim false s).1 ++ strip (verbatim false s).2) := by
  rcases s with _ | ⟨c, s⟩
  · simp at h
  · obtain rfl : c = '"' := by simpa using h
    rw [strip, verbatim]
    simp

theorem strip_plain {c : Char} {rest : Text} (h : (Segment.plain c).Fits rest) :
    strip (c :: rest) = c :: strip rest := by
  obtain ⟨hdirective, hslash, hverbatim, hstring⟩ := (plain_fits_iff c rest).mp h
  by_cases hquote : c = '"'
  · subst hquote
    rw [strip, if_neg (hstring rfl)]
  · rw [strip]
    · rintro tail rfl rfl
      exact (hslash rfl).2 rfl
    · rintro tail rfl rfl
      exact (hslash rfl).1 rfl
    · exact hdirective
    · exact hquote
    · rintro tail rfl rfl
      exact hverbatim rfl rfl

theorem quote_mem_head?_quoted {chunks : List Text} (h : chunks ≠ []) (rest : Text) :
    '"' ∈ (quoted chunks ++ rest).head? := by
  obtain ⟨chunk, chunks, rfl⟩ := List.exists_cons_of_ne_nil h
  simp [quoted]

theorem strip_append {segment : Segment} {rest : Text} (h : segment.Fits rest) :
    strip (segment.text ++ rest) = segment.left ++ strip rest := by
  cases segment with
  | block content =>
      simp only [text, left, List.cons_append, List.append_assoc, List.nil_append]
      rw [strip_block, afterBlock_append h]
  | line content =>
      simp only [text, left, List.cons_append, List.append_assoc, List.nil_append]
      rw [strip_line, afterLine_append h]
  | directive content =>
      simp only [text, left, List.cons_append, List.append_assoc, List.nil_append]
      rw [strip_directive, afterLine_append h]
  | string content =>
      simp only [text, left, List.cons_append, List.append_assoc, List.nil_append]
      rw [strip, if_pos (closesOnLine_append h rest), literal_append_quote h]
      simp
  | verbatim chunks =>
      obtain ⟨hne, hchunks, hrest⟩ := h
      simp only [text, left, List.cons_append]
      rw [strip_verbatim (quote_mem_head?_quoted hne rest), verbatim_false_append hchunks,
        verbatim_false_of_not_mem hrest, List.append_nil]
  | plain c => exact strip_plain h
  | cutBlock content =>
      obtain ⟨rfl, hcontent⟩ := h
      simp only [text, left, List.append_nil, List.nil_append]
      rw [strip_block, afterBlock_of_endless hcontent]
  | cutLine content =>
      obtain ⟨rfl, hcontent⟩ := h
      simp only [text, left, List.append_nil, List.cons_append, List.nil_append]
      rw [strip_line, afterLine_of_not_mem hcontent]
  | cutDirective content =>
      obtain ⟨rfl, hcontent⟩ := h
      simp only [text, left, List.append_nil, List.nil_append]
      rw [strip_directive, afterLine_of_not_mem hcontent]
  | cutVerbatim chunks content =>
      obtain ⟨rfl, hchunks, hcontent⟩ := h
      have hopen : '"' ∈ (quoted chunks ++ '"' :: content).head? := by
        rcases chunks with _ | ⟨chunk, chunks⟩
        · rfl
        · exact quote_mem_head?_quoted (by simp) _
      simp only [text, left, List.append_nil, List.cons_append]
      rw [strip_verbatim hopen, verbatim_false_append hchunks, verbatim,
        verbatim_true_of_not_mem hcontent, strip_nil, List.append_nil]

theorem exists_line (s : Text) :
    '\n' ∉ s ∨ ∃ content rest, '\n' ∉ content ∧ s = content ++ '\n' :: rest := by
  by_cases h : '\n' ∈ s
  · obtain ⟨content, rest, hsplit, hcontent⟩ := List.eq_append_cons_of_mem h
    exact .inr ⟨content, rest, hcontent, hsplit⟩
  · exact .inl h

/-- A verbatim literal goes through closed chunks up to something other than a quote, or through an
open chunk up to the end. -/
theorem exists_chunks (s : Text) :
    ∃ chunks : List Text, (∀ chunk ∈ chunks, '"' ∉ chunk) ∧
      ((∃ rest, '"' ∉ rest.head? ∧ s = quoted chunks ++ rest) ∨
        ∃ content, '"' ∉ content ∧ s = quoted chunks ++ '"' :: content) := by
  induction hlength : s.length using Nat.strong_induction_on generalizing s with
  | _ n ih =>
      by_cases hquote : '"' ∈ s.head?
      · obtain ⟨c, tail, rfl⟩ : ∃ c tail, s = c :: tail := by
          rcases s with _ | ⟨c, tail⟩
          · simp at hquote
          · exact ⟨c, tail, rfl⟩
        obtain rfl : c = '"' := by simpa using hquote
        by_cases hclosed : '"' ∈ tail
        · obtain ⟨chunk, rest, rfl, hchunk⟩ := List.eq_append_cons_of_mem hclosed
          obtain ⟨chunks, hchunks, hsplit⟩ := ih rest.length (by simp at hlength; omega) rest rfl
          refine ⟨chunk :: chunks, ?_, ?_⟩
          · intro other hother
            rcases List.mem_cons.mp hother with rfl | hother
            · exact hchunk
            · exact hchunks other hother
          · rcases hsplit with ⟨rest', hrest', rfl⟩ | ⟨content, hcontent, rfl⟩
            · exact .inl ⟨rest', hrest', by simp [quoted]⟩
            · exact .inr ⟨content, hcontent, by simp [quoted]⟩
        · exact ⟨[], by simp, .inr ⟨tail, hclosed, rfl⟩⟩
      · exact ⟨[], by simp, .inl ⟨s, hquote, rfl⟩⟩

theorem exists_directive (s : Text) :
    ∃ (segment : Segment) (rest : Text), segment.Fits rest ∧ '#' :: s = segment.text ++ rest := by
  rcases exists_line s with hline | ⟨content, rest, hcontent, rfl⟩
  · exact ⟨.cutDirective s, [], ⟨rfl, hline⟩, by simp [text]⟩
  · exact ⟨.directive content, rest, hcontent, by simp [text]⟩

theorem exists_lineComment (s : Text) :
    ∃ (segment : Segment) (rest : Text), segment.Fits rest ∧
      '/' :: '/' :: s = segment.text ++ rest := by
  rcases exists_line s with hline | ⟨content, rest, hcontent, rfl⟩
  · exact ⟨.cutLine s, [], ⟨rfl, hline⟩, by simp [text]⟩
  · exact ⟨.line content, rest, hcontent, by simp [text]⟩

theorem exists_blockComment (s : Text) :
    ∃ (segment : Segment) (rest : Text), segment.Fits rest ∧
      '/' :: '*' :: s = segment.text ++ rest := by
  rcases endless_or_exists_blockContent s with hendless | ⟨content, rest, hcontent, rfl⟩
  · exact ⟨.cutBlock s, [], ⟨rfl, hendless⟩, by simp [text]⟩
  · exact ⟨.block content, rest, hcontent, by simp [text]⟩

theorem exists_verbatim {s : Text} (h : '"' ∈ s.head?) :
    ∃ (segment : Segment) (rest : Text), segment.Fits rest ∧ '@' :: s = segment.text ++ rest := by
  obtain ⟨chunks, hchunks, ⟨rest, hrest, rfl⟩ | ⟨content, hcontent, rfl⟩⟩ := exists_chunks s
  · refine ⟨.verbatim chunks, rest, ⟨?_, hchunks, hrest⟩, by simp [text]⟩
    rintro rfl
    exact hrest h
  · exact ⟨.cutVerbatim chunks content, [], ⟨rfl, hchunks, hcontent⟩, by simp [text]⟩

theorem exists_segment {s : Text} (h : s ≠ []) :
    ∃ (segment : Segment) (rest : Text), segment.Fits rest ∧ s = segment.text ++ rest := by
  obtain ⟨c, tail, rfl⟩ := List.exists_cons_of_ne_nil h
  by_cases hdirective : c = '#'
  · exact hdirective ▸ exists_directive tail
  by_cases hline : c = '/' ∧ '/' ∈ tail.head?
  · obtain ⟨tail', rfl⟩ := List.head?_eq_some_iff.mp hline.2
    exact hline.1 ▸ exists_lineComment tail'
  by_cases hblock : c = '/' ∧ '*' ∈ tail.head?
  · obtain ⟨tail', rfl⟩ := List.head?_eq_some_iff.mp hblock.2
    exact hblock.1 ▸ exists_blockComment tail'
  by_cases hverbatim : c = '@' ∧ '"' ∈ tail.head?
  · exact hverbatim.1 ▸ exists_verbatim hverbatim.2
  by_cases hstring : c = '"' ∧ ∃ content, StringContent content ∧ content ++ ['"'] <+: tail
  · obtain ⟨rfl, content, hcontent, rest, rfl⟩ := hstring
    exact ⟨.string content, rest, hcontent, by simp [text]⟩
  -- the character opens nothing, which is what a plain one has to meet
  refine ⟨.plain c, tail, ⟨hdirective, ?_, ?_, ?_⟩, rfl⟩
  · intro hslash
    exact ⟨fun hmem => hline ⟨hslash, hmem⟩, fun hmem => hblock ⟨hslash, hmem⟩⟩
  · exact fun hat hmem => hverbatim ⟨hat, hmem⟩
  · exact fun hquote content hcontent hprefix => hstring ⟨hquote, content, hcontent, hprefix⟩

theorem text_ne_nil (segment : Segment) : segment.text ≠ [] := by
  cases segment <;> simp [text]

theorem exists_fitting (source : Text) :
    ∃ segments, Fitting segments ∧ source = segments.flatMap text := by
  induction hlength : source.length using Nat.strong_induction_on generalizing source with
  | _ n ih =>
      by_cases hsource : source = []
      · exact ⟨[], trivial, hsource⟩
      · obtain ⟨segment, rest, hsegment, rfl⟩ := exists_segment hsource
        have hpos := List.length_pos_iff.mpr (text_ne_nil segment)
        obtain ⟨segments, hsegments, rfl⟩ :=
          ih rest.length (by rw [List.length_append] at hlength; omega) rest rfl
        exact ⟨segment :: segments, ⟨hsegment, hsegments⟩, rfl⟩

theorem strip_flatMap_text {segments : List Segment} (h : Fitting segments) :
    strip (segments.flatMap text) = segments.flatMap left := by
  induction segments with
  | nil => exact strip_nil
  | cons segment later ih =>
      rw [List.flatMap_cons, strip_append h.1, ih h.2, List.flatMap_cons]

/-- Every source is made up of segments, and however it is, stripping leaves what is left of them:
nothing of block comments and directives, a line feed of a line comment, and all of the others. -/
theorem exists_segments_and_strip :
    (∀ source : Text, ∃ segments, Fitting segments ∧ source = segments.flatMap text) ∧
      ∀ segments, Fitting segments →
        strip (segments.flatMap text) = segments.flatMap left :=
  ⟨exists_fitting, fun _ => strip_flatMap_text⟩

theorem exists_segments_and_strip_literals :
    let segments : List Segment :=
      [.string "a\\\"/*".toList, .block "/ *".toList, .plain 'x', .plain '"', .line "y".toList,
        .verbatim ["//".toList, []], .directive "z".toList, .plain '@', .cutBlock "*\"".toList]
    segments.flatMap text =
        "\"a\\\"/*\"/*/ **/x\"//y\n@\"//\"\"\"#z\n@/**\"".toList ∧
      Fitting segments ∧
      strip (segments.flatMap text) = "\"a\\\"/*\"x\"\n@\"//\"\"\"@".toList := by
  intro segments
  have hsegments : Fitting segments := by decide
  refine ⟨by decide, hsegments, ?_⟩
  rw [exists_segments_and_strip.2 segments hsegments]
  decide

end CgShader.Proofs.CommentGrammar
