import CgShader.Proofs.CommentGrammar
import CgShader.Source.Prepared

/-!
The steps that prepare a source, each on a text that is put together from two: respelling splits
where no identifier runs on, stripping where nothing has been opened, and normalization, which makes
one space of each run of layout, where no such run goes on.
-/

namespace CgShader.Proofs.SourcePreparation

open CgShader.Source
open CgShader.Proofs.TextRuns
open CgShader.Proofs.CommentGrammar

/-- The white space of lines, tabs and spaces, which normalization makes spaces of. -/
def isLayout (c : Char) : Bool := c == ' ' || c == '\t' || c == '\r' || c == '\n'

theorem flatten_cons_of_not_layout {c : Char} (hc : isLayout c = false) (s : Text) :
    flatten (c :: s) = c :: flatten s := by
  simp only [isLayout, Bool.or_eq_false_iff, beq_eq_false_iff_ne] at hc
  obtain ⟨⟨⟨-, htab⟩, hreturn⟩, hline⟩ := hc
  rw [flatten, if_neg (by simp [hline, hreturn]), if_neg htab]
  rintro rest rfl
  exact absurd rfl hreturn

theorem exists_flatten_cons_of_layout {c : Char} (hc : isLayout c = true) (s : Text) :
    ∃ t, flatten (c :: s) = ' ' :: t := by
  simp only [isLayout, Bool.or_eq_true, beq_iff_eq] at hc
  by_cases hreturn : c = '\r'
  · subst hreturn
    rcases s with _ | ⟨d, s⟩
    · exact ⟨[], rfl⟩
    · by_cases hline : d = '\n'
      · subst hline
        exact ⟨flatten s, rfl⟩
      · exact ⟨flatten (d :: s), by simp [flatten, hline]⟩
  · rcases hc with ((rfl | rfl) | rfl) | rfl
    · exact ⟨flatten s, by simp [flatten]⟩
    · exact ⟨' ' :: flatten s, by simp [flatten]⟩
    · exact absurd rfl hreturn
    · exact ⟨flatten s, by simp [flatten]⟩

theorem dropWhile_flatten (s : Text) :
    (flatten s).dropWhile (· == ' ') = flatten (s.dropWhile isLayout) := by
  fun_induction flatten s with
  | case1 => rfl
  | case2 rest ih => simpa [isLayout] using ih
  | case3 c rest hpair hline ih =>
      have hc : isLayout c = true := by
        rcases hline with rfl | rfl <;> rfl
      rw [List.dropWhile_cons_of_pos rfl, List.dropWhile_cons_of_pos hc, ih]
  | case4 rest _ _ ih => simpa [isLayout] using ih
  | case5 c rest hpair hline htab ih =>
      by_cases hc : c = ' '
      · subst hc
        rw [List.dropWhile_cons_of_pos rfl, List.dropWhile_cons_of_pos rfl, ih]
      · have hlayout : isLayout c = false := by
          rw [not_or] at hline
          simp [isLayout, hc, htab, hline]
        rw [List.dropWhile_cons_of_neg (by simpa using hc),
          List.dropWhile_cons_of_neg (by simp [hlayout]), flatten_cons_of_not_layout hlayout]

theorem collapse_space_cons (s : Text) :
    collapse (' ' :: s) = ' ' :: collapse (s.dropWhile (· == ' ')) := by
  induction s with
  | nil => rfl
  | cons c s ih =>
      by_cases hc : c = ' '
      · subst hc
        rw [collapse, if_pos ⟨rfl, rfl⟩, ih, List.dropWhile_cons_of_pos rfl]
      · rw [collapse, if_neg (by simpa using hc), List.dropWhile_cons_of_neg (by simpa using hc)]

theorem normalize_nil : normalize [] = [] := rfl

theorem normalize_cons_of_not_layout {c : Char} (hc : isLayout c = false) (s : Text) :
    normalize (c :: s) = c :: normalize s := by
  have hspace : c ≠ ' ' := by
    rintro rfl
    cases hc
  rw [Source.normalize, flatten_cons_of_not_layout hc, collapse, if_neg (fun h => hspace h.1),
    Source.normalize]

theorem normalize_cons_of_layout {c : Char} (hc : isLayout c = true) (s : Text) :
    normalize (c :: s) = ' ' :: normalize (s.dropWhile isLayout) := by
  obtain ⟨t, ht⟩ := exists_flatten_cons_of_layout hc s
  have hdrop := dropWhile_flatten (c :: s)
  rw [ht, List.dropWhile_cons_of_pos rfl, List.dropWhile_cons_of_pos hc] at hdrop
  rw [Source.normalize, ht, collapse_space_cons, hdrop, Source.normalize]

/-- An induction along the runs of layout of a text. -/
theorem layout_induction {motive : Text → Prop} (nil : motive [])
    (visible : ∀ c s, isLayout c = false → motive s → motive (c :: s))
    (layout : ∀ c s, isLayout c = true → motive (s.dropWhile isLayout) → motive (c :: s))
    (s : Text) : motive s := by
  induction hlength : s.length using Nat.strong_induction_on generalizing s with
  | _ n ih =>
      rcases s with _ | ⟨c, s⟩
      · exact nil
      · rw [List.length_cons] at hlength
        by_cases hc : isLayout c = true
        · have hdrop := Text.length_dropWhile_le isLayout s
          exact layout c s hc (ih _ (by omega) _ rfl)
        · exact visible c s (by simpa using hc) (ih _ (by omega) _ rfl)

theorem getLast?_dropWhile {p : Char → Bool} {s : Text} (h : s.dropWhile p ≠ []) :
    (s.dropWhile p).getLast? = s.getLast? := by
  have hsplit := congrArg List.getLast? (List.takeWhile_append_dropWhile (p := p) (l := s))
  rwa [List.getLast?_append_of_ne_nil _ h] at hsplit

theorem dropWhile_append_of_ne_nil {p : Char → Bool} {s : Text} (h : s.dropWhile p ≠ [])
    (t : Text) : (s ++ t).dropWhile p = s.dropWhile p ++ t := by
  rw [List.dropWhile_append, if_neg (by simpa using h)]

theorem dropWhile_append_of_eq_nil {p : Char → Bool} {s : Text} (h : s.dropWhile p = [])
    (t : Text) : (s ++ t).dropWhile p = t.dropWhile p := by
  rw [List.dropWhile_append, if_pos (by simpa using h)]

theorem getLast?_cons_of_ne_nil (c : Char) {s : Text} (hs : s ≠ []) :
    (c :: s).getLast? = s.getLast? := by
  obtain ⟨d, s, rfl⟩ := List.exists_cons_of_ne_nil hs
  exact List.getLast?_cons_cons

theorem exists_layout_getLast? {c : Char} {s : Text} (hc : isLayout c = true)
    (hs : s.dropWhile isLayout = []) : ∃ d ∈ (c :: s).getLast?, isLayout d = true := by
  refine ⟨(c :: s).getLast (by simp), List.getLast?_eq_getLast_of_ne_nil (by simp), ?_⟩
  rw [List.dropWhile_eq_nil_iff] at hs
  rcases List.mem_cons.mp (List.getLast_mem (l := c :: s) (by simp)) with hlast | hlast
  · rwa [hlast]
  · exact hs _ hlast

theorem normalize_append {s t : Text}
    (h : (∀ c ∈ s.getLast?, isLayout c = false) ∨ ∀ c ∈ t.head?, isLayout c = false) :
    normalize (s ++ t) = normalize s ++ normalize t := by
  induction s using layout_induction with
  | nil => rfl
  | visible c s hc ih =>
      rw [List.cons_append, normalize_cons_of_not_layout hc, normalize_cons_of_not_layout hc,
        List.cons_append, ih (h.imp_left fun hlast d hd => hlast d (List.mem_getLast?_cons hd))]
  | layout c s hc ih =>
      rw [List.cons_append, normalize_cons_of_layout hc, normalize_cons_of_layout hc,
        List.cons_append]
      by_cases hs : s.dropWhile isLayout = []
      · -- the run reaches the end of the first text, so it must not go on in the second
        have hhead : ∀ d ∈ t.head?, isLayout d = false := by
          refine h.resolve_left fun hlast => ?_
          obtain ⟨d, hd, hlayout⟩ := exists_layout_getLast? hc hs
          rw [hlast d hd] at hlayout
          cases hlayout
        rw [dropWhile_append_stop hhead, hs, normalize_nil, List.nil_append, List.nil_append]
      · rw [dropWhile_append_of_ne_nil hs, ih]
        rw [getLast?_dropWhile hs]
        exact h.imp_left fun hlast d hd => hlast d (List.mem_getLast?_cons hd)

theorem normalize_append_space {s t : Text}
    (h : (∃ c ∈ s.getLast?, isLayout c = true) ∨ ∃ c ∈ t.head?, isLayout c = true) :
    normalize (s ++ ' ' :: t) = normalize (s ++ t) := by
  have hspace : isLayout ' ' = true := rfl
  induction s using layout_induction with
  | nil =>
      obtain ⟨c, hc, hlayout⟩ := h.resolve_left (by simp)
      obtain ⟨tail, rfl⟩ := List.head?_eq_some_iff.mp hc
      rw [List.nil_append, List.nil_append, normalize_cons_of_layout hspace,
        normalize_cons_of_layout hlayout, List.dropWhile_cons_of_pos hlayout]
  | visible c s hc ih =>
      rw [List.cons_append, List.cons_append, normalize_cons_of_not_layout hc,
        normalize_cons_of_not_layout hc, ih]
      refine h.imp_left ?_
      rintro ⟨d, hd, hlayout⟩
      have hs : s ≠ [] := by
        rintro rfl
        obtain rfl : c = d := by simpa using hd
        rw [hc] at hlayout
        cases hlayout
      exact ⟨d, getLast?_cons_of_ne_nil c hs ▸ hd, hlayout⟩
  | layout c s hc ih =>
      rw [List.cons_append, List.cons_append, normalize_cons_of_layout hc,
        normalize_cons_of_layout hc]
      by_cases hs : s.dropWhile isLayout = []
      · rw [dropWhile_append_of_eq_nil hs, dropWhile_append_of_eq_nil hs,
          List.dropWhile_cons_of_pos hspace]
      · rw [dropWhile_append_of_ne_nil hs, dropWhile_append_of_ne_nil hs, ih]
        have hne : s ≠ [] := by
          rintro rfl
          exact hs rfl
        rwa [getLast?_dropWhile hs, ← getLast?_cons_of_ne_nil c hne]

theorem respell_append (spell : Text → Text) (s : Text) {t : Text}
    (ht : ∀ c ∈ t.head?, isIdentifierChar c = false) :
    respell spell (s ++ t) = respell spell s ++ respell spell t := by
  fun_induction respell spell s with
  | case1 => rfl
  | case2 c rest hc ih =>
      rw [List.cons_append, respell, if_pos hc, takeWhile_append_stop ht,
        dropWhile_append_stop ht, ih, List.append_assoc]
  | case3 c rest hc ih =>
      rw [List.cons_append, respell, if_neg hc, ih, List.cons_append]

theorem respell_cons_of_not {c : Char} (hc : isIdentifierChar c = false) (spell : Text → Text)
    (s : Text) : respell spell (c :: s) = c :: respell spell s := by
  rw [respell, if_neg (by simp [hc])]

theorem strip_plain_append {s : Text} (hs : ∀ c ∈ s, c ∉ ['/', '#', '"', '@']) (t : Text) :
    strip (s ++ t) = s ++ strip t := by
  induction s with
  | nil => rfl
  | cons c s ih =>
      have hc := hs c (by simp)
      simp only [List.mem_cons, List.not_mem_nil, or_false, not_or] at hc
      obtain ⟨hslash, hdirective, hquote, hat⟩ := hc
      rw [List.cons_append, strip_plain, ih (fun d hd => hs d (by simp [hd])), List.cons_append]
      rw [plain_fits_iff]
      exact ⟨hdirective, fun h => absurd h hslash, fun h => absurd h hat,
        fun h => absurd h hquote⟩

end CgShader.Proofs.SourcePreparation
