import CgShader.Proofs.LayoutIndependence

/-!
The two ways to end a line. A carriage return before a line feed is seen by every state of the
stripping of comments, and is left, taken or passed over together with its line feed; normalization
then makes one space of both.
-/

namespace CgShader.Proofs.LineEnds

open CgShader.Source
open CgShader.Proofs.CommentGrammar
open CgShader.Proofs.SourcePreparation
open CgShader.Proofs.LayoutIndependence

def ReturnAdded (piece piece' : Text) : Prop := piece = ['\n'] ∧ piece' = ['\r', '\n']

theorem layoutRuns_of_returnAdded (piece piece' : Text) (h : ReturnAdded piece piece') :
    LayoutRuns piece piece' := by
  obtain ⟨rfl, rfl⟩ := h
  exact ⟨by decide, by decide⟩

theorem eq_nil_of_exchanged {t : Text} (h : Exchanged ReturnAdded [] t) : t = [] := by
  generalize hs : [] = s at h
  cases h with
  | nil => rfl
  | keep c _ => cases hs
  | exchange hpair _ =>
      obtain ⟨rfl, -⟩ := hpair
      cases hs

theorem exchanged_cons_cases {c : Char} {s t : Text} (h : Exchanged ReturnAdded (c :: s) t) :
    ∃ s', Exchanged ReturnAdded s s' ∧ (t = c :: s' ∨ c = '\n' ∧ t = '\r' :: '\n' :: s') := by
  generalize hs : c :: s = u at h
  cases h with
  | nil => cases hs
  | @keep d u s' hrest =>
      cases hs
      exact ⟨s', hrest, .inl rfl⟩
  | @exchange piece piece' u s' hpair hrest =>
      obtain ⟨rfl, rfl⟩ := hpair
      cases hs
      exact ⟨s', hrest, .inr ⟨rfl, rfl⟩⟩

theorem exists_cons_of_exchanged {c : Char} {s t : Text} (hc : c ≠ '\n')
    (h : Exchanged ReturnAdded (c :: s) t) : ∃ s', t = c :: s' ∧ Exchanged ReturnAdded s s' := by
  obtain ⟨s', hs, rfl | ⟨hline, -⟩⟩ := exchanged_cons_cases h
  · exact ⟨s', rfl, hs⟩
  · exact absurd hline hc

theorem exists_append_of_exchanged (front : Text) {s t : Text} (hfront : '\n' ∉ front)
    (h : Exchanged ReturnAdded (front ++ s) t) :
    ∃ s', t = front ++ s' ∧ Exchanged ReturnAdded s s' := by
  induction front generalizing t with
  | nil => exact ⟨t, rfl, h⟩
  | cons c front ih =>
      rw [List.mem_cons, not_or] at hfront
      obtain ⟨t, rfl, ht⟩ := exists_cons_of_exchanged (fun hc => hfront.1 hc.symm) h
      obtain ⟨s', rfl, hs⟩ := ih hfront.2 ht
      exact ⟨s', rfl, hs⟩

theorem not_mem_head?_of_exchanged {s t : Text} (h : Exchanged ReturnAdded s t) {c : Char}
    (hc : isLayout c = false) (hmem : c ∉ s.head?) : c ∉ t.head? :=
  fun ht => hmem (mem_head?_of_exchanged (h.mono layoutRuns_of_returnAdded) hc ht)

theorem afterLine_exchanged {s t : Text} (h : Exchanged ReturnAdded s t) :
    Exchanged ReturnAdded (afterLine s) (afterLine t) := by
  fun_induction afterLine s generalizing t with
  | case1 =>
      rw [eq_nil_of_exchanged h]
      exact .nil
  | case2 rest =>
      obtain ⟨rest', hrest, rfl | ⟨-, rfl⟩⟩ := exchanged_cons_cases h
      · exact hrest
      · exact hrest
  | case3 c rest hc ih =>
      obtain ⟨rest', rfl, hrest⟩ := exists_cons_of_exchanged hc h
      rw [afterLine]
      · exact ih hrest
      · exact hc

theorem afterBlock_exchanged {s t : Text} (h : Exchanged ReturnAdded s t) :
    Exchanged ReturnAdded (afterBlock s) (afterBlock t) := by
  fun_induction afterBlock s generalizing t with
  | case1 =>
      rw [eq_nil_of_exchanged h]
      exact .nil
  | case2 rest =>
      obtain ⟨rest', rfl, hrest⟩ := exists_append_of_exchanged ['*', '/'] (by decide) h
      exact hrest
  | case3 c rest hopen ih =>
      obtain ⟨rest', hrest, rfl | ⟨rfl, rfl⟩⟩ := exchanged_cons_cases h
      · rw [afterBlock_cons_of_not]
        · exact ih hrest
        · rintro ⟨rfl, hslash⟩
          refine not_mem_head?_of_exchanged hrest rfl ?_ hslash
          intro hmem
          obtain ⟨tail, rfl⟩ := List.head?_eq_some_iff.mp hmem
          exact hopen tail rfl rfl
      · rw [afterBlock_cons_of_not (by simp), afterBlock_cons_of_not (by simp)]
        exact ih hrest

theorem closesOnLine_exchanged {s t : Text} (h : Exchanged ReturnAdded s t) :
    closesOnLine t = closesOnLine s := by
  fun_induction closesOnLine s generalizing t with
  | case1 => rw [eq_nil_of_exchanged h, closesOnLine]
  | case2 rest =>
      obtain ⟨rest', rfl, -⟩ := exists_cons_of_exchanged (by decide) h
      rfl
  | case3 rest =>
      obtain ⟨rest', -, rfl | ⟨-, rfl⟩⟩ := exchanged_cons_cases h
      · rfl
      · simp [closesOnLine]
  | case4 rest =>
      obtain ⟨rest', rfl, hrest⟩ := exists_cons_of_exchanged (by decide) h
      obtain ⟨rest', -, rfl | ⟨-, rfl⟩⟩ := exchanged_cons_cases hrest
      · rfl
      · -- the backslash takes the carriage return, and the line ends behind it
        simp [closesOnLine]
  | case5 c rest hline ih =>
      have hfront : '\n' ∉ ['\\', c] := by simpa using fun hc => hline hc.symm
      obtain ⟨rest', rfl, hrest⟩ := exists_append_of_exchanged ['\\', c] hfront h
      rw [List.cons_append, List.cons_append, List.nil_append, closesOnLine]
      · exact ih hrest
      · exact hline
  | case6 c rest hquote hline hescaped hbackslash ih =>
      obtain ⟨rest', rfl, hrest⟩ := exists_cons_of_exchanged hline h
      have hend : c = '\\' → rest' = [] := by
        rintro rfl
        rcases rest with _ | ⟨d, rest⟩
        · exact eq_nil_of_exchanged hrest
        · exact (hbackslash d rest rfl rfl).elim
      rw [closesOnLine]
      · exact ih hrest
      · exact hquote
      · exact hline
      · intro tail hc htail
        rw [hend hc] at htail
        cases htail
      · intro d tail hc htail
        rw [hend hc] at htail
        cases htail

theorem verbatim_exchanged (inside : Bool) {s t : Text} (h : Exchanged ReturnAdded s t) :
    Exchanged ReturnAdded (verbatim inside s).1 (verbatim inside t).1 ∧
      Exchanged ReturnAdded (verbatim inside s).2 (verbatim inside t).2 := by
  fun_induction verbatim inside s generalizing t with
  | case1 =>
      rw [eq_nil_of_exchanged h]
      exact ⟨.nil, .nil⟩
  | case2 c rest ih =>
      obtain ⟨rest', hrest, rfl | ⟨rfl, rfl⟩⟩ := exchanged_cons_cases h
      · exact ⟨.keep c (ih hrest).1, (ih hrest).2⟩
      · exact ⟨.exchange ⟨rfl, rfl⟩ (ih hrest).1, (ih hrest).2⟩
  | case3 rest ih =>
      obtain ⟨rest', rfl, hrest⟩ := exists_cons_of_exchanged (by decide) h
      exact ⟨.keep '"' (ih hrest).1, (ih hrest).2⟩
  | case4 s hopen =>
      have hquote : '"' ∉ s.head? := by
        intro hmem
        obtain ⟨tail, rfl⟩ := List.head?_eq_some_iff.mp hmem
        exact hopen tail rfl
      rw [verbatim_false_of_not_mem (not_mem_head?_of_exchanged h rfl hquote)]
      exact ⟨.nil, h⟩

theorem strip_exchanged {s t : Text} (h : Exchanged ReturnAdded s t) :
    Exchanged ReturnAdded (strip s) (strip t) := by
  fun_induction strip s generalizing t with
  | case1 =>
      rw [eq_nil_of_exchanged h, strip_nil]
      exact .nil
  | case2 rest ih =>
      obtain ⟨rest', rfl, hrest⟩ := exists_append_of_exchanged ['/', '*'] (by decide) h
      rw [List.cons_append, List.cons_append, List.nil_append, strip_block]
      exact ih (afterBlock_exchanged hrest)
  | case3 rest ih =>
      obtain ⟨rest', rfl, hrest⟩ := exists_append_of_exchanged ['/', '/'] (by decide) h
      rw [List.cons_append, List.cons_append, List.nil_append, strip_line]
      exact .keep '\n' (ih (afterLine_exchanged hrest))
  | case4 rest ih =>
      obtain ⟨rest', rfl, hrest⟩ := exists_cons_of_exchanged (by decide) h
      rw [strip_directive]
      exact ih (afterLine_exchanged hrest)
  | case5 rest hcloses ih =>
      obtain ⟨content, hcontent, back, rfl⟩ := (closesOnLine_iff rest).mp hcloses
      have hline : '\n' ∉ '"' :: (content ++ ['"']) := by simp [hcontent.line_not_mem]
      obtain ⟨back', rfl, hback⟩ := exists_append_of_exchanged ('"' :: (content ++ ['"'])) hline h
      have hliteral : literal (content ++ ['"'] ++ back) = (content ++ ['"'], back) := by
        rw [List.append_assoc]
        exact literal_append_quote hcontent back
      have hstrip : strip ('"' :: (content ++ ['"']) ++ back') =
          '"' :: (content ++ ['"']) ++ strip back' :=
        strip_append (show (Segment.string content).Fits back' from hcontent)
      rw [hliteral] at ih ⊢
      rw [hstrip]
      exact (ih hback).append_left ('"' :: (content ++ ['"']))
  | case6 rest hcloses ih =>
      obtain ⟨rest', rfl, hrest⟩ := exists_cons_of_exchanged (by decide) h
      rw [strip, if_neg (by rwa [closesOnLine_exchanged hrest])]
      exact .keep '"' (ih hrest)
  | case7 rest ih =>
      obtain ⟨rest', rfl, hrest⟩ := exists_append_of_exchanged ['@', '"'] (by decide) h
      obtain ⟨hinside, hbehind⟩ := verbatim_exchanged true hrest
      rw [List.cons_append, List.cons_append, List.nil_append, strip]
      exact .keep '@' (.keep '"' (hinside.append (ih hbehind)))
  | case8 c rest hblock hline hdirective hquote hverbatim ih =>
      obtain ⟨rest', hrest, rfl | ⟨rfl, rfl⟩⟩ := exchanged_cons_cases h
      · have hhead : ∀ d, isLayout d = false → (∀ tail, rest ≠ d :: tail) → d ∉ rest'.head? := by
          intro d hd hne
          apply not_mem_head?_of_exchanged hrest hd
          intro hmem
          obtain ⟨tail, htail⟩ := List.head?_eq_some_iff.mp hmem
          exact hne tail htail
        have hfits : (Segment.plain c).Fits rest' := by
          rw [plain_fits_iff]
          refine ⟨hdirective, fun hc => ⟨?_, ?_⟩, fun hc => ?_, fun hc => absurd hc hquote⟩
          · exact hhead '/' rfl (fun tail htail => hline tail hc htail)
          · exact hhead '*' rfl (fun tail htail => hblock tail hc htail)
          · exact hhead '"' rfl (fun tail htail => hverbatim tail hc htail)
        rw [strip_plain hfits]
        exact .keep c (ih hrest)
      · have hstrip : strip (['\r', '\n'] ++ rest') = ['\r', '\n'] ++ strip rest' :=
          strip_plain_append (by decide) rest'
        change Exchanged ReturnAdded (['\n'] ++ strip rest) (strip (['\r', '\n'] ++ rest'))
        rw [hstrip]
        exact .exchange ⟨rfl, rfl⟩ (ih hrest)

/-- A source is prepared to the same text with a carriage return before any of its line feeds, and
without. -/
theorem prepareWith_eq_of_returns (table : Spelling) (position : Text) {source source' : Text}
    (h : Exchanged ReturnAdded source source') :
    prepareWith table position source' = prepareWith table position source := by
  have hrespelled : Exchanged ReturnAdded (replaceIdentifiers table position source)
      (replaceIdentifiers table position source') := by
    apply h.respell
    intro piece piece' hpair
    obtain ⟨hrun, hrun'⟩ := layoutRuns_of_returnAdded piece piece' hpair
    exact ⟨hrun.parts, hrun'.parts⟩
  have hstripped := (strip_exchanged hrespelled).mono layoutRuns_of_returnAdded
  exact (normalize_eq_of_exchanged hstripped).symm

theorem prepareWith_eq_of_returns_literals :
    let source := "#a\n\"b\\\n//c\nd/*\n*/@\"\n//\"\"\n\"\\\n\"\\\"\"\n".toList
    let source' :=
      "#a\r\n\"b\\\r\n//c\r\nd/*\n*/@\"\r\n//\"\"\n\"\\\r\n\"\\\"\"\r\n".toList
    Exchanged ReturnAdded source source' ∧
      prepareWith .empty "d d".toList source' = prepareWith .empty "d d".toList source ∧
      prepareWith .empty "d d".toList source = "\"b\\ d@\" //\"\" \"\\ \"\\\"\" ".toList := by
  intro source source'
  have hexchanged : Exchanged ReturnAdded source source' := by
    have hsource : source = "#a".toList ++ (['\n'] ++ ("\"b\\".toList ++ (['\n'] ++
        ("//c".toList ++ (['\n'] ++ ("d/*\n*/@\"".toList ++ (['\n'] ++
          ("//\"\"\n\"\\".toList ++ (['\n'] ++ ("\"\\\"\"".toList ++
            (['\n'] ++ []))))))))))) := by
      decide
    have hsource' : source' = "#a".toList ++ (['\r', '\n'] ++ ("\"b\\".toList ++
        (['\r', '\n'] ++ ("//c".toList ++ (['\r', '\n'] ++ ("d/*\n*/@\"".toList ++
          (['\r', '\n'] ++ ("//\"\"\n\"\\".toList ++ (['\r', '\n'] ++
            ("\"\\\"\"".toList ++ (['\r', '\n'] ++ []))))))))))) := by
      decide
    rw [hsource, hsource']
    refine .append_left _ (.exchange ⟨rfl, rfl⟩ ?_)
    refine .append_left _ (.exchange ⟨rfl, rfl⟩ ?_)
    refine .append_left _ (.exchange ⟨rfl, rfl⟩ ?_)
    refine .append_left _ (.exchange ⟨rfl, rfl⟩ ?_)
    refine .append_left _ (.exchange ⟨rfl, rfl⟩ ?_)
    exact .append_left _ (.exchange ⟨rfl, rfl⟩ .nil)
  exact ⟨hexchanged, prepareWith_eq_of_returns .empty "d d".toList hexchanged, by decide +kernel⟩

end CgShader.Proofs.LineEnds
