import CgShader.Program.Basic
import CgShader.Proofs.SourcePreparation

namespace CgShader.Proofs.LayoutIndependence

open CgShader.Source
open CgShader.Proofs.CommentGrammar
open CgShader.Proofs.SourcePreparation

/-- The second text is the first with some of its pieces exchanged. -/
inductive Exchanged (pair : Text → Text → Prop) : Text → Text → Prop
  | nil : Exchanged pair [] []
  | keep (c : Char) {s s' : Text} (hs : Exchanged pair s s') : Exchanged pair (c :: s) (c :: s')
  | exchange {piece piece' s s' : Text} (hpair : pair piece piece') (hs : Exchanged pair s s') :
      Exchanged pair (piece ++ s) (piece' ++ s')

namespace Exchanged

variable {pair : Text → Text → Prop}

theorem mono {pair' : Text → Text → Prop} (hmono : ∀ piece piece', pair piece piece' →
    pair' piece piece') {s s' : Text} (h : Exchanged pair s s') : Exchanged pair' s s' := by
  induction h with
  | nil => exact .nil
  | keep c _ ih => exact .keep c ih
  | exchange hpair _ ih => exact .exchange (hmono _ _ hpair) ih

theorem refl (s : Text) : Exchanged pair s s := by
  induction s with
  | nil => exact .nil
  | cons c s ih => exact .keep c ih

theorem append {s s' t t' : Text} (hs : Exchanged pair s s') (ht : Exchanged pair t t') :
    Exchanged pair (s ++ t) (s' ++ t') := by
  induction hs with
  | nil => exact ht
  | keep c _ ih => exact .keep c ih
  | exchange hpair _ ih =>
      rw [List.append_assoc, List.append_assoc]
      exact .exchange hpair ih

theorem append_left (front : Text) {s s' : Text} (h : Exchanged pair s s') :
    Exchanged pair (front ++ s) (front ++ s') :=
  (refl front).append h

end Exchanged

def Parts (s : Text) : Prop := s ≠ [] ∧ ∀ c ∈ s, isIdentifierChar c = false

theorem respell_parts_append (spell : Text → Text) {s : Text} (hs : Parts s) (rest : Text) :
    respell spell (s ++ rest) = s ++ respell spell rest := by
  obtain ⟨-, hs⟩ := hs
  induction s with
  | nil => rfl
  | cons c s ih =>
      rw [List.cons_append, respell_cons_of_not (hs c (by simp)), List.cons_append,
        ih (fun d hd => hs d (by simp [hd]))]

theorem respell_append_parts (spell : Text → Text) (front : Text) {s : Text} (hs : Parts s)
    (rest : Text) :
    respell spell (front ++ (s ++ rest)) = respell spell front ++ (s ++ respell spell rest) := by
  rw [respell_append, respell_parts_append spell hs]
  obtain ⟨c, s, rfl⟩ := List.exists_cons_of_ne_nil hs.1
  simpa using hs.2 c (by simp)

theorem Exchanged.respell {pair : Text → Text → Prop}
    (hparts : ∀ piece piece', pair piece piece' → Parts piece ∧ Parts piece')
    (spell : Text → Text) {s s' : Text} (h : Exchanged pair s s') :
    Exchanged pair (respell spell s) (respell spell s') := by
  -- an identifier is read as a whole, so the induction carries the part of it that has been passed
  suffices hpassed : ∀ passed : Text, Exchanged pair (Source.respell spell (passed ++ s))
      (Source.respell spell (passed ++ s')) from hpassed []
  induction h with
  | nil =>
      intro passed
      exact .refl _
  | @keep c s s' _ ih =>
      intro passed
      by_cases hc : isIdentifierChar c = true
      · simpa using ih (passed ++ [c])
      · have hone : Parts [c] := by simpa [Parts] using hc
        have happend : ∀ rest, Source.respell spell (passed ++ c :: rest) =
            Source.respell spell passed ++ c :: Source.respell spell rest :=
          respell_append_parts spell passed hone
        rw [happend, happend]
        exact (Exchanged.keep c (ih [])).append_left _
  | exchange hpair _ ih =>
      intro passed
      obtain ⟨hpiece, hpiece'⟩ := hparts _ _ hpair
      rw [respell_append_parts spell passed hpiece, respell_append_parts spell passed hpiece']
      exact (Exchanged.exchange hpair (ih [])).append_left _

def LayoutRun (s : Text) : Prop := s ≠ [] ∧ ∀ c ∈ s, isLayout c = true

instance (s : Text) : Decidable (LayoutRun s) := inferInstanceAs (Decidable (_ ∧ _))

def LayoutRuns (run run' : Text) : Prop := LayoutRun run ∧ LayoutRun run'

theorem not_identifierChar_of_layout {c : Char} (hc : isLayout c = true) :
    isIdentifierChar c = false := by
  simp only [isLayout, Bool.or_eq_true, beq_iff_eq] at hc
  rcases hc with ((rfl | rfl) | rfl) | rfl <;> decide

theorem LayoutRun.parts {s : Text} (hs : LayoutRun s) : Parts s :=
  ⟨hs.1, fun c hc => not_identifierChar_of_layout (hs.2 c hc)⟩

theorem LayoutRun.normalize_append {run : Text} (hrun : LayoutRun run) (s : Text) :
    normalize (run ++ s) = ' ' :: normalize (s.dropWhile isLayout) := by
  obtain ⟨hne, hlayout⟩ := hrun
  obtain ⟨c, run, rfl⟩ := List.exists_cons_of_ne_nil hne
  rw [List.cons_append, normalize_cons_of_layout (hlayout c (by simp)),
    List.dropWhile_append_of_pos (fun d hd => hlayout d (by simp [hd]))]

theorem normalize_eq_of_exchanged {s s' : Text} (h : Exchanged LayoutRuns s s') :
    normalize s = normalize s' := by
  -- a run may go on behind an exchanged piece of it
  suffices hboth : normalize s = normalize s' ∧
      normalize (s.dropWhile isLayout) = normalize (s'.dropWhile isLayout) from hboth.1
  induction h with
  | nil => exact ⟨rfl, rfl⟩
  | @keep c s s' _ ih =>
      obtain ⟨hsame, hbehind⟩ := ih
      by_cases hc : isLayout c = true
      · rw [normalize_cons_of_layout hc, normalize_cons_of_layout hc, hbehind,
          List.dropWhile_cons_of_pos hc, List.dropWhile_cons_of_pos hc]
        exact ⟨rfl, hbehind⟩
      · have hvisible : isLayout c = false := by simpa using hc
        rw [List.dropWhile_cons_of_neg hc, List.dropWhile_cons_of_neg hc,
          normalize_cons_of_not_layout hvisible, normalize_cons_of_not_layout hvisible, hsame]
        exact ⟨rfl, rfl⟩
  | exchange hpair _ ih =>
      obtain ⟨hrun, hrun'⟩ := hpair
      rw [hrun.normalize_append, hrun'.normalize_append, ih.2,
        List.dropWhile_append_of_pos hrun.2, List.dropWhile_append_of_pos hrun'.2]
      exact ⟨rfl, ih.2⟩

theorem mem_head?_of_exchanged {s s' : Text} (h : Exchanged LayoutRuns s s') {c : Char}
    (hc : isLayout c = false) (hmem : c ∈ s'.head?) : c ∈ s.head? := by
  cases h with
  | nil => exact hmem
  | keep d _ => exact hmem
  | @exchange run run' s s' hpair _ =>
      obtain ⟨d, run', rfl⟩ := List.exists_cons_of_ne_nil hpair.2.1
      obtain rfl : d = c := by simpa using hmem
      rw [hpair.2.2 d (by simp)] at hc
      cases hc

/-- A text in which no comment, directive or literal is opened. -/
structure OpensNothing (s : Text) : Prop where
  directive : '#' ∉ s
  quote : '"' ∉ s
  line : ¬ "//".toList <:+: s
  block : ¬ "/*".toList <:+: s

instance (s : Text) : Decidable (OpensNothing s) :=
  decidable_of_iff ('#' ∉ s ∧ '"' ∉ s ∧ ¬ "//".toList <:+: s ∧ ¬ "/*".toList <:+: s)
    ⟨fun h => ⟨h.1, h.2.1, h.2.2.1, h.2.2.2⟩,
      fun h => ⟨h.directive, h.quote, h.line, h.block⟩⟩

theorem OpensNothing.of_suffix {s t : Text} (ht : OpensNothing t) (h : s <:+ t) :
    OpensNothing s :=
  ⟨fun hmem => ht.directive (h.subset hmem), fun hmem => ht.quote (h.subset hmem),
    fun hline => ht.line (hline.trans h.isInfix), fun hblock => ht.block (hblock.trans h.isInfix)⟩

theorem OpensNothing.fits {c : Char} {s rest : Text} (h : OpensNothing (c :: s))
    (hrest : ∀ d, isLayout d = false → d ∈ rest.head? → d ∈ s.head?) :
    (Segment.plain c).Fits rest := by
  have hne : ∀ d, d ∉ c :: s → c ≠ d := by
    rintro d hd rfl
    exact hd (by simp)
  have hquote : '"' ∉ rest.head? := fun hmem =>
    h.quote (List.mem_cons_of_mem c (List.mem_of_mem_head? (hrest '"' rfl hmem)))
  rw [plain_fits_iff]
  refine ⟨hne '#' h.directive, ?_, fun _ => hquote, fun hc => absurd hc (hne '"' h.quote)⟩
  rintro rfl
  constructor
  · intro hmem
    obtain ⟨tail, rfl⟩ := List.head?_eq_some_iff.mp (hrest '/' rfl hmem)
    exact h.line ⟨[], tail, rfl⟩
  · intro hmem
    obtain ⟨tail, rfl⟩ := List.head?_eq_some_iff.mp (hrest '*' rfl hmem)
    exact h.block ⟨[], tail, rfl⟩

theorem strip_layout_append {run : Text} (hrun : LayoutRun run) (s : Text) :
    strip (run ++ s) = run ++ strip s := by
  apply strip_plain_append
  intro c hc hopens
  have hlayout := hrun.2 c hc
  simp only [List.mem_cons, List.not_mem_nil, or_false] at hopens
  rcases hopens with rfl | rfl | rfl | rfl <;> cases hlayout

theorem strip_eq_self_of_exchanged {s s' : Text} (h : Exchanged LayoutRuns s s')
    (hs : OpensNothing s) : strip s = s ∧ strip s' = s' := by
  induction h with
  | nil => exact ⟨strip_nil, strip_nil⟩
  | @keep c s s' hs' ih =>
      obtain ⟨hstrip, hstrip'⟩ := ih (hs.of_suffix (List.suffix_cons c s))
      have hfits : (Segment.plain c).Fits s := hs.fits (fun _ _ hmem => hmem)
      have hfits' : (Segment.plain c).Fits s' :=
        hs.fits (fun _ hd hmem => mem_head?_of_exchanged hs' hd hmem)
      rw [strip_plain hfits, strip_plain hfits', hstrip, hstrip']
      exact ⟨rfl, rfl⟩
  | @exchange run run' s s' hpair _ ih =>
      obtain ⟨hstrip, hstrip'⟩ := ih (hs.of_suffix (List.suffix_append run s))
      rw [strip_layout_append hpair.1, strip_layout_append hpair.2, hstrip, hstrip']
      exact ⟨rfl, rfl⟩

theorem exchanged_replaceIdentifiers (table : Spelling) (position : Text) {source source' : Text}
    (h : Exchanged LayoutRuns source source') :
    Exchanged LayoutRuns (replaceIdentifiers table position source)
      (replaceIdentifiers table position source') :=
  h.respell (fun _ _ hpair => ⟨hpair.1.parts, hpair.2.parts⟩) _

/-- What a source is compiled to, or the error with its offset, does not depend on the layout of the
source if its respelled text opens no comment, directive or literal. -/
theorem compile_eq_of_exchanged_layout (check : NameCheck) {config : Config} (stage : Stage)
    {source source' : Text} (hopens : OpensNothing
      (replaceIdentifiers config.spelling config.positionOutput source))
    (h : Exchanged LayoutRuns source source') :
    compile check config stage source' = compile check config stage source := by
  have hrespelled := exchanged_replaceIdentifiers config.spelling config.positionOutput h
  obtain ⟨hstrip, hstrip'⟩ := strip_eq_self_of_exchanged hrespelled hopens
  have hprepare : prepare config source' = prepare config source := by
    rw [prepare, prepareWith, prepare, prepareWith, hstrip, hstrip',
      normalize_eq_of_exchanged hrespelled]
  rw [compile, Shader.ofSource, hprepare]
  rfl

theorem compile_eq_of_exchanged_layout_point_size :
    let source := "void main()\x7blowp gl_PointSize/ x;\x7d".toList
    let source' := "void\r\nmain()\x7blowp\t\tgl_PointSize/\n x;\x7d".toList
    OpensNothing (replaceIdentifiers Config.default.spelling Config.default.positionOutput source) ∧
      Exchanged LayoutRuns source source' ∧
      compile .trivial .default .vertex source' = compile .trivial .default .vertex source ∧
      prepare Config.default source = "void main()\x7b float psize/ x;\x7d".toList := by
  intro source source'
  have hopens : OpensNothing
      (replaceIdentifiers Config.default.spelling Config.default.positionOutput source) := by
    decide +kernel
  have hsource : source = "void".toList ++ (" ".toList ++ ("main()\x7blowp".toList ++
      (" ".toList ++ ("gl_PointSize/".toList ++ (" ".toList ++ ("x;\x7d".toList ++ [])))))) := by
    decide
  have hsource' : source' = "void".toList ++ ("\r\n".toList ++ ("main()\x7blowp".toList ++
      ("\t\t".toList ++ ("gl_PointSize/".toList ++ ("\n ".toList ++
        ("x;\x7d".toList ++ [])))))) := by
    decide
  have hexchanged : Exchanged LayoutRuns source source' := by
    rw [hsource, hsource']
    refine .append_left _ (.exchange ⟨by decide, by decide⟩ ?_)
    refine .append_left _ (.exchange ⟨by decide, by decide⟩ ?_)
    refine .append_left _ (.exchange ⟨by decide, by decide⟩ ?_)
    exact .append_left _ .nil
  exact ⟨hopens, hexchanged, compile_eq_of_exchanged_layout .trivial .vertex hopens hexchanged,
    by decide +kernel⟩

end CgShader.Proofs.LayoutIndependence
