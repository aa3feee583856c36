import Mathlib.Data.List.Infix
import Mathlib.Data.List.SplitBy
import CgShader.Proofs.BodyEdits
import CgShader.Proofs.SourcePreparation

namespace CgShader.Proofs.SpacingRuns

open CgShader.Text
open CgShader.Source
open CgShader.Proofs.TextRuns
open CgShader.Proofs.BodyEdits
open CgShader.Proofs.SourcePreparation

def sameKind (c d : Char) : Bool := isLayout c == isLayout d

/-- The longest runs of layout and of other characters that a text is made up of. -/
def runs (s : Text) : List Text := s.splitBy sameKind

def spaced (run : Text) : Text := if run.all isLayout then [' '] else run

theorem normalize_of_visible {s : Text} (h : ∀ c ∈ s, isLayout c = false) : normalize s = s := by
  induction s with
  | nil => rfl
  | cons c s ih =>
      rw [normalize_cons_of_not_layout (h c List.mem_cons_self),
        ih fun d hd => h d (List.mem_cons_of_mem c hd)]

theorem normalize_of_layout {s : Text} (hs : s ≠ []) (h : ∀ c ∈ s, isLayout c = true) :
    normalize s = [' '] := by
  obtain ⟨c, s, rfl⟩ := List.exists_cons_of_ne_nil hs
  have hdrop : s.dropWhile isLayout = [] :=
    List.dropWhile_eq_nil_iff.mpr fun d hd => h d (List.mem_cons_of_mem c hd)
  rw [normalize_cons_of_layout (h c List.mem_cons_self), hdrop, normalize_nil]

theorem isLayout_eq_of_isChain {run : Text} (h : run.IsChain fun c d => sameKind c d = true) :
    ∀ c ∈ run, ∀ d ∈ run, isLayout c = isLayout d := by
  simp only [sameKind, beq_iff_eq] at h
  have htrans : IsTrans Char fun c d => isLayout c = isLayout d := ⟨fun _ _ _ => Eq.trans⟩
  have hsymm : Std.Symm fun c d : Char => isLayout c = isLayout d := ⟨fun _ _ => Eq.symm⟩
  have hpairwise := List.isChain_iff_pairwise.mp h
  intro c hc d hd
  exact List.Pairwise.forall_of_forall (R := fun c d => isLayout c = isLayout d)
    (fun _ _ => rfl) hpairwise hc hd

theorem normalize_run {run : Text} (hne : run ≠ [])
    (h : run.IsChain fun c d => sameKind c d = true) : normalize run = spaced run := by
  have hsame := isLayout_eq_of_isChain h
  unfold spaced
  split
  · rename_i hlayout
    exact normalize_of_layout hne (List.all_eq_true.mp hlayout)
  · rename_i hlayout
    obtain ⟨c, hc, hvisible⟩ : ∃ c ∈ run, isLayout c = false := by simpa using hlayout
    exact normalize_of_visible fun d hd => (hsame d hd c hc).trans hvisible

theorem normalize_flatten {parts : List Text} (hne : [] ∉ parts)
    (hchain : ∀ run ∈ parts, run.IsChain fun c d => sameKind c d = true)
    (hapart : parts.IsChain fun run next =>
      ∃ hrun hnext, sameKind (run.getLast hrun) (next.head hnext) = false) :
    normalize parts.flatten = parts.flatMap spaced := by
  induction parts with
  | nil => rfl
  | cons run parts ih =>
      rw [List.mem_cons, not_or] at hne
      have hrun : run ≠ [] := fun hnil => hne.1 hnil.symm
      have hcut : (∀ c ∈ run.getLast?, isLayout c = false) ∨
          ∀ c ∈ parts.flatten.head?, isLayout c = false := by
        rcases parts with _ | ⟨next, parts⟩
        · exact .inr (by simp)
        · obtain ⟨_, hnext, hdiffer⟩ := (List.isChain_cons_cons.mp hapart).1
          rw [List.getLast?_eq_getLast_of_ne_nil hrun, List.flatten_cons,
            List.head?_append_of_ne_nil _ hnext, List.head?_eq_some_head hnext]
          rcases hlast : isLayout (run.getLast hrun) with _ | _
          · exact .inl (by simpa using hlast)
          · rw [sameKind, hlast] at hdiffer
            exact .inr (by simpa using hdiffer)
      rw [List.flatten_cons, List.flatMap_cons, normalize_append hcut,
        normalize_run hrun (hchain run List.mem_cons_self),
        ih hne.2 (fun next hnext => hchain next (List.mem_cons_of_mem run hnext)) hapart.tail]

theorem normalize_eq_flatMap_runs (s : Text) : normalize s = (runs s).flatMap spaced := by
  have hflatten : (runs s).flatten = s := List.flatten_splitBy _ s
  nth_rewrite 1 [← hflatten]
  exact normalize_flatten (List.nil_notMem_splitBy _ s)
    (fun _ hrun => List.isChain_of_mem_splitBy hrun) (List.isChain_getLast_head_splitBy _ s)

structure SingleSpaced (s : Text) : Prop where
  layout : ∀ c ∈ s, isLayout c = true → c = ' '
  single : ¬ [' ', ' '] <:+: s

theorem singleSpaced_cons_iff (c : Char) (s : Text) :
    SingleSpaced (c :: s) ↔
      (isLayout c = true → c = ' ') ∧ (c = ' ' → ' ' ∉ s.head?) ∧ SingleSpaced s := by
  have hprefix : [' ', ' '] <+: c :: s ↔ c = ' ' ∧ ' ' ∈ s.head? := by
    rcases s with _ | ⟨d, s⟩
    · simp
    · simp [List.cons_prefix_cons, eq_comm]
  constructor
  · rintro ⟨hlayout, hsingle⟩
    rw [List.infix_cons_iff, hprefix, not_or, not_and] at hsingle
    exact ⟨hlayout c List.mem_cons_self, hsingle.1,
      ⟨fun d hd => hlayout d (List.mem_cons_of_mem c hd), hsingle.2⟩⟩
  · rintro ⟨hc, hhead, hlayout, hsingle⟩
    refine ⟨List.forall_mem_cons.mpr ⟨hc, hlayout⟩, ?_⟩
    rw [List.infix_cons_iff, hprefix, not_or, not_and]
    exact ⟨hhead, hsingle⟩

theorem singleSpaced_normalize (s : Text) : SingleSpaced (normalize s) := by
  induction s using layout_induction with
  | nil => exact ⟨by simp [normalize_nil], by simp [normalize_nil]⟩
  | visible c s hc ih =>
      rw [normalize_cons_of_not_layout hc, singleSpaced_cons_iff]
      refine ⟨by simp [hc], ?_, ih⟩
      rintro rfl
      cases hc
  | layout c s hc ih =>
      rw [normalize_cons_of_layout hc, singleSpaced_cons_iff]
      refine ⟨fun _ => rfl, fun _ hspace => ?_, ih⟩
      -- behind a run of layout the text goes on with what is no layout
      have hstop := not_of_mem_head?_dropWhile isLayout s
      rcases hrest : s.dropWhile isLayout with _ | ⟨d, rest⟩
      · simp [hrest, normalize_nil] at hspace
      · rw [hrest] at hstop hspace
        rw [normalize_cons_of_not_layout (hstop d rfl)] at hspace
        obtain rfl : d = ' ' := by simpa using hspace
        exact absurd (hstop ' ' rfl) (by decide)

theorem normalize_of_singleSpaced {s : Text} (h : SingleSpaced s) : normalize s = s := by
  induction s with
  | nil => rfl
  | cons c s ih =>
      obtain ⟨hc, hhead, hs⟩ := (singleSpaced_cons_iff c s).mp h
      by_cases hlayout : isLayout c = true
      · obtain rfl := hc hlayout
        have hstop : s.dropWhile isLayout = s := by
          rcases s with _ | ⟨d, s⟩
          · rfl
          · refine List.dropWhile_cons_of_neg fun hd => hhead rfl ?_
            rw [hs.layout d List.mem_cons_self hd]
            rfl
        rw [normalize_cons_of_layout hlayout, hstop, ih hs]
      · rw [normalize_cons_of_not_layout (by simpa using hlayout), ih hs]

/-- Finds a text wherever it stands, and puts another in its place. -/
def foundText? (old new : Text) (_ : Option Char) (s : Text) : Option Edit :=
  (after? old s).map fun _ => .replacing old new

/-- Finds two or more spaces, and puts one in the place of all that follow each other. -/
def foundSpaces? (_ : Option Char) (s : Text) : Option Edit :=
  if 2 ≤ (spaces s).length then some (.replacing (spaces s) [' ']) else none

def replaceEach (old new s : Text) : Text := s.flatMap fun c => if c ∈ old then new else [c]

/-- The text with its layout replaced step by step: a space for each pair of a carriage return and a
line feed, one for each of them that is left, two for each tab, and one for each run of spaces. -/
def normalizeStepwise (s : Text) : Text :=
  let paired := editAll (foundText? ['\r', '\n'] [' ']) none s
  let joined := replaceEach ['\n', '\r'] [' '] paired
  editAll foundSpaces? none (replaceEach ['\t'] [' ', ' '] joined)

theorem foundText?_pair_eq_none {c : Char} {rest : Text} (before : Option Char)
    (h : ∀ tail, c = '\r' → rest = '\n' :: tail → False) :
    foundText? ['\r', '\n'] [' '] before (c :: rest) = none := by
  rw [foundText?, Option.map_eq_none_iff, Option.eq_none_iff_forall_not_mem]
  intro tail htail
  obtain ⟨rfl, rfl⟩ := List.cons.inj ((after?_eq_some_iff _ _ tail).mp htail)
  exact h tail rfl rfl

theorem flatten_eq_replaceEach (before : Option Char) (s : Text) :
    flatten s = replaceEach ['\t'] [' ', ' '] (replaceEach ['\n', '\r'] [' ']
      (editAll (foundText? ['\r', '\n'] [' ']) before s)) := by
  fun_induction flatten s generalizing before with
  | case1 =>
      rw [editAll]
      rfl
  | case2 rest ih =>
      have hfound : foundText? ['\r', '\n'] [' '] before (['\r', '\n'] ++ rest) =
          some (.replacing ['\r', '\n'] [' ']) := rfl
      rw [show '\r' :: '\n' :: rest = ['\r', '\n'] ++ rest from rfl,
        editAll_append_of_some (by simp) hfound, ih ['\r', '\n'].getLast?]
      rfl
  | case3 c rest hpair hline ih =>
      rw [editAll_cons_of_none (foundText?_pair_eq_none before hpair), ih (some c)]
      simp [replaceEach, hline]
  | case4 rest hpair hline ih =>
      rw [editAll_cons_of_none (foundText?_pair_eq_none before hpair), ih (some '\t')]
      simp [replaceEach]
  | case5 c rest hpair hline htab ih =>
      rw [editAll_cons_of_none (foundText?_pair_eq_none before hpair), ih (some c)]
      simp [replaceEach, hline, htab]

theorem foundSpaces?_eq_none {c : Char} {rest : Text} (before : Option Char)
    (h : ¬ (c = ' ' ∧ rest.head? = some ' ')) : foundSpaces? before (c :: rest) = none := by
  have hspaces : (spaces (c :: rest)).length < 2 := by
    by_cases hc : c = ' '
    · subst hc
      rw [show ' ' :: rest = [' '] ++ rest from rfl,
        spaces_run (by simp [Spaces]) fun hnext => h ⟨rfl, hnext⟩]
      decide
    · simp [spaces, hc]
  rw [foundSpaces?, if_neg (by omega)]

theorem foundSpaces?_append {gap rest : Text} (before : Option Char) (hgap : Spaces gap)
    (hlength : 2 ≤ gap.length) (hrest : ' ' ∉ rest.head?) :
    foundSpaces? before (gap ++ rest) = some (.replacing gap [' ']) := by
  rw [foundSpaces?, spaces_run hgap hrest, if_pos hlength]

theorem collapse_eq_editAll (before : Option Char) (s : Text) :
    collapse s = editAll foundSpaces? before s := by
  induction hlength : s.length using Nat.strong_induction_on generalizing s before with
  | _ n ih =>
      rcases s with _ | ⟨c, s⟩
      · rw [editAll]
        rfl
      · rw [List.length_cons] at hlength
        by_cases hspaces : c = ' ' ∧ s.head? = some ' '
        · -- the whole run of spaces is one edit, and `collapse` drops it space by space
          obtain ⟨rfl, hnext⟩ := hspaces
          obtain ⟨rest, rfl⟩ := List.head?_eq_some_iff.mp hnext
          have hshorter : (dropSpaces rest).length ≤ rest.length := length_dropWhile_le _ rest
          have hgap : Spaces (' ' :: ' ' :: spaces rest) := by
            simpa [Spaces] using spaces_spaces rest
          have hfound := foundSpaces?_append before hgap (by simp)
            (space_not_mem_head?_dropSpaces rest)
          calc
            collapse (' ' :: ' ' :: rest) = ' ' :: collapse (dropSpaces rest) := by
              rw [collapse_space_cons, List.dropWhile_cons_of_pos rfl, dropSpaces]
            _ = [' '] ++ editAll foundSpaces? (' ' :: ' ' :: spaces rest).getLast?
                  (dropSpaces rest) := by
              rw [List.singleton_append, ← ih _ (by simp at hlength; omega) _ _ rfl]
            _ = editAll foundSpaces? before (' ' :: ' ' :: rest) := by
              rw [← editAll_append_of_some (by simp) hfound, List.cons_append, List.cons_append,
                spaces_append_dropSpaces]
        · rw [editAll_cons_of_none (foundSpaces?_eq_none before hspaces),
            ← ih s.length (by omega) (some c) s rfl, collapse, if_neg hspaces]

theorem normalizeStepwise_eq_normalize (s : Text) : normalizeStepwise s = normalize s := by
  rw [normalizeStepwise, ← flatten_eq_replaceEach, ← collapse_eq_editAll, Source.normalize]

/-- Normalization puts one space in the place of each longest run of layout, and leaves every other
run. So do the replacements one after the other. What comes out has spaces for its only layout, no
two of them together, and is normalized to itself. -/
theorem normalize_collapses_runs (s : Text) :
    normalize s = (runs s).flatMap spaced ∧ normalizeStepwise s = normalize s ∧
      ('\t' ∉ normalize s ∧ '\r' ∉ normalize s ∧ '\n' ∉ normalize s ∧
        ¬ [' ', ' '] <:+: normalize s) ∧
      normalize (normalize s) = normalize s := by
  have hspaced := singleSpaced_normalize s
  have habsent : ∀ c, isLayout c = true → c ≠ ' ' → c ∉ normalize s :=
    fun c hlayout hspace hc => hspace (hspaced.layout c hc hlayout)
  exact ⟨normalize_eq_flatMap_runs s, normalizeStepwise_eq_normalize s,
    ⟨habsent '\t' rfl (by decide), habsent '\r' rfl (by decide), habsent '\n' rfl (by decide),
      hspaced.single⟩, normalize_of_singleSpaced hspaced⟩

end CgShader.Proofs.SpacingRuns
