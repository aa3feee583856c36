import CgShader.Proofs.BalancedBlocks
import CgShader.Proofs.CursorRuns

/-!
The end of a block, found by jumps from brace to brace. The search keeps a place in the text,
counted in bytes, and the number of blocks that are open there; at each place it looks for the next
brace of either kind. It comes to an end on every text, it cuts the text between characters only,
and what it finds is what `splitBlock?` finds: the brace before which the text is balanced.
-/

namespace CgShader.Proofs.BlockSearch

open CgShader.Text
open CgShader.Bracket
open CgShader.Proofs.BalancedBlocks
open CgShader.Proofs.CursorRuns

/-- The first `count` bytes of a text, if a character ends there. -/
def upTo? : Nat → Text → Option Text
  | 0, _ => some []
  | _ + 1, [] => none
  | count + 1, c :: s =>
    if c.utf8Size ≤ count + 1 then (upTo? (count + 1 - c.utf8Size) s).map (c :: ·) else none

theorem upTo?_size_append (s t : Text) : upTo? (size s) (s ++ t) = some s := by
  induction s with
  | nil => simp [upTo?]
  | cons c s ih =>
      obtain ⟨count, hcount⟩ := Nat.exists_eq_add_one.mpr c.utf8Size_pos
      rw [size_cons, hcount, Nat.add_right_comm, List.cons_append, upTo?, hcount,
        if_pos (by omega)]
      simpa using ih

/-- The number of bytes before the first `c` of a text. -/
def place? (c : Char) : Text → Option Nat
  | [] => none
  | d :: s => if d = c then some 0 else (place? c s).map (d.utf8Size + ·)

theorem place?_eq_none_iff (c : Char) (s : Text) : place? c s = none ↔ c ∉ s := by
  induction s with
  | nil => simp [place?]
  | cons d s ih =>
      rw [place?]
      split
      · simp_all
      · rename_i hne
        rw [Option.map_eq_none_iff, ih, List.mem_cons, not_or]
        exact ⟨fun h => ⟨Ne.symm hne, h⟩, And.right⟩

theorem place?_append (c : Char) {front : Text} (hfront : c ∉ front) (rest : Text) :
    place? c (front ++ c :: rest) = some (size front) := by
  induction front with
  | nil => simp [place?]
  | cons d front ih =>
      obtain ⟨hne, hfront⟩ := List.ne_and_not_mem_of_not_mem_cons hfront
      rw [List.cons_append, place?, if_neg (Ne.symm hne), ih hfront, Option.map_some, size_cons]

structure Search where
  depth : Nat
  scan : Nat

/-- What comes of a step of a search. A step faults if it cuts a text beyond its end or inside a
character, or closes a block where none is open. -/
inductive Outcome where
  | goesOn (next : Search)
  | ends (found : Option (Text × Text))
  | faults

def stepOver (s : Text) (depth close : Nat) : Outcome :=
  match depth with
  | 0 => .faults
  | 1 =>
    match upTo? close s, behind? (close + 1) s with
    | some taken, some rest => .ends (some (taken, rest))
    | _, _ => .faults
  | depth + 2 => .goesOn ⟨depth + 1, close + 1⟩

/-- The step to the next brace: into a block if it opens one before the next closing brace. -/
def step (s : Text) (search : Search) : Outcome :=
  match behind? search.scan s with
  | none => .faults
  | some rest =>
    match place? '}' rest, place? '{' rest with
    | none, _ => .ends none
    | some close, none => stepOver s search.depth (search.scan + close)
    | some close, some opening =>
      if opening < close then .goesOn ⟨search.depth + 1, search.scan + opening + 1⟩
      else stepOver s search.depth (search.scan + close)

/-- What has come of a search after some steps. One that has come to an end stays there. -/
def outcome (s : Text) : Nat → Outcome
  | 0 => .goesOn ⟨1, 0⟩
  | count + 1 =>
    match outcome s count with
    | .goesOn search => step s search
    | stopped => stopped

/-- A search stands behind `front`, in which nothing is closed that is not opened there, and counts
what is still open besides the block that it is to close. -/
structure Stands (s : Text) (search : Search) (front rest : Text) : Prop where
  text : s = front ++ rest
  scan : search.scan = size front
  depth : search.depth + front.count '}' = front.count '{' + 1
  fronts : ∀ start, start <+: front → start.count '}' ≤ start.count '{'

theorem stands_start (s : Text) : Stands s ⟨1, 0⟩ [] s :=
  ⟨rfl, rfl, rfl, by simp⟩

namespace Stands

variable {s front rest : Text} {search : Search}

theorem depth_pos (h : Stands s search front rest) : 0 < search.depth := by
  have hdepth := h.depth
  have hfront := h.fronts front (List.prefix_refl front)
  omega

theorem behind?_scan (h : Stands s search front rest) : behind? search.scan s = some rest := by
  rw [h.scan, h.text, behind?_size_append]

end Stands

theorem fronts_append {front more : Text}
    (hfront : ∀ start, start <+: front → start.count '}' ≤ start.count '{')
    (hmore : '}' ∉ more) :
    ∀ start, start <+: front ++ more → start.count '}' ≤ start.count '{' := by
  intro start hstart
  rcases List.prefix_or_prefix_of_prefix hstart (List.prefix_append front more) with
    hinside | ⟨piece, rfl⟩
  · exact hfront start hinside
  · have hpiece := (List.prefix_append_right_inj front).mp hstart
    have hnone : piece.count '}' = 0 :=
      List.count_eq_zero.mpr fun hmem => hmore (hpiece.subset hmem)
    have hbound := hfront front (List.prefix_refl front)
    rw [List.count_append, List.count_append]
    omega

theorem fronts_concat {front : Text}
    (hfront : ∀ start, start <+: front → start.count '}' ≤ start.count '{')
    (hopen : front.count '}' < front.count '{') :
    ∀ start, start <+: front ++ ['}'] → start.count '}' ≤ start.count '{' := by
  intro start hstart
  rcases List.prefix_concat_iff.mp hstart with rfl | hinside
  · simpa [List.count_append, Nat.succ_le_iff] using hopen
  · exact hfront start hinside

theorem size_le_of_place? {c : Char} {front rest : Text} (hfront : c ∉ front) {place : Nat}
    (h : place? c (front ++ rest) = some place) : size front ≤ place := by
  have hmem : c ∈ rest := by
    by_contra hrest
    rw [(place?_eq_none_iff ..).mpr (List.not_mem_append hfront hrest)] at h
    cases h
  obtain ⟨more, after, rfl, hmore⟩ := List.eq_append_cons_of_mem hmem
  rw [← List.append_assoc, place?_append c (List.not_mem_append hfront hmore),
    Option.some.injEq, size_append] at h
  omega

namespace Stands

variable {s front rest : Text} {search : Search}

theorem step_of_unclosed (h : Stands s search front rest) (hrest : '}' ∉ rest) :
    step s search = .ends (splitBlock? 0 s) := by
  have hnone : splitBlock? 0 s = none := by
    rw [splitBlock?_eq_none_iff, h.text]
    simpa using fronts_append h.fronts hrest
  rw [step, h.behind?_scan, hnone]
  simp only [(place?_eq_none_iff ..).mpr hrest]

theorem step_of_opening {before after : Text}
    (h : Stands s search front (before ++ '{' :: after)) (hopening : '{' ∉ before)
    (hclosing : '}' ∉ before) (hafter : '}' ∈ after) :
    ∃ next, step s search = .goesOn next ∧ Stands s next (front ++ before ++ ['{']) after := by
  obtain ⟨inside, rest, rfl, hinside⟩ := List.eq_append_cons_of_mem hafter
  have hclose : place? '}' (before ++ '{' :: (inside ++ '}' :: rest)) =
      some (size (before ++ '{' :: inside)) := by
    have hfree : '}' ∉ before ++ '{' :: inside := by simp [hclosing, hinside]
    simpa using place?_append '}' hfree rest
  have hlt : size before < size (before ++ '{' :: inside) := by
    have hsize := size_pos (List.cons_ne_nil '{' inside)
    rw [size_append]
    omega
  refine ⟨⟨search.depth + 1, search.scan + size before + 1⟩, ?_, ?_, ?_, ?_, ?_⟩
  · rw [step, h.behind?_scan]
    simp only [hclose, place?_append '{' hopening, if_pos hlt]
  · rw [h.text]
    simp
  · rw [h.scan, size_append, size_append]
    rfl
  · have hdepth := h.depth
    simp only [List.count_append, List.count_singleton_self, List.count_eq_zero.mpr hopening,
      List.count_eq_zero.mpr hclosing, show ['{'].count '}' = 0 by decide]
    omega
  · exact fronts_append (fronts_append h.fronts hclosing) (by decide)

theorem step_of_closing {before after : Text}
    (h : Stands s search front (before ++ '}' :: after)) (hopening : '{' ∉ before)
    (hclosing : '}' ∉ before) :
    step s search = .ends (splitBlock? 0 s) ∨
      ∃ next, step s search = .goesOn next ∧ Stands s next (front ++ before ++ ['}']) after := by
  have hstep : step s search = stepOver s search.depth (size (front ++ before)) := by
    rw [step, h.behind?_scan, size_append, ← h.scan]
    simp only [place?_append '}' hclosing]
    rcases hplace : place? '{' (before ++ '}' :: after) with _ | opening
    · rfl
    · have hle := size_le_of_place? hopening hplace
      exact if_neg (by omega)
  have hfronts := fronts_append h.fronts hclosing
  have htext : s = front ++ before ++ '}' :: after := by rw [h.text, List.append_assoc]
  have hcount : search.depth + (front ++ before).count '}' = (front ++ before).count '{' + 1 := by
    simpa [List.count_append, List.count_eq_zero.mpr hopening, List.count_eq_zero.mpr hclosing]
      using h.depth
  have hpos := h.depth_pos
  rw [hstep]
  rcases hdepth : search.depth with _ | _ | depth
  · omega
  · left
    have hbehind : behind? (size (front ++ before) + 1) s = some after := by
      rw [htext, List.append_cons]
      have hsize : size (front ++ before ++ ['}']) = size (front ++ before) + 1 := by
        rw [size_append _ ['}']]
        rfl
      rw [← hsize, behind?_size_append]
    have hfound : splitBlock? 0 s = some (front ++ before, after) := by
      rw [splitBlock?_eq_some_iff]
      exact ⟨htext, by omega, by simpa using hfronts⟩
    simp only [stepOver, hbehind, hfound]
    rw [htext, upTo?_size_append]
  · right
    refine ⟨⟨depth + 1, size (front ++ before) + 1⟩, rfl, ?_, ?_, ?_, ?_⟩
    · rw [htext, ← List.append_cons]
    · rw [size_append _ ['}']]
      rfl
    · rw [hdepth] at hcount
      simp only [List.count_append, List.count_singleton_self] at hcount ⊢
      rw [show ['}'].count '{' = 0 by decide]
      omega
    · exact fronts_concat hfronts (by omega)

/-- A step finds what the block ends at, or it moves on in the text. -/
theorem step_cases (h : Stands s search front rest) :
    step s search = .ends (splitBlock? 0 s) ∨
      ∃ next front' rest', step s search = .goesOn next ∧ Stands s next front' rest' ∧
        rest'.length < rest.length := by
  by_cases hclosing : '}' ∈ rest
  · obtain ⟨before, after, rfl, hbefore⟩ := List.eq_append_cons_of_mem hclosing
    by_cases hopening : '{' ∈ before
    · obtain ⟨outside, inside, rfl, houtside⟩ := List.eq_append_cons_of_mem hopening
      rw [List.append_assoc, List.cons_append] at h
      obtain ⟨next, hstep, hstands⟩ := h.step_of_opening houtside
        (fun hmem => hbefore (List.mem_append_left _ hmem)) (by simp)
      exact .inr ⟨next, _, _, hstep, hstands, by simp; omega⟩
    · rcases h.step_of_closing hopening hbefore with hends | ⟨next, hstep, hstands⟩
      · exact .inl hends
      · exact .inr ⟨next, _, _, hstep, hstands, by simp; omega⟩
  · exact .inl (h.step_of_unclosed hclosing)

end Stands

theorem exists_ends {s : Text} (start : Nat) {search : Search} {front rest : Text}
    (hstart : outcome s start = .goesOn search) (h : Stands s search front rest) :
    ∃ count, start < count ∧ outcome s count = .ends (splitBlock? 0 s) ∧
      ∀ earlier, start ≤ earlier → earlier < count → ∃ search front rest,
        outcome s earlier = .goesOn search ∧ Stands s search front rest := by
  induction hlength : rest.length using Nat.strongRecOn generalizing start search front rest with
  | ind length ih =>
      subst hlength
      have hnext : outcome s (start + 1) = step s search := by
        rw [outcome, hstart]
      rcases h.step_cases with hends | ⟨next, front', rest', hstep, hstands, hshorter⟩
      · refine ⟨start + 1, Nat.lt_succ_self start, hnext.trans hends, ?_⟩
        intro earlier hfrom hto
        obtain rfl : earlier = start := by omega
        exact ⟨search, front, rest, hstart, h⟩
      · obtain ⟨count, hcount, hends, hway⟩ :=
          ih rest'.length hshorter (start + 1) (hnext.trans hstep) hstands rfl
        refine ⟨count, by omega, hends, ?_⟩
        intro earlier hfrom hto
        rcases Nat.eq_or_lt_of_le hfrom with rfl | hlater
        · exact ⟨search, front, rest, hstart, h⟩
        · exact hway earlier hlater hto

/-- A block ends at the one brace before which its text is balanced, and without such a brace it is
not closed. The search for it by jumps comes to the same end on every text: before it some block is
always open, and every place it stands at lies between two characters. -/
theorem splitBlock?_iff_and_search (s : Text) :
    (∀ taken rest, splitBlock? 0 s = some (taken, rest) ↔
      s = taken ++ '}' :: rest ∧ taken.count '{' = taken.count '}' ∧
        ∀ front, front <+: taken → front.count '}' ≤ front.count '{') ∧
    (splitBlock? 0 s = none ↔ ∀ front, front <+: s → front.count '}' ≤ front.count '{') ∧
    ∃ count, outcome s count = .ends (splitBlock? 0 s) ∧
      ∀ earlier < count, ∃ search front rest, outcome s earlier = .goesOn search ∧
        0 < search.depth ∧ search.depth + front.count '}' = front.count '{' + 1 ∧
        search.scan = size front ∧ s = front ++ rest := by
  refine ⟨?_, ?_, ?_⟩
  · intro taken rest
    rw [splitBlock?_eq_some_iff]
    constructor
    · rintro ⟨htext, hbalanced⟩
      exact ⟨htext, hbalanced.total.symm, hbalanced.fronts⟩
    · rintro ⟨htext, htotal, hfronts⟩
      exact ⟨htext, htotal.symm, hfronts⟩
  · exact splitBlock?_eq_none_iff 0 s
  · obtain ⟨count, -, hends, hway⟩ := exists_ends 0 rfl (stands_start s)
    refine ⟨count, hends, ?_⟩
    intro earlier hearlier
    obtain ⟨search, front, rest, hgoesOn, hstands⟩ := hway earlier (Nat.zero_le _) hearlier
    exact ⟨search, front, rest, hgoesOn, hstands.depth_pos, hstands.depth, hstands.scan,
      hstands.text⟩

end CgShader.Proofs.BlockSearch
