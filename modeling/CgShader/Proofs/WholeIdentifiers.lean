import CgShader.Proofs.SourcePreparation

namespace CgShader.Proofs.WholeIdentifiers

open CgShader.Source
open CgShader.Proofs.TextRuns
open CgShader.Proofs.SourcePreparation

structure IsIdentifier (s : Text) : Prop where
  nonempty : s ≠ []
  chars : ∀ c ∈ s, isIdentifierChar c = true

/-- No identifier runs on from the first text into the second; where one of them is empty, none
can. -/
def Separate (s t : Text) : Prop :=
  ∀ c ∈ s.getLast?, ∀ d ∈ t.head?, ¬ (isIdentifierChar c = true ∧ isIdentifierChar d = true)

theorem Separate.of_append {front s t : Text} (h : Separate (front ++ s) t) (hs : s ≠ []) :
    Separate s t := by
  rwa [Separate, List.getLast?_append_of_ne_nil front hs] at h

theorem Separate.of_cons {c : Char} {s t : Text} (h : Separate (c :: s) t) : Separate s t :=
  fun d hd => h d (List.mem_getLast?_cons hd)

theorem separate_of_head? (s : Text) {t : Text}
    (ht : ∀ c ∈ t.head?, isIdentifierChar c = false) : Separate s t := by
  rintro c - d hd ⟨-, hident⟩
  rw [ht d hd] at hident
  cases hident

theorem separate_singleton {c : Char} (hc : isIdentifierChar c = false) (s : Text) :
    Separate [c] s := by
  rintro d hd - - ⟨hident, -⟩
  obtain rfl : c = d := by simpa using hd
  rw [hc] at hident
  cases hident

theorem IsIdentifier.not_of_separate {identifier t : Text} (hid : IsIdentifier identifier)
    (h : Separate identifier t) : ∀ d ∈ t.head?, isIdentifierChar d = false := by
  intro d hd
  have hlast := List.getLast?_eq_some_getLast hid.nonempty
  have hident := hid.chars _ (List.getLast_mem hid.nonempty)
  by_contra hnot
  exact h _ hlast d hd ⟨hident, by simpa using hnot⟩

theorem identifier_induction {motive : Text → Prop} (nil : motive [])
    (other : ∀ c s, isIdentifierChar c = false → motive s → motive (c :: s))
    (identifier : ∀ identifier rest, IsIdentifier identifier →
      (∀ c ∈ rest.head?, isIdentifierChar c = false) → motive rest → motive (identifier ++ rest))
    (s : Text) : motive s := by
  induction s using respell.induct with
  | case1 => exact nil
  | case2 c rest hc ih =>
      have hsplit : c :: rest.takeWhile isIdentifierChar ++ rest.dropWhile isIdentifierChar =
          c :: rest := by
        rw [List.cons_append, List.takeWhile_append_dropWhile]
      rw [← hsplit]
      refine identifier _ _ ⟨by simp, ?_⟩ (not_of_mem_head?_dropWhile isIdentifierChar rest) ih
      intro d hd
      rcases List.mem_cons.mp hd with rfl | hd
      · exact hc
      · exact List.mem_takeWhile_imp hd
  | case3 c rest hc ih => exact other c rest (by simpa using hc) ih

theorem respell_identifier_append (spell : Text → Text) {identifier rest : Text}
    (hid : IsIdentifier identifier) (hrest : ∀ c ∈ rest.head?, isIdentifierChar c = false) :
    respell spell (identifier ++ rest) = spell identifier ++ respell spell rest := by
  rcases identifier with _ | ⟨c, word⟩
  · exact absurd rfl hid.nonempty
  · have hword : ∀ d ∈ word, isIdentifierChar d = true :=
      fun d hd => hid.chars d (List.mem_cons_of_mem c hd)
    rw [List.cons_append, respell, if_pos (hid.chars c (by simp)), takeWhile_run hword hrest,
      dropWhile_run hword hrest]

theorem respell_identifier (spell : Text → Text) {identifier : Text}
    (hid : IsIdentifier identifier) : respell spell identifier = spell identifier := by
  have happend : respell spell (identifier ++ []) = spell identifier ++ respell spell [] :=
    respell_identifier_append spell hid (by simp)
  rwa [List.append_nil, respell, List.append_nil] at happend

theorem respell_of_no_identifier (spell : Text → Text) {s : Text}
    (hs : ∀ c ∈ s, isIdentifierChar c = false) : respell spell s = s := by
  induction s with
  | nil => rw [respell]
  | cons c s ih =>
      rw [respell_cons_of_not (hs c (by simp)), ih fun d hd => hs d (List.mem_cons_of_mem c hd)]

theorem respell_append_of_separate (spell : Text → Text) {s t : Text} (h : Separate s t) :
    respell spell (s ++ t) = respell spell s ++ respell spell t := by
  induction s using identifier_induction with
  | nil => rw [List.nil_append, respell, List.nil_append]
  | other c s hc ih =>
      rw [List.cons_append, respell_cons_of_not hc, respell_cons_of_not hc, ih h.of_cons,
        List.cons_append]
  | identifier identifier rest hid hrest ih =>
      by_cases hnil : rest = []
      · -- the first text ends in an identifier, so the second must not begin with one
        subst hnil
        rw [List.append_nil] at h ⊢
        rw [respell_identifier_append spell hid (hid.not_of_separate h),
          respell_identifier spell hid]
      · have hhead : ∀ c ∈ (rest ++ t).head?, isIdentifierChar c = false := by
          rwa [List.head?_append_of_ne_nil rest hnil]
        rw [List.append_assoc, respell_identifier_append spell hid hhead,
          respell_identifier_append spell hid hrest, ih (h.of_append hnil), List.append_assoc]

/-- A change of texts that puts `position` for the built-in position and the table's spelling for
any other identifier that the table lists. It leaves all else, and it changes the texts on both
sides of a place each on its own where no identifier runs on, so nothing that was put is looked up
again. -/
structure RespellsWhole (table : Spelling) (position : Text) (change : Text → Text) : Prop where
  append : ∀ s t, Separate s t → change (s ++ t) = change s ++ change t
  builtIn : change positionName = position
  listed : ∀ identifier spelling, IsIdentifier identifier → identifier ≠ positionName →
    table.get? identifier = some spelling → change identifier = spelling
  unlisted : ∀ identifier, IsIdentifier identifier → identifier ≠ positionName →
    table.get? identifier = none → change identifier = identifier
  other : ∀ s, (∀ c ∈ s, isIdentifierChar c = false) → change s = s

theorem isIdentifier_positionName : IsIdentifier positionName :=
  ⟨by decide, by decide⟩

theorem respellsWhole_replaceIdentifiers (table : Spelling) (position : Text) :
    RespellsWhole table position (replaceIdentifiers table position) where
  append _ _ := respell_append_of_separate _
  builtIn := by
    rw [replaceIdentifiers, respell_identifier _ isIdentifier_positionName, spell, if_pos rfl]
  listed identifier spelling hid hne hget := by
    rw [replaceIdentifiers, respell_identifier _ hid, spell, if_neg hne, hget, Option.getD_some]
  unlisted identifier hid hne hget := by
    rw [replaceIdentifiers, respell_identifier _ hid, spell, if_neg hne, hget, Option.getD_none]
  other _ := respell_of_no_identifier _

namespace RespellsWhole

variable {table : Spelling} {position : Text} {change : Text → Text}

theorem apply_identifier (h : RespellsWhole table position change) {identifier : Text}
    (hid : IsIdentifier identifier) : change identifier = spell table position identifier := by
  by_cases hbuiltIn : identifier = positionName
  · subst hbuiltIn
    rw [h.builtIn, spell, if_pos rfl]
  · rw [spell, if_neg hbuiltIn]
    rcases hget : table.get? identifier with _ | spelling
    · rw [h.unlisted identifier hid hbuiltIn hget, Option.getD_none]
    · rw [h.listed identifier spelling hid hbuiltIn hget, Option.getD_some]

theorem apply_eq (h : RespellsWhole table position change) (s : Text) :
    change s = replaceIdentifiers table position s := by
  rw [replaceIdentifiers]
  induction s using identifier_induction with
  | nil => rw [h.other [] (by simp), respell]
  | other c s hc ih =>
      have hsingle : change [c] = [c] := h.other [c] (by simpa using hc)
      calc
        change (c :: s) = change [c] ++ change s := h.append [c] s (separate_singleton hc s)
        _ = c :: respell (spell table position) s := by rw [hsingle, ih, List.singleton_append]
        _ = respell (spell table position) (c :: s) := (respell_cons_of_not hc _ s).symm
  | identifier identifier rest hid hrest ih =>
      rw [h.append identifier rest (separate_of_head? identifier hrest), h.apply_identifier hid, ih,
        respell_identifier_append _ hid hrest]

end RespellsWhole

/-- Respelling by a table is the one change of texts that is local to whole identifiers. -/
theorem respellsWhole_iff (table : Spelling) (position : Text) (change : Text → Text) :
    RespellsWhole table position change ↔ change = replaceIdentifiers table position := by
  constructor
  · intro h
    funext s
    exact h.apply_eq s
  · rintro rfl
    exact respellsWhole_replaceIdentifiers table position

end CgShader.Proofs.WholeIdentifiers
