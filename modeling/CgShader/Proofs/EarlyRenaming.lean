import CgShader.Program.Basic
import CgShader.Proofs.WholeIdentifiers

namespace CgShader.Proofs.EarlyRenaming

open CgShader.Source
open CgShader.Proofs.TextRuns
open CgShader.Proofs.SourcePreparation
open CgShader.Proofs.WholeIdentifiers

/-- An identifier stands in a text, and neither of its neighbours could belong to it. -/
structure HasIdentifier (s identifier : Text) : Prop where
  isIdentifier : IsIdentifier identifier
  place : ∃ front rest, s = front ++ identifier ++ rest ∧
    (∀ c ∈ front.getLast?, isIdentifierChar c = false) ∧
    ∀ c ∈ rest.head?, isIdentifierChar c = false

theorem not_hasIdentifier_nil (identifier : Text) : ¬ HasIdentifier [] identifier := by
  rintro ⟨hid, front, rest, htext, -, -⟩
  simp only [List.nil_eq, List.append_eq_nil_iff] at htext
  exact hid.nonempty htext.1.2

theorem hasIdentifier_cons_iff {c : Char} (hc : isIdentifierChar c = false)
    (s identifier : Text) : HasIdentifier (c :: s) identifier ↔ HasIdentifier s identifier := by
  constructor
  · rintro ⟨hid, front, rest, htext, hfront, hrest⟩
    refine ⟨hid, ?_⟩
    rcases front with _ | ⟨d, front⟩
    · obtain ⟨d, word, rfl⟩ := List.exists_cons_of_ne_nil hid.nonempty
      obtain ⟨rfl, -⟩ := List.cons.inj htext
      rw [hid.chars c (by simp)] at hc
      cases hc
    · obtain ⟨-, rfl⟩ := List.cons.inj htext
      exact ⟨front, rest, rfl, fun e he => hfront e (List.mem_getLast?_cons he), hrest⟩
  · rintro ⟨hid, front, rest, rfl, hfront, hrest⟩
    refine ⟨hid, c :: front, rest, rfl, ?_, hrest⟩
    intro d hd
    by_cases hnil : front = []
    · subst hnil
      obtain rfl : c = d := by simpa using hd
      exact hc
    · exact hfront d (getLast?_cons_of_ne_nil c hnil ▸ hd)

theorem hasIdentifier_append_iff {word rest : Text} (hword : IsIdentifier word)
    (hrest : ∀ c ∈ rest.head?, isIdentifierChar c = false) (identifier : Text) :
    HasIdentifier (word ++ rest) identifier ↔
      identifier = word ∨ HasIdentifier rest identifier := by
  constructor
  · rintro ⟨hid, front, after, htext, hfront, hafter⟩
    rw [List.append_assoc] at htext
    rcases List.append_eq_append_iff.mp htext with ⟨piece, rfl, hpiece⟩ | ⟨piece, rfl, hpiece⟩
    · -- the identifier stands behind the first word
      by_cases hnil : piece = []
      · exact .inr ⟨hid, [], after, by simp [hpiece, hnil], by simp, hafter⟩
      · rw [List.getLast?_append_of_ne_nil _ hnil] at hfront
        exact .inr ⟨hid, piece, after, by simp [hpiece], hfront, hafter⟩
    · -- what is before the identifier belongs to the first word, so there is nothing before it
      have hnil : front = [] := by
        by_contra hne
        have hlast := List.getLast?_eq_some_getLast hne
        have hmem : front.getLast hne ∈ front ++ piece :=
          List.mem_append_left _ (List.getLast_mem hne)
        have hident := hword.chars _ hmem
        rw [hfront _ hlast] at hident
        cases hident
      subst hnil
      have htake := congrArg (List.takeWhile isIdentifierChar) hpiece
      rw [List.nil_append] at hword
      rw [takeWhile_run hid.chars hafter, takeWhile_run hword.chars hrest] at htake
      exact .inl htake
  · rintro (rfl | ⟨hid, front, after, rfl, hfront, hafter⟩)
    · exact ⟨hword, [], rest, rfl, by simp, hrest⟩
    · refine ⟨hid, word ++ front, after, by simp, ?_, hafter⟩
      by_cases hnil : front = []
      · -- the text behind the word would begin with an identifier
        subst hnil
        obtain ⟨d, tail, rfl⟩ := List.exists_cons_of_ne_nil hid.nonempty
        have hident := hid.chars d (by simp)
        rw [hrest d (by simp)] at hident
        cases hident
      · rwa [List.getLast?_append_of_ne_nil _ hnil]

def identifiers : Text → List Text
  | [] => []
  | c :: rest =>
    if isIdentifierChar c then
      (c :: rest.takeWhile isIdentifierChar) :: identifiers (rest.dropWhile isIdentifierChar)
    else identifiers rest
termination_by s => s.length
decreasing_by
  · have := Text.length_dropWhile_le isIdentifierChar rest
    simp only [List.length_cons]
    omega
  · simp only [List.length_cons]
    omega

theorem identifiers_append {word rest : Text} (hword : IsIdentifier word)
    (hrest : ∀ c ∈ rest.head?, isIdentifierChar c = false) :
    identifiers (word ++ rest) = word :: identifiers rest := by
  obtain ⟨c, tail, rfl⟩ := List.exists_cons_of_ne_nil hword.nonempty
  have htail : ∀ d ∈ tail, isIdentifierChar d = true :=
    fun d hd => hword.chars d (List.mem_cons_of_mem c hd)
  rw [List.cons_append, identifiers, if_pos (hword.chars c (by simp)),
    takeWhile_run htail hrest, dropWhile_run htail hrest]

theorem mem_identifiers_iff (s identifier : Text) :
    identifier ∈ identifiers s ↔ HasIdentifier s identifier := by
  induction s using identifier_induction with
  | nil =>
      rw [identifiers]
      simpa using not_hasIdentifier_nil identifier
  | other c s hc ih => rw [identifiers, if_neg (by simp [hc]), ih, hasIdentifier_cons_iff hc]
  | identifier word rest hword hrest ih =>
      rw [identifiers_append hword hrest, List.mem_cons, ih, hasIdentifier_append_iff hword hrest]

/-- No identifier of the text is the built-in position or listed in the table. -/
def Settled (table : Spelling) (s : Text) : Prop :=
  ∀ identifier, HasIdentifier s identifier →
    identifier ≠ positionName ∧ table.get? identifier = none

instance (table : Spelling) (s : Text) : Decidable (Settled table s) :=
  decidable_of_iff (∀ identifier ∈ identifiers s,
      identifier ≠ positionName ∧ table.get? identifier = none)
    (forall_congr' fun identifier => by rw [mem_identifiers_iff])

theorem respell_of_settled {table : Spelling} (position : Text) {s : Text}
    (h : Settled table s) : respell (spell table position) s = s := by
  induction s using identifier_induction with
  | nil => rw [respell]
  | other c s hc ih =>
      rw [respell_cons_of_not hc, ih]
      intro identifier hhas
      exact h identifier ((hasIdentifier_cons_iff hc ..).mpr hhas)
  | identifier word rest hword hrest ih =>
      have hhas := hasIdentifier_append_iff hword hrest
      obtain ⟨hne, hget⟩ := h word ((hhas word).mpr (.inl rfl))
      rw [respell_identifier_append _ hword hrest, ih, spell, if_neg hne, hget, Option.getD_none]
      exact fun identifier hin => h identifier ((hhas identifier).mpr (.inr hin))

theorem head?_respell (spell : Text → Text) {s : Text}
    (hs : ∀ c ∈ s.head?, isIdentifierChar c = false) : (respell spell s).head? = s.head? := by
  rcases s with _ | ⟨c, s⟩
  · rw [respell]
  · rw [respell_cons_of_not (hs c rfl), List.head?_cons, List.head?_cons]

theorem respell_respell {spell early : Text → Text}
    (h : ∀ identifier, IsIdentifier identifier →
      respell spell (early identifier) = spell identifier) (s : Text) :
    respell spell (respell early s) = respell spell s := by
  induction s using identifier_induction with
  | nil => rw [respell]
  | other c s hc ih =>
      rw [respell_cons_of_not hc, respell_cons_of_not hc, respell_cons_of_not hc, ih]
  | identifier word rest hword hrest ih =>
      have hhead : ∀ c ∈ (respell early rest).head?, isIdentifierChar c = false := by
        rwa [head?_respell early hrest]
      calc
        respell spell (respell early (word ++ rest))
          = respell spell (early word ++ respell early rest) := by
            rw [respell_identifier_append early hword hrest]
        _ = respell spell (early word) ++ respell spell (respell early rest) :=
            respell_append spell (early word) hhead
        _ = spell word ++ respell spell rest := by rw [h word hword, ih]
        _ = respell spell (word ++ rest) := (respell_identifier_append spell hword hrest).symm

/-- What stands for an identifier when a table's spellings are put, and `position` for the built-in
position. -/
def listed? (table : Spelling) (position identifier : Text) : Option Text :=
  if identifier = positionName then some position else table.get? identifier

theorem spell_eq_getD_listed? (table : Spelling) (position identifier : Text) :
    spell table position identifier = (listed? table position identifier).getD identifier := by
  unfold spell listed?
  split <;> rfl

theorem replaceIdentifiers_respell {table : Spelling} {position : Text}
    {early : Text → Option Text}
    (h : ∀ identifier spelling, early identifier = some spelling →
      listed? table position identifier = some spelling ∧ Settled table spelling) (s : Text) :
    replaceIdentifiers table position
        (respell (fun identifier => (early identifier).getD identifier) s) =
      replaceIdentifiers table position s := by
  apply respell_respell
  intro identifier hid
  rcases hearly : early identifier with _ | spelling
  · rw [Option.getD_none, respell_identifier _ hid]
  · obtain ⟨hlisted, hsettled⟩ := h identifier spelling hearly
    rw [Option.getD_some, respell_of_settled position hsettled, spell_eq_getD_listed?, hlisted,
      Option.getD_some]

theorem replaceIdentifiers_replaceIdentifiers {table : Spelling} {position : Text}
    (hposition : Settled table position)
    (htable : ∀ entry ∈ table.entries, Settled table entry.2) (s : Text) :
    replaceIdentifiers table position (replaceIdentifiers table position s) =
      replaceIdentifiers table position s := by
  have hsettled : ∀ identifier spelling, listed? table position identifier = some spelling →
      listed? table position identifier = some spelling ∧ Settled table spelling := by
    intro identifier spelling hlisted
    refine ⟨hlisted, ?_⟩
    unfold listed? at hlisted
    split at hlisted
    · cases hlisted
      exact hposition
    · exact htable _ (Spelling.get?_eq_some_iff.mp hlisted)
  have honce := replaceIdentifiers_respell hsettled s
  rwa [← funext (spell_eq_getD_listed? table position)] at honce

def rename (early : Spelling) (s : Text) : Text :=
  respell (fun identifier => (early.get? identifier).getD identifier) s

/-- A table that lists some identifiers in the spelling that another table gives them, with nothing
left to respell in these spellings. -/
structure RenamesAhead (early table : Spelling) (position : Text) : Prop where
  listed : ∀ identifier spelling, early.get? identifier = some spelling →
    listed? table position identifier = some spelling
  settled : ∀ identifier spelling, early.get? identifier = some spelling →
    Settled table spelling

theorem renamesAhead_of_entries {early table : Spelling} {position : Text}
    (h : ∀ entry ∈ early.entries,
      listed? table position entry.1 = some entry.2 ∧ Settled table entry.2) :
    RenamesAhead early table position where
  listed _ _ hget := (h _ (Spelling.get?_eq_some_iff.mp hget)).1
  settled _ _ hget := (h _ (Spelling.get?_eq_some_iff.mp hget)).2

theorem RenamesAhead.replaceIdentifiers_rename {early table : Spelling} {position : Text}
    (h : RenamesAhead early table position) (s : Text) :
    replaceIdentifiers table position (rename early s) = replaceIdentifiers table position s :=
  replaceIdentifiers_respell
    (fun identifier spelling hget =>
      ⟨h.listed identifier spelling hget, h.settled identifier spelling hget⟩) s

theorem compile_eq_of_replaceIdentifiers {config : Config} {source source' : Text}
    (h : replaceIdentifiers config.spelling config.positionOutput source' =
      replaceIdentifiers config.spelling config.positionOutput source) (check : NameCheck)
    (stage : Stage) : compile check config stage source' = compile check config stage source := by
  rw [compile, compile, Shader.ofSource, Shader.ofSource, prepare, prepare, prepareWith,
    prepareWith, h]

def positionOnly (config : Config) : Spelling :=
  Spelling.empty.insert positionName config.positionOutput

theorem renamesAhead_positionOnly {config : Config}
    (h : Settled config.spelling config.positionOutput) :
    RenamesAhead (positionOnly config) config.spelling config.positionOutput := by
  apply renamesAhead_of_entries
  intro entry hentry
  obtain rfl := List.mem_singleton.mp hentry
  exact ⟨if_pos rfl, h⟩

theorem settled_default : ∀ entry ∈ Config.defaultSpelling.entries,
    Settled Config.defaultSpelling entry.2 := by
  decide +kernel

/-- Respelling makes the same of a text whether or not some of the spellings are already there. So
respelling by the default table twice is the same as once, and a source may write the position
output in the place of the built-in position. -/
theorem renaming_ahead_absorbed :
    (∀ (early table : Spelling) (position : Text), RenamesAhead early table position → ∀ s,
      replaceIdentifiers table position (rename early s) =
        replaceIdentifiers table position s) ∧
    Settled Config.defaultSpelling Config.default.positionOutput ∧
    (∀ position, Settled Config.defaultSpelling position → ∀ s,
      replaceIdentifiers Config.defaultSpelling position
          (replaceIdentifiers Config.defaultSpelling position s) =
        replaceIdentifiers Config.defaultSpelling position s) ∧
    ∀ check config stage source, Settled config.spelling config.positionOutput →
      compile check config stage (rename (positionOnly config) source) =
        compile check config stage source := by
  refine ⟨fun early table position h => h.replaceIdentifiers_rename, by decide +kernel, ?_, ?_⟩
  · intro position hposition
    exact replaceIdentifiers_replaceIdentifiers hposition settled_default
  · intro check config stage source h
    exact compile_eq_of_replaceIdentifiers
      ((renamesAhead_positionOnly h).replaceIdentifiers_rename source) check stage

theorem renaming_ahead_absorbed_several_words :
    let table := ((Spelling.empty.insert "lowp".toList []).insert "gl_PointSize".toList
      "float psize".toList).insert "vec2".toList "float2".toList
    let early := ((Spelling.empty.insert "gl_PointSize".toList "float psize".toList).insert
      "lowp".toList []).insert "gl_Position".toList "o.pos".toList
    let s := "élowp;vec2 gl_PointSize\ngl_Position=lowp_vec2".toList
    let source := "void main()\x7bgl_Position=gl_Positions;\x7d".toList
    RenamesAhead early table "o.pos".toList ∧
      rename early s = "é;vec2 float psize\no.pos=lowp_vec2".toList ∧
      replaceIdentifiers table "o.pos".toList (rename early s) =
        replaceIdentifiers table "o.pos".toList s ∧
      replaceIdentifiers table "o.pos".toList s =
        "é;float2 float psize\no.pos=lowp_vec2".toList ∧
      Settled Config.defaultSpelling "o.pos".toList ∧
      replaceIdentifiers Config.defaultSpelling "o.pos".toList
          (replaceIdentifiers Config.defaultSpelling "o.pos".toList s) =
        replaceIdentifiers Config.defaultSpelling "o.pos".toList s ∧
      rename (positionOnly .default) source =
        "void main()\x7bv_position=gl_Positions;\x7d".toList ∧
      compile .trivial .default .vertex (rename (positionOnly .default) source) =
        compile .trivial .default .vertex source := by
  intro table early s source
  have hahead : RenamesAhead early table "o.pos".toList :=
    renamesAhead_of_entries (by decide +kernel)
  have hsettled : Settled Config.defaultSpelling "o.pos".toList := by decide +kernel
  exact ⟨hahead, by decide +kernel, renaming_ahead_absorbed.1 early table _ hahead s,
    by decide +kernel, hsettled, renaming_ahead_absorbed.2.2.1 _ hsettled s, by decide +kernel,
    renaming_ahead_absorbed.2.2.2 .trivial .default .vertex source renaming_ahead_absorbed.2.1⟩

end CgShader.Proofs.EarlyRenaming
