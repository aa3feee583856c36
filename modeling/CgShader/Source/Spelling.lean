import CgShader.Text.White

namespace CgShader

/-- The spellings that identifiers take in the generated program. -/
structure Spelling where
  entries : List (Text × Text)
  distinct : (entries.map Prod.fst).Nodup

namespace Spelling

def get? (table : Spelling) (identifier : Text) : Option Text := table.entries.lookup identifier

def size (table : Spelling) : Nat := table.entries.length

def empty : Spelling := ⟨[], .nil⟩

/-- The table with one spelling added, in the place of an earlier one for the same identifier. -/
def insert (table : Spelling) (identifier spelling : Text) : Spelling where
  entries := table.entries.filter (fun entry => entry.1 != identifier) ++ [(identifier, spelling)]
  distinct := by
    rw [List.map_append, List.nodup_append]
    refine ⟨table.distinct.sublist (List.filter_sublist.map Prod.fst), by simp, ?_⟩
    simp

/-- Whether two tables give each identifier the same spelling, in whatever order they list them. -/
def agrees (table other : Spelling) : Bool :=
  table.size == other.size &&
    table.entries.all fun entry => other.get? entry.1 == some entry.2

theorem get?_eq_some_iff {table : Spelling} {identifier spelling : Text} :
    table.get? identifier = some spelling ↔ (identifier, spelling) ∈ table.entries := by
  rw [get?, List.lookup_eq_some_iff]
  constructor
  · rintro ⟨front, rest, hentries, -⟩
    simp [hentries]
  · intro hmem
    obtain ⟨front, rest, hentries⟩ := List.append_of_mem hmem
    have hdistinct := table.distinct
    rw [hentries, List.map_append, List.nodup_append] at hdistinct
    refine ⟨front, rest, hentries, ?_⟩
    intro entry hentry
    have hne := hdistinct.2.2 entry.1 (List.mem_map_of_mem hentry) identifier (by simp)
    exact bne_iff_ne.mpr hne.symm

theorem mem_identifiers_iff {table : Spelling} {identifier : Text} :
    identifier ∈ table.entries.map Prod.fst ↔
      ∃ spelling, table.get? identifier = some spelling := by
  simp [get?_eq_some_iff]

theorem identifiers_subset {table other : Spelling}
    (h : ∀ identifier spelling, table.get? identifier = some spelling →
      other.get? identifier = some spelling) :
    table.entries.map Prod.fst ⊆ other.entries.map Prod.fst := by
  intro identifier hmem
  obtain ⟨spelling, hget⟩ := mem_identifiers_iff.mp hmem
  exact mem_identifiers_iff.mpr ⟨spelling, h identifier spelling hget⟩

theorem size_le {table other : Spelling}
    (h : table.entries.map Prod.fst ⊆ other.entries.map Prod.fst) : table.size ≤ other.size := by
  simpa [size] using table.distinct.length_le_of_subset h

theorem agrees_iff {table other : Spelling} :
    table.agrees other = true ↔ ∀ identifier, table.get? identifier = other.get? identifier := by
  simp only [agrees, Bool.and_eq_true, beq_iff_eq, List.all_eq_true]
  constructor
  · rintro ⟨hsize, hlisted⟩ identifier
    have hget : ∀ identifier spelling, table.get? identifier = some spelling →
        other.get? identifier = some spelling :=
      fun identifier spelling h => hlisted _ (get?_eq_some_iff.mp h)
    rcases htable : table.get? identifier with _ | spelling
    · rcases hother : other.get? identifier with _ | spelling
      · rfl
      · -- `other` would list one identifier more than `table`.
        have hnot : identifier ∉ table.entries.map Prod.fst := by
          simp [mem_identifiers_iff, htable]
        have hmem := mem_identifiers_iff.mpr ⟨spelling, hother⟩
        have hlength := (List.nodup_cons.mpr ⟨hnot, table.distinct⟩).length_le_of_subset
          (List.cons_subset.mpr ⟨hmem, identifiers_subset hget⟩)
        simp only [size, List.length_cons, List.length_map] at hsize hlength
        omega
    · exact (hget identifier spelling htable).symm
  · intro h
    refine ⟨Nat.le_antisymm (size_le (identifiers_subset fun _ _ hget => h _ ▸ hget))
      (size_le (identifiers_subset fun _ _ hget => (h _).symm ▸ hget)), ?_⟩
    intro entry hentry
    rw [← h, get?_eq_some_iff]
    exact hentry

end Spelling

namespace Source

def isIdentifierChar (c : Char) : Bool := c.isAlphanum || c == '_'

/-- The source with each identifier in the spelling that `spell` gives it. -/
def respell (spell : Text → Text) : Text → Text
  | [] => []
  | c :: rest =>
    if isIdentifierChar c then
      spell (c :: rest.takeWhile isIdentifierChar) ++
        respell spell (rest.dropWhile isIdentifierChar)
    else c :: respell spell rest
termination_by s => s.length
decreasing_by
  · have := Text.length_dropWhile_le isIdentifierChar rest
    simp only [List.length_cons]
    omega
  · simp only [List.length_cons]
    omega

def positionName : Text := "gl_Position".toList

/-- The spelling of one identifier: the built-in position is written `position`, whatever the table
lists for it, and an identifier that the table does not list stays as it is. -/
def spell (table : Spelling) (position identifier : Text) : Text :=
  if identifier = positionName then position else (table.get? identifier).getD identifier

end Source

end CgShader
