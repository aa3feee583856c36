import CgShader.Config.Basic
import CgShader.Json.Skip

/-!
Configurations as JSON. A configuration is an object with up to three fields, or a list of their
values in order; what it leaves out is the default. Fields of other names are skipped.
-/

namespace CgShader.Config

open Json

inductive Field where
  | spelling
  | transform
  | allMatrices
deriving DecidableEq

namespace Field

def name : Field → Text
  | spelling => "replacements".toList
  | transform => "mvp_identifier".toList
  | allMatrices => "rewrite_all_matrix_uniforms".toList

/-- All fields, in the order of a list of their values. -/
def all : List Field := [spelling, transform, allMatrices]

def ofName? (name : Text) : Option Field := all.find? (·.name == name)

end Field

structure Fields where
  spelling : Option Spelling
  transform : Option Text
  allMatrices : Option Bool

namespace Fields

def unread : Fields := ⟨none, none, none⟩

def has (fields : Fields) : Field → Bool
  | .spelling => fields.spelling.isSome
  | .transform => fields.transform.isSome
  | .allMatrices => fields.allMatrices.isSome

/-- The configuration with the default for each field that has not been read. -/
def toConfig (fields : Fields) : Config where
  spelling := fields.spelling.getD default.spelling
  transform := fields.transform.getD default.transform
  allMatrices := fields.allMatrices.getD default.allMatrices

end Fields

/-- Reads up to the next key of an object and through it, or through the object's end. -/
def nextKey (first : Bool) (s : Text) : Reading (Option Text) :=
  match skipWhite s with
  | [] => .error ⟨.endInObject, []⟩
  | c :: rest =>
    if c = '}' then .ok (none, rest)
    else if first then
      if c = '"' then Reading.map some (string true rest)
      else .error ⟨.keyNotString, rest⟩
    else if c = ',' then
      match skipWhite rest with
      | [] => .error ⟨.endInValue, []⟩
      | d :: inner =>
        if d = '"' then Reading.map some (string true inner)
        else if d = '}' then .error ⟨.trailingComma, inner⟩
        else .error ⟨.keyNotString, inner⟩
    else .error ⟨.noObjectEnd, rest⟩

def stringValue (s : Text) : Reading Text :=
  match skipWhite s with
  | '"' :: rest => string true rest
  | other => .error (mismatch "a string".toList other)

def boolValue (s : Text) : Reading Bool :=
  match skipWhite s with
  | 't' :: rest => (word "rue".toList rest).map fun after => (true, after)
  | 'f' :: rest => (word "alse".toList rest).map fun after => (false, after)
  | other => .error (mismatch "a boolean".toList other)

theorem length_nextKey_lt {first : Bool} {s rest : Text} {key : Option Text}
    (h : nextKey first s = .ok (key, rest)) : rest.length < s.length := by
  unfold nextKey at h
  split at h
  · cases h
  · rename_i c after hs
    have hlt := length_lt_of_skipWhite hs
    repeat' split at h
    · cases h
      exact hlt
    · obtain ⟨cs, hread⟩ := Reading.of_map_eq_ok h
      exact Nat.lt_trans (length_string_lt hread) hlt
    · cases h
    · cases h
    · rename_i inner hinner _
      obtain ⟨cs, hread⟩ := Reading.of_map_eq_ok h
      have hbetween := length_lt_of_skipWhite hinner
      exact Nat.lt_trans (length_string_lt hread) (Nat.lt_trans hbetween hlt)
    · cases h
    · cases h
    · cases h

theorem length_stringValue_le {s rest value : Text} (h : stringValue s = .ok (value, rest)) :
    rest.length ≤ s.length := by
  unfold stringValue at h
  split at h
  · rename_i after hs
    exact Nat.le_of_lt (Nat.lt_trans (length_string_lt h) (length_lt_of_skipWhite hs))
  · cases h

/-- Reads the entries of a table of spellings, of which a later one takes the place of an earlier
one for the same identifier. -/
def entries (first : Bool) (table : Spelling) (s : Text) : Reading Spelling :=
  match _hkey : nextKey first s with
  | .error fault => .error fault
  | .ok (none, rest) => .ok (table, rest)
  | .ok (some key, rest) =>
    match _hcolon : colon rest with
    | .error fault => .error fault
    | .ok afterColon =>
      match _hvalue : stringValue afterColon with
      | .error fault => .error fault
      | .ok (value, after) => entries false (table.insert key value) after
termination_by s.length
decreasing_by
  have hkey := length_nextKey_lt _hkey
  have hcolon := length_colon_le _hcolon
  have hvalue := length_stringValue_le _hvalue
  omega

def spellingValue (s : Text) : Reading Spelling :=
  match skipWhite s with
  | '{' :: rest => entries true .empty rest
  | other => .error (mismatch "a map".toList other)

def fieldValue (fields : Fields) (field : Field) (s : Text) : Reading Fields :=
  match field with
  | .spelling =>
    Reading.map (fun value => { fields with spelling := some value }) (spellingValue s)
  | .transform =>
    Reading.map (fun value => { fields with transform := some value }) (stringValue s)
  | .allMatrices =>
    Reading.map (fun value => { fields with allMatrices := some value }) (boolValue s)

/-- Reads the value under a key; that of an unknown key is skipped. -/
def keyValue (fields : Fields) (key s : Text) : Reading Fields :=
  match Field.ofName? key with
  | some field =>
    if fields.has field then .error ⟨.repeatedField key, s⟩
    else
      match colon s with
      | .error fault => .error fault
      | .ok rest => fieldValue fields field rest
  | none =>
    match colon s with
    | .error fault => .error fault
    | .ok rest => (skipValue rest).map fun after => (fields, after)

theorem length_boolValue_le {s rest : Text} {value : Bool} (h : boolValue s = .ok (value, rest)) :
    rest.length ≤ s.length := by
  unfold boolValue at h
  split at h
  · rename_i after hs
    match hword : word "rue".toList after with
    | .error _ => simp only [hword, Except.map, reduceCtorEq] at h
    | .ok left =>
      simp only [hword, Except.map, Except.ok.injEq, Prod.mk.injEq] at h
      have := length_word_le hword
      have := length_lt_of_skipWhite hs
      rw [← h.2]
      omega
  · rename_i after hs
    match hword : word "alse".toList after with
    | .error _ => simp only [hword, Except.map, reduceCtorEq] at h
    | .ok left =>
      simp only [hword, Except.map, Except.ok.injEq, Prod.mk.injEq] at h
      have := length_word_le hword
      have := length_lt_of_skipWhite hs
      rw [← h.2]
      omega
  · cases h

theorem length_entries_le {first : Bool} {table value : Spelling} {s rest : Text}
    (h : entries first table s = .ok (value, rest)) : rest.length ≤ s.length := by
  fun_induction entries first table s with
  | case1 | case3 | case4 => cases h
  | case2 first table s after hkey =>
    cases h
    exact Nat.le_of_lt (length_nextKey_lt hkey)
  | case5 first table s key afterKey hkey afterColon hcolon value after hvalue ih =>
    have hlt := length_nextKey_lt hkey
    have hmiddle := length_colon_le hcolon
    have hlast := length_stringValue_le hvalue
    have hafter := ih h
    omega

theorem length_spellingValue_le {s rest : Text} {value : Spelling}
    (h : spellingValue s = .ok (value, rest)) : rest.length ≤ s.length := by
  unfold spellingValue at h
  split at h
  · rename_i after hs
    exact Nat.le_trans (length_entries_le h) (Nat.le_of_lt (length_lt_of_skipWhite hs))
  · cases h

theorem length_fieldValue_le {fields read : Fields} {field : Field} {s rest : Text}
    (h : fieldValue fields field s = .ok (read, rest)) : rest.length ≤ s.length := by
  cases field with
  | spelling =>
    obtain ⟨value, hread⟩ := Reading.of_map_eq_ok h
    exact length_spellingValue_le hread
  | transform =>
    obtain ⟨value, hread⟩ := Reading.of_map_eq_ok h
    exact length_stringValue_le hread
  | allMatrices =>
    obtain ⟨value, hread⟩ := Reading.of_map_eq_ok h
    exact length_boolValue_le hread

theorem length_keyValue_le {fields read : Fields} {key s rest : Text}
    (h : keyValue fields key s = .ok (read, rest)) : rest.length ≤ s.length := by
  unfold keyValue at h
  split at h
  · split at h
    · cases h
    · split at h
      · cases h
      · rename_i after hcolon
        exact Nat.le_trans (length_fieldValue_le h) (length_colon_le hcolon)
  · split at h
    · cases h
    · rename_i after hcolon
      match hskip : skipValue after with
      | .error _ => simp [hskip, Except.map] at h
      | .ok left =>
        simp only [hskip, Except.map, Except.ok.injEq, Prod.mk.injEq] at h
        exact h.2 ▸ Nat.le_trans (length_skipValue_le hskip) (length_colon_le hcolon)

def objectFields (first : Bool) (fields : Fields) (s : Text) : Reading Fields :=
  match _hkey : nextKey first s with
  | .error fault => .error fault
  | .ok (none, rest) => .ok (fields, rest)
  | .ok (some key, rest) =>
    match _hvalue : keyValue fields key rest with
    | .error fault => .error fault
    | .ok (fields, after) => objectFields false fields after
termination_by s.length
decreasing_by exact Nat.lt_of_le_of_lt (length_keyValue_le _hvalue) (length_nextKey_lt _hkey)

/-- Reads through the end of a list all of whose values have been read. -/
def listEnd (s : Text) : Except Fault Text :=
  match skipWhite s with
  | [] => .error ⟨.endInList, []⟩
  | ']' :: rest => .ok rest
  | ',' :: rest =>
    match skipWhite rest with
    | ']' :: after => .error ⟨.trailingComma, after⟩
    | after => .error ⟨.trailingText, after⟩
  | _ :: rest => .error ⟨.trailingText, rest⟩

/-- Reads up to the next value of a list; or through the list's end, and then there is none. -/
def nextElement (first : Bool) (s : Text) : Reading Bool :=
  match skipWhite s with
  | [] => .error ⟨.endInList, []⟩
  | c :: rest =>
    if c = ']' then .ok (false, rest)
    else if first then .ok (true, c :: rest)
    else if c = ',' then
      match skipWhite rest with
      | [] => .error ⟨.endInValue, []⟩
      | d :: inner =>
        if d = ']' then .error ⟨.trailingComma, inner⟩ else .ok (true, d :: inner)
    else .error ⟨.noListEnd, rest⟩

/-- Reads the values of the fields `expected` from a list, which may end early. -/
def listFields (first : Bool) (fields : Fields) (expected : List Field) (s : Text) :
    Reading Fields :=
  match expected with
  | [] => (listEnd s).map fun rest => (fields, rest)
  | field :: later =>
    match nextElement first s with
    | .error fault => .error fault
    | .ok (false, rest) => .ok (fields, rest)
    | .ok (true, rest) =>
      match fieldValue fields field rest with
      | .error fault => .error fault
      | .ok (fields, after) => listFields false fields later after

/-- Reads a configuration from the front of a text. -/
def fields (s : Text) : Reading Fields :=
  match skipWhite s with
  | '{' :: rest => objectFields true .unread rest
  | '[' :: rest => listFields true .unread Field.all rest
  | other => .error (mismatch "a configuration".toList other)

/-- The configuration that a JSON text holds, and nothing after it. -/
def ofJson (s : Text) : Except Fault Config :=
  match fields s with
  | .error fault => .error fault
  | .ok (read, rest) =>
    match skipWhite rest with
    | [] => .ok read.toConfig
    | _ :: after => .error ⟨.trailingText, after⟩

end CgShader.Config
