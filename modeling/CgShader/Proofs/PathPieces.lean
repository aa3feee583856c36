import Mathlib.Data.List.DropRight
import CgShader.FileTree
import CgShader.Proofs.TextRuns

namespace CgShader.Proofs.PathPieces

open CgShader.Path
open CgShader.Proofs.TextRuns

theorem slash_not_mem_of_mem_splitOn (s : Text) {piece : Text} (h : piece ∈ s.splitOn '/') :
    '/' ∉ piece := by
  induction s generalizing piece with
  | nil => simp_all
  | cons c s ih =>
      rw [List.splitOn_cons_eq_if_modifyHead] at h
      split at h
      · rcases List.mem_cons.mp h with rfl | h
        · simp
        · exact ih h
      · rename_i hc
        obtain ⟨first, rest, hsplit⟩ := List.exists_cons_of_ne_nil (List.splitOn_ne_nil '/' s)
        rw [hsplit] at h ih
        rw [List.modifyHead_cons] at h
        rcases List.mem_cons.mp h with rfl | h
        · rw [List.mem_cons, not_or]
          exact ⟨fun hslash => hc (by simp [← hslash]), ih List.mem_cons_self⟩
        · exact ih (List.mem_cons_of_mem _ h)

/-- The text of pieces that are followed by a slash each. -/
def leading (pieces : List Text) : Text := pieces.flatMap (· ++ ['/'])

theorem intercalate_concat (before : List Text) (name : Text) :
    ['/'].intercalate (before ++ [name]) = leading before ++ name := by
  induction before with
  | nil => simp [leading]
  | cons piece before ih =>
      rw [List.cons_append, List.intercalate_cons_of_ne_nil (by simp), ih]
      simp [leading]

theorem exists_pieces_concat (path : Path) : ∃ before last, path.pieces = before ++ [last] := by
  obtain hnil | ⟨before, last, hconcat⟩ := List.eq_nil_or_concat path.pieces
  · exact absurd hnil (List.splitOn_ne_nil '/' _)
  · exact ⟨before, last, by rw [hconcat, List.concat_eq_append]⟩

section Pieces

variable {path : Path} {before : List Text} {name : Text}

theorem text_of_pieces (hpieces : path.pieces = before ++ [name]) :
    path.text = leading before ++ name := by
  rw [← intercalate_concat, ← hpieces]
  exact (List.intercalate_splitOn '/').symm

theorem slash_not_mem_of_mem_pieces {piece : Text} (h : piece ∈ path.pieces) : '/' ∉ piece :=
  slash_not_mem_of_mem_splitOn path.text h

theorem slash_not_mem_before (hpieces : path.pieces = before ++ [name]) :
    ∀ piece ∈ before, '/' ∉ piece :=
  fun _ hpiece => slash_not_mem_of_mem_pieces (hpieces ▸ List.mem_append_left _ hpiece)

theorem slash_not_mem_name (hpieces : path.pieces = before ++ [name]) : '/' ∉ name :=
  slash_not_mem_of_mem_pieces (hpieces ▸ List.mem_append_right _ List.mem_cons_self)

theorem pieces_leading_append (hbefore : ∀ piece ∈ before, '/' ∉ piece) (hname : '/' ∉ name) :
    Path.pieces ⟨leading before ++ name⟩ = before ++ [name] := by
  rw [← intercalate_concat]
  apply List.splitOn_intercalate
  · intro piece hpiece
    rcases List.mem_append.mp hpiece with hmem | hmem
    · exact hbefore piece hmem
    · rwa [List.mem_singleton.mp hmem]
  · simp

theorem dropWhile_idle {idle : List Text} (hpieces : path.pieces = before ++ [name] ++ idle)
    (hidle : ∀ piece ∈ idle, isIdle piece = true) (hname : isIdle name = false) :
    path.pieces.reverse.dropWhile isIdle = name :: before.reverse := by
  rw [hpieces, List.reverse_append, List.dropWhile_append_of_pos (by simpa using hidle)]
  simp [hname]

theorem lastName?_of_idle {idle : List Text} (hpieces : path.pieces = before ++ [name] ++ idle)
    (hidle : ∀ piece ∈ idle, isIdle piece = true) (hname : isIdle name = false) :
    path.lastName? = if name = above then none else some (before, name) := by
  rw [lastName?, dropWhile_idle hpieces hidle hname]
  simp

theorem parent_of_idle {idle : List Text} (hpieces : path.pieces = before ++ [name] ++ idle)
    (hidle : ∀ piece ∈ idle, isIdle piece = true) (hname : isIdle name = false) :
    path.parent = ⟨['/'].intercalate (before.rdropWhile isIdle)⟩ := by
  rw [parent, dropWhile_idle hpieces hidle hname, List.rdropWhile]
  rfl

theorem lastName?_of_pieces (hpieces : path.pieces = before ++ [name])
    (hname : isIdle name = false) :
    path.lastName? = if name = above then none else some (before, name) :=
  lastName?_of_idle (hpieces.trans (List.append_nil _).symm) (by simp) hname

theorem parent_of_pieces (hpieces : path.pieces = before ++ [name])
    (hname : isIdle name = false) :
    path.parent = ⟨['/'].intercalate (before.rdropWhile isIdle)⟩ :=
  parent_of_idle (hpieces.trans (List.append_nil _).symm) (by simp) hname

theorem steps_of_pieces (hpieces : path.pieces = before ++ [name]) :
    path.steps = before.filterMap Step.ofPiece? ++ (Step.ofPiece? name).toList := by
  rw [steps, hpieces, List.filterMap_append]
  rcases hstep : Step.ofPiece? name with _ | step <;> simp [hstep]

theorem endsInSlash_of_pieces (hpieces : path.pieces = before ++ [name])
    (hidle : isIdle name = false) : path.endsInSlash = false := by
  have hname : name ≠ [] := by
    rintro rfl
    simp [isIdle] at hidle
  rw [endsInSlash, text_of_pieces hpieces, List.getLast?_append_of_ne_nil _ hname,
    beq_eq_false_iff_ne]
  intro hslash
  exact slash_not_mem_name hpieces (List.mem_of_getLast? hslash)

theorem endsInDot_of_pieces (hpieces : path.pieces = before ++ [name])
    (hidle : isIdle name = false) : path.endsInDot = false := by
  simp only [isIdle, Bool.or_eq_false_iff] at hidle
  rw [endsInDot, hpieces, List.filter_append, List.getLast?_append]
  simpa [hidle.1] using hidle.2

theorem isAbsolute_eq_of_pieces {other : Path} {name' : Text}
    (hpieces : path.pieces = before ++ [name]) (hother : other.pieces = before ++ [name']) :
    path.isAbsolute = other.isAbsolute := by
  have hname := slash_not_mem_name hpieces
  have hname' := slash_not_mem_name hother
  have hhead : ∀ s : Text, '/' ∉ s → (s.head? == some '/') = false := by
    intro s hs
    rcases s with _ | ⟨c, s⟩
    · rfl
    · simpa using fun hc : c = '/' => hs (by simp [hc])
  rw [isAbsolute, isAbsolute, text_of_pieces hpieces, text_of_pieces hother]
  rcases before with _ | ⟨piece, before⟩
  · simp only [leading, List.flatMap_nil, List.nil_append]
    rw [hhead _ hname, hhead _ hname']
  · simp [leading, List.head?_append]

end Pieces

theorem splitName_append {stem extension : Text} (hstem : stem ≠ [])
    (hextension : '.' ∉ extension) :
    splitName (stem ++ '.' :: extension) = (stem, some extension) := by
  have hreverse : (stem ++ '.' :: extension).reverse =
      extension.reverse ++ '.' :: stem.reverse := by simp
  have hrun : ∀ c ∈ extension.reverse, (c != '.') = true := by
    intro c hc
    rw [bne_iff_ne]
    rintro rfl
    exact hextension (List.mem_reverse.mp hc)
  have hstop : ∀ c ∈ ('.' :: stem.reverse).head?, (c != '.') = false := by simp
  unfold splitName
  rw [hreverse, dropWhile_run hrun hstop, takeWhile_run hrun hstop]
  split
  · rename_i hnil
    cases hnil
  · rename_i hdot
    simp [hstem] at hdot
  · rename_i hcons
    cases hcons
    simp

theorem exists_of_splitName {name extension : Text} (h : (splitName name).2 = some extension) :
    ∃ stem, stem ≠ [] ∧ '.' ∉ extension ∧ name = stem ++ '.' :: extension := by
  have hsplit := List.takeWhile_append_dropWhile (p := (· != '.')) (l := name.reverse)
  have hstop := not_of_mem_head?_dropWhile (· != '.') name.reverse
  unfold splitName at h
  split at h
  · cases h
  · cases h
  · rename_i dot stem hlone hdrop
    cases h
    rw [hdrop] at hsplit hstop
    obtain rfl : dot = '.' := by simpa using hstop dot rfl
    refine ⟨stem.reverse, ?_, ?_, ?_⟩
    · intro hnil
      exact hlone rfl (List.reverse_eq_nil_iff.mp hnil)
    · intro hdot
      simpa using List.mem_takeWhile_imp (List.mem_reverse.mp hdot)
    · simpa using (congrArg List.reverse hsplit).symm

theorem size_reverse (s : Text) : Text.size s.reverse = Text.size s := by
  induction s with
  | nil => rfl
  | cons c s ih =>
      rw [List.reverse_cons, Text.size_append, ih, Text.size_cons, Text.size_cons, Text.size_nil]
      omega

theorem go_size_append (taken rest : Text) :
    dropEndBytes.go (Text.size taken) (taken ++ rest) = rest := by
  induction taken with
  | nil =>
      rcases rest with _ | ⟨c, rest⟩
      · rfl
      · have hc := c.utf8Size_pos
        rw [Text.size_nil, List.nil_append, dropEndBytes.go, if_neg (by omega)]
  | cons c taken ih =>
      rw [Text.size_cons, List.cons_append, dropEndBytes.go, if_pos (by omega),
        Nat.add_sub_cancel_left, ih]

theorem dropEndBytes_size_append (s t : Text) : dropEndBytes (Text.size t) (s ++ t) = s := by
  rw [dropEndBytes, List.reverse_append, ← size_reverse, go_size_append, List.reverse_reverse]

theorem isIdle_of_length {piece : Text} (h : 2 ≤ piece.length) : isIdle piece = false := by
  rcases piece with _ | ⟨c, _ | ⟨d, piece⟩⟩
  · simp at h
  · simp at h
  · simp [isIdle, here]

/-- The name that a file with this stem has under an extension. From the stem `.` the extension is
cut off and `..` is left. -/
def renamed (stem extension : Text) : Text :=
  if stem = here then above else stem ++ '.' :: extension

theorem extendStem_of_pieces {path : Path} {before : List Text} {stem : Text}
    (hpieces : path.pieces = before ++ [stem ++ ['.']]) (hstem : stem ≠ []) (extension : Text) :
    path.extendStem extension = ⟨leading before ++ renamed stem extension⟩ := by
  have hlength := List.length_pos_iff.mpr hstem
  have hidle : isIdle (stem ++ ['.']) = false := by
    apply isIdle_of_length
    rw [List.length_append, List.length_singleton]
    omega
  have hlast := lastName?_of_pieces hpieces hidle
  have habove : stem ++ ['.'] = above ↔ stem = here := by
    rw [show above = here ++ ['.'] from rfl, List.append_left_inj]
  rw [extendStem, hlast, renamed]
  rcases eq_or_ne stem here with hhere | hhere
  · rw [if_pos (habove.mpr hhere), if_pos hhere]
    rw [← habove.mpr hhere, ← text_of_pieces hpieces]
  · rw [if_neg (fun h => hhere (habove.mp h)), if_neg hhere]
    simp only [splitName_append hstem (show '.' ∉ [] by simp), intercalate_concat,
      List.append_assoc]

section Named

variable {stem extension : Text}

theorem isIdle_named (hstem : stem ≠ []) : isIdle (stem ++ '.' :: extension) = false := by
  have hlength := List.length_pos_iff.mpr hstem
  apply isIdle_of_length
  rw [List.length_append, List.length_cons]
  omega

theorem named_ne_above (hstem : stem ≠ []) (hextension : extension ≠ []) :
    stem ++ '.' :: extension ≠ above := by
  intro h
  have hlength := List.length_pos_iff.mpr hstem
  have hlength' := List.length_pos_iff.mpr hextension
  have habove := congrArg List.length h
  simp only [above, List.length_append, List.length_cons, List.length_nil] at habove
  omega

theorem ofPiece?_named (hstem : stem ≠ []) (hextension : extension ≠ []) :
    Step.ofPiece? (stem ++ '.' :: extension) = some (.into (stem ++ '.' :: extension)) := by
  simp [Step.ofPiece?, isIdle_named hstem, named_ne_above hstem hextension]

end Named

theorem withExtension_of_pieces {path : Path} {before : List Text} {stem old : Text}
    (hpieces : path.pieces = before ++ [stem ++ '.' :: old]) (hstem : stem ≠ [])
    (hdot : '.' ∉ old) (hold : old ≠ []) (extension : Text) :
    path.withExtension extension = ⟨leading before ++ renamed stem extension⟩ := by
  have hextension : path.extension? = some old := by
    simp [extension?, fileName?, lastName?_of_pieces hpieces (isIdle_named hstem),
      named_ne_above hstem hold, splitName_append hstem hdot]
  have htext : path.text = leading before ++ (stem ++ ['.']) ++ old := by
    simp [text_of_pieces hpieces]
  have hcut : Path.pieces ⟨leading before ++ (stem ++ ['.'])⟩ = before ++ [stem ++ ['.']] := by
    apply pieces_leading_append (slash_not_mem_before hpieces)
    intro hslash
    apply slash_not_mem_name hpieces
    rw [List.append_cons]
    exact List.mem_append_left _ hslash
  rw [withExtension, hextension, htext]
  dsimp only
  rw [dropEndBytes_size_append, extendStem_of_pieces hcut hstem]

theorem exists_pieces_of_lastName? {path : Path} {before : List Text} {name : Text}
    (h : path.lastName? = some (before, name)) :
    ∃ idle, (∀ piece ∈ idle, isIdle piece = true) ∧ path.pieces = before ++ [name] ++ idle := by
  have hkept : path.pieces.rdropWhile isIdle = before ++ [name] := by
    unfold lastName? at h
    split at h
    · cases h
    · rename_i last rest hdrop
      split at h
      · cases h
      · cases h
        rw [List.rdropWhile, hdrop, List.reverse_cons]
  refine ⟨path.pieces.rtakeWhile isIdle, fun piece hpiece => List.mem_rtakeWhile_imp hpiece, ?_⟩
  rw [← hkept, List.rdropWhile_append_rtakeWhile]

theorem getLast?_leading {pieces : List Text} (hpieces : pieces ≠ []) :
    (leading pieces).getLast? = some '/' := by
  obtain ⟨front, last, rfl⟩ := List.eq_nil_or_concat pieces |>.resolve_left hpieces
  simp [leading]

theorem exists_idle_of_extension? {path : Path} {extension : Text}
    (h : path.extension? = some extension) :
    ∃ before stem idle, stem ≠ [] ∧ '.' ∉ extension ∧ (∀ piece ∈ idle, isIdle piece = true) ∧
      path.pieces = before ++ [stem ++ '.' :: extension] ++ idle := by
  simp only [extension?, fileName?, Option.bind_eq_some_iff, Option.map_eq_some_iff,
    Prod.exists, exists_eq_right] at h
  obtain ⟨name, ⟨before, hlast⟩, hname⟩ := h
  obtain ⟨stem, hstem, hextension, rfl⟩ := exists_of_splitName hname
  obtain ⟨idle, hidle, hpieces⟩ := exists_pieces_of_lastName? hlast
  exact ⟨before, stem, idle, hstem, hextension, hidle, hpieces⟩

theorem exists_pieces_of_extension? {path : Path} {extension : Text}
    (h : path.extension? = some extension) (hslash : path.endsInSlash = false)
    (hdot : path.endsInDot = false) :
    ∃ before stem, stem ≠ [] ∧ '.' ∉ extension ∧
      path.pieces = before ++ [stem ++ '.' :: extension] := by
  obtain ⟨before, stem, idle, hstem, hextension, hidle, hpieces⟩ := exists_idle_of_extension? h
  refine ⟨before, stem, hstem, hextension, ?_⟩
  obtain rfl | ⟨front, last, rfl⟩ := List.eq_nil_or_concat idle
  · rwa [List.append_nil] at hpieces
  · rw [List.concat_eq_append, ← List.append_assoc] at hpieces
    have hlastIdle := hidle last (by simp)
    simp only [isIdle, Bool.or_eq_true, List.isEmpty_iff, beq_iff_eq] at hlastIdle
    rcases hlastIdle with rfl | rfl
    · rw [endsInSlash, text_of_pieces hpieces, List.append_nil,
        getLast?_leading (by simp)] at hslash
      cases hslash
    · rw [endsInDot, hpieces, List.filter_append, List.getLast?_append] at hdot
      simp [here] at hdot

end CgShader.Proofs.PathPieces
