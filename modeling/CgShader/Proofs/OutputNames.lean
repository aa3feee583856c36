import CgShader.Proofs.SharedOutputs

namespace CgShader.Proofs.OutputNames

open CgShader.Path
open CgShader.Proofs.PathPieces
open CgShader.Proofs.OutputsBeside
open CgShader.Proofs.BatchOrder
open CgShader.Proofs.SharedOutputs

def stem? (path : Path) : Option Text := path.fileName?.map fun name => (splitName name).1

/-- What a path is told by: where it starts, and the steps it takes. -/
inductive Component where
  | root
  | here
  | step (step : Step)
deriving DecidableEq

/-- The components of a path. Empty pieces and dots are none, but for the dot that a path begins
with. -/
def components (path : Path) : List Component :=
  (if path.isAbsolute then [.root]
    else if path.pieces.head? = some here then [.here] else []) ++ path.steps.map .step

/-- The components of the directory that a path's name is in, from the pieces before the name. -/
def origin (before : List Text) : List Component :=
  (if (leading before).head? = some '/' then [.root]
    else if before.head? = some here then [.here] else []) ++
    (before.filterMap Step.ofPiece?).map .step

section Idle

variable {path : Path} {before idle : List Text} {name : Text}

theorem exists_text_of_idle (hpieces : path.pieces = before ++ [name] ++ idle) :
    ∃ trail, path.text = leading before ++ (name ++ trail) := by
  obtain rfl | ⟨front, last, rfl⟩ := List.eq_nil_or_concat idle
  · rw [List.append_nil] at hpieces
    exact ⟨[], by rw [text_of_pieces hpieces, List.append_nil]⟩
  · rw [List.concat_eq_append, ← List.append_assoc] at hpieces
    exact ⟨'/' :: (leading front ++ last), by simp [text_of_pieces hpieces, leading]⟩

theorem slash_not_mem_of_idle (hpieces : path.pieces = before ++ [name] ++ idle) : '/' ∉ name := by
  have hname : name ∈ path.pieces := by simp [hpieces]
  exact slash_not_mem_of_mem_pieces hname

theorem slash_not_mem_before_of_idle (hpieces : path.pieces = before ++ [name] ++ idle) :
    ∀ piece ∈ before, '/' ∉ piece := by
  intro piece hpiece
  have hmem : piece ∈ path.pieces := by simp [hpieces, hpiece]
  exact slash_not_mem_of_mem_pieces hmem

theorem isAbsolute_iff_of_idle (hpieces : path.pieces = before ++ [name] ++ idle)
    (hname : name ≠ []) : path.isAbsolute = true ↔ (leading before).head? = some '/' := by
  obtain ⟨trail, htext⟩ := exists_text_of_idle hpieces
  rw [isAbsolute, beq_iff_eq, htext]
  rcases before with _ | ⟨piece, before⟩
  · have hslash : name.head? ≠ some '/' :=
      fun hhead => slash_not_mem_of_idle hpieces (List.mem_of_mem_head? hhead)
    simp [leading, List.head?_append_of_ne_nil _ hname, hslash]
  · rw [List.head?_append_of_ne_nil _ (by simp [leading])]

theorem components_of_idle (hpieces : path.pieces = before ++ [name] ++ idle)
    (hidle : ∀ piece ∈ idle, isIdle piece = true) {step : Step}
    (hstep : Step.ofPiece? name = some step) :
    components path = origin before ++ [.step step] := by
  have hname : isIdle name = false := by
    by_contra hname
    simp [Step.ofPiece?, hname] at hstep
  simp only [isIdle, Bool.or_eq_false_iff, List.isEmpty_eq_false_iff, beq_eq_false_iff_ne] at hname
  have habsolute := isAbsolute_iff_of_idle hpieces hname.1
  have hhere : path.pieces.head? = some here ↔ before.head? = some here := by
    rw [hpieces]
    rcases before with _ | ⟨piece, before⟩
    · simpa using hname.2
    · simp
  have hsteps : path.steps = before.filterMap Step.ofPiece? ++ [step] := by
    rw [steps, hpieces, List.filterMap_append, List.filterMap_append,
      filterMap_ofPiece?_of_idle hidle]
    simp [hstep]
  simp only [components, origin, habsolute, hhere, hsteps, List.map_append, List.map_singleton,
    List.append_assoc]

end Idle

/-- A path that ends in a name with a stem and an extension. Pieces that lead nowhere may follow. -/
structure EndsIn (path : Path) (before : List Text) (stem extension : Text) (idle : List Text) :
    Prop where
  stem_ne : stem ≠ []
  extension_ne : extension ≠ []
  dot : '.' ∉ extension
  nowhere : ∀ piece ∈ idle, isIdle piece = true
  pieces : path.pieces = before ++ [stem ++ '.' :: extension] ++ idle

namespace EndsIn

variable {path : Path} {before idle : List Text} {stem extension : Text}

theorem lastName? (h : EndsIn path before stem extension idle) :
    path.lastName? = some (before, stem ++ '.' :: extension) := by
  rw [lastName?_of_idle h.pieces h.nowhere (isIdle_named h.stem_ne),
    if_neg (named_ne_above h.stem_ne h.extension_ne)]

theorem fileName? (h : EndsIn path before stem extension idle) :
    path.fileName? = some (stem ++ '.' :: extension) := by
  rw [Path.fileName?, h.lastName?]
  rfl

theorem stem? (h : EndsIn path before stem extension idle) :
    OutputNames.stem? path = some stem := by
  rw [OutputNames.stem?, h.fileName?, Option.map_some, splitName_append h.stem_ne h.dot]

theorem extension? (h : EndsIn path before stem extension idle) :
    path.extension? = some extension := by
  rw [Path.extension?, h.fileName?, Option.bind_some, splitName_append h.stem_ne h.dot]

theorem parent (h : EndsIn path before stem extension idle) :
    path.parent = ⟨['/'].intercalate (before.rdropWhile isIdle)⟩ :=
  parent_of_idle h.pieces h.nowhere (isIdle_named h.stem_ne)

theorem components (h : EndsIn path before stem extension idle) :
    components path = origin before ++ [.step (.into (stem ++ '.' :: extension))] :=
  components_of_idle h.pieces h.nowhere (ofPiece?_named h.stem_ne h.extension_ne)

theorem extendStem (h : EndsIn path before stem extension idle) (other : Text) :
    path.extendStem other = ⟨leading before ++ (stem ++ '.' :: other)⟩ := by
  rw [Path.extendStem, h.lastName?]
  simp only [splitName_append h.stem_ne h.dot, intercalate_concat, List.append_assoc]

end EndsIn

theorem exists_endsIn {source : Path} {stage : Stage} (h : Stage.ofPath? source = some stage) :
    ∃ before stem idle, EndsIn source before stem (sourceExtension stage) idle := by
  obtain ⟨before, stem, idle, hstem, hdot, hidle, hpieces⟩ :=
    exists_idle_of_extension? (extension?_of_ofPath? h)
  exact ⟨before, stem, idle, hstem, sourceExtension_ne_nil stage, hdot, hidle, hpieces⟩

/-- A text between whose slashes nothing stands, or dots. -/
def IdleText (s : Text) : Prop := ∀ piece ∈ Path.pieces ⟨s⟩, isIdle piece = true

theorem idleText_of_concat {s : Text} {c : Char} (h : IdleText (s ++ [c])) :
    (c = '/' ∨ c = '.') ∧ IdleText s := by
  obtain ⟨front, last, hpieces⟩ := exists_pieces_concat ⟨s⟩
  have hslash := slash_not_mem_before hpieces
  have hlast := slash_not_mem_name hpieces
  obtain rfl : s = leading front ++ last := text_of_pieces hpieces
  rw [IdleText, hpieces]
  by_cases hc : c = '/'
  · subst hc
    refine ⟨.inl rfl, ?_⟩
    have hjoined : leading front ++ last ++ ['/'] = leading (front ++ [last]) ++ [] := by
      simp [leading]
    rw [IdleText, hjoined, pieces_leading_append _ (by simp)] at h
    · intro piece hpiece
      exact h piece (List.mem_append_left _ hpiece)
    · intro piece hpiece
      rcases List.mem_append.mp hpiece with hmem | hmem
      · exact hslash piece hmem
      · rwa [List.mem_singleton.mp hmem]
  · have hkept : '/' ∉ last ++ [c] := by simp [hlast, Ne.symm hc]
    rw [IdleText, List.append_assoc, pieces_leading_append hslash hkept] at h
    have hdot := h (last ++ [c]) (by simp)
    obtain ⟨rfl, rfl⟩ : last = [] ∧ c = '.' := by
      simpa [isIdle, here, List.append_eq_singleton_iff] using hdot
    refine ⟨.inr rfl, fun piece hpiece => ?_⟩
    rcases List.mem_append.mp hpiece with hmem | hmem
    · exact h piece (List.mem_append_left _ hmem)
    · rw [List.mem_singleton.mp hmem]
      rfl

theorem pieces_append_slash {before : List Text} {name : Text}
    (hbefore : ∀ piece ∈ before, '/' ∉ piece) (hname : '/' ∉ name) (tail : Text) :
    Path.pieces ⟨leading before ++ (name ++ '/' :: tail)⟩ =
      before ++ [name] ++ Path.pieces ⟨tail⟩ := by
  obtain ⟨front, last, hpieces⟩ := exists_pieces_concat ⟨tail⟩
  have hfront := slash_not_mem_before hpieces
  have htext : leading before ++ (name ++ '/' :: tail) =
      leading (before ++ [name] ++ front) ++ last := by
    rw [show tail = leading front ++ last from text_of_pieces hpieces]
    simp [leading]
  rw [hpieces, htext, pieces_leading_append _ (slash_not_mem_name hpieces), List.append_assoc]
  intro piece hpiece
  simp only [List.mem_append, List.mem_singleton] at hpiece
  rcases hpiece with (hpiece | rfl) | hpiece
  · exact hbefore piece hpiece
  · exact hname
  · exact hfront piece hpiece

theorem exists_idleText {path : Path} {before idle : List Text} {name : Text}
    (hpieces : path.pieces = before ++ [name] ++ idle)
    (hidle : ∀ piece ∈ idle, isIdle piece = true) (hne : idle ≠ []) :
    ∃ tail, IdleText tail ∧ path.text = leading before ++ (name ++ '/' :: tail) := by
  obtain ⟨front, last, rfl⟩ := (List.eq_nil_or_concat idle).resolve_left hne
  rw [List.concat_eq_append] at hpieces hidle
  have hslash : ∀ piece ∈ front ++ [last], '/' ∉ piece :=
    fun piece hpiece => slash_not_mem_of_mem_pieces (hpieces ▸ List.mem_append_right _ hpiece)
  have htail : Path.pieces ⟨leading front ++ last⟩ = front ++ [last] :=
    pieces_leading_append (fun piece hpiece => hslash piece (List.mem_append_left _ hpiece))
      (hslash last (by simp))
  refine ⟨leading front ++ last, by rwa [IdleText, htail], ?_⟩
  rw [← List.append_assoc] at hpieces
  simp [text_of_pieces hpieces, leading]

theorem dropEndBytes_pair (stage : Stage) (s : Text) {c d : Char} (hc : c.utf8Size = 1)
    (hd : d.utf8Size = 1) : dropEndBytes (Text.size (sourceExtension stage)) (s ++ [c, d]) = s := by
  have hsize : Text.size (sourceExtension stage) = Text.size [c, d] := by
    rw [Text.size_cons, Text.size_cons, Text.size_nil, hc, hd]
    rcases stage with _ | _ <;> decide
  rw [hsize, dropEndBytes_size_append]

/-- From a path that goes on behind its name, the length of the extension is cut off too late, and
something of the extension is left. -/
theorem exists_endsIn_cut {source : Path} {stage : Stage} {before idle : List Text} {stem : Text}
    (h : EndsIn source before stem (sourceExtension stage) idle) (hne : idle ≠ []) :
    ∃ old rest, EndsIn ⟨dropEndBytes (Text.size (sourceExtension stage)) source.text⟩
      before stem old rest := by
  obtain ⟨letter, hletter, hextension⟩ :
      ∃ letter, letter ≠ '.' ∧ sourceExtension stage = [letter, 'p'] := by
    rcases stage with _ | _
    · exact ⟨'v', by decide, rfl⟩
    · exact ⟨'f', by decide, rfl⟩
  have hsize : ∀ c, c = '/' ∨ c = '.' → c.utf8Size = 1 := by
    rintro c (rfl | rfl) <;> decide
  have hbefore := slash_not_mem_before_of_idle h.pieces
  have hname := slash_not_mem_of_idle h.pieces
  obtain ⟨tail, htail, htext⟩ := exists_idleText h.pieces h.nowhere hne
  obtain rfl | ⟨tail, d, rfl⟩ := List.eq_nil_or_concat tail
  · -- a slash alone: the cut takes it with the last letter of the extension
    have hcut : source.text = leading before ++ (stem ++ ['.', letter]) ++ ['p', '/'] := by
      rw [htext, hextension]
      simp
    rw [hcut, dropEndBytes_pair stage _ (by decide) (by decide)]
    have hslash : '/' ∉ stem ++ ['.', letter] := by
      rw [hextension, show ['.', letter, 'p'] = ['.', letter] ++ ['p'] from rfl,
        ← List.append_assoc, List.mem_append, not_or] at hname
      exact hname.1
    exact ⟨[letter], [], h.stem_ne, by simp, by simpa using hletter.symm, by simp,
      by rw [pieces_leading_append hbefore hslash, List.append_nil]⟩
  · rw [List.concat_eq_append] at htail htext
    obtain ⟨hd, htail⟩ := idleText_of_concat htail
    obtain rfl | ⟨tail, c, rfl⟩ := List.eq_nil_or_concat tail
    · have hcut : source.text =
          leading before ++ (stem ++ '.' :: sourceExtension stage) ++ ['/', d] := by
        rw [htext]
        simp
      rw [hcut, dropEndBytes_pair stage _ (by decide) (hsize d hd)]
      exact ⟨sourceExtension stage, [], h.stem_ne, h.extension_ne, h.dot, by simp,
        by rw [pieces_leading_append hbefore hname, List.append_nil]⟩
    · rw [List.concat_eq_append] at htail htext
      obtain ⟨hc, htail⟩ := idleText_of_concat htail
      have hcut : source.text = leading before ++
          ((stem ++ '.' :: sourceExtension stage) ++ '/' :: tail) ++ [c, d] := by
        rw [htext]
        simp
      rw [hcut, dropEndBytes_pair stage _ (hsize c hc) (hsize d hd)]
      exact ⟨sourceExtension stage, Path.pieces ⟨tail⟩, h.stem_ne, h.extension_ne, h.dot, htail,
        pieces_append_slash hbefore hname tail⟩

/-- A source that is written with nothing behind its name, `..` and its extension. -/
def EndsInDots (source : Path) (stage : Stage) : Prop :=
  source.pieces.getLast? = some (above ++ sourceExtension stage)

instance decidableEndsInDots (source : Path) (stage : Stage) :
    Decidable (EndsInDots source stage) :=
  inferInstanceAs (Decidable (_ = _))

section Outputs

variable {source : Path} {stage : Stage} {before idle : List Text} {stem : Text}

theorem endsInDots_iff (h : EndsIn source before stem (sourceExtension stage) idle) :
    EndsInDots source stage ↔ stem = here ∧ idle = [] := by
  have hdots : above ++ sourceExtension stage = here ++ '.' :: sourceExtension stage := rfl
  rw [EndsInDots, h.pieces, hdots]
  rcases List.eq_nil_or_concat idle with rfl | ⟨front, last, rfl⟩
  · simp
  · have hlast : last ≠ here ++ '.' :: sourceExtension stage := by
      rintro rfl
      have hidle := h.nowhere (here ++ '.' :: sourceExtension stage) (by simp)
      rw [isIdle_named (by decide)] at hidle
      cases hidle
    rw [List.concat_eq_append, ← List.append_assoc, List.getLast?_concat, Option.some_inj]
    exact iff_of_false hlast (by simp)

theorem outputPath_of_endsInDots (h : EndsIn source before stem (sourceExtension stage) idle)
    (hdots : EndsInDots source stage) (directory : Option Path) :
    stage.outputPath source directory = ⟨leading before ++ above⟩ ∧
      source.text = leading before ++ above ++ sourceExtension stage := by
  obtain ⟨rfl, rfl⟩ := (endsInDots_iff h).mp hdots
  have hpieces := h.pieces
  rw [List.append_nil] at hpieces
  have hnamed : Named source stage before here := ⟨h.stem_ne, hpieces⟩
  refine ⟨?_, ?_⟩
  · rw [outputPath_of_here hnamed, outputPath_none,
      withExtension_of_pieces hpieces h.stem_ne h.dot h.extension_ne, renamed, if_pos rfl]
  · rw [text_of_pieces hpieces, List.append_assoc]
    rfl

theorem endsIn_outputPath_none (h : EndsIn source before stem (sourceExtension stage) idle)
    (hdots : ¬ EndsInDots source stage) :
    EndsIn (stage.outputPath source none) before stem stage.outputExtension [] := by
  have hrenamed : stage.outputPath source none =
      ⟨leading before ++ (stem ++ '.' :: stage.outputExtension)⟩ := by
    rw [outputPath_none]
    rcases eq_or_ne idle [] with rfl | hidle
    · have hpieces := h.pieces
      rw [List.append_nil] at hpieces
      have hstem : stem ≠ here := fun hstem => hdots ((endsInDots_iff h).mpr ⟨hstem, rfl⟩)
      rw [withExtension_of_pieces hpieces h.stem_ne h.dot h.extension_ne, renamed, if_neg hstem]
    · obtain ⟨old, rest, hcut⟩ := exists_endsIn_cut h hidle
      rw [withExtension, h.extension?]
      exact hcut.extendStem stage.outputExtension
  have hbefore := slash_not_mem_before_of_idle h.pieces
  have hslash : '/' ∉ stem ++ '.' :: stage.outputExtension := by
    have hname := slash_not_mem_of_idle h.pieces
    simp only [List.mem_append, List.mem_cons, not_or] at hname ⊢
    refine ⟨hname.1, by decide, ?_⟩
    rcases stage with _ | _ <;> decide
  refine ⟨h.stem_ne, outputExtension_ne_nil stage, ?_, by simp, ?_⟩
  · rcases stage with _ | _ <;> decide
  · rw [hrenamed, pieces_leading_append hbefore hslash, List.append_nil]

theorem outputPath_some (h : EndsIn source before stem (sourceExtension stage) idle)
    (hdots : ¬ EndsInDots source stage) (directory : Path) :
    stage.outputPath source (some directory) =
      directory.join (stem ++ '.' :: stage.outputExtension) := by
  have hname := (endsIn_outputPath_none h hdots).fileName?
  rw [outputPath_none] at hname
  simp only [Stage.outputPath, hname]

theorem exists_endsIn_outputPath (h : EndsIn source before stem (sourceExtension stage) idle)
    (hdots : ¬ EndsInDots source stage) (directory : Option Path) :
    ∃ outer, EndsIn (stage.outputPath source directory) outer stem stage.outputExtension [] := by
  have hbeside := endsIn_outputPath_none h hdots
  rcases directory with _ | directory
  · exact ⟨before, hbeside⟩
  · have hslash := slash_not_mem_of_idle hbeside.pieces
    obtain ⟨outer, hpieces, -⟩ := exists_pieces_join directory hslash
    refine ⟨outer, h.stem_ne, hbeside.extension_ne, hbeside.dot, by simp, ?_⟩
    rw [outputPath_some h hdots, hpieces, List.append_nil]

end Outputs

/-- The output has the stem of its source and the extension of a program. It stands beside the
source, or else under this name in the directory that is given. -/
structure Placed (source : Path) (stage : Stage) (directory : Option Path) : Prop where
  stem : stem? (stage.outputPath source directory) = stem? source
  extension : (stage.outputPath source directory).extension? = some stage.outputExtension
  beside : directory = none →
    (stage.outputPath source directory).parent = source.parent ∧
      (components (stage.outputPath source directory)).dropLast = (components source).dropLast
  inside : ∀ place ∈ directory, ∃ stem, stem? source = some stem ∧
    stage.outputPath source directory = place.join (stem ++ '.' :: stage.outputExtension)

theorem placed_of_not_endsInDots {source : Path} {stage : Stage}
    (hstage : Stage.ofPath? source = some stage) (hdots : ¬ EndsInDots source stage)
    (directory : Option Path) : Placed source stage directory := by
  obtain ⟨before, stem, idle, h⟩ := exists_endsIn hstage
  obtain ⟨outer, houtput⟩ := exists_endsIn_outputPath h hdots directory
  refine ⟨by rw [houtput.stem?, h.stem?], houtput.extension?, ?_, ?_⟩
  · rintro rfl
    have hbeside := endsIn_outputPath_none h hdots
    rw [hbeside.parent, h.parent, hbeside.components, h.components]
    simp
  · rintro place rfl
    exact ⟨stem, h.stem?, outputPath_some h hdots place⟩

section Dots

variable {source : Path} {stage : Stage} {before idle : List Text} {stem : Text}

theorem pieces_of_endsInDots (h : EndsIn source before stem (sourceExtension stage) idle)
    (hdots : EndsInDots source stage) (directory : Option Path) :
    (stage.outputPath source directory).pieces = before ++ [above] := by
  rw [(outputPath_of_endsInDots h hdots directory).1]
  exact pieces_leading_append (slash_not_mem_before_of_idle h.pieces) (by decide)

theorem extension?_of_endsInDots (h : EndsIn source before stem (sourceExtension stage) idle)
    (hdots : EndsInDots source stage) (directory : Option Path) :
    (stage.outputPath source directory).extension? = none := by
  rw [extension?, fileName?, lastName?_of_pieces (pieces_of_endsInDots h hdots directory) rfl,
    if_pos rfl]
  rfl

theorem components_of_endsInDots (h : EndsIn source before stem (sourceExtension stage) idle)
    (hdots : EndsInDots source stage) :
    components (stage.outputPath source none) = origin before ++ [.step .up] := by
  have hpieces : (stage.outputPath source none).pieces = before ++ [above] ++ [] := by
    rw [pieces_of_endsInDots h hdots, List.append_nil]
  exact components_of_idle hpieces (by simp) rfl

end Dots

theorem outputName_eq_iff {stage stage' : Stage} {stem stem' : Text} :
    stem ++ '.' :: stage.outputExtension = stem' ++ '.' :: stage'.outputExtension ↔
      stem ++ '.' :: sourceExtension stage = stem' ++ '.' :: sourceExtension stage' := by
  rw [named_inj]
  constructor
  · intro h
    have hplace : outputPlace [] stage stem = outputPlace [] stage' stem' := by
      rw [outputPlace, outputPlace, h]
    exact (outputPlace_inj hplace).2
  · rintro ⟨rfl, rfl⟩
    rfl

theorem components_outputPath_eq_iff {source other : Path} {stage stage' : Stage}
    (hstage : Stage.ofPath? source = some stage) (hstage' : Stage.ofPath? other = some stage') :
    components (stage.outputPath source none) = components (stage'.outputPath other none) ↔
      ¬ EndsInDots source stage ∧ ¬ EndsInDots other stage' ∧
          components source = components other ∨
        EndsInDots source stage ∧ EndsInDots other stage' ∧
          (components source).dropLast = (components other).dropLast := by
  obtain ⟨before, stem, idle, h⟩ := exists_endsIn hstage
  obtain ⟨before', stem', idle', h'⟩ := exists_endsIn hstage'
  by_cases hdots : EndsInDots source stage <;> by_cases hdots' : EndsInDots other stage'
  · simp [components_of_endsInDots h hdots, components_of_endsInDots h' hdots', h.components,
      h'.components, hdots, hdots']
  · simp [components_of_endsInDots h hdots, (endsIn_outputPath_none h' hdots').components, hdots,
      hdots']
  · simp [(endsIn_outputPath_none h hdots).components, components_of_endsInDots h' hdots', hdots,
      hdots']
  · simp [(endsIn_outputPath_none h hdots).components,
      (endsIn_outputPath_none h' hdots').components, h.components, h'.components,
      outputName_eq_iff, hdots, hdots']

/-- Where outputs go. No output is taken for a source. An output is placed by the stem of its source
under the extension of its stage, except for a source that ends in dots: there its extension is cut
off, whatever the directory. Beside their sources, two outputs are one only if the sources are, or
if both end in dots in one directory. -/
theorem outputs_placed_and_apart {source other : Path} {stage stage' : Stage}
    (hstage : Stage.ofPath? source = some stage) (hstage' : Stage.ofPath? other = some stage') :
    (∀ directory, Stage.ofPath? (stage.outputPath source directory) = none) ∧
      (∀ directory, Placed source stage directory ↔ ¬ EndsInDots source stage) ∧
      (EndsInDots source stage → ∀ directory,
        (stage.outputPath source directory).text ++ sourceExtension stage = source.text) ∧
      (components (stage.outputPath source none) = components (stage'.outputPath other none) ↔
        ¬ EndsInDots source stage ∧ ¬ EndsInDots other stage' ∧
            components source = components other ∨
          EndsInDots source stage ∧ EndsInDots other stage' ∧
            (components source).dropLast = (components other).dropLast) := by
  obtain ⟨before, stem, idle, h⟩ := exists_endsIn hstage
  have hplaced := placed_of_not_endsInDots hstage
  refine ⟨fun directory => ?_, fun directory => ⟨fun hplace hdots => ?_, fun hdots => ?_⟩,
    fun hdots directory => ?_, components_outputPath_eq_iff hstage hstage'⟩
  · by_cases hdots : EndsInDots source stage
    · rw [Stage.ofPath?, extension?_of_endsInDots h hdots]
      rfl
    · rw [Stage.ofPath?, (hplaced hdots directory).extension]
      rcases stage with _ | _ <;> decide
  · have hextension := hplace.extension
    rw [extension?_of_endsInDots h hdots] at hextension
    cases hextension
  · exact hplaced hdots directory
  · obtain ⟨houtput, htext⟩ := outputPath_of_endsInDots h hdots directory
    rw [houtput, htext]

theorem outputs_placed_and_apart_trailing :
    let source : Path := ⟨"./d//...vp/./".toList⟩
    let other : Path := ⟨"./d/..vp".toList⟩
    Stage.ofPath? source = some .vertex ∧ Stage.ofPath? other = some .vertex ∧
      Placed source .vertex (some ⟨"o".toList⟩) ∧ ¬ Placed other .vertex (some ⟨"o".toList⟩) ∧
      Stage.outputPath .vertex source (some ⟨"o".toList⟩) = ⟨"o/...cgvp".toList⟩ ∧
      components (Stage.outputPath .vertex source none) ≠
        components (Stage.outputPath .vertex other none) := by
  intro source other
  have hsource : Stage.ofPath? source = some .vertex := by decide
  have hother : Stage.ofPath? other = some .vertex := by decide
  have hdots : ¬ EndsInDots source .vertex := by decide
  have hdots' : EndsInDots other .vertex := by decide
  obtain ⟨-, hplaced, -, hapart⟩ := outputs_placed_and_apart hsource hother
  obtain ⟨-, hplaced', -, -⟩ := outputs_placed_and_apart hother hsource
  refine ⟨hsource, hother, (hplaced _).mpr hdots, fun h => (hplaced' _).mp h hdots', by decide, ?_⟩
  intro hsame
  rcases hapart.mp hsame with ⟨-, hnot, -⟩ | ⟨hin, -⟩
  · exact hnot hdots'
  · exact hdots hin

/-- From `..vp` the extension is cut off and none is put in its place, so that the output is the
directory above, and that of `..fp` as well. -/
theorem dots_take_no_extension :
    let vertex : Path := ⟨"..vp".toList⟩
    let fragment : Path := ⟨"..fp".toList⟩
    Stage.ofPath? vertex = some .vertex ∧ Stage.ofPath? fragment = some .fragment ∧
      Stage.outputPath .vertex vertex none = ⟨"..".toList⟩ ∧
      Stage.outputPath .vertex vertex (some ⟨"out".toList⟩) = ⟨"..".toList⟩ ∧
      Stage.outputPath .fragment fragment none = ⟨"..".toList⟩ ∧
      components vertex ≠ components fragment ∧
      ¬ ∀ source stage, Stage.ofPath? source = some stage → ∀ directory,
        Placed source stage directory := by
  intro vertex fragment
  have hvertex : Stage.ofPath? vertex = some .vertex := by decide
  have houtput : Stage.outputPath .vertex vertex none = ⟨"..".toList⟩ := by decide
  refine ⟨hvertex, by decide, houtput, by decide, by decide, by decide, fun h => ?_⟩
  have hextension := (h vertex .vertex hvertex none).extension
  rw [houtput] at hextension
  exact absurd hextension (by decide)

end CgShader.Proofs.OutputNames
