import CgShader.Proofs.BatchOrder

/-!
Which programs a batch leaves. Where an output stands follows from the paths alone: beside its
source, or in the output directory under the name of its source. Beside their sources, two sources
share an output only if they are one file; in a directory they do if they have one name, and the
last of them is the one whose program is kept.
-/

namespace CgShader.Proofs.SharedOutputs

open CgShader.FileTree
open CgShader.Proofs.TreeGrowth
open CgShader.Proofs.PathPieces
open CgShader.Proofs.ConversionFrames
open CgShader.Proofs.OutputsBeside
open CgShader.Proofs.BatchOrder
open CgShader.CommandLine

section Places

/-- The place that the steps of a path lead to, whatever files there are. -/
def place (tree : FileTree) (path : Path) : Location :=
  path.steps.foldl Step.apply (tree.start path)

theorem eq_foldl_of_follow {tree : FileTree} {location reached : Location} {steps : List Step}
    (h : tree.follow location steps = .ok reached) : reached = steps.foldl Step.apply location := by
  fun_induction FileTree.follow tree location steps with
  | case1 location => simpa using h.symm
  | case2 location step rest hnone => simp at h
  | case3 location step rest content hfile => simp at h
  | case4 location step rest hdirectory ih => exact ih h

theorem eq_place_of_locate {tree : FileTree} {path : Path} {location : Location}
    (h : tree.locate path = .ok location) : location = place tree path :=
  eq_foldl_of_follow ((locate_eq_ok_iff ..).mp h).2

theorem place_eq_of_working {tree other : FileTree} (h : other.working = tree.working)
    (path : Path) : place other path = place tree path := by
  rw [place, place, FileTree.start, FileTree.start, h]

theorem place_of_pieces {path : Path} {before : List Text} {name : Text} {step : Step}
    (hpieces : path.pieces = before ++ [name]) (hstep : Step.ofPiece? name = some step)
    (tree : FileTree) :
    place tree path =
      step.apply ((before.filterMap Step.ofPiece?).foldl Step.apply (tree.start path)) := by
  rw [place, steps_of_pieces hpieces, hstep, Option.toList_some, List.foldl_append]
  rfl

theorem exists_pieces_join (directory : Path) {name : Text} (hname : '/' ∉ name) :
    ∃ before, (directory.join name).pieces = before ++ [name] ∧
      before.filterMap Step.ofPiece? = directory.steps ∧
      (directory.join name).isAbsolute = directory.isAbsolute := by
  obtain ⟨before, last, hpieces⟩ := exists_pieces_concat directory
  have htext := text_of_pieces hpieces
  rcases eq_or_ne last [] with rfl | hlast
  · -- the directory is written with a slash at its end, or not written at all
    have hjoin : directory.join name = ⟨leading before ++ name⟩ := by
      rw [Path.join, htext, List.append_nil, if_pos]
      rcases eq_or_ne before [] with rfl | hbefore
      · exact .inl rfl
      · exact .inr (getLast?_leading hbefore)
    rw [hjoin]
    have hjoined := pieces_leading_append (slash_not_mem_before hpieces) hname
    refine ⟨before, hjoined, ?_, isAbsolute_eq_of_pieces hjoined hpieces⟩
    rw [steps_of_pieces hpieces]
    exact (List.append_nil _).symm
  · have hslash : directory.text.getLast? ≠ some '/' := by
      rw [htext, List.getLast?_append_of_ne_nil _ hlast]
      intro hslash
      exact slash_not_mem_name hpieces (List.mem_of_getLast? hslash)
    have hne : directory.text ≠ [] := by
      rw [htext]
      simp [hlast]
    have hjoin : directory.join name = ⟨leading (before ++ [last]) ++ name⟩ := by
      rw [Path.join, if_neg (by simp [hne, hslash]), htext]
      simp [leading]
    rw [hjoin]
    refine ⟨before ++ [last], pieces_leading_append ?_ hname, by rw [Path.steps, hpieces], ?_⟩
    · intro piece hpiece
      rw [← hpieces] at hpiece
      exact slash_not_mem_of_mem_pieces hpiece
    · have hlead : leading (before ++ [last]) ++ name = directory.text ++ '/' :: name := by
        rw [htext]
        simp [leading]
      rw [Path.isAbsolute, Path.isAbsolute, hlead, List.head?_append_of_ne_nil _ hne]

theorem place_join (tree : FileTree) (directory : Path) {name : Text} (hname : '/' ∉ name)
    (hstep : Step.ofPiece? name = some (.into name)) :
    place tree (directory.join name) = place tree directory ++ [name] := by
  obtain ⟨before, hpieces, hsteps, habsolute⟩ := exists_pieces_join directory hname
  rw [place_of_pieces hpieces hstep, hsteps, place, FileTree.start, FileTree.start, habsolute]
  rfl

end Places

def outputParent (tree : FileTree) (directory : Option Path) (source : Path) : Location :=
  match directory with
  | none => (place tree source).dropLast
  | some directory => place tree directory

/-- Two sources are one file, or have one name if the programs go to one directory. -/
def Shares (tree : FileTree) (directory : Option Path) (source other : Path) : Prop :=
  match directory with
  | none => place tree source = place tree other
  | some _ => source.fileName? = other.fileName?

instance decidableShares (tree : FileTree) (directory : Option Path) (source other : Path) :
    Decidable (Shares tree directory source other) :=
  match directory with
  | none => inferInstanceAs (Decidable (place tree source = place tree other))
  | some _ => inferInstanceAs (Decidable (source.fileName? = other.fileName?))

theorem Shares.refl (tree : FileTree) (directory : Option Path) (source : Path) :
    Shares tree directory source source := by
  rcases directory with _ | directory <;> exact rfl

theorem Shares.trans {tree : FileTree} {directory : Option Path} {source other third : Path}
    (h : Shares tree directory source other) (h' : Shares tree directory other third) :
    Shares tree directory source third := by
  rcases directory with _ | directory <;> exact Eq.trans h h'

theorem named_inj {stage stage' : Stage} {stem stem' : Text} :
    stem ++ '.' :: sourceExtension stage = stem' ++ '.' :: sourceExtension stage' ↔
      stage = stage' ∧ stem = stem' := by
  constructor
  · intro h
    have hlength : ('.' :: sourceExtension stage).length =
        ('.' :: sourceExtension stage').length := by
      rcases stage with _ | _ <;> rcases stage' with _ | _ <;> rfl
    obtain ⟨hstem, hextension⟩ := List.append_inj' h hlength
    refine ⟨?_, hstem⟩
    rw [← Option.some_inj, ← (ofExtension?_eq_some_iff _ stage').mpr rfl]
    exact ((ofExtension?_eq_some_iff _ _).mpr (List.cons.inj hextension).2.symm).symm
  · rintro ⟨rfl, rfl⟩
    rfl

section Sources

variable {source other : Path} {stage stage' : Stage} {before before' : List Text}
  {stem stem' : Text}

theorem fileName?_of_named (h : Named source stage before stem) :
    source.fileName? = some (stem ++ '.' :: sourceExtension stage) := by
  rw [Path.fileName?, lastName?_of_pieces h.pieces (isIdle_named h.nonempty),
    if_neg (named_ne_above h.nonempty (sourceExtension_ne_nil stage))]
  rfl

theorem place_of_named (h : Named source stage before stem) (tree : FileTree) :
    place tree source =
      outputParent tree none source ++ [stem ++ '.' :: sourceExtension stage] := by
  rw [outputParent, place_of_pieces h.pieces h.step]
  simp [Step.apply]

theorem fileName?_outputPath (h : Named source stage before stem) :
    (source.withExtension stage.outputExtension).fileName? =
      if stem = Path.here then none else some (stem ++ '.' :: stage.outputExtension) := by
  have hpieces := h.pieces_outputPath
  rw [outputPath_none] at hpieces
  rw [Path.fileName?, lastName?_of_pieces hpieces h.isIdle_renamed, renamed]
  split
  · rfl
  · rw [if_neg (named_ne_above h.nonempty (outputExtension_ne_nil stage))]
    rfl

theorem outputPath_of_here (h : Named source stage before Path.here) (directory : Option Path) :
    stage.outputPath source directory = stage.outputPath source none := by
  rcases directory with _ | directory
  · rfl
  · simp only [Stage.outputPath, fileName?_outputPath h, if_pos]

theorem place_outputPath (h : Named source stage before stem) (hstem : stem ≠ Path.here)
    (tree : FileTree) (directory : Option Path) :
    place tree (stage.outputPath source directory) =
      outputPlace (outputParent tree directory source) stage stem := by
  have hstep := ofPiece?_named h.nonempty (outputExtension_ne_nil stage)
  have hpieces := h.pieces_outputPath
  rw [renamed, if_neg hstem] at hpieces
  rcases directory with _ | directory
  · rw [place_of_pieces hpieces hstep, h.start_outputPath, outputParent,
      place_of_pieces h.pieces h.step]
    simp [Step.apply, outputPlace]
  · have hjoin : stage.outputPath source (some directory) =
        directory.join (stem ++ '.' :: stage.outputExtension) := by
      simp only [Stage.outputPath, fileName?_outputPath h, if_neg hstem]
    rw [hjoin, place_join tree directory (slash_not_mem_name hpieces) hstep]
    rfl

theorem place_outputPath_eq_iff (h : Named source stage before stem) (hstem : stem ≠ Path.here)
    (h' : Named other stage' before' stem') (hstem' : stem' ≠ Path.here) (tree : FileTree)
    (directory : Option Path) :
    place tree (stage.outputPath source directory) =
      place tree (stage'.outputPath other directory) ↔ Shares tree directory source other := by
  rw [place_outputPath h hstem, place_outputPath h' hstem']
  have hplaces : ∀ parent parent' : Location,
      outputPlace parent stage stem = outputPlace parent' stage' stem' ↔
        parent = parent' ∧ stage = stage' ∧ stem = stem' := by
    intro parent parent'
    refine ⟨outputPlace_inj, ?_⟩
    rintro ⟨rfl, rfl, rfl⟩
    rfl
  rw [hplaces, ← named_inj]
  rcases directory with _ | directory
  · rw [Shares, place_of_named h, place_of_named h']
    constructor
    · rintro ⟨hparent, hname⟩
      rw [hparent, hname]
    · intro hplace
      obtain ⟨hparent, hname⟩ := List.append_inj' hplace rfl
      exact ⟨hparent, List.singleton_inj.mp hname⟩
  · rw [Shares, fileName?_of_named h, fileName?_of_named h', Option.some_inj]
    exact and_iff_right rfl

end Sources

/-- A later tree: it has the directories of the earlier one, and the same files except programs. -/
structure Extends (tree later : FileTree) : Prop where
  working : later.working = tree.working
  directory : ∀ location, tree.get? location = some .directory →
    later.get? location = some .directory
  file : ∀ location, ¬ IsOutput location → ∀ content,
    later.get? location = some (.file content) ↔ tree.get? location = some (.file content)

theorem Extends.refl (tree : FileTree) : Extends tree tree :=
  ⟨rfl, fun _ h => h, fun _ _ _ => .rfl⟩

theorem Extends.trans {tree later last : FileTree} (h : Extends tree later)
    (h' : Extends later last) : Extends tree last :=
  ⟨h'.working.trans h.working, fun location hdirectory =>
    h'.directory location (h.directory location hdirectory), fun location houtput content =>
    (h'.file location houtput content).trans (h.file location houtput content)⟩

/-- The later tree has the program where the output path leads, and only new directories besides. -/
structure Writes (tree after : FileTree) (output : Path) (program : Text) : Prop where
  working : after.working = tree.working
  read : after.read output = .ok (.text program)
  directory : ∀ location, tree.get? location = some .directory →
    after.get? location = some .directory
  others : ∀ other, other ≠ place tree output → after.get? other = tree.get? other ∨
    tree.get? other = none ∧ after.get? other = some .directory

theorem directory_of_emit_ok {tree : FileTree} {path : Path} {content : Content}
    (h : (tree.emit path content).1 = .ok ()) {location : Location}
    (hdirectory : tree.get? location = some .directory) :
    (tree.emit path content).2.get? location = some .directory := by
  obtain ⟨grown, hgrows, -, hwrite⟩ := exists_write_of_emit_ok h
  obtain ⟨written, -, hplace, -, -, -, hafter⟩ := (write_eq_ok_iff ..).mp hwrite
  rw [hafter]
  exact directory_put_file hplace content location (hgrows.directory hdirectory)

theorem writes_of_convertFile_ok {check : NameCheck} {config : Config} {directory : Option Path}
    {source output : Path} {tree : FileTree}
    (h : (convertFile check config directory source tree).result = .ok output) :
    ∃ stage text program, Stage.ofPath? source = some stage ∧ tree.readText source = .ok text ∧
      compile check config stage text = .ok program ∧
      Writes tree (convertFile check config directory source tree).tree
        (stage.outputPath source directory) program := by
  rcases hstage : Stage.ofPath? source with _ | stage
  · simp [convertFile, hstage] at h
  · simp only [convertFile, hstage] at h ⊢
    rcases convert_cases check config stage source (stage.outputPath source directory) tree with
      ⟨fault, -, hresult, -⟩ | ⟨text, error, -, -, hresult, -⟩ |
      ⟨text, program, htext, hprogram, htree, ⟨fault, -, hresult⟩ | ⟨hemit, -⟩⟩
    · simp [hresult, Except.map] at h
    · simp [hresult, Except.map] at h
    · simp [hresult, Except.map] at h
    · refine ⟨stage, text, program, rfl, htext, hprogram, ?_⟩
      rw [htree]
      obtain ⟨text', program', location, htext', hprogram', hlocate, hread, hworking, hothers⟩ :=
        written_of_emit_ok htext hprogram hemit
      obtain rfl : text = text' := by simpa [htext] using htext'
      obtain rfl : program = program' := by simpa [hprogram] using hprogram'
      obtain rfl : location = place tree (stage.outputPath source directory) :=
        (eq_place_of_locate hlocate).trans (place_eq_of_working hworking _)
      exact ⟨hworking, hread, fun _ => directory_of_emit_ok hemit,
        fun other hother => (hothers other hother).imp_right And.right⟩

namespace Writes

variable {tree after : FileTree} {output : Path} {program : Text}

theorem extends_of_isOutput (h : Writes tree after output program)
    (houtput : IsOutput (place tree output)) : Extends tree after := by
  refine ⟨h.working, h.directory, ?_⟩
  intro location hlocation content
  have hother : location ≠ place tree output := by
    rintro rfl
    exact hlocation houtput
  rcases h.others location hother with hsame | ⟨hnone, hdirectory⟩
  · rw [hsame]
  · simp [hnone, hdirectory]

theorem locate (h : Writes tree after output program) {path : Path} {location : Location}
    (hlocate : tree.locate path = .ok location) : after.locate path = .ok location := by
  rw [locate_eq_ok_iff] at hlocate ⊢
  rw [FileTree.start, h.working]
  exact ⟨hlocate.1, follow_of_directories h.directory hlocate.2⟩

theorem read_of_ne (h : Writes tree after output program) {path : Path} {content : Content}
    (hread : tree.read path = .ok content) (hne : place tree path ≠ place tree output) :
    after.read path = .ok content := by
  rw [read_eq_ok_iff] at hread ⊢
  obtain ⟨location, hlocate, hfile, hends⟩ := hread
  refine ⟨location, h.locate hlocate, ?_, hends⟩
  rw [← eq_place_of_locate hlocate] at hne
  rcases h.others location hne with hsame | ⟨hnone, -⟩
  · rw [hsame, hfile]
  · rw [hfile] at hnone
    cases hnone

end Writes

theorem read_eq_of_place {tree : FileTree} {path other : Path} {content content' : Content}
    (hread : tree.read path = .ok content) (hother : tree.read other = .ok content')
    (hplace : place tree path = place tree other) : content = content' := by
  obtain ⟨location, hlocate, hfile, -⟩ := (read_eq_ok_iff ..).mp hread
  obtain ⟨location', hlocate', hfile', -⟩ := (read_eq_ok_iff ..).mp hother
  rw [eq_place_of_locate hlocate, hplace, ← eq_place_of_locate hlocate', hfile'] at hfile
  simpa using hfile.symm

theorem Writes.exists_read {tree after : FileTree} {output path : Path} {program : Text}
    (h : Writes tree after output program) (hread : ∃ content, tree.read path = .ok content) :
    ∃ content, after.read path = .ok content := by
  obtain ⟨content, hread⟩ := hread
  by_cases hplace : place tree path = place tree output
  · obtain ⟨location, hlocate, -, hends⟩ := (read_eq_ok_iff ..).mp hread
    obtain ⟨location', hlocate', hfile, -⟩ := (read_eq_ok_iff ..).mp h.read
    obtain rfl : location = location' := by
      rw [eq_place_of_locate hlocate, hplace, eq_place_of_locate hlocate',
        place_eq_of_working h.working]
    exact ⟨_, (read_eq_ok_iff ..).mpr ⟨location, h.locate hlocate, hfile, hends⟩⟩
  · exact ⟨content, h.read_of_ne hread hplace⟩

/-- The program of the file that a source path leads to. -/
def HasProgram (check : NameCheck) (config : Config) (tree : FileTree) (source : Path)
    (stage : Stage) (program : Text) : Prop :=
  Stage.ofPath? source = some stage ∧ ∃ content text,
    tree.get? (place tree source) = some (.file content) ∧ content.text? = some text ∧
      compile check config stage text = .ok program

section Conversions

variable {check : NameCheck} {config : Config} {directory : Option Path} {first tree : FileTree}
  {source output : Path}

theorem exists_of_convertFile_ok (hextends : Extends first tree)
    (h : (convertFile check config directory source tree).result = .ok output) :
    ∃ stage before stem program, Named source stage before stem ∧ stem ≠ Path.here ∧
      HasProgram check config first source stage program ∧
      Writes tree (convertFile check config directory source tree).tree
        (stage.outputPath source directory) program := by
  obtain ⟨stage, text, program, hstage, htext, hprogram, hwrites⟩ := writes_of_convertFile_ok h
  obtain ⟨before, stem, parent, hnamed, hlocate⟩ := exists_named hstage htext
  simp only [readText_eq_ok_iff, read_eq_ok_iff, hlocate, Except.ok.injEq,
    exists_eq_left'] at htext
  obtain ⟨content, ⟨hfile, -⟩, htext⟩ := htext
  have hfirst := (hextends.file _ (not_isOutput_source parent stage stem) content).mp hfile
  have hplace := eq_place_of_locate hlocate
  refine ⟨stage, before, stem, program, hnamed, ?_, ⟨hstage, content, text, ?_, htext, hprogram⟩,
    hwrites⟩
  · -- of the stem `.` only `..` would be left, and above the source there is a directory
    rintro rfl
    have hparent : first.get? parent = some .directory := by
      simpa using get?_dropLast hfirst
    have habove := hwrites.directory _ (hextends.directory _ (get?_dropLast hparent))
    have hread := hwrites.read
    rw [outputPath_of_here hnamed, read_eq_ok_iff] at hread
    obtain ⟨location, hlocation, hoverwritten, -⟩ := hread
    have hpieces := hnamed.pieces_outputPath
    rw [renamed, if_pos rfl] at hpieces
    rw [place_of_pieces hnamed.pieces hnamed.step] at hplace
    obtain rfl : location = parent.dropLast := by
      rw [eq_place_of_locate hlocation, place_eq_of_working hwrites.working,
        place_of_pieces hpieces (show Step.ofPiece? Path.above = some .up from rfl),
        hnamed.start_outputPath, (List.append_inj' hplace rfl).1]
      rfl
    rw [habove] at hoverwritten
    cases hoverwritten
  · rw [← place_eq_of_working hextends.working, ← hplace, hfirst]

theorem extends_convertFile (hextends : Extends first tree)
    (h : (convertFile check config directory source tree).result = .ok output) :
    Extends first (convertFile check config directory source tree).tree := by
  obtain ⟨stage, before, stem, program, hnamed, hstem, -, hwrites⟩ :=
    exists_of_convertFile_ok hextends h
  refine hextends.trans (hwrites.extends_of_isOutput ?_)
  rw [place_outputPath hnamed hstem]
  exact ⟨_, _, _, rfl⟩

end Conversions

section Batches

theorem convertAll_append (check : NameCheck) (config : Config) (directory : Option Path)
    (tree : FileTree) (earlier later : List Path) :
    (convertAll check config directory tree (earlier ++ later)).tree =
        (convertAll check config directory (convertAll check config directory tree earlier).tree
          later).tree ∧
      (convertAll check config directory tree (earlier ++ later)).failures =
        (convertAll check config directory tree earlier).failures +
          (convertAll check config directory (convertAll check config directory tree earlier).tree
            later).failures := by
  induction earlier generalizing tree with
  | nil => exact ⟨rfl, (Nat.zero_add _).symm⟩
  | cons source earlier ih =>
      simp only [List.cons_append, tree_convertAll_cons, failures_convertAll_cons, ih]
      exact ⟨trivial, by omega⟩

variable {check : NameCheck} {config : Config} {directory : Option Path}

theorem failures_convertAll_cons_eq_zero {tree : FileTree} {source : Path} {rest : List Path}
    (h : (convertAll check config directory tree (source :: rest)).failures = 0) :
    (∃ output, (convertFile check config directory source tree).result = .ok output) ∧
      (convertAll check config directory (convertFile check config directory source tree).tree
        rest).failures = 0 := by
  rw [failures_convertAll_cons] at h
  rcases hresult : (convertFile check config directory source tree).result with error | output
  · simp [hresult, Except.isOk, Except.toBool] at h
  · exact ⟨⟨output, rfl⟩, (Nat.add_eq_zero_iff.mp h).1⟩

/-- What every conversion that succeeds keeps true holds at the end of a batch without failures. -/
theorem convertAll_induction {sources : List Path} {P : FileTree → Prop}
    (hstep : ∀ source ∈ sources, ∀ tree output, P tree →
      (convertFile check config directory source tree).result = .ok output →
      P (convertFile check config directory source tree).tree) {tree : FileTree} (htree : P tree)
    (hall : (convertAll check config directory tree sources).failures = 0) :
    P (convertAll check config directory tree sources).tree := by
  induction sources generalizing tree with
  | nil => exact htree
  | cons source rest ih =>
      obtain ⟨⟨output, hresult⟩, hrest⟩ := failures_convertAll_cons_eq_zero hall
      rw [tree_convertAll_cons]
      exact ih (fun other hother => hstep other (List.mem_cons_of_mem source hother))
        (hstep source List.mem_cons_self tree output htree hresult) hrest

variable {first : FileTree}

theorem extends_convertAll {tree : FileTree} {sources : List Path} (hextends : Extends first tree)
    (hall : (convertAll check config directory tree sources).failures = 0) :
    Extends first (convertAll check config directory tree sources).tree :=
  convertAll_induction (fun _ _ _ _ => extends_convertFile) hextends hall

/-- The turn of a source in a batch without failures: its program is written, and the later sources
have no failures. -/
theorem exists_turn {sources earlier later : List Path} {source : Path}
    (hsources : sources = earlier ++ source :: later)
    (hall : (convertAll check config directory first sources).failures = 0) :
    ∃ tree after stage before stem program, Extends first after ∧
      Named source stage before stem ∧ stem ≠ Path.here ∧
      HasProgram check config first source stage program ∧
      Writes tree after (stage.outputPath source directory) program ∧
      (convertAll check config directory after later).failures = 0 ∧
      (convertAll check config directory first sources).tree =
        (convertAll check config directory after later).tree := by
  subst hsources
  obtain ⟨htree, hfailures⟩ :=
    convertAll_append check config directory first earlier (source :: later)
  rw [hfailures, Nat.add_eq_zero_iff] at hall
  obtain ⟨⟨output, hresult⟩, hlater⟩ := failures_convertAll_cons_eq_zero hall.2
  have hextends := extends_convertAll (.refl first) hall.1
  obtain ⟨stage, before, stem, program, hnamed, hstem, hprogram, hwrites⟩ :=
    exists_of_convertFile_ok hextends hresult
  refine ⟨_, _, stage, before, stem, program, extends_convertFile hextends hresult,
    hnamed, hstem, hprogram, hwrites, hlater, ?_⟩
  rw [htree, tree_convertAll_cons]

/-- What the output of a source holds is the program of some source. -/
def HoldsProgram (check : NameCheck) (config : Config) (tree : FileTree) (directory : Option Path)
    (source other : Path) (final : FileTree) : Prop :=
  ∃ stage program, Stage.ofPath? source = some stage ∧
    HasProgram check config tree other stage program ∧
    final.read (stage.outputPath source directory) = .ok (.text program)

theorem holdsProgram_self {sources earlier later : List Path}
    {source : Path} (hsources : sources = earlier ++ source :: later)
    (hlast : ∀ other ∈ later, ¬ Shares first directory source other)
    (hall : (convertAll check config directory first sources).failures = 0) :
    HoldsProgram check config first directory source source
      (convertAll check config directory first sources).tree := by
  obtain ⟨tree, after, stage, before, stem, program, hextends, hnamed, hstem, hprogram, hwrites,
    hlater, hfinal⟩ := exists_turn hsources hall
  refine ⟨stage, program, hprogram.1, hprogram, ?_⟩
  rw [hfinal]
  -- the later outputs go to other places
  have hkept := convertAll_induction (P := fun tree => Extends first tree ∧
    tree.read (stage.outputPath source directory) = .ok (.text program)) ?_
    ⟨hextends, hwrites.read⟩ hlater
  · exact hkept.2
  · rintro other hother tree output ⟨hextends, hread⟩ hresult
    obtain ⟨stage', before', stem', program', hnamed', hstem', -, hwrites'⟩ :=
      exists_of_convertFile_ok hextends hresult
    refine ⟨extends_convertFile hextends hresult, hwrites'.read_of_ne hread ?_⟩
    rw [place_eq_of_working hextends.working, place_eq_of_working hextends.working, ne_eq,
      place_outputPath_eq_iff hnamed hstem hnamed' hstem']
    exact hlast other hother

/-- The source of a batch whose program the output of a source keeps: the last that shares it. -/
def lastSharing? (tree : FileTree) (directory : Option Path) (sources : List Path)
    (source : Path) : Option Path :=
  sources.reverse.find? fun other => decide (Shares tree directory source other)

theorem exists_lastSharing (tree : FileTree) (directory : Option Path) {sources : List Path}
    {source : Path} (hsource : source ∈ sources) :
    ∃ winner earlier later, lastSharing? tree directory sources source = some winner ∧
      Shares tree directory source winner ∧ sources = earlier ++ winner :: later ∧
      ∀ other ∈ later, ¬ Shares tree directory source other := by
  rcases hfind : lastSharing? tree directory sources source with _ | winner
  · have hnone := List.find?_eq_none.mp hfind source (List.mem_reverse.mpr hsource)
    exact absurd (Shares.refl tree directory source) (by simpa using hnone)
  · obtain ⟨hshares, later, earlier, hsplit, hlater⟩ := List.find?_eq_some_iff_append.mp hfind
    refine ⟨winner, earlier.reverse, later.reverse, rfl, by simpa using hshares, ?_, ?_⟩
    · rw [← List.reverse_reverse sources, hsplit]
      simp
    · intro other hother
      simpa using hlater other (List.mem_reverse.mp hother)

theorem exists_named_of_mem {sources : List Path} {source : Path} (hsource : source ∈ sources)
    (hall : (convertAll check config directory first sources).failures = 0) {stage : Stage}
    (hstage : Stage.ofPath? source = some stage) :
    ∃ before stem, Named source stage before stem ∧ stem ≠ Path.here := by
  obtain ⟨earlier, later, hsplit⟩ := List.append_of_mem hsource
  obtain ⟨_, _, stage', before, stem, _, -, hnamed, hstem, hprogram, -⟩ := exists_turn hsplit hall
  obtain rfl : stage = stage' := by simpa [hstage] using hprogram.1
  exact ⟨before, stem, hnamed, hstem⟩

theorem exists_read_output {sources : List Path} {source : Path}
    (hsource : source ∈ sources)
    (hall : (convertAll check config directory first sources).failures = 0) :
    ∃ stage content, Stage.ofPath? source = some stage ∧
      (convertAll check config directory first sources).tree.read
        (stage.outputPath source directory) = .ok content := by
  obtain ⟨earlier, later, hsplit⟩ := List.append_of_mem hsource
  obtain ⟨tree, after, stage, before, stem, program, hextends, -, -, hprogram, hwrites, hlater,
    hfinal⟩ := exists_turn hsplit hall
  rw [hfinal]
  have hread := convertAll_induction (P := fun tree => Extends first tree ∧
    ∃ content, tree.read (stage.outputPath source directory) = .ok content) ?_
    ⟨hextends, _, hwrites.read⟩ hlater
  · obtain ⟨-, content, hcontent⟩ := hread
    exact ⟨stage, content, hprogram.1, hcontent⟩
  · rintro other - tree output ⟨hextends, hread⟩ hresult
    obtain ⟨_, _, _, _, -, -, -, hwrites'⟩ := exists_of_convertFile_ok hextends hresult
    exact ⟨extends_convertFile hextends hresult, hwrites'.exists_read hread⟩

theorem place_outputPath_eq_iff_of_mem {sources : List Path}
    (hall : (convertAll check config directory first sources).failures = 0) {source other : Path}
    (hsource : source ∈ sources) (hother : other ∈ sources) {stage stage' : Stage}
    (hstage : Stage.ofPath? source = some stage) (hstage' : Stage.ofPath? other = some stage') :
    (place first (stage.outputPath source directory) =
        place first (stage'.outputPath other directory) ↔ Shares first directory source other) ∧
      (Shares first directory source other → stage = stage') := by
  obtain ⟨before, stem, hnamed, hstem⟩ := exists_named_of_mem hsource hall hstage
  obtain ⟨before', stem', hnamed', hstem'⟩ := exists_named_of_mem hother hall hstage'
  have hiff := place_outputPath_eq_iff hnamed hstem hnamed' hstem' first directory
  refine ⟨hiff, fun hshares => ?_⟩
  have hplace := hiff.mpr hshares
  rw [place_outputPath hnamed hstem, place_outputPath hnamed' hstem'] at hplace
  exact (outputPlace_inj hplace).2.1

theorem holdsProgram_lastSharing {sources : List Path}
    (hall : (convertAll check config directory first sources).failures = 0) {source : Path}
    (hsource : source ∈ sources) :
    ∃ winner, lastSharing? first directory sources source = some winner ∧
      HoldsProgram check config first directory source winner
        (convertAll check config directory first sources).tree := by
  obtain ⟨winner, earlier, later, hlast, hshares, hsplit, hlater⟩ :=
    exists_lastSharing first directory hsource
  obtain ⟨stage, program, hstage, hprogram, hread⟩ := holdsProgram_self hsplit
    (fun other hother h => hlater other hother (hshares.trans h)) hall
  obtain ⟨stage', content, hstage', hread'⟩ := exists_read_output hsource hall
  have hwinner : winner ∈ sources := by simp [hsplit]
  obtain ⟨hplace, hsame⟩ := place_outputPath_eq_iff_of_mem hall hsource hwinner hstage' hstage
  obtain rfl := hsame hshares
  have hworking := (extends_convertAll (.refl first) hall).working
  obtain rfl := read_eq_of_place hread' hread (by
    rw [place_eq_of_working hworking, place_eq_of_working hworking, hplace.mpr hshares])
  exact ⟨winner, hlast, stage', program, hstage', hprogram, hread'⟩

end Batches

/-- In a batch without failures each output keeps the program of the last source that shares it, so
no program is lost if no two sources do: if they are different files and there is no output
directory, or if they have different names. The command succeeds if no source fails. -/
theorem last_program_kept (check : NameCheck) (config : Config) (directory : Option Path)
    (tree : FileTree) (sources : List Path) :
    let batch := convertAll check config directory tree sources
    (∀ (verbosity : Verbosity) (arguments : List Text) (options : Options),
      parse arguments = .ok options → options.directory.map Path.mk = directory →
      options.inputs.map Path.mk = sources → options.toConfig tree = .ok config →
      (CommandLine.run check verbosity arguments tree).2 = batch.tree ∧
        ((CommandLine.run check verbosity arguments tree).1.status = 0 ↔ batch.failures = 0)) ∧
    (batch.failures = 0 →
      (∀ source ∈ sources, ∃ winner, lastSharing? tree directory sources source = some winner ∧
        HoldsProgram check config tree directory source winner batch.tree) ∧
      (sources.Pairwise (fun source other => ¬ Shares tree directory source other) →
        ∀ source ∈ sources, HoldsProgram check config tree directory source source batch.tree) ∧
      ∀ source ∈ sources, ∀ other ∈ sources, ∀ stage stage',
        Stage.ofPath? source = some stage → Stage.ofPath? other = some stage' →
        (place tree (stage.outputPath source directory) =
          place tree (stage'.outputPath other directory) ↔
            Shares tree directory source other)) := by
  intro batch
  constructor
  · rintro verbosity arguments options hparse rfl rfl hconfig
    rw [run_of_parse hparse hconfig]
    exact ⟨rfl, status_batchReport verbosity _ batch⟩
  · intro hall
    refine ⟨fun source hsource => holdsProgram_lastSharing hall hsource, ?_, ?_⟩
    · intro hdifferent source hsource
      obtain ⟨earlier, later, rfl⟩ := List.append_of_mem hsource
      have hlater := (List.pairwise_cons.mp (List.pairwise_append.mp hdifferent).2.1).1
      exact holdsProgram_self rfl hlater hall
    · intro source hsource other hother stage stage' hstage hstage'
      exact (place_outputPath_eq_iff_of_mem hall hsource hother hstage hstage').1

/-- Two directories with a source of one name in each. -/
def namesakes : FileTree :=
  (((FileTree.bare.put ["a".toList] .directory).put ["b".toList] .directory).put
    ["a".toList, "x.vp".toList] (.file (.text "void main()\x7ba;\x7d".toList))).put
    ["b".toList, "x.vp".toList] (.file (.text "void main()\x7bb;\x7d".toList))

theorem last_program_kept_two_names :
    let tree := namesakes.put ["b".toList, "y.fp".toList]
      (.file (.text "void main()\x7bc;\x7d".toList))
    let sources : List Path := [⟨"a/x.vp".toList⟩, ⟨"b/y.fp".toList⟩, ⟨"b/x.vp".toList⟩]
    let directory : Option Path := some ⟨"o".toList⟩
    let batch := convertAll .trivial .default directory tree sources
    batch.failures = 0 ∧
      HoldsProgram .trivial .default tree directory ⟨"a/x.vp".toList⟩ ⟨"b/x.vp".toList⟩
        batch.tree ∧
      HoldsProgram .trivial .default tree directory ⟨"b/y.fp".toList⟩ ⟨"b/y.fp".toList⟩
        batch.tree := by
  intro tree sources directory batch
  have hall : batch.failures = 0 := by decide +kernel
  obtain ⟨hlast, -, -⟩ := (last_program_kept .trivial .default directory tree sources).2 hall
  refine ⟨hall, ?_, ?_⟩
  · obtain ⟨winner, hwinner, hholds⟩ := hlast ⟨"a/x.vp".toList⟩ (by decide)
    have hsome : lastSharing? tree directory sources ⟨"a/x.vp".toList⟩ =
        some ⟨"b/x.vp".toList⟩ := by decide +kernel
    rw [hsome, Option.some_inj] at hwinner
    rwa [← hwinner] at hholds
  · obtain ⟨winner, hwinner, hholds⟩ := hlast ⟨"b/y.fp".toList⟩ (by decide)
    have hsome : lastSharing? tree directory sources ⟨"b/y.fp".toList⟩ =
        some ⟨"b/y.fp".toList⟩ := by decide +kernel
    rw [hsome, Option.some_inj] at hwinner
    rwa [← hwinner] at hholds

/-- Two files of one name in different directories: the first program is lost. -/
theorem program_lost_in_directory :
    let sources : List Path := [⟨"a/x.vp".toList⟩, ⟨"b/x.vp".toList⟩]
    let directory : Option Path := some ⟨"o".toList⟩
    let batch := convertAll .trivial .default directory namesakes sources
    let output := Stage.vertex.outputPath ⟨"a/x.vp".toList⟩ directory
    (sources.map (place namesakes)).Nodup ∧ batch.failures = 0 ∧
      (batch.tree.readText output).toOption =
        (compile .trivial .default .vertex "void main()\x7bb;\x7d".toList).toOption ∧
      (batch.tree.readText output).toOption ≠
        (compile .trivial .default .vertex "void main()\x7ba;\x7d".toList).toOption := by
  decide +kernel

end CgShader.Proofs.SharedOutputs
