import CgShader.Proofs.ConversionFrames
import CgShader.Proofs.PathPieces

/-!
Conversions without an output directory. The output stands beside its source, in a directory that is
there, so that a conversion makes no directory: either it leaves the tree as it is, or it puts one
program in the place that the name of its source stands for.
-/

namespace CgShader.Proofs.OutputsBeside

open CgShader.FileTree
open CgShader.Proofs.TreeGrowth
open CgShader.Proofs.PathPieces
open CgShader.Proofs.ConversionFrames

def sourceExtension : Stage → Text
  | .vertex => "vp".toList
  | .fragment => "fp".toList

theorem ofExtension?_eq_some_iff (extension : Text) (stage : Stage) :
    Stage.ofExtension? extension = some stage ↔ extension = sourceExtension stage := by
  unfold Stage.ofExtension?
  rcases stage with _ | _ <;> split_ifs <;> simp_all [sourceExtension]

theorem extension?_of_ofPath? {source : Path} {stage : Stage}
    (h : Stage.ofPath? source = some stage) :
    source.extension? = some (sourceExtension stage) := by
  simp only [Stage.ofPath?, Option.bind_eq_some_iff, ofExtension?_eq_some_iff] at h
  obtain ⟨extension, hextension, rfl⟩ := h
  exact hextension

theorem dot_not_mem_sourceExtension (stage : Stage) : '.' ∉ sourceExtension stage := by
  rcases stage with _ | _ <;> decide

theorem sourceExtension_ne_nil (stage : Stage) : sourceExtension stage ≠ [] := by
  rcases stage with _ | _ <;> decide

theorem outputExtension_ne_nil (stage : Stage) : stage.outputExtension ≠ [] := by
  rcases stage with _ | _ <;> decide

theorem outputPath_none (stage : Stage) (source : Path) :
    stage.outputPath source none = source.withExtension stage.outputExtension := by
  simp [Stage.outputPath]

theorem fault?_of_append {path : Path} {s t : Text} (h : path.fault? = none)
    (htext : path.text = s ++ t) (hs : s ≠ []) : Path.fault? ⟨s⟩ = none := by
  simp only [Path.fault?, htext, List.contains_eq_mem, List.mem_append, Text.size_append] at h ⊢
  split_ifs at h ⊢ <;> simp_all
  omega

theorem filterMap_ofPiece?_of_idle {idle : List Text}
    (h : ∀ piece ∈ idle, Path.isIdle piece = true) : idle.filterMap Step.ofPiece? = [] := by
  rw [List.filterMap_eq_nil_iff]
  intro piece hpiece
  simp [Step.ofPiece?, h piece hpiece]

theorem makeDirectories_of_locate {tree : FileTree} {path : Path} {location : Location}
    {before : List Text} {name : Text} {step : Step} (hpieces : path.pieces = before ++ [name])
    (hstep : Step.ofPiece? name = some step) (hlocate : tree.locate path = .ok location) :
    tree.makeDirectories ⟨['/'].intercalate (before.rdropWhile Path.isIdle)⟩ = (.ok (), tree) := by
  rw [locate_eq_ok_iff, steps_of_pieces hpieces, hstep] at hlocate
  obtain ⟨hfault, hfollow⟩ := hlocate
  have hidle : ∀ piece ∈ before.rtakeWhile Path.isIdle, Path.isIdle piece = true :=
    fun piece hpiece => List.mem_rtakeWhile_imp hpiece
  have hbefore : before.rdropWhile Path.isIdle ++ before.rtakeWhile Path.isIdle = before :=
    List.rdropWhile_append_rtakeWhile
  obtain hkept | ⟨front, last, hkept⟩ := List.eq_nil_or_concat (before.rdropWhile Path.isIdle)
  · simp [hkept, FileTree.makeDirectories]
  · rw [List.concat_eq_append] at hkept
    have hlast : Path.isIdle last = false := by
      simpa [hkept] using List.rdropWhile_last_not Path.isIdle before (by simp [hkept])
    have hne : leading front ++ last ≠ [] := by
      rintro hnil
      rw [(List.append_eq_nil_iff.mp hnil).2] at hlast
      cases hlast
    rw [hkept] at hbefore
    have hparent : Path.pieces ⟨leading front ++ last⟩ = front ++ [last] := by
      have hslash := slash_not_mem_before hpieces
      rw [← hbefore] at hslash
      apply pieces_leading_append
      · intro piece hpiece
        exact hslash piece (by simp [hpiece])
      · exact hslash last (by simp)
    have hsteps : Path.steps ⟨leading front ++ last⟩ = before.filterMap Step.ofPiece? := by
      rw [Path.steps, hparent]
      conv_rhs => rw [← hbefore, List.filterMap_append, filterMap_ofPiece?_of_idle hidle,
        List.append_nil]
    have htext : path.text = leading front ++ last ++
        ('/' :: (leading (before.rtakeWhile Path.isIdle) ++ name)) := by
      rw [text_of_pieces hpieces]
      nth_rewrite 1 [← hbefore]
      simp [leading]
    have hstart : tree.start ⟨leading front ++ last⟩ = tree.start path := by
      rw [FileTree.start, FileTree.start, Path.isAbsolute, Path.isAbsolute, htext,
        List.head?_append_of_ne_nil _ hne]
    rw [hkept, intercalate_concat, FileTree.makeDirectories, if_neg (by simpa using hne),
      fault?_of_append hfault htext hne, hsteps, hstart]
    exact makeSteps_of_follow hfollow

theorem locate_of_pieces {path : Path} {before : List Text} {name : Text} {step : Step}
    (hpieces : path.pieces = before ++ [name]) (hstep : Step.ofPiece? name = some step)
    (tree : FileTree) (location : Location) :
    tree.locate path = .ok location ↔
      path.fault? = none ∧ ∃ parent,
        tree.follow (tree.start path) (before.filterMap Step.ofPiece?) = .ok parent ∧
          tree.get? parent = some .directory ∧ location = step.apply parent := by
  rw [locate_eq_ok_iff, steps_of_pieces hpieces, hstep, Option.toList_some,
    follow_concat_eq_ok_iff]

/-- A path of a source file of the stage: it ends in a stem and the extension of the stage. -/
structure Named (source : Path) (stage : Stage) (before : List Text) (stem : Text) : Prop where
  nonempty : stem ≠ []
  pieces : source.pieces = before ++ [stem ++ '.' :: sourceExtension stage]

theorem exists_named {tree : FileTree} {source : Path} {stage : Stage} {text : Text}
    (hstage : Stage.ofPath? source = some stage) (htext : tree.readText source = .ok text) :
    ∃ before stem parent, Named source stage before stem ∧
      tree.locate source = .ok (parent ++ [stem ++ '.' :: sourceExtension stage]) := by
  simp only [readText_eq_ok_iff, read_eq_ok_iff] at htext
  obtain ⟨content, ⟨location, hlocate, -, hslash, hdot⟩, -⟩ := htext
  obtain ⟨before, stem, hstem, -, hpieces⟩ :=
    exists_pieces_of_extension? (extension?_of_ofPath? hstage) hslash hdot
  have hstep := ofPiece?_named hstem (sourceExtension_ne_nil stage)
  obtain ⟨-, parent, -, -, hlocation⟩ := (locate_of_pieces hpieces hstep tree location).mp hlocate
  exact ⟨before, stem, parent, ⟨hstem, hpieces⟩, by rw [hlocate, hlocation, Step.apply]⟩

namespace Named

variable {source : Path} {stage : Stage} {before : List Text} {stem : Text}

theorem step (h : Named source stage before stem) :
    Step.ofPiece? (stem ++ '.' :: sourceExtension stage) =
      some (.into (stem ++ '.' :: sourceExtension stage)) :=
  ofPiece?_named h.nonempty (sourceExtension_ne_nil stage)

theorem pieces_outputPath (h : Named source stage before stem) :
    (stage.outputPath source none).pieces = before ++ [renamed stem stage.outputExtension] := by
  rw [outputPath_none, withExtension_of_pieces h.pieces h.nonempty
    (dot_not_mem_sourceExtension stage) (sourceExtension_ne_nil stage)]
  apply pieces_leading_append (slash_not_mem_before h.pieces)
  unfold renamed
  split
  · decide
  · have hslash := slash_not_mem_name h.pieces
    simp only [List.mem_append, List.mem_cons, not_or] at hslash ⊢
    refine ⟨hslash.1, by decide, ?_⟩
    rcases stage with _ | _ <;> decide

theorem isIdle_renamed (h : Named source stage before stem) :
    Path.isIdle (renamed stem stage.outputExtension) = false := by
  unfold renamed
  split
  · rfl
  · exact isIdle_named h.nonempty

theorem start_outputPath (h : Named source stage before stem) (tree : FileTree) :
    tree.start (stage.outputPath source none) = tree.start source := by
  rw [FileTree.start, FileTree.start, isAbsolute_eq_of_pieces h.pieces_outputPath h.pieces]

theorem makeDirectories_outputPath (h : Named source stage before stem) {tree : FileTree}
    {location : Location} (hlocate : tree.locate source = .ok location) :
    tree.makeDirectories (stage.outputPath source none).parent = (.ok (), tree) := by
  rw [parent_of_pieces h.pieces_outputPath h.isIdle_renamed]
  exact makeDirectories_of_locate h.pieces h.step hlocate

end Named

def outputPlace (parent : Location) (stage : Stage) (stem : Text) : Location :=
  parent ++ [stem ++ '.' :: stage.outputExtension]

/-- A file can be put at the place: it holds no directory, and a new name would not be too long. -/
def Writable (tree : FileTree) (location : Location) : Prop :=
  tree.get? location ≠ some .directory ∧ (tree.get? location = none → location.absence ≠ .tooLong)

theorem write_outputPath_eq_ok_iff {tree : FileTree} {source : Path} {stage : Stage}
    {before : List Text} {stem : Text} (hnamed : Named source stage before stem)
    {parent : Location}
    (hlocate : tree.locate source = .ok (parent ++ [stem ++ '.' :: sourceExtension stage]))
    (content : Content) (written : FileTree) :
    tree.write (stage.outputPath source none) content = .ok written ↔
      stem ≠ Path.here ∧ (stage.outputPath source none).fault? = none ∧
        Writable tree (outputPlace parent stage stem) ∧
        written = tree.put (outputPlace parent stage stem) (.file content) := by
  rw [locate_of_pieces hnamed.pieces hnamed.step] at hlocate
  obtain ⟨-, directory, hfollow, hdirectory, hparent⟩ := hlocate
  obtain rfl : parent = directory := (List.append_inj' hparent rfl).1
  have hslash := endsInSlash_of_pieces hnamed.pieces_outputPath hnamed.isIdle_renamed
  have hdot := endsInDot_of_pieces hnamed.pieces_outputPath hnamed.isIdle_renamed
  have hpieces := hnamed.pieces_outputPath
  rw [write_eq_ok_iff]
  rcases eq_or_ne stem Path.here with hhere | hhere
  · -- the output is `..`, and what lies above a directory is one too
    rw [renamed, if_pos hhere] at hpieces
    refine iff_of_false ?_ (fun h => h.1 hhere)
    rintro ⟨location, hlocation, hfree, -⟩
    rw [locate_of_pieces hpieces (show Step.ofPiece? Path.above = some .up from rfl),
      hnamed.start_outputPath, hfollow] at hlocation
    obtain ⟨-, directory, hsame, -, rfl⟩ := hlocation
    rw [Except.ok.injEq] at hsame
    subst hsame
    exact hfree (get?_dropLast hdirectory)
  · rw [renamed, if_neg hhere] at hpieces
    have hstep := ofPiece?_named hnamed.nonempty (outputExtension_ne_nil stage)
    have hplace : ∀ location, tree.locate (stage.outputPath source none) = .ok location ↔
        (stage.outputPath source none).fault? = none ∧
          location = outputPlace parent stage stem := by
      intro location
      rw [locate_of_pieces hpieces hstep, hnamed.start_outputPath, hfollow]
      simp [hdirectory, outputPlace, Step.apply]
    constructor
    · rintro ⟨location, hlocation, hfree, hshort, -, -, hwritten⟩
      obtain ⟨hfault, rfl⟩ := (hplace location).mp hlocation
      exact ⟨hhere, hfault, ⟨hfree, hshort⟩, hwritten⟩
    · rintro ⟨-, hfault, ⟨hfree, hshort⟩, hwritten⟩
      exact ⟨_, (hplace _).mpr ⟨hfault, rfl⟩, hfree, hshort, hslash, hdot, hwritten⟩

/-- A source is converted to a program at a place: it can be read and compiled, and beside it the
place can be written. -/
inductive Converts (check : NameCheck) (config : Config) (tree : FileTree) (source : Path) :
    Location → Text → Prop
  | intro {stage : Stage} {parent : Location} {stem text program : Text}
      (hstage : Stage.ofPath? source = some stage)
      (hlocate : tree.locate source = .ok (parent ++ [stem ++ '.' :: sourceExtension stage]))
      (htext : tree.readText source = .ok text)
      (hprogram : compile check config stage text = .ok program)
      (hstem : stem ≠ Path.here) (hfault : (stage.outputPath source none).fault? = none)
      (hwritable : Writable tree (outputPlace parent stage stem)) :
      Converts check config tree source (outputPlace parent stage stem) program

namespace Converts

variable {check : NameCheck} {config : Config} {tree : FileTree} {source : Path}
  {location : Location} {program : Text}

theorem writable (h : Converts check config tree source location program) :
    Writable tree location := by
  rcases h
  assumption

theorem takes (h : Converts check config tree source location program) :
    tree.takes location = true := by
  have hwritable := h.writable
  rcases h with @⟨stage, parent, stem, _, _, _, hlocate, _, _, _, _, _⟩
  have hparent := get?_dropLast_of_locate hlocate
  rw [List.dropLast_concat] at hparent
  rw [FileTree.takes_eq_true_iff, outputPlace, List.dropLast_concat]
  exact ⟨hwritable.1, hparent⟩

theorem exists_write (h : Converts check config tree source location program) :
    ∃ stage text, Stage.ofPath? source = some stage ∧ tree.readText source = .ok text ∧
      compile check config stage text = .ok program ∧
      tree.write (stage.outputPath source none) (.text program) =
        .ok (tree.put location (.file (.text program))) := by
  rcases h with @⟨stage, parent, stem, text, _, hstage, hlocate, htext, hprogram, hstem, hfault,
    hwritable⟩
  refine ⟨stage, text, hstage, htext, hprogram, ?_⟩
  obtain ⟨before, stem', parent', hnamed, hlocate'⟩ := exists_named hstage htext
  rw [hlocate, Except.ok.injEq] at hlocate'
  obtain ⟨rfl, hname⟩ := List.append_inj' hlocate' rfl
  rw [List.singleton_inj, List.append_left_inj] at hname
  subst hname
  exact (write_outputPath_eq_ok_iff hnamed hlocate _ _).mpr ⟨hstem, hfault, hwritable, rfl⟩

end Converts

/-- What a conversion without an output directory does: it fails and changes nothing, or it puts a
program in its place. -/
theorem convertFile_cases (check : NameCheck) (config : Config) (tree : FileTree)
    (source : Path) :
    let run := convertFile check config none source tree
    ((∃ error, run.result = .error error) ∧ run.tree = tree ∧
      ∀ location program, ¬ Converts check config tree source location program) ∨
    ∃ output location program, run.result = .ok output ∧
      Converts check config tree source location program ∧
      run.tree = tree.put location (.file (.text program)) := by
  intro run
  simp only [run, convertFile]
  rcases hstage : Stage.ofPath? source with _ | stage
  · refine .inl ⟨⟨_, rfl⟩, rfl, ?_⟩
    intro location program hconverts
    obtain ⟨stage, text, hstage', -⟩ := hconverts.exists_write
    simp [hstage] at hstage'
  · dsimp only
    rcases convert_cases check config stage source (stage.outputPath source none) tree with
      ⟨fault, hread, hresult, htree⟩ | ⟨text, error, hread, hcompile, hresult, htree⟩ |
      ⟨text, program, hread, hcompile, htree, hemit⟩
    · refine .inl ⟨⟨_, by rw [hresult, Except.map]⟩, htree, ?_⟩
      intro location program hconverts
      obtain ⟨stage', text, -, hread', -⟩ := hconverts.exists_write
      simp [hread] at hread'
    · refine .inl ⟨⟨_, by rw [hresult, Except.map]⟩, htree, ?_⟩
      intro location program hconverts
      obtain ⟨stage', text', hstage', hread', hcompile', -⟩ := hconverts.exists_write
      simp_all
    · obtain ⟨before, stem, parent, hnamed, hlocate⟩ := exists_named hstage hread
      have hmake := hnamed.makeDirectories_outputPath hlocate
      rcases hwrite : tree.write (stage.outputPath source none) (.text program) with
        fault | written
      · have hfailed : tree.emit (stage.outputPath source none) (.text program) =
            (.error fault, tree) := by
          rw [FileTree.emit, hmake]
          dsimp only
          rw [hwrite]
        rw [hfailed] at htree hemit
        obtain ⟨fault', -, hresult⟩ := hemit.resolve_right (by simp)
        refine .inl ⟨⟨_, by rw [hresult, Except.map]⟩, htree, ?_⟩
        intro location program' hconverts
        obtain ⟨stage', text', hstage', hread', hcompile', hwrite'⟩ := hconverts.exists_write
        simp_all
      · have hdone : tree.emit (stage.outputPath source none) (.text program) =
            (.ok (), written) := by
          rw [FileTree.emit, hmake]
          dsimp only
          rw [hwrite]
        rw [hdone] at htree hemit
        obtain ⟨-, hresult⟩ := hemit.resolve_left (by simp)
        obtain ⟨hstem, hfault, hwritable, rfl⟩ :=
          (write_outputPath_eq_ok_iff hnamed hlocate _ _).mp hwrite
        exact .inr ⟨_, _, program, by rw [hresult, Except.map],
          .intro hstage hlocate hread hcompile hstem hfault hwritable, htree⟩

end CgShader.Proofs.OutputsBeside
