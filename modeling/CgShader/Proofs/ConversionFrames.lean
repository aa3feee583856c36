import CgShader.Conversion
import CgShader.Proofs.TreeGrowth

namespace CgShader.Proofs.ConversionFrames

open CgShader.FileTree
open CgShader.Proofs.TreeGrowth

/-- What a conversion can do: it fails in reading, in compiling or in writing, or it succeeds. -/
theorem convert_cases (check : NameCheck) (config : Config) (stage : Stage) (source output : Path)
    (tree : FileTree) :
    let run := convert check config stage source output tree
    (∃ fault, tree.readText source = .error fault ∧
      run.result = .error (.reading source fault) ∧ run.tree = tree) ∨
    (∃ text error, tree.readText source = .ok text ∧
      compile check config stage text = .error error ∧
      run.result = .error (.shader source error) ∧ run.tree = tree) ∨
    ∃ text program, tree.readText source = .ok text ∧
      compile check config stage text = .ok program ∧
      run.tree = (tree.emit output (.text program)).2 ∧
      ((∃ fault, (tree.emit output (.text program)).1 = .error fault ∧
        run.result = .error (.writing output fault)) ∨
      (tree.emit output (.text program)).1 = .ok () ∧ run.result = .ok ()) := by
  intro run
  simp only [run, convert]
  rcases hread : tree.readText source with fault | text
  · exact .inl ⟨fault, rfl, rfl, rfl⟩
  · right
    dsimp only
    have hcompile := compileReporting_snd check config stage text
    rcases hreport : compileReporting check config stage text with ⟨events, error | program⟩
    · rw [hreport] at hcompile
      exact .inl ⟨text, error, rfl, hcompile.symm, rfl, rfl⟩
    · rw [hreport] at hcompile
      refine .inr ⟨text, program, rfl, hcompile.symm, ?_⟩
      dsimp only
      rcases tree.emit output (.text program) with ⟨fault | _, grown⟩
      · exact ⟨rfl, .inl ⟨fault, rfl, rfl⟩⟩
      · exact ⟨rfl, .inr ⟨rfl, rfl⟩⟩

def SameFiles (tree other : FileTree) : Prop :=
  ∀ location content,
    other.get? location = some (.file content) ↔ tree.get? location = some (.file content)

/-- A run that changes no file if it fails, and nothing if it fails before it writes. -/
structure KeepsOnFailure {α : Type} (tree : FileTree) (run : Run α) : Prop where
  files : ∀ error, run.result = .error error → SameFiles tree run.tree
  tree : ∀ error, run.result = .error error → (∀ output fault, error ≠ .writing output fault) →
    run.tree = tree

/-- The later tree holds the program of the source where the output path leads; all else that is new
are directories on the way to it. -/
def Written (check : NameCheck) (config : Config) (stage : Stage) (source output : Path)
    (tree after : FileTree) : Prop :=
  ∃ text program location, tree.readText source = .ok text ∧
    compile check config stage text = .ok program ∧ after.locate output = .ok location ∧
    after.read output = .ok (.text program) ∧ after.working = tree.working ∧
    ∀ other, other ≠ location → after.get? other = tree.get? other ∨
      other ∈ tree.visited output.parent ∧ tree.get? other = none ∧
        after.get? other = some .directory

theorem written_of_emit_ok {check : NameCheck} {config : Config} {stage : Stage}
    {source output : Path} {tree : FileTree} {text program : Text}
    (htext : tree.readText source = .ok text)
    (hprogram : compile check config stage text = .ok program)
    (hemit : (tree.emit output (.text program)).1 = .ok ()) :
    Written check config stage source output tree (tree.emit output (.text program)).2 := by
  obtain ⟨grown, hgrows, -, hwrite⟩ := exists_write_of_emit_ok hemit
  rw [write_eq_ok_iff] at hwrite
  obtain ⟨location, hlocate, hplace, -, hslash, hdot, hafter⟩ := hwrite
  have hlocate' := locate_put_file hplace (.text program) hlocate
  rw [hafter]
  refine ⟨text, program, location, htext, hprogram, hlocate', ?_, ?_, ?_⟩
  · rw [read_eq_ok_iff]
    exact ⟨location, hlocate', get?_put_self (takes_of_locate hlocate hplace) _, hslash, hdot⟩
  · rw [working_put, hgrows.working]
  · intro other hother
    rw [get?_put_of_ne grown hother]
    exact hgrows.entries other

theorem keepsOnFailure_convert (check : NameCheck) (config : Config) (stage : Stage)
    (source output : Path) (tree : FileTree) :
    KeepsOnFailure tree (convert check config stage source output tree) := by
  rcases convert_cases check config stage source output tree with
    ⟨fault, -, -, htree⟩ | ⟨text, error, -, -, -, htree⟩ |
    ⟨text, program, -, -, htree, ⟨fault, hemit, hresult⟩ | ⟨-, hresult⟩⟩
  · exact ⟨fun _ _ _ _ => by rw [htree], fun _ _ _ => htree⟩
  · exact ⟨fun _ _ _ _ => by rw [htree], fun _ _ _ => htree⟩
  · constructor
    · rintro _ -
      rw [htree]
      exact (grows_of_emit_error hemit).file_iff
    · intro error herror hother
      rw [hresult, Except.error.injEq] at herror
      exact absurd herror.symm (hother output fault)
  · constructor <;> simp [hresult]

theorem KeepsOnFailure.map {α β : Type} {tree : FileTree} {run : Run α}
    (h : KeepsOnFailure tree run) (f : α → β) :
    KeepsOnFailure tree ⟨run.events, run.tree, run.result.map f⟩ := by
  rcases hresult : run.result with error | value
  · constructor
    · rintro _ -
      exact h.files error hresult
    · intro error' herror
      rw [Except.map, Except.error.injEq] at herror
      exact h.tree error' (herror ▸ hresult)
  · constructor <;> simp [Except.map]

theorem written_of_convert_ok {check : NameCheck} {config : Config} {stage : Stage}
    {source output : Path} {tree : FileTree}
    (h : (convert check config stage source output tree).result = .ok ()) :
    Written check config stage source output tree
      (convert check config stage source output tree).tree := by
  rcases convert_cases check config stage source output tree with
    ⟨fault, -, hresult, -⟩ | ⟨text, error, -, -, hresult, -⟩ |
    ⟨text, program, htext, hprogram, htree, ⟨fault, -, hresult⟩ | ⟨hemit, -⟩⟩
  · simp [hresult] at h
  · simp [hresult] at h
  · simp [hresult] at h
  · rw [htree]
    exact written_of_emit_ok htext hprogram hemit

/-- A conversion of a source to a given output or to the one that its name stands for changes no
file if it fails, and nothing at all if it fails before it writes. If it succeeds, then the output
is the program of the source and only directories above it are new besides. -/
theorem convert_frames (check : NameCheck) (config : Config) (source : Path) (tree : FileTree) :
    (∀ stage output,
      KeepsOnFailure tree (convert check config stage source output tree) ∧
      ((convert check config stage source output tree).result = .ok () →
        Written check config stage source output tree
          (convert check config stage source output tree).tree)) ∧
    ∀ directory,
      KeepsOnFailure tree (convertFile check config directory source tree) ∧
      ∀ output, (convertFile check config directory source tree).result = .ok output →
        ∃ stage, Stage.ofPath? source = some stage ∧ output = stage.outputPath source directory ∧
          Written check config stage source output tree
            (convertFile check config directory source tree).tree := by
  constructor
  · intro stage output
    exact ⟨keepsOnFailure_convert check config stage source output tree, written_of_convert_ok⟩
  · intro directory
    rcases hstage : Stage.ofPath? source with _ | stage
    · simp only [convertFile, hstage]
      exact ⟨⟨fun _ _ _ _ => .rfl, fun _ _ _ => rfl⟩, by simp⟩
    · simp only [convertFile, hstage]
      refine ⟨(keepsOnFailure_convert check config stage source _ tree).map _, ?_⟩
      intro output houtput
      rcases hresult :
          (convert check config stage source (stage.outputPath source directory) tree).result with
        error | _
      · simp [hresult, Except.map] at houtput
      · rw [hresult, Except.map, Except.ok.injEq] at houtput
        subst houtput
        exact ⟨stage, rfl, rfl, written_of_convert_ok hresult⟩

theorem convert_frames_new_directory :
    let tree := FileTree.bare.put ["a.vp".toList] (.file (.text "void main()\x7b\x7d".toList))
    let failed := convert .trivial .default .vertex ⟨"a.vp".toList⟩ ⟨"o/p/".toList⟩ tree
    let succeeded := convertFile .trivial .default (some ⟨"o".toList⟩) ⟨"a.vp".toList⟩ tree
    (failed.result = .error (.writing ⟨"o/p/".toList⟩ .isDirectory) ∧
      failed.tree.entries.map Prod.fst = [["o".toList], ["a.vp".toList]] ∧
      SameFiles tree failed.tree) ∧
    succeeded.result = .ok ⟨"o/a.cgvp".toList⟩ ∧
      ∃ stage, Written .trivial .default stage ⟨"a.vp".toList⟩ ⟨"o/a.cgvp".toList⟩ tree
        succeeded.tree := by
  intro tree failed succeeded
  obtain ⟨hconvert, hconvertFile⟩ := convert_frames .trivial .default ⟨"a.vp".toList⟩ tree
  have hfailed : failed.result = .error (.writing ⟨"o/p/".toList⟩ .isDirectory) := by
    decide +kernel
  have hsucceeded : succeeded.result = .ok ⟨"o/a.cgvp".toList⟩ := by decide +kernel
  obtain ⟨stage, -, -, hwritten⟩ := (hconvertFile _).2 _ hsucceeded
  exact ⟨⟨hfailed, by decide +kernel, (hconvert _ _).1.files _ hfailed⟩, hsucceeded, stage,
    hwritten⟩

end CgShader.Proofs.ConversionFrames
