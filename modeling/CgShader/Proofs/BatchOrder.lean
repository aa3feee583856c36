import Mathlib.Data.List.Perm.Basic
import CgShader.CommandLine.Report
import CgShader.Proofs.OutputsBeside

/-!
Batches without an output directory. A program never takes the place of a source or of a directory,
so that whether and where to a source is converted does not depend on what has been converted before
it; and two sources with one output are one file. The tree at the end is therefore the first one
with the programs of those sources that can be converted, in whatever order they come.
-/

namespace CgShader.Proofs.BatchOrder

open CgShader.FileTree
open CgShader.Proofs.TreeGrowth
open CgShader.Proofs.OutputsBeside
open CgShader.CommandLine

/-- Trees that show the same from every path. -/
structure SameTree (tree other : FileTree) : Prop where
  working : other.working = tree.working
  entries : ∀ location, other.get? location = tree.get? location

/-- A place that some source's program may take. -/
def IsOutput (location : Location) : Prop :=
  ∃ parent stage stem, location = outputPlace parent stage stem

theorem not_isOutput_source (parent : Location) (stage : Stage) (stem : Text) :
    ¬ IsOutput (parent ++ [stem ++ '.' :: sourceExtension stage]) := by
  rintro ⟨parent', stage', stem', h⟩
  have hname := List.singleton_inj.mp (List.append_inj' h rfl).2
  have hreverse := congrArg List.reverse hname
  -- before its last two letters a source has a dot and an output a letter
  rcases stage with _ | _ <;> rcases stage' with _ | _ <;>
    simp [sourceExtension, Stage.outputExtension] at hreverse

theorem length_outputExtension (stage : Stage) : stage.outputExtension.length = 4 := by
  rcases stage with _ | _ <;> decide

theorem outputExtension_inj {stage stage' : Stage}
    (h : stage.outputExtension = stage'.outputExtension) : stage = stage' := by
  rcases stage with _ | _ <;> rcases stage' with _ | _
  · rfl
  · exact absurd h (by decide)
  · exact absurd h (by decide)
  · rfl

theorem outputPlace_inj {parent parent' : Location} {stage stage' : Stage} {stem stem' : Text}
    (h : outputPlace parent stage stem = outputPlace parent' stage' stem') :
    parent = parent' ∧ stage = stage' ∧ stem = stem' := by
  obtain ⟨hparent, hnames⟩ := List.append_inj' h rfl
  have hlength :
      ('.' :: stage.outputExtension).length = ('.' :: stage'.outputExtension).length := by
    rw [List.length_cons, List.length_cons, length_outputExtension, length_outputExtension]
  obtain ⟨hstem, hextension⟩ := List.append_inj' (List.singleton_inj.mp hnames) hlength
  exact ⟨hparent, outputExtension_inj (List.cons.inj hextension).2, hstem⟩

/-- Trees that differ in programs alone, and only where each of them lets a program be written. -/
structure Similar (tree other : FileTree) : Prop where
  working : other.working = tree.working
  entries : ∀ location, other.get? location = tree.get? location ∨
    IsOutput location ∧ Writable tree location ∧ Writable other location

namespace Similar

variable {tree other : FileTree}

theorem refl (tree : FileTree) : Similar tree tree :=
  ⟨rfl, fun _ => .inl rfl⟩

theorem symm (h : Similar tree other) : Similar other tree := by
  refine ⟨h.working.symm, ?_⟩
  intro location
  rcases h.entries location with hsame | ⟨houtput, hwritable, hwritable'⟩
  · exact .inl hsame.symm
  · exact .inr ⟨houtput, hwritable', hwritable⟩

theorem directory (h : Similar tree other) {location : Location}
    (hdirectory : tree.get? location = some .directory) :
    other.get? location = some .directory := by
  rcases h.entries location with hsame | ⟨-, hwritable, -⟩
  · rw [hsame, hdirectory]
  · exact absurd hdirectory hwritable.1

theorem writable (h : Similar tree other) {location : Location}
    (hwritable : Writable tree location) : Writable other location := by
  rcases h.entries location with hsame | ⟨-, -, hwritable'⟩
  · rwa [Writable, hsame]
  · exact hwritable'

theorem locate (h : Similar tree other) {path : Path} {location : Location}
    (hlocate : tree.locate path = .ok location) : other.locate path = .ok location := by
  rw [locate_eq_ok_iff] at hlocate ⊢
  rw [FileTree.start, h.working]
  exact ⟨hlocate.1, follow_of_directories (fun _ => h.directory) hlocate.2⟩

theorem converts (h : Similar tree other) {check : NameCheck} {config : Config} {source : Path}
    {location : Location} {program : Text}
    (hconverts : Converts check config tree source location program) :
    Converts check config other source location program := by
  rcases hconverts with @⟨stage, parent, stem, text, _, hstage, hlocate, htext, hprogram, hstem,
    hfault, hwritable⟩
  refine .intro hstage (h.locate hlocate) ?_ hprogram hstem hfault (h.writable hwritable)
  simp only [readText_eq_ok_iff, read_eq_ok_iff] at htext ⊢
  obtain ⟨content, ⟨place, hplace, hfile, hends⟩, htext⟩ := htext
  obtain rfl : parent ++ [stem ++ '.' :: sourceExtension stage] = place := by
    simpa [hlocate] using hplace
  refine ⟨content, ⟨_, h.locate hlocate, ?_, hends⟩, htext⟩
  rcases h.entries (parent ++ [stem ++ '.' :: sourceExtension stage]) with hsame | ⟨houtput, -⟩
  · rw [hsame, hfile]
  · exact absurd houtput (not_isOutput_source parent stage stem)

end Similar

section Conversions

variable {check : NameCheck} {config : Config} {tree : FileTree} {source : Path}
  {location : Location} {program : Text}

theorem isOutput_of_converts (h : Converts check config tree source location program) :
    IsOutput location := by
  rcases h with @⟨stage, parent, stem, _⟩
  exact ⟨parent, stage, stem, rfl⟩

theorem similar_put_of_converts (h : Converts check config tree source location program) :
    Similar tree (tree.put location (.file (.text program))) := by
  refine ⟨working_put tree location _, ?_⟩
  intro place
  rcases eq_or_ne place location with rfl | hplace
  · refine .inr ⟨isOutput_of_converts h, h.writable, ?_⟩
    rw [Writable, get?_put_self h.takes]
    simp
  · exact .inl (get?_put_of_ne tree hplace _)

theorem location_eq_of_converts {location' : Location} {program' : Text}
    (h : Converts check config tree source location program)
    (h' : Converts check config tree source location' program') : location' = location := by
  rcases h with @⟨stage, parent, stem, _, _, hstage, hlocate, _, _, _, _, _⟩
  rcases h' with @⟨stage', parent', stem', _, _, hstage', hlocate', _, _, _, _, _⟩
  obtain rfl : stage = stage' := by simpa [hstage] using hstage'
  rw [hlocate, Except.ok.injEq] at hlocate'
  obtain ⟨rfl, hname⟩ := List.append_inj' hlocate' rfl
  rw [List.singleton_inj, List.append_left_inj] at hname
  rw [hname]

theorem program_eq_of_converts {source' : Path} {program' : Text}
    (h : Converts check config tree source location program)
    (h' : Converts check config tree source' location program') : program' = program := by
  rcases h with @⟨stage, parent, stem, text, _, _, hlocate, htext, hprogram, _, _, _⟩
  generalize hplace : outputPlace parent stage stem = place at h'
  rcases h' with @⟨stage', parent', stem', text', _, _, hlocate', htext', hprogram', _, _, _⟩
  obtain ⟨rfl, rfl, rfl⟩ := outputPlace_inj hplace
  simp only [readText_eq_ok_iff, read_eq_ok_iff, hlocate, hlocate', Except.ok.injEq,
    exists_eq_left'] at htext htext'
  obtain ⟨content, ⟨hfile, -⟩, htext⟩ := htext
  obtain ⟨content', ⟨hfile', -⟩, htext'⟩ := htext'
  obtain rfl : content = content' := by simpa [hfile] using hfile'
  obtain rfl : text = text' := by simpa [htext] using htext'
  simpa [hprogram] using hprogram'.symm

end Conversions

section Batches

variable (check : NameCheck) (config : Config) (tree : FileTree)

theorem similar_convertFile (source : Path) :
    Similar tree (convertFile check config none source tree).tree := by
  rcases convertFile_cases check config tree source with
    ⟨-, hsame, -⟩ | ⟨output, location, program, -, hconverts, hput⟩
  · rw [hsame]
    exact .refl tree
  · rw [hput]
    exact similar_put_of_converts hconverts

theorem isOk_convertFile_iff (source : Path) :
    (convertFile check config none source tree).result.isOk = true ↔
      ∃ location program, Converts check config tree source location program := by
  rcases convertFile_cases check config tree source with
    ⟨⟨error, hresult⟩, -, hnot⟩ | ⟨output, location, program, hresult, hconverts, -⟩
  · rw [hresult]
    simp [Except.isOk, Except.toBool, hnot]
  · rw [hresult]
    exact ⟨fun _ => ⟨location, program, hconverts⟩, fun _ => rfl⟩

theorem isOk_convertFile_of_similar {other : FileTree} (h : Similar tree other) (source : Path) :
    (convertFile check config none source other).result.isOk =
      (convertFile check config none source tree).result.isOk := by
  rw [Bool.eq_iff_iff, isOk_convertFile_iff, isOk_convertFile_iff]
  constructor
  · rintro ⟨location, program, hconverts⟩
    exact ⟨location, program, h.symm.converts hconverts⟩
  · rintro ⟨location, program, hconverts⟩
    exact ⟨location, program, h.converts hconverts⟩

theorem tree_convertAll_cons (directory : Option Path) (tree : FileTree) (source : Path)
    (rest : List Path) :
    (convertAll check config directory tree (source :: rest)).tree =
      (convertAll check config directory (convertFile check config directory source tree).tree
        rest).tree := by
  rw [convertAll]
  split <;> rfl

theorem failures_convertAll_cons (directory : Option Path) (tree : FileTree) (source : Path)
    (rest : List Path) :
    (convertAll check config directory tree (source :: rest)).failures =
      (convertAll check config directory (convertFile check config directory source tree).tree
          rest).failures +
        if (convertFile check config directory source tree).result.isOk then 0 else 1 := by
  rw [convertAll]
  split <;> rename_i hresult <;> simp [hresult, Except.isOk, Except.toBool]

theorem working_convertAll (sources : List Path) :
    (convertAll check config none tree sources).tree.working = tree.working := by
  induction sources generalizing tree with
  | nil => rfl
  | cons source rest ih =>
      rw [tree_convertAll_cons, ih, (similar_convertFile check config tree source).working]

/-- What a batch leaves at a place: the program of a source that is converted to there, or what was
there before. The conversions are those of the first tree. -/
theorem get?_convertAll (sources : List Path) (location : Location) :
    (∃ source ∈ sources, ∃ program, Converts check config tree source location program ∧
      (convertAll check config none tree sources).tree.get? location =
        some (.file (.text program))) ∨
    (∀ source ∈ sources, ∀ program, ¬ Converts check config tree source location program) ∧
      (convertAll check config none tree sources).tree.get? location = tree.get? location := by
  induction sources generalizing tree with
  | nil => exact .inr ⟨by simp, rfl⟩
  | cons source rest ih =>
      have hsimilar := similar_convertFile check config tree source
      rw [tree_convertAll_cons]
      rcases ih (convertFile check config none source tree).tree with
        ⟨later, hlater, program, hconverts, hget⟩ | ⟨hnone, hget⟩
      · -- a later source has the last word, and is converted as in the first tree
        exact .inl ⟨later, List.mem_cons_of_mem _ hlater, program,
          hsimilar.symm.converts hconverts, hget⟩
      · have hrest : ∀ later ∈ rest, ∀ program,
            ¬ Converts check config tree later location program :=
          fun later hlater program hconverts =>
            hnone later hlater program (hsimilar.converts hconverts)
        rw [hget]
        rcases convertFile_cases check config tree source with
          ⟨-, hsame, hnot⟩ | ⟨output, place, program, -, hconverts, hput⟩
        · refine .inr ⟨?_, by rw [hsame]⟩
          exact List.forall_mem_cons.mpr ⟨hnot location, hrest⟩
        · rcases eq_or_ne location place with rfl | hplace
          · refine .inl ⟨source, List.mem_cons_self, program, hconverts, ?_⟩
            rw [hput, get?_put_self hconverts.takes]
          · refine .inr ⟨List.forall_mem_cons.mpr ⟨?_, hrest⟩, ?_⟩
            · intro program' hconverts'
              exact hplace (location_eq_of_converts hconverts hconverts')
            · rw [hput, get?_put_of_ne tree hplace]

theorem sameTree_convertAll {sources others : List Path}
    (h : ∀ source location program, Converts check config tree source location program →
      (source ∈ others ↔ source ∈ sources)) :
    SameTree (convertAll check config none tree sources).tree
      (convertAll check config none tree others).tree := by
  refine ⟨by rw [working_convertAll, working_convertAll], ?_⟩
  intro location
  rcases get?_convertAll check config tree others location with
    ⟨source, hsource, program, hconverts, hget⟩ | ⟨hnone, hget⟩ <;>
  rcases get?_convertAll check config tree sources location with
    ⟨source', hsource', program', hconverts', hget'⟩ | ⟨hnone', hget'⟩
  · rw [hget, hget', program_eq_of_converts hconverts hconverts']
  · exact absurd hconverts
      (hnone' source ((h source location program hconverts).mp hsource) program)
  · exact absurd hconverts'
      (hnone source' ((h source' location program' hconverts').mpr hsource') program')
  · rw [hget, hget']

/-- The sources of a batch that are converted, each as its turn comes. -/
def converted (check : NameCheck) (config : Config) (directory : Option Path) (tree : FileTree) :
    List Path → List Path
  | [] => []
  | source :: rest =>
    let run := convertFile check config directory source tree
    let later := converted check config directory run.tree rest
    if run.result.isOk then source :: later else later

theorem converted_eq_filter (sources : List Path) :
    converted check config none tree sources =
      sources.filter fun source => (convertFile check config none source tree).result.isOk := by
  induction sources generalizing tree with
  | nil => rfl
  | cons source rest ih =>
      have hsimilar := similar_convertFile check config tree source
      rw [converted, ih, List.filter_cons]
      simp only [isOk_convertFile_of_similar check config tree hsimilar]

theorem failures_add_length_converted (directory : Option Path) (tree : FileTree)
    (sources : List Path) :
    (convertAll check config directory tree sources).failures +
      (converted check config directory tree sources).length = sources.length := by
  induction sources generalizing tree with
  | nil => rfl
  | cons source rest ih =>
      have hrest := ih (convertFile check config directory source tree).tree
      rw [failures_convertAll_cons, converted]
      split
      · rw [List.length_cons, List.length_cons]
        omega
      · rw [List.length_cons]
        omega

theorem failures_convertAll_perm {sources permuted : List Path} (hperm : permuted.Perm sources) :
    (convertAll check config none tree permuted).failures =
      (convertAll check config none tree sources).failures := by
  have hcount := failures_add_length_converted check config none tree sources
  have hpermuted := failures_add_length_converted check config none tree permuted
  rw [converted_eq_filter, ← (hperm.filter _).length_eq, ← hperm.length_eq] at hcount
  rw [converted_eq_filter] at hpermuted
  omega

theorem sameTree_convertAll_converted (sources : List Path) :
    SameTree (convertAll check config none tree sources).tree
      (convertAll check config none tree (converted check config none tree sources)).tree := by
  refine sameTree_convertAll check config tree ?_
  intro source location program hconverts
  rw [converted_eq_filter, List.mem_filter, isOk_convertFile_iff]
  exact and_iff_left ⟨location, program, hconverts⟩

theorem failures_eq_zero_iff (sources : List Path) :
    (convertAll check config none tree sources).failures = 0 ↔
      converted check config none tree sources = sources := by
  have hcount := failures_add_length_converted check config none tree sources
  have hsublist : (converted check config none tree sources).Sublist sources := by
    rw [converted_eq_filter]
    exact List.filter_sublist
  constructor
  · intro hnone
    exact hsublist.eq_of_length (by omega)
  · intro hall
    rw [hall] at hcount
    omega

end Batches

section Reports

def isPlain (c : Char) : Bool := 32 ≤ c.toNat && c.toNat < 127

theorem shownChar_of_isPlain {c : Char} (h : isPlain c = true) : Log.shownChar c = [c] := by
  simp only [isPlain, Bool.and_eq_true, decide_eq_true_eq] at h
  rw [Log.shownChar, if_neg (by omega), if_neg (by omega)]

theorem flatMap_shownChar {s : Text} (h : s.all isPlain = true) : s.flatMap Log.shownChar = s := by
  rw [List.flatMap_congr fun c hc => shownChar_of_isPlain (List.all_eq_true.mp h c hc)]
  exact List.flatMap_singleton' s

theorem all_isPlain_ofNat (n : Nat) : (Text.ofNat n).all isPlain = true := by
  rw [List.all_eq_true]
  intro c hc
  have hdigit := Nat.isDigit_of_mem_toDigits (by decide) (by decide) hc
  simp only [Char.isDigit, Bool.and_eq_true, decide_eq_true_eq, ge_iff_le, UInt32.le_iff_toNat_le]
    at hdigit
  simp only [isPlain, Bool.and_eq_true, decide_eq_true_eq]
  exact ⟨le_trans (by decide) hdigit.1, lt_of_le_of_lt hdigit.2 (by decide)⟩

theorem withPlainLineEnds_of_isPlain {s : Text} (h : s.all isPlain = true) :
    s.withPlainLineEnds = s := by
  fun_induction Text.withPlainLineEnds s with
  | case1 => rfl
  | case2 rest ih => simp [isPlain] at h
  | case3 c rest hends ih =>
      rw [List.all_cons, Bool.and_eq_true] at h
      rw [ih h.2]

theorem lines_of_isPlain {s : Text} (h : s.all isPlain = true) : Text.lines s = [s] := by
  rw [Text.lines, withPlainLineEnds_of_isPlain h, List.splitOn_eq_singleton]
  intro hmem
  exact absurd (List.all_eq_true.mp h '\n' hmem) (by decide)

theorem all_isPlain_message_finished (converted total : Nat) :
    (Log.message (.finished converted total)).all isPlain = true := by
  unfold Log.message
  rw [List.all_append, List.all_append, List.all_append, List.all_append, all_isPlain_ofNat,
    all_isPlain_ofNat]
  decide +kernel

def summary (converted total : Nat) : Text :=
  "INFO glsl2cg: ".toList ++ ("Translated ".toList ++ Text.ofNat converted ++ " of ".toList ++
    Text.ofNat total ++ " files".toList)

theorem all_isPlain_summary (converted total : Nat) :
    (summary converted total).all isPlain = true := by
  unfold summary
  rw [List.all_append]
  exact Bool.and_eq_true_iff.mpr
    ⟨by decide +kernel, all_isPlain_message_finished converted total⟩

theorem render_finished (converted total : Nat) :
    Log.render (.finished converted total) = summary converted total := by
  rw [Log.render, flatMap_shownChar (all_isPlain_message_finished converted total)]
  exact List.append_nil _

theorem getLast?_output_batchReport {verbosity : Verbosity}
    (hinfo : Verbosity.info.rank ≤ verbosity.rank) (total : Nat) (batch : Batch) :
    (batchReport verbosity total batch).output.getLast? =
      some (summary (total - batch.failures) total) := by
  have hlines := lines_of_isPlain (all_isPlain_summary (total - batch.failures) total)
  have hlevel : Log.level (.finished (total - batch.failures) total) = .info := rfl
  simp [batchReport, Log.lines, List.filter_append, hlevel, hinfo, render_finished, hlines]

theorem status_batchReport (verbosity : Verbosity) (total : Nat) (batch : Batch) :
    (batchReport verbosity total batch).status = 0 ↔ batch.failures = 0 := by
  simp [batchReport]

theorem run_of_parse {check : NameCheck} {verbosity : Verbosity} {arguments : List Text}
    {tree : FileTree} {options : Options} {config : Config}
    (hparse : parse arguments = .ok options) (hconfig : options.toConfig tree = .ok config) :
    CommandLine.run check verbosity arguments tree =
      let batch := convertAll check config (options.directory.map Path.mk) tree
        (options.inputs.map Path.mk)
      (batchReport verbosity (options.inputs.map Path.mk).length batch, batch.tree) := by
  rw [CommandLine.run, hparse]
  dsimp only
  rw [hconfig]

end Reports

/-- Without an output directory the order of the sources does not matter, and a source that fails
does not matter to the others: they are converted as each would be alone. The command succeeds if
all are converted, and counts those that are. -/
theorem batch_independent_of_order (check : NameCheck) (config : Config) (tree : FileTree)
    (sources : List Path) :
    let batch := convertAll check config none tree sources
    let kept := converted check config none tree sources
    (∀ permuted : List Path, permuted.Perm sources →
      SameTree batch.tree (convertAll check config none tree permuted).tree ∧
        (convertAll check config none tree permuted).failures = batch.failures) ∧
    SameTree batch.tree (convertAll check config none tree kept).tree ∧
    kept = (sources.filter fun source => (convertFile check config none source tree).result.isOk) ∧
    batch.failures + kept.length = sources.length ∧
    ∀ (verbosity : Verbosity) (arguments : List Text) (options : Options),
      parse arguments = .ok options → options.directory = none →
      options.inputs.map Path.mk = sources → options.toConfig tree = .ok config →
      (CommandLine.run check verbosity arguments tree).2 = batch.tree ∧
        ((CommandLine.run check verbosity arguments tree).1.status = 0 ↔ kept = sources) ∧
        (Verbosity.info.rank ≤ verbosity.rank →
          (CommandLine.run check verbosity arguments tree).1.output.getLast? =
            some (summary (sources.length - batch.failures) sources.length)) := by
  intro batch kept
  refine ⟨?_, sameTree_convertAll_converted check config tree sources,
    converted_eq_filter check config tree sources,
    failures_add_length_converted check config none tree sources, ?_⟩
  · intro permuted hperm
    exact ⟨sameTree_convertAll check config tree fun _ _ _ _ => hperm.mem_iff,
      failures_convertAll_perm check config tree hperm⟩
  · intro verbosity arguments options hparse hdirectory hsources hconfig
    rw [run_of_parse hparse hconfig, hdirectory, hsources]
    refine ⟨rfl, ?_, fun hinfo => getLast?_output_batchReport hinfo sources.length batch⟩
    exact (status_batchReport verbosity sources.length batch).trans
      (failures_eq_zero_iff check config tree sources)

/-- One of three paths is of no use, and the other two lead to one file. -/
theorem batch_independent_of_order_shared_output :
    let tree := (FileTree.bare.put ["a.vp".toList]
      (.file (.text "void main()\x7b\x7d".toList))).put ["b.fp".toList] (.file (.text "x".toList))
    let arguments := ["a.vp".toList, "b.fp".toList, "./a.vp".toList]
    let sources : List Path := arguments.map Path.mk
    let program := ("// Auto-generated from GLSL vertex shader\n" ++
      "void main(\n\tout float4 v_position : POSITION\n\t)\n\x7b\n\n\x7d\n").toList
    let reversed := convertAll .trivial .default none tree sources.reverse
    let done := CommandLine.run .trivial .info arguments tree
    SameTree done.2 reversed.tree ∧ done.2.readText ⟨"a.cgvp".toList⟩ = .ok program ∧
      reversed.tree.readText ⟨"a.cgvp".toList⟩ = .ok program ∧ done.1.status ≠ 0 ∧
      done.1.output.getLast? = some (summary 2 3) := by
  intro tree arguments sources program reversed done
  obtain ⟨hperm, -, -, -, hrun⟩ := batch_independent_of_order .trivial .default tree sources
  obtain ⟨htree, hstatus, hsummary⟩ := hrun .info arguments ⟨none, none, none, false, arguments⟩
    (by decide +kernel) rfl rfl rfl
  have hkept : converted .trivial .default none tree sources =
      [⟨"a.vp".toList⟩, ⟨"./a.vp".toList⟩] := by
    decide +kernel
  have hfailures : (convertAll .trivial .default none tree sources).failures = 1 := by
    decide +kernel
  refine ⟨?_, by decide +kernel, by decide +kernel, ?_, ?_⟩
  · rw [htree]
    exact (hperm _ sources.reverse_perm).1
  · rw [ne_eq, hstatus, hkept]
    decide +kernel
  · rw [hsummary (by decide), hfailures]
    rfl

end CgShader.Proofs.BatchOrder
