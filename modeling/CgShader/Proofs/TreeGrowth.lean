import Mathlib.Data.List.Basic
import CgShader.FileTree

namespace CgShader.Proofs.TreeGrowth

open CgShader.FileTree

/-- The grown tree has new directories at some of the places and is the same otherwise. -/
structure Grows (places : List Location) (tree grown : FileTree) : Prop where
  working : grown.working = tree.working
  entries : ∀ location, grown.get? location = tree.get? location ∨
    location ∈ places ∧ tree.get? location = none ∧ grown.get? location = some .directory

namespace Grows

variable {places : List Location} {tree grown : FileTree}

theorem refl (places : List Location) (tree : FileTree) : Grows places tree tree :=
  ⟨rfl, fun _ => .inl rfl⟩

theorem trans {later : FileTree} (hfirst : Grows places tree grown)
    (hsecond : Grows places grown later) : Grows places tree later := by
  refine ⟨hsecond.working.trans hfirst.working, ?_⟩
  intro location
  rcases hfirst.entries location with hsame | ⟨hplace, hnone, hdirectory⟩
  · rcases hsecond.entries location with hsame' | ⟨hplace, hnone, hdirectory⟩
    · exact .inl (hsame'.trans hsame)
    · exact .inr ⟨hplace, hsame ▸ hnone, hdirectory⟩
  · rcases hsecond.entries location with hsame' | ⟨-, hnone', -⟩
    · exact .inr ⟨hplace, hnone, hsame'.trans hdirectory⟩
    · simp [hdirectory] at hnone'

theorem mono {more : List Location} (h : Grows places tree grown) (hmore : places ⊆ more) :
    Grows more tree grown := by
  refine ⟨h.working, ?_⟩
  intro location
  exact (h.entries location).imp_right (fun hnew => ⟨hmore hnew.1, hnew.2⟩)

theorem put_directory {location : Location} (hplace : location ∈ places)
    (hnone : tree.get? location = none) : Grows places tree (tree.put location .directory) := by
  refine ⟨working_put tree location .directory, ?_⟩
  intro other
  rcases eq_or_ne other location with rfl | hother
  · by_cases htakes : tree.takes other = true
    · exact .inr ⟨hplace, hnone, get?_put_self htakes .directory⟩
    · exact .inl (by rw [put, dif_neg htakes])
  · exact .inl (get?_put_of_ne tree hother .directory)

theorem directory (h : Grows places tree grown) {location : Location}
    (hdirectory : tree.get? location = some .directory) :
    grown.get? location = some .directory := by
  rcases h.entries location with hsame | ⟨-, -, hnew⟩
  · rw [hsame, hdirectory]
  · exact hnew

theorem file_iff (h : Grows places tree grown) (location : Location) (content : Content) :
    grown.get? location = some (.file content) ↔ tree.get? location = some (.file content) := by
  rcases h.entries location with hsame | ⟨-, hnone, hdirectory⟩
  · rw [hsame]
  · simp [hnone, hdirectory]

end Grows

theorem grows_makeAll (tree : FileTree) (location : Location) (steps : List Step) :
    Grows (steps.scanl Step.apply location) tree (tree.makeAll location steps).2 := by
  fun_induction makeAll tree location steps with
  | case1 tree location => exact .refl _ tree
  | case2 tree location step rest next hdirectory ih =>
      rw [List.scanl_cons]
      exact ih.mono (List.subset_cons_self _ _)
  | case3 tree location step rest next content hfile => exact .refl _ tree
  | case4 tree location step rest next hnone hlong => exact .refl _ tree
  | case5 tree location step rest next hnone hlong ih =>
      have hnext : next ∈ rest.scanl Step.apply next := by
        rcases rest with _ | ⟨step, rest⟩ <;> simp
      rw [List.scanl_cons]
      exact ((Grows.put_directory hnext hnone).trans ih).mono (List.subset_cons_self _ _)

theorem grows_makeSteps (tree : FileTree) (location : Location) (steps : List Step) :
    Grows (steps.scanl Step.apply location) tree (tree.makeSteps location steps).2 := by
  fun_induction makeSteps tree location steps with
  | case1 location => exact .refl _ tree
  | case2 location step rest next hdirectory ih =>
      rw [List.scanl_cons]
      exact ih.mono (List.subset_cons_self _ _)
  | case3 location step rest next content hfile => exact .refl _ tree
  | case4 location step rest next hnone => exact grows_makeAll tree location (step :: rest)

theorem visited_eq_scanl (tree : FileTree) (path : Path) :
    tree.visited path = path.steps.scanl Step.apply (tree.start path) := by
  have hseen : ∀ (steps : List Step) (seen : List Location) (location : Location),
      steps.foldl (fun seen step => seen ++ [step.apply (seen.getLastD [])])
          (seen ++ [location]) =
        seen ++ steps.scanl Step.apply location := by
    intro steps
    induction steps with
    | nil => simp
    | cons step steps ih =>
        intro seen location
        rw [List.foldl_cons, ih]
        simp
  exact hseen path.steps [] (tree.start path)

theorem grows_makeDirectories (tree : FileTree) (path : Path) :
    Grows (tree.visited path) tree (tree.makeDirectories path).2 := by
  unfold makeDirectories
  split
  · exact .refl _ tree
  · split
    · exact .refl _ tree
    · rw [visited_eq_scanl]
      exact grows_makeSteps tree (tree.start path) path.steps

theorem locate_eq_ok_iff (tree : FileTree) (path : Path) (location : Location) :
    tree.locate path = .ok location ↔
      path.fault? = none ∧ tree.follow (tree.start path) path.steps = .ok location := by
  unfold locate
  split <;> simp_all

theorem read_eq_ok_iff (tree : FileTree) (path : Path) (content : Content) :
    tree.read path = .ok content ↔
      ∃ location, tree.locate path = .ok location ∧
        tree.get? location = some (.file content) ∧ path.endsInSlash = false ∧
        path.endsInDot = false := by
  unfold FileTree.read
  rcases tree.locate path with fault | location
  · simp
  · rcases hentry : tree.get? location with _ | ⟨found⟩ | _ <;>
      cases path.endsInSlash <;> cases path.endsInDot <;> simp [hentry]

theorem readText_eq_ok_iff (tree : FileTree) (path : Path) (text : Text) :
    tree.readText path = .ok text ↔
      ∃ content, tree.read path = .ok content ∧ content.text? = some text := by
  unfold readText
  rcases tree.read path with fault | content
  · simp
  · rcases htext : content.text? with _ | found <;> simp [htext]

/-- A file is written at the place that the path leads to, if that is no directory and can have its
name. -/
theorem write_eq_ok_iff (tree written : FileTree) (path : Path) (content : Content) :
    tree.write path content = .ok written ↔
      ∃ location, tree.locate path = .ok location ∧ tree.get? location ≠ some .directory ∧
        (tree.get? location = none → location.absence ≠ .tooLong) ∧ path.endsInSlash = false ∧
        path.endsInDot = false ∧ written = tree.put location (.file content) := by
  unfold write
  rcases tree.locate path with fault | location
  · simp
  · rcases hentry : tree.get? location with _ | ⟨found⟩ | _ <;>
      cases path.endsInSlash <;> cases path.endsInDot <;>
      by_cases hlong : location.absence = .tooLong <;>
      simp [hentry, hlong, eq_comm (a := written)]

theorem follow_of_directories {tree other : FileTree}
    (h : ∀ location, tree.get? location = some .directory → other.get? location = some .directory)
    {location reached : Location} {steps : List Step}
    (hfollow : tree.follow location steps = .ok reached) :
    other.follow location steps = .ok reached := by
  fun_induction follow tree location steps with
  | case1 location => simpa [follow] using hfollow
  | case2 location step rest hnone => simp at hfollow
  | case3 location step rest content hfile => simp at hfollow
  | case4 location step rest hdirectory ih =>
      rw [follow, h location hdirectory]
      exact ih hfollow

theorem follow_concat_eq_ok_iff (tree : FileTree) (location reached : Location)
    (steps : List Step) (step : Step) :
    tree.follow location (steps ++ [step]) = .ok reached ↔
      ∃ parent, tree.follow location steps = .ok parent ∧
        tree.get? parent = some .directory ∧ reached = step.apply parent := by
  induction steps generalizing location with
  | nil =>
      rw [List.nil_append, follow]
      rcases hentry : tree.get? location with _ | ⟨content⟩ | _ <;>
        simp [follow, hentry, eq_comm]
  | cons first steps ih =>
      rw [List.cons_append, follow, follow]
      rcases tree.get? location with _ | ⟨content⟩ | _
      · simp
      · simp
      · exact ih (first.apply location)

theorem directory_of_follow {tree : FileTree} {location reached : Location} {steps : List Step}
    (hsteps : steps ≠ []) (h : tree.follow location steps = .ok reached) :
    tree.get? location = some .directory := by
  obtain ⟨step, rest, rfl⟩ := List.exists_cons_of_ne_nil hsteps
  rw [follow] at h
  rcases hentry : tree.get? location with _ | ⟨content⟩ | _
  · simp [hentry] at h
  · simp [hentry] at h
  · rfl

theorem makeSteps_of_follow {tree : FileTree} {location reached : Location} {steps : List Step}
    {step : Step} (h : tree.follow location (steps ++ [step]) = .ok reached) :
    tree.makeSteps location steps = (.ok (), tree) := by
  induction steps generalizing location with
  | nil => rfl
  | cons first steps ih =>
      have hdirectory := directory_of_follow (by simp) h
      rw [List.cons_append, follow, hdirectory] at h
      rw [makeSteps, directory_of_follow (by simp) h]
      exact ih h

theorem get?_start (tree : FileTree) (path : Path) :
    tree.get? (tree.start path) = some .directory := by
  unfold start
  split
  · rfl
  · exact (hasDirectory_eq_true_iff ..).mp tree.starts

theorem get?_dropLast_apply {tree : FileTree} {location : Location}
    (h : tree.get? location = some .directory) (step : Step) :
    tree.get? (step.apply location).dropLast = some .directory := by
  cases step with
  | up => exact get?_dropLast (get?_dropLast h)
  | into name => rwa [Step.apply, List.dropLast_concat]

theorem takes_apply {tree : FileTree} {location : Location}
    (h : tree.get? location = some .directory) (step : Step)
    (hnone : tree.get? (step.apply location) = none) : tree.takes (step.apply location) = true := by
  rw [takes_eq_true_iff, hnone]
  exact ⟨by simp, get?_dropLast_apply h step⟩

theorem directory_of_makeAll_ok {tree : FileTree} {location : Location} {steps : List Step}
    (hlocation : tree.get? location = some .directory)
    (h : (tree.makeAll location steps).1 = .ok ()) {place : Location}
    (hplace : place ∈ steps.scanl Step.apply location) :
    (tree.makeAll location steps).2.get? place = some .directory := by
  fun_induction makeAll tree location steps with
  | case1 tree location =>
      obtain rfl : place = location := by simpa using hplace
      exact hlocation
  | case2 tree location step rest next hdirectory ih =>
      rw [List.scanl_cons, List.mem_cons] at hplace
      rcases hplace with rfl | hplace
      · exact (grows_makeAll tree next rest).directory hlocation
      · exact ih hdirectory h hplace
  | case3 tree location step rest next content hfile => cases h
  | case4 tree location step rest next hnone hlong => cases h
  | case5 tree location step rest next hnone hlong ih =>
      have hmade := get?_put_self (takes_apply hlocation step hnone) .directory
      rw [List.scanl_cons, List.mem_cons] at hplace
      rcases hplace with rfl | hplace
      · have hkept := (Grows.put_directory (List.mem_singleton_self next) hnone).directory hlocation
        exact (grows_makeAll _ next rest).directory hkept
      · exact ih hmade h hplace

theorem directory_of_makeSteps_ok {tree : FileTree} {location : Location} {steps : List Step}
    (hlocation : tree.get? location = some .directory)
    (h : (tree.makeSteps location steps).1 = .ok ()) {place : Location}
    (hplace : place ∈ steps.scanl Step.apply location) :
    (tree.makeSteps location steps).2.get? place = some .directory := by
  fun_induction makeSteps tree location steps with
  | case1 location =>
      obtain rfl : place = location := by simpa using hplace
      exact hlocation
  | case2 location step rest next hdirectory ih =>
      rw [List.scanl_cons, List.mem_cons] at hplace
      rcases hplace with rfl | hplace
      · exact (grows_makeSteps tree next rest).directory hlocation
      · exact ih hdirectory h hplace
  | case3 location step rest next content hfile => cases h
  | case4 location step rest next hnone => exact directory_of_makeAll_ok hlocation h hplace

/-- All places on the way to a directory that has been made are directories: none is left out
because its place could not take it. -/
theorem directory_of_makeDirectories_ok {tree : FileTree} {path : Path}
    (h : (tree.makeDirectories path).1 = .ok ()) {place : Location}
    (hplace : place ∈ tree.visited path) :
    (tree.makeDirectories path).2.get? place = some .directory := by
  rw [visited_eq_scanl] at hplace
  unfold makeDirectories at h ⊢
  split
  · rename_i hempty
    have hsteps : path.steps = [] := by
      rw [Path.steps, Path.pieces, List.isEmpty_iff.mp hempty]
      rfl
    obtain rfl : place = tree.start path := by simpa [hsteps] using hplace
    exact get?_start tree path
  · rename_i hempty
    rw [if_neg hempty] at h
    split at h
    · cases h
    · exact directory_of_makeSteps_ok (get?_start tree path) h hplace

theorem get?_dropLast_of_follow {tree : FileTree} {location reached : Location} {steps : List Step}
    (hlocation : tree.get? location.dropLast = some .directory)
    (h : tree.follow location steps = .ok reached) :
    tree.get? reached.dropLast = some .directory := by
  fun_induction follow tree location steps with
  | case1 location =>
      cases h
      exact hlocation
  | case2 location step rest hnone => cases h
  | case3 location step rest content hfile => cases h
  | case4 location step rest hdirectory ih => exact ih (get?_dropLast_apply hdirectory step) h

theorem get?_dropLast_of_locate {tree : FileTree} {path : Path} {location : Location}
    (h : tree.locate path = .ok location) : tree.get? location.dropLast = some .directory :=
  get?_dropLast_of_follow (get?_dropLast (get?_start tree path)) ((locate_eq_ok_iff ..).mp h).2

theorem takes_of_locate {tree : FileTree} {path : Path} {location : Location}
    (hlocate : tree.locate path = .ok location) (h : tree.get? location ≠ some .directory) :
    tree.takes location = true :=
  (tree.takes_eq_true_iff location).mpr ⟨h, get?_dropLast_of_locate hlocate⟩

theorem directory_put_file {tree : FileTree} {location : Location}
    (h : tree.get? location ≠ some .directory) (content : Content) (other : Location)
    (hother : tree.get? other = some .directory) :
    (tree.put location (.file content)).get? other = some .directory := by
  rw [get?_put_of_ne tree (by rintro rfl; exact h hother), hother]

theorem locate_put_file {tree : FileTree} {path : Path} {location place : Location}
    (h : tree.get? place ≠ some .directory) (content : Content)
    (hlocate : tree.locate path = .ok location) :
    (tree.put place (.file content)).locate path = .ok location := by
  rw [locate_eq_ok_iff] at hlocate ⊢
  rw [start, working_put]
  exact ⟨hlocate.1, follow_of_directories (directory_put_file h content) hlocate.2⟩

theorem grows_of_emit_error {tree : FileTree} {path : Path} {content : Content} {fault : FileFault}
    (h : (tree.emit path content).1 = .error fault) :
    Grows (tree.visited path.parent) tree (tree.emit path content).2 := by
  have hgrows := grows_makeDirectories tree path.parent
  unfold emit at h ⊢
  split at h
  · rename_i hmake
    rwa [hmake] at hgrows
  · rename_i hmake
    split at h
    · rwa [hmake] at hgrows
    · cases h

theorem exists_write_of_emit_ok {tree : FileTree} {path : Path} {content : Content}
    (h : (tree.emit path content).1 = .ok ()) :
    ∃ grown, Grows (tree.visited path.parent) tree grown ∧
      tree.makeDirectories path.parent = (.ok (), grown) ∧
      grown.write path content = .ok (tree.emit path content).2 := by
  have hgrows := grows_makeDirectories tree path.parent
  unfold emit at h ⊢
  split at h
  · cases h
  · rename_i grown hmake
    split at h
    · cases h
    · rename_i written hwrite
      rw [hmake] at hgrows
      exact ⟨grown, hgrows, hmake, hwrite⟩

end CgShader.Proofs.TreeGrowth
