import CgShader.Path

namespace CgShader

inductive FileFault where
  | notFound
  | alreadyExists
  | notDirectory
  | isDirectory
  /-- A name or a path that is longer than the system takes. -/
  | tooLong
  /-- A path with the character that ends paths for the system. -/
  | holdsNul
  | notText
deriving DecidableEq

namespace FileFault

def message : FileFault → Text
  | notFound => "No such file or directory (os error 2)".toList
  | alreadyExists => "File exists (os error 17)".toList
  | notDirectory => "Not a directory (os error 20)".toList
  | isDirectory => "Is a directory (os error 21)".toList
  | tooLong => "File name too long (os error 36)".toList
  | holdsNul => "file name contained an unexpected NUL byte".toList
  | notText => "stream did not contain valid UTF-8".toList

end FileFault

/-- What a file holds: a text, or bytes that may be none. -/
inductive Content where
  | text (characters : Text)
  | bytes (data : ByteArray)
deriving BEq

namespace Content

/-- The text of the content, which bytes have if they are its UTF-8 form. -/
def text? : Content → Option Text
  | text characters => some characters
  | bytes data => (String.fromUTF8? data).map String.toList

end Content

inductive Entry where
  | file (content : Content)
  | directory
deriving BEq

/-- The names that lead from the root to a file or a directory. -/
abbrev Location := List Text

namespace Location

/-- The most bytes that a name may have. -/
def maxNameSize : Nat := 255

/-- What is wrong with a place in a directory at which there is nothing: its name may be one that
nothing can have. -/
def absence (location : Location) : FileFault :=
  if maxNameSize < Text.size (location.getLastD []) then .tooLong else .notFound

end Location

/-- What a list of files and directories has at a location. The root is a directory that is not
listed. -/
def entryAt? (entries : List (Location × Entry)) (location : Location) : Option Entry :=
  if location.isEmpty then some .directory else entries.lookup location

def hasDirectory (entries : List (Location × Entry)) (location : Location) : Bool :=
  match entryAt? entries location with
  | some .directory => true
  | _ => false

/-- The files and directories below the root, each listed once and each in a directory, and the
directory that paths start from if they do not start from the root. -/
structure FileTree where
  entries : List (Location × Entry)
  working : Location
  distinct : (entries.map Prod.fst).Nodup
  grounded : ∀ location ∈ entries.map Prod.fst,
    location ≠ [] ∧ hasDirectory entries location.dropLast = true
  starts : hasDirectory entries working = true

theorem hasDirectory_eq_true_iff (entries : List (Location × Entry)) (location : Location) :
    hasDirectory entries location = true ↔ entryAt? entries location = some .directory := by
  unfold hasDirectory
  split <;> simp_all

theorem entryAt?_cons_filter {entries : List (Location × Entry)} {location other : Location}
    (hother : other ≠ location) (entry : Entry) :
    entryAt? ((location, entry) :: entries.filter (·.1 != location)) other =
      entryAt? entries other := by
  have hne : (other == location) = false := beq_eq_false_iff_ne.mpr hother
  have hfilter : (entries.filter (·.1 != location)).lookup other = entries.lookup other := by
    induction entries with
    | nil => rfl
    | cons first entries ih =>
      rw [List.filter_cons]
      split
      · rw [List.lookup_cons, List.lookup_cons, ih]
      · rename_i hfirst
        have hne : (other == first.1) = false := by
          rw [beq_eq_false_iff_ne]
          rintro rfl
          simp [hother] at hfirst
        rw [ih, List.lookup_cons, hne]
  rw [entryAt?, entryAt?, List.lookup_cons, hne, hfilter]

namespace FileTree

def get? (tree : FileTree) (location : Location) : Option Entry := entryAt? tree.entries location

/-- Whether something can be put at a location: it lies in a directory and is none itself. -/
def takes (tree : FileTree) (location : Location) : Bool :=
  !hasDirectory tree.entries location && hasDirectory tree.entries location.dropLast

theorem takes_eq_true_iff (tree : FileTree) (location : Location) :
    tree.takes location = true ↔
      tree.get? location ≠ some .directory ∧ tree.get? location.dropLast = some .directory := by
  simp [takes, get?, ← hasDirectory_eq_true_iff]

theorem ne_nil_of_takes {tree : FileTree} {location : Location}
    (h : tree.takes location = true) : location ≠ [] := by
  rintro rfl
  exact ((tree.takes_eq_true_iff []).mp h).1 rfl

theorem hasDirectory_cons_filter {tree : FileTree} {location other : Location}
    (htakes : tree.takes location = true) (entry : Entry)
    (h : hasDirectory tree.entries other = true) :
    hasDirectory ((location, entry) :: tree.entries.filter (·.1 != location)) other = true := by
  have hother : other ≠ location := by
    rintro rfl
    simp [takes, h] at htakes
  rw [hasDirectory_eq_true_iff] at h ⊢
  rw [entryAt?_cons_filter hother, h]

/-- The tree with something put at a location. If the location cannot take it, the tree stays as it
is. -/
def put (tree : FileTree) (location : Location) (entry : Entry) : FileTree :=
  if h : tree.takes location = true then
    { entries := (location, entry) :: tree.entries.filter (·.1 != location)
      working := tree.working
      distinct := by
        rw [List.map_cons, List.nodup_cons]
        refine ⟨by simp, ?_⟩
        exact tree.distinct.sublist (List.filter_sublist.map Prod.fst)
      grounded := by
        intro other hother
        rw [List.map_cons, List.mem_cons] at hother
        rcases hother with rfl | hother
        · have hparent := ((tree.takes_eq_true_iff other).mp h).2
          rw [get?, ← hasDirectory_eq_true_iff] at hparent
          exact ⟨ne_nil_of_takes h, hasDirectory_cons_filter h entry hparent⟩
        · have hlisted := tree.grounded other ((List.filter_sublist.map Prod.fst).subset hother)
          exact ⟨hlisted.1, hasDirectory_cons_filter h entry hlisted.2⟩
      starts := hasDirectory_cons_filter h entry tree.starts }
  else tree

/-- The tree with nothing in it, where paths start from the root. -/
def bare : FileTree := ⟨[], [], .nil, by simp, rfl⟩

/-- The tree with paths starting from another directory. -/
def enter (tree : FileTree) (location : Location) : FileTree :=
  if h : hasDirectory tree.entries location = true then
    { tree with working := location, starts := h }
  else tree

theorem get?_put_self {tree : FileTree} {location : Location} (h : tree.takes location = true)
    (entry : Entry) : (tree.put location entry).get? location = some entry := by
  simp [get?, put, h, entryAt?, ne_nil_of_takes h]

theorem get?_put_of_ne (tree : FileTree) {location other : Location} (hother : other ≠ location)
    (entry : Entry) : (tree.put location entry).get? other = tree.get? other := by
  unfold put
  split
  · exact entryAt?_cons_filter hother entry
  · rfl

theorem working_put (tree : FileTree) (location : Location) (entry : Entry) :
    (tree.put location entry).working = tree.working := by
  unfold put
  split <;> rfl

/-- Whatever there is lies in a directory. -/
theorem get?_dropLast {tree : FileTree} {location : Location} {entry : Entry}
    (h : tree.get? location = some entry) :
    tree.get? location.dropLast = some .directory := by
  by_cases hroot : location = []
  · subst hroot
    rfl
  · rw [get?, entryAt?, if_neg (by simpa using hroot)] at h
    obtain ⟨front, behind, hentries, -⟩ := List.lookup_eq_some_iff.mp h
    have hlisted : location ∈ tree.entries.map Prod.fst := by simp [hentries]
    exact (hasDirectory_eq_true_iff ..).mp (tree.grounded location hlisted).2

end FileTree

/-- A step from a directory to another place. -/
inductive Step where
  | up
  | into (name : Text)
deriving DecidableEq

namespace Step

/-- Where a step leads; the root is above itself. -/
def apply (location : Location) : Step → Location
  | up => location.dropLast
  | into name => location ++ [name]

def ofPiece? (piece : Text) : Option Step :=
  if Path.isIdle piece then none else if piece = Path.above then some up else some (into piece)

end Step

namespace Path

def isAbsolute (path : Path) : Bool := path.text.head? == some '/'

def maxSize : Nat := 4095

/-- What is wrong with the path itself, whatever files there are. -/
def fault? (path : Path) : Option FileFault :=
  if path.text.contains '\x00' then some .holdsNul
  else if path.text.isEmpty then some .notFound
  else if maxSize < Text.size path.text then some .tooLong
  else none

def steps (path : Path) : List Step := path.pieces.filterMap Step.ofPiece?

/-- Whether the path is written as that of a directory, with a slash at its end. -/
def endsInSlash (path : Path) : Bool := path.text.getLast? == some '/'

/-- Whether the path ends in a dot that stands for the directory before it, whatever slashes
follow. -/
def endsInDot (path : Path) : Bool :=
  (path.pieces.filter (!·.isEmpty)).getLast? == some here

end Path

namespace FileTree

/-- Follows steps from a location, each of which starts at a directory. -/
def follow (tree : FileTree) (location : Location) : List Step → Except FileFault Location
  | [] => .ok location
  | step :: rest =>
    match tree.get? location with
    | none => .error location.absence
    | some (.file _) => .error .notDirectory
    | some .directory => tree.follow (step.apply location) rest

def start (tree : FileTree) (path : Path) : Location :=
  if path.isAbsolute then [] else tree.working

/-- The place that a path leads to, where there need not be anything. -/
def locate (tree : FileTree) (path : Path) : Except FileFault Location :=
  match path.fault? with
  | some fault => .error fault
  | none => tree.follow (tree.start path) path.steps

/-- All places that a path passes and the one that it leads to. -/
def visited (tree : FileTree) (path : Path) : List Location :=
  path.steps.foldl (fun seen step => seen ++ [step.apply (seen.getLastD [])]) [tree.start path]

def read (tree : FileTree) (path : Path) : Except FileFault Content :=
  match tree.locate path with
  | .error fault => .error fault
  | .ok location =>
    match tree.get? location with
    | none => .error location.absence
    | some .directory => .error .isDirectory
    | some (.file content) =>
      if path.endsInSlash || path.endsInDot then .error .notDirectory else .ok content

def readText (tree : FileTree) (path : Path) : Except FileFault Text :=
  match tree.read path with
  | .error fault => .error fault
  | .ok content =>
    match content.text? with
    | none => .error .notText
    | some characters => .ok characters

/-- The tree with a file written, in the place of an earlier one or in a directory that exists. -/
def write (tree : FileTree) (path : Path) (content : Content) : Except FileFault FileTree :=
  match tree.locate path with
  | .error fault => .error fault
  | .ok location =>
    match tree.get? location with
    | some .directory => .error .isDirectory
    | some (.file _) =>
      if path.endsInDot then .error .notDirectory
      else if path.endsInSlash then .error .isDirectory
      else .ok (tree.put location (.file content))
    | none =>
      if path.endsInDot then .error location.absence
      else if path.endsInSlash then .error .isDirectory
      else if location.absence = .tooLong then .error .tooLong
      else .ok (tree.put location (.file content))

/-- Makes the directories that steps lead to, one after the other, where they are missing. Those
that have been made stay even if a later one cannot be made. -/
def makeAll (tree : FileTree) (location : Location) : List Step → Except FileFault Unit × FileTree
  | [] => (.ok (), tree)
  | step :: rest =>
    let next := step.apply location
    match tree.get? next with
    | some .directory => tree.makeAll next rest
    | some (.file _) => (.error .alreadyExists, tree)
    | none =>
      if next.absence = .tooLong then (.error .tooLong, tree)
      else (tree.put next .directory).makeAll next rest

/-- Makes the directory that steps lead to and, where they are missing, the directories on the way.
As long as nothing is missing, the steps are only followed. -/
def makeSteps (tree : FileTree) (location : Location) : List Step → Except FileFault Unit × FileTree
  | [] => (.ok (), tree)
  | step :: rest =>
    let next := step.apply location
    match tree.get? next with
    | some .directory => tree.makeSteps next rest
    | some (.file _) => (.error (if rest.isEmpty then .alreadyExists else .notDirectory), tree)
    | none => tree.makeAll location (step :: rest)

/-- Makes a directory and, where they are missing, the directories above it. The empty path asks
for none. -/
def makeDirectories (tree : FileTree) (path : Path) : Except FileFault Unit × FileTree :=
  if path.text.isEmpty then (.ok (), tree)
  else
    match path.fault? with
    | some fault => (.error fault, tree)
    | none => tree.makeSteps (tree.start path) path.steps

/-- Writes a file and, where they are missing, makes the directories above it. They stay even if
the file cannot be written. -/
def emit (tree : FileTree) (path : Path) (content : Content) : Except FileFault Unit × FileTree :=
  match tree.makeDirectories path.parent with
  | (.error fault, grown) => (.error fault, grown)
  | (.ok (), grown) =>
    match grown.write path content with
    | .error fault => (.error fault, grown)
    | .ok written => (.ok (), written)

end FileTree

end CgShader
