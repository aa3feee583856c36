import CgShader.Stage

/-!
Paths, written as names between slashes. Empty pieces and single dots lead nowhere; two dots lead
up. A file's name is its path's last piece that leads somewhere, if that is a name.

A path is a Unicode text, and so are the arguments that name one. Paths of bytes that are not UTF-8,
which a system may allow, are not covered.
-/

namespace CgShader

structure Path where
  text : Text
deriving DecidableEq

namespace Path

/-- The text `.`, which stands for the directory it is in. -/
def here : Text := ['.']

/-- The text `..`, which stands for the directory above. -/
def above : Text := ['.', '.']

/-- The pieces of the path between its slashes. -/
def pieces (path : Path) : List Text := path.text.splitOn '/'

/-- Whether a piece leads nowhere. -/
def isIdle (piece : Text) : Bool := piece.isEmpty || piece == here

/-- The name at the end of the path, and the pieces before it. -/
def lastName? (path : Path) : Option (List Text × Text) :=
  match path.pieces.reverse.dropWhile isIdle with
  | [] => none
  | name :: before => if name = above then none else some (before.reverse, name)

def fileName? (path : Path) : Option Text := path.lastName?.map (·.2)

/-- The path of the directory that the path's last piece is in, empty if that is where the path
starts. -/
def parent (path : Path) : Path :=
  let before := (path.pieces.reverse.dropWhile isIdle).drop 1
  ⟨['/'].intercalate (before.dropWhile isIdle).reverse⟩

/-- A file name's stem and extension, divided at its last dot. A name has no extension if it has no
dot or only the one it begins with. -/
def splitName (name : Text) : Text × Option Text :=
  match name.reverse.dropWhile (· != '.') with
  | [] | ['.'] => (name, none)
  | _ :: stem => (stem.reverse, some (name.reverse.takeWhile (· != '.')).reverse)

def extension? (path : Path) : Option Text := path.fileName?.bind fun name => (splitName name).2

/-- A text without the characters at its end that lie within its last `count` bytes. -/
def dropEndBytes (count : Nat) (s : Text) : Text := (go count s.reverse).reverse
where
  go : Nat → Text → Text
    | _, [] => []
    | count, c :: rest => if c.utf8Size ≤ count then go (count - c.utf8Size) rest else c :: rest

/-- The path with an extension after the stem of its file name, whatever follows the stem. A path
without a file name stays as it is. -/
def extendStem (path : Path) (extension : Text) : Path :=
  match path.lastName? with
  | none => path
  | some (before, name) =>
    ⟨['/'].intercalate (before ++ [(splitName name).1]) ++ '.' :: extension⟩

/-- The path with another extension. The old one is cut off by its length from the path's end and
the rest is extended, so that a name such as `..x`, of which `..` is left, takes none. -/
def withExtension (path : Path) (extension : Text) : Path :=
  match path.extension? with
  | none => path.extendStem extension
  | some old => extendStem ⟨dropEndBytes (Text.size old) path.text⟩ extension

def join (directory : Path) (name : Text) : Path :=
  if directory.text.isEmpty ∨ directory.text.getLast? = some '/' then ⟨directory.text ++ name⟩
  else ⟨directory.text ++ '/' :: name⟩

end Path

namespace Stage

def ofPath? (path : Path) : Option Stage := path.extension?.bind ofExtension?

/-- Where the program of a source file goes: beside the source or into `directory`. -/
def outputPath (stage : Stage) (source : Path) (directory : Option Path) : Path :=
  let renamed := source.withExtension stage.outputExtension
  match directory, renamed.fileName? with
  | some directory, some name => directory.join name
  | _, _ => renamed

end Stage

end CgShader
