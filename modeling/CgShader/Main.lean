import CgShader.CommandLine.Report

/-!
The command on the files of the system. Whatever lies on the paths of a run is read into a file
tree, the run is done there, and what it has changed is written back.
-/

namespace CgShader

def systemPath (location : Location) : String :=
  String.ofList ('/' :: ['/'].intercalate location)

def inspect (location : Location) : IO (Option Entry) := do
  let place := (← IO.currentDir) / systemPath location
  if ← place.isDir then return some .directory
  else if ← place.pathExists then return some (.file (.bytes (← IO.FS.readBinFile place)))
  else return none

/-- The tree with what the system has at some locations, of which those above others come first. -/
def FileTree.inspectAll (tree : FileTree) (locations : List Location) : IO FileTree := do
  let mut found := tree
  for location in locations.eraseDups do
    if let some entry ← inspect location then
      found := found.put location entry
  return found

/-- The part of the system's files that lies on some paths. -/
def FileTree.load (working : Location) (paths : List Path) : IO FileTree := do
  let above := (List.range working.length).map fun depth => working.take (depth + 1)
  let start := (← FileTree.bare.inspectAll above).enter working
  start.inspectAll (paths.flatMap start.visited)

/-- Writes to the system what is new in a tree. -/
def FileTree.store (before after : FileTree) : IO Unit := do
  for (location, entry) in after.entries.reverse do
    unless before.get? location == some entry do
      match entry with
      | .directory => IO.FS.createDir (systemPath location)
      | .file (.text characters) =>
        IO.FS.writeFile (systemPath location) (String.ofList characters)
      | .file (.bytes data) => IO.FS.writeBinFile (systemPath location) data

end CgShader

open CgShader CommandLine

def main (arguments : List String) : IO UInt32 := do
  let words := arguments.map String.toList
  let verbosity := ((← IO.getEnv "RUST_LOG").bind fun name => Verbosity.ofName? name.toList)
  let working : Path := ⟨(← IO.currentDir).toString.toList⟩
  let names := working.pieces.filter fun piece => !Path.isIdle piece
  let paths :=
    match parse words with
    | .ok options => options.paths
    | .error _ => []
  let before ← FileTree.load names paths
  let (report, after) := run .trivial (verbosity.getD .info) words before
  before.store after
  for line in report.output do
    IO.println (String.ofList line)
  for line in report.errors do
    IO.eprintln (String.ofList line)
  return UInt32.ofNat report.status
