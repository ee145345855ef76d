import LiterateMarkdown.CommandLine.Run
import LiterateMarkdown.Shell.Run

/-!
# The program

The command line over the files of the disk. The directory in which the program is started and the
directory of the configuration are read, the command runs on what was read, and what it changed is
written back. Nothing else of the disk is seen.
-/

namespace LiterateMarkdown

/-- The path of a location. -/
def pathOf (location : Location) : String :=
  String.ofList ('/' :: Text.join ['/'] location)

/-- Add the entries of a directory, and all that is below them, to a tree. -/
partial def addEntries (location : Location) (tree : FileTree) (entries : Array IO.FS.DirEntry) :
    IO FileTree :=
  entries.foldlM (fun tree entry => do
    let place := location ++ [entry.fileName.toList]
    if ← entry.path.isDir then
      addEntries place (tree.put place .directory) (← entry.path.readDir)
    else
      return tree.put place (.file (← IO.FS.readBinFile entry.path).toList)) tree

/-- Add a directory, the ones above it, and all that is below it, to a tree. -/
def addDirectory (location : Location) (tree : FileTree) : IO FileTree := do
  let (tree, _) := tree.makeDirectories (pathOf location).toList
  let directory := (IO.FS.DirEntry.mk (pathOf location) "").path
  if ← directory.isDir then addEntries location tree (← directory.readDir) else return tree

/-- The variables of the environment, as the system lists them. -/
def readEnvironment : IO Environment := do
  let bytes ← IO.FS.readBinFile "/proc/self/environ"
  let listing := (Utf8.decode? bytes.toList).getD []
  let bindings := (Text.splitOn '\x00' listing).map fun entry =>
    let name := entry.takeWhile (· ≠ '=')
    (name, entry.drop (name.length + 1))
  return { bindings }

/-- Write back what has changed. -/
def writeChanges (before after : FileTree) : IO Unit := do
  for (location, node) in after.nodes do
    if before.at? location ≠ some node then
      match node with
      | .directory => IO.FS.createDirAll (pathOf location)
      | .file content => IO.FS.writeBinFile (pathOf location) ⟨content.toArray⟩
  for (location, node) in before.nodes do
    if (after.at? location).isNone then
      match node with
      | .directory => pure ()
      | .file _ => IO.FS.removeFile (pathOf location)

/-- Run the program on the files of the disk. -/
def runProgram (arguments : List String) : IO Nat := do
  let environment ← readEnvironment
  let here := Path.components (← IO.currentDir).toString.toList
  let configured := Path.parent (Config.defaultPath environment)
  let (start, _) := FileTree.makeDirectories { workingDirectory := here } "/tmp".toList
  let tree ← addDirectory here start
  let tree ←
    if Path.isAbsolute configured then addDirectory (Path.components configured) tree
    else pure tree
  let (system, ending) :=
    CommandLine.run Shell.programs environment (arguments.map String.toList) { files := tree }
  writeChanges tree system.files
  (← IO.getStdout).write ⟨system.printed.toArray⟩
  match ending with
  | .failed cause => IO.eprintln ("Error: " ++ String.ofList cause.message)
  | .notUnderstood => IO.eprintln "error: the arguments are not understood, try --help"
  | .done => pure ()
  return ending.exitCode

end LiterateMarkdown

/-- The program. -/
def main (arguments : List String) : IO UInt32 := do
  return (← LiterateMarkdown.runProgram arguments).toUInt32
