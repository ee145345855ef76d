import LiterateMarkdown.Build.Runner
import LiterateMarkdown.Files.Tree

/-!
# The system around the program

The files, what has been printed so far, and the programs that can be started. A program is what it
does to the system, so statements about the library may speak of all programs at once. So they may
of scratch directories: the library asks for one and takes it wherever it is and however it is
named.
-/

namespace LiterateMarkdown

/-- Files, and what has been printed on standard output. -/
structure System where
  files : FileTree
  printed : Bytes := []
  deriving DecidableEq, Repr

namespace System

/-- Print bytes on standard output. -/
def print (system : System) (bytes : Bytes) : System :=
  { system with printed := system.printed ++ bytes }

end System

/-- The programs that can be started, and where they find scratch directories. -/
structure Programs where
  /-- What a program does to the system, and how it ends; nothing if it cannot be started. -/
  start : (program : Text) → (arguments : List Text) → System → Option (System × ExitStatus)
  /-- Where a new scratch directory is made among the files; nothing if none can be made. -/
  scratch? : FileTree → Option Location

namespace Programs

/-- Start a program in a directory and come back to the present one when it has ended. -/
def startIn (programs : Programs) (directory : Path) (program : Text) (arguments : List Text)
    (system : System) : Option (System × ExitStatus) :=
  match system.files.inDirectory directory with
  | .error _ => none
  | .ok files =>
    (programs.start program arguments { system with files }).map fun (after, status) =>
      ({ after with
        files := { after.files with workingDirectory := system.files.workingDirectory } }, status)

end Programs

/-- The first of some names in a directory that is free. -/
def FileTree.firstFree? (files : FileTree) (directory : Location) (names : List Text) :
    Option Location :=
  if files.isDirectoryAt directory then
    (names.map fun name => directory ++ [name]).find? fun location => (files.at? location).isNone
  else none

end LiterateMarkdown
