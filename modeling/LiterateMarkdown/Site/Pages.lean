import LiterateMarkdown.Files.Tree

/-!
# The pages of a site

Pages are the files below a directory whose extension is `md`. They are named by their path below
it, and listed in the order of these paths, compared name by name.
-/

namespace LiterateMarkdown

/-- Why pages cannot be read, written or listed. -/
inductive PageError where
  | notFound (path : Path)
  | system (cause : FileError)
  /-- The directory to list does not exist. -/
  | missingDocsDirectory (root : Path)
  /-- The path does not lead to a directory. -/
  | notADocsDirectory (path : Path)
  deriving DecidableEq, Repr

/-- The wording of a page error, up to what the system adds. -/
def PageError.message : PageError → Text
  | notFound path => "File not found: ".toList ++ path
  | system _ => "IO error: ".toList
  | missingDocsDirectory root =>
    "Invalid docs directory: docs directory not found: ".toList ++ root
  | notADocsDirectory path =>
    "Invalid docs directory: directory does not exist: ".toList ++ path

namespace Pages

/-- Read the page at a path below `root`. -/
def read (files : FileTree) (root relative : Path) : Except PageError Text :=
  let path := Path.below root relative
  if !files.pathExists path then .error (.notFound path)
  else (files.readText path).mapError .system

/-- Write the page at a path below `root`, with the directories it needs. -/
def write (files : FileTree) (root relative : Path) (page : Text) :
    FileTree × Except PageError Unit :=
  let path := Path.below root relative
  match files.makeDirectories (Path.parent path) with
  | (files, .error cause) => (files, .error (.system cause))
  | (files, .ok ()) =>
    match files.writeText path page with
    | .error cause => (files, .error (.system cause))
    | .ok files => (files, .ok ())

/-- Whether a file name has the extension of a page. -/
def isPageName (name : Text) : Bool :=
  (Path.splitExtension name).2 = some "md".toList

/--
The pages in a directory and below it, in the order in which they are met: an entry that is a
directory is gone through in its place. The directory and the pages are given as seen from `root`.
-/
def collect (files : FileTree) (root directory : Location) : List Location :=
  (files.entries (root ++ directory)).attach.flatMap fun ⟨name, _isEntry⟩ =>
    if files.isDirectoryAt (root ++ (directory ++ [name])) then
      collect files root (directory ++ [name])
    else if isPageName name then [directory ++ [name]]
    else []
termination_by files.depth - (root ++ directory).length
decreasing_by
  have deeper := FileTree.length_lt_depth _isEntry
  simp only [List.length_append, List.length_singleton] at deeper ⊢
  omega

/-- Locations in the order in which their names compare, one after the other. -/
def inOrder : Location → Location → Bool
  | [], _ => true
  | _ :: _, [] => false
  | first :: left, second :: right =>
    if first = second then inOrder left right else Text.isUpTo first second

/-- The locations of the pages below `root`, in order. -/
def locations (files : FileTree) (root : Location) : List Location :=
  (collect files root []).mergeSort inOrder

/-- List the pages below a path, as seen from it. -/
def scan (files : FileTree) (root : Path) : Except PageError (List Location) :=
  match files.locate root with
  | .error _ => .error (.missingDocsDirectory root)
  | .ok location =>
    if files.isDirectoryAt location then .ok (locations files location)
    else .error (.system .notADirectory)

/-- The path of a page as it is named in the site. -/
def relativePath (location : Location) : Path :=
  Text.join ['/'] location

/-- List the files of the pages below a path. -/
def scanFiles (files : FileTree) (root : Path) : Except PageError (List Path) :=
  (scan files root).map fun pages => pages.map fun location => location.foldl Path.append root

/-- List the pages below a path. -/
def scanPages (files : FileTree) (root : Path) : Except PageError (List Path) :=
  (scan files root).map fun pages => pages.map relativePath

/-- Check that a path leads to a directory. -/
def validate (files : FileTree) (path : Path) : Except PageError Unit :=
  if files.isDirectory path then .ok () else .error (.notADocsDirectory path)

end Pages

end LiterateMarkdown
