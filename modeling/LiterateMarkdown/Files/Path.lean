import LiterateMarkdown.Text.Basic

/-!
# Paths

A path is text, shown as it was written. Slashes divide it into segments; empty segments and dots
name nothing, apart from a dot at the very beginning. The file name, its stem and its extension are
read off the last segment that names something.
-/

namespace LiterateMarkdown

/-- A path, as it is written. -/
abbrev Path := Text

namespace Path

/-- The segments between slashes, empty ones included. -/
def segments (path : Path) : List Text :=
  Text.splitOn '/' path

/-- Whether the path starts at the root. -/
def isAbsolute (path : Path) : Bool :=
  path.head? = some '/'

/-- The segment that stays where it is. -/
def here : Text := ['.']

/-- The segment that leads to the directory above. -/
def above : Text := ['.', '.']

/-- A segment that names nothing after the first one. -/
def isIdle (segment : Text) : Bool :=
  segment = [] || segment = here

/-- The segments that say where a path leads. -/
def components (path : Path) : List Text :=
  match segments path with
  | [] => []
  | first :: rest =>
    (if first = [] then [] else [first]) ++ rest.filter fun segment => !isIdle segment

/-- The segments up to the last one that names something. -/
def trimmed (path : Path) : List Text :=
  match segments path with
  | [] => []
  | first :: rest => first :: (rest.reverse.dropWhile isIdle).reverse

/-- The file name at the end of a path, if the path ends in one. -/
def fileName? (path : Path) : Option Text :=
  match (trimmed path).getLast? with
  | some name => if isIdle name || name = above then none else some name
  | none => none

/-- The path of the given first segments, where a lone empty segment is the root. -/
def ofSegments : List Text → Path
  | [[]] => ['/']
  | segments => Text.join ['/'] segments

/-- The path up to its last named segment, without the slashes and dots before that. -/
def parent (path : Path) : Path :=
  match (trimmed path).dropLast with
  | [] => []
  | first :: rest => ofSegments (first :: (rest.reverse.dropWhile isIdle).reverse)

/-- The second path as seen from the first one, which an absolute second path replaces. -/
def append (base path : Path) : Path :=
  if isAbsolute path || base = [] then path
  else if base.getLast? = some '/' then base ++ path
  else base ++ '/' :: path

/-- The path with another file name, or with one more segment if it ends in no file name. -/
def withFileName (path : Path) (name : Text) : Path :=
  match fileName? path with
  | some _ => append (parent path) name
  | none => append path name

/-- A file name split at its last dot, a dot at its beginning not counting. -/
def splitExtension (name : Text) : Text × Option Text :=
  match Text.splitAtLast '.' name with
  | some (stem, extension) => if stem = [] then (name, none) else (stem, some extension)
  | none => (name, none)

/-- The file name without its extension, or nothing if the path ends in no file name. -/
def fileStem (path : Path) : Text :=
  match fileName? path with
  | some name => (splitExtension name).1
  | none => []

/--
A path below `root`, given by its segments alone: slashes at its beginning and double slashes are
dropped.
-/
def below (root relative : Path) : Path :=
  ((segments relative).filter (· ≠ [])).foldl
    (fun path segment => if path = [] then segment else path ++ '/' :: segment) root

/-- Whether the components of `path` begin with those of `base`. -/
def isWithin (base path : Path) : Bool :=
  isAbsolute base == isAbsolute path && (components base).isPrefixOf (components path)

@[simp]
theorem append_nil_left (path : Path) : append [] path = path := by
  simp [append]

end Path

end LiterateMarkdown
