import LiterateMarkdown.Files.Path
import LiterateMarkdown.Text.Utf8

/-!
# File trees

The files that the program reads and writes, as a value: what stands at each location, and the
directory in which relative paths begin. Every operation answers with the cause when it fails.
Writing at one location leaves what stands at all others (`at?_put_of_ne`).
-/

namespace LiterateMarkdown

/-- The names on the way from the root. -/
abbrev Location := List Text

/-- What stands at a location. -/
inductive Node where
  | file (content : Bytes)
  | directory
  deriving DecidableEq, Repr

/-- Why an operation on files fails. -/
inductive FileError where
  | notFound
  | notADirectory
  | isADirectory
  | alreadyExists
  | notText
  deriving DecidableEq, Repr

/-- The files of a system, in the order in which directories list them. -/
structure FileTree where
  nodes : List (Location × Node) := []
  /-- Where relative paths begin. -/
  workingDirectory : Location := []
  deriving DecidableEq, Repr

namespace FileTree

/-- What stands at a location; the root is always a directory. -/
def at? (tree : FileTree) (location : Location) : Option Node :=
  if location = [] then some .directory
  else (tree.nodes.find? fun entry => entry.1 = location).map Prod.snd

/-- Put a node at a location, in place of what stands there. -/
def put (tree : FileTree) (location : Location) (node : Node) : FileTree :=
  if tree.nodes.any fun entry => entry.1 = location then
    { tree with
      nodes := tree.nodes.map fun entry => if entry.1 = location then (location, node) else entry }
  else { tree with nodes := tree.nodes ++ [(location, node)] }

/-- Remove a location and everything below it. -/
def remove (tree : FileTree) (location : Location) : FileTree :=
  { tree with nodes := tree.nodes.filter fun entry => !location.isPrefixOf entry.1 }

/-- Whether a location is a directory. -/
def isDirectoryAt (tree : FileTree) (location : Location) : Bool :=
  tree.at? location = some .directory

/-- The names in a directory, in the order in which it lists them. -/
def entries (tree : FileTree) (location : Location) : List Text :=
  tree.nodes.filterMap fun entry =>
    if entry.1.dropLast = location then entry.1.getLast? else none

/-- How many names are on the way to a node at most. -/
def depth (tree : FileTree) : Nat :=
  tree.nodes.foldr (fun entry depth => max entry.1.length depth) 0

/-- Follow segments from a location. Each step needs a directory to start from. -/
def walk (tree : FileTree) (location : Location) : List Text → Except FileError Location
  | [] => .ok location
  | segment :: rest =>
    if !tree.isDirectoryAt location then .error .notADirectory
    else if Path.isIdle segment then tree.walk location rest
    else if segment = Path.above then tree.walk location.dropLast rest
    else if (tree.at? (location ++ [segment])).isSome then tree.walk (location ++ [segment]) rest
    else .error .notFound

/-- Where a path begins. -/
def startOf (tree : FileTree) (path : Path) : Location :=
  if Path.isAbsolute path then [] else tree.workingDirectory

/-- The location of what a path leads to. -/
def locate (tree : FileTree) (path : Path) : Except FileError Location :=
  if path = [] then .error .notFound
  else tree.walk (tree.startOf path) (Path.segments path)

/-- Whether a path leads to anything. -/
def pathExists (tree : FileTree) (path : Path) : Bool :=
  match tree.locate path with
  | .ok _ => true
  | .error _ => false

/-- Whether a path leads to a directory. -/
def isDirectory (tree : FileTree) (path : Path) : Bool :=
  match tree.locate path with
  | .ok location => tree.isDirectoryAt location
  | .error _ => false

/-- The content of the file that a path leads to. -/
def readBytes (tree : FileTree) (path : Path) : Except FileError Bytes := do
  let location ← tree.locate path
  match tree.at? location with
  | some (.file content) => .ok content
  | some .directory => .error .isADirectory
  | none => .error .notFound

/-- The text in the file that a path leads to. -/
def readText (tree : FileTree) (path : Path) : Except FileError Text := do
  match Utf8.decode? (← tree.readBytes path) with
  | some text => .ok text
  | none => .error .notText

/-- The location at which a file of this path is written. -/
def destination (tree : FileTree) (path : Path) : Except FileError Location :=
  match tree.locate path with
  | .ok location => if tree.isDirectoryAt location then .error .isADirectory else .ok location
  | .error cause => do
    if path = [] then .error .notFound
    let segments := Path.segments path
    let parent ← tree.walk (tree.startOf path) segments.dropLast
    match segments.getLast? with
    | some name =>
      if !tree.isDirectoryAt parent then .error .notADirectory
      else if Path.isIdle name then .error .isADirectory
      else if name = Path.above || (tree.at? (parent ++ [name])).isSome then .error cause
      else .ok (parent ++ [name])
    | none => .error cause

/-- Write a file. -/
def writeBytes (tree : FileTree) (path : Path) (content : Bytes) : Except FileError FileTree := do
  let location ← tree.destination path
  return tree.put location (.file content)

/-- Write a text to a file. -/
def writeText (tree : FileTree) (path : Path) (text : Text) : Except FileError FileTree :=
  tree.writeBytes path (Utf8.encode text)

/-- Follow segments from a location and make the directories that are missing. -/
def makeDirectoriesFrom (tree : FileTree) (location : Location) :
    List Text → FileTree × Except FileError Unit
  | [] => (tree, .ok ())
  | segment :: rest =>
    if !tree.isDirectoryAt location then (tree, .error .notADirectory)
    else if Path.isIdle segment then tree.makeDirectoriesFrom location rest
    else if segment = Path.above then tree.makeDirectoriesFrom location.dropLast rest
    else
      let next := location ++ [segment]
      match tree.at? next with
      | none => (tree.put next .directory).makeDirectoriesFrom next rest
      | some .directory => tree.makeDirectoriesFrom next rest
      | some (.file _) => (tree, .error (if rest = [] then .alreadyExists else .notADirectory))

/-- Make a directory and those above it that are missing. What is made before a failure stays. -/
def makeDirectories (tree : FileTree) (path : Path) : FileTree × Except FileError Unit :=
  if path = [] then (tree, .ok ())
  else tree.makeDirectoriesFrom (tree.startOf path) (Path.segments path)

/-- The tree as seen from another working directory. -/
def inDirectory (tree : FileTree) (path : Path) : Except FileError FileTree := do
  let location ← tree.locate path
  if tree.isDirectoryAt location then return { tree with workingDirectory := location }
  else .error .notADirectory

theorem mem_entries {tree : FileTree} {location : Location} {name : Text} :
    name ∈ tree.entries location ↔ ∃ node, (location ++ [name], node) ∈ tree.nodes := by
  simp only [entries, List.mem_filterMap, Option.ite_none_right_eq_some]
  constructor
  · rintro ⟨⟨place, node⟩, isNode, rfl, isLast⟩
    rcases List.getLast?_eq_some_iff.mp isLast with ⟨location, isPlace⟩
    simp only at isPlace
    subst isPlace
    exact ⟨node, by rwa [List.dropLast_concat]⟩
  · rintro ⟨node, isNode⟩
    exact ⟨_, isNode, by simp⟩

theorem length_lt_depth {tree : FileTree} {location : Location} {name : Text}
    (isEntry : name ∈ tree.entries location) : location.length < tree.depth := by
  have bounded : ∀ nodes : List (Location × Node), ∀ entry ∈ nodes,
      entry.1.length ≤ nodes.foldr (fun entry depth => max entry.1.length depth) 0 := by
    intro nodes entry isNode
    induction nodes with
    | nil => contradiction
    | cons first rest ih =>
      rw [List.foldr_cons]
      rcases List.mem_cons.mp isNode with rfl | isLater
      · exact Nat.le_max_left _ _
      · exact Nat.le_trans (ih isLater) (Nat.le_max_right _ _)
  rcases mem_entries.mp isEntry with ⟨node, isNode⟩
  have isBounded := bounded tree.nodes _ isNode
  rw [List.length_append, List.length_singleton] at isBounded
  exact isBounded

theorem at?_put_of_ne (tree : FileTree) {location other : Location} (ne : other ≠ location)
    (node : Node) : (tree.put location node).at? other = tree.at? other := by
  unfold put at?
  split
  · rfl
  · congr 1
    split
    · simp only [List.find?_map]
      induction tree.nodes with
      | nil => rfl
      | cons entry rest ih =>
        by_cases here : entry.1 = location
        · have notOther : ¬ entry.1 = other := fun isOther => ne (isOther.symm.trans here)
          have notOther' : ¬ location = other := fun isOther => ne isOther.symm
          simp only [List.find?_cons, Function.comp_apply, here, ↓reduceIte, notOther',
            decide_false]
          exact ih
        · by_cases isOther : entry.1 = other
          · simp [isOther, ne]
          · simp only [List.find?_cons, Function.comp_apply, here, ↓reduceIte, isOther,
              decide_false]
            exact ih
    · simp [List.find?_append, Ne.symm ne]

end FileTree

end LiterateMarkdown
