import LiterateMarkdown.Proofs.Files.Path
import Mathlib.Data.List.Induction
import Mathlib.Data.List.Nodup

/-!
# Trees of files

A file tree is a tree if each location stands in it once, is made of names, and lies in a directory
(`FileTree.IsTree`). What stands at a location is then what the nodes say, and everything above it
is a directory.

Making directories along a path adds those that are missing and changes nothing else
(`FileTree.MakesWay`); it succeeds unless a file is on the way. A file is written if the way to it
consists of directories and no directory stands in its place (`FileTree.writeBytes_of_way`).
-/

namespace LiterateMarkdown

namespace FileTree

variable {tree : FileTree} {location place : Location} {node : Node}

/-- Nodes that form a tree, in which relative paths begin at a directory. -/
structure IsTree (tree : FileTree) : Prop where
  distinct : (tree.nodes.map Prod.fst).Nodup
  areNames : ∀ entry ∈ tree.nodes, ∀ name ∈ entry.1, Path.IsName name
  within : ∀ entry ∈ tree.nodes, tree.isDirectoryAt entry.1.dropLast = true
  startsInDirectory : tree.isDirectoryAt tree.workingDirectory = true

/-- A file stands at a location. -/
def IsFileAt (tree : FileTree) (location : Location) : Prop :=
  ∃ content, tree.at? location = some (.file content)

theorem isDirectoryAt_iff :
    tree.isDirectoryAt location = true ↔ tree.at? location = some .directory :=
  decide_eq_true_iff

theorem not_isFileAt_of_isDirectoryAt (isDirectory : tree.isDirectoryAt location = true) :
    ¬ tree.IsFileAt location := by
  rintro ⟨content, isFile⟩
  rw [isDirectoryAt_iff.mp isDirectory] at isFile
  cases isFile

theorem mem_nodes_of_at? (notRoot : location ≠ []) (stands : tree.at? location = some node) :
    (location, node) ∈ tree.nodes := by
  rw [at?, if_neg notRoot, Option.map_eq_some_iff] at stands
  rcases stands with ⟨entry, found, rfl⟩
  have isHere := List.find?_some found
  rw [← of_decide_eq_true isHere]
  exact List.mem_of_find?_eq_some found

/-- What the nodes say of a location is what stands there, if they say it once. -/
theorem at?_eq_some_iff_of_distinct (distinct : (tree.nodes.map Prod.fst).Nodup)
    (notRoot : location ≠ []) :
    tree.at? location = some node ↔ (location, node) ∈ tree.nodes := by
  refine ⟨mem_nodes_of_at? notRoot, fun isNode => ?_⟩
  rw [at?, if_neg notRoot]
  cases found : tree.nodes.find? fun entry => entry.1 = location with
  | none =>
    have isMissing := List.find?_eq_none.mp found _ isNode
    exact absurd (decide_eq_true rfl) isMissing
  | some entry =>
    have isEntry := List.mem_of_find?_eq_some found
    have isHere : entry.1 = location := by simpa using List.find?_some found
    have same := List.inj_on_of_nodup_map distinct isEntry isNode isHere
    rw [same]
    rfl

namespace IsTree

theorem at?_eq_some_iff (isTree : tree.IsTree) (notRoot : location ≠ []) :
    tree.at? location = some node ↔ (location, node) ∈ tree.nodes :=
  at?_eq_some_iff_of_distinct isTree.distinct notRoot

/-- Whatever stands in a tree lies in a directory. -/
theorem isDirectoryAt_dropLast (isTree : tree.IsTree) (stands : tree.at? location = some node) :
    tree.isDirectoryAt location.dropLast = true := by
  by_cases atRoot : location = []
  · rw [atRoot]
    exact decide_eq_true rfl
  · exact isTree.within _ (mem_nodes_of_at? atRoot stands)

/-- Whatever is above something that stands in a tree is a directory. -/
theorem isDirectoryAt_of_append (isTree : tree.IsTree) {more : Location} (below : more ≠ [])
    (stands : tree.at? (location ++ more) = some node) : tree.isDirectoryAt location = true := by
  induction more using List.reverseRecOn generalizing node with
  | nil => contradiction
  | append_singleton earlier name ih =>
    have holder := isTree.isDirectoryAt_dropLast stands
    rw [← List.append_assoc, List.dropLast_concat] at holder
    by_cases first : earlier = []
    · rwa [first, List.append_nil] at holder
    · exact ih first (isDirectoryAt_iff.mp holder)

theorem exists_at?_of_append (isTree : tree.IsTree) {more : Location}
    (stands : tree.at? (location ++ more) = some node) : ∃ node, tree.at? location = some node := by
  by_cases isSame : more = []
  · rw [isSame, List.append_nil] at stands
    exact ⟨node, stands⟩
  · exact ⟨.directory, isDirectoryAt_iff.mp (isTree.isDirectoryAt_of_append isSame stands)⟩

/-- An entry stands in the directory that lists it, and all that stand there are listed. -/
theorem mem_entries_iff (isTree : tree.IsTree) {name : Text} :
    name ∈ tree.entries location ↔ ∃ node, tree.at? (location ++ [name]) = some node := by
  have notRoot : location ++ [name] ≠ [] :=
    List.append_ne_nil_of_right_ne_nil location (List.cons_ne_nil name [])
  simp only [mem_entries, isTree.at?_eq_some_iff notRoot]

/-- A directory lists each entry once. -/
theorem nodup_entries (isTree : tree.IsTree) (location : Location) :
    (tree.entries location).Nodup := by
  have ofLocations : tree.entries location =
      (tree.nodes.map Prod.fst).filterMap fun place =>
        if place.dropLast = location then place.getLast? else none := by
    rw [List.filterMap_map]
    rfl
  rw [ofLocations]
  apply isTree.distinct.filterMap
  intro first second name isFirst isSecond
  simp only [Option.mem_def, Option.ite_none_right_eq_some] at isFirst isSecond
  rw [← List.dropLast_append_getLast? name isFirst.2,
    ← List.dropLast_append_getLast? name isSecond.2, isFirst.1, isSecond.1]

theorem areNames_of_at? (isTree : tree.IsTree) (stands : tree.at? location = some node) :
    ∀ name ∈ location, Path.IsName name := by
  by_cases atRoot : location = []
  · simp [atRoot]
  · exact isTree.areNames _ (mem_nodes_of_at? atRoot stands)

end IsTree

/-! ## Putting a node in place -/

theorem at?_put_self (tree : FileTree) (notRoot : location ≠ []) (node : Node) :
    (tree.put location node).at? location = some node := by
  unfold put at?
  rw [if_neg notRoot]
  split
  · rename_i isThere
    rw [List.any_eq_true] at isThere
    rcases isThere with ⟨entry, isEntry, isHere⟩
    rw [List.find?_map]
    have found : (tree.nodes.find? ((fun entry => decide (entry.1 = location)) ∘ fun entry =>
        if entry.1 = location then (location, node) else entry)).isSome = true := by
      rw [List.find?_isSome]
      refine ⟨entry, isEntry, ?_⟩
      simp only [Function.comp_apply, of_decide_eq_true isHere, ↓reduceIte, decide_true]
    -- The first node found need not be `entry`, but it was put there as well.
    rcases Option.isSome_iff_exists.mp found with ⟨first, isFirst⟩
    have isPut := List.find?_some isFirst
    simp only [Function.comp_apply, decide_eq_true_eq] at isPut
    rw [isFirst, Option.map_some, Option.map_some]
    split
    · rfl
    · rename_i elsewhere
      rw [if_neg elsewhere] at isPut
      exact absurd isPut elsewhere
  · rename_i isMissing
    have noneFound : tree.nodes.find? (fun entry => decide (entry.1 = location)) = none := by
      rw [List.find?_eq_none]
      intro entry isEntry isHere
      exact isMissing (List.any_eq_true.mpr ⟨entry, isEntry, isHere⟩)
    simp [List.find?_append, noneFound]

theorem mem_nodes_put {entry : Location × Node}
    (isNode : entry ∈ (tree.put location node).nodes) :
    entry = (location, node) ∨ entry ∈ tree.nodes := by
  unfold put at isNode
  split at isNode
  · rcases List.mem_map.mp isNode with ⟨old, isOld, rfl⟩
    split
    · exact .inl rfl
    · exact .inr isOld
  · rcases List.mem_append.mp isNode with isOld | isNew
    · exact .inr isOld
    · exact .inl (List.mem_singleton.mp isNew)

/-- A node that takes no directory's place leaves all directories. -/
theorem isDirectoryAt_put (notRoot : location ≠ [])
    (keeps : tree.isDirectoryAt location = true → node = .directory)
    (isDirectory : tree.isDirectoryAt place = true) :
    (tree.put location node).isDirectoryAt place = true := by
  rw [isDirectoryAt_iff]
  by_cases here : place = location
  · subst here
    rw [at?_put_self tree notRoot, keeps isDirectory]
  · rw [at?_put_of_ne tree here]
    exact isDirectoryAt_iff.mp isDirectory

@[simp]
theorem workingDirectory_put (tree : FileTree) (location : Location) (node : Node) :
    (tree.put location node).workingDirectory = tree.workingDirectory := by
  unfold put
  split <;> rfl

theorem IsTree.put (isTree : tree.IsTree) (notRoot : location ≠ [])
    (areNames : ∀ name ∈ location, Path.IsName name)
    (within : tree.isDirectoryAt location.dropLast = true)
    (keeps : tree.isDirectoryAt location = true → node = .directory) :
    (tree.put location node).IsTree where
  distinct := by
    unfold FileTree.put
    split
    · have sameLocations : (tree.nodes.map fun entry =>
          if entry.1 = location then (location, node) else entry).map Prod.fst =
            tree.nodes.map Prod.fst := by
        rw [List.map_map]
        apply List.map_congr_left
        intro entry _
        simp only [Function.comp_apply]
        split
        · rename_i isHere
          exact isHere.symm
        · rfl
      rw [sameLocations]
      exact isTree.distinct
    · rename_i isMissing
      rw [List.map_append, List.nodup_append]
      refine ⟨isTree.distinct, by simp, ?_⟩
      intro known isKnown new isNew same
      rcases List.mem_map.mp isKnown with ⟨entry, isEntry, rfl⟩
      rw [List.map_singleton, List.mem_singleton] at isNew
      exact isMissing (List.any_eq_true.mpr
        ⟨entry, isEntry, decide_eq_true (same.trans isNew)⟩)
  areNames := by
    intro entry isNode
    rcases mem_nodes_put isNode with rfl | isOld
    · exact areNames
    · exact isTree.areNames entry isOld
  within := by
    intro entry isNode
    rcases mem_nodes_put isNode with rfl | isOld
    · exact isDirectoryAt_put notRoot keeps within
    · exact isDirectoryAt_put notRoot keeps (isTree.within entry isOld)
  startsInDirectory := by
    rw [workingDirectory_put]
    exact isDirectoryAt_put notRoot keeps isTree.startsInDirectory

/-- What stands in a tree already may be put there again. -/
theorem IsTree.put_of_at? (isTree : tree.IsTree) (notRoot : location ≠ [])
    (stands : tree.at? location = some node) : tree.put location node = tree := by
  have isNode := mem_nodes_of_at? notRoot stands
  have isThere : (tree.nodes.any fun entry => entry.1 = location) = true :=
    List.any_eq_true.mpr ⟨_, isNode, decide_eq_true rfl⟩
  have sameNodes : (tree.nodes.map fun entry =>
      if entry.1 = location then (location, node) else entry) = tree.nodes := by
    calc
      _ = tree.nodes.map id := by
        apply List.map_congr_left
        intro entry isEntry
        split
        · rename_i isHere
          exact List.inj_on_of_nodup_map isTree.distinct isNode isEntry isHere.symm
        · rfl
      _ = tree.nodes := List.map_id tree.nodes
  rw [FileTree.put, if_pos isThere, sameNodes]

/-! ## Walking along paths -/

/-- From a directory a segment leads to a directory, unless it is the name of an entry. -/
theorem IsTree.isDirectoryAt_enter_or_isName (isTree : tree.IsTree)
    (isDirectory : tree.isDirectoryAt location = true) {segment : Text} (noSlash : '/' ∉ segment) :
    tree.isDirectoryAt (location.enter segment) = true ∨
      Path.IsName segment ∧ location.enter segment = location ++ [segment] := by
  rw [Location.enter]
  split
  · exact .inl isDirectory
  split
  · exact .inl (isTree.isDirectoryAt_dropLast (isDirectoryAt_iff.mp isDirectory))
  · rename_i notIdle notAbove
    exact .inr ⟨⟨eq_false_of_ne_true notIdle, notAbove, noSlash⟩, rfl⟩

theorem walk_cons (isTree : tree.IsTree) (isDirectory : tree.isDirectoryAt location = true)
    (segment : Text) (rest : List Text) :
    tree.walk location (segment :: rest) =
      if (tree.at? (location.enter segment)).isSome then tree.walk (location.enter segment) rest
      else .error .notFound := by
  have above := isTree.isDirectoryAt_dropLast (isDirectoryAt_iff.mp isDirectory)
  rw [walk, isDirectory, Location.enter]
  rw [isDirectoryAt_iff] at isDirectory above
  by_cases isIdle : Path.isIdle segment = true
  · simp [isIdle, isDirectory]
  by_cases isAbove : segment = Path.above
  · subst isAbove
    simp [isIdle, above]
  · simp [isIdle, isAbove]

theorem makeDirectoriesFrom_cons (isTree : tree.IsTree)
    (isDirectory : tree.isDirectoryAt location = true) (segment : Text) (rest : List Text) :
    tree.makeDirectoriesFrom location (segment :: rest) =
      match tree.at? (location.enter segment) with
      | none =>
        (tree.put (location.enter segment) .directory).makeDirectoriesFrom
          (location.enter segment) rest
      | some .directory => tree.makeDirectoriesFrom (location.enter segment) rest
      | some (.file _) =>
        (tree, .error (if rest = [] then .alreadyExists else .notADirectory)) := by
  have above := isTree.isDirectoryAt_dropLast (isDirectoryAt_iff.mp isDirectory)
  rw [makeDirectoriesFrom, isDirectory, Location.enter]
  rw [isDirectoryAt_iff] at isDirectory above
  by_cases isIdle : Path.isIdle segment = true
  · simp [isIdle, isDirectory]
  by_cases isAbove : segment = Path.above
  · subst isAbove
    simp [isIdle, above]
  · cases stands : tree.at? (location ++ [segment]) with
    | none => simp [isIdle, isAbove, stands]
    | some node => cases node <;> simp [isIdle, isAbove, stands]

theorem walk_append (tree : FileTree) (location : Location) (earlier later : List Text) :
    tree.walk location (earlier ++ later) =
      tree.walk location earlier >>= fun location => tree.walk location later := by
  induction earlier generalizing location with
  | nil => rfl
  | cons segment rest ih =>
    simp only [List.cons_append, walk]
    split
    · rfl
    split
    · exact ih location
    split
    · exact ih location.dropLast
    split
    · exact ih (location ++ [segment])
    · rfl

/-- A walk through directories gets where the segments lead. -/
theorem walk_of_passed (isTree : tree.IsTree) {segments : List Text}
    (areDirectories : ∀ place ∈ location.passed segments, tree.isDirectoryAt place = true) :
    tree.walk location segments = .ok (location.resolve segments) := by
  induction segments generalizing location with
  | nil => rfl
  | cons segment rest ih =>
    rw [Location.passed, List.forall_mem_cons] at areDirectories
    have next := areDirectories.2 _ (Location.mem_passed_self _ rest)
    rw [walk_cons isTree areDirectories.1, isDirectoryAt_iff.mp next, ih areDirectories.2]
    rfl

/-- A walk that ends in a directory went through directories, to where the segments lead. -/
theorem of_walk_eq_ok (isTree : tree.IsTree) {segments : List Text}
    (walked : tree.walk location segments = .ok place)
    (isDirectory : tree.isDirectoryAt place = true) :
    location.resolve segments = place ∧
      ∀ passed ∈ location.passed segments, tree.isDirectoryAt passed = true := by
  induction segments generalizing location with
  | nil =>
    cases walked
    refine ⟨rfl, ?_⟩
    intro passed isPassed
    rwa [List.mem_singleton.mp isPassed]
  | cons segment rest ih =>
    cases starts : tree.isDirectoryAt location with
    | false =>
      rw [walk, starts] at walked
      cases walked
    | true =>
      rw [walk_cons isTree starts] at walked
      split at walked
      · rcases ih walked with ⟨leads, areDirectories⟩
        exact ⟨leads, List.forall_mem_cons.mpr ⟨starts, areDirectories⟩⟩
      · cases walked

/-- A path to a directory leads through directories, to where its segments lead. -/
theorem of_locate_eq_ok (isTree : tree.IsTree) {path : Path}
    (located : tree.locate path = .ok place) (isDirectory : tree.isDirectoryAt place = true) :
    path ≠ [] ∧ tree.place path = place ∧
      ∀ passed ∈ tree.way path, tree.isDirectoryAt passed = true := by
  rw [locate] at located
  split at located
  · cases located
  · rename_i notEmpty
    exact ⟨notEmpty, of_walk_eq_ok isTree located isDirectory⟩

/-! ## The order of entries -/

/-- A tree with the same nodes, which its directories list in another order. -/
structure IsReordering (other tree : FileTree) : Prop where
  sameNodes : other.nodes.Perm tree.nodes
  sameStart : other.workingDirectory = tree.workingDirectory

namespace IsReordering

variable {other : FileTree}

theorem at?_eq (isReordering : other.IsReordering tree) (isTree : tree.IsTree)
    (location : Location) : other.at? location = tree.at? location := by
  by_cases atRoot : location = []
  · rw [atRoot]
    rfl
  have distinct : (other.nodes.map Prod.fst).Nodup :=
    (isReordering.sameNodes.map Prod.fst).nodup_iff.mpr isTree.distinct
  apply Option.ext
  intro node
  rw [isTree.at?_eq_some_iff atRoot, at?_eq_some_iff_of_distinct distinct atRoot,
    isReordering.sameNodes.mem_iff]

theorem isDirectoryAt_eq (isReordering : other.IsReordering tree) (isTree : tree.IsTree)
    (location : Location) : other.isDirectoryAt location = tree.isDirectoryAt location := by
  rw [isDirectoryAt, isDirectoryAt, isReordering.at?_eq isTree]

theorem isTree (isReordering : other.IsReordering tree) (isTree : tree.IsTree) :
    other.IsTree where
  distinct := (isReordering.sameNodes.map Prod.fst).nodup_iff.mpr isTree.distinct
  areNames entry isNode := isTree.areNames entry (isReordering.sameNodes.mem_iff.mp isNode)
  within := by
    intro entry isNode
    rw [isReordering.isDirectoryAt_eq isTree]
    exact isTree.within entry (isReordering.sameNodes.mem_iff.mp isNode)
  startsInDirectory := by
    rw [isReordering.isDirectoryAt_eq isTree, isReordering.sameStart]
    exact isTree.startsInDirectory

/-- Paths lead to the same locations in whatever order directories list their entries. -/
theorem locate_eq (isReordering : other.IsReordering tree) (isTree : tree.IsTree) (path : Path) :
    other.locate path = tree.locate path := by
  have sameWalk : ∀ segments : List Text, ∀ location : Location,
      other.walk location segments = tree.walk location segments := by
    intro segments
    induction segments with
    | nil => exact fun _ => rfl
    | cons segment rest ih =>
      intro location
      simp only [walk, isReordering.isDirectoryAt_eq isTree, isReordering.at?_eq isTree, ih]
  rw [locate, locate, sameWalk, startOf, startOf, isReordering.sameStart]

end IsReordering

/-! ## Making directories -/

/-- A tree in which directories were made, at some of the given locations where nothing stood. -/
structure GrowsBy (tree : FileTree) (made : List Location) (after : FileTree) : Prop where
  isTree : after.IsTree
  sameStart : after.workingDirectory = tree.workingDirectory
  stays : ∀ location, after.at? location = tree.at? location ∨
    location ∈ made ∧ tree.at? location = none ∧ after.at? location = some .directory

namespace GrowsBy

variable {after : FileTree} {made : List Location}

theorem refl (isTree : tree.IsTree) (made : List Location) : tree.GrowsBy made tree :=
  ⟨isTree, rfl, fun _ => .inl rfl⟩

theorem trans {between : FileTree} {more : List Location} (first : tree.GrowsBy made between)
    (second : between.GrowsBy more after) (within : made ⊆ more) : tree.GrowsBy more after where
  isTree := second.isTree
  sameStart := second.sameStart.trans first.sameStart
  stays := by
    intro location
    rcases second.stays location with same | ⟨isMade, missing, isDirectory⟩
    · rw [same]
      rcases first.stays location with same | ⟨isMade, missing, isDirectory⟩
      · exact .inl same
      · exact .inr ⟨within isMade, missing, isDirectory⟩
    · rcases first.stays location with same | ⟨_, _, wasMade⟩
      · exact .inr ⟨isMade, same ▸ missing, isDirectory⟩
      · rw [missing] at wasMade
        cases wasMade

theorem mono {more : List Location} (grows : tree.GrowsBy made after) (within : made ⊆ more) :
    tree.GrowsBy more after :=
  grows.trans (refl grows.isTree more) within

theorem at?_of_some (grows : tree.GrowsBy made after) (stands : tree.at? location = some node) :
    after.at? location = some node := by
  rcases grows.stays location with same | ⟨_, missing, _⟩
  · rw [same, stands]
  · rw [stands] at missing
    cases missing

theorem isDirectoryAt (grows : tree.GrowsBy made after)
    (isDirectory : tree.isDirectoryAt location = true) : after.isDirectoryAt location = true :=
  isDirectoryAt_iff.mpr (grows.at?_of_some (isDirectoryAt_iff.mp isDirectory))

theorem isFileAt_iff (grows : tree.GrowsBy made after) (location : Location) :
    after.IsFileAt location ↔ tree.IsFileAt location := by
  unfold IsFileAt
  rcases grows.stays location with same | ⟨_, missing, isDirectory⟩
  · rw [same]
  · simp [missing, isDirectory]

end GrowsBy

theorem IsTree.growsBy_put_directory (isTree : tree.IsTree) (notRoot : location ≠ [])
    (areNames : ∀ name ∈ location, Path.IsName name)
    (within : tree.isDirectoryAt location.dropLast = true) (missing : tree.at? location = none) :
    tree.GrowsBy [location] (tree.put location .directory) where
  isTree := isTree.put notRoot areNames within fun _ => rfl
  sameStart := workingDirectory_put tree location _
  stays := by
    intro place
    by_cases here : place = location
    · subst here
      exact .inr ⟨List.mem_singleton_self place, missing, at?_put_self tree notRoot _⟩
    · exact .inl (at?_put_of_ne tree here _)

/-- What making directories along a way does: it adds the missing ones, unless a file is in the way.
-/
structure MakesWay (tree : FileTree) (way : List Location)
    (result : FileTree × Except FileError Unit) : Prop where
  grows : tree.GrowsBy way result.1
  ok_iff : result.2 = .ok () ↔ ∀ place ∈ way, ¬ tree.IsFileAt place
  areDirectories : result.2 = .ok () → ∀ place ∈ way, result.1.isDirectoryAt place = true

theorem MakesWay.cons {way : List Location} {result : FileTree × Except FileError Unit}
    (makes : tree.MakesWay way result) (isDirectory : tree.isDirectoryAt location = true) :
    tree.MakesWay (location :: way) result where
  grows := makes.grows.mono (List.subset_cons_self location way)
  ok_iff := by
    rw [List.forall_mem_cons, makes.ok_iff]
    exact (and_iff_right (not_isFileAt_of_isDirectoryAt isDirectory)).symm
  areDirectories := by
    intro isOk
    exact List.forall_mem_cons.mpr
      ⟨makes.grows.isDirectoryAt isDirectory, makes.areDirectories isOk⟩

theorem makesWay_makeDirectoriesFrom (isTree : tree.IsTree)
    (isDirectory : tree.isDirectoryAt location = true) {segments : List Text}
    (noSlash : ∀ segment ∈ segments, '/' ∉ segment) :
    tree.MakesWay (location.passed segments) (tree.makeDirectoriesFrom location segments) := by
  induction segments generalizing tree location with
  | nil =>
    refine ⟨.refl isTree _, ?_, ?_⟩
    · simp [makeDirectoriesFrom, Location.passed, not_isFileAt_of_isDirectoryAt isDirectory]
    · simp [makeDirectoriesFrom, Location.passed, isDirectory]
  | cons segment rest ih =>
    rw [List.forall_mem_cons] at noSlash
    rw [Location.passed, makeDirectoriesFrom_cons isTree isDirectory]
    -- What stands in the next place decides: nothing, a directory or a file.
    apply MakesWay.cons _ isDirectory
    have isPassed := Location.mem_passed_self (location.enter segment) rest
    have leads := isTree.isDirectoryAt_enter_or_isName isDirectory noSlash.1
    generalize location.enter segment = next at isPassed leads
    cases stands : tree.at? next with
    | none =>
      rcases leads with isThere | ⟨isName, rfl⟩
      · rw [isDirectoryAt_iff, stands] at isThere
        cases isThere
      have notRoot : location ++ [segment] ≠ [] :=
        List.append_ne_nil_of_right_ne_nil location (List.cons_ne_nil segment [])
      have areNames : ∀ name ∈ location ++ [segment], Path.IsName name := by
        rw [List.forall_mem_append, List.forall_mem_singleton]
        exact ⟨isTree.areNames_of_at? (isDirectoryAt_iff.mp isDirectory), isName⟩
      have grows := isTree.growsBy_put_directory notRoot areNames
        (List.dropLast_concat ▸ isDirectory) stands
      have makes := ih grows.isTree (isDirectoryAt_iff.mpr (at?_put_self tree notRoot _)) noSlash.2
      refine ⟨grows.trans makes.grows (by simpa using isPassed), ?_, makes.areDirectories⟩
      rw [makes.ok_iff]
      simp only [grows.isFileAt_iff]
    | some node =>
      cases node with
      | directory => exact ih isTree (isDirectoryAt_iff.mpr stands) noSlash.2
      | file content =>
        have notOk : ¬ (Except.error (if rest = [] then .alreadyExists else .notADirectory) :
            Except FileError Unit) = .ok () := by
          rintro ⟨⟩
        refine ⟨.refl isTree _, ?_, fun isOk => absurd isOk notOk⟩
        constructor
        · exact fun isOk => absurd isOk notOk
        · exact fun noFile => absurd ⟨content, stands⟩ (noFile next isPassed)

theorem isDirectoryAt_startOf (isTree : tree.IsTree) (path : Path) :
    tree.isDirectoryAt (tree.startOf path) = true := by
  rw [startOf]
  split
  · exact decide_eq_true rfl
  · exact isTree.startsInDirectory

/-- Making a directory adds those that are missing on the way, unless a file is in the way. -/
theorem makesWay_makeDirectories (isTree : tree.IsTree) (path : Path) :
    tree.MakesWay (tree.way path) (tree.makeDirectories path) := by
  rw [makeDirectories]
  split
  · rename_i isEmpty
    have isStart : ∀ place ∈ tree.way path, tree.isDirectoryAt place = true := by
      intro place onWay
      rw [isEmpty, mem_way_nil] at onWay
      rw [onWay]
      exact isTree.startsInDirectory
    refine ⟨.refl isTree _, ?_, fun _ => isStart⟩
    exact ⟨fun _ place onWay => not_isFileAt_of_isDirectoryAt (isStart place onWay), fun _ => rfl⟩
  · exact makesWay_makeDirectoriesFrom isTree (isDirectoryAt_startOf isTree path)
      fun _ => Path.slash_not_mem_of_mem_segments

/-- Where all directories are there, none is made. -/
theorem makeDirectories_of_way (isTree : tree.IsTree) {path : Path}
    (areDirectories : ∀ place ∈ tree.way path, tree.isDirectoryAt place = true) :
    tree.makeDirectories path = (tree, .ok ()) := by
  have fromLocation : ∀ segments : List Text, ∀ location : Location,
      (∀ place ∈ location.passed segments, tree.isDirectoryAt place = true) →
        tree.makeDirectoriesFrom location segments = (tree, .ok ()) := by
    intro segments
    induction segments with
    | nil => exact fun _ _ => rfl
    | cons segment rest ih =>
      intro location areDirectories
      rw [Location.passed, List.forall_mem_cons] at areDirectories
      have next := areDirectories.2 _ (Location.mem_passed_self _ rest)
      rw [makeDirectoriesFrom_cons isTree areDirectories.1, isDirectoryAt_iff.mp next]
      exact ih _ areDirectories.2
  rw [makeDirectories]
  split
  · rfl
  · exact fromLocation _ _ areDirectories

/-! ## Reading and writing files -/

section Files

variable {path : Path} {directories : List Text} {name : Text}

theorem place_eq_of_segments (tree : FileTree) (parts : Path.segments path = directories ++ [name])
    (isName : Path.IsName name) :
    tree.place path = (tree.startOf path).resolve directories ++ [name] := by
  rw [place, parts, Location.resolve_append, Location.resolve, List.foldl_cons, List.foldl_nil,
    Location.enter_of_isName _ isName]

theorem ne_nil_of_segments (parts : Path.segments path = directories ++ [name])
    (isName : Path.IsName name) : path ≠ [] := by
  rintro rfl
  have isLast := congrArg List.getLast? parts
  rw [List.getLast?_concat] at isLast
  cases isLast
  exact Bool.noConfusion isName.1

/-- A path through directories leads to what stands at its place. -/
theorem locate_of_way (isTree : tree.IsTree) (parts : Path.segments path = directories ++ [name])
    (isName : Path.IsName name)
    (areDirectories : ∀ place ∈ tree.way (Path.parent path), tree.isDirectoryAt place = true) :
    tree.locate path =
      if (tree.at? (tree.place path)).isSome then .ok (tree.place path) else .error .notFound := by
  have passed : ∀ place ∈ (tree.startOf path).passed directories,
      tree.isDirectoryAt place = true :=
    fun place isPassed => areDirectories place ((mem_way_parent parts isName).mpr isPassed)
  have holder := passed _ (Location.resolve_mem_passed _ directories)
  rw [locate, if_neg (ne_nil_of_segments parts isName), parts, walk_append,
    walk_of_passed isTree passed, place_eq_of_segments tree parts isName]
  change tree.walk _ [name] = _
  rw [walk_cons isTree holder, Location.enter_of_isName _ isName]
  rfl

theorem destination_of_way (isTree : tree.IsTree)
    (parts : Path.segments path = directories ++ [name]) (isName : Path.IsName name)
    (areDirectories : ∀ place ∈ tree.way (Path.parent path), tree.isDirectoryAt place = true) :
    tree.destination path =
      if tree.isDirectoryAt (tree.place path) then .error .isADirectory
      else .ok (tree.place path) := by
  have passed : ∀ place ∈ (tree.startOf path).passed directories,
      tree.isDirectoryAt place = true :=
    fun place isPassed => areDirectories place ((mem_way_parent parts isName).mpr isPassed)
  have holder := passed _ (Location.resolve_mem_passed _ directories)
  rw [destination, locate_of_way isTree parts isName areDirectories]
  by_cases stands : (tree.at? (tree.place path)).isSome = true
  · rw [if_pos stands]
  · have notDirectory : ¬ tree.isDirectoryAt (tree.place path) = true := by
      intro isDirectory
      rw [isDirectoryAt_iff.mp isDirectory] at stands
      exact stands rfl
    rw [place_eq_of_segments tree parts isName] at stands notDirectory ⊢
    rw [if_neg stands, if_neg notDirectory]
    simp only [ne_nil_of_segments parts isName, ↓reduceIte, parts, List.dropLast_concat,
      walk_of_passed isTree passed, bind, Except.bind, List.getLast?_concat, holder, isName.1,
      isName.2.1, stands, Bool.not_true, Bool.false_eq_true, decide_false, Bool.or_self]

/-- A file is written where its path leads, if the way there consists of directories and the place
is not a directory. -/
theorem writeBytes_of_way (isTree : tree.IsTree)
    (parts : Path.segments path = directories ++ [name]) (isName : Path.IsName name)
    (areDirectories : ∀ place ∈ tree.way (Path.parent path), tree.isDirectoryAt place = true)
    (content : Bytes) :
    tree.writeBytes path content =
      if tree.isDirectoryAt (tree.place path) then .error .isADirectory
      else .ok (tree.put (tree.place path) (.file content)) := by
  rw [writeBytes, destination_of_way isTree parts isName areDirectories]
  split <;> rfl

end Files

end FileTree

end LiterateMarkdown
