import LiterateMarkdown.Proofs.Site.Pages

/-!
# Writing pages

A file can be written together with the directories above it unless a file is on the way, or a
directory stands in its place or would have to be made there (`FileTree.CanHold`). Writing a page
below a directory then puts the file in place, makes the directories that are missing, and changes
nothing else (`Pages.write_of_canHold`). If it fails, it made directories at most
(`Pages.write_of_not_canHold`).
-/

namespace LiterateMarkdown

/-- The last segment of a path is the name of a file or a directory. -/
def Path.EndsInName (path : Path) : Prop :=
  ∃ directories name, segments path = directories ++ [name] ∧ IsName name

theorem Path.endsInName_below (root : Path) {names : List Text} (nonempty : names ≠ [])
    (areNames : ∀ name ∈ names, IsName name) : EndsInName (below root (Text.join ['/'] names)) :=
  ⟨_, _, segments_below_concat root nonempty areNames, areNames _ (List.getLast_mem nonempty)⟩

namespace FileTree

variable {tree after : FileTree} {location : Location}

theorem place_congr (sameStart : after.workingDirectory = tree.workingDirectory) (path : Path) :
    after.place path = tree.place path := by
  rw [place, place, startOf, startOf, sameStart]

theorem way_congr (sameStart : after.workingDirectory = tree.workingDirectory) (path : Path) :
    after.way path = tree.way path := by
  rw [way, way, startOf, startOf, sameStart]

/-- A path leads to a directory if all that it leads through are directories. -/
theorem locate_of_areDirectories (isTree : tree.IsTree) {path : Path} (notEmpty : path ≠ [])
    (areDirectories : ∀ place ∈ tree.way path, tree.isDirectoryAt place = true) :
    tree.locate path = .ok (tree.place path) := by
  rw [locate, if_neg notEmpty, walk_of_passed isTree areDirectories]
  rfl

/-- Nothing keeps a file from being written at a path, if the missing directories are made first. -/
structure CanHold (tree : FileTree) (path : Path) : Prop where
  noFile : ∀ location ∈ tree.way (Path.parent path), ¬ tree.IsFileAt location
  noDirectory : ¬ tree.isDirectoryAt (tree.place path) = true
  notOnWay : tree.place path ∉ tree.way (Path.parent path)

/-- What writing a file at a path comes to: the file, and directories that were missing above it. -/
structure Holds (tree : FileTree) (path : Path) (content : Bytes) (after : FileTree) : Prop where
  isTree : after.IsTree
  sameStart : after.workingDirectory = tree.workingDirectory
  written : after.at? (tree.place path) = some (.file content)
  stays : ∀ location, location ≠ tree.place path →
    after.at? location = tree.at? location ∨
      location ∈ tree.way (Path.parent path) ∧ tree.at? location = none ∧
        after.at? location = some .directory
  areDirectories : ∀ location ∈ tree.way (Path.parent path), after.isDirectoryAt location = true

/-- Once the way consists of directories, a file takes its place in the tree. -/
theorem holds_put {between : FileTree} {path : Path} (endsInName : Path.EndsInName path)
    (grows : tree.GrowsBy (tree.way (Path.parent path)) between)
    (areDirectories : ∀ location ∈ tree.way (Path.parent path),
      between.isDirectoryAt location = true)
    (noDirectory : ¬ between.isDirectoryAt (tree.place path) = true) (content : Bytes) :
    tree.Holds path content (between.put (tree.place path) (.file content)) := by
  rcases endsInName with ⟨directories, name, parts, isName⟩
  have isPlace := place_eq_of_segments tree parts isName
  have notRoot : tree.place path ≠ [] := by
    rw [isPlace]
    exact List.append_ne_nil_of_right_ne_nil _ (List.cons_ne_nil name [])
  have holder : between.isDirectoryAt (tree.place path).dropLast = true := by
    rw [isPlace, List.dropLast_concat]
    exact areDirectories _ ((mem_way_parent parts isName).mpr (Location.resolve_mem_passed _ _))
  have areNames : ∀ name ∈ tree.place path, Path.IsName name := by
    have areAbove := grows.isTree.areNames_of_at? (isDirectoryAt_iff.mp holder)
    rw [isPlace, List.dropLast_concat] at areAbove
    rw [isPlace, List.forall_mem_append, List.forall_mem_singleton]
    exact ⟨areAbove, isName⟩
  have keeps : between.isDirectoryAt (tree.place path) = true →
      Node.file content = .directory := fun isDirectory => absurd isDirectory noDirectory
  refine ⟨grows.isTree.put notRoot areNames holder keeps, ?_, at?_put_self between notRoot _, ?_,
    fun location onWay => isDirectoryAt_put notRoot keeps (areDirectories location onWay)⟩
  · rw [workingDirectory_put]
    exact grows.sameStart
  · intro location elsewhere
    rw [at?_put_of_ne between elsewhere]
    exact grows.stays location

end FileTree

namespace Pages

open FileTree

section Write

variable {files : FileTree} {root relative : Path} (isTree : files.IsTree)
  (endsInName : Path.EndsInName (Path.below root relative))
include isTree endsInName

/-- When the directories above a page can be made, the place of the page decides. -/
theorem write_of_noFile
    (noFile : ∀ location ∈ files.way (Path.parent (Path.below root relative)),
      ¬ files.IsFileAt location) (page : Text) :
    ∃ between,
      files.GrowsBy (files.way (Path.parent (Path.below root relative))) between ∧
      (∀ location ∈ files.way (Path.parent (Path.below root relative)),
        between.isDirectoryAt location = true) ∧
      write files root relative page =
        if between.isDirectoryAt (files.place (Path.below root relative)) then
          (between, .error (.system .isADirectory))
        else (between.put (files.place (Path.below root relative)) (.file (Utf8.encode page)),
          .ok ()) := by
  rcases endsInName with ⟨directories, name, parts, isName⟩
  have makes := makesWay_makeDirectories isTree (Path.parent (Path.below root relative))
  rcases made : files.makeDirectories (Path.parent (Path.below root relative)) with
    ⟨between, result⟩
  rw [made] at makes
  have isOk : result = .ok () := makes.ok_iff.mpr noFile
  subst isOk
  have areDirectories := makes.areDirectories rfl
  refine ⟨between, makes.grows, areDirectories, ?_⟩
  rw [← way_congr makes.grows.sameStart] at areDirectories
  have isWritten := writeBytes_of_way makes.grows.isTree parts isName areDirectories
    (Utf8.encode page)
  rw [place_congr makes.grows.sameStart] at isWritten
  simp only [write, made, writeText, isWritten]
  by_cases isDirectory : between.isDirectoryAt (files.place (Path.below root relative)) = true
  · simp only [isDirectory, ↓reduceIte]
  · simp only [isDirectory, Bool.false_eq_true, ↓reduceIte]

theorem write_of_canHold (canHold : files.CanHold (Path.below root relative)) (page : Text) :
    ∃ after, write files root relative page = (after, .ok ()) ∧
      files.Holds (Path.below root relative) (Utf8.encode page) after := by
  rcases write_of_noFile isTree endsInName canHold.noFile page with
    ⟨between, grows, areDirectories, isWritten⟩
  have noDirectory :
      ¬ between.isDirectoryAt (files.place (Path.below root relative)) = true := by
    rw [isDirectoryAt_iff]
    rcases grows.stays (files.place (Path.below root relative)) with same | ⟨onWay, _⟩
    · rw [same, ← isDirectoryAt_iff]
      exact canHold.noDirectory
    · exact absurd onWay canHold.notOnWay
  rw [if_neg noDirectory] at isWritten
  exact ⟨_, isWritten, holds_put endsInName grows areDirectories noDirectory _⟩

/-- Where a page cannot be written, directories are made at most. -/
theorem write_of_not_canHold (cannotHold : ¬ files.CanHold (Path.below root relative))
    (page : Text) :
    ∃ after cause, write files root relative page = (after, .error (.system cause)) ∧
      files.GrowsBy (files.way (Path.parent (Path.below root relative))) after := by
  by_cases noFile : ∀ location ∈ files.way (Path.parent (Path.below root relative)),
      ¬ files.IsFileAt location
  · rcases write_of_noFile isTree endsInName noFile page with
      ⟨between, grows, areDirectories, isWritten⟩
    -- The way is free, so a directory stands in the page's place, or was just made there.
    have isDirectory :
        between.isDirectoryAt (files.place (Path.below root relative)) = true := by
      by_contra notDirectory
      exact cannotHold ⟨noFile, fun isThere => notDirectory (grows.isDirectoryAt isThere),
        fun onWay => notDirectory (areDirectories _ onWay)⟩
    rw [if_pos isDirectory] at isWritten
    exact ⟨between, .isADirectory, isWritten, grows⟩
  · have makes := makesWay_makeDirectories isTree (Path.parent (Path.below root relative))
    rcases made : files.makeDirectories (Path.parent (Path.below root relative)) with
      ⟨between, result⟩
    rw [made] at makes
    cases result with
    | ok => exact absurd (makes.ok_iff.mp rfl) noFile
    | error cause =>
      refine ⟨between, cause, ?_, makes.grows⟩
      simp only [write, made]

/-- A page that stands in its place already is written without a change. -/
theorem write_of_written
    (areDirectories : ∀ location ∈ files.way (Path.parent (Path.below root relative)),
      files.isDirectoryAt location = true) {page : Text}
    (written : files.at? (files.place (Path.below root relative)) =
      some (.file (Utf8.encode page))) :
    write files root relative page = (files, .ok ()) := by
  rcases endsInName with ⟨directories, name, parts, isName⟩
  have noDirectory : ¬ files.isDirectoryAt (files.place (Path.below root relative)) = true :=
    fun isDirectory => not_isFileAt_of_isDirectoryAt isDirectory ⟨_, written⟩
  have notRoot : files.place (Path.below root relative) ≠ [] := by
    rw [place_eq_of_segments files parts isName]
    exact List.append_ne_nil_of_right_ne_nil _ (List.cons_ne_nil name [])
  have isWritten := writeBytes_of_way isTree parts isName areDirectories (Utf8.encode page)
  rw [if_neg noDirectory, isTree.put_of_at? notRoot written] at isWritten
  simp only [write, makeDirectories_of_way isTree areDirectories, writeText, isWritten]

end Write

end Pages

end LiterateMarkdown
