import LiterateMarkdown.Proofs.Files.Tree

/-!
# Writing and removing

A file is written where its path leads (`FileTree.place_eq_of_destination`), its path leads to it
afterwards, and what was written is read back (`FileTree.readText_of_writeText`). Removing a
location leaves what stands apart from it.
-/

namespace LiterateMarkdown

namespace FileTree

variable {tree : FileTree} {location place : Location} {content : Bytes}

/-! ## Removing -/

theorem at?_remove_of_isPrefix (tree : FileTree) (notRoot : place ≠ [])
    (below : location <+: place) : (tree.remove location).at? place = none := by
  rw [at?, if_neg notRoot, Option.map_eq_none_iff, List.find?_eq_none]
  intro entry isKept isHere
  have stays := (List.mem_filter.mp isKept).2
  rw [of_decide_eq_true isHere, List.isPrefixOf_iff_prefix.mpr below] at stays
  exact Bool.noConfusion stays

theorem at?_remove_of_not_isPrefix (tree : FileTree) (apart : ¬ location <+: place) :
    (tree.remove location).at? place = tree.at? place := by
  have keeps : ∀ entry : Location × Node, entry.1 = place →
      (!location.isPrefixOf entry.1) = true := by
    rintro entry rfl
    rw [Bool.not_eq_true', ← Bool.not_eq_true, List.isPrefixOf_iff_prefix]
    exact apart
  have sameFound : (tree.remove location).nodes.find? (fun entry => entry.1 = place) =
      tree.nodes.find? fun entry => entry.1 = place := by
    rw [remove, List.find?_filter]
    congr 1
    funext entry
    by_cases isHere : entry.1 = place
    · simp [isHere, ← keeps entry isHere]
    · simp [isHere]
  rw [at?, at?, sameFound]

@[simp]
theorem workingDirectory_remove (tree : FileTree) (location : Location) :
    (tree.remove location).workingDirectory = tree.workingDirectory :=
  rfl

/-! ## Where files are written -/

/-- A walk gets where the segments lead. -/
theorem resolve_eq_of_walk (isTree : tree.IsTree) {segments : List Text}
    (walked : tree.walk location segments = .ok place) : location.resolve segments = place := by
  induction segments generalizing location with
  | nil =>
    cases walked
    rfl
  | cons segment rest ih =>
    cases starts : tree.isDirectoryAt location with
    | false =>
      rw [walk, starts] at walked
      cases walked
    | true =>
      rw [walk_cons isTree starts] at walked
      split at walked
      · exact ih walked
      · cases walked

/-- A file is written where its path leads, in a directory and not in the place of one. -/
theorem of_destination_eq_ok {path : Path} (written : tree.destination path = .ok location) :
    tree.isDirectoryAt location = false ∧ path ≠ [] ∧
      (tree.locate path = .ok location ∨
        ∃ directories name parent, Path.segments path = directories ++ [name] ∧
          Path.isIdle name = false ∧ name ≠ Path.above ∧
          tree.walk (tree.startOf path) directories = .ok parent ∧
          tree.isDirectoryAt parent = true ∧ tree.at? (parent ++ [name]) = none ∧
          location = parent ++ [name]) := by
  have notEmpty : path ≠ [] := by
    rintro rfl
    cases written
  unfold destination at written
  cases located : tree.locate path with
  | ok found =>
    simp only [located] at written
    split at written
    · cases written
    · rename_i notDirectory
      cases written
      exact ⟨eq_false_of_ne_true notDirectory, notEmpty, .inl rfl⟩
  | error cause =>
    simp only [located, if_neg notEmpty, bind, Except.bind] at written
    cases walked : tree.walk (tree.startOf path) (Path.segments path).dropLast with
    | error cause => simp [walked] at written
    | ok parent =>
      cases isLast : (Path.segments path).getLast? with
      | none => simp [walked, isLast] at written
      | some name =>
        simp only [walked, isLast] at written
        split at written
        · cases written
        rename_i isDirectory
        split at written
        · cases written
        rename_i notIdle
        split at written
        · cases written
        rename_i isNew
        cases written
        simp only [Bool.or_eq_true, decide_eq_true_eq, not_or, Option.not_isSome_iff_eq_none]
          at isNew
        refine ⟨?_, notEmpty, .inr ⟨_, name, parent, ?_, eq_false_of_ne_true notIdle, isNew.1,
          walked, by simpa using isDirectory, isNew.2, rfl⟩⟩
        · simp [isDirectoryAt, isNew.2]
        · exact (List.dropLast_append_getLast? name isLast).symm

theorem place_eq_of_destination (isTree : tree.IsTree) {path : Path}
    (written : tree.destination path = .ok location) : tree.place path = location := by
  rcases of_destination_eq_ok written with
    ⟨_, notEmpty, located | ⟨directories, name, parent, parts, notIdle, notAbove, walked, _, _,
      rfl⟩⟩
  · rw [locate, if_neg notEmpty] at located
    exact resolve_eq_of_walk isTree located
  · have isParent := resolve_eq_of_walk isTree walked
    rw [place, parts, Location.resolve_append, isParent, Location.resolve, List.foldl_cons,
      List.foldl_nil, Location.enter, notIdle, if_neg Bool.false_ne_true, if_neg notAbove]

/-- A file can be written at a path that leads through directories to a name, unless it leads to a
directory. -/
theorem destination_eq_ok_iff (isTree : tree.IsTree) {path : Path} :
    tree.destination path = .ok location ↔
      (∃ directories name, Path.segments path = directories ++ [name] ∧ Path.IsName name ∧
        ∀ passed ∈ (tree.startOf path).passed directories, tree.isDirectoryAt passed = true) ∧
      tree.isDirectoryAt location = false ∧ tree.place path = location := by
  constructor
  · intro written
    refine ⟨?_, (of_destination_eq_ok written).1, place_eq_of_destination isTree written⟩
    rcases of_destination_eq_ok written with
      ⟨notDirectory, notEmpty, located | ⟨directories, name, parent, parts, notIdle, notAbove,
        walked, isDirectory, _, _⟩⟩
    · rcases List.eq_nil_or_concat' (Path.segments path) with isNil | ⟨directories, name, parts⟩
      · exact absurd isNil (Path.segments_ne_nil path)
      rw [locate, if_neg notEmpty, parts, walk_append] at located
      cases walked : tree.walk (tree.startOf path) directories with
      | error cause =>
        rw [walked] at located
        cases located
      | ok parent =>
        rw [walked] at located
        change tree.walk parent [name] = .ok location at located
        cases isDirectory : tree.isDirectoryAt parent with
        | false =>
          rw [walk, isDirectory] at located
          cases located
        | true =>
          have isSegment : name ∈ Path.segments path := by simp [parts]
          have noSlash := Path.slash_not_mem_of_mem_segments isSegment
          rw [walk_cons isTree isDirectory] at located
          split at located
          · cases located
            rcases isTree.isDirectoryAt_enter_or_isName isDirectory noSlash with leads | ⟨isName, _⟩
            · rw [notDirectory] at leads
              contradiction
            · exact ⟨directories, name, parts, isName, (of_walk_eq_ok isTree walked isDirectory).2⟩
          · cases located
    · have isSegment : name ∈ Path.segments path := by simp [parts]
      have noSlash := Path.slash_not_mem_of_mem_segments isSegment
      exact ⟨directories, name, parts, ⟨notIdle, notAbove, noSlash⟩,
        (of_walk_eq_ok isTree walked isDirectory).2⟩
  · rintro ⟨⟨directories, name, parts, isName, areDirectories⟩, notDirectory, rfl⟩
    rw [destination_of_way isTree parts isName, notDirectory]
    · rfl
    · intro passed onWay
      exact areDirectories passed ((mem_way_parent parts isName).mp onWay)

/-! ## Reading what was written -/

/-- A file that takes no directory's place is in the way of nothing. -/
theorem walk_put_file (notDirectory : tree.isDirectoryAt location = false) {start : Location}
    {segments : List Text} (walked : tree.walk start segments = .ok place) :
    (tree.put location (.file content)).walk start segments = .ok place := by
  have notRoot : location ≠ [] := by
    rintro rfl
    cases notDirectory
  have keeps : tree.isDirectoryAt location = true → Node.file content = .directory := by
    intro isDirectory
    rw [notDirectory] at isDirectory
    contradiction
  have stays : ∀ place, (tree.at? place).isSome = true →
      ((tree.put location (.file content)).at? place).isSome = true := by
    intro place stands
    by_cases here : place = location
    · rw [here, at?_put_self tree notRoot]
      rfl
    · rwa [at?_put_of_ne tree here]
  induction segments generalizing start with
  | nil => exact walked
  | cons segment rest ih =>
    rw [walk] at walked ⊢
    cases starts : tree.isDirectoryAt start with
    | false =>
      rw [starts] at walked
      cases walked
    | true =>
      rw [isDirectoryAt_put notRoot keeps starts]
      simp only [starts, Bool.not_true, Bool.false_eq_true, ↓reduceIte] at walked ⊢
      by_cases isIdle : Path.isIdle segment = true
      · rw [if_pos isIdle] at walked ⊢
        exact ih walked
      by_cases isAbove : segment = Path.above
      · rw [if_neg isIdle, if_pos isAbove] at walked ⊢
        exact ih walked
      rw [if_neg isIdle, if_neg isAbove] at walked ⊢
      split at walked
      · rename_i stands
        rw [if_pos (stays _ stands)]
        exact ih walked
      · cases walked

theorem startOf_put (tree : FileTree) (location : Location) (node : Node) (path : Path) :
    (tree.put location node).startOf path = tree.startOf path := by
  rw [startOf, startOf, workingDirectory_put]

/-- The path of a written file leads to it. -/
theorem locate_put_of_destination {path : Path} (written : tree.destination path = .ok location)
    (content : Bytes) : (tree.put location (.file content)).locate path = .ok location := by
  rcases of_destination_eq_ok written with ⟨notDirectory, notEmpty, located | isNew⟩
  · rw [locate, if_neg notEmpty] at located ⊢
    rw [startOf_put]
    exact walk_put_file notDirectory located
  · rcases isNew with
      ⟨directories, name, parent, parts, notIdle, notAbove, walked, isDirectory, _, rfl⟩
    have notRoot : parent ++ [name] ≠ [] :=
      List.append_ne_nil_of_right_ne_nil parent (List.cons_ne_nil name [])
    have holder : (tree.put (parent ++ [name]) (.file content)).isDirectoryAt parent = true := by
      rw [isDirectoryAt, at?_put_of_ne tree (by simp)]
      exact isDirectory
    rw [locate, if_neg notEmpty, startOf_put, parts, walk_append,
      walk_put_file notDirectory walked]
    simp [bind, Except.bind, walk, holder, notIdle, notAbove, at?_put_self tree notRoot]

theorem writeText_eq_ok_iff {path : Path} {text : Text} {after : FileTree} :
    tree.writeText path text = .ok after ↔
      ∃ location, tree.destination path = .ok location ∧
        after = tree.put location (.file (Utf8.encode text)) := by
  rw [writeText, writeBytes]
  cases tree.destination path with
  | error cause => simp [bind, Except.bind]
  | ok location => simp [bind, Except.bind, pure, Except.pure, eq_comm]

/-- What stands where a file was written is the file. -/
theorem at?_put_of_destination {path : Path} (written : tree.destination path = .ok location)
    (content : Bytes) :
    (tree.put location (.file content)).at? location = some (.file content) := by
  apply at?_put_self
  rintro rfl
  cases (of_destination_eq_ok written).1

/-- What was written to a file is read back. -/
theorem readText_of_writeText {path : Path} {text : Text} {after : FileTree}
    (written : tree.writeText path text = .ok after) : after.readText path = .ok text := by
  rcases writeText_eq_ok_iff.mp written with ⟨location, found, rfl⟩
  simp [readText, readBytes, bind, Except.bind, locate_put_of_destination found,
    at?_put_of_destination found, Utf8.decode?_encode]

theorem pathExists_of_writeText {path : Path} {text : Text} {after : FileTree}
    (written : tree.writeText path text = .ok after) : after.pathExists path = true := by
  rcases writeText_eq_ok_iff.mp written with ⟨location, found, rfl⟩
  rw [pathExists, locate_put_of_destination found]

/-- A file that was written can be written again. -/
theorem exists_writeText_of_writeText {path : Path} {text : Text} {after : FileTree}
    (written : tree.writeText path text = .ok after) (other : Text) :
    ∃ again, after.writeText path other = .ok again := by
  rcases writeText_eq_ok_iff.mp written with ⟨location, found, rfl⟩
  refine ⟨_, writeText_eq_ok_iff.mpr ⟨location, ?_, rfl⟩⟩
  rw [destination, locate_put_of_destination found]
  simp [isDirectoryAt, at?_put_of_destination found]

end FileTree

end LiterateMarkdown
