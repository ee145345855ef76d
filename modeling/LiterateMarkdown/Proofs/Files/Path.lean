import LiterateMarkdown.Files.Tree
import LiterateMarkdown.Proofs.Text.Lines
import Mathlib.Data.List.TakeWhile

/-!
# Paths and locations

A path is a sequence of segments, followed from where it begins. If nothing is in the way, it leads
to a location that does not hang on what stands in the tree (`FileTree.place`), through locations
that have to be directories (`FileTree.way`). A page below a directory is reached through this
directory (`FileTree.place_below`), and the directories that its path needs are those of the way to
it (`FileTree.mem_way_parent`).
-/

namespace LiterateMarkdown

namespace Path

/-- A text that can be the name of an entry in a directory. -/
def IsName (name : Text) : Prop :=
  isIdle name = false ∧ name ≠ above ∧ '/' ∉ name

instance : DecidablePred IsName :=
  fun name => inferInstanceAs (Decidable (isIdle name = false ∧ name ≠ above ∧ '/' ∉ name))

theorem slash_not_mem_of_mem_segments {path : Path} {segment : Text}
    (isSegment : segment ∈ segments path) : '/' ∉ segment :=
  Text.not_mem_of_mem_splitOn isSegment

/-- A path is absolute if its first segment is empty and not its only one. -/
theorem isAbsolute_of_segments {path : Path} {first : Text} {rest : List Text}
    (parts : segments path = first :: rest) :
    isAbsolute path = decide (first = [] ∧ rest ≠ []) := by
  have joined : path = Text.join ['/'] (first :: rest) := by
    rw [← parts]
    exact (Text.join_splitOn '/' path).symm
  have noSlash : '/' ∉ first := slash_not_mem_of_mem_segments (parts ▸ List.mem_cons_self)
  cases first with
  | nil => cases rest <;> simp [joined, isAbsolute, Text.join]
  | cons c first =>
    rw [List.mem_cons, not_or] at noSlash
    cases rest <;> simp [joined, isAbsolute, Text.join, Ne.symm noSlash.1]

/-! ## Paths below a path -/

/-- The segments of a path that goes on from `root`, which the empty path leaves out. -/
def segmentsFrom (root : Path) : List Text :=
  if root = [] then [] else segments root

theorem segments_snoc (root : Path) {name : Text} (noSlash : '/' ∉ name) :
    segments (if root = [] then name else root ++ '/' :: name) = segmentsFrom root ++ [name] := by
  unfold segmentsFrom segments
  split
  · exact Text.splitOn_of_not_mem noSlash
  · rw [Text.splitOn_append, Text.splitOn_of_not_mem noSlash]

theorem segments_foldl_snoc (root : Path) {names : List Text} (nonempty : names ≠ [])
    (areNames : ∀ name ∈ names, IsName name) :
    segments (names.foldl (fun path name => if path = [] then name else path ++ '/' :: name) root) =
      segmentsFrom root ++ names := by
  induction names generalizing root with
  | nil => contradiction
  | cons name rest ih =>
    rw [List.forall_mem_cons] at areNames
    have isSnoc := segments_snoc root areNames.1.2.2
    rw [List.foldl_cons]
    cases rest with
    | nil => exact isSnoc
    | cons next more =>
      have notEmpty : (if root = [] then name else root ++ '/' :: name) ≠ [] := by
        split
        · rintro rfl
          exact Bool.noConfusion areNames.1.1
        · simp
      rw [ih _ (List.cons_ne_nil next more) areNames.2, segmentsFrom, if_neg notEmpty, isSnoc,
        List.append_assoc, List.singleton_append]

/-- The segments of a page below `root` are those of `root` and the names of the page. -/
theorem segments_below (root : Path) {names : List Text} (nonempty : names ≠ [])
    (areNames : ∀ name ∈ names, IsName name) :
    segments (below root (Text.join ['/'] names)) = segmentsFrom root ++ names := by
  have parts : segments (Text.join ['/'] names) = names :=
    Text.splitOn_join nonempty fun name isName => (areNames name isName).2.2
  have allKept : names.filter (· ≠ []) = names := by
    rw [List.filter_eq_self]
    intro name isName
    have notIdle := (areNames name isName).1
    simp only [isIdle, Bool.or_eq_false_iff, decide_eq_false_iff_not] at notIdle
    exact decide_eq_true notIdle.1
  rw [below, parts, allKept]
  exact segments_foldl_snoc root nonempty areNames

theorem segments_below_concat (root : Path) {names : List Text} (nonempty : names ≠ [])
    (areNames : ∀ name ∈ names, IsName name) :
    segments (below root (Text.join ['/'] names)) =
      segmentsFrom root ++ names.dropLast ++ [names.getLast nonempty] := by
  rw [List.append_assoc, List.dropLast_concat_getLast nonempty]
  exact segments_below root nonempty areNames

theorem segments_ne_nil (path : Path) : segments path ≠ [] :=
  Text.splitOn_ne_nil '/' path

theorem isAbsolute_below (root : Path) {names : List Text} (nonempty : names ≠ [])
    (areNames : ∀ name ∈ names, IsName name) :
    isAbsolute (below root (Text.join ['/'] names)) = isAbsolute root := by
  have parts := segments_below root nonempty areNames
  unfold segmentsFrom at parts
  split at parts
  · rename_i isEmpty
    rcases List.exists_cons_of_ne_nil nonempty with ⟨name, rest, rfl⟩
    have notIdle := (areNames name List.mem_cons_self).1
    rw [isAbsolute_of_segments parts, isEmpty]
    rw [decide_eq_false]
    · rfl
    · rintro ⟨rfl, _⟩
      exact Bool.noConfusion notIdle
  · rename_i notEmpty
    rcases List.exists_cons_of_ne_nil (segments_ne_nil root) with ⟨first, rest, rootParts⟩
    rw [rootParts, List.cons_append] at parts
    rw [isAbsolute_of_segments parts, isAbsolute_of_segments rootParts, decide_eq_decide]
    constructor
    · rintro ⟨rfl, _⟩
      refine ⟨rfl, ?_⟩
      rintro rfl
      apply notEmpty
      rw [← Text.join_splitOn '/' root, ← segments, rootParts, Text.join]
    · rintro ⟨isEmpty, _⟩
      exact ⟨isEmpty, List.append_ne_nil_of_right_ne_nil _ nonempty⟩

/-! ## The path of the directory above -/

theorem segments_ofSegments {first : Text} {rest : List Text}
    (noSlash : ∀ segment ∈ first :: rest, '/' ∉ segment) :
    ofSegments (first :: rest) ≠ [] ∧
      segments (ofSegments (first :: rest)) =
        if first = [] ∧ rest = [] then [[], []] else first :: rest := by
  by_cases atRoot : first = [] ∧ rest = []
  · rw [if_pos atRoot, atRoot.1, atRoot.2]
    exact ⟨List.cons_ne_nil _ _, rfl⟩
  · have isJoined : ofSegments (first :: rest) = Text.join ['/'] (first :: rest) := by
      unfold ofSegments
      split
      · simp_all
      · rfl
    have joinedParts := Text.splitOn_join (List.cons_ne_nil first rest) noSlash
    rw [if_neg atRoot, isJoined]
    refine ⟨?_, joinedParts⟩
    intro isEmpty
    rw [isEmpty] at joinedParts
    simp only [Text.splitOn, List.cons.injEq] at joinedParts
    exact atRoot ⟨joinedParts.1.symm, joinedParts.2.symm⟩

/-- The path of the directory that holds what a path names: idle segments before the name are left
out, and the path of the root is a slash. -/
theorem segments_parent {path : Path} {first name : Text} {rest : List Text}
    (parts : segments path = first :: rest ++ [name]) (isName : IsName name) :
    ∃ kept idle, rest = kept ++ idle ∧ (∀ segment ∈ idle, isIdle segment = true) ∧
      parent path ≠ [] ∧
      segments (parent path) = if first = [] ∧ kept = [] then [[], []] else first :: kept := by
  have notIdle : ¬ isIdle name = true := by
    rw [isName.1]
    exact Bool.false_ne_true
  have isTrimmed : trimmed path = first :: rest ++ [name] := by
    rw [trimmed, parts]
    simp [notIdle]
  refine ⟨(rest.reverse.dropWhile isIdle).reverse, (rest.reverse.takeWhile isIdle).reverse,
    ?_, ?_, ?_⟩
  · rw [← List.reverse_append, List.takeWhile_append_dropWhile, List.reverse_reverse]
  · intro segment isSegment
    exact List.mem_takeWhile_imp (List.mem_reverse.mp isSegment)
  · generalize isKept : (rest.reverse.dropWhile isIdle).reverse = kept
    have keptSubset : ∀ segment ∈ kept, segment ∈ rest := by
      intro segment isSegment
      rw [← isKept] at isSegment
      exact List.mem_reverse.mp (List.dropWhile_subset isIdle (List.mem_reverse.mp isSegment))
    have noSlash : ∀ segment ∈ first :: kept, '/' ∉ segment := by
      intro segment isSegment
      apply @slash_not_mem_of_mem_segments path
      rw [parts, List.cons_append, List.mem_cons, List.mem_append]
      rcases List.mem_cons.mp isSegment with rfl | isLater
      · exact .inl rfl
      · exact .inr (.inl (keptSubset segment isLater))
    have isParent : parent path = ofSegments (first :: kept) := by
      rw [parent, isTrimmed, List.dropLast_concat]
      simp only [isKept]
    rw [isParent]
    exact segments_ofSegments noSlash

/-- A path and that of the directory above begin at the same place. -/
theorem isAbsolute_parent {path : Path} {first name : Text} {rest : List Text}
    (parts : segments path = first :: rest ++ [name]) (isName : IsName name) :
    isAbsolute (parent path) = isAbsolute path := by
  rcases segments_parent parts isName with ⟨kept, idle, _, _, _, parentParts⟩
  rw [isAbsolute_of_segments parts]
  split at parentParts
  · rename_i atRoot
    rw [isAbsolute_of_segments parentParts]
    simp [atRoot.1]
  · rename_i notAtRoot
    rw [isAbsolute_of_segments parentParts, decide_eq_decide]
    constructor
    · rintro ⟨isEmpty, _⟩
      exact ⟨isEmpty, List.append_ne_nil_of_right_ne_nil _ (List.cons_ne_nil name [])⟩
    · rintro ⟨isEmpty, _⟩
      exact ⟨isEmpty, fun noneKept => notAtRoot ⟨isEmpty, noneKept⟩⟩

theorem parent_of_segments_singleton {path : Path} {name : Text}
    (parts : segments path = [name]) : parent path = [] := by
  rw [parent, trimmed, parts]
  rfl

end Path

namespace Location

/-- Where a segment leads from a location, if nothing is in the way. -/
def enter (location : Location) (segment : Text) : Location :=
  if Path.isIdle segment then location
  else if segment = Path.above then location.dropLast
  else location ++ [segment]

/-- Where segments lead from a location, if nothing is in the way. -/
def resolve (location : Location) (segments : List Text) : Location :=
  segments.foldl enter location

/-- The locations on the way along segments, from the first one to the last. -/
def passed (location : Location) : List Text → List Location
  | [] => [location]
  | segment :: rest => location :: passed (location.enter segment) rest

theorem resolve_append (location : Location) (earlier later : List Text) :
    resolve location (earlier ++ later) = resolve (resolve location earlier) later :=
  List.foldl_append

theorem mem_passed_self (location : Location) (segments : List Text) :
    location ∈ passed location segments := by
  cases segments with
  | nil => exact List.mem_singleton_self location
  | cons segment rest => exact List.mem_cons_self

theorem resolve_mem_passed (location : Location) (segments : List Text) :
    resolve location segments ∈ passed location segments := by
  induction segments generalizing location with
  | nil => exact List.mem_singleton_self location
  | cons segment rest ih => exact List.mem_cons_of_mem _ (ih _)

theorem mem_passed_append {location place : Location} {earlier later : List Text} :
    place ∈ passed location (earlier ++ later) ↔
      place ∈ passed location earlier ∨ place ∈ passed (resolve location earlier) later := by
  induction earlier generalizing location with
  | nil =>
    simp only [List.nil_append, passed, List.mem_singleton, resolve, List.foldl_nil]
    constructor
    · exact .inr
    · rintro (rfl | isPassed)
      · exact mem_passed_self place later
      · exact isPassed
  | cons segment rest ih =>
    simp only [List.cons_append, passed, List.mem_cons, ih, or_assoc]
    rfl

theorem enter_of_isName (location : Location) {name : Text} (isName : Path.IsName name) :
    location.enter name = location ++ [name] := by
  rw [enter, isName.1, if_neg Bool.false_ne_true, if_neg isName.2.1]

theorem resolve_of_areNames (location : Location) {names : List Text}
    (areNames : ∀ name ∈ names, Path.IsName name) : resolve location names = location ++ names := by
  induction names generalizing location with
  | nil => exact (List.append_nil location).symm
  | cons name rest ih =>
    rw [List.forall_mem_cons] at areNames
    rw [resolve, List.foldl_cons, enter_of_isName location areNames.1, ← resolve,
      ih _ areNames.2, List.append_assoc, List.singleton_append]

/-- Names lead through the locations of the names so far. -/
theorem mem_passed_of_areNames {location place : Location} {names : List Text}
    (areNames : ∀ name ∈ names, Path.IsName name) :
    place ∈ passed location names ↔ ∃ some, some <+: names ∧ place = location ++ some := by
  induction names generalizing location with
  | nil => simp [passed]
  | cons name rest ih =>
    rw [List.forall_mem_cons] at areNames
    rw [passed, List.mem_cons, enter_of_isName location areNames.1, ih areNames.2]
    constructor
    · rintro (rfl | ⟨more, isPrefix, rfl⟩)
      · exact ⟨[], List.nil_prefix, (List.append_nil place).symm⟩
      · exact ⟨name :: more, List.cons_prefix_cons.mpr ⟨rfl, isPrefix⟩, by simp⟩
    · rintro ⟨more, isPrefix, rfl⟩
      cases more with
      | nil => exact .inl (List.append_nil location)
      | cons next more =>
        rcases List.cons_prefix_cons.mp isPrefix with ⟨rfl, moreIsPrefix⟩
        exact .inr ⟨more, moreIsPrefix, by simp⟩

theorem mem_passed_of_areIdle {location place : Location} {segments : List Text}
    (areIdle : ∀ segment ∈ segments, Path.isIdle segment = true) :
    place ∈ passed location segments ↔ place = location := by
  induction segments with
  | nil => exact List.mem_singleton
  | cons segment rest ih =>
    rw [List.forall_mem_cons] at areIdle
    rw [passed, List.mem_cons, enter, if_pos areIdle.1, ih areIdle.2, or_self]

/-- Idle segments at the end of a path lead nowhere else. -/
theorem mem_passed_append_of_areIdle {location place : Location} {earlier idle : List Text}
    (areIdle : ∀ segment ∈ idle, Path.isIdle segment = true) :
    place ∈ passed location (earlier ++ idle) ↔ place ∈ passed location earlier := by
  rw [mem_passed_append, mem_passed_of_areIdle areIdle]
  constructor
  · rintro (isPassed | rfl)
    · exact isPassed
    · exact resolve_mem_passed _ _
  · exact .inl

end Location

namespace FileTree

/-- The location that a path leads to, if nothing is in the way. -/
def place (tree : FileTree) (path : Path) : Location :=
  (tree.startOf path).resolve (Path.segments path)

/-- The locations on the way along a path, from where it begins to where it leads. -/
def way (tree : FileTree) (path : Path) : List Location :=
  (tree.startOf path).passed (Path.segments path)

theorem startOf_congr (tree : FileTree) {path other : Path}
    (same : Path.isAbsolute path = Path.isAbsolute other) :
    tree.startOf path = tree.startOf other := by
  rw [startOf, startOf, same]

theorem mem_way_nil {tree : FileTree} {location : Location} :
    location ∈ tree.way [] ↔ location = tree.workingDirectory := by
  apply Location.mem_passed_of_areIdle
  intro segment isSegment
  rw [List.mem_singleton.mp isSegment]
  rfl

/-- The way to the directory above leads through what is on the way before the name. -/
theorem mem_way_parent {tree : FileTree} {path : Path} {directories : List Text} {name : Text}
    (parts : Path.segments path = directories ++ [name]) (isName : Path.IsName name)
    {location : Location} :
    location ∈ tree.way (Path.parent path) ↔
      location ∈ (tree.startOf path).passed directories := by
  cases directories with
  | nil =>
    have relative : Path.isAbsolute path = false := by
      rw [Path.isAbsolute_of_segments parts]
      simp
    rw [Path.parent_of_segments_singleton parts, mem_way_nil, startOf, relative]
    exact List.mem_singleton.symm
  | cons first rest =>
    have sameStart := startOf_congr tree (Path.isAbsolute_parent parts isName)
    rcases Path.segments_parent parts isName with ⟨kept, idle, rfl, areIdle, _, parentParts⟩
    rw [way, sameStart, parentParts, ← List.cons_append,
      Location.mem_passed_append_of_areIdle areIdle]
    split
    -- The path of the root has two segments, and the second one is idle.
    · rename_i atRoot
      rw [atRoot.1, atRoot.2]
      simp [Location.passed, Location.enter, Path.isIdle]
    · rfl

variable {names : List Text}

theorem resolve_segmentsFrom (tree : FileTree) (root : Path) :
    (tree.startOf root).resolve (Path.segmentsFrom root) = tree.place root := by
  rw [place, Path.segmentsFrom]
  split
  · rename_i isEmpty
    rw [isEmpty]
    rfl
  · rfl

theorem mem_passed_segmentsFrom {tree : FileTree} {root : Path} {location : Location} :
    location ∈ (tree.startOf root).passed (Path.segmentsFrom root) ↔ location ∈ tree.way root := by
  rw [way, Path.segmentsFrom]
  split
  · rename_i isEmpty
    rw [isEmpty]
    exact List.mem_singleton.trans mem_way_nil.symm
  · rfl

theorem place_below (tree : FileTree) (root : Path) (nonempty : names ≠ [])
    (areNames : ∀ name ∈ names, Path.IsName name) :
    tree.place (Path.below root (Text.join ['/'] names)) = tree.place root ++ names := by
  rw [place, startOf_congr tree (Path.isAbsolute_below root nonempty areNames),
    Path.segments_below root nonempty areNames, Location.resolve_append, resolve_segmentsFrom,
    Location.resolve_of_areNames _ areNames]

/-- The directories that the path of a page below `root` needs are on the way to `root`, or lead
from there to the page. -/
theorem mem_way_parent_below {tree : FileTree} {root : Path} (nonempty : names ≠ [])
    (areNames : ∀ name ∈ names, Path.IsName name) {location : Location} :
    location ∈ tree.way (Path.parent (Path.below root (Text.join ['/'] names))) ↔
      location ∈ tree.way root ∨
        ∃ some, some <+: names.dropLast ∧ location = tree.place root ++ some := by
  have parts := Path.segments_below_concat root nonempty areNames
  have restAreNames : ∀ name ∈ names.dropLast, Path.IsName name :=
    fun name isName => areNames name (List.dropLast_subset names isName)
  rw [mem_way_parent parts (areNames _ (List.getLast_mem nonempty)),
    startOf_congr tree (Path.isAbsolute_below root nonempty areNames), Location.mem_passed_append,
    mem_passed_segmentsFrom, resolve_segmentsFrom, Location.mem_passed_of_areNames restAreNames]

end FileTree

end LiterateMarkdown
