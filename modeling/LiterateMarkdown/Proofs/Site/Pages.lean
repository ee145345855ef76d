import LiterateMarkdown.Proofs.Files.Tree
import LiterateMarkdown.Proofs.Text.Encoding
import LiterateMarkdown.Site.Pages
import Mathlib.Data.Char
import Mathlib.Data.List.Lex
import Mathlib.Data.List.Permutation

/-!
# Listing pages

The walk through a directory finds each page below it once (`Pages.mem_collect`,
`Pages.nodup_collect`), in an order that hangs on how the directories list their entries. Sorted by
the names of their paths, the pages are listed in one way only (`Pages.IsListing.unique`), whatever
the walk did. The path under which a page is listed leads from the root to the file that was found
(`Pages.read_of_isPage`).
-/

namespace LiterateMarkdown

/-- Lists with equal first items compare as their rests do, and others as their first items do. -/
theorem eq_or_lex_cons_iff {Item : Type} [DecidableEq Item] {before : Item → Item → Prop}
    (irreflexive : ∀ item, ¬ before item item) {first second : Item} {left right : List Item} :
    (first :: left = second :: right ∨ List.Lex before (first :: left) (second :: right)) ↔
      if first = second then left = right ∨ List.Lex before left right
      else before first second := by
  rw [List.cons_lex_cons_iff, List.cons.injEq]
  by_cases same : first = second
  · simp [same, irreflexive]
  · simp [same]

namespace Text

/-- One text comes before another one, as do the first characters in which they differ. -/
abbrev Precedes : Text → Text → Prop :=
  List.Lex (· < ·)

theorem isUpTo_iff {left right : Text} :
    isUpTo left right = true ↔ left = right ∨ Precedes left right := by
  induction left generalizing right with
  | nil => cases right <;> simp [isUpTo]
  | cons first left ih =>
    cases right with
    | nil => simp [isUpTo]
    | cons second right =>
      rw [isUpTo, eq_or_lex_cons_iff Char.lt_irrefl, ← ih]
      split
      · rfl
      · exact decide_eq_true_iff

theorem not_precedes_self (text : Text) : ¬ Precedes text text :=
  lt_irrefl (α := List Char) text

end Text

namespace Pages

/-- One path comes before another one, as do the first names in which they differ. -/
abbrev Precedes : Location → Location → Prop :=
  List.Lex Text.Precedes

theorem inOrder_iff {left right : Location} :
    inOrder left right = true ↔ left = right ∨ Precedes left right := by
  induction left generalizing right with
  | nil => cases right <;> simp [inOrder]
  | cons first left ih =>
    cases right with
    | nil => simp [inOrder]
    | cons second right =>
      rw [inOrder, eq_or_lex_cons_iff Text.not_precedes_self, ← ih]
      split
      · rfl
      · rename_i differ
        rw [Text.isUpTo_iff]
        exact or_iff_right differ

theorem inOrder_iff_le {left right : Location} :
    inOrder left right = true ↔ (left : List (List Char)) ≤ right := by
  rw [inOrder_iff, le_iff_eq_or_lt]
  rfl

/-- Two paths precede each other in one way at most. -/
theorem precedes_asymm {left right : Location} (precedes : Precedes left right) :
    ¬ Precedes right left :=
  lt_asymm (α := List (List Char)) precedes

/-- Sorted paths without repetitions precede each other. -/
theorem pairwise_precedes_mergeSort {pages : List Location} (once : pages.Nodup) :
    (pages.mergeSort inOrder).Pairwise Precedes := by
  have sorted : (pages.mergeSort inOrder).Pairwise fun left right => inOrder left right = true := by
    apply List.pairwise_mergeSort
    · intro first second third
      simp only [inOrder_iff_le]
      exact le_trans
    · intro left right
      simp only [Bool.or_eq_true, inOrder_iff_le]
      exact le_total left right
  have sortedOnce : (pages.mergeSort inOrder).Nodup :=
    (List.mergeSort_perm pages inOrder).nodup_iff.mpr once
  apply List.Pairwise.imp₂ _ sorted sortedOnce
  intro left right inOrder differ
  exact (inOrder_iff.mp inOrder).resolve_left differ

/-- A file below `base` whose name has something before a dot and the extension of pages. -/
def IsPage (files : FileTree) (base page : Location) : Prop :=
  files.IsFileAt (base ++ page) ∧
    ∃ directories stem, stem ≠ [] ∧ page = directories ++ [stem ++ ".md".toList]

theorem isPageName_iff {name : Text} :
    isPageName name = true ↔ ∃ stem, stem ≠ [] ∧ name = stem ++ ".md".toList := by
  rw [isPageName, decide_eq_true_eq]
  constructor
  · intro isExtension
    unfold Path.splitExtension at isExtension
    split at isExtension
    · rename_i stem extension parts
      split at isExtension
      · cases isExtension
      · rename_i nonempty
        cases isExtension
        exact ⟨stem, nonempty, Text.eq_of_splitAtLast parts⟩
    · cases isExtension
  · rintro ⟨stem, nonempty, rfl⟩
    have parts : Text.splitAtLast '.' (stem ++ ".md".toList) = some (stem, "md".toList) :=
      Text.splitAtLast_append_cons stem "md".toList (by decide)
    rw [Path.splitExtension, parts]
    simp only [nonempty, ↓reduceIte]

/-! ## The walk -/

variable {files : FileTree} {base directory page : Location}

/-- What the walk finds at an entry: the pages below it, or the page that it is. -/
def found (files : FileTree) (base place : Location) : List Location :=
  if files.isDirectoryAt (base ++ place) then collect files base place
  else if place.getLast?.any isPageName then [place]
  else []

theorem collect_eq (files : FileTree) (base directory : Location) :
    collect files base directory =
      (files.entries (base ++ directory)).flatMap fun name =>
        found files base (directory ++ [name]) := by
  rw [collect]
  simp [found]

theorem isPage_concat_iff {name : Text} :
    IsPage files base (directory ++ [name]) ↔
      files.IsFileAt (base ++ (directory ++ [name])) ∧ isPageName name = true := by
  rw [IsPage, isPageName_iff]
  refine and_congr_right fun _ => ?_
  constructor
  · rintro ⟨directories, stem, nonempty, same⟩
    exact ⟨stem, nonempty, (List.append_inj' same rfl).2 |> List.singleton_inj.mp⟩
  · rintro ⟨stem, nonempty, rfl⟩
    exact ⟨directory, stem, nonempty, rfl⟩

/-- What is found at an entry are the pages whose path leads through it. -/
theorem mem_found (isTree : files.IsTree) {name : Text} {node : Node}
    (stands : files.at? (base ++ (directory ++ [name])) = some node)
    (below : page ∈ collect files base (directory ++ [name]) ↔
      IsPage files base page ∧ ∃ more, more ≠ [] ∧ page = directory ++ [name] ++ more) :
    page ∈ found files base (directory ++ [name]) ↔
      IsPage files base page ∧ ∃ more, page = directory ++ [name] ++ more := by
  cases node with
  | directory =>
    have isDirectory := FileTree.isDirectoryAt_iff.mpr stands
    rw [found, if_pos isDirectory, below]
    -- A directory is no page, so the path of a page through it goes on.
    refine and_congr_right fun isPage => exists_congr fun more => and_iff_right_of_imp ?_
    rintro rfl rfl
    rw [List.append_nil] at isPage
    exact FileTree.not_isFileAt_of_isDirectoryAt isDirectory isPage.1
  | file content =>
    have notDirectory : ¬ files.isDirectoryAt (base ++ (directory ++ [name])) = true :=
      fun isDirectory => FileTree.not_isFileAt_of_isDirectoryAt isDirectory ⟨content, stands⟩
    have nothingBelow : ∀ more, IsPage files base (directory ++ [name] ++ more) → more = [] := by
      rintro more ⟨⟨content, isFile⟩, _⟩
      by_contra notEmpty
      rw [← List.append_assoc] at isFile
      exact notDirectory (isTree.isDirectoryAt_of_append notEmpty isFile)
    rw [found, if_neg notDirectory, List.getLast?_concat, Option.any_some]
    constructor
    · intro isFound
      split at isFound
      · rename_i isName
        cases List.mem_singleton.mp isFound
        exact ⟨isPage_concat_iff.mpr ⟨⟨content, stands⟩, isName⟩, [], (List.append_nil _).symm⟩
      · contradiction
    · rintro ⟨isPage, more, rfl⟩
      cases nothingBelow more isPage
      rw [List.append_nil] at isPage ⊢
      rw [if_pos (isPage_concat_iff.mp isPage).2]
      exact List.mem_singleton_self _

/-- The walk finds the pages below a directory. -/
theorem mem_collect (isTree : files.IsTree) :
    page ∈ collect files base directory ↔
      IsPage files base page ∧ ∃ more, more ≠ [] ∧ page = directory ++ more := by
  induction directory using collect.induct files base generalizing page with
  | case1 directory ih =>
    simp only [collect_eq, List.mem_flatMap]
    constructor
    · rintro ⟨name, isEntry, isFound⟩
      rcases isTree.mem_entries_iff.mp isEntry with ⟨node, stands⟩
      rw [List.append_assoc] at stands
      rcases (mem_found isTree stands (ih name isEntry)).mp isFound with ⟨isPage, more, rfl⟩
      exact ⟨isPage, name :: more, List.cons_ne_nil name more, by simp⟩
    · rintro ⟨isPage, more, nonempty, rfl⟩
      rcases List.exists_cons_of_ne_nil nonempty with ⟨name, rest, rfl⟩
      have isPath : directory ++ name :: rest = directory ++ [name] ++ rest :=
        List.append_cons directory name rest
      rw [isPath] at isPage ⊢
      rcases isPage.1 with ⟨content, isFile⟩
      rw [← List.append_assoc, ← List.append_assoc] at isFile
      rcases isTree.exists_at?_of_append isFile with ⟨node, stands⟩
      have isEntry := isTree.mem_entries_iff.mpr ⟨node, stands⟩
      rw [List.append_assoc] at stands
      exact ⟨name, isEntry, (mem_found isTree stands (ih name isEntry)).mpr ⟨isPage, rest, rfl⟩⟩

/-- The walk finds no page twice. -/
theorem nodup_collect (isTree : files.IsTree) : (collect files base directory).Nodup := by
  induction directory using collect.induct files base with
  | case1 directory ih =>
    rw [collect_eq, List.nodup_flatMap]
    constructor
    · intro name isEntry
      unfold found
      split
      · exact ih name isEntry
      split
      · exact List.nodup_singleton _
      · exact List.nodup_nil
    -- A page that two entries lead to would have both of their names at one place of its path.
    · have byNames : ∀ name ∈ files.entries (base ++ directory),
          ∀ page ∈ found files base (directory ++ [name]), ∃ more,
            page = directory ++ [name] ++ more := by
        intro name isEntry page isFound
        rcases isTree.mem_entries_iff.mp isEntry with ⟨node, stands⟩
        rw [List.append_assoc] at stands
        exact ((mem_found isTree stands (mem_collect isTree)).mp isFound).2
      apply List.Pairwise.imp_of_mem _ (isTree.nodup_entries (base ++ directory))
      intro first second isFirst isSecond differ page inFirst inSecond
      rcases byNames first isFirst page inFirst with ⟨more, rfl⟩
      rcases byNames second isSecond _ inSecond with ⟨other, same⟩
      simp only [List.append_assoc, List.append_cancel_left_eq, List.singleton_append,
        List.cons.injEq] at same
      exact differ same.1

/-! ## The list -/

/-- The pages below `base`, each once, in the order of their paths. -/
structure IsListing (files : FileTree) (base : Location) (pages : List Location) : Prop where
  mem_iff : ∀ page, page ∈ pages ↔ IsPage files base page
  once : pages.Nodup
  ordered : pages.Pairwise Precedes

theorem isPage_ne_nil (isDirectory : files.isDirectoryAt base = true)
    (isPage : IsPage files base page) : page ≠ [] := by
  rintro rfl
  rw [IsPage, List.append_nil] at isPage
  exact FileTree.not_isFileAt_of_isDirectoryAt isDirectory isPage.1

theorem isListing_locations (isTree : files.IsTree)
    (isDirectory : files.isDirectoryAt base = true) :
    IsListing files base (locations files base) where
  mem_iff := by
    intro page
    rw [locations, (List.mergeSort_perm _ inOrder).mem_iff, mem_collect isTree]
    constructor
    · exact And.left
    · intro isPage
      exact ⟨isPage, page, isPage_ne_nil isDirectory isPage, rfl⟩
  once := (List.mergeSort_perm _ inOrder).nodup_iff.mpr (nodup_collect isTree)
  ordered := pairwise_precedes_mergeSort (nodup_collect isTree)

/-- Pages are listed in one way. -/
theorem IsListing.unique {pages others : List Location} (isListing : IsListing files base pages)
    (isOther : IsListing files base others) : pages = others := by
  apply List.Perm.eq_of_pairwise _ isListing.ordered isOther.ordered
  · rw [List.perm_ext_iff_of_nodup isListing.once isOther.once]
    intro page
    rw [isListing.mem_iff, isOther.mem_iff]
  · intro left right _ _ precedes follows
    exact absurd follows (precedes_asymm precedes)

theorem areNames_of_isPage (isTree : files.IsTree) (isPage : IsPage files base page) :
    ∀ name ∈ page, Path.IsName name := by
  rcases isPage.1 with ⟨content, isFile⟩
  intro name isName
  exact isTree.areNames_of_at? isFile name (List.mem_append_right base isName)

/-- The way to a page leads through directories. -/
theorem isDirectoryAt_of_isPage (isTree : files.IsTree) (isPage : IsPage files base page)
    (nonempty : page ≠ []) {some : Location} (isPrefix : some <+: page.dropLast) :
    files.isDirectoryAt (base ++ some) = true := by
  rcases isPage.1 with ⟨content, isFile⟩
  rcases isPrefix with ⟨more, isMore⟩
  have isPath : base ++ page = base ++ some ++ (more ++ [page.getLast nonempty]) := by
    rw [List.append_assoc, ← List.append_assoc some, isMore, List.dropLast_concat_getLast]
  rw [isPath] at isFile
  exact isTree.isDirectoryAt_of_append
    (List.append_ne_nil_of_right_ne_nil more (List.cons_ne_nil _ [])) isFile

variable {root : Path}

/-- The path of a page leads to its file. -/
theorem locate_of_isPage (isTree : files.IsTree) (located : files.locate root = .ok base)
    (isDirectory : files.isDirectoryAt base = true) (isPage : IsPage files base page) :
    files.locate (Path.below root (relativePath page)) = .ok (base ++ page) := by
  have nonempty := isPage_ne_nil isDirectory isPage
  have areNames := areNames_of_isPage isTree isPage
  rcases FileTree.of_locate_eq_ok isTree located isDirectory with ⟨_, isPlace, areDirectories⟩
  have wayToPage : ∀ place ∈ files.way (Path.parent (Path.below root (Text.join ['/'] page))),
      files.isDirectoryAt place = true := by
    intro place onWay
    rcases (FileTree.mem_way_parent_below nonempty areNames).mp onWay with
      toRoot | ⟨some, isPrefix, rfl⟩
    · exact areDirectories place toRoot
    · rw [isPlace]
      exact isDirectoryAt_of_isPage isTree isPage nonempty isPrefix
  rcases isPage.1 with ⟨content, isFile⟩
  rw [relativePath,
    FileTree.locate_of_way isTree (Path.segments_below_concat root nonempty areNames)
      (areNames _ (List.getLast_mem nonempty)) wayToPage,
    FileTree.place_below files root nonempty areNames, isPlace, isFile]
  rfl

/-- What reading a file with some content gives. -/
def textOf (content : Bytes) : Except PageError Text :=
  match Utf8.decode? content with
  | some text => .ok text
  | none => .error (.system .notText)

theorem textOf_eq_ok_iff {content : Bytes} {text : Text} :
    textOf content = .ok text ↔ content = Utf8.encode text := by
  rw [← Utf8.decode?_eq_some_iff, textOf]
  cases Utf8.decode? content <;> simp

/-- Reading a page reads the file that was found. -/
theorem read_of_isPage (isTree : files.IsTree) (located : files.locate root = .ok base)
    (isDirectory : files.isDirectoryAt base = true) (isPage : IsPage files base page)
    {content : Bytes} (isFile : files.at? (base ++ page) = some (.file content)) :
    read files root (relativePath page) = textOf content := by
  have isLocated := locate_of_isPage isTree located isDirectory isPage
  have isThere : files.pathExists (Path.below root (relativePath page)) = true := by
    rw [FileTree.pathExists, isLocated]
  have isRead : files.readBytes (Path.below root (relativePath page)) = .ok content := by
    simp only [FileTree.readBytes, isLocated, bind, Except.bind, isFile]
  simp only [read, isThere, Bool.not_true, Bool.false_eq_true, ↓reduceIte, FileTree.readText,
    isRead, bind, Except.bind, textOf]
  cases Utf8.decode? content <;> rfl

theorem scanPages_eq (located : files.locate root = .ok base)
    (isDirectory : files.isDirectoryAt base = true) :
    scanPages files root = .ok ((locations files base).map relativePath) := by
  simp only [scanPages, scan, located, isDirectory, ↓reduceIte, Except.map]

/--
Each page below a directory is listed once, in the order of the names on the paths, and in whatever
order the directories list their entries. Reading it below the same directory reads its file.
-/
theorem scanPages_isListing (isTree : files.IsTree) (located : files.locate root = .ok base)
    (isDirectory : files.isDirectoryAt base = true) :
    ∃ pages, IsListing files base pages ∧
      (∀ other : FileTree, other.IsReordering files →
        scanPages other root = .ok (pages.map relativePath)) ∧
      ∀ page ∈ pages, ∀ content, files.at? (base ++ page) = some (.file content) →
        read files root (relativePath page) = textOf content := by
  have isListing := isListing_locations isTree isDirectory
  refine ⟨locations files base, isListing, ?_, ?_⟩
  · intro other isReordering
    have otherDirectory : other.isDirectoryAt base = true := by
      rwa [isReordering.isDirectoryAt_eq isTree]
    have otherListing := isListing_locations (isReordering.isTree isTree) otherDirectory
    have sameListing : IsListing files base (locations other base) := by
      refine ⟨fun page => ?_, otherListing.once, otherListing.ordered⟩
      rw [otherListing.mem_iff, IsPage, FileTree.IsFileAt, isReordering.at?_eq isTree]
      rfl
    rw [scanPages_eq ((isReordering.locate_eq isTree root).trans located) otherDirectory,
      isListing.unique sameListing]
  · intro page isListed content isFile
    exact read_of_isPage isTree located isDirectory ((isListing.mem_iff page).mp isListed) isFile

/-- Pages beside a directory that is named like a page, a hidden file and a file that is no page. -/
def sampleTree : FileTree where
  nodes :=
    [ (["docs".toList], .directory),
      (["docs".toList, "x.md".toList], .directory),
      (["docs".toList, ".md".toList], .file []),
      (["docs".toList, "a.md".toList], .file (Utf8.encode "A".toList)),
      (["docs".toList, "a".toList], .directory),
      (["docs".toList, "x.md".toList, "y.md".toList], .file [0xff]),
      (["docs".toList, "t.txt".toList], .file []),
      (["docs".toList, "a".toList, "b.md".toList], .file (Utf8.encode "B".toList)) ]

theorem isTree_sampleTree : sampleTree.IsTree where
  distinct := by decide +kernel
  areNames := by decide +kernel
  within := by decide +kernel
  startsInDirectory := by decide +kernel

/-- The page in the directory comes before the one beside it, and one of the pages is no text. -/
theorem scanPages_isListing_sample :
    sampleTree.IsTree ∧ sampleTree.locate "docs".toList = .ok ["docs".toList] ∧
      sampleTree.isDirectoryAt ["docs".toList] = true ∧
      scanPages sampleTree "docs".toList =
        .ok ["a/b.md".toList, "a.md".toList, "x.md/y.md".toList] ∧
      read sampleTree "docs".toList "x.md/y.md".toList = .error (.system .notText) ∧
      ∃ pages, IsListing sampleTree ["docs".toList] pages ∧
        (∀ other : FileTree, other.IsReordering sampleTree →
          scanPages other "docs".toList = .ok (pages.map relativePath)) ∧
        ∀ page ∈ pages, ∀ content,
          sampleTree.at? (["docs".toList] ++ page) = some (.file content) →
            read sampleTree "docs".toList (relativePath page) = textOf content := by
  have located : sampleTree.locate "docs".toList = .ok ["docs".toList] := by decide +kernel
  have isDirectory : sampleTree.isDirectoryAt ["docs".toList] = true := by decide +kernel
  exact ⟨isTree_sampleTree, located, isDirectory, by cbv, by decide +kernel,
    scanPages_isListing isTree_sampleTree located isDirectory⟩

end Pages

end LiterateMarkdown
