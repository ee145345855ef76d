import LiterateMarkdown.CommandLine.Run
import LiterateMarkdown.Proofs.LineFilter.Scan
import LiterateMarkdown.Proofs.Site.Writing

/-!
# Building a site

A build filters the pages one after the other, in the order in which they are listed, from one
directory into another one. If neither directory lies in the other, no page that is written is a
page to be read, and none is in the way of another one: a page can be read and written in the middle
of a build exactly if it can be at the beginning (`Publishes.keepsLayout`, `Publishes.canHold_iff`).
So a build gets to the first page for which this fails, and has written the pages before it
(`CommandLine.buildSite_outcome`).
-/

namespace LiterateMarkdown

open FileTree Pages

namespace Site

/-- Pages are in a directory, and neither it nor the directory of the site lies in the other one. -/
structure Layout (config : Config) (files : FileTree) (docs : Location) : Prop where
  isTree : files.IsTree
  located : files.locate config.docsPath = .ok docs
  isDirectory : files.isDirectoryAt docs = true
  docsOutside : ¬ files.place config.sitePath <+: docs
  siteOutside : ¬ docs <+: files.place config.sitePath

/-- The path to which a page is filtered. -/
def outputPath (config : Config) (page : Location) : Path :=
  Path.below config.sitePath (relativePath page)

/-- A page is text, and nothing keeps a file from being written at the path that it is filtered to.
-/
structure CanPublish (config : Config) (files : FileTree) (docs page : Location) : Prop where
  isText : ∃ text, files.at? (docs ++ page) = some (.file (Utf8.encode text))
  canHold : files.CanHold (outputPath config page)

/-- A system in which some pages have been filtered into the site, and nothing else has changed but
that directories were made that these pages or others of the site need. -/
structure Publishes (programs : Programs) (config : Config) (before : System) (docs : Location)
    (pages : List Location) (after : System) : Prop where
  isTree : after.files.IsTree
  sameStart : after.files.workingDirectory = before.files.workingDirectory
  samePrinted : after.printed = before.printed
  canPublish : ∀ page ∈ pages,
    IsPage before.files docs page ∧ CanPublish config before.files docs page
  written : ∀ page ∈ pages, ∃ text filtered,
    before.files.at? (docs ++ page) = some (.file (Utf8.encode text)) ∧
      filterPage programs config before text = (before, .ok filtered) ∧
      after.files.at? (before.files.place config.sitePath ++ page) =
        some (.file (Utf8.encode filtered))
  areDirectories : ∀ page ∈ pages,
    ∀ location ∈ before.files.way (Path.parent (outputPath config page)),
      after.files.isDirectoryAt location = true
  stays : ∀ location, (∀ page ∈ pages, location ≠ before.files.place config.sitePath ++ page) →
    after.files.at? location = before.files.at? location ∨
      (∃ page, IsPage before.files docs page ∧
        location ∈ before.files.way (Path.parent (outputPath config page))) ∧
      before.files.at? location = none ∧ after.files.at? location = some .directory

section Output

variable {config : Config} {files : FileTree} {docs : Location} {page other : Location}

namespace Layout

variable (layout : Layout config files docs)
include layout

theorem append_ne (page other : Location) :
    docs ++ page ≠ files.place config.sitePath ++ other := by
  intro same
  rcases List.prefix_or_prefix_of_prefix (List.prefix_append docs page)
      (same ▸ List.prefix_append _ other) with isPrefix | isPrefix
  · exact layout.siteOutside isPrefix
  · exact layout.docsOutside isPrefix

theorem place_outputPath (isPage : IsPage files docs page) :
    files.place (outputPath config page) = files.place config.sitePath ++ page :=
  place_below files config.sitePath (isPage_ne_nil layout.isDirectory isPage)
    (areNames_of_isPage layout.isTree isPage)

theorem endsInName_outputPath (isPage : IsPage files docs page) :
    Path.EndsInName (outputPath config page) :=
  Path.endsInName_below config.sitePath (isPage_ne_nil layout.isDirectory isPage)
    (areNames_of_isPage layout.isTree isPage)

/-- A page does not stand on the way to another one, unless it is on the way to itself. -/
theorem mem_way_outputPath (isPage : IsPage files docs page) (isOther : IsPage files docs other)
    (onWay : files.place (outputPath config page) ∈
      files.way (Path.parent (outputPath config other))) :
    files.place (outputPath config page) ∈ files.way (Path.parent (outputPath config page)) := by
  have otherNonempty := isPage_ne_nil layout.isDirectory isOther
  rcases (mem_way_parent_below otherNonempty (areNames_of_isPage layout.isTree isOther)).mp onWay
    with toSite | ⟨some, isPrefix, same⟩
  · exact (mem_way_parent_below (isPage_ne_nil layout.isDirectory isPage)
      (areNames_of_isPage layout.isTree isPage)).mpr (.inl toSite)
  · rw [layout.place_outputPath isPage, List.append_cancel_left_eq] at same
    subst same
    have isAbove := isDirectoryAt_of_isPage layout.isTree isOther otherNonempty isPrefix
    exact absurd isPage.1 (not_isFileAt_of_isDirectoryAt isAbove)

/-- A page is read if it is text. -/
theorem read_eq_ok_iff (isPage : IsPage files docs page) {text : Text} :
    Pages.read files config.docsPath (relativePath page) = .ok text ↔
      files.at? (docs ++ page) = some (.file (Utf8.encode text)) := by
  rcases isPage.1 with ⟨content, isFile⟩
  rw [read_of_isPage layout.isTree layout.located layout.isDirectory isPage isFile,
    textOf_eq_ok_iff, isFile, Option.some.injEq, Node.file.injEq]

end Layout

end Output

namespace Publishes

variable {programs : Programs} {config : Config} {before now : System} {docs page : Location}
  {done : List Location} (layout : Layout config before.files docs)
  (publishes : Publishes programs config before docs done now)

theorem initial (isTree : before.files.IsTree) :
    Publishes programs config before docs [] before :=
  ⟨isTree, rfl, rfl, by simp, by simp, by simp, fun _ _ => .inl rfl⟩

include publishes

theorem isFileAt_iff {location : Location}
    (notWritten : ∀ page ∈ done, location ≠ before.files.place config.sitePath ++ page) :
    now.files.IsFileAt location ↔ before.files.IsFileAt location := by
  unfold IsFileAt
  rcases publishes.stays location notWritten with same | ⟨_, missing, isMade⟩
  · rw [same]
  · simp [missing, isMade]

/-- What is made on the way to a page is what the pages need. -/
theorem stays_of_stays (isPage : IsPage before.files docs page) {after : FileTree}
    {location : Location}
    (notWritten : ∀ page ∈ done, location ≠ before.files.place config.sitePath ++ page)
    (stays : after.at? location = now.files.at? location ∨
      location ∈ now.files.way (Path.parent (outputPath config page)) ∧
        now.files.at? location = none ∧ after.at? location = some .directory) :
    after.at? location = before.files.at? location ∨
      (∃ page, IsPage before.files docs page ∧
        location ∈ before.files.way (Path.parent (outputPath config page))) ∧
      before.files.at? location = none ∧ after.at? location = some .directory := by
  rw [way_congr publishes.sameStart] at stays
  rcases stays with same | ⟨onWay, missing, isMade⟩
  · rw [same]
    exact publishes.stays location notWritten
  · rcases publishes.stays location notWritten with same | ⟨_, _, wasMade⟩
    · exact .inr ⟨⟨page, isPage, onWay⟩, same ▸ missing, isMade⟩
    · rw [missing] at wasMade
      cases wasMade

/-- Directories made on the way to a page change nothing about the pages that were written. -/
theorem grow (isPage : IsPage before.files docs page) {after : FileTree}
    (grows : now.files.GrowsBy (now.files.way (Path.parent (outputPath config page))) after) :
    Publishes programs config before docs done { now with files := after } where
  isTree := grows.isTree
  sameStart := grows.sameStart.trans publishes.sameStart
  samePrinted := publishes.samePrinted
  canPublish := publishes.canPublish
  written := by
    intro other isDone
    rcases publishes.written other isDone with ⟨text, filtered, isText, isFiltered, isWritten⟩
    exact ⟨text, filtered, isText, isFiltered, grows.at?_of_some isWritten⟩
  areDirectories := fun other isDone location onWay =>
    grows.isDirectoryAt (publishes.areDirectories other isDone location onWay)
  stays := fun location notWritten =>
    publishes.stays_of_stays isPage notWritten (grows.stays location)

include layout

/-- A directory is not in the place of a page that was written. -/
theorem isDirectoryAt {location : Location}
    (isDirectory : before.files.isDirectoryAt location = true) :
    now.files.isDirectoryAt location = true := by
  rw [isDirectoryAt_iff]
  have notWritten : ∀ page ∈ done, location ≠ before.files.place config.sitePath ++ page := by
    rintro page isDone rfl
    rw [← layout.place_outputPath (publishes.canPublish page isDone).1] at isDirectory
    exact (publishes.canPublish _ isDone).2.canHold.noDirectory isDirectory
  rcases publishes.stays location notWritten with same | ⟨_, _, isMade⟩
  · rw [same]
    exact isDirectoryAt_iff.mp isDirectory
  · exact isMade

/-- The pages to be read are those at the beginning. -/
theorem isPage_iff : IsPage now.files docs page ↔ IsPage before.files docs page := by
  have isFile := publishes.isFileAt_iff fun other _ => layout.append_ne page other
  rw [IsPage, IsPage, isFile]

/-- The directories are where they were. -/
theorem keepsLayout : Layout config now.files docs := by
  rcases of_locate_eq_ok layout.isTree layout.located layout.isDirectory with
    ⟨notEmpty, isPlace, areDirectories⟩
  have samePlace := place_congr publishes.sameStart config.sitePath
  refine ⟨publishes.isTree, ?_, publishes.isDirectoryAt layout layout.isDirectory,
    samePlace ▸ layout.docsOutside, samePlace ▸ layout.siteOutside⟩
  rw [locate_of_areDirectories publishes.isTree notEmpty, place_congr publishes.sameStart, isPlace]
  intro location onWay
  rw [way_congr publishes.sameStart] at onWay
  exact publishes.isDirectoryAt layout (areDirectories location onWay)

/-- A page is read as it was at the beginning. -/
theorem read_eq (isPage : IsPage before.files docs page) :
    Pages.read now.files config.docsPath (relativePath page) =
      Pages.read before.files config.docsPath (relativePath page) := by
  have nowLayout := publishes.keepsLayout layout
  rcases isPage.1 with ⟨content, isFile⟩
  have isFileNow : now.files.at? (docs ++ page) = some (.file content) := by
    rcases publishes.stays _ fun other _ => layout.append_ne page other with same | ⟨_, missing, _⟩
    · rw [same, isFile]
    · rw [isFile] at missing
      cases missing
  rw [read_of_isPage layout.isTree layout.located layout.isDirectory isPage isFile,
    read_of_isPage nowLayout.isTree nowLayout.located nowLayout.isDirectory
      ((publishes.isPage_iff layout).mpr isPage) isFileNow]

/-- A page that has not been written can be written if it could be at the beginning. -/
theorem canHold_iff (isPage : IsPage before.files docs page) (notDone : page ∉ done) :
    now.files.CanHold (outputPath config page) ↔
      before.files.CanHold (outputPath config page) := by
  have isPlace := layout.place_outputPath isPage
  have notWritten : ∀ other ∈ done,
      before.files.place (outputPath config page) ≠
        before.files.place config.sitePath ++ other := by
    rintro other isDone same
    rw [isPlace, List.append_cancel_left_eq] at same
    exact notDone (same ▸ isDone)
  -- A page that was written is not on the way to this one either, or it would be on its own way.
  have wayNotWritten : ∀ location ∈ before.files.way (Path.parent (outputPath config page)),
      ∀ other ∈ done, location ≠ before.files.place config.sitePath ++ other := by
    rintro location onWay other isDone rfl
    have isOther := (publishes.canPublish other isDone).1
    rw [← layout.place_outputPath isOther] at onWay
    exact (publishes.canPublish _ isDone).2.canHold.notOnWay
      (layout.mem_way_outputPath isOther isPage onWay)
  have sameFiles : ∀ location ∈ before.files.way (Path.parent (outputPath config page)),
      (now.files.IsFileAt location ↔ before.files.IsFileAt location) :=
    fun location onWay => publishes.isFileAt_iff (wayNotWritten location onWay)
  have sameWay := way_congr publishes.sameStart (Path.parent (outputPath config page))
  have samePlace := place_congr publishes.sameStart (outputPath config page)
  constructor
  · rintro ⟨noFile, noDirectory, notOnWay⟩
    rw [sameWay] at noFile notOnWay
    rw [samePlace] at noDirectory notOnWay
    exact ⟨
      fun location onWay isFile => noFile location onWay ((sameFiles location onWay).mpr isFile),
      fun isDirectory => noDirectory (publishes.isDirectoryAt layout isDirectory), notOnWay⟩
  · rintro ⟨noFile, noDirectory, notOnWay⟩
    refine ⟨?_, ?_, ?_⟩
    · rw [sameWay]
      intro location onWay isFile
      exact noFile location onWay ((sameFiles location onWay).mp isFile)
    · rw [samePlace, isDirectoryAt_iff]
      -- A directory made in this place would be one that another page needs.
      rcases publishes.stays _ notWritten with same | ⟨⟨other, isOther, onWay⟩, _⟩
      · rw [same, ← isDirectoryAt_iff]
        exact noDirectory
      · exact absurd (layout.mem_way_outputPath isPage isOther onWay) notOnWay
    · rwa [sameWay, samePlace]

/-- A page that is written comes to the pages that were written. -/
theorem publish (isPage : IsPage before.files docs page)
    (notDone : page ∉ done) (canPublish : CanPublish config before.files docs page)
    {text filtered : Text}
    (isText : before.files.at? (docs ++ page) = some (.file (Utf8.encode text)))
    (isFiltered : filterPage programs config before text = (before, .ok filtered))
    {after : FileTree}
    (holds : now.files.Holds (outputPath config page) (Utf8.encode filtered) after) :
    Publishes programs config before docs (done ++ [page]) { now with files := after } := by
  have canHold := (publishes.canHold_iff layout isPage notDone).mpr canPublish.canHold
  have samePlace := place_congr publishes.sameStart (outputPath config page)
  have isPlace := samePlace.trans (layout.place_outputPath isPage)
  -- Writing this page takes nothing away, except what stood in its own place.
  have keeps : ∀ {location node}, location ≠ now.files.place (outputPath config page) →
      now.files.at? location = some node → after.at? location = some node := by
    intro location node elsewhere stands
    rcases holds.stays location elsewhere with same | ⟨_, missing, _⟩
    · rw [same, stands]
    · rw [stands] at missing
      cases missing
  refine ⟨holds.isTree, holds.sameStart.trans publishes.sameStart, publishes.samePrinted, ?_, ?_,
    ?_, ?_⟩
  · rw [List.forall_mem_append, List.forall_mem_singleton]
    exact ⟨publishes.canPublish, isPage, canPublish⟩
  · rw [List.forall_mem_append, List.forall_mem_singleton]
    constructor
    · intro other isDone
      rcases publishes.written other isDone with ⟨text, filtered, isText, isFiltered, isWritten⟩
      refine ⟨text, filtered, isText, isFiltered, keeps ?_ isWritten⟩
      rw [isPlace, Ne, List.append_cancel_left_eq]
      exact fun same => notDone (same ▸ isDone)
    · exact ⟨text, filtered, isText, isFiltered, isPlace ▸ holds.written⟩
  · rw [List.forall_mem_append, List.forall_mem_singleton]
    constructor
    · intro other isDone location onWay
      have isDirectory := publishes.areDirectories other isDone location onWay
      refine isDirectoryAt_iff.mpr (keeps ?_ (isDirectoryAt_iff.mp isDirectory))
      rintro rfl
      exact canHold.noDirectory isDirectory
    · rw [← way_congr publishes.sameStart]
      exact holds.areDirectories
  · intro location notWritten
    rw [List.forall_mem_append, List.forall_mem_singleton] at notWritten
    apply publishes.stays_of_stays isPage notWritten.1
    exact holds.stays location (isPlace ▸ notWritten.2)

end Publishes

/-- Without sessions and builds, filtering a page leaves the system alone and does not depend on it.
-/
theorem filterPage_of_disabled (programs : Programs) {config : Config}
    (noRepl : config.repl.enabled = false) (noBuild : config.build.enabled = false) (page : Text) :
    ∃ filtered, ∀ system, filterPage programs config system page = (system, .ok filtered) := by
  simp only [filterPage, filterPageWith, configuredRunner, noRepl, noBuild, Bool.false_eq_true,
    ↓reduceIte, filterByLines, LineFilter.run_eq, LineFilter.State.initial,
    LineFilter.runScripts_idle]
  exact ⟨_, fun _ => rfl⟩

end Site

namespace CommandLine

variable {programs : Programs} {config : Config}

theorem filterSitePage_of_unread {path : Path} {system : System} {cause : PageError}
    (notRead : Pages.read system.files config.docsPath path = .error cause) :
    filterSitePage programs config path system = .error (.page cause) system := by
  change (EStateM.bind (check .page (Pages.read system.files config.docsPath path)) _) system = _
  rw [notRead]
  rfl

theorem filterSitePage_of_filterPage {path : Path} {system : System} {page filtered : Text}
    (isRead : Pages.read system.files config.docsPath path = .ok page)
    (isFiltered : Site.filterPage programs config system page = (system, .ok filtered)) :
    filterSitePage programs config path system =
      match Pages.write system.files config.sitePath path filtered with
      | (after, .ok ()) => .ok () { system with files := after }
      | (after, .error cause) => .error (.page cause) { system with files := after } := by
  have afterFilter : onSystem (.filter path)
      (fun system => Site.filterPage programs config system page) system = .ok filtered system := by
    change check (.filter path) (Site.filterPage programs config system page).2
      (Site.filterPage programs config system page).1 = _
    rw [isFiltered]
    rfl
  change (EStateM.bind (check .page (Pages.read system.files config.docsPath path)) _) system = _
  rw [isRead]
  change (EStateM.bind (onSystem (.filter path) _) _) system = _
  rw [EStateM.bind, afterFilter]
  change check .page (Pages.write system.files config.sitePath path filtered).2
    { system with files := (Pages.write system.files config.sitePath path filtered).1 } = _
  rcases Pages.write system.files config.sitePath path filtered with ⟨after, result⟩
  cases result <;> rfl

section Build

variable {before now : System} {docs page : Location} {done pages : List Location}
  (layout : Site.Layout config before.files docs) (noRepl : config.repl.enabled = false)
  (noBuild : config.build.enabled = false)
include layout noRepl noBuild

/-- One more page is written, or it could not be published from the beginning. -/
theorem filterSitePage_outcome (publishes : Site.Publishes programs config before docs done now)
    (isPage : IsPage before.files docs page) (notDone : page ∉ done) :
    (∃ after, filterSitePage programs config (relativePath page) now = .ok () after ∧
      Site.Publishes programs config before docs (done ++ [page]) after) ∨
    ∃ cause after, ¬ Site.CanPublish config before.files docs page ∧
      filterSitePage programs config (relativePath page) now = .error (.page cause) after ∧
      Site.Publishes programs config before docs done after := by
  have sameRead := publishes.read_eq layout isPage
  cases isRead : Pages.read before.files config.docsPath (relativePath page) with
  | error cause =>
    refine .inr ⟨cause, now, ?_, filterSitePage_of_unread (sameRead.trans isRead), publishes⟩
    rintro ⟨⟨text, isText⟩, _⟩
    rw [(layout.read_eq_ok_iff isPage).mpr isText] at isRead
    cases isRead
  | ok text =>
    rcases Site.filterPage_of_disabled programs noRepl noBuild text with ⟨filtered, isFiltered⟩
    have isDone := filterSitePage_of_filterPage (sameRead.trans isRead) (isFiltered now)
    have endsInName := layout.endsInName_outputPath isPage
    by_cases canHold : before.files.CanHold (Site.outputPath config page)
    · have isText := (layout.read_eq_ok_iff isPage).mp isRead
      rcases write_of_canHold publishes.isTree endsInName
          ((publishes.canHold_iff layout isPage notDone).mpr canHold) filtered with
        ⟨after, isWritten, holds⟩
      rw [isWritten] at isDone
      exact .inl ⟨_, isDone,
        publishes.publish layout isPage notDone ⟨⟨text, isText⟩, canHold⟩ isText
          (isFiltered before) holds⟩
    · rcases write_of_not_canHold publishes.isTree endsInName
          (fun holdsNow => canHold ((publishes.canHold_iff layout isPage notDone).mp holdsNow))
          filtered with
        ⟨after, cause, notWritten, grows⟩
      rw [notWritten] at isDone
      exact .inr ⟨_, _, fun canPublish => canHold canPublish.canHold, isDone,
        publishes.grow isPage grows⟩

/-- Filtering a page that was written writes what is there. -/
theorem filterSitePage_again (publishes : Site.Publishes programs config before docs done now)
    (isDone : page ∈ done) :
    filterSitePage programs config (relativePath page) now = .ok () now := by
  have isPage := (publishes.canPublish page isDone).1
  rcases publishes.written page isDone with ⟨text, filtered, isText, isFiltered, written⟩
  have isRead := (publishes.read_eq layout isPage).trans ((layout.read_eq_ok_iff isPage).mpr isText)
  rcases Site.filterPage_of_disabled programs noRepl noBuild text with ⟨same, isSame⟩
  rw [isSame before] at isFiltered
  cases isFiltered
  have isWritten : Pages.write now.files config.sitePath (relativePath page) filtered =
      (now.files, .ok ()) := by
    apply write_of_written publishes.isTree (layout.endsInName_outputPath isPage)
    · rw [way_congr publishes.sameStart]
      exact publishes.areDirectories page isDone
    · rw [place_congr publishes.sameStart]
      exact (layout.place_outputPath isPage).symm ▸ written
  rw [filterSitePage_of_filterPage isRead (isSame now), isWritten]

theorem forM_filterSitePage_again
    (publishes : Site.Publishes programs config before docs done now) (within : pages ⊆ done) :
    pages.forM (fun page => filterSitePage programs config (relativePath page)) now =
      .ok () now := by
  induction pages with
  | nil => rfl
  | cons page rest ih =>
    rw [List.cons_subset] at within
    simp only [List.forM, bind, EStateM.bind,
      filterSitePage_again layout noRepl noBuild publishes within.1]
    exact ih within.2

/-- Going through pages writes each of them, up to the first one that could not be published from
the beginning. -/
theorem forM_filterSitePage_outcome
    (publishes : Site.Publishes programs config before docs done now)
    (arePages : ∀ page ∈ pages, IsPage before.files docs page) (once : (done ++ pages).Nodup) :
    (∃ after, pages.forM (fun page => filterSitePage programs config (relativePath page)) now =
        .ok () after ∧
      Site.Publishes programs config before docs (done ++ pages) after) ∨
    ∃ more page rest cause after, pages = more ++ page :: rest ∧
      ¬ Site.CanPublish config before.files docs page ∧
      pages.forM (fun page => filterSitePage programs config (relativePath page)) now =
        .error (.page cause) after ∧
      Site.Publishes programs config before docs (done ++ more) after := by
  induction pages generalizing done now with
  | nil => exact .inl ⟨now, rfl, by rwa [List.append_nil]⟩
  | cons page rest ih =>
    rw [List.forall_mem_cons] at arePages
    have notDone : page ∉ done := fun isDone =>
      (List.nodup_append.mp once).2.2 page isDone page List.mem_cons_self rfl
    simp only [List.forM, bind, EStateM.bind]
    rcases filterSitePage_outcome layout noRepl noBuild publishes arePages.1 notDone with
      ⟨between, isDone, published⟩ | ⟨cause, after, cannotPublish, notDone, published⟩
    · rw [isDone]
      rcases ih published arePages.2 (by rwa [List.append_assoc]) with
        ⟨after, areDone, published⟩ | ⟨more, next, later, cause, after, rfl, stops⟩
      · exact .inl ⟨after, areDone, by rwa [List.append_assoc] at published⟩
      · refine .inr ⟨page :: more, next, later, cause, after, rfl, ?_⟩
        rwa [List.append_assoc, List.singleton_append] at stops
    · rw [notDone]
      exact .inr ⟨[], page, rest, cause, after, rfl, cannotPublish, rfl,
        by rwa [List.append_nil]⟩

end Build

/-- A build goes through the pages that are listed. -/
theorem buildSite_eq {system : System} {docs : Location} {pages : List Location}
    (layout : Site.Layout config system.files docs)
    (isListing : IsListing system.files docs pages) :
    buildSite programs config true system =
      pages.forM (fun page => filterSitePage programs config (relativePath page)) system := by
  have isDirectory : system.files.isDirectory config.docsPath = true := by
    simp only [FileTree.isDirectory, layout.located, layout.isDirectory]
  have areListed := scanPages_eq layout.located layout.isDirectory
  rw [(isListing_locations layout.isTree layout.isDirectory).unique isListing] at areListed
  have isValid : Pages.validate system.files config.docsPath = .ok () := by
    rw [validate, if_pos isDirectory]
  change (EStateM.bind (check .page (Pages.validate system.files config.docsPath)) _) system = _
  rw [isValid]
  change (EStateM.bind (check .page (Pages.scanPages system.files config.docsPath)) _) system = _
  rw [areListed]
  change (pages.map relativePath).forM (filterSitePage programs config) system = _
  rw [List.forM_eq_forM, List.forM_map]
  rfl

/--
A build without sessions and build scripts either filters every page, and another build then changes
nothing, or it ends at the first page that cannot be read or written and has filtered those before
it.
-/
theorem buildSite_outcome {before : System} {docs : Location}
    (layout : Site.Layout config before.files docs) (noRepl : config.repl.enabled = false)
    (noBuild : config.build.enabled = false) :
    ∃ pages, IsListing before.files docs pages ∧
      ((∃ after, buildSite programs config true before = .ok () after ∧
          Site.Publishes programs config before docs pages after ∧
          buildSite programs config true after = .ok () after) ∨
        ∃ done page rest cause after, pages = done ++ page :: rest ∧
          ¬ Site.CanPublish config before.files docs page ∧
          buildSite programs config true before = .error (.page cause) after ∧
          Site.Publishes programs config before docs done after) := by
  have isListing := isListing_locations layout.isTree layout.isDirectory
  refine ⟨_, isListing, ?_⟩
  have arePages := fun page => (isListing.mem_iff page).mp
  have starts : Site.Publishes programs config before docs [] before := .initial layout.isTree
  rw [buildSite_eq layout isListing]
  rcases forM_filterSitePage_outcome layout noRepl noBuild starts arePages isListing.once with
    ⟨after, isDone, publishes⟩ | stops
  · refine .inl ⟨after, isDone, publishes, ?_⟩
    have sameListing : IsListing after.files docs (locations before.files docs) :=
      ⟨fun page => (isListing.mem_iff page).trans (publishes.isPage_iff layout).symm,
        isListing.once, isListing.ordered⟩
    rw [buildSite_eq (publishes.keepsLayout layout) sameListing]
    exact forM_filterSitePage_again layout noRepl noBuild publishes (List.Subset.refl _)
  · exact .inr stops

theorem layout_sampleTree : Site.Layout {} sampleTree ["docs".toList] where
  isTree := isTree_sampleTree
  located := by decide +kernel
  isDirectory := by decide +kernel
  docsOutside := by decide +kernel
  siteOutside := by decide +kernel

/-- Nothing can be started. -/
def noPrograms : Programs where
  start _ _ _ := none
  scratch? _ := none

/-- The page that is no text ends the build, after the pages before it have been filtered. -/
theorem buildSite_outcome_sample :
    ∃ pages, IsListing sampleTree ["docs".toList] pages ∧
      ∃ done page rest cause after, pages = done ++ page :: rest ∧
        ¬ Site.CanPublish {} sampleTree ["docs".toList] page ∧
        buildSite noPrograms {} true ⟨sampleTree, []⟩ = .error (.page cause) after ∧
        Site.Publishes noPrograms {} ⟨sampleTree, []⟩ ["docs".toList] done after := by
  rcases @buildSite_outcome noPrograms {} ⟨sampleTree, []⟩ _ layout_sampleTree rfl rfl with
    ⟨pages, isListing, ⟨after, _, publishes, _⟩ | stops⟩
  · have isPage : IsPage sampleTree ["docs".toList] ["x.md".toList, "y.md".toList] :=
      ⟨⟨[0xff], by decide +kernel⟩, ["x.md".toList], "y".toList, by decide, by decide⟩
    rcases (publishes.canPublish _ ((isListing.mem_iff _).mpr isPage)).2.isText with ⟨text, isText⟩
    have isFile : sampleTree.at? (["docs".toList] ++ ["x.md".toList, "y.md".toList]) =
        some (.file [0xff]) := by decide +kernel
    have noText : Utf8.decode? [0xff] = none := by decide +kernel
    rw [isFile, Option.some.injEq, Node.file.injEq, ← Utf8.decode?_eq_some_iff, noText] at isText
    cases isText
  · exact ⟨pages, isListing, stops⟩

end CommandLine

end LiterateMarkdown
