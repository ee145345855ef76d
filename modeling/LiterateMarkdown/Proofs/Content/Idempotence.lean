import LiterateMarkdown.Proofs.Content.Chain

/-!
# Filtering a page by blocks a second time

A page that the content chain has written passes through the chain as it is, and no script is handed
over on the way (`filterPageWith_filterPageWith`), as long as no block shows a recorded session.

The written page is cut at the same lines as the page it was made of, although its blocks may be
blocks no more: a rendered fence with a language tag begins a plain fence, and so does one that
shows nothing. What is still a block shows what it did and holds no script. So each segment of the
written page stays as it is (`Segment.IsSettled`).
-/

namespace LiterateMarkdown

open DocumentBuilder (openLines)

/-- What is left of a segment stands on lines of its own. -/
theorem Segment.newline_not_mem_shown (options : FilterOptions) {segment : Segment}
    (fenced : segment.IsFenced) (oneLine : ∀ line ∈ segment.lines, '\n' ∉ line) :
    ∀ line ∈ segment.shown options, '\n' ∉ line := by
  cases segment with
  | line text => exact oneLine
  | block current =>
    rcases fenced with ⟨⟨fence, fenced⟩, _⟩
    have titled : '\n' ∉ (ContentFilter.titledBlock current).openLine := by
      rw [ContentFilter.openLine_titledBlock fenced]
      exact Fence.newline_not_mem_titledLine fenced.found fenced.parsed
    simp only [lines, Block.lines, List.cons_append, List.forall_mem_cons,
      List.forall_mem_append] at oneLine
    simp only [shown]
    split
    · cases options.closingFence with
      | verbatim =>
        have sameClose : (ContentFilter.titledBlock current).closeLine = current.closeLine := rfl
        simpa [LineFilter.fenceLines, titled, sameClose] using oneLine.2.2
      | suppress => simp [LineFilter.fenceLines]
    · simp only [Block.lines, List.cons_append, List.forall_mem_cons, List.forall_mem_append]
      exact ⟨titled, oneLine.2⟩

/-- A segment of which the chain leaves all lines, running nothing. -/
structure Segment.IsSettled (options : FilterOptions) (segment : Segment) : Prop where
  shown : segment.shown options = segment.lines
  scripts : segment.scripts options = []
  noSession : segment.showsSession = false

theorem Segment.isSettled_line (options : FilterOptions) (text : Text) :
    (Segment.line text).IsSettled options :=
  ⟨rfl, rfl, rfl⟩

/-- A block without classes whose fence shows its title already. -/
theorem Segment.isSettled_block (options : FilterOptions) {block : Block} {fence : OpenFence}
    (fenced : block.IsFencedBy fence)
    (titled : Fence.titledLine fence block.properties = block.openLine)
    (classless : Property.classNames block.properties = []) :
    (Segment.block block).IsSettled options := by
  have noClass : ∀ name, Property.hasClass block.properties name = false := by
    intro name
    rw [Bool.eq_false_iff, ne_eq, Property.hasClass_iff, classless]
    exact List.not_mem_nil
  have notScript : block.isScript options = false := by
    simp [Block.isScript, noClass]
  have sameLine := (ContentFilter.openLine_titledBlock fenced).trans titled
  refine ⟨?_, ?_, noClass _⟩
  · simp only [shown, notScript, Bool.false_eq_true, ↓reduceIte, Block.lines, sameLine, lines]
    rfl
  · simp [scripts, notScript]

namespace OpenRegion

/-- Whether lines are cut into segments of which nothing is taken, wherever they begin. -/
def Passes (options : FilterOptions) (region : OpenRegion) (lines : List Text) : Prop :=
  ∀ lineNumber, ∃ segments final, region.read lineNumber lines = .ok (segments, final) ∧
    ∀ segment ∈ segments, segment.IsSettled options

variable {options : FilterOptions} {region after : OpenRegion} {line : Text} {rest : List Text}

theorem passes_nil (options : FilterOptions) (region : OpenRegion) : region.Passes options [] := by
  intro lineNumber
  exact ⟨[], region, rfl, by simp⟩

theorem passes_cons
    (passes : ∀ lineNumber, ∃ completed after,
      region.next lineNumber line = .ok (completed, after) ∧
        (∀ segment ∈ completed, segment.IsSettled options) ∧ after.Passes options rest) :
    region.Passes options (line :: rest) := by
  intro lineNumber
  rcases passes lineNumber with ⟨completed, after, isNext, settled, passesRest⟩
  rcases passesRest (lineNumber + 1) with ⟨later, final, isLater, laterSettled⟩
  refine ⟨completed ++ later, final, read_of_next isNext isLater, ?_⟩
  intro segment present
  rcases List.mem_append.mp present with isFirst | isLater
  · exact settled segment isFirst
  · exact laterSettled segment isLater

theorem passes_of_prefix {earlier lines : List Text} (begins : earlier <+: lines)
    (passes : region.Passes options lines) : region.Passes options earlier := by
  rcases begins with ⟨later, rfl⟩
  intro lineNumber
  rcases passes lineNumber with ⟨segments, final, isRead, settled⟩
  rcases exists_read_of_read_append isRead with ⟨first, between, isFirst, isPrefix⟩
  refine ⟨first, between, isFirst, ?_⟩
  intro segment present
  exact settled segment (isPrefix.subset present)

/-- A line that is a segment of its own is one on any line number. -/
theorem next_of_next_line {lineNumber : Nat} {text : Text}
    (isNext : region.next lineNumber line = .ok ([.line text], after)) (other : Nat) :
    region.next other line = .ok ([.line text], after) := by
  cases region with
  | none =>
    cases starts : Fence.startsVerbatim line with
    | true => simpa [next, starts] using isNext
    | false =>
      cases found : OpenFence.ofLine? line with
      | none => simpa [next, starts, found] using isNext
      | some fence => cases parsed : Property.parse fence.properties <;> simp_all [next]
  | verbatim | plainFence | block current => exact isNext

theorem passes_line {lineNumber : Nat} {text : Text}
    (isNext : region.next lineNumber line = .ok ([.line text], after))
    (passes : after.Passes options rest) : region.Passes options (line :: rest) := by
  apply passes_cons
  intro other
  refine ⟨_, after, next_of_next_line isNext other, ?_, passes⟩
  simpa using Segment.isSettled_line options text

section

variable {source : List Text} {closeLine : Text}
  (noClosing : ∀ line ∈ source, Fence.isClosing line = false) (closes : Fence.isClosing closeLine)
  (passes : none.Passes options rest)

include noClosing closes passes

theorem passes_plainFence : plainFence.Passes options (source ++ closeLine :: rest) := by
  induction source with
  | nil =>
    have isNext : plainFence.next 0 closeLine = .ok ([.line closeLine], none) := by
      simp [next, closes]
    exact passes_line isNext passes
  | cons line source ih =>
    rw [List.forall_mem_cons] at noClosing
    have isNext : plainFence.next 0 line = .ok ([.line line], plainFence) := by
      simp [next, noClosing.1]
    exact passes_line isNext (ih noClosing.2)

theorem passes_block {current : Block} {fence : OpenFence} (fenced : current.IsFencedBy fence)
    (titled : Fence.titledLine fence current.properties = current.openLine)
    (classless : Property.classNames current.properties = []) :
    (block current).Passes options (source ++ closeLine :: rest) := by
  induction source generalizing current with
  | nil =>
    apply passes_cons
    intro lineNumber
    refine ⟨[.block { current with closeLine }], none, by simp [next, closes], ?_, passes⟩
    simpa using Segment.isSettled_block options (fenced.close closeLine) titled classless
  | cons line source ih =>
    rw [List.forall_mem_cons] at noClosing
    apply passes_cons
    intro lineNumber
    refine ⟨[], block { current with source := current.source ++ [line] }, ?_, by simp, ?_⟩
    · simp [next, noClosing.1]
    · exact ih noClosing.2 (fenced.append noClosing.1) titled classless

/-- A rendered fence and what it encloses pass, whether the fence begins a block again or not. -/
theorem passes_titledLine {openLine : Text} {fence : OpenFence} {properties : List Property}
    (found : OpenFence.ofLine? openLine = some fence)
    (parsed : Property.parse fence.properties = .ok properties) :
    none.Passes options (Fence.titledLine fence properties :: (source ++ closeLine :: rest)) := by
  rcases OpenFence.ofLine?_titledLine found parsed with
    notFound | ⟨again, shown, foundAgain, parsedAgain, sameLine, classless⟩
  · have isFence := Fence.isFence_titledLine found properties
    have notStart := Fence.not_startsVerbatim_of_isFence isFence
    have isNext : none.next 0 (Fence.titledLine fence properties) =
        .ok ([.line (Fence.titledLine fence properties)], plainFence) := by
      simp only [next, notStart, notFound, isFence, Bool.false_eq_true, ↓reduceIte]
    exact passes_line isNext (passes_plainFence noClosing closes passes)
  · apply passes_cons
    intro lineNumber
    let opened : Block := ⟨shown, again.indent, Fence.titledLine fence properties, [], [],
      again.lineEnding, lineNumber⟩
    have fenced : opened.IsFencedBy again := ⟨foundAgain, parsedAgain, rfl, rfl, by simp [opened]⟩
    refine ⟨[], block opened, next_of_opens foundAgain parsedAgain lineNumber, by simp, ?_⟩
    exact passes_block noClosing closes passes fenced sameLine classless

end

/-- What is left of a block passes. -/
theorem passes_shown {current : Block} (fenced : (Segment.block current).IsFenced)
    (passes : none.Passes options rest) :
    none.Passes options ((Segment.block current).shown options ++ rest) := by
  rcases fenced with ⟨⟨fence, fenced⟩, closes⟩
  simp only [Segment.shown, Block.lines, ContentFilter.openLine_titledBlock fenced]
  cases current.isScript options with
  | false =>
    have passesAll := passes_titledLine fenced.noClosing closes passes fenced.found fenced.parsed
    simpa [ContentFilter.titledBlock] using passesAll
  | true =>
    cases options.closingFence with
    | verbatim =>
      have noClosing : ∀ line ∈ ([] : List Text), Fence.isClosing line = false := by simp
      exact passes_titledLine noClosing closes passes fenced.found fenced.parsed
    | suppress => exact passes

/-- Where the lines of the open region begin. -/
def outside : OpenRegion → OpenRegion
  | block _ => none
  | region => region

/-- The lines of a block that is never closed pass. -/
theorem passes_openLines (fenced : region.IsFenced) :
    region.outside.Passes options (openLines region) := by
  cases region with
  | none | verbatim | plainFence => exact passes_nil options _
  | block current =>
    rcases fenced with ⟨fence, fenced⟩
    have body : ∀ (source : List Text) (again : Block),
        (∀ line ∈ source, Fence.isClosing line = false) →
          (block again).Passes options source := by
      intro source
      induction source with
      | nil =>
        intro again _
        exact passes_nil options _
      | cons line source ih =>
        intro again noClosing
        rw [List.forall_mem_cons] at noClosing
        apply passes_cons
        intro lineNumber
        exact ⟨[], block { again with source := again.source ++ [line] }, by
          simp [next, noClosing.1], by simp, ih _ noClosing.2⟩
    apply passes_cons
    intro lineNumber
    exact ⟨[], _, next_of_opens fenced.found fenced.parsed lineNumber, by simp,
      body _ _ fenced.noClosing⟩

/-- What is left of the segments of a page passes, and so do lines of an open block after them. -/
theorem passes_of_read {final : OpenRegion} {lineNumber : Nat} {lines : List Text}
    {segments : List Segment} (isRead : region.read lineNumber lines = .ok (segments, final))
    (fenced : region.IsFenced) :
    region.outside.Passes options
      (segments.flatMap (Segment.shown options) ++ openLines final) := by
  induction lines generalizing region lineNumber segments with
  | nil =>
    cases isRead
    exact passes_openLines fenced
  | cons line rest ih =>
    rcases read_cons isRead with ⟨completed, after, later, isNext, isLater, rfl⟩
    have reads := reads_of_next isNext
    rcases isFenced_of_reads reads fenced with ⟨completedFenced, afterFenced⟩
    have passes := ih isLater afterFenced
    -- The lines of a block are looked at when the block is complete, beginning outside of it.
    cases reads with
    | opensBlock | blockText => exact passes
    | closesBlock current closes =>
      have isBlock := completedFenced _ (List.mem_singleton.mpr rfl)
      rw [List.flatMap_append, List.flatMap_singleton, List.append_assoc]
      exact passes_shown isBlock passes
    | startsVerbatim | opensFence | text | endsVerbatim | verbatimText | closesFence | fenceText =>
      exact passes_line isNext passes

end OpenRegion

namespace Site

variable {World : Type}

/-- A page stays as it is if all of its segments do. -/
theorem filterByBlocks_of_passes (config : Config) (runner : BuildRunner World)
    (files : World → FileTree) (world : World) {page : Text}
    (passes : OpenRegion.none.Passes config.build.filterOptions (Lines.ofText page).items) :
    filterByBlocks config runner files world page = (world, .ok page) := by
  rcases passes 1 with ⟨segments, final, isCut, settled⟩
  let all := segments ++ (openLines final).map Segment.line
  have allSettled : ∀ segment ∈ all, segment.IsSettled config.build.filterOptions := by
    intro segment present
    rcases List.mem_append.mp present with isComplete | isOpen
    · exact settled segment isComplete
    · rcases List.mem_map.mp isOpen with ⟨text, _, rfl⟩
      exact Segment.isSettled_line _ text
  have isRead : Document.read page = .ok
      { Document.ofSegments all with endsWithNewline := (Lines.ofText page).endsWithNewline } := by
    rw [Document.read_eq, Segment.ofPage, isCut]
    rfl
  have shows : { Document.ofSegments all with
      endsWithNewline := (Lines.ofText page).endsWithNewline }.Shows all := by
    rcases Document.shows_ofSegments all with ⟨inStep, each, references⟩
    exact ⟨inStep, each, references⟩
  have noScripts : all.flatMap (Segment.scripts config.build.filterOptions) = [] := by
    rw [List.flatMap_eq_nil_iff]
    intro segment present
    exact (allSettled segment present).scripts
  have sameLines : all.flatMap (Segment.shown config.build.filterOptions) =
      (Lines.ofText page).items := by
    have isShown : all.flatMap (Segment.shown config.build.filterOptions) =
        all.flatMap Segment.lines := by
      apply List.flatMap_congr
      intro segment present
      exact (allSettled segment present).shown
    rw [isShown, List.flatMap_append, Segment.flatMap_lines_map_line,
      ← OpenRegion.lines_of_read isCut]
    rfl
  rw [filterByBlocks_eq config runner files world isRead shows fun segment present =>
    (allSettled segment present).noSession, noScripts, sameLines]
  simp only [LineFilter.runScripts, List.foldl_nil]
  exact congrArg (fun text => (world, Except.ok text)) (Lines.toText_ofText page)

/--
Filtering a page by blocks a second time changes nothing, and the runner of the second time is
handed no script.
-/
theorem filterPageWith_filterPageWith {Other : Type} (config : Config)
    (enabled : config.repl.enabled) (runner : BuildRunner World) (files : World → FileTree)
    {world after : World} {page text : Text}
    (isFiltered : filterPageWith config runner files world page = (after, .ok text))
    (noSession : ∀ document, Document.read page = .ok document →
      ∀ id block, document.references.get? id = some block →
        Property.hasClass block.properties Fence.replClass = false)
    (again : BuildRunner Other) (filesAgain : List Text × Other → FileTree) (other : Other) :
    filterPageWith config again.noting filesAgain ([], other) text = (([], other), .ok text) := by
  simp only [filterPageWith, enabled, ↓reduceIte] at isFiltered ⊢
  cases isRead : Document.read page with
  | error cause => simp [filterByBlocks, isRead] at isFiltered
  | ok document =>
    rcases Document.shows_of_read isRead with ⟨segments, final, isCut, shows, _⟩
    rw [filterByBlocks_eq config runner files world isRead shows
      (noSession_of_standsFor shows.each (noSession document isRead))] at isFiltered
    have isText := Except.ok.inj (congrArg Prod.snd isFiltered)
    rw [List.flatMap_append, Segment.flatMap_shown_map_line] at isText
    rcases OpenRegion.isFenced_of_read isCut trivial with ⟨fenced, _⟩
    have passes : OpenRegion.none.Passes config.build.filterOptions
        (segments.flatMap (Segment.shown config.build.filterOptions) ++ openLines final) :=
      OpenRegion.passes_of_read isCut trivial
    have pageLines : ∀ line ∈ segments.flatMap Segment.lines ++ openLines final, '\n' ∉ line := by
      rw [← OpenRegion.lines_of_read isCut]
      exact fun line present => Lines.newline_not_mem_of_mem_split present
    rw [List.forall_mem_append] at pageLines
    have oneLine : ∀ line ∈ segments.flatMap (Segment.shown config.build.filterOptions) ++
        openLines final, '\n' ∉ line := by
      rw [List.forall_mem_append]
      refine ⟨?_, pageLines.2⟩
      intro line present
      rcases List.mem_flatMap.mp present with ⟨segment, isSegment, isShown⟩
      apply Segment.newline_not_mem_shown _ (fenced segment isSegment) _ line isShown
      intro other isLine
      exact pageLines.1 other (List.mem_flatMap.mpr ⟨segment, isSegment, isLine⟩)
    apply filterByBlocks_of_passes
    rw [← isText]
    rcases Lines.items_ofText_toText ⟨_, document.endsWithNewline⟩ oneLine with blank | begins
    · rw [blank]
      have isNext : OpenRegion.none.next 0 [] = .ok ([.line []], .none) := rfl
      exact OpenRegion.passes_line isNext (OpenRegion.passes_nil _ _)
    · exact OpenRegion.passes_of_prefix begins passes

/-- The second run on a page with a script, a block that shows nothing and one never closed. -/
theorem filterPageWith_filterPageWith_unclosed :
    ∃ config page text,
      config = ({ build := ⟨true, [], [], .verbatim⟩, repl := ⟨true, []⟩ } : Config) ∧
      page = ("``` \x7b#a file=a.c\x7d\r\nint x;\r\n```\n  ``` \x7b.build-artifact\x7d\n  all:\n" ++
        "  ```\n``` \x7bx=1\x7d\n``` \x7b.d\x7d\n```\n``` \x7b.e\x7d\nend").toList ∧
      text = ("``` \x7b#a title=\"#a / file: a.c\"\x7d\r\nint x;\r\n```\n  ```build-artifact\n" ++
        "  ```\n```\n``` \x7b.d\x7d\n```\n``` \x7b.e\x7d\nend").toList ∧
      filterPageWith config BuildRunner.idle (fun _ => {}) () page = ((), .ok text) ∧
      filterPageWith config BuildRunner.idle.noting (fun _ => {}) ([], ()) text =
        (([], ()), .ok text) := by
  generalize isConfig : ({ build := ⟨true, [], [], .verbatim⟩, repl := ⟨true, []⟩ } : Config) =
    config
  generalize isPage : ("``` \x7b#a file=a.c\x7d\r\nint x;\r\n```\n  ``` \x7b.build-artifact\x7d\n" ++
    "  all:\n  ```\n``` \x7bx=1\x7d\n``` \x7b.d\x7d\n```\n``` \x7b.e\x7d\nend").toList = page
  generalize isText : ("``` \x7b#a title=\"#a / file: a.c\"\x7d\r\nint x;\r\n```\n" ++
    "  ```build-artifact\n  ```\n```\n``` \x7b.d\x7d\n```\n``` \x7b.e\x7d\nend").toList = text
  have isFiltered : filterPageWith config BuildRunner.idle (fun _ => {}) () page =
      ((), .ok text) := by
    subst isConfig isPage isText
    decide +kernel
  have enabled : config.repl.enabled := by
    subst isConfig
    rfl
  have allBlocks : (Document.read page).toOption.all fun document =>
      document.references.entries.all fun entry =>
        !Property.hasClass entry.2.properties Fence.replClass := by
    subst isPage
    decide +kernel
  refine ⟨config, page, text, rfl, ?_, ?_, isFiltered, ?_⟩
  · exact isPage.symm
  · exact isText.symm
  apply filterPageWith_filterPageWith config enabled _ _ isFiltered
  intro document isRead id block registered
  rw [isRead] at allBlocks
  have isEntry := References.mem_entries_of_get? registered
  simpa using List.all_eq_true.mp allBlocks _ isEntry

end Site

end LiterateMarkdown
