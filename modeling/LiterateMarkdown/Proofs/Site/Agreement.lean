import LiterateMarkdown.Proofs.Content.Chain

/-!
# Agreement of the two ways to filter a page

The content chain works on the blocks of a page, the line filter on its lines. They go wrong in
different ways: only the former fails, only the latter looks at the lines inside of fences. On a
page where neither matters they give the same text and run the same scripts
(`filterPageWith_agree`).

The proof takes the two through the page side by side. The region that the lines so far have left
open says where the scan stands (`Meets`), and what the scan has emitted is what is left of the
segments that are complete and of the block that is still open (`Keeps`).
-/

namespace LiterateMarkdown

namespace Fence

/-- A line that begins and ends nothing between fences, unless it closes them. -/
def isInert (line : Text) : Bool :=
  !startsVerbatim line && !endsVerbatim line && (OpenFence.ofLine? line).isNone

end Fence

theorem LineKind.ofLine_of_isInert {line : Text} (inert : Fence.isInert line)
    (notClosing : Fence.isClosing line = false) : ofLine line = ordinary := by
  simp only [Fence.isInert, Bool.and_eq_true, Bool.not_eq_true', Option.isNone_iff_eq_none] at inert
  rcases inert with ⟨⟨notStart, notEnd⟩, notOpening⟩
  simp [ofLine, notStart, notEnd, notClosing, notOpening]

namespace OpenRegion

/-- Whether the next line stands between fences of backticks. -/
def isFenced : OpenRegion → Bool
  | plainFence | block _ => true
  | none | verbatim => false

/-- Whether a block is still open. -/
def isBlock : OpenRegion → Bool
  | block _ => true
  | none | verbatim | plainFence => false

/-- What is left of the lines of a block that is still open. -/
def shown (options : FilterOptions) : OpenRegion → List Text
  | block current =>
    let titled := ContentFilter.titledBlock current
    if current.isScript options then LineFilter.fenceLines options.closingFence titled.openLine
    else titled.openLine :: current.source
  | _ => []

end OpenRegion

namespace LineFilter

/-- Where a scan stands when the lines so far have left a region open. -/
inductive Meets (options : FilterOptions) : OpenRegion → Scan → Prop where
  | none {scan : Scan} (notIgnoring : scan.ignoring = false)
      (notCollecting : scan.collecting = false) : Meets options .none scan
  | verbatim {scan : Scan} (ignoring : scan.ignoring)
      (notCollecting : scan.collecting = false) : Meets options .verbatim scan
  | plainFence {scan : Scan} (notIgnoring : scan.ignoring = false)
      (notCollecting : scan.collecting = false) : Meets options .plainFence scan
  | block {scan : Scan} {current : Block} (notScript : current.isScript options = false)
      (notIgnoring : scan.ignoring = false) (notCollecting : scan.collecting = false) :
      Meets options (.block current) scan
  | script {scan : Scan} {current : Block} (isScript : current.isScript options)
      (notIgnoring : scan.ignoring = false) (collecting : scan.collecting)
      (sameIndent : scan.scriptIndent = current.indent)
      (sameLines : scan.scriptLines = current.source.map fun line =>
        Text.dropCarriageReturn (Text.dedent current.indent line)) :
      Meets options (.block current) scan

/-- What one line does when the scan stands beside the region that it is read in. -/
structure Keeps (options : FilterOptions) (region : OpenRegion) (scan : Scan) (line : Text)
    (completed : List Segment) (after : OpenRegion) : Prop where
  meets : Meets options after (step options scan line).scan
  shown : region.shown options ++ (step options scan line).emitted =
    completed.flatMap (Segment.shown options) ++ after.shown options
  scripts : (step options scan line).scripts = completed.flatMap (Segment.scripts options)

/-- A line that stays as it is and is a segment of its own. -/
theorem keeps_of_stays {options : FilterOptions} {region after : OpenRegion} {scan next : Scan}
    {line : Text} (stays : step options scan line = ⟨next, [line], []⟩)
    (meets : Meets options after next) (nothingOpen : region.shown options = [])
    (nothingLeft : after.shown options = []) :
    Keeps options region scan line [.line line] after where
  meets := by
    rw [stays]
    exact meets
  shown := by
    rw [stays, nothingOpen, nothingLeft]
    rfl
  scripts := by
    rw [stays]
    rfl

theorem keeps_of_opensBlock {options : FilterOptions} {scan : Scan} {line : Text}
    {fence : OpenFence} {properties : List Property} (found : OpenFence.ofLine? line = some fence)
    (parsed : Property.parse fence.properties = .ok properties) (lineNumber : Nat)
    (notIgnoring : scan.ignoring = false) (notCollecting : scan.collecting = false) :
    Keeps options .none scan line []
      (.block ⟨properties, fence.indent, line, [], [], fence.lineEnding, lineNumber⟩) := by
  have kind := LineKind.ofLine_eq_opening_iff.mpr ⟨found, parsed⟩
  cases isBuild : options.buildArtifacts &&
    Property.hasClass properties Fence.buildArtifactClass with
  | false =>
    have isEvent : scan.event options.buildArtifacts line = .titled fence properties := by
      simp [Scan.event, kind, notIgnoring, isBuild]
    refine ⟨?_, ?_, ?_⟩
    · rw [step_of_event isEvent]
      exact .block isBuild notIgnoring notCollecting
    · rw [step_of_event isEvent]
      simp only [OpenRegion.shown, Block.isScript, isBuild]
      rfl
    · rw [step_of_event isEvent]
      rfl
  | true =>
    have isEvent : scan.event options.buildArtifacts line = .begun fence properties := by
      simp only [Scan.event, kind, notIgnoring, isBuild, Bool.false_eq_true, ↓reduceIte]
    refine ⟨?_, ?_, ?_⟩
    · rw [step_of_event isEvent]
      exact .script isBuild notIgnoring rfl rfl rfl
    · rw [step_of_event isEvent]
      simp only [OpenRegion.shown, Block.isScript, isBuild]
      rfl
    · rw [step_of_event isEvent]
      rfl

theorem keeps_of_closesBlock {options : FilterOptions} {scan : Scan} {line : Text}
    {current : Block} (closes : Fence.isClosing line)
    (meets : Meets options (.block current) scan) :
    Keeps options (.block current) scan line [.block { current with closeLine := line }] .none := by
  cases meets with
  | block notScript notIgnoring notCollecting =>
    have stays := step_of_isFence options (OpenFence.ofLine?_of_isClosing closes)
      (Fence.isFence_of_isClosing closes) (Scan.isTaking_of_not_collecting notCollecting)
    refine ⟨?_, ?_, ?_⟩
    · rw [stays]
      exact .none notIgnoring notCollecting
    · rw [stays]
      simp [OpenRegion.shown, Segment.shown, notScript, Block.lines, ContentFilter.titledBlock]
    · rw [stays]
      simp [Segment.scripts, notScript]
  | script isScript notIgnoring collecting sameIndent sameLines =>
    have isEvent : scan.event options.buildArtifacts line = .closed := by
      simp [Scan.event, LineKind.ofLine_eq_closing_iff.mpr closes, Scan.isTaking, notIgnoring,
        collecting]
    refine ⟨?_, ?_, ?_⟩
    · rw [step_of_event isEvent]
      exact .none notIgnoring rfl
    · rw [step_of_event isEvent]
      simp [OpenRegion.shown, Segment.shown, isScript, Event.emitted, ContentFilter.titledBlock]
    · rw [step_of_event isEvent]
      simp [Segment.scripts, isScript, Scan.handedAt, Scan.script, sameLines,
        Block.dedentedSource]

theorem keeps_of_blockText {options : FilterOptions} {scan : Scan} {line : Text}
    {current : Block} (ordinary : LineKind.ofLine line = .ordinary)
    (meets : Meets options (.block current) scan) :
    Keeps options (.block current) scan line []
      (.block { current with source := current.source ++ [line] }) := by
  cases meets with
  | block notScript notIgnoring notCollecting =>
    have stays := step_of_ordinary options ordinary
      (Scan.isTaking_of_not_collecting notCollecting)
    refine ⟨?_, ?_, ?_⟩
    · rw [stays]
      exact .block notScript notIgnoring notCollecting
    · rw [stays]
      simp [OpenRegion.shown, notScript, ContentFilter.titledBlock]
    · rw [stays]
      rfl
  | script isScript notIgnoring collecting sameIndent sameLines =>
    have isEvent : scan.event options.buildArtifacts line = .taken := by
      simp [Scan.event, ordinary, Scan.isTaking, notIgnoring, collecting]
    refine ⟨?_, ?_, ?_⟩
    · rw [step_of_event isEvent]
      refine .script isScript notIgnoring collecting sameIndent ?_
      simp [Scan.after, Scan.takenLine, sameIndent, sameLines]
    · rw [step_of_event isEvent]
      simp [OpenRegion.shown, isScript, Event.emitted, ContentFilter.titledBlock]
    · rw [step_of_event isEvent]
      rfl

/-- One line keeps the scan beside the open region. -/
theorem keeps_of_reads {options : FilterOptions} {region after : OpenRegion} {scan : Scan}
    {line : Text} {completed : List Segment} (reads : region.Reads line completed after)
    (meets : Meets options region scan) (inert : region.isFenced → Fence.isInert line) :
    Keeps options region scan line completed after := by
  cases reads with
  | startsVerbatim starts =>
    rcases meets with ⟨_, notCollecting⟩
    have stays := step_of_startsVerbatim options scan starts
    exact keeps_of_stays stays (.verbatim rfl notCollecting) rfl rfl
  | opensBlock found parsed lineNumber =>
    rcases meets with ⟨notIgnoring, notCollecting⟩
    exact keeps_of_opensBlock found parsed lineNumber notIgnoring notCollecting
  | opensFence notFound opens =>
    rcases meets with ⟨notIgnoring, notCollecting⟩
    have notTaking := Scan.isTaking_of_not_collecting notCollecting
    have stays := step_of_isFence options notFound opens notTaking
    exact keeps_of_stays stays (.plainFence notIgnoring notCollecting) rfl rfl
  | text notStart noFence =>
    rcases meets with ⟨notIgnoring, notCollecting⟩
    cases ends : Fence.endsVerbatim line with
    | true =>
      have stays := step_of_endsVerbatim options scan ends
      exact keeps_of_stays stays (.none rfl notCollecting) rfl rfl
    | false =>
      have ordinary := LineKind.ofLine_of_not_isFence noFence notStart ends
      have notTaking := Scan.isTaking_of_not_collecting notCollecting
      have stays := step_of_ordinary options ordinary notTaking
      exact keeps_of_stays stays (.none notIgnoring notCollecting) rfl rfl
  | endsVerbatim ends =>
    rcases meets with _ | ⟨_, notCollecting⟩
    have stays := step_of_endsVerbatim options scan ends
    exact keeps_of_stays stays (.none rfl notCollecting) rfl rfl
  | verbatimText notEnd =>
    rcases meets with _ | ⟨ignoring, notCollecting⟩
    have stays := step_of_ignoring options ignoring notEnd
    exact keeps_of_stays stays (.verbatim ignoring notCollecting) rfl rfl
  | closesFence closes =>
    rcases meets with _ | _ | ⟨notIgnoring, notCollecting⟩
    have notTaking := Scan.isTaking_of_not_collecting notCollecting
    have stays := step_of_isFence options (OpenFence.ofLine?_of_isClosing closes)
      (Fence.isFence_of_isClosing closes) notTaking
    exact keeps_of_stays stays (.none notIgnoring notCollecting) rfl rfl
  | fenceText notClosing =>
    rcases meets with _ | _ | ⟨notIgnoring, notCollecting⟩
    have ordinary := LineKind.ofLine_of_isInert (inert rfl) notClosing
    have notTaking := Scan.isTaking_of_not_collecting notCollecting
    have stays := step_of_ordinary options ordinary notTaking
    exact keeps_of_stays stays (.plainFence notIgnoring notCollecting) rfl rfl
  | closesBlock current closes => exact keeps_of_closesBlock closes meets
  | blockText current notClosing =>
    exact keeps_of_blockText (LineKind.ofLine_of_isInert (inert rfl) notClosing) meets

end LineFilter

namespace DocumentBuilder

/-- Whether no line between fences begins or ends a region in the line filter, the fences aside. -/
def undisturbed (builder : DocumentBuilder) (lineNumber : Nat) : List Text → Bool
  | [] => true
  | line :: rest =>
    (!builder.region.isFenced || Fence.isInert line) &&
      match builder.push lineNumber line with
      | .ok after => after.undisturbed (lineNumber + 1) rest
      | .error _ => true

end DocumentBuilder

namespace LineFilter

/-- What the scan makes of the lines is what is left of the segments they are cut into. -/
theorem advance_of_pushLines {options : FilterOptions} {builder final : DocumentBuilder}
    {scan : Scan} {lineNumber : Nat} {lines : List Text}
    (isRead : builder.pushLines lineNumber lines = .ok final)
    (undisturbed : builder.undisturbed lineNumber lines)
    (meets : Meets options builder.region scan) :
    ∃ segments,
      builder.region.read lineNumber lines = .ok (segments, final.region) ∧
      builder.region.shown options ++ (advance options scan lines).emitted =
        segments.flatMap (Segment.shown options) ++ final.region.shown options ∧
      (advance options scan lines).scripts = segments.flatMap (Segment.scripts options) := by
  induction lines generalizing builder scan lineNumber with
  | nil =>
    cases isRead
    exact ⟨[], rfl, by simp [advance], rfl⟩
  | cons line rest ih =>
    rcases DocumentBuilder.pushLines_cons isRead with
      ⟨completed, after, isNext, isPushed, isRest⟩
    simp only [DocumentBuilder.undisturbed, isPushed, Bool.and_eq_true, Bool.or_eq_true,
      Bool.not_eq_true'] at undisturbed
    rcases undisturbed with ⟨lineInert, restUndisturbed⟩
    have inert : builder.region.isFenced → Fence.isInert line := fun fenced =>
      lineInert.resolve_left (Bool.not_eq_false _ ▸ fenced)
    rcases keeps_of_reads (OpenRegion.reads_of_next isNext) meets inert with
      ⟨meetsAfter, emitted, scripts⟩
    rcases ih isRest restUndisturbed meetsAfter with
      ⟨later, isLater, laterEmitted, laterScripts⟩
    refine ⟨completed ++ later, OpenRegion.read_of_next isNext isLater, ?_, ?_⟩
    -- The scan emits the lines of a block before the block is complete, so what is left of the open
    -- region stands on both sides.
    · calc builder.region.shown options ++ (advance options scan (line :: rest)).emitted
          = builder.region.shown options ++ (step options scan line).emitted ++
              (advance options (step options scan line).scan rest).emitted := by
            rw [advance, List.append_assoc]
        _ = completed.flatMap (Segment.shown options) ++ (after.region.shown options ++
              (advance options (step options scan line).scan rest).emitted) := by
            rw [emitted, List.append_assoc]
        _ = (completed ++ later).flatMap (Segment.shown options) ++
              final.region.shown options := by
            rw [laterEmitted, List.flatMap_append, List.append_assoc]
    · rw [advance, List.flatMap_append, scripts, laterScripts]

end LineFilter

namespace Site

/--
A page that is read as `document` and that holds nothing that only one of the two ways to filter it
looks at: a block that is still open at the end of the page, a block that shows a recorded session,
or a line between fences that would begin or end a region outside of them.
-/
structure ReadsAlike (page : Text) (document : Document) : Prop where
  isRead : Document.read page = .ok document
  closed : ∀ builder, DocumentBuilder.empty.pushLines 1 (Lines.ofText page).items = .ok builder →
    builder.region.isBlock = false
  noSession : ∀ id block, document.references.get? id = some block →
    Property.hasClass block.properties Fence.replClass = false
  undisturbed : DocumentBuilder.empty.undisturbed 1 (Lines.ofText page).items

/-- On such a page a filter writes what is left of the segments and runs their scripts. -/
theorem exists_segments_of_readsAlike {page : Text} {document : Document}
    (alike : ReadsAlike page document) (options : FilterOptions) :
    ∃ segments, document.Shows segments ∧
      (∀ segment ∈ segments, segment.showsSession = false) ∧
      document.endsWithNewline = (Lines.ofText page).endsWithNewline ∧
      (LineFilter.advance options {} (Lines.ofText page).items).emitted =
        segments.flatMap (Segment.shown options) ∧
      (LineFilter.advance options {} (Lines.ofText page).items).scripts =
        segments.flatMap (Segment.scripts options) := by
  rcases Document.exists_builder_of_read alike.isRead with ⟨builder, isPushed, _⟩
  have meets : LineFilter.Meets options DocumentBuilder.empty.region {} := .none rfl rfl
  rcases LineFilter.advance_of_pushLines isPushed alike.undisturbed meets with
    ⟨segments, isCut, emitted, scripts⟩
  have closed := alike.closed builder isPushed
  have nothingOpen : DocumentBuilder.openLines builder.region = [] ∧
      builder.region.shown options = [] := by
    cases isRegion : builder.region with
    | none | verbatim | plainFence => exact ⟨rfl, rfl⟩
    | block current =>
      rw [isRegion] at closed
      contradiction
  rcases Document.shows_of_read alike.isRead with ⟨again, final, isCutAgain, shows, sameEnd⟩
  have same : segments = again ∧ builder.region = final := by
    simpa using isCut.symm.trans isCutAgain
  rcases same with ⟨rfl, rfl⟩
  rw [nothingOpen.1, List.map_nil, List.append_nil] at shows
  rw [nothingOpen.2, List.append_nil] at emitted
  have noSession := noSession_of_standsFor shows.each alike.noSession
  exact ⟨segments, shows, noSession, sameEnd, emitted, scripts⟩

/--
On a page that reads alike for both, the content chain and the line filter give the same text and
hand the same scripts to the runner, in the same order.
-/
theorem filterPageWith_agree {World : Type} (config : Config) (runner : BuildRunner World)
    (files : List Text × World → FileTree) (world : World) {page : Text} {document : Document}
    (alike : ReadsAlike page document) :
    ∃ scripts after text,
      filterPageWith { config with repl.enabled := true } runner.noting files ([], world) page =
        ((scripts, after), .ok text) ∧
      filterPageWith { config with repl.enabled := false } runner.noting files ([], world) page =
        ((scripts, after), .ok text) := by
  rcases exists_segments_of_readsAlike alike config.build.filterOptions with
    ⟨segments, shows, noSession, sameEnd, emitted, scripts⟩
  refine ⟨segments.flatMap (Segment.scripts config.build.filterOptions),
    LineFilter.runScripts runner world
      (segments.flatMap (Segment.scripts config.build.filterOptions)),
    Lines.toText ⟨segments.flatMap (Segment.shown config.build.filterOptions),
      document.endsWithNewline⟩, ?_, ?_⟩
  · simp only [filterPageWith, ↓reduceIte]
    rw [filterByBlocks_eq _ _ _ _ alike.isRead shows noSession, LineFilter.runScripts_noting,
      List.nil_append]
  · simp only [filterPageWith, Bool.false_eq_true, ↓reduceIte, filterByLines, LineFilter.run_eq,
      LineFilter.State.initial, emitted, scripts, sameEnd, LineFilter.runScripts_noting,
      List.nil_append]

/-- The filters agree on a page with a script, a named block and a fence of another language. -/
theorem filterPageWith_agree_mixed :
    ∃ page document, ReadsAlike page document ∧
      page = ("``` \x7b.c file=a.c\x7d\r\nint x;\r\n```\r\n```sh\nls\n```\n" ++
        "  ``` \x7b.build-artifact\x7d\n  all:\n  ```").toList ∧
      ∃ scripts after text,
        filterPageWith
            { ({ build := ⟨true, [], [], .suppress⟩ } : Config) with repl.enabled := true }
            BuildRunner.idle.noting (fun _ => {}) ([], ()) page = ((scripts, after), .ok text) ∧
          filterPageWith
            { ({ build := ⟨true, [], [], .suppress⟩ } : Config) with repl.enabled := false }
            BuildRunner.idle.noting (fun _ => {}) ([], ()) page = ((scripts, after), .ok text) := by
  generalize isPage : ("``` \x7b.c file=a.c\x7d\r\nint x;\r\n```\r\n```sh\nls\n```\n" ++
    "  ``` \x7b.build-artifact\x7d\n  all:\n  ```").toList = page
  have allBlocks : (Document.read page).toOption.any fun document =>
      document.references.entries.all fun entry =>
        !Property.hasClass entry.2.properties Fence.replClass := by
    subst isPage
    decide +kernel
  have noBlock : (DocumentBuilder.empty.pushLines 1 (Lines.ofText page).items).toOption.any
      fun builder => !builder.region.isBlock := by
    subst isPage
    decide +kernel
  have undisturbed : DocumentBuilder.empty.undisturbed 1 (Lines.ofText page).items := by
    subst isPage
    decide +kernel
  cases isRead : Document.read page with
  | error cause =>
    rw [isRead] at allBlocks
    contradiction
  | ok document =>
    rw [isRead] at allBlocks
    have alike : ReadsAlike page document := by
      refine ⟨isRead, ?_, ?_, undisturbed⟩
      · intro builder isPushed
        rw [isPushed] at noBlock
        have notBlock : (!builder.region.isBlock) = true := noBlock
        exact Bool.not_eq_true' _ ▸ notBlock
      · intro id block registered
        have isEntry := References.mem_entries_of_get? registered
        have noSession := List.all_eq_true.mp allBlocks _ isEntry
        simpa using noSession
    exact ⟨page, document, alike, rfl, filterPageWith_agree _ _ _ _ alike⟩

end Site

end LiterateMarkdown
