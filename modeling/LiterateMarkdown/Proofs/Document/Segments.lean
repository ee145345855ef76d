import LiterateMarkdown.Document.Builder
import LiterateMarkdown.Proofs.Document.References
import Mathlib.Data.List.Forall2

/-!
# Segments of a page

A page is a sequence of segments: lines of text and code blocks. Cutting a page into segments takes
no references (`OpenRegion.read`), and the segments put together are the page. Reading a page is
cutting it and registering the segments one after the other (`Document.read_eq`), so that each item
of the document stands for one of them (`Document.Shows`). So writing a document that was read gives
the page back (`render_of_read`).
-/

namespace LiterateMarkdown

open DocumentBuilder (openLines)

/-- A piece of a page. -/
inductive Segment where
  | line (text : Text)
  | block (block : Block)
  deriving DecidableEq, Repr

/-- The lines of a piece. -/
def Segment.lines : Segment → List Text
  | .line text => [text]
  | .block current => current.lines

@[simp]
theorem Segment.flatMap_lines_map_line (texts : List Text) :
    (texts.map line).flatMap lines = texts := by
  simp [List.flatMap_map, lines]

namespace OpenRegion

/-- The segments that a line completes, and the region that it leaves open. -/
def next (region : OpenRegion) (lineNumber : Nat) (line : Text) :
    Except FilterError (List Segment × OpenRegion) :=
  match region with
  | none =>
    if Fence.startsVerbatim line then .ok ([.line line], verbatim)
    else
      match OpenFence.ofLine? line with
      | some fence =>
        match Property.parse fence.properties with
        | .error cause => .error (.properties lineNumber cause)
        | .ok properties =>
          .ok ([], block ⟨properties, fence.indent, line, [], [], fence.lineEnding, lineNumber⟩)
      | Option.none =>
        if Fence.isFence line then .ok ([.line line], plainFence) else .ok ([.line line], none)
  | verbatim => .ok ([.line line], if Fence.endsVerbatim line then none else verbatim)
  | plainFence => .ok ([.line line], if Fence.isClosing line then none else plainFence)
  | block current =>
    if Fence.isClosing line then .ok ([.block { current with closeLine := line }], none)
    else .ok ([], block { current with source := current.source ++ [line] })

/-- Cut lines into segments. -/
def read (region : OpenRegion) (lineNumber : Nat) :
    List Text → Except FilterError (List Segment × OpenRegion)
  | [] => .ok ([], region)
  | line :: rest => do
    let (completed, region) ← region.next lineNumber line
    let (later, region) ← region.read (lineNumber + 1) rest
    return (completed ++ later, region)

/-- What a line can do to the open region. -/
inductive Reads : OpenRegion → Text → List Segment → OpenRegion → Prop where
  | startsVerbatim {line : Text} (starts : Fence.startsVerbatim line) :
      Reads none line [.line line] verbatim
  | opensBlock {line : Text} {fence : OpenFence} {properties : List Property}
      (found : OpenFence.ofLine? line = some fence)
      (parsed : Property.parse fence.properties = .ok properties) (lineNumber : Nat) :
      Reads none line []
        (block ⟨properties, fence.indent, line, [], [], fence.lineEnding, lineNumber⟩)
  | opensFence {line : Text} (notFound : OpenFence.ofLine? line = Option.none)
      (opens : Fence.isFence line) : Reads none line [.line line] plainFence
  | text {line : Text} (notStart : Fence.startsVerbatim line = false)
      (noFence : Fence.isFence line = false) : Reads none line [.line line] none
  | endsVerbatim {line : Text} (ends : Fence.endsVerbatim line) :
      Reads verbatim line [.line line] none
  | verbatimText {line : Text} (notEnd : Fence.endsVerbatim line = false) :
      Reads verbatim line [.line line] verbatim
  | closesFence {line : Text} (closes : Fence.isClosing line) :
      Reads plainFence line [.line line] none
  | fenceText {line : Text} (notClosing : Fence.isClosing line = false) :
      Reads plainFence line [.line line] plainFence
  | closesBlock {line : Text} (current : Block) (closes : Fence.isClosing line) :
      Reads (block current) line [.block { current with closeLine := line }] none
  | blockText {line : Text} (current : Block) (notClosing : Fence.isClosing line = false) :
      Reads (block current) line [] (block { current with source := current.source ++ [line] })

theorem reads_of_next {region after : OpenRegion} {lineNumber : Nat} {line : Text}
    {completed : List Segment} (isNext : region.next lineNumber line = .ok (completed, after)) :
    Reads region line completed after := by
  cases region with
  | none =>
    simp only [next] at isNext
    split at isNext
    · rename_i starts
      cases isNext
      exact .startsVerbatim starts
    rename_i notStart
    split at isNext
    · rename_i fence found
      split at isNext
      · contradiction
      · rename_i properties parsed
        cases isNext
        exact .opensBlock found parsed lineNumber
    · rename_i notFound
      split at isNext
      · rename_i opens
        cases isNext
        exact .opensFence notFound opens
      · rename_i noFence
        cases isNext
        exact .text (Bool.eq_false_iff.mpr notStart) (Bool.eq_false_iff.mpr noFence)
  | verbatim =>
    simp only [next] at isNext
    cases isNext
    split
    · exact .endsVerbatim ‹_›
    · exact .verbatimText (Bool.eq_false_iff.mpr ‹_›)
  | plainFence =>
    simp only [next] at isNext
    cases isNext
    split
    · exact .closesFence ‹_›
    · exact .fenceText (Bool.eq_false_iff.mpr ‹_›)
  | block current =>
    simp only [next] at isNext
    split at isNext
    · cases isNext
      exact .closesBlock current ‹_›
    · cases isNext
      exact .blockText current (Bool.eq_false_iff.mpr ‹_›)

theorem read_cons {region final : OpenRegion} {lineNumber : Nat} {line : Text} {rest : List Text}
    {segments : List Segment}
    (isRead : region.read lineNumber (line :: rest) = .ok (segments, final)) :
    ∃ completed after later, region.next lineNumber line = .ok (completed, after) ∧
      after.read (lineNumber + 1) rest = .ok (later, final) ∧ segments = completed ++ later := by
  simp only [read, bind, Except.bind] at isRead
  split at isRead
  · contradiction
  rename_i first isNext
  split at isRead
  · contradiction
  rename_i second isLater
  cases isRead
  exact ⟨first.1, first.2, second.1, isNext, isLater, rfl⟩

theorem read_of_next {region after final : OpenRegion} {lineNumber : Nat} {line : Text}
    {rest : List Text} {completed later : List Segment}
    (isNext : region.next lineNumber line = .ok (completed, after))
    (isLater : after.read (lineNumber + 1) rest = .ok (later, final)) :
    region.read lineNumber (line :: rest) = .ok (completed ++ later, final) := by
  simp only [read, isNext, isLater, bind, Except.bind, pure, Except.pure]

/-- A line goes to the open region or to a completed segment. -/
theorem lines_of_reads {region after : OpenRegion} {line : Text} {completed : List Segment}
    (reads : Reads region line completed after) :
    openLines region ++ [line] = completed.flatMap Segment.lines ++ openLines after := by
  cases reads <;> simp [openLines, Segment.lines, Block.lines]

/-- The segments put together are the lines that were read. -/
theorem lines_of_read {region final : OpenRegion} {lineNumber : Nat} {lines : List Text}
    {segments : List Segment} (isRead : region.read lineNumber lines = .ok (segments, final)) :
    openLines region ++ lines = segments.flatMap Segment.lines ++ openLines final := by
  induction lines generalizing region lineNumber segments with
  | nil =>
    cases isRead
    simp
  | cons line rest ih =>
    rcases read_cons isRead with ⟨completed, after, later, isNext, isLater, rfl⟩
    calc openLines region ++ line :: rest
        = openLines region ++ [line] ++ rest := by simp
      _ = completed.flatMap Segment.lines ++ (openLines after ++ rest) := by
          rw [lines_of_reads (reads_of_next isNext), List.append_assoc]
      _ = (completed ++ later).flatMap Segment.lines ++ openLines final := by
          rw [ih isLater, List.flatMap_append, List.append_assoc]

end OpenRegion

/-- An item that stands for a segment. -/
inductive Content.StandsFor (references : References) : Content → Segment → Prop where
  | line (text : Text) : StandsFor references (.plainText text) (.line text)
  | block {id : ReferenceId} {block : Block} (registered : references.get? id = some block) :
      StandsFor references (.reference id) (.block block)

/-- The reference, if the item is one. -/
def Content.reference? : Content → Option ReferenceId
  | plainText _ => none
  | reference id => some id

/-- A document whose items stand for segments, every block under a reference of its own. -/
structure Document.Shows (document : Document) (segments : List Segment) : Prop where
  inStep : document.references.InStep
  each : List.Forall₂ (Content.StandsFor document.references) document.content segments
  references : document.content.filterMap Content.reference? = document.references.keys

namespace DocumentBuilder

/-- Add a segment to the document. -/
def add (builder : DocumentBuilder) : Segment → DocumentBuilder
  | .line text => builder.pushText text
  | .block block => builder.pushBlock block

/-- Add segments to the document, in order. -/
def addAll (builder : DocumentBuilder) (segments : List Segment) : DocumentBuilder :=
  segments.foldl add builder

/-- The document of the segments that are complete. -/
def complete (builder : DocumentBuilder) : Document where
  references := builder.references
  content := builder.content

theorem addAll_append (builder : DocumentBuilder) (earlier later : List Segment) :
    builder.addAll (earlier ++ later) = (builder.addAll earlier).addAll later :=
  List.foldl_append

/-- What is added does not depend on the open region. -/
theorem complete_addAll_congr {left right : DocumentBuilder} (same : left.complete = right.complete)
    (segments : List Segment) :
    (left.addAll segments).complete = (right.addAll segments).complete := by
  induction segments generalizing left right with
  | nil => exact same
  | cons segment rest ih =>
    have sameReferences : left.references = right.references := congrArg Document.references same
    have sameContent : left.content = right.content := congrArg Document.content same
    apply ih
    cases segment with
    | line text => simp [add, pushText, complete, sameReferences, sameContent]
    | block block => simp [add, pushBlock, complete, sameReferences, sameContent]

theorem push_eq (builder : DocumentBuilder) (lineNumber : Nat) (line : Text) :
    builder.push lineNumber line =
      (builder.region.next lineNumber line).map fun (completed, region) =>
        { builder.addAll completed with region } := by
  rcases builder with ⟨region, references, content⟩
  cases region with
  | none =>
    simp only [push, pushOutside, OpenRegion.next]
    by_cases starts : Fence.startsVerbatim line
    · simp only [starts, ↓reduceIte]
      rfl
    simp only [starts, Bool.false_eq_true, ↓reduceIte]
    cases OpenFence.ofLine? line with
    | some fence =>
      simp only
      cases Property.parse fence.properties <;> rfl
    | none =>
      simp only
      cases Fence.isFence line <;> rfl
  | verbatim | plainFence => rfl
  | block current =>
    simp only [push, OpenRegion.next]
    cases Fence.isClosing line <;> rfl

theorem pushLines_cons {builder final : DocumentBuilder} {lineNumber : Nat} {line : Text}
    {rest : List Text} (isRead : builder.pushLines lineNumber (line :: rest) = .ok final) :
    ∃ completed after, builder.region.next lineNumber line = .ok (completed, after.region) ∧
      builder.push lineNumber line = .ok after ∧
      after.pushLines (lineNumber + 1) rest = .ok final := by
  simp only [pushLines, bind, Except.bind] at isRead
  split at isRead
  · contradiction
  rename_i after isPushed
  have isNext := (push_eq builder lineNumber line).symm.trans isPushed
  cases next : builder.region.next lineNumber line with
  | error cause =>
    rw [next] at isNext
    contradiction
  | ok outcome =>
    rw [next] at isNext
    cases isNext
    exact ⟨outcome.1, _, rfl, isPushed, isRead⟩

theorem withRegion_congr {left right : DocumentBuilder} (same : left.complete = right.complete)
    (region : OpenRegion) : { left with region } = { right with region } := by
  have sameReferences : left.references = right.references := congrArg Document.references same
  have sameContent : left.content = right.content := congrArg Document.content same
  simp [sameReferences, sameContent]

/-- Reading lines is cutting them into segments and adding these. -/
theorem pushLines_eq (builder : DocumentBuilder) (lineNumber : Nat) (lines : List Text) :
    builder.pushLines lineNumber lines =
      (builder.region.read lineNumber lines).map fun (segments, region) =>
        { builder.addAll segments with region } := by
  induction lines generalizing builder lineNumber with
  | nil => rfl
  | cons line rest ih =>
    simp only [pushLines, OpenRegion.read, push_eq, bind, Except.bind]
    cases builder.region.next lineNumber line with
    | error cause => rfl
    | ok outcome =>
      rcases outcome with ⟨completed, region⟩
      simp only [Except.map, ih]
      cases region.read (lineNumber + 1) rest with
      | error cause => rfl
      | ok outcome =>
        rcases outcome with ⟨later, final⟩
        simp only [pure, Except.pure, addAll_append]
        congr 1
        apply withRegion_congr
        apply complete_addAll_congr
        rfl

theorem finish_eq (builder : DocumentBuilder) :
    builder.finish = (builder.addAll ((openLines builder.region).map .line)).complete := by
  have addLines : ∀ (lines : List Text) (start : DocumentBuilder),
      (start.addAll (lines.map .line)).complete =
        ⟨start.references, start.content ++ lines.map .plainText, false⟩ := by
    intro lines
    induction lines with
    | nil => simp [addAll, complete]
    | cons line rest ih =>
      intro start
      simp only [addAll, List.map_cons, List.foldl_cons] at ih ⊢
      simp [ih, add, pushText]
  rw [addLines]
  rfl

end DocumentBuilder

namespace Segment

/-- The segments of a page, a block that is never closed being lines. -/
def ofPage (page : Text) : Except FilterError (List Segment) :=
  (OpenRegion.none.read 1 (Lines.ofText page).items).map fun (segments, final) =>
    segments ++ (openLines final).map .line

theorem exists_read_of_ofPage {page : Text} {segments : List Segment}
    (isCut : ofPage page = .ok segments) :
    ∃ completed final, OpenRegion.none.read 1 (Lines.ofText page).items = .ok (completed, final) ∧
      segments = completed ++ (openLines final).map .line := by
  simp only [ofPage] at isCut
  cases isRead : OpenRegion.none.read 1 (Lines.ofText page).items with
  | error cause =>
    rw [isRead] at isCut
    contradiction
  | ok outcome =>
    rw [isRead] at isCut
    cases isCut
    exact ⟨outcome.1, outcome.2, rfl, rfl⟩

/-- The segments of a page put together are its lines. -/
theorem lines_of_ofPage {page : Text} {segments : List Segment}
    (isCut : ofPage page = .ok segments) : segments.flatMap lines = (Lines.ofText page).items := by
  rcases exists_read_of_ofPage isCut with ⟨completed, final, isRead, rfl⟩
  rw [List.flatMap_append, flatMap_lines_map_line, ← OpenRegion.lines_of_read isRead]
  rfl

end Segment

namespace Document

/-- The document of segments. -/
def ofSegments (segments : List Segment) : Document :=
  (DocumentBuilder.empty.addAll segments).complete

theorem read_eq (page : Text) :
    read page = (Segment.ofPage page).map fun segments =>
      { ofSegments segments with endsWithNewline := (Lines.ofText page).endsWithNewline } := by
  simp only [read, Segment.ofPage, DocumentBuilder.pushLines_eq, bind, Except.bind]
  cases isCut : OpenRegion.read DocumentBuilder.empty.region 1 (Lines.ofText page).items with
  | error cause =>
    have same : OpenRegion.none.read 1 (Lines.ofText page).items = .error cause := isCut
    simp [same, Except.map]
  | ok outcome =>
    rcases outcome with ⟨segments, final⟩
    have same : OpenRegion.none.read 1 (Lines.ofText page).items = .ok (segments, final) := isCut
    have finished : DocumentBuilder.finish
        { DocumentBuilder.empty.addAll segments with region := final } =
          ofSegments (segments ++ (openLines final).map .line) := by
      rw [DocumentBuilder.finish_eq, ofSegments, DocumentBuilder.addAll_append]
      apply DocumentBuilder.complete_addAll_congr
      rfl
    simp only [same, Except.map, finished, pure, Except.pure]

/-- A document that was read is that of the segments of its page. -/
theorem exists_ofPage_of_read {page : Text} {document : Document}
    (isRead : read page = .ok document) :
    ∃ segments, Segment.ofPage page = .ok segments ∧ document =
      { ofSegments segments with endsWithNewline := (Lines.ofText page).endsWithNewline } := by
  rw [read_eq] at isRead
  cases isCut : Segment.ofPage page with
  | error cause =>
    rw [isCut] at isRead
    contradiction
  | ok segments =>
    rw [isCut] at isRead
    cases isRead
    exact ⟨segments, rfl, rfl⟩

theorem shows_empty : DocumentBuilder.empty.complete.Shows [] where
  inStep := References.inStep_empty
  each := .nil
  references := rfl

/-- Adding a segment leaves the items that are there, and adds one that stands for it. -/
theorem shows_add {builder : DocumentBuilder} {segments : List Segment}
    (shows : builder.complete.Shows segments) (segment : Segment) :
    (builder.add segment).complete.Shows (segments ++ [segment]) := by
  rcases shows with ⟨inStep, each, references⟩
  cases segment with
  | line text =>
    refine ⟨inStep, List.rel_append each (.cons (.line text) .nil), ?_⟩
    have sameKeys : (builder.content ++ [Content.plainText text]).filterMap Content.reference? =
        builder.references.keys := by
      rw [List.filterMap_append]
      exact (List.append_nil _).trans references
    exact sameKeys
  | block block =>
    have earlier : List.Forall₂ (Content.StandsFor (builder.references.insert block).1)
        builder.content segments := by
      refine each.imp fun item segment stands => ?_
      cases stands with
      | line text => exact .line text
      | block registered => exact .block (References.get?_insert_of_some inStep registered block)
    have added := Content.StandsFor.block (References.get?_insert_self builder.references block)
    refine ⟨References.inStep_insert inStep block, List.rel_append earlier (.cons added .nil), ?_⟩
    have allKeys :
        (builder.content ++ [Content.reference (builder.references.insert block).2]).filterMap
          Content.reference? = (builder.references.insert block).1.keys := by
      rw [List.filterMap_append]
      exact (congrArg (· ++ _) references).trans (References.keys_insert inStep block).symm
    exact allKeys

theorem shows_addAll {builder : DocumentBuilder} {earlier : List Segment}
    (shows : builder.complete.Shows earlier) (segments : List Segment) :
    (builder.addAll segments).complete.Shows (earlier ++ segments) := by
  induction segments generalizing builder earlier with
  | nil => simpa [DocumentBuilder.addAll] using shows
  | cons segment rest ih =>
    have shown := ih (shows_add shows segment)
    rwa [List.append_assoc, List.singleton_append] at shown

theorem shows_ofSegments (segments : List Segment) : (ofSegments segments).Shows segments :=
  shows_addAll shows_empty segments

/-- A registered block is one of the segments that the document shows. -/
theorem Shows.mem_segments {document : Document} {segments : List Segment}
    (shows : document.Shows segments) {id : ReferenceId} {block : Block}
    (registered : document.references.get? id = some block) : .block block ∈ segments := by
  rcases shows with ⟨_, each, references⟩
  have isKey := References.mem_keys_of_get? registered
  rw [← references] at isKey
  clear references
  generalize document.content = content at each isKey
  induction each with
  | nil => contradiction
  | @cons item segment rest others stands _ ih =>
    cases stands with
    | line text => exact List.mem_cons_of_mem _ (ih isKey)
    | block isBlock =>
      rcases List.mem_cons.mp isKey with rfl | isLater
      · rw [registered] at isBlock
        cases isBlock
        exact List.mem_cons_self
      · exact List.mem_cons_of_mem _ (ih isLater)

theorem Shows.nodup_references {document : Document} {segments : List Segment}
    (shows : document.Shows segments) : (document.content.filterMap Content.reference?).Nodup := by
  rw [shows.references]
  exact References.nodup_keys shows.inStep

/-- A document refers to the blocks that are registered. -/
theorem Shows.mem_references_iff {document : Document} {segments : List Segment}
    (shows : document.Shows segments) {id : ReferenceId} :
    id ∈ document.content.filterMap Content.reference? ↔ (document.references.get? id).isSome := by
  rw [shows.references]
  constructor
  · intro isKey
    rcases List.mem_map.mp isKey with ⟨⟨_, block⟩, isEntry, rfl⟩
    exact Option.isSome_of_eq_some (References.get?_of_mem_entries shows.inStep isEntry)
  · intro isSome
    rcases Option.isSome_iff_exists.mp isSome with ⟨block, registered⟩
    exact References.mem_keys_of_get? registered

theorem exists_builder_of_read {page : Text} {document : Document}
    (isRead : read page = .ok document) :
    ∃ builder, DocumentBuilder.empty.pushLines 1 (Lines.ofText page).items = .ok builder ∧
      document =
        { builder.finish with endsWithNewline := (Lines.ofText page).endsWithNewline } := by
  simp only [read, bind, Except.bind] at isRead
  split at isRead
  · contradiction
  rename_i builder isPushed
  cases isRead
  exact ⟨builder, isPushed, rfl⟩

/-- A document that was read shows the segments of its page, an open region being text. -/
theorem shows_of_read {page : Text} {document : Document} (isRead : read page = .ok document) :
    ∃ segments final,
      OpenRegion.none.read 1 (Lines.ofText page).items = .ok (segments, final) ∧
        document.Shows (segments ++ (openLines final).map .line) ∧
        document.endsWithNewline = (Lines.ofText page).endsWithNewline := by
  rcases exists_ofPage_of_read isRead with ⟨segments, isCut, rfl⟩
  rcases Segment.exists_read_of_ofPage isCut with ⟨completed, final, isCompleted, rfl⟩
  rcases shows_ofSegments (completed ++ (openLines final).map .line) with
    ⟨inStep, each, references⟩
  exact ⟨completed, final, isCompleted, ⟨inStep, each, references⟩, rfl⟩

theorem contentLines_cons {references : References} {item : Content} {rest : List Content}
    {lines later : List Text} (isItem : item.lines references = .ok lines)
    (isRest : contentLines references rest = .ok later) :
    contentLines references (item :: rest) = .ok (lines ++ later) := by
  simp only [contentLines, isItem, isRest, bind, Except.bind, pure, Except.pure]

theorem contentLines_append {references : References} {earlier later : List Content}
    {lines laterLines : List Text} (isEarlier : contentLines references earlier = .ok lines)
    (isLater : contentLines references later = .ok laterLines) :
    contentLines references (earlier ++ later) = .ok (lines ++ laterLines) := by
  induction earlier generalizing lines with
  | nil =>
    cases isEarlier
    exact isLater
  | cons item rest ih =>
    simp only [contentLines, bind, Except.bind] at isEarlier
    split at isEarlier
    · contradiction
    rename_i itemLines isItem
    split at isEarlier
    · contradiction
    rename_i restLines isRest
    cases isEarlier
    rw [List.append_assoc]
    exact contentLines_cons isItem (ih isRest)

theorem lines_of_standsFor {references : References} {item : Content} {segment : Segment}
    (stands : item.StandsFor references segment) : item.lines references = .ok segment.lines := by
  cases stands with
  | line text => rfl
  | block registered => simp only [Content.lines, registered, Segment.lines]

theorem contentLines_of_standsFor {references : References} {content : List Content}
    {segments : List Segment}
    (each : List.Forall₂ (Content.StandsFor references) content segments) :
    contentLines references content = .ok (segments.flatMap Segment.lines) := by
  induction each with
  | nil => rfl
  | cons stands _ ih => exact contentLines_cons (lines_of_standsFor stands) ih

/-- Writing a document that was read from a page gives the page. -/
theorem render_of_read {page : Text} {document : Document} (isRead : read page = .ok document) :
    document.render = .ok page := by
  rcases shows_of_read isRead with ⟨segments, final, isCut, shows, sameEnd⟩
  have allLines : (segments ++ (openLines final).map Segment.line).flatMap Segment.lines =
      (Lines.ofText page).items := by
    rw [List.flatMap_append, Segment.flatMap_lines_map_line, ← OpenRegion.lines_of_read isCut]
    rfl
  calc document.render
      = .ok (Lines.toText ⟨(Lines.ofText page).items, (Lines.ofText page).endsWithNewline⟩) := by
        rw [render, contentLines_of_standsFor shows.each, allLines, sameEnd]
        rfl
    _ = .ok page := congrArg Except.ok (Lines.toText_ofText page)

theorem render_of_read_unclosed :
    ∃ page document,
      page = "``` \x7b.c\x7d\r\nint x;\r\n```\n~~~markdown\n~~~\n``` \x7b.d\x7d\nend".toList ∧
        read page = .ok document ∧ document.render = .ok page := by
  have readable : (read
      "``` \x7b.c\x7d\r\nint x;\r\n```\n~~~markdown\n~~~\n``` \x7b.d\x7d\nend".toList).isOk := by
    decide +kernel
  cases isRead : read
      "``` \x7b.c\x7d\r\nint x;\r\n```\n~~~markdown\n~~~\n``` \x7b.d\x7d\nend".toList with
  | error cause =>
    rw [isRead] at readable
    contradiction
  | ok document => exact ⟨_, document, rfl, isRead, render_of_read isRead⟩

end Document

end LiterateMarkdown
