import LiterateMarkdown.Proofs.Document.Segments
import LiterateMarkdown.Proofs.LineEnding.Fence

/-!
# Documents of pages with CRLF line endings

A page with CRLF line endings is read as the document of the page with plain ones, each line of
which ends in a carriage return (`Document.read_toCrlf`). The blocks go by the same names, for these
come from the properties alone.
-/

namespace LiterateMarkdown

open DocumentBuilder (openLines)

namespace Block

/-- A block that is still open, on a page with CRLF line endings. -/
def withReturns (block : Block) : Block :=
  { block with
    openLine := Text.crlfLine block.openLine
    source := block.source.map Text.crlfLine
    lineEnding := ['\r'] }

/-- The block on a page with CRLF line endings. -/
def toCrlf (block : Block) : Block :=
  { block.withReturns with closeLine := Text.crlfLine block.closeLine }

@[simp]
theorem lines_toCrlf (block : Block) : block.toCrlf.lines = block.lines.map Text.crlfLine := by
  simp [lines, toCrlf, withReturns]

end Block

/-- The segment on a page with CRLF line endings. -/
def Segment.toCrlf : Segment → Segment
  | .line text => .line (Text.crlfLine text)
  | .block current => .block current.toCrlf

namespace OpenRegion

/-- The region on a page with CRLF line endings. -/
def toCrlf : OpenRegion → OpenRegion
  | block current => block current.withReturns
  | region => region

theorem openLines_toCrlf (region : OpenRegion) :
    openLines region.toCrlf = (openLines region).map Text.crlfLine := by
  cases region <;> rfl

/-- The next line completes the same segments and leaves the same region. -/
theorem next_toCrlf (region : OpenRegion) (lineNumber : Nat) {line : Text}
    (unbroken : line.Unbroken) :
    region.toCrlf.next lineNumber (Text.crlfLine line) =
      (region.next lineNumber line).map fun (completed, after) =>
        (completed.map Segment.toCrlf, after.toCrlf) := by
  have isLine := Text.crlfLine_of_newline_not_mem unbroken.1
  cases region with
  | none =>
    simp only [toCrlf, next, isLine, Fence.startsVerbatim_append_return,
      Fence.isFence_append_return, OpenFence.ofLine?_append_return unbroken.2]
    split
    · simp [Except.map, Segment.toCrlf, isLine]
    cases OpenFence.ofLine? line with
    | some fence =>
      have sameProperties : fence.withReturn.properties = fence.properties := rfl
      simp only [Option.map_some, sameProperties]
      cases Property.parse fence.properties with
      | error cause => rfl
      | ok properties =>
        simp [Except.map, Block.withReturns, isLine, OpenFence.withReturn]
    | none =>
      simp only [Option.map_none]
      split
      · simp [Except.map, Segment.toCrlf, isLine]
      · simp [Except.map, Segment.toCrlf, isLine]
  | verbatim =>
    simp only [toCrlf, next, isLine, Fence.endsVerbatim_append_return]
    split
    · simp [Except.map, Segment.toCrlf, isLine]
    · simp [Except.map, Segment.toCrlf, isLine]
  | plainFence =>
    simp only [toCrlf, next, isLine, Fence.isClosing_append_return]
    split
    · simp [Except.map, Segment.toCrlf, isLine]
    · simp [Except.map, Segment.toCrlf, isLine]
  | block current =>
    simp only [toCrlf, next, isLine, Fence.isClosing_append_return]
    split
    · simp [Except.map, Segment.toCrlf, Block.toCrlf, Block.withReturns, isLine]
    · simp [Except.map, Block.withReturns, isLine]

/-- Lines that end in carriage returns are cut into the same segments. -/
theorem read_toCrlf (region : OpenRegion) (lineNumber : Nat) {lines : List Text}
    (unbroken : ∀ line ∈ lines, line.Unbroken) :
    region.toCrlf.read lineNumber (lines.map Text.crlfLine) =
      (region.read lineNumber lines).map fun (segments, final) =>
        (segments.map Segment.toCrlf, final.toCrlf) := by
  induction lines generalizing region lineNumber with
  | nil => rfl
  | cons line rest ih =>
    rw [List.forall_mem_cons] at unbroken
    simp only [List.map_cons, read, next_toCrlf region lineNumber unbroken.1, bind, Except.bind]
    cases region.next lineNumber line with
    | error cause => rfl
    | ok outcome =>
      rcases outcome with ⟨completed, after⟩
      simp only [Except.map, ih after (lineNumber + 1) unbroken.2]
      cases after.read (lineNumber + 1) rest with
      | error cause => rfl
      | ok outcome => simp [pure, Except.pure]

end OpenRegion

namespace Lines

/-- The lines of a page without carriage returns hold no character of a line ending. -/
theorem unbroken_of_mem_ofText {page line : Text} (noReturn : '\r' ∉ page)
    (isLine : line ∈ (ofText page).items) : line.Unbroken :=
  ⟨newline_not_mem_of_mem_split isLine, fun present => noReturn (mem_of_mem_split isLine present)⟩

end Lines

theorem Segment.ofPage_toCrlf {page : Text} (noReturn : '\r' ∉ page)
    (ended : page = [] ∨ page.getLast? = some '\n') :
    ofPage (Text.toCrlf page) = (ofPage page).map (List.map toCrlf) := by
  have unbroken : ∀ line ∈ (Lines.ofText page).items, line.Unbroken := by
    intro line isLine
    exact Lines.unbroken_of_mem_ofText noReturn isLine
  have isRead := OpenRegion.read_toCrlf .none 1 unbroken
  have atStart : OpenRegion.none.toCrlf = .none := rfl
  rw [atStart] at isRead
  simp only [ofPage, Lines.ofText_toCrlf ended, isRead]
  cases OpenRegion.none.read 1 (Lines.ofText page).items with
  | error cause => rfl
  | ok outcome => simp [Except.map, OpenRegion.openLines_toCrlf, toCrlf, Function.comp_def]

namespace References

/-- The blocks of a page with CRLF line endings. -/
def toCrlf (references : References) : References :=
  { references with entries := references.entries.map fun entry => (entry.1, entry.2.toCrlf) }

@[simp]
theorem get?_toCrlf (references : References) (id : ReferenceId) :
    references.toCrlf.get? id = (references.get? id).map Block.toCrlf := by
  simp [get?, Table.at?, toCrlf, List.find?_map, Function.comp_def]

@[simp]
theorem named_toCrlf (references : References) (name : Text) :
    references.toCrlf.named name = references.named name :=
  rfl

theorem insertNamed_toCrlf (references : References) (name : Text) (block : Block) :
    references.toCrlf.insertNamed name block.toCrlf =
      ((references.insertNamed name block).1.toCrlf, (references.insertNamed name block).2) := by
  rw [insertNamed, named_toCrlf]
  simp only [toCrlf, Table.put_map]
  rfl

/-- A block is registered under the name that it has without carriage returns. -/
theorem insert_toCrlf (references : References) (block : Block) :
    references.toCrlf.insert block.toCrlf =
      ((references.insert block).1.toCrlf, (references.insert block).2) := by
  have sameName : givenName? block.toCrlf = givenName? block := rfl
  simp only [insert, sameName]
  cases givenName? block with
  | some name => exact insertNamed_toCrlf references name block
  | none =>
    exact insertNamed_toCrlf { references with anonymous := references.anonymous + 1 }
      (anonymousName references.anonymous) block

theorem modify_toCrlf (references : References) (id : ReferenceId) (block : Block) :
    (references.toCrlf.modify id fun _ => block.toCrlf) =
      (references.modify id fun _ => block).toCrlf := by
  simp only [modify, toCrlf, List.map_map]
  congr 1
  apply List.map_congr_left
  intro entry _
  by_cases same : entry.1 = id
  · simp [same]
  · simp [same]

end References

/-- The item on a page with CRLF line endings. -/
def Content.toCrlf : Content → Content
  | .plainText text => .plainText (Text.crlfLine text)
  | .reference id => .reference id

/-- The document of a page with CRLF line endings. -/
def Document.toCrlf (document : Document) : Document :=
  { document with
    references := document.references.toCrlf
    content := document.content.map Content.toCrlf }

/-- What was read of a page with CRLF line endings. -/
def DocumentBuilder.toCrlf (builder : DocumentBuilder) : DocumentBuilder :=
  ⟨builder.region.toCrlf, builder.references.toCrlf, builder.content.map Content.toCrlf⟩

theorem DocumentBuilder.addAll_toCrlf (builder : DocumentBuilder) (segments : List Segment) :
    builder.toCrlf.addAll (segments.map Segment.toCrlf) = (builder.addAll segments).toCrlf := by
  induction segments generalizing builder with
  | nil => rfl
  | cons segment rest ih =>
    have isAdded : builder.toCrlf.add segment.toCrlf = (builder.add segment).toCrlf := by
      cases segment with
      | line text => simp [add, Segment.toCrlf, pushText, toCrlf, Content.toCrlf]
      | block block =>
        simp [add, Segment.toCrlf, pushBlock, toCrlf, References.insert_toCrlf, Content.toCrlf,
          OpenRegion.toCrlf]
    simp only [addAll, List.map_cons, List.foldl_cons] at ih ⊢
    rw [isAdded, ih]

namespace Document

theorem ofSegments_toCrlf (segments : List Segment) :
    ofSegments (segments.map Segment.toCrlf) = (ofSegments segments).toCrlf := by
  have isAdded := DocumentBuilder.addAll_toCrlf .empty segments
  exact congrArg DocumentBuilder.complete isAdded

/-- Reading a page with CRLF line endings. -/
theorem read_toCrlf {page : Text} (noReturn : '\r' ∉ page)
    (ended : page = [] ∨ page.getLast? = some '\n') :
    read (Text.toCrlf page) = (read page).map toCrlf := by
  simp only [read_eq, Segment.ofPage_toCrlf noReturn ended, Lines.ofText_toCrlf ended]
  cases Segment.ofPage page with
  | error cause => rfl
  | ok segments =>
    simp only [Except.map, ofSegments_toCrlf]
    rfl

theorem contentLines_toCrlf (references : References) (content : List Content) :
    contentLines references.toCrlf (content.map Content.toCrlf) =
      (contentLines references content).map (List.map Text.crlfLine) := by
  induction content with
  | nil => rfl
  | cons item rest ih =>
    have isItem : item.toCrlf.lines references.toCrlf =
        (item.lines references).map (List.map Text.crlfLine) := by
      cases item with
      | plainText text => rfl
      | reference id =>
        simp only [Content.toCrlf, Content.lines, References.get?_toCrlf]
        cases references.get? id with
        | none => rfl
        | some block => simp [Except.map]
    simp only [List.map_cons, contentLines, isItem, ih, bind, Except.bind]
    cases item.lines references with
    | error cause => rfl
    | ok lines =>
      simp only [Except.map]
      cases contentLines references rest with
      | error cause => rfl
      | ok later => simp [pure, Except.pure]

end Document

end LiterateMarkdown
