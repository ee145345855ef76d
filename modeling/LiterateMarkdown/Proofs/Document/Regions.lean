import LiterateMarkdown.Proofs.Document.Segments
import LiterateMarkdown.Proofs.Fence.LineKind

/-!
# The fenced regions of a page

The blocks among the segments of a page are its fenced regions: each begins with a fence that
carries its properties, ends with the first fence after it that closes a block, and holds the lines
between them (`Segment.isFenced_of_ofPage`).
-/

namespace LiterateMarkdown

/-- A block whose lines are those of a fenced region, up to the fence that closes it. -/
structure Block.IsFencedBy (block : Block) (fence : OpenFence) : Prop where
  found : OpenFence.ofLine? block.openLine = some fence
  parsed : Property.parse fence.properties = .ok block.properties
  sameIndent : block.indent = fence.indent
  sameEnding : block.lineEnding = fence.lineEnding
  noClosing : ∀ line ∈ block.source, Fence.isClosing line = false

namespace Block.IsFencedBy

variable {block : Block} {fence : OpenFence}

theorem close (fenced : block.IsFencedBy fence) (closeLine : Text) :
    { block with closeLine }.IsFencedBy fence :=
  ⟨fenced.found, fenced.parsed, fenced.sameIndent, fenced.sameEnding, fenced.noClosing⟩

theorem append (fenced : block.IsFencedBy fence) {line : Text}
    (notClosing : Fence.isClosing line = false) :
    { block with source := block.source ++ [line] }.IsFencedBy fence := by
  refine ⟨fenced.found, fenced.parsed, fenced.sameIndent, fenced.sameEnding, ?_⟩
  intro other present
  rcases List.mem_append.mp present with earlier | last
  · exact fenced.noClosing other earlier
  · rw [List.mem_singleton.mp last]
    exact notClosing

end Block.IsFencedBy

namespace OpenRegion

/-- Whether a block that is still open was begun by a fence. -/
def IsFenced : OpenRegion → Prop
  | block current => ∃ fence, current.IsFencedBy fence
  | none | verbatim | plainFence => True

end OpenRegion

/-- Whether the block was begun and closed by fences. -/
def Segment.IsFenced : Segment → Prop
  | .line _ => True
  | .block current => (∃ fence, current.IsFencedBy fence) ∧ Fence.isClosing current.closeLine

namespace OpenRegion

theorem next_of_opens {line : Text} {fence : OpenFence} {properties : List Property}
    (found : OpenFence.ofLine? line = some fence)
    (parsed : Property.parse fence.properties = .ok properties) (lineNumber : Nat) :
    none.next lineNumber line = .ok ([],
      block ⟨properties, fence.indent, line, [], [], fence.lineEnding, lineNumber⟩) := by
  have notStart := Fence.not_startsVerbatim_of_isFence (Fence.isFence_of_ofLine? found)
  simp only [next, notStart, found, parsed, Bool.false_eq_true, ↓reduceIte]

theorem isFenced_of_reads {region after : OpenRegion} {line : Text} {completed : List Segment}
    (reads : Reads region line completed after) (fenced : region.IsFenced) :
    (∀ segment ∈ completed, segment.IsFenced) ∧ after.IsFenced := by
  cases reads with
  | @opensBlock _ fence properties found parsed lineNumber =>
    refine ⟨by simp, fence, ?_⟩
    exact ⟨found, parsed, rfl, rfl, by simp⟩
  | closesBlock current closes =>
    rcases fenced with ⟨fence, isFenced⟩
    refine ⟨?_, trivial⟩
    intro segment present
    rw [List.mem_singleton] at present
    subst present
    exact ⟨⟨fence, isFenced.close line⟩, closes⟩
  | blockText current notClosing =>
    rcases fenced with ⟨fence, isFenced⟩
    exact ⟨by simp, fence, isFenced.append notClosing⟩
  | startsVerbatim | opensFence | text | endsVerbatim | verbatimText | closesFence | fenceText =>
    exact ⟨by simp [Segment.IsFenced], trivial⟩

/-- The blocks that lines are cut into are fenced regions. -/
theorem isFenced_of_read {region final : OpenRegion} {lineNumber : Nat} {lines : List Text}
    {segments : List Segment} (isRead : region.read lineNumber lines = .ok (segments, final))
    (fenced : region.IsFenced) : (∀ segment ∈ segments, segment.IsFenced) ∧ final.IsFenced := by
  induction lines generalizing region lineNumber segments with
  | nil =>
    cases isRead
    exact ⟨by simp, fenced⟩
  | cons line rest ih =>
    rcases read_cons isRead with ⟨completed, after, later, isNext, isLater, rfl⟩
    rcases isFenced_of_reads (reads_of_next isNext) fenced with ⟨first, afterFenced⟩
    rcases ih isLater afterFenced with ⟨others, finalFenced⟩
    refine ⟨?_, finalFenced⟩
    intro segment present
    rcases List.mem_append.mp present with isFirst | isOther
    · exact first segment isFirst
    · exact others segment isOther

/-- Lines that do not close a block are those of its body, up to the line that does. -/
theorem read_block {lines : List Text} (noClosing : ∀ line ∈ lines, Fence.isClosing line = false)
    {closeLine : Text} (closes : Fence.isClosing closeLine) (current : Block) (lineNumber : Nat) :
    (block current).read lineNumber (lines ++ [closeLine]) =
      .ok ([.block { current with source := current.source ++ lines, closeLine }], none) := by
  induction lines generalizing current lineNumber with
  | nil =>
    have isNext : (block current).next lineNumber closeLine =
        .ok ([.block { current with closeLine }], none) := by
      simp only [next, closes, ↓reduceIte]
    rw [List.nil_append, List.append_nil]
    exact read_of_next isNext rfl
  | cons line rest ih =>
    rw [List.forall_mem_cons] at noClosing
    have isNext : (block current).next lineNumber line =
        .ok ([], block { current with source := current.source ++ [line] }) := by
      simp only [next, noClosing.1, Bool.false_eq_true, ↓reduceIte]
    have isLater := ih noClosing.2 { current with source := current.source ++ [line] }
      (lineNumber + 1)
    rw [List.append_assoc, List.singleton_append] at isLater
    exact read_of_next isNext isLater

/-- The lines of a fenced region are read as its block. -/
theorem read_lines_of_isFencedBy {current : Block} {fence : OpenFence}
    (fenced : current.IsFencedBy fence) (closes : Fence.isClosing current.closeLine) :
    none.read current.lineNumber current.lines = .ok ([.block current], none) := by
  have isBody := read_block fenced.noClosing closes
    ⟨current.properties, fence.indent, current.openLine, [], [], fence.lineEnding,
      current.lineNumber⟩ (current.lineNumber + 1)
  rw [← fenced.sameIndent, ← fenced.sameEnding, List.nil_append] at isBody
  have isNext := next_of_opens fenced.found fenced.parsed current.lineNumber
  rw [← fenced.sameIndent, ← fenced.sameEnding] at isNext
  exact read_of_next isNext isBody

/-- The segments of the first lines come first. -/
theorem exists_read_of_read_append {region final : OpenRegion} {lineNumber : Nat}
    {earlier later : List Text} {segments : List Segment}
    (isRead : region.read lineNumber (earlier ++ later) = .ok (segments, final)) :
    ∃ first between, region.read lineNumber earlier = .ok (first, between) ∧
      first <+: segments := by
  induction earlier generalizing region lineNumber segments with
  | nil => exact ⟨[], region, rfl, List.nil_prefix⟩
  | cons line rest ih =>
    rcases read_cons isRead with ⟨completed, after, others, isNext, isOthers, rfl⟩
    rcases ih isOthers with ⟨first, between, isFirst, begins⟩
    refine ⟨completed ++ first, between, read_of_next isNext isFirst, ?_⟩
    exact (List.prefix_append_right_inj completed).mpr begins

end OpenRegion

/-- The blocks of a page are its fenced regions. -/
theorem Segment.isFenced_of_ofPage {page : Text} {segments : List Segment}
    (isCut : ofPage page = .ok segments) : ∀ segment ∈ segments, segment.IsFenced := by
  rcases exists_read_of_ofPage isCut with ⟨completed, final, isRead, rfl⟩
  rw [List.forall_mem_append]
  refine ⟨(OpenRegion.isFenced_of_read isRead trivial).1, ?_⟩
  intro segment isLine
  rcases List.mem_map.mp isLine with ⟨line, _, rfl⟩
  trivial

end LiterateMarkdown
