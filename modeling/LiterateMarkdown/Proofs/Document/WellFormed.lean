import LiterateMarkdown.Proofs.Document.Regions

/-!
# Documents that were read

Which lines of a page can begin a block is told by its lines alone: those that stand outside of any
region, where a verbatim region and a fence reach up to the first line that ends them
(`Lines.Balanced`, `Lines.Encloses`). A document that was read has its blocks at such lines, each of
them with the lines that stand there, and refers to each block once, in the order of the page
(`Document.isWellFormed_of_read`).
-/

namespace LiterateMarkdown

open DocumentBuilder (openLines)

namespace Lines

/-- Lines in which every region that begins also ends. -/
inductive Balanced : List Text → Prop where
  | nil : Balanced []
  | text {earlier : List Text} {line : Text} (before : Balanced earlier)
      (notStart : Fence.startsVerbatim line = false) (noFence : Fence.isFence line = false) :
      Balanced (earlier ++ [line])
  | verbatim {earlier inside : List Text} {first last : Text} (before : Balanced earlier)
      (starts : Fence.startsVerbatim first)
      (noEnd : ∀ line ∈ inside, Fence.endsVerbatim line = false)
      (ends : Fence.endsVerbatim last) : Balanced (earlier ++ first :: inside ++ [last])
  | fence {earlier inside : List Text} {first last : Text} (before : Balanced earlier)
      (isFence : Fence.isFence first) (noClosing : ∀ line ∈ inside, Fence.isClosing line = false)
      (closes : Fence.isClosing last) : Balanced (earlier ++ first :: inside ++ [last])

/-- The numbers of the lines inside of a verbatim region or a plain fence, the last one included. -/
inductive Encloses (lines : List Text) : Nat → Prop where
  | verbatim {earlier inside later : List Text} {first line : Text}
      (isSplit : lines = earlier ++ first :: inside ++ line :: later) (before : Balanced earlier)
      (starts : Fence.startsVerbatim first)
      (noEnd : ∀ other ∈ inside, Fence.endsVerbatim other = false) :
      Encloses lines (earlier.length + inside.length + 2)
  | plainFence {earlier inside later : List Text} {first line : Text}
      (isSplit : lines = earlier ++ first :: inside ++ line :: later) (before : Balanced earlier)
      (isFence : Fence.isFence first) (plain : OpenFence.ofLine? first = none)
      (noClosing : ∀ other ∈ inside, Fence.isClosing other = false) :
      Encloses lines (earlier.length + inside.length + 2)

/-- What the next line stands in. -/
inductive Surroundings where
  | outside
  | verbatim
  | fence
  deriving DecidableEq

namespace Surroundings

/-- What a line leaves the next one in. -/
def next (surroundings : Surroundings) (line : Text) : Surroundings :=
  match surroundings with
  | outside =>
    if Fence.startsVerbatim line then verbatim else if Fence.isFence line then fence else outside
  | verbatim => if Fence.endsVerbatim line then outside else verbatim
  | fence => if Fence.isClosing line then outside else fence

theorem foldl_next_verbatim {lines : List Text}
    (noEnd : ∀ line ∈ lines, Fence.endsVerbatim line = false) :
    lines.foldl next verbatim = verbatim := by
  induction lines with
  | nil => rfl
  | cons line rest ih =>
    rw [List.forall_mem_cons] at noEnd
    simp [next, noEnd.1, ih noEnd.2]

theorem foldl_next_fence {lines : List Text}
    (noClosing : ∀ line ∈ lines, Fence.isClosing line = false) :
    lines.foldl next fence = fence := by
  induction lines with
  | nil => rfl
  | cons line rest ih =>
    rw [List.forall_mem_cons] at noClosing
    simp [next, noClosing.1, ih noClosing.2]

theorem next_outside_of_isFence {line : Text} (isFence : Fence.isFence line) :
    outside.next line = fence := by
  simp [next, Fence.not_startsVerbatim_of_isFence isFence, isFence]

end Surroundings

theorem foldl_next_of_balanced {lines : List Text} (balanced : Balanced lines) :
    lines.foldl Surroundings.next .outside = .outside := by
  induction balanced with
  | nil => rfl
  | text before notStart noFence ih =>
    simp [ih, Surroundings.next, notStart, noFence]
  | verbatim before starts noEnd ends ih =>
    have begins : Surroundings.outside.next _ = .verbatim := if_pos starts
    have ended : Surroundings.verbatim.next _ = .outside := if_pos ends
    simp [ih, begins, Surroundings.foldl_next_verbatim noEnd, ended]
  | fence before isFence noClosing closes ih =>
    have begins := Surroundings.next_outside_of_isFence isFence
    have ended : Surroundings.fence.next _ = .outside := if_pos closes
    simp [ih, begins, Surroundings.foldl_next_fence noClosing, ended]

theorem foldl_next_of_openVerbatim {earlier inside : List Text} {first : Text}
    (before : Balanced earlier) (starts : Fence.startsVerbatim first)
    (noEnd : ∀ line ∈ inside, Fence.endsVerbatim line = false) :
    (earlier ++ first :: inside).foldl Surroundings.next .outside = .verbatim := by
  have begins : Surroundings.outside.next first = .verbatim := if_pos starts
  rw [List.foldl_append, foldl_next_of_balanced before, List.foldl_cons, begins,
    Surroundings.foldl_next_verbatim noEnd]

theorem foldl_next_of_openFence {earlier inside : List Text} {first : Text}
    (before : Balanced earlier) (isFence : Fence.isFence first)
    (noClosing : ∀ line ∈ inside, Fence.isClosing line = false) :
    (earlier ++ first :: inside).foldl Surroundings.next .outside = .fence := by
  rw [List.foldl_append, foldl_next_of_balanced before, List.foldl_cons,
    Surroundings.next_outside_of_isFence isFence, Surroundings.foldl_next_fence noClosing]

/-- Lines up to one that is enclosed are not balanced. -/
theorem not_balanced_take_of_encloses {lines : List Text} {number : Nat}
    (encloses : Encloses lines number) : ¬ Balanced (lines.take (number - 1)) := by
  intro balanced
  have leaves := foldl_next_of_balanced balanced
  cases encloses with
  | @verbatim earlier inside later first line isSplit before starts noEnd =>
    have upTo : lines.take (earlier.length + inside.length + 2 - 1) =
        earlier ++ first :: inside := by
      rw [isSplit, List.take_left']
      simp
      omega
    rw [upTo, foldl_next_of_openVerbatim before starts noEnd] at leaves
    contradiction
  | @plainFence earlier inside later first line isSplit before isFence plain noClosing =>
    have upTo : lines.take (earlier.length + inside.length + 2 - 1) =
        earlier ++ first :: inside := by
      rw [isSplit, List.take_left']
      simp
      omega
    rw [upTo, foldl_next_of_openFence before isFence noClosing] at leaves
    contradiction

end Lines

/-- A block whose lines stand among the given ones at the number that it remembers, outside of any
region. -/
def Block.StandsIn (block : Block) (lines : List Text) : Prop :=
  ∃ earlier later, lines = earlier ++ block.lines ++ later ∧ Lines.Balanced earlier ∧
    block.lineNumber = earlier.length + 1

theorem Block.StandsIn.append {block : Block} {lines : List Text} (stands : block.StandsIn lines)
    (more : List Text) : block.StandsIn (lines ++ more) := by
  rcases stands with ⟨earlier, later, rfl, balanced, isPlace⟩
  exact ⟨earlier, later ++ more, by simp, balanced, isPlace⟩

namespace OpenRegion

/-- The region that lines leave open. -/
inductive LeftBy : List Text → OpenRegion → Prop where
  | none {lines : List Text} (balanced : Lines.Balanced lines) : LeftBy lines none
  | verbatim {earlier inside : List Text} {first : Text} (before : Lines.Balanced earlier)
      (starts : Fence.startsVerbatim first)
      (noEnd : ∀ line ∈ inside, Fence.endsVerbatim line = false) :
      LeftBy (earlier ++ first :: inside) verbatim
  | plainFence {earlier inside : List Text} {first : Text} (before : Lines.Balanced earlier)
      (isFence : Fence.isFence first)
      (noClosing : ∀ line ∈ inside, Fence.isClosing line = false) :
      LeftBy (earlier ++ first :: inside) plainFence
  | block {lines earlier : List Text} {current : Block}
      (isSplit : lines = earlier ++ current.openLine :: current.source)
      (before : Lines.Balanced earlier) (isFence : Fence.isFence current.openLine)
      (noClosing : ∀ line ∈ current.source, Fence.isClosing line = false)
      (isPlace : current.lineNumber = earlier.length + 1) : LeftBy lines (block current)

/-- The next line leaves open what it should, and a block that it completes stands in its place. -/
theorem leftBy_of_next {region after : OpenRegion} {earlier : List Text} {line : Text}
    {completed : List Segment} (left : LeftBy earlier region)
    (isNext : region.next (earlier.length + 1) line = .ok (completed, after)) :
    LeftBy (earlier ++ [line]) after ∧
      ∀ current, .block current ∈ completed → current.StandsIn (earlier ++ [line]) := by
  cases reads_of_next isNext with
  | startsVerbatim starts =>
    rcases left with ⟨balanced⟩
    exact ⟨.verbatim balanced starts (by simp), by simp⟩
  | opensBlock found parsed lineNumber =>
    rcases left with ⟨balanced⟩
    -- The number of a block is that of the line that it is opened at.
    rw [next_of_opens found parsed] at isNext
    cases isNext
    exact ⟨.block rfl balanced (Fence.isFence_of_ofLine? found) (by simp) rfl, by simp⟩
  | opensFence notFound opens =>
    rcases left with ⟨balanced⟩
    exact ⟨.plainFence balanced opens (by simp), by simp⟩
  | text notStart noFence =>
    rcases left with ⟨balanced⟩
    exact ⟨.none (.text balanced notStart noFence), by simp⟩
  | endsVerbatim ends =>
    rcases left with _ | ⟨before, starts, noEnd⟩
    exact ⟨.none (.verbatim before starts noEnd ends), by simp⟩
  | verbatimText notEnd =>
    rcases left with _ | @⟨earlier, inside, first, before, starts, noEnd⟩
    have stillNoEnd : ∀ other ∈ inside ++ [line], Fence.endsVerbatim other = false := by
      simpa [or_imp, forall_and] using ⟨noEnd, notEnd⟩
    rw [List.append_assoc, List.cons_append]
    exact ⟨.verbatim before starts stillNoEnd, by simp⟩
  | closesFence closes =>
    rcases left with _ | _ | ⟨before, isFence, noClosing⟩
    exact ⟨.none (.fence before isFence noClosing closes), by simp⟩
  | fenceText notClosing =>
    rcases left with _ | _ | @⟨earlier, inside, first, before, isFence, noClosing⟩
    have stillOpen : ∀ other ∈ inside ++ [line], Fence.isClosing other = false := by
      simpa [or_imp, forall_and] using ⟨noClosing, notClosing⟩
    rw [List.append_assoc, List.cons_append]
    exact ⟨.plainFence before isFence stillOpen, by simp⟩
  | closesBlock current closes =>
    rcases left with _ | _ | _ | @⟨_, earlier, _, rfl, before, isFence, noClosing, isPlace⟩
    refine ⟨.none (.fence before isFence noClosing closes), ?_⟩
    intro complete isComplete
    rw [List.mem_singleton, Segment.block.injEq] at isComplete
    subst isComplete
    exact ⟨earlier, [], by simp [Block.lines], before, isPlace⟩
  | blockText current notClosing =>
    rcases left with _ | _ | _ | @⟨_, earlier, _, rfl, before, isFence, noClosing, isPlace⟩
    have stillOpen : ∀ other ∈ current.source ++ [line], Fence.isClosing other = false := by
      simpa [or_imp, forall_and] using ⟨noClosing, notClosing⟩
    exact ⟨.block (by simp) before isFence stillOpen isPlace, by simp⟩

/-- Lines leave open what they should, and the blocks that they are cut into stand in their places.
-/
theorem leftBy_of_read {region final : OpenRegion} {earlier lines : List Text}
    {segments : List Segment} (left : LeftBy earlier region)
    (isRead : region.read (earlier.length + 1) lines = .ok (segments, final)) :
    LeftBy (earlier ++ lines) final ∧
      ∀ current, .block current ∈ segments → current.StandsIn (earlier ++ lines) := by
  induction lines generalizing region earlier segments with
  | nil =>
    cases isRead
    rw [List.append_nil]
    exact ⟨left, by simp⟩
  | cons line rest ih =>
    rcases read_cons isRead with ⟨completed, after, later, isNext, isLater, rfl⟩
    rcases leftBy_of_next left isNext with ⟨leftAfter, standsCompleted⟩
    have sameNumber : (earlier ++ [line]).length + 1 = earlier.length + 1 + 1 := by simp
    rw [← sameNumber] at isLater
    rcases ih leftAfter isLater with ⟨leftFinal, standsLater⟩
    have sameLines : earlier ++ line :: rest = earlier ++ [line] ++ rest := by simp
    rw [sameLines]
    refine ⟨leftFinal, ?_⟩
    intro current isBlock
    rcases List.mem_append.mp isBlock with isCompleted | isLaterBlock
    · exact (standsCompleted current isCompleted).append rest
    · exact standsLater current isLaterBlock

theorem standsIn_of_read {region final : OpenRegion} {earlier lines : List Text}
    {segments : List Segment} (left : LeftBy earlier region)
    (isRead : region.read (earlier.length + 1) lines = .ok (segments, final)) :
    ∀ current, .block current ∈ segments → current.StandsIn (earlier ++ lines) :=
  (leftBy_of_read left isRead).2

end OpenRegion

namespace Segment

/-- Whether each block remembers the number of its first line, the first of all lines having the
given number. -/
def NumberedFrom (lineNumber : Nat) : List Segment → Prop
  | [] => True
  | .line _ :: rest => NumberedFrom (lineNumber + 1) rest
  | .block current :: rest =>
    current.lineNumber = lineNumber ∧ NumberedFrom (lineNumber + current.lines.length) rest

theorem numberedFrom_append_map_line {lineNumber : Nat} {segments : List Segment}
    (numbered : NumberedFrom lineNumber segments) (texts : List Text) :
    NumberedFrom lineNumber (segments ++ texts.map .line) := by
  induction segments generalizing lineNumber with
  | nil =>
    induction texts generalizing lineNumber with
    | nil => trivial
    | cons text rest ih => exact ih trivial
  | cons segment rest ih =>
    cases segment with
    | line text => exact ih numbered
    | block current => exact ⟨numbered.1, ih numbered.2⟩

/-- The blocks that lines are cut into remember the numbers of their first lines. -/
theorem numberedFrom_of_read {region final : OpenRegion} {start lineNumber : Nat}
    {lines : List Text} {segments : List Segment}
    (isRead : region.read lineNumber lines = .ok (segments, final))
    (isPlace : start + (openLines region).length = lineNumber)
    (begun : ∀ current, region = .block current → current.lineNumber = start) :
    NumberedFrom start segments := by
  induction lines generalizing region start lineNumber segments with
  | nil =>
    cases isRead
    trivial
  | cons line rest ih =>
    rcases OpenRegion.read_cons isRead with ⟨completed, after, later, isNext, isLater, rfl⟩
    cases OpenRegion.reads_of_next isNext with
    | opensBlock found parsed number =>
      rw [OpenRegion.next_of_opens found parsed] at isNext
      cases isNext
      cases isPlace
      apply ih isLater
      · rfl
      · rintro current ⟨⟩
        rfl
    | closesBlock current closes =>
      refine ⟨begun current rfl, ih isLater ?_ (by simp)⟩
      simp only [openLines, List.length_cons, List.length_nil, Block.lines, List.length_append]
        at isPlace ⊢
      omega
    | blockText current notClosing =>
      apply ih isLater
      · simp only [openLines, List.length_cons, List.length_append, List.length_nil] at isPlace ⊢
        omega
      · rintro _ ⟨⟩
        exact begun current rfl
    | startsVerbatim | opensFence | text | endsVerbatim | verbatimText | closesFence | fenceText =>
      have samePlace : start = lineNumber := by
        simpa [openLines] using isPlace
      subst samePlace
      change NumberedFrom (start + 1) later
      apply ih isLater rfl
      intro current isBlock
      contradiction

end Segment

namespace Document

/-- The references in a document, in order. -/
def referenceIds (document : Document) : List ReferenceId :=
  document.content.filterMap Content.reference?

/-- A document whose blocks are those of a page. -/
structure IsWellFormed (document : Document) (page : Text) : Prop where
  distinct : document.referenceIds.Nodup
  registered : ∀ id, id ∈ document.referenceIds ↔ (document.references.get? id).isSome
  ascending : document.referenceIds.Pairwise fun first second =>
    ∀ earlier later, document.references.get? first = some earlier →
      document.references.get? second = some later → earlier.lineNumber < later.lineNumber
  /-- The lines of a block begin at the line that it remembers. -/
  placed : ∀ id block, document.references.get? id = some block →
    ∃ earlier later, (Lines.ofText page).items = earlier ++ block.lines ++ later ∧
      block.lineNumber = earlier.length + 1
  opened : ∀ id block, document.references.get? id = some block →
    ∃ fence, block.IsFencedBy fence
  closed : ∀ id block, document.references.get? id = some block →
    Fence.isClosing block.closeLine
  numbered : ∀ earlier id later, document.referenceIds = earlier ++ id :: later →
    id.index = earlier.countP fun other => other.name = id.name
  /-- No line inside of a verbatim region or a plain fence opens a block. -/
  enclosed : ∀ number, Lines.Encloses (Lines.ofText page).items number →
    ∀ id block, document.references.get? id = some block → block.lineNumber ≠ number

/-- References to segments that are numbered lead to ever later lines. -/
theorem ascending_of_numberedFrom {references : References} {content : List Content}
    {segments : List Segment} {lineNumber : Nat}
    (each : List.Forall₂ (Content.StandsFor references) content segments)
    (numbered : Segment.NumberedFrom lineNumber segments) :
    (∀ id ∈ content.filterMap Content.reference?, ∀ block, references.get? id = some block →
        lineNumber ≤ block.lineNumber) ∧
      (content.filterMap Content.reference?).Pairwise fun first second =>
        ∀ earlier later, references.get? first = some earlier →
          references.get? second = some later → earlier.lineNumber < later.lineNumber := by
  induction each generalizing lineNumber with
  | nil => simp
  | cons stands _ ih =>
    cases stands with
    | line text =>
      rcases ih numbered with ⟨isLater, ascending⟩
      refine ⟨?_, ascending⟩
      intro id isMem block registered
      have := isLater id isMem block registered
      omega
    | @block id current isCurrent =>
      rcases numbered with ⟨isPlace, numberedRest⟩
      rcases ih numberedRest with ⟨isLater, ascending⟩
      have notEmpty : 0 < current.lines.length := by simp [Block.lines]
      simp only [List.filterMap_cons, Content.reference?, List.mem_cons, List.pairwise_cons]
      refine ⟨?_, ?_, ascending⟩
      · rintro other (rfl | isMem) block registered
        · rw [registered] at isCurrent
          cases isCurrent
          omega
        · have := isLater other isMem block registered
          omega
      · intro other isMem earlier later isEarlier registered
        rw [isEarlier] at isCurrent
        cases isCurrent
        have := isLater other isMem later registered
        omega

/-- A document that was read has the blocks of its page. -/
theorem isWellFormed_of_read {page : Text} {document : Document}
    (isRead : read page = .ok document) : document.IsWellFormed page := by
  rcases exists_ofPage_of_read isRead with ⟨segments, isCut, rfl⟩
  rcases Segment.exists_read_of_ofPage isCut with ⟨completed, final, isCompleted, isSegments⟩
  have shows := shows_ofSegments segments
  have isFenced : ∀ id block, (ofSegments segments).references.get? id = some block →
      (Segment.block block).IsFenced := fun id block registered =>
    Segment.isFenced_of_ofPage isCut _ (shows.mem_segments registered)
  have stands : ∀ id block, (ofSegments segments).references.get? id = some block →
      block.StandsIn (Lines.ofText page).items := by
    intro id block registered
    have isSegment := shows.mem_segments registered
    rw [isSegments] at isSegment
    have isBlock : .block block ∈ completed := by
      simpa using isSegment
    exact OpenRegion.standsIn_of_read (.none .nil) isCompleted block isBlock
  have numbered : Segment.NumberedFrom 1 segments := by
    rw [isSegments]
    apply Segment.numberedFrom_append_map_line
    exact Segment.numberedFrom_of_read isCompleted rfl (by simp)
  refine ⟨?_, ?_, (ascending_of_numberedFrom shows.each numbered).2, ?_, ?_, ?_, ?_, ?_⟩
  · exact shows.nodup_references
  · intro id
    exact shows.mem_references_iff
  · intro id block registered
    rcases stands id block registered with ⟨earlier, later, isSplit, _, isPlace⟩
    exact ⟨earlier, later, isSplit, isPlace⟩
  · exact fun id block registered => (isFenced id block registered).1
  · exact fun id block registered => (isFenced id block registered).2
  · intro earlier id later isSplit
    have isKeys : (ofSegments segments).references.keys = earlier ++ id :: later :=
      shows.references.symm.trans isSplit
    have isKey : (ofSegments segments).references.keys[earlier.length]? = some id := by
      simp [isKeys]
    have isIndex := References.index_eq_countP shows.inStep isKey
    rwa [isKeys, List.take_left] at isIndex
  · intro number encloses id block registered isNumber
    rcases stands id block registered with ⟨earlier, later, isSplit, balanced, isPlace⟩
    apply Lines.not_balanced_take_of_encloses encloses
    have upTo : (Lines.ofText page).items.take (number - 1) = earlier := by
      rw [isSplit, ← isNumber, isPlace, List.append_assoc]
      simp
    rwa [upTo]

/-- Blocks of one name around a verbatim region, a plain fence and a block that is never closed. -/
theorem isWellFormed_of_read_enclosed :
    ∃ page document,
      page = ("``` \x7b.c #a\x7d\r\nint x;\r\n```\n~~~markdown\n``` \x7b#b\x7d\n~~~\n```sh\n" ++
        "``` \x7b#c\x7d\n```\n  ``` \x7b#a file=f\x7d\n~~~\n  ```\n``` \x7b#d\x7d\nend").toList ∧
      read page = .ok document ∧ document.IsWellFormed page := by
  generalize isPage : ("``` \x7b.c #a\x7d\r\nint x;\r\n```\n~~~markdown\n``` \x7b#b\x7d\n~~~\n" ++
    "```sh\n``` \x7b#c\x7d\n```\n  ``` \x7b#a file=f\x7d\n~~~\n  ```\n``` \x7b#d\x7d\nend").toList =
    page
  have readable : (read page).isOk := by
    subst isPage
    decide +kernel
  cases isRead : read page with
  | error cause =>
    rw [isRead] at readable
    contradiction
  | ok document => exact ⟨page, document, isPage.symm, isRead, isWellFormed_of_read isRead⟩

end Document

end LiterateMarkdown
