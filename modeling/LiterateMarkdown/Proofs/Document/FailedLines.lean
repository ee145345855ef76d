import LiterateMarkdown.Proofs.Document.WellFormed
import Mathlib.Tactic.TFAE

/-!
# Lines that fail

The only line that a builder refuses is a fence that begins a block and carries text that is no
property list, where no region is open (`DocumentBuilder.push_eq_error_iff`). A builder that is fed
on after such a line goes on as if it had not been fed that line (`history_of_leavesOut`). Reading a
page stops at the first of these lines, which can be told from the lines up to it
(`Document.failed_lines_leave_no_trace`).
-/

namespace LiterateMarkdown

/-- Whether a line opens a block with text that is no property list. -/
def Fence.IsMalformed (line : Text) (cause : PropertyError) : Prop :=
  ∃ fence, OpenFence.ofLine? line = some fence ∧ Property.parse fence.properties = .error cause

theorem Fence.IsMalformed.unique {line : Text} {cause other : PropertyError}
    (isMalformed : IsMalformed line cause) (isOther : IsMalformed line other) : cause = other := by
  rcases isMalformed with ⟨fence, found, fails⟩
  rcases isOther with ⟨same, sameFound, sameFails⟩
  rw [found] at sameFound
  cases sameFound
  exact Except.error.inj (fails.symm.trans sameFails)

namespace DocumentBuilder

variable {builder after final : DocumentBuilder} {lineNumber : Nat} {line : Text}
  {error : FilterError}

/-- A builder refuses the fences whose properties cannot be read, outside of any region. -/
theorem push_eq_error_iff :
    builder.push lineNumber line = .error error ↔
      builder.region = .none ∧
        ∃ cause, Fence.IsMalformed line cause ∧ error = .properties lineNumber cause := by
  constructor
  · intro fails
    simp only [push] at fails
    split at fails
    · rename_i isNone
      simp only [pushOutside] at fails
      split at fails
      · contradiction
      split at fails
      · rename_i fence found
        split at fails
        · rename_i cause parseFails
          cases fails
          exact ⟨isNone, cause, ⟨fence, found, parseFails⟩, rfl⟩
        · contradiction
      · split at fails <;> contradiction
    · contradiction
    · contradiction
    · split at fails <;> contradiction
  · rintro ⟨isNone, cause, ⟨fence, found, parseFails⟩, rfl⟩
    have notStart := Fence.not_startsVerbatim_of_isFence (Fence.isFence_of_ofLine? found)
    simp only [push, isNone, pushOutside, notStart, found, parseFails, Bool.false_eq_true,
      ↓reduceIte]

theorem feedLines_of_ok (isPushed : builder.push lineNumber line = .ok after)
    (rest : List (Text × Nat)) :
    builder.feedLines ((line, lineNumber) :: rest) =
      (.ok () :: (after.feedLines rest).1, (after.feedLines rest).2) := by
  simp only [feedLines, feed_eq, isPushed]

theorem feedLines_of_error (fails : builder.push lineNumber line = .error error)
    (rest : List (Text × Nat)) :
    builder.feedLines ((line, lineNumber) :: rest) =
      (.error error :: (builder.feedLines rest).1, (builder.feedLines rest).2) := by
  simp only [feedLines, feed_eq, fails]

/-- Lines that are fed to a builder, each with its number and with what becomes of it. -/
def history (builder : DocumentBuilder) (lines : List (Text × Nat)) :
    List ((Text × Nat) × Except FilterError Unit) :=
  lines.zip (builder.feedLines lines).1

/-- Lines with what becomes of them, of which some that fail are left out. -/
inductive LeavesOut : List ((Text × Nat) × Except FilterError Unit) →
    List ((Text × Nat) × Except FilterError Unit) → Prop where
  | nil : LeavesOut [] []
  | keep {more fewer : List ((Text × Nat) × Except FilterError Unit)}
      (entry : (Text × Nat) × Except FilterError Unit) (leavesOut : LeavesOut more fewer) :
      LeavesOut (entry :: more) (entry :: fewer)
  | skip {more fewer : List ((Text × Nat) × Except FilterError Unit)} (line : Text × Nat)
      (error : FilterError) (leavesOut : LeavesOut more fewer) :
      LeavesOut ((line, .error error) :: more) fewer

theorem leavesOut_filter_isOk (entries : List ((Text × Nat) × Except FilterError Unit)) :
    LeavesOut entries (entries.filter fun entry => entry.2.isOk) := by
  induction entries with
  | nil => exact .nil
  | cons entry rest ih =>
    rcases entry with ⟨line, _ | _⟩
    · exact .skip line _ ih
    · exact .keep _ ih

theorem history_of_ok (isPushed : builder.push lineNumber line = .ok after)
    (rest : List (Text × Nat)) :
    builder.history ((line, lineNumber) :: rest) =
      ((line, lineNumber), .ok ()) :: after.history rest := by
  simp only [history, feedLines_of_ok isPushed, List.zip_cons_cons]

theorem history_of_error (fails : builder.push lineNumber line = .error error)
    (rest : List (Text × Nat)) :
    builder.history ((line, lineNumber) :: rest) =
      ((line, lineNumber), .error error) :: builder.history rest := by
  simp only [history, feedLines_of_error fails, List.zip_cons_cons]

/-- Without some of the lines that fail, the other lines fare as they do with them. -/
theorem history_of_leavesOut {lines : List (Text × Nat)}
    {fewer : List ((Text × Nat) × Except FilterError Unit)}
    (leavesOut : LeavesOut (builder.history lines) fewer) :
    builder.history (fewer.map Prod.fst) = fewer ∧
      (builder.feedLines (fewer.map Prod.fst)).2 = (builder.feedLines lines).2 := by
  induction lines generalizing builder fewer with
  | nil =>
    cases leavesOut
    exact ⟨rfl, rfl⟩
  | cons first rest ih =>
    rcases first with ⟨line, lineNumber⟩
    cases isPushed : builder.push lineNumber line with
    | ok after =>
      rw [history_of_ok isPushed] at leavesOut
      cases leavesOut with
      | keep entry leavesOut =>
        rcases ih leavesOut with ⟨sameHistory, sameFinal⟩
        rw [List.map_cons, history_of_ok isPushed, sameHistory, feedLines_of_ok isPushed,
          feedLines_of_ok isPushed]
        exact ⟨rfl, sameFinal⟩
    | error error =>
      rw [history_of_error isPushed] at leavesOut
      cases leavesOut with
      | keep entry leavesOut =>
        rcases ih leavesOut with ⟨sameHistory, sameFinal⟩
        rw [List.map_cons, history_of_error isPushed, sameHistory, feedLines_of_error isPushed,
          feedLines_of_error isPushed]
        exact ⟨rfl, sameFinal⟩
      | skip line error leavesOut =>
        -- The builder is the same before and after the line, so leaving it out changes nothing.
        rw [feedLines_of_error isPushed]
        exact ih leavesOut

theorem pushLines_of_ok (isPushed : builder.push lineNumber line = .ok after) (rest : List Text) :
    builder.pushLines lineNumber (line :: rest) = after.pushLines (lineNumber + 1) rest := by
  simp only [pushLines, isPushed, bind, Except.bind]

theorem pushLines_of_error (fails : builder.push lineNumber line = .error error)
    (rest : List Text) : builder.pushLines lineNumber (line :: rest) = .error error := by
  simp only [pushLines, fails, bind, Except.bind]

/-- Reading lines stops at the first one that fails when a builder is fed all of them. -/
theorem pushLines_eq_error_iff_feedLines {lines : List Text} {number : Nat}
    {cause : PropertyError} :
    builder.pushLines lineNumber lines = .error (.properties number cause) ↔
      ∃ earlier later, (builder.feedLines (lines.zipIdx lineNumber)).1 =
          earlier ++ .error (.properties number cause) :: later ∧
        (∀ outcome ∈ earlier, outcome = .ok ()) ∧ number = lineNumber + earlier.length := by
  induction lines generalizing builder lineNumber with
  | nil => simp [pushLines, feedLines]
  | cons line rest ih =>
    rw [List.zipIdx_cons]
    cases isPushed : builder.push lineNumber line with
    | ok after =>
      rw [pushLines_of_ok isPushed, feedLines_of_ok isPushed, ih]
      constructor
      · rintro ⟨earlier, later, outcomes, allOk, isNumber⟩
        refine ⟨.ok () :: earlier, later, congrArg (.ok () :: ·) outcomes, ?_, ?_⟩
        · exact List.forall_mem_cons.mpr ⟨rfl, allOk⟩
        · rw [isNumber, List.length_cons]
          omega
      · rintro ⟨_ | ⟨first, earlier⟩, later, outcomes, allOk, isNumber⟩
        · cases outcomes
        · rw [List.length_cons] at isNumber
          refine ⟨earlier, later, (List.cons.inj outcomes).2, ?_, by omega⟩
          exact (List.forall_mem_cons.mp allOk).2
    | error error =>
      rw [pushLines_of_error isPushed, feedLines_of_error isPushed]
      constructor
      · intro fails
        cases fails
        rcases push_eq_error_iff.mp isPushed with ⟨_, _, _, isError⟩
        cases isError
        exact ⟨[], _, rfl, by simp, rfl⟩
      · rintro ⟨_ | ⟨first, earlier⟩, later, outcomes, allOk, isNumber⟩
        · cases outcomes
          rfl
        · have isFirst := (List.forall_mem_cons.mp allOk).1
          rw [isFirst] at outcomes
          cases outcomes

/-- Reading lines fails at a line that is refused after those before it were read. -/
theorem pushLines_eq_error_iff {lines : List Text} :
    builder.pushLines lineNumber lines = .error error ↔
      ∃ earlier line later between, lines = earlier ++ line :: later ∧
        builder.pushLines lineNumber earlier = .ok between ∧
        between.push (lineNumber + earlier.length) line = .error error := by
  induction lines generalizing builder lineNumber with
  | nil => simp [pushLines]
  | cons line rest ih =>
    constructor
    · intro fails
      cases isPushed : builder.push lineNumber line with
      | error other =>
        rw [pushLines_of_error isPushed] at fails
        cases fails
        exact ⟨[], line, rest, builder, rfl, rfl, isPushed⟩
      | ok after =>
        rw [pushLines_of_ok isPushed, ih] at fails
        rcases fails with ⟨earlier, refused, later, between, rfl, isEarlier, fails⟩
        refine ⟨line :: earlier, refused, later, between, rfl, ?_, ?_⟩
        · rwa [pushLines_of_ok isPushed]
        · rwa [List.length_cons, Nat.add_comm earlier.length, ← Nat.add_assoc]
    · rintro ⟨_ | ⟨first, earlier⟩, refused, later, between, isSplit, isEarlier, fails⟩
      · cases isEarlier
        cases isSplit
        exact pushLines_of_error fails rest
      · cases isSplit
        cases isPushed : builder.push lineNumber line with
        | error other =>
          rw [pushLines_of_error isPushed] at isEarlier
          contradiction
        | ok after =>
          rw [pushLines_of_ok isPushed] at isEarlier ⊢
          rw [List.length_cons, Nat.add_comm earlier.length, ← Nat.add_assoc] at fails
          exact ih.mpr ⟨earlier, refused, later, between, rfl, isEarlier, fails⟩

end DocumentBuilder

namespace OpenRegion

/-- What the next line stands in when a region is open. -/
def surroundings : OpenRegion → Lines.Surroundings
  | none => .outside
  | verbatim => .verbatim
  | plainFence | block _ => .fence

theorem LeftBy.foldl_next {lines : List Text} {region : OpenRegion} (left : LeftBy lines region) :
    lines.foldl Lines.Surroundings.next .outside = region.surroundings := by
  cases left with
  | none balanced => exact Lines.foldl_next_of_balanced balanced
  | verbatim before starts noEnd => exact Lines.foldl_next_of_openVerbatim before starts noEnd
  | plainFence before isFence noClosing =>
    exact Lines.foldl_next_of_openFence before isFence noClosing
  | block isSplit before isFence noClosing isPlace =>
    rw [isSplit]
    exact Lines.foldl_next_of_openFence before isFence noClosing

/-- Lines leave no region open exactly if all regions among them end. -/
theorem LeftBy.eq_none_iff {lines : List Text} {region : OpenRegion} (left : LeftBy lines region) :
    region = OpenRegion.none ↔ Lines.Balanced lines := by
  constructor
  · rintro rfl
    cases left with
    | none balanced => exact balanced
  · intro balanced
    have isOutside := left.foldl_next.symm.trans (Lines.foldl_next_of_balanced balanced)
    cases region with
    | none => rfl
    | verbatim | plainFence | block => cases isOutside

end OpenRegion

theorem DocumentBuilder.leftBy_of_pushLines {lines : List Text} {builder : DocumentBuilder}
    (isPushed : empty.pushLines 1 lines = .ok builder) :
    OpenRegion.LeftBy lines builder.region := by
  rw [pushLines_eq] at isPushed
  cases isRead : empty.region.read 1 lines with
  | error cause =>
    rw [isRead] at isPushed
    contradiction
  | ok outcome =>
    rw [isRead] at isPushed
    cases isPushed
    exact (OpenRegion.leftBy_of_read (.none .nil) isRead).1

namespace Lines

/--
The numbers of malformed fences outside of any region. The first of them fails; what stands after it
is told as if it began a region, though it begins none.
-/
inductive FailsAt (lines : List Text) : Nat → PropertyError → Prop where
  | intro {earlier later : List Text} {line : Text} {cause : PropertyError}
      (isSplit : lines = earlier ++ line :: later) (before : Balanced earlier)
      (isMalformed : Fence.IsMalformed line cause) : FailsAt lines (earlier.length + 1) cause

theorem FailsAt.unique {lines : List Text} {number : Nat} {cause other : PropertyError}
    (fails : FailsAt lines number cause) (failsToo : FailsAt lines number other) :
    cause = other := by
  rcases fails with ⟨isSplit, _, isMalformed⟩
  generalize isNumber : _ + 1 = number at failsToo
  rcases failsToo with ⟨isSplitToo, _, isMalformedToo⟩
  rw [isSplit] at isSplitToo
  have sameRest := (List.append_inj isSplitToo (Nat.succ.inj isNumber)).2
  rw [(List.cons.inj sameRest).1] at isMalformed
  exact isMalformed.unique isMalformedToo

theorem FailsAt.of_append {lines more : List Text} {number : Nat} {cause : PropertyError}
    (fails : FailsAt (lines ++ more) number cause) (isWithin : number ≤ lines.length) :
    FailsAt lines number cause := by
  rcases fails with @⟨earlier, later, line, _, isSplit, before, isMalformed⟩
  have isPrefix : earlier ++ [line] <+: lines := by
    apply List.prefix_of_prefix_length_le _ (List.prefix_append lines more)
    · rwa [List.length_append, List.length_singleton]
    · exact ⟨later, by simp [isSplit]⟩
  rcases isPrefix with ⟨rest, rfl⟩
  exact .intro (List.append_assoc earlier [line] rest) before isMalformed

end Lines

namespace DocumentBuilder

open Lines (FailsAt)

theorem pushLines_append_of_error {builder : DocumentBuilder} {lineNumber : Nat}
    {lines : List Text} {error : FilterError}
    (fails : builder.pushLines lineNumber lines = .error error) (more : List Text) :
    builder.pushLines lineNumber (lines ++ more) = .error error := by
  rcases pushLines_eq_error_iff.mp fails with ⟨earlier, line, later, between, rfl, read, refused⟩
  rw [List.append_assoc, List.cons_append]
  exact pushLines_eq_error_iff.mpr ⟨earlier, line, later ++ more, between, rfl, read, refused⟩

/-- No line fails among lines that are read. -/
theorem not_failsAt_of_pushLines {lines : List Text} {final : DocumentBuilder} {number : Nat}
    {cause : PropertyError} (isRead : empty.pushLines 1 lines = .ok final) :
    ¬ FailsAt lines number cause := by
  rintro @⟨earlier, later, line, _, rfl, before, isMalformed⟩
  cases isEarlier : empty.pushLines 1 earlier with
  | error error =>
    rw [pushLines_append_of_error isEarlier] at isRead
    contradiction
  | ok between =>
    have isOutside := (leftBy_of_pushLines isEarlier).eq_none_iff.mpr before
    have refused : between.push (1 + earlier.length) line =
        .error (.properties (1 + earlier.length) cause) :=
      push_eq_error_iff.mpr ⟨isOutside, cause, isMalformed, rfl⟩
    rw [pushLines_eq_error_iff.mpr ⟨earlier, line, later, between, rfl, isEarlier, refused⟩]
      at isRead
    contradiction

theorem failsAt_of_pushLines {lines : List Text} {error : FilterError}
    (fails : empty.pushLines 1 lines = .error error) :
    ∃ number cause, error = .properties number cause ∧ FailsAt lines number cause ∧
      ∀ before < number, ∀ other, ¬ FailsAt lines before other := by
  rcases pushLines_eq_error_iff.mp fails with
    ⟨earlier, line, later, between, rfl, isEarlier, refused⟩
  rcases push_eq_error_iff.mp refused with ⟨isOutside, cause, isMalformed, rfl⟩
  have balanced := (leftBy_of_pushLines isEarlier).eq_none_iff.mp isOutside
  refine ⟨_, cause, rfl, ?_, ?_⟩
  · rw [Nat.add_comm]
    exact .intro rfl balanced isMalformed
  · intro before isBefore other failsBefore
    -- A line that fails before this one would be among those that were read.
    apply not_failsAt_of_pushLines isEarlier
    exact failsBefore.of_append (by omega)

/-- The first line that fails, told by the lines alone, is where reading them stops. -/
theorem pushLines_eq_error_iff_failsAt {lines : List Text} {number : Nat} {cause : PropertyError} :
    empty.pushLines 1 lines = .error (.properties number cause) ↔
      FailsAt lines number cause ∧ ∀ before < number, ∀ other, ¬ FailsAt lines before other := by
  constructor
  · intro fails
    rcases failsAt_of_pushLines fails with ⟨_, _, isError, isFirst⟩
    cases isError
    exact isFirst
  · rintro ⟨failsAt, isFirst⟩
    cases isRead : empty.pushLines 1 lines with
    | ok final => exact absurd failsAt (not_failsAt_of_pushLines isRead)
    | error error =>
      rcases failsAt_of_pushLines isRead with ⟨place, other, rfl, failsToo, isFirstToo⟩
      rcases Nat.lt_trichotomy place number with isBefore | rfl | isAfter
      · exact absurd failsToo (isFirst place isBefore other)
      · rw [failsAt.unique failsToo]
      · exact absurd failsAt (isFirstToo number isAfter cause)

end DocumentBuilder

namespace Document

open DocumentBuilder Lines

theorem read_eq_error_iff {page : Text} {error : FilterError} :
    read page = .error error ↔ empty.pushLines 1 (ofText page).items = .error error := by
  simp only [read, bind, Except.bind, pure, Except.pure]
  cases empty.pushLines 1 (ofText page).items <;> simp

/-- The lines up to the one that fails decide that a page is not read. -/
theorem read_eq_error_of_take {page other : Text} {number : Nat} {cause : PropertyError}
    (fails : read page = .error (.properties number cause))
    (same : (ofText other).items.take number = (ofText page).items.take number) :
    read other = .error (.properties number cause) := by
  rw [read_eq_error_iff] at fails ⊢
  rcases pushLines_eq_error_iff.mp fails with
    ⟨earlier, line, later, between, isSplit, isEarlier, refused⟩
  rcases push_eq_error_iff.mp refused with ⟨_, _, _, isError⟩
  cases isError
  have upTo : (ofText other).items.take (1 + earlier.length) = earlier ++ [line] := by
    rw [same, isSplit, Nat.add_comm, List.take_length_add_append]
    rfl
  rw [← List.take_append_drop (1 + earlier.length) (ofText other).items, upTo]
  apply pushLines_append_of_error
  exact pushLines_eq_error_iff.mpr ⟨earlier, line, [], between, rfl, isEarlier, refused⟩

/--
Of the lines that a builder is fed, those that fail leave no trace, in what becomes of the others as
well as in the builder. A page is not read because of the first of them, which is the first
malformed fence outside of any region, whatever follows it.
-/
theorem failed_lines_leave_no_trace :
    (∀ (builder : DocumentBuilder) (lines : List (Text × Nat))
        (fewer : List ((Text × Nat) × Except FilterError Unit)),
      LeavesOut (builder.history lines) fewer →
        builder.history (fewer.map Prod.fst) = fewer ∧
          (builder.feedLines (fewer.map Prod.fst)).2 = (builder.feedLines lines).2) ∧
    ∀ (page : Text) (number : Nat) (cause : PropertyError), List.TFAE [
      read page = .error (.properties number cause),
      ∃ earlier later, (empty.feedLines ((ofText page).items.zipIdx 1)).1 =
          earlier ++ .error (.properties number cause) :: later ∧
        (∀ outcome ∈ earlier, outcome = .ok ()) ∧ number = 1 + earlier.length,
      FailsAt (ofText page).items number cause ∧
        ∀ before < number, ∀ other, ¬ FailsAt (ofText page).items before other,
      ∀ other, (ofText other).items.take number = (ofText page).items.take number →
        read other = .error (.properties number cause)] := by
  refine ⟨fun builder lines fewer leavesOut => history_of_leavesOut leavesOut, ?_⟩
  intro page number cause
  tfae_have 1 ↔ 2 := read_eq_error_iff.trans pushLines_eq_error_iff_feedLines
  tfae_have 1 ↔ 3 := read_eq_error_iff.trans pushLines_eq_error_iff_failsAt
  tfae_have 1 → 4 := fun fails other same => read_eq_error_of_take fails same
  tfae_have 4 → 1 := fun fails => fails page rfl
  tfae_finish

/-- A malformed fence in a verbatim region is text, and the one after it fails, with any lines after
it. -/
theorem failed_lines_leave_no_trace_verbatim :
    ∃ page fewer,
      page = "~~~markdown\n``` \x7b=\x7d\n~~~\n``` \x7b=\x7d\nrest".toList ∧
      LeavesOut (empty.history ((ofText page).items.zipIdx 1)) fewer ∧
      fewer.length = 4 ∧ empty.history (fewer.map Prod.fst) = fewer ∧
      ∀ other, (ofText other).items.take 4 = (ofText page).items.take 4 →
        read other = .error (.properties 4 (.unexpected ['='] 0)) := by
  generalize isPage : "~~~markdown\n``` \x7b=\x7d\n~~~\n``` \x7b=\x7d\nrest".toList = page
  have leavesOut := leavesOut_filter_isOk (empty.history ((ofText page).items.zipIdx 1))
  refine ⟨page, _, rfl, leavesOut, ?_, ?_, ?_⟩
  · subst isPage
    decide +kernel
  · exact (failed_lines_leave_no_trace.1 _ _ _ leavesOut).1
  · apply ((failed_lines_leave_no_trace.2 page 4 (.unexpected ['='] 0)).out 0 3).mp
    subst isPage
    decide +kernel

end Document

end LiterateMarkdown
