import LiterateMarkdown.Proofs.LineEnding.Fence
import LiterateMarkdown.Proofs.LineFilter.Conservation

/-!
# What holds of a scan at every line

A scan holds lines only while it collects a script. It collects one only if scripts are run, from
the opening fence of a build artifact on, and none of the lines that it holds closes a fence. Every
line of a page keeps this (`consistent_step`), whatever regions begin and end in between. So it
holds wherever a filter stands on its way through any number of pages, and the runner is handed no
other lines (`consistent_of_reachedWithin`).

A filter that runs no scripts changes nothing but whether it is inside of a verbatim region.
-/

namespace LiterateMarkdown

namespace Fence

theorem isClosing_append_left {blanks : Text} (allIndent : blanks.all Text.isIndent) (line : Text) :
    isClosing (blanks ++ line) = isClosing line := by
  have blank : ∀ c ∈ blanks, Text.isBlank c := fun c present =>
    Text.isBlank_of_isIndent (List.all_eq_true.mp allIndent c present)
  simp only [isClosing, List.dropWhile_append_of_pos blank]

theorem isClosing_dropCarriageReturn (line : Text) :
    isClosing (Text.dropCarriageReturn line) = isClosing line := by
  rcases List.eq_nil_or_concat line with rfl | ⟨start, last, rfl⟩
  · rfl
  · rw [List.concat_eq_append]
    by_cases isReturn : last = '\r'
    · rw [isReturn, Text.dropCarriageReturn_append, isClosing_append_return]
    · simp [Text.dropCarriageReturn, isReturn]

end Fence

namespace LineFilter

/-- A line that can stand in the body of a build artifact. -/
structure IsBodyLine (line : Text) : Prop where
  notClosing : Fence.isClosing line = false
  oneLine : '\n' ∉ line

/-- What holds of a scan at every line. -/
structure Scan.Consistent (options : FilterOptions) (scan : Scan) : Prop where
  holdsNothing : scan.collecting = false → scan.scriptLines = []
  runsScripts : scan.collecting → options.buildArtifacts
  isArtifact : scan.collecting → Property.hasClass scan.scriptProperties Fence.buildArtifactClass
  indentBlank : scan.collecting → scan.scriptIndent.all Text.isIndent
  bodyLines : ∀ line ∈ scan.scriptLines, IsBodyLine line

theorem consistent_initial (options : FilterOptions) : Scan.Consistent options {} where
  holdsNothing _ := rfl
  runsScripts := by simp
  isArtifact := by simp
  indentBlank := by simp
  bodyLines := by simp

/-- Taking the indentation from a line makes no closing fence of it. -/
theorem isBodyLine_takenLine {options : FilterOptions} {scan : Scan} {line : Text}
    (consistent : scan.Consistent options) (collecting : scan.collecting)
    (notClosing : Fence.isClosing line = false) (oneLine : '\n' ∉ line) :
    IsBodyLine (scan.takenLine line) where
  notClosing := by
    rw [Scan.takenLine, Fence.isClosing_dropCarriageReturn, Text.dedent]
    cases isRest : Text.after? scan.scriptIndent line with
    | none => exact notClosing
    | some rest =>
      rw [Text.after?_eq_some_iff.mp isRest,
        Fence.isClosing_append_left (consistent.indentBlank collecting)] at notClosing
      exact notClosing
  oneLine := newline_not_mem_takenLine scan oneLine

/-- The lines of a script are the lines that were held. -/
theorem isBodyLine_of_isLineOf_script {scan : Scan} {text : Text}
    (bodyLines : ∀ line ∈ scan.scriptLines, IsBodyLine line)
    (isLine : IsLineOf [scan.script] text) : IsBodyLine text := by
  rcases isLine with ⟨script, isScript, isLine⟩
  rw [List.mem_singleton.mp isScript, Scan.script] at isLine
  cases holds : scan.scriptLines with
  | nil =>
    rw [holds] at isLine
    rw [List.mem_singleton.mp isLine]
    exact ⟨rfl, List.not_mem_nil⟩
  | cons first rest =>
    have oneLine : ∀ line ∈ scan.scriptLines, '\n' ∉ line := fun line isHeld =>
      (bodyLines line isHeld).oneLine
    rw [Text.splitOn_join (by simp [holds]) oneLine] at isLine
    exact bodyLines text isLine

/-- Each line of a page keeps the invariant, and hands over none but the lines of a body. -/
theorem consistent_step {options : FilterOptions} {scan : Scan} {line : Text}
    (consistent : scan.Consistent options) (oneLine : '\n' ∉ line) :
    (step options scan line).scan.Consistent options ∧
      ∀ text, IsLineOf (step options scan line).scripts text → IsBodyLine text := by
  have noScript : ∀ text, IsLineOf [] text → IsBodyLine text := by
    rintro text ⟨script, isScript, _⟩
    contradiction
  have fits := scan.fits_event options.buildArtifacts line
  cases isEvent : scan.event options.buildArtifacts line with
  | verbatim begins =>
    rw [step_of_event isEvent]
    refine ⟨?_, noScript⟩
    exact ⟨consistent.holdsNothing, consistent.runsScripts, consistent.isArtifact,
      consistent.indentBlank, consistent.bodyLines⟩
  | kept | titled fence properties =>
    rw [step_of_event isEvent]
    exact ⟨consistent, noScript⟩
  | begun fence properties =>
    rw [isEvent] at fits
    rcases fits with ⟨kind, _, builds, isBuild⟩
    rcases LineKind.ofLine_eq_opening_iff.mp kind with ⟨found, _⟩
    rcases OpenFence.exists_toLine_of_ofLine? found with ⟨_, _, _, indentBlank, _⟩
    have isArtifact :
        Property.hasClass (Fence.withTitle properties).1 Fence.buildArtifactClass := by
      rwa [Fence.hasClass_withTitle]
    rw [step_of_event isEvent]
    refine ⟨⟨?_, fun _ => builds, fun _ => isArtifact, fun _ => indentBlank, ?_⟩, noScript⟩
    · exact fun _ => rfl
    · exact fun _ isHeld => absurd isHeld List.not_mem_nil
  | closed =>
    rw [step_of_event isEvent]
    refine ⟨⟨fun _ => rfl, ?_, ?_, ?_, ?_⟩, ?_⟩
    · exact fun isCollecting => absurd isCollecting Bool.false_ne_true
    · exact fun isCollecting => absurd isCollecting Bool.false_ne_true
    · exact fun isCollecting => absurd isCollecting Bool.false_ne_true
    · exact fun _ isHeld => absurd isHeld List.not_mem_nil
    · exact fun _ isLine => isBodyLine_of_isLineOf_script consistent.bodyLines isLine
  | taken =>
    rw [isEvent] at fits
    rcases fits with ⟨ordinary, taking⟩
    simp only [Scan.isTaking, Bool.and_eq_true] at taking
    have notClosing : Fence.isClosing line = false :=
      LineKind.isClosing_eq_false (by simp [ordinary])
    have isBody := isBodyLine_takenLine consistent taking.2 notClosing oneLine
    rw [step_of_event isEvent]
    refine ⟨⟨?_, consistent.runsScripts, consistent.isArtifact, consistent.indentBlank, ?_⟩,
      noScript⟩
    · exact fun notCollecting => absurd taking.2 (Bool.eq_false_iff.mp notCollecting)
    · intro held isHeld
      rcases List.mem_append.mp isHeld with isEarlier | isTaken
      · exact consistent.bodyLines held isEarlier
      · rwa [List.mem_singleton.mp isTaken]

theorem consistent_advance {options : FilterOptions} {scan : Scan} {lines : List Text}
    (consistent : scan.Consistent options) (oneLine : ∀ line ∈ lines, '\n' ∉ line) :
    (advance options scan lines).scan.Consistent options ∧
      ∀ text, IsLineOf (advance options scan lines).scripts text → IsBodyLine text := by
  induction lines generalizing scan with
  | nil =>
    refine ⟨consistent, ?_⟩
    rintro text ⟨script, isScript, _⟩
    contradiction
  | cons line rest ih =>
    rw [List.forall_mem_cons] at oneLine
    rcases consistent_step consistent oneLine.1 with ⟨consistentAfter, firstBody⟩
    rcases ih consistentAfter oneLine.2 with ⟨consistentLater, laterBody⟩
    refine ⟨consistentLater, ?_⟩
    rintro text ⟨script, isScript, isLine⟩
    rcases List.mem_append.mp isScript with isFirst | isLater
    · exact firstBody text ⟨script, isFirst, isLine⟩
    · exact laterBody text ⟨script, isLater, isLine⟩

/-- A scan that has been inside of verbatim regions at most. -/
def Scan.IsIdle (scan : Scan) : Prop :=
  scan = { ignoring := scan.ignoring }

/-- Without scripts to run, a line leaves a scan idle, whatever happens to the fences of scripts. -/
theorem step_of_isIdle {options : FilterOptions} {scan : Scan} (idle : scan.IsIdle)
    (noBuilds : options.buildArtifacts = false) (line : Text) :
    (step options scan line).scan.IsIdle ∧ (step options scan line).scripts = [] ∧
      ∀ closingFence, step { options with closingFence } scan line = step options scan line := by
  have notCollecting : scan.collecting = false := by
    rw [idle]
  have notTaking := Scan.isTaking_of_not_collecting notCollecting
  have fits := scan.fits_event options.buildArtifacts line
  cases isEvent : scan.event options.buildArtifacts line with
  | verbatim begins =>
    have stays : ({ scan with ignoring := begins } : Scan).IsIdle := by
      rw [idle]
      rfl
    rw [step_of_event isEvent]
    exact ⟨stays, rfl, fun closingFence => step_of_event isEvent⟩
  | kept | titled fence properties =>
    rw [step_of_event isEvent]
    exact ⟨idle, rfl, fun closingFence => step_of_event isEvent⟩
  | begun fence properties =>
    rw [isEvent] at fits
    simp [Event.Fits, noBuilds] at fits
  | closed | taken =>
    rw [isEvent] at fits
    simp [Event.Fits, notTaking] at fits

theorem advance_of_isIdle {options : FilterOptions} {scan : Scan} (idle : scan.IsIdle)
    (noBuilds : options.buildArtifacts = false) (lines : List Text) :
    (advance options scan lines).scan.IsIdle ∧ (advance options scan lines).scripts = [] ∧
      ∀ closingFence, advance { options with closingFence } scan lines =
        advance options scan lines := by
  induction lines generalizing scan with
  | nil => exact ⟨idle, rfl, fun _ => rfl⟩
  | cons line rest ih =>
    rcases step_of_isIdle idle noBuilds line with ⟨idleAfter, noFirst, sameStep⟩
    rcases ih idleAfter with ⟨idleLater, noLater, sameRest⟩
    refine ⟨idleLater, ?_, ?_⟩
    · rw [advance, noFirst, noLater]
      rfl
    · intro closingFence
      simp only [advance, sameStep, sameRest]

section

variable {World : Type}

/-- Filter pages one after the other, each from where the one before it left the scan. -/
def runPages (options : FilterOptions) (runner : BuildRunner World) (state : State World) :
    List Text → State World × List Text
  | [] => (state, [])
  | page :: rest =>
    let (state, filtered) := run options runner state page
    let (state, later) := runPages options runner state rest
    (state, filtered :: later)

/-- The lines of pages, in order. -/
def pageLines (pages : List Text) : List Text :=
  pages.flatMap fun page => (Lines.ofText page).items

theorem newline_not_mem_of_mem_pageLines {pages : List Text} {line : Text}
    (isLine : line ∈ pageLines pages) : '\n' ∉ line := by
  rcases List.mem_flatMap.mp isLine with ⟨page, _, isLine⟩
  exact Lines.newline_not_mem_of_mem_split isLine

/-- Filtering pages leaves the scan where filtering all their lines at once does. -/
theorem runPages_state (options : FilterOptions) (runner : BuildRunner World)
    (state : State World) (pages : List Text) :
    (runPages options runner state pages).1 =
      ⟨(advance options state.scan (pageLines pages)).scan,
        runScripts runner state.world (advance options state.scan (pageLines pages)).scripts⟩ := by
  induction pages generalizing state with
  | nil => rfl
  | cons page rest ih =>
    simp only [runPages, ih, run_eq, pageLines, List.flatMap_cons, advance_append,
      runScripts_append]

variable (options : FilterOptions) (runner : BuildRunner World) (world : World)

/--
Where a fresh filter stands after pages and the first `count` lines of the next one, its runner
noting the scripts that it is given.
-/
def reachedWithin (pages : List Text) (page : Text) (count : Nat) : State (List Text × World) :=
  let state := (runPages options runner.noting (.initial ([], world)) pages).1
  (Rule.applyLines (rules options runner.noting) .exclusive state
    ((Lines.ofText page).items.take count)).1

theorem reachedWithin_eq (pages : List Text) (page : Text) (count : Nat) :
    reachedWithin options runner world pages page count =
      reached options runner world (pageLines pages ++ (Lines.ofText page).items.take count) := by
  simp only [reachedWithin, runPages_state, applyLines_rules, Progress.run, reached_eq,
    State.initial, advance_append, runScripts_append, runScripts_noting, List.nil_append]

/-- Without scripts to run, pages are filtered alike whatever happens to the fences of scripts. -/
theorem runPages_of_isIdle {options : FilterOptions} (noBuilds : options.buildArtifacts = false)
    {state : State World} (idle : state.scan.IsIdle) (closingFence : ClosingFence)
    (pages : List Text) :
    (runPages { options with closingFence } runner state pages).2 =
      (runPages options runner state pages).2 := by
  induction pages generalizing state with
  | nil => rfl
  | cons page rest ih =>
    rcases advance_of_isIdle idle noBuilds (Lines.ofText page).items with ⟨idleAfter, _, same⟩
    have sameRun : run { options with closingFence } runner state page =
        run options runner state page := by
      simp only [run_eq, same]
    have idleLater : (run options runner state page).1.scan.IsIdle := by
      rwa [run_eq]
    simp only [runPages, sameRun, ih idleLater]

/--
At every line of every page that goes through a filter, the scan is consistent and the runner has
been handed none but the lines of bodies. Without scripts to run nothing has changed but whether the
scan is inside of a verbatim region, the runner has not been called, and what happens to the fences
of scripts makes no difference.
-/
theorem consistent_of_reachedWithin (pages : List Text) (page : Text) (count : Nat) :
    (reachedWithin options runner world pages page count).scan.Consistent options ∧
      (∀ text, IsLineOf (reachedWithin options runner world pages page count).world.1 text →
        IsBodyLine text) ∧
      (options.buildArtifacts = false →
        (reachedWithin options runner world pages page count).scan.IsIdle ∧
          (reachedWithin options runner world pages page count).world = ([], world) ∧
          ∀ closingFence,
            (runPages { options with closingFence } runner (.initial world) pages).2 =
              (runPages options runner (.initial world) pages).2) := by
  have oneLine : ∀ line ∈ pageLines pages ++ (Lines.ofText page).items.take count,
      '\n' ∉ line := by
    intro line isLine
    rcases List.mem_append.mp isLine with isEarlier | isHere
    · exact newline_not_mem_of_mem_pageLines isEarlier
    · exact Lines.newline_not_mem_of_mem_split (List.mem_of_mem_take isHere)
  rw [reachedWithin_eq, reached_eq]
  rcases consistent_advance (consistent_initial options) oneLine with ⟨consistent, bodyLines⟩
  refine ⟨consistent, bodyLines, ?_⟩
  intro noBuilds
  have idleStart : Scan.IsIdle {} := rfl
  rcases advance_of_isIdle idleStart noBuilds
    (pageLines pages ++ (Lines.ofText page).items.take count) with ⟨idle, noScripts, _⟩
  refine ⟨idle, ?_, ?_⟩
  · rw [noScripts]
    rfl
  · intro closingFence
    exact runPages_of_isIdle runner noBuilds idleStart closingFence pages

end

end LineFilter

end LiterateMarkdown
