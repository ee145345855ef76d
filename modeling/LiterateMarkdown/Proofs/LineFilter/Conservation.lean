import LiterateMarkdown.Proofs.LineFilter.Scan

/-!
# What becomes of the lines of a page

A line of a page is shown, vanishes with the fences of a build artifact, or goes to a script. The
lines of a script wait until it is closed. They are given up at the end of the page, and when
another build artifact begins before that. So no line is lost exactly when every line that is given
up is a line of some script that the runner gets (`forall_accounted_iff`).

A block that is never closed is text to the content chain, but the line filter loses its lines.
-/

namespace LiterateMarkdown

namespace LineFilter

theorem newline_not_mem_takenLine (scan : Scan) {line : Text} (oneLine : '\n' ∉ line) :
    '\n' ∉ scan.takenLine line := by
  intro isNewline
  exact oneLine (Text.mem_of_mem_dedent (Text.mem_of_mem_dropCarriageReturn isNewline))

theorem newline_not_mem_of_mem_step_scriptLines (options : FilterOptions) {scan : Scan}
    {line : Text} (oneLine : '\n' ∉ line) (held : ∀ text ∈ scan.scriptLines, '\n' ∉ text) :
    ∀ text ∈ (step options scan line).scan.scriptLines, '\n' ∉ text := by
  simp only [step]
  cases scan.event options.buildArtifacts line with
  | verbatim begins | kept | titled fence properties => exact held
  | begun fence properties | closed => exact fun _ isMem => absurd isMem List.not_mem_nil
  | taken =>
    intro text isMem
    rcases List.mem_append.mp isMem with earlier | isTaken
    · exact held text earlier
    · rw [List.mem_singleton.mp isTaken]
      exact newline_not_mem_takenLine scan oneLine

/-- A line that begins a build artifact. -/
def BeginsScript (options : FilterOptions) (scan : Scan) (line : Text) : Prop :=
  scan.ignoring = false ∧ options.buildArtifacts ∧
    ∃ fence properties, OpenFence.ofLine? line = some fence ∧
      Property.parse fence.properties = .ok properties ∧
        Property.hasClass properties Fence.buildArtifactClass

/-- A line that closes a build artifact. -/
def ClosesScript (scan : Scan) (line : Text) : Prop :=
  scan.ignoring = false ∧ scan.collecting ∧ Fence.isClosing line

theorem beginsScript_iff {options : FilterOptions} {scan : Scan} {line : Text} :
    BeginsScript options scan line ↔
      ∃ fence properties, scan.event options.buildArtifacts line = .begun fence properties := by
  constructor
  · rintro ⟨notIgnoring, builds, fence, properties, found, parsed, isBuild⟩
    have kind := LineKind.ofLine_eq_opening_iff.mpr ⟨found, parsed⟩
    exact ⟨fence, properties, by simp [Scan.event, kind, notIgnoring, builds, isBuild]⟩
  · rintro ⟨fence, properties, isEvent⟩
    have fits := scan.fits_event options.buildArtifacts line
    rw [isEvent] at fits
    rcases fits with ⟨kind, notIgnoring, builds, isBuild⟩
    rcases LineKind.ofLine_eq_opening_iff.mp kind with ⟨found, parsed⟩
    exact ⟨notIgnoring, builds, fence, properties, found, parsed, isBuild⟩

theorem closesScript_iff (options : FilterOptions) {scan : Scan} {line : Text} :
    ClosesScript scan line ↔ scan.event options.buildArtifacts line = .closed := by
  constructor
  · rintro ⟨notIgnoring, collecting, closes⟩
    have kind := LineKind.ofLine_eq_closing_iff.mpr closes
    simp [Scan.event, kind, Scan.isTaking, notIgnoring, collecting]
  · intro isEvent
    have fits := scan.fits_event options.buildArtifacts line
    rw [isEvent] at fits
    rcases fits with ⟨kind, isTaking⟩
    simp only [Scan.isTaking, Bool.and_eq_true, Bool.not_eq_true'] at isTaking
    exact ⟨isTaking.1, isTaking.2, LineKind.ofLine_eq_closing_iff.mp kind⟩

/-- Whether the lines of the script so far are given up before the lines `later`. -/
def GivesUp (options : FilterOptions) (scan : Scan) (later : List Text) : Prop :=
  match later with
  | [] => True
  | line :: _ => BeginsScript options scan line

/-- Whether a text is a line of one of the scripts. -/
def IsLineOf (scripts : List Text) (text : Text) : Prop :=
  ∃ script ∈ scripts, text ∈ Text.splitOn '\n' script

theorem IsLineOf.append_left {earlier : List Text} {text : Text} (isLine : IsLineOf earlier text)
    (later : List Text) : IsLineOf (earlier ++ later) text := by
  rcases isLine with ⟨script, isMem, isLine⟩
  exact ⟨script, List.mem_append_left later isMem, isLine⟩

theorem IsLineOf.append_right {later : List Text} {text : Text} (isLine : IsLineOf later text)
    (earlier : List Text) : IsLineOf (earlier ++ later) text := by
  rcases isLine with ⟨script, isMem, isLine⟩
  exact ⟨script, List.mem_append_right earlier isMem, isLine⟩

/-- A line that waits in a script was taken from the page. -/
theorem exists_taken_of_mem_scriptLines {options : FilterOptions} {scan : Scan} {lines : List Text}
    {text : Text} (isMem : text ∈ (advance options scan lines).scan.scriptLines) :
    text ∈ scan.scriptLines ∨
      ∃ earlier line later, lines = earlier ++ line :: later ∧
        (advance options scan earlier).scan.event options.buildArtifacts line = .taken ∧
          text = (advance options scan earlier).scan.takenLine line := by
  induction lines generalizing scan with
  | nil => exact .inl isMem
  | cons line rest ih =>
    rcases ih isMem with held | ⟨earlier, other, later, rfl, isEvent, isTaken⟩
    · cases isEvent : scan.event options.buildArtifacts line with
      | verbatim begins | kept | titled fence properties =>
        rw [step_of_event isEvent] at held
        exact .inl held
      | begun fence properties | closed =>
        rw [step_of_event isEvent] at held
        exact absurd held List.not_mem_nil
      | taken =>
        rw [step_of_event isEvent] at held
        rcases List.mem_append.mp held with isEarlier | isTaken
        · exact .inl isEarlier
        · exact .inr ⟨[], line, rest, rfl, isEvent, List.mem_singleton.mp isTaken⟩
    · exact .inr ⟨line :: earlier, other, later, rfl, isEvent, isTaken⟩

/-- A line that waits in a script is handed over or given up. -/
theorem isLineOf_or_givesUp_of_mem_scriptLines {options : FilterOptions} {scan : Scan}
    {lines : List Text} {text : Text} (oneLine : ∀ line ∈ lines, '\n' ∉ line)
    (held : ∀ line ∈ scan.scriptLines, '\n' ∉ line) (isMem : text ∈ scan.scriptLines) :
    IsLineOf (advance options scan lines).scripts text ∨
      ∃ earlier later, lines = earlier ++ later ∧
        GivesUp options (advance options scan earlier).scan later ∧
          text ∈ (advance options scan earlier).scan.scriptLines := by
  induction lines generalizing scan with
  | nil => exact .inr ⟨[], [], rfl, trivial, isMem⟩
  | cons line rest ih =>
    have restOneLine : ∀ other ∈ rest, '\n' ∉ other :=
      fun other isRest => oneLine other (List.mem_cons_of_mem line isRest)
    have heldAfter := newline_not_mem_of_mem_step_scriptLines options
      (oneLine line List.mem_cons_self) held
    have later : text ∈ (step options scan line).scan.scriptLines →
        IsLineOf (advance options scan (line :: rest)).scripts text ∨
          ∃ earlier later, line :: rest = earlier ++ later ∧
            GivesUp options (advance options scan earlier).scan later ∧
              text ∈ (advance options scan earlier).scan.scriptLines := by
      intro stillHeld
      rcases ih restOneLine heldAfter stillHeld with isLine | ⟨earlier, later, rfl, givesUp, isMem⟩
      · exact .inl (isLine.append_right _)
      · exact .inr ⟨line :: earlier, later, rfl, givesUp, isMem⟩
    -- Only the fences of a build artifact empty the script; after any other line the text waits on.
    cases isEvent : scan.event options.buildArtifacts line with
    | verbatim begins | kept | titled fence properties =>
      apply later
      rwa [step_of_event isEvent]
    | begun fence properties =>
      exact .inr ⟨[], line :: rest, rfl, beginsScript_iff.mpr ⟨fence, properties, isEvent⟩, isMem⟩
    | closed =>
      have isHanded : IsLineOf [scan.script] text := by
        refine ⟨scan.script, List.mem_cons_self, ?_⟩
        rwa [Scan.script, Text.splitOn_join (List.ne_nil_of_mem isMem) held]
      left
      rw [advance, step_of_event isEvent]
      exact isHanded.append_left _
    | taken =>
      apply later
      rw [step_of_event isEvent]
      exact List.mem_append_left _ isMem

theorem newline_not_mem_of_mem_scriptLines (options : FilterOptions) {lines : List Text}
    (oneLine : ∀ line ∈ lines, '\n' ∉ line) :
    ∀ text ∈ (advance options {} lines).scan.scriptLines, '\n' ∉ text := by
  intro text isMem
  rcases exists_taken_of_mem_scriptLines isMem with
    isInitial | ⟨earlier, line, later, rfl, _, rfl⟩
  · exact absurd isInitial List.not_mem_nil
  · exact newline_not_mem_takenLine _ (oneLine line (List.mem_append_right _ List.mem_cons_self))

/-- A taken line is handed over, or given up later. -/
theorem isLineOf_or_givesUp_of_taken {options : FilterOptions} {earlier later : List Text}
    {line : Text} (oneLine : ∀ other ∈ earlier ++ line :: later, '\n' ∉ other)
    (isTaken : (advance options {} earlier).scan.event options.buildArtifacts line = .taken) :
    IsLineOf (advance options {} (earlier ++ line :: later)).scripts
        ((advance options {} earlier).scan.takenLine line) ∨
      ∃ before after, earlier ++ line :: later = before ++ after ∧
        GivesUp options (advance options {} before).scan after ∧
          (advance options {} earlier).scan.takenLine line ∈
            (advance options {} before).scan.scriptLines := by
  rw [List.forall_mem_append, List.forall_mem_cons] at oneLine
  rcases oneLine with ⟨earlierOneLine, lineOneLine, laterOneLine⟩
  have held := newline_not_mem_of_mem_step_scriptLines options lineOneLine
    (newline_not_mem_of_mem_scriptLines options earlierOneLine)
  have isHeld : (advance options {} earlier).scan.takenLine line ∈
      (step options (advance options {} earlier).scan line).scan.scriptLines := by
    rw [step_of_event isTaken]
    exact List.mem_append_right _ List.mem_cons_self
  rcases isLineOf_or_givesUp_of_mem_scriptLines laterOneLine held isHeld with
    isLine | ⟨between, after, rfl, givesUp, isMem⟩
  · left
    rw [advance_append]
    exact (isLine.append_right _).append_right _
  · refine .inr ⟨earlier ++ line :: between, after, by simp, ?_, ?_⟩
    · rwa [advance_append]
    · rwa [advance_append]

section

variable {World : Type} (options : FilterOptions) (runner : BuildRunner World) (world : World)

/-- Where a fresh filter stands after some lines, its runner noting the scripts that it is given. -/
def reached (lines : List Text) : State (List Text × World) :=
  (Rule.applyLines (rules options runner.noting) .exclusive (.initial ([], world)) lines).1

/-- The lines that stand in place of a line, after the lines before it. -/
def emittedAfter (earlier : List Text) (line : Text) : List Text :=
  (Rule.applyLine (rules options runner.noting) .exclusive (reached options runner world earlier)
    line).2

/-- What may become of a line of a page with the lines `lines`, after the lines before it. -/
inductive Accounted (lines earlier : List Text) (line : Text) : Prop where
  | unchanged (emitted : emittedAfter options runner world earlier line = [line])
  /-- An opening fence is rendered with its title. -/
  | rendered {fence : OpenFence} {properties : List Property}
      (found : OpenFence.ofLine? line = some fence)
      (parsed : Property.parse fence.properties = .ok properties)
      (emitted : emittedAfter options runner world earlier line =
        [Fence.titledLine fence properties])
  /-- A fence of a build artifact leaves the page with it. -/
  | removed (suppresses : options.closingFence = .suppress)
      (isFence : BeginsScript options (reached options runner world earlier).scan line ∨
        ClosesScript (reached options runner world earlier).scan line)
  /-- The line without its indentation is a line of a script that is handed over in the run. -/
  | handed (isLine : IsLineOf (reached options runner world lines).world.1
      ((reached options runner world earlier).scan.takenLine line))

theorem reached_eq (lines : List Text) :
    reached options runner world lines =
      ⟨(advance options {} lines).scan, (advance options {} lines).scripts,
        runScripts runner world (advance options {} lines).scripts⟩ := by
  simp only [reached, applyLines_rules, Progress.run, State.initial, runScripts_noting,
    List.nil_append]

theorem emittedAfter_eq (earlier : List Text) (line : Text) :
    emittedAfter options runner world earlier line =
      (step options (advance options {} earlier).scan line).emitted := by
  simp only [emittedAfter, Rule.applyLine, applyFirst_rules, Progress.run, reached_eq]

/-- A line that is not taken is accounted for on the spot. -/
theorem accounted_of_not_taken {lines earlier : List Text} {line : Text}
    (notTaken : (advance options {} earlier).scan.event options.buildArtifacts line ≠ .taken) :
    Accounted options runner world lines earlier line := by
  have emitted := emittedAfter_eq options runner world earlier line
  have sameScan :
      (reached options runner world earlier).scan = (advance options {} earlier).scan := by
    rw [reached_eq]
  have fits := (advance options {} earlier).scan.fits_event options.buildArtifacts line
  cases isEvent : (advance options {} earlier).scan.event options.buildArtifacts line with
  | verbatim begins | kept =>
    rw [step_of_event isEvent] at emitted
    exact .unchanged emitted
  | titled fence properties =>
    rw [isEvent] at fits
    rcases LineKind.ofLine_eq_opening_iff.mp fits.1 with ⟨found, parsed⟩
    rw [step_of_event isEvent] at emitted
    exact .rendered found parsed emitted
  | begun fence properties =>
    rw [isEvent] at fits
    rcases LineKind.ofLine_eq_opening_iff.mp fits.1 with ⟨found, parsed⟩
    rw [step_of_event isEvent] at emitted
    cases fences : options.closingFence with
    | verbatim =>
      rw [fences] at emitted
      exact .rendered found parsed emitted
    | suppress =>
      refine .removed fences (.inl ?_)
      rw [sameScan]
      exact beginsScript_iff.mpr ⟨fence, properties, isEvent⟩
  | closed =>
    rw [step_of_event isEvent] at emitted
    cases fences : options.closingFence with
    | verbatim =>
      rw [fences] at emitted
      exact .unchanged emitted
    | suppress =>
      refine .removed fences (.inr ?_)
      rw [sameScan]
      exact (closesScript_iff options).mpr isEvent
  | taken => contradiction

/-- A taken line is accounted for only by a script. -/
theorem accounted_iff_of_taken {lines earlier : List Text} {line : Text}
    (isTaken : (advance options {} earlier).scan.event options.buildArtifacts line = .taken) :
    Accounted options runner world lines earlier line ↔
      IsLineOf (advance options {} lines).scripts
        ((advance options {} earlier).scan.takenLine line) := by
  have nothing : emittedAfter options runner world earlier line = [] := by
    rw [emittedAfter_eq, step_of_event isTaken]
    rfl
  constructor
  · intro accounted
    cases accounted with
    | unchanged emitted =>
      rw [nothing] at emitted
      contradiction
    | rendered found parsed emitted =>
      rw [nothing] at emitted
      contradiction
    | removed suppresses isFence =>
      rw [reached_eq, beginsScript_iff, closesScript_iff options] at isFence
      simp [isTaken] at isFence
    | handed isLine =>
      rw [reached_eq, reached_eq] at isLine
      exact isLine
  · intro isLine
    apply Accounted.handed
    rw [reached_eq, reached_eq]
    exact isLine

/--
Every line of a page is accounted for exactly when each line that is given up, at the end of the
page or where another build artifact begins, is also a line of some script that is handed over.
-/
theorem forall_accounted_iff (page : Text) :
    (∀ earlier line later, (Lines.ofText page).items = earlier ++ line :: later →
        Accounted options runner world (Lines.ofText page).items earlier line) ↔
      ∀ earlier later, (Lines.ofText page).items = earlier ++ later →
        GivesUp options (reached options runner world earlier).scan later →
          ∀ text ∈ (reached options runner world earlier).scan.scriptLines,
            IsLineOf (reached options runner world (Lines.ofText page).items).world.1 text := by
  have oneLine : ∀ line ∈ (Lines.ofText page).items, '\n' ∉ line :=
    fun line isMem => Lines.newline_not_mem_of_mem_split isMem
  simp only [reached_eq]
  constructor
  · intro allAccounted earlier later isPage _ text isMem
    rcases exists_taken_of_mem_scriptLines isMem with
      isInitial | ⟨before, line, after, rfl, isTaken, rfl⟩
    · exact absurd isInitial List.not_mem_nil
    · have accounted := allAccounted before line (after ++ later) (by simpa using isPage)
      exact (accounted_iff_of_taken options runner world isTaken).mp accounted
  · intro noneLost earlier line later isPage
    by_cases isTaken :
        (advance options {} earlier).scan.event options.buildArtifacts line = .taken
    · rw [accounted_iff_of_taken options runner world isTaken]
      rw [isPage] at oneLine
      rcases isLineOf_or_givesUp_of_taken oneLine isTaken with
        isLine | ⟨before, after, isSplit, givesUp, isMem⟩
      · rwa [isPage]
      · exact noneLost before after (isPage.trans isSplit) givesUp _ isMem
    · exact accounted_of_not_taken options runner world isTaken

end

/-- The body of a build artifact that is never closed is lost. -/
theorem not_forall_accounted_unclosed :
    ¬ ∀ earlier line later,
      (Lines.ofText "``` \x7b.build-artifact\x7d\nall:\n".toList).items = earlier ++ line :: later →
        Accounted ⟨true, .verbatim⟩ BuildRunner.idle ()
          (Lines.ofText "``` \x7b.build-artifact\x7d\nall:\n".toList).items earlier line := by
  intro allAccounted
  have isPage : (Lines.ofText "``` \x7b.build-artifact\x7d\nall:\n".toList).items =
      ["``` \x7b.build-artifact\x7d".toList] ++ "all:".toList :: [] := by
    decide +kernel
  have isTaken : (advance ⟨true, .verbatim⟩ {}
      ["``` \x7b.build-artifact\x7d".toList]).scan.event true "all:".toList = .taken := by
    decide +kernel
  have noScripts : (advance ⟨true, .verbatim⟩ {}
      (Lines.ofText "``` \x7b.build-artifact\x7d\nall:\n".toList).items).scripts = [] := by
    decide +kernel
  rcases (accounted_iff_of_taken _ _ _ isTaken).mp (allAccounted _ _ _ isPage) with
    ⟨script, isMem, _⟩
  have noScript : script ∈ ([] : List Text) := noScripts ▸ isMem
  exact absurd noScript List.not_mem_nil

end LineFilter

end LiterateMarkdown
