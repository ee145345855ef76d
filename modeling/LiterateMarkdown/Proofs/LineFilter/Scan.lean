import LiterateMarkdown.LineFilter
import LiterateMarkdown.Proofs.Fence.Rendering

/-!
# Scans of the line filter

The five rules together make one step of a line. What happens to the line is an event, which depends
on the kind of the line and on where the scan stands, and neither on the runner nor on what happens
to the fences around a script. The event decides where the scan goes, which lines stand in place of
the line, and which script is handed over.

A run of the rules is the run of these steps (`run_eq`). The runner's world takes no part in it: it
only receives the scripts, in order.
-/

namespace LiterateMarkdown

namespace LineFilter

/-- What happens to a line. -/
inductive Event where
  /-- A verbatim region begins or ends at the line. -/
  | verbatim (begins : Bool)
  /-- The line stays as it is. -/
  | kept
  /-- The line is an opening fence and gets its title. -/
  | titled (fence : OpenFence) (properties : List Property)
  /-- The line is the opening fence of a build artifact. -/
  | begun (fence : OpenFence) (properties : List Property)
  /-- The line is the closing fence of a build artifact. -/
  | closed
  /-- The line goes to the script. -/
  | taken
  deriving DecidableEq, Repr

/-- The lines that are left of a line of a build artifact's fence. -/
def fenceLines (closingFence : ClosingFence) (line : Text) : List Text :=
  match closingFence with
  | .verbatim => [line]
  | .suppress => []

namespace Scan

/-- Whether the lines that are no fences go to a script. -/
def isTaking (scan : Scan) : Bool :=
  !scan.ignoring && scan.collecting

theorem isTaking_of_not_collecting {scan : Scan} (notCollecting : scan.collecting = false) :
    scan.isTaking = false := by
  simp only [isTaking, notCollecting, Bool.and_false]

theorem isTaking_of_ignoring {scan : Scan} (ignoring : scan.ignoring) : scan.isTaking = false := by
  simp only [isTaking, ignoring, Bool.not_true, Bool.false_and]

/-- The test by which the rules of a script decline a line. -/
theorem not_isTaking_eq (scan : Scan) : (scan.ignoring || !scan.collecting) = !scan.isTaking := by
  rw [isTaking, Bool.not_and, Bool.not_not]

/-- What a script gets of a line. -/
def takenLine (scan : Scan) (line : Text) : Text :=
  Text.dropCarriageReturn (Text.dedent scan.scriptIndent line)

/-- The script of the lines that were taken so far. -/
def script (scan : Scan) : Text :=
  Text.join ['\n'] scan.scriptLines

/-- What happens to the next line. -/
def event (buildArtifacts : Bool) (scan : Scan) (line : Text) : Event :=
  match LineKind.ofLine line with
  | .verbatimStart => .verbatim true
  | .verbatimEnd => .verbatim false
  | .opening fence properties =>
    if scan.ignoring then .kept
    else if buildArtifacts && Property.hasClass properties Fence.buildArtifactClass then
      .begun fence properties
    else .titled fence properties
  | .closing => if scan.isTaking then .closed else .kept
  | .ordinary => if scan.isTaking then .taken else .kept

/-- Where the scan stands after an event. -/
def after (scan : Scan) (line : Text) : Event → Scan
  | .verbatim begins => { scan with ignoring := begins }
  | .kept | .titled _ _ => scan
  | .begun fence properties =>
    { scan with
      collecting := true, scriptLines := [], scriptIndent := fence.indent,
      scriptProperties := (Fence.withTitle properties).1 }
  | .closed => { scan with collecting := false, scriptLines := [] }
  | .taken => { scan with scriptLines := scan.scriptLines ++ [scan.takenLine line] }

/-- The script that is handed over at an event. -/
def handedAt (scan : Scan) : Event → List Text
  | .closed => [scan.script]
  | _ => []

end Scan

/-- The lines that stand in place of a line after an event. -/
def Event.emitted (closingFence : ClosingFence) (line : Text) : Event → List Text
  | .verbatim _ | .kept => [line]
  | .titled fence properties => [Fence.titledLine fence properties]
  | .begun fence properties => fenceLines closingFence (Fence.titledLine fence properties)
  | .closed => fenceLines closingFence line
  | .taken => []

/-- What an event says about its line and about the scan that meets it. -/
def Event.Fits (buildArtifacts : Bool) (scan : Scan) (line : Text) : Event → Prop
  | .verbatim begins =>
    LineKind.ofLine line = if begins then .verbatimStart else .verbatimEnd
  | .kept =>
    LineKind.ofLine line ≠ .verbatimStart ∧ LineKind.ofLine line ≠ .verbatimEnd ∧
      scan.isTaking = false ∧ (scan.ignoring ∨ LineKind.ofLine line = .closing ∨
        LineKind.ofLine line = .ordinary)
  | .titled fence properties =>
    LineKind.ofLine line = .opening fence properties ∧ scan.ignoring = false ∧
      (buildArtifacts && Property.hasClass properties Fence.buildArtifactClass) = false
  | .begun fence properties =>
    LineKind.ofLine line = .opening fence properties ∧ scan.ignoring = false ∧
      buildArtifacts ∧ Property.hasClass properties Fence.buildArtifactClass
  | .closed => LineKind.ofLine line = .closing ∧ scan.isTaking
  | .taken => LineKind.ofLine line = .ordinary ∧ scan.isTaking

theorem Scan.fits_event (buildArtifacts : Bool) (scan : Scan) (line : Text) :
    (scan.event buildArtifacts line).Fits buildArtifacts scan line := by
  cases kind : LineKind.ofLine line with
  | verbatimStart | verbatimEnd => simp [event, kind, Event.Fits]
  | opening fence properties =>
    simp only [event, kind]
    split
    · rename_i ignoring
      simp [Event.Fits, kind, isTaking, ignoring]
    split
    · simp_all [Event.Fits]
    · simp_all [Event.Fits]
  | closing | ordinary =>
    simp only [event, kind]
    split <;> simp_all [Event.Fits]

/-- What becomes of lines: where the scan stands, what is emitted and what is handed over. -/
structure Progress where
  scan : Scan
  emitted : List Text
  scripts : List Text
  deriving DecidableEq, Repr

/-- What becomes of the next line. -/
def step (options : FilterOptions) (scan : Scan) (line : Text) : Progress :=
  let event := scan.event options.buildArtifacts line
  ⟨scan.after line event, event.emitted options.closingFence line, scan.handedAt event⟩

theorem step_of_event {options : FilterOptions} {scan : Scan} {line : Text} {event : Event}
    (isEvent : scan.event options.buildArtifacts line = event) :
    step options scan line =
      ⟨scan.after line event, event.emitted options.closingFence line, scan.handedAt event⟩ := by
  rw [step, isEvent]

theorem step_of_kept {options : FilterOptions} {scan : Scan} {line : Text}
    (kept : scan.event options.buildArtifacts line = .kept) :
    step options scan line = ⟨scan, [line], []⟩ :=
  step_of_event kept

theorem step_of_startsVerbatim (options : FilterOptions) (scan : Scan) {line : Text}
    (starts : Fence.startsVerbatim line) :
    step options scan line = ⟨{ scan with ignoring := true }, [line], []⟩ := by
  have isEvent : scan.event options.buildArtifacts line = .verbatim true := by
    simp only [Scan.event, LineKind.ofLine_eq_verbatimStart_iff.mpr starts]
  exact step_of_event isEvent

theorem step_of_endsVerbatim (options : FilterOptions) (scan : Scan) {line : Text}
    (ends : Fence.endsVerbatim line) :
    step options scan line = ⟨{ scan with ignoring := false }, [line], []⟩ := by
  have isEvent : scan.event options.buildArtifacts line = .verbatim false := by
    simp only [Scan.event, LineKind.ofLine_eq_verbatimEnd_iff.mpr ends]
  exact step_of_event isEvent

theorem step_of_isFence (options : FilterOptions) {scan : Scan} {line : Text}
    (notFound : OpenFence.ofLine? line = none) (isFence : Fence.isFence line)
    (notTaking : scan.isTaking = false) : step options scan line = ⟨scan, [line], []⟩ := by
  apply step_of_kept
  cases closes : Fence.isClosing line <;>
    simp [Scan.event, LineKind.ofLine_of_isFence isFence, notFound, closes, notTaking]

theorem step_of_ordinary (options : FilterOptions) {scan : Scan} {line : Text}
    (ordinary : LineKind.ofLine line = .ordinary) (notTaking : scan.isTaking = false) :
    step options scan line = ⟨scan, [line], []⟩ := by
  apply step_of_kept
  simp [Scan.event, ordinary, notTaking]

theorem step_of_ignoring (options : FilterOptions) {scan : Scan} {line : Text}
    (ignoring : scan.ignoring) (notEnd : Fence.endsVerbatim line = false) :
    step options scan line = ⟨scan, [line], []⟩ := by
  have notTaking := Scan.isTaking_of_ignoring ignoring
  cases kind : LineKind.ofLine line with
  | verbatimStart =>
    have sameScan : { scan with ignoring := true } = scan := by rw [← ignoring]
    rw [step_of_startsVerbatim options scan (LineKind.ofLine_eq_verbatimStart_iff.mp kind),
      sameScan]
  | verbatimEnd =>
    rw [LineKind.ofLine_eq_verbatimEnd_iff, notEnd] at kind
    contradiction
  | opening fence properties =>
    apply step_of_kept
    simp [Scan.event, kind, ignoring]
  | closing | ordinary =>
    apply step_of_kept
    simp [Scan.event, kind, notTaking]

/-- What becomes of the next lines. -/
def advance (options : FilterOptions) (scan : Scan) : List Text → Progress
  | [] => ⟨scan, [], []⟩
  | line :: rest =>
    let first := step options scan line
    let later := advance options first.scan rest
    ⟨later.scan, first.emitted ++ later.emitted, first.scripts ++ later.scripts⟩

variable {World : Type}

/-- The world after scripts were run in it, in order. -/
def runScripts (runner : BuildRunner World) (world : World) (scripts : List Text) : World :=
  scripts.foldl runner.runDetached world

theorem runScripts_append (runner : BuildRunner World) (world : World)
    (earlier later : List Text) :
    runScripts runner world (earlier ++ later) =
      runScripts runner (runScripts runner world earlier) later :=
  List.foldl_append

/-- A noting runner notes the scripts that it is given. -/
@[simp]
theorem runScripts_noting (runner : BuildRunner World) (noted : List Text) (world : World)
    (scripts : List Text) :
    runScripts runner.noting (noted, world) scripts =
      (noted ++ scripts, runScripts runner world scripts) := by
  induction scripts generalizing noted world with
  | nil => simp [runScripts]
  | cons script more ih =>
    change runScripts runner.noting (runner.noting.runDetached (noted, world) script) more = _
    rw [BuildRunner.runDetached_noting, ih, List.append_assoc]
    rfl

@[simp]
theorem runScripts_idle (world : World) (scripts : List Text) :
    runScripts .idle world scripts = world := by
  induction scripts with
  | nil => rfl
  | cons script more ih => exact ih

/-- The state and the lines that progress comes to, its scripts being run in a world. -/
def Progress.run (runner : BuildRunner World) (world : World) (progress : Progress) :
    State World × List Text :=
  (⟨progress.scan, runScripts runner world progress.scripts⟩, progress.emitted)

section

variable (options : FilterOptions) (runner : BuildRunner World) (state : State World) {line : Text}

theorem addLineToScript_of_not_isTaking (notTaking : state.scan.isTaking = false) :
    addLineToScript state line = (state, .noMatch) := by
  simp only [addLineToScript, Scan.not_isTaking_eq, notTaking, Bool.not_false, ↓reduceIte]

theorem closeCodeBlock_of_not_isTaking (notTaking : state.scan.isTaking = false) :
    closeCodeBlock options runner state line = (state, .noMatch) := by
  simp only [closeCodeBlock, Scan.not_isTaking_eq, notTaking, Bool.not_false, ↓reduceIte]

theorem closeCodeBlock_of_isTaking (taking : state.scan.isTaking) :
    ∃ verdict, closeCodeBlock options runner state line =
        (⟨state.scan.after line .closed, runner.runDetached state.world state.scan.script⟩,
          verdict) ∧
      verdict.isMatch ∧ verdict.lines line = fenceLines options.closingFence line := by
  simp only [closeCodeBlock, Scan.not_isTaking_eq, taking, Bool.not_true, Bool.false_eq_true,
    ↓reduceIte]
  cases options.closingFence with
  | verbatim => exact ⟨.passThrough, rfl, rfl, rfl⟩
  | suppress => exact ⟨.erase, rfl, rfl, rfl⟩

theorem openCodeBlock_of_ignoring (ignoring : state.scan.ignoring) (fence : OpenFence) :
    openCodeBlock options state line fence = (state, .noMatch) := by
  simp only [openCodeBlock, ignoring, ↓reduceIte]

theorem openCodeBlock_of_error {fence : OpenFence} {cause : PropertyError}
    (parsed : Property.parse fence.properties = .error cause) :
    openCodeBlock options state line fence = (state, .noMatch) := by
  simp only [openCodeBlock, parsed, ite_self]

theorem openCodeBlock_of_titled {fence : OpenFence} {properties : List Property}
    (notIgnoring : state.scan.ignoring = false)
    (parsed : Property.parse fence.properties = .ok properties)
    (notBuild : (options.buildArtifacts &&
      Property.hasClass properties Fence.buildArtifactClass) = false) :
    openCodeBlock options state line fence =
      (state, .replace [Fence.titledLine fence properties]) := by
  rw [openCodeBlock, if_neg (Bool.eq_false_iff.mp notIgnoring)]
  simp only [parsed, Fence.hasClass_withTitle, notBuild, Bool.false_eq_true, ↓reduceIte]
  rfl

theorem openCodeBlock_of_begun {fence : OpenFence} {properties : List Property}
    (notIgnoring : state.scan.ignoring = false)
    (parsed : Property.parse fence.properties = .ok properties)
    (isBuild : (options.buildArtifacts &&
      Property.hasClass properties Fence.buildArtifactClass) = true) :
    ∃ verdict, openCodeBlock options state line fence =
        ({ state with scan := state.scan.after line (.begun fence properties) }, verdict) ∧
      verdict.isMatch ∧ verdict.lines line =
        fenceLines options.closingFence (Fence.titledLine fence properties) := by
  rw [openCodeBlock, if_neg (Bool.eq_false_iff.mp notIgnoring)]
  simp only [parsed, Fence.hasClass_withTitle, isBuild, ↓reduceIte]
  cases options.closingFence with
  | verbatim => exact ⟨.replace [Fence.titledLine fence properties], rfl, rfl, rfl⟩
  | suppress => exact ⟨.erase, rfl, rfl, rfl⟩

theorem applyFirst_rules_of_verbatimStart (kind : LineKind.ofLine line = .verbatimStart) :
    Rule.applyFirst (rules options runner) state line =
      (step options state.scan line).run runner state.world := by
  have starts := LineKind.ofLine_eq_verbatimStart_iff.mp kind
  have decides : (Rule.onLines "start_ignore".toList Fence.startsVerbatim startIgnore).apply
      state line = ({ state with scan.ignoring := true }, .passThrough) := by
    simp only [Rule.onLines, starts, ↓reduceIte, startIgnore]
  rw [step_of_startsVerbatim options state.scan starts, rules,
    Rule.applyFirst_of_match decides rfl]
  rfl

theorem applyFirst_rules_of_verbatimEnd (kind : LineKind.ofLine line = .verbatimEnd) :
    Rule.applyFirst (rules options runner) state line =
      (step options state.scan line).run runner state.world := by
  have ends := LineKind.ofLine_eq_verbatimEnd_iff.mp kind
  have notStart : Fence.startsVerbatim line = false :=
    LineKind.startsVerbatim_eq_false (by simp [kind])
  have decides : (Rule.onLines "stop_ignore".toList Fence.endsVerbatim stopIgnore).apply
      state line = ({ state with scan.ignoring := false }, .passThrough) := by
    simp only [Rule.onLines, ends, ↓reduceIte, stopIgnore]
  rw [step_of_endsVerbatim options state.scan ends, rules,
    Rule.applyFirst_of_noMatch (Rule.onLines_of_rejects notStart),
    Rule.applyFirst_of_match decides rfl]
  rfl

theorem applyFirst_rules_of_closing (kind : LineKind.ofLine line = .closing) :
    Rule.applyFirst (rules options runner) state line =
      (step options state.scan line).run runner state.world := by
  have closes := LineKind.ofLine_eq_closing_iff.mp kind
  have notStart : Fence.startsVerbatim line = false :=
    LineKind.startsVerbatim_eq_false (by simp [kind])
  have notEnd : Fence.endsVerbatim line = false :=
    LineKind.endsVerbatim_eq_false (by simp [kind])
  have notOpening := OpenFence.ofLine?_of_isClosing closes
  have closeRule : (Rule.onLines "close_code_block".toList Fence.isClosing
      (closeCodeBlock options runner)).apply state line =
        closeCodeBlock options runner state line := by
    simp only [Rule.onLines, closes, ↓reduceIte]
  rw [rules, Rule.applyFirst_of_noMatch (Rule.onLines_of_rejects notStart),
    Rule.applyFirst_of_noMatch (Rule.onLines_of_rejects notEnd),
    Rule.applyFirst_of_noMatch (Rule.onLine_of_rejects notOpening)]
  cases taking : state.scan.isTaking with
  | false =>
    have isEvent : state.scan.event options.buildArtifacts line = .kept := by
      simp [Scan.event, kind, taking]
    rw [closeCodeBlock_of_not_isTaking options runner state taking] at closeRule
    rw [step_of_event isEvent, Rule.applyFirst_of_noMatch closeRule,
      Rule.applyFirst_of_noMatch (addLineToScript_of_not_isTaking state taking)]
    rfl
  | true =>
    have isEvent : state.scan.event options.buildArtifacts line = .closed := by
      simp [Scan.event, kind, taking]
    rcases closeCodeBlock_of_isTaking options runner state taking with
      ⟨verdict, closed, isMatch, lines⟩
    rw [closed] at closeRule
    rw [step_of_event isEvent, Rule.applyFirst_of_match closeRule isMatch, lines]
    rfl

theorem applyFirst_rules_of_ordinary (kind : LineKind.ofLine line = .ordinary) :
    Rule.applyFirst (rules options runner) state line =
      (step options state.scan line).run runner state.world := by
  have notStart : Fence.startsVerbatim line = false :=
    LineKind.startsVerbatim_eq_false (by simp [kind])
  have notEnd : Fence.endsVerbatim line = false :=
    LineKind.endsVerbatim_eq_false (by simp [kind])
  have notClosing : Fence.isClosing line = false :=
    LineKind.isClosing_eq_false (by simp [kind])
  have openRule : (Rule.onLine "open_code_block".toList OpenFence.ofLine?
      (openCodeBlock options)).apply state line = (state, .noMatch) := by
    cases found : OpenFence.ofLine? line with
    | none => exact Rule.onLine_of_rejects found
    | some fence =>
      cases parsed : Property.parse fence.properties with
      | ok properties =>
        rw [LineKind.ofLine_eq_opening_iff.mpr ⟨found, parsed⟩] at kind
        contradiction
      | error cause =>
        simp only [Rule.onLine, found]
        exact openCodeBlock_of_error options state parsed
  rw [rules, Rule.applyFirst_of_noMatch (Rule.onLines_of_rejects notStart),
    Rule.applyFirst_of_noMatch (Rule.onLines_of_rejects notEnd),
    Rule.applyFirst_of_noMatch openRule,
    Rule.applyFirst_of_noMatch (Rule.onLines_of_rejects notClosing)]
  cases taking : state.scan.isTaking with
  | false =>
    have isEvent : state.scan.event options.buildArtifacts line = .kept := by
      simp [Scan.event, kind, taking]
    rw [step_of_event isEvent,
      Rule.applyFirst_of_noMatch (addLineToScript_of_not_isTaking state taking)]
    rfl
  | true =>
    have isEvent : state.scan.event options.buildArtifacts line = .taken := by
      simp [Scan.event, kind, taking]
    have takes : addLineToScript state line =
        ({ state with scan := state.scan.after line .taken }, .erase) := by
      simp only [addLineToScript, Scan.not_isTaking_eq, taking, Bool.not_true, Bool.false_eq_true,
        ↓reduceIte]
      rfl
    rw [step_of_event isEvent, Rule.applyFirst_of_match takes rfl]
    rfl

theorem applyFirst_rules_of_opening {fence : OpenFence} {properties : List Property}
    (kind : LineKind.ofLine line = .opening fence properties) :
    Rule.applyFirst (rules options runner) state line =
      (step options state.scan line).run runner state.world := by
  rcases LineKind.ofLine_eq_opening_iff.mp kind with ⟨found, parsed⟩
  have notStart : Fence.startsVerbatim line = false :=
    LineKind.startsVerbatim_eq_false (by simp [kind])
  have notEnd : Fence.endsVerbatim line = false :=
    LineKind.endsVerbatim_eq_false (by simp [kind])
  have openRule : (Rule.onLine "open_code_block".toList OpenFence.ofLine?
      (openCodeBlock options)).apply state line = openCodeBlock options state line fence := by
    simp only [Rule.onLine, found]
  rw [rules, Rule.applyFirst_of_noMatch (Rule.onLines_of_rejects notStart),
    Rule.applyFirst_of_noMatch (Rule.onLines_of_rejects notEnd)]
  cases ignoring : state.scan.ignoring with
  | true =>
    have notTaking : state.scan.isTaking = false := by simp [Scan.isTaking, ignoring]
    have notClosing := Fence.not_isClosing_of_ofLine? found
    have isEvent : state.scan.event options.buildArtifacts line = .kept := by
      simp [Scan.event, kind, ignoring]
    rw [openCodeBlock_of_ignoring options state ignoring] at openRule
    rw [step_of_event isEvent, Rule.applyFirst_of_noMatch openRule,
      Rule.applyFirst_of_noMatch (Rule.onLines_of_rejects notClosing),
      Rule.applyFirst_of_noMatch (addLineToScript_of_not_isTaking state notTaking)]
    rfl
  | false =>
    cases isBuild : options.buildArtifacts &&
      Property.hasClass properties Fence.buildArtifactClass with
    | false =>
      have isEvent : state.scan.event options.buildArtifacts line = .titled fence properties := by
        simp [Scan.event, kind, ignoring, isBuild]
      rw [openCodeBlock_of_titled options state ignoring parsed isBuild] at openRule
      rw [step_of_event isEvent, Rule.applyFirst_of_match openRule rfl]
      rfl
    | true =>
      have isEvent : state.scan.event options.buildArtifacts line = .begun fence properties := by
        simp only [Scan.event, kind, ignoring, isBuild, Bool.false_eq_true, ↓reduceIte]
      rcases openCodeBlock_of_begun options state ignoring parsed isBuild with
        ⟨verdict, begun, isMatch, lines⟩
      rw [begun] at openRule
      rw [step_of_event isEvent, Rule.applyFirst_of_match openRule isMatch, lines]
      rfl

end

/-- The rules make one step of a line. -/
theorem applyFirst_rules (options : FilterOptions) (runner : BuildRunner World)
    (state : State World) (line : Text) :
    Rule.applyFirst (rules options runner) state line =
      (step options state.scan line).run runner state.world := by
  cases kind : LineKind.ofLine line with
  | verbatimStart => exact applyFirst_rules_of_verbatimStart options runner state kind
  | verbatimEnd => exact applyFirst_rules_of_verbatimEnd options runner state kind
  | opening fence properties => exact applyFirst_rules_of_opening options runner state kind
  | closing => exact applyFirst_rules_of_closing options runner state kind
  | ordinary => exact applyFirst_rules_of_ordinary options runner state kind

theorem applyLines_rules (options : FilterOptions) (runner : BuildRunner World)
    (state : State World) (lines : List Text) :
    Rule.applyLines (rules options runner) .exclusive state lines =
      (advance options state.scan lines).run runner state.world := by
  induction lines generalizing state with
  | nil => rfl
  | cons line rest ih =>
    simp only [Rule.applyLines, Rule.applyLine, applyFirst_rules, ih, advance, Progress.run,
      runScripts_append]

/-- A run of the filter makes the steps of the page's lines. -/
theorem run_eq (options : FilterOptions) (runner : BuildRunner World) (state : State World)
    (page : Text) :
    run options runner state page =
      (⟨(advance options state.scan (Lines.ofText page).items).scan,
          runScripts runner state.world
            (advance options state.scan (Lines.ofText page).items).scripts⟩,
        Lines.toText ⟨(advance options state.scan (Lines.ofText page).items).emitted,
          (Lines.ofText page).endsWithNewline⟩) := by
  simp only [run, Rule.run, applyLines_rules, Progress.run]

theorem advance_append (options : FilterOptions) (scan : Scan) (earlier later : List Text) :
    advance options scan (earlier ++ later) =
      ⟨(advance options (advance options scan earlier).scan later).scan,
        (advance options scan earlier).emitted ++
          (advance options (advance options scan earlier).scan later).emitted,
        (advance options scan earlier).scripts ++
          (advance options (advance options scan earlier).scan later).scripts⟩ := by
  induction earlier generalizing scan with
  | nil => rfl
  | cons line rest ih => simp only [List.cons_append, advance, ih, List.append_assoc]

end LineFilter

end LiterateMarkdown
