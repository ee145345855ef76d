import LiterateMarkdown.Proofs.LineFilter.Scan

/-!
# Verbatim regions

Whether a scan is inside of a verbatim region can be told from the lines alone: the last tilde fence
among them began a region or ended one (`ignoring_advance`). No other line has a say in it, be it a
fence of backticks or the line of a script.

Inside of a region every rule of the backtick fences declines. So a region goes through as it is
from wherever it begins, and the scan goes on after it from where it stood before, in the middle of
a script too (`applyLines_verbatimRegion`).
-/

namespace LiterateMarkdown

namespace Fence

/-- A line that begins or ends a verbatim region. -/
def isTilde (line : Text) : Bool :=
  startsVerbatim line || endsVerbatim line

theorem isTilde_of_startsVerbatim {line : Text} (starts : startsVerbatim line) : isTilde line := by
  simp [isTilde, starts]

theorem isTilde_of_endsVerbatim {line : Text} (ends : endsVerbatim line) : isTilde line := by
  simp [isTilde, ends]

theorem isTilde_eq_false {line : Text} (notStart : LineKind.ofLine line ≠ .verbatimStart)
    (notEnd : LineKind.ofLine line ≠ .verbatimEnd) : isTilde line = false := by
  simp [isTilde, LineKind.startsVerbatim_eq_false notStart, LineKind.endsVerbatim_eq_false notEnd]

/-- The last one of the tilde fences among lines. -/
def lastTilde? (lines : List Text) : Option Text :=
  lines.reverse.find? isTilde

theorem lastTilde?_cons (line : Text) (rest : List Text) :
    lastTilde? (line :: rest) =
      (lastTilde? rest).or (if isTilde line then some line else none) := by
  rw [lastTilde?, List.reverse_cons, List.find?_append]
  cases tilde : isTilde line with
  | true | false => simp [lastTilde?, tilde]

/-- Whether the lines of a page end inside of a verbatim region. -/
def leavesVerbatim (lines : List Text) : Bool :=
  (lastTilde? lines).any startsVerbatim

end Fence

namespace LineFilter

theorem ignoring_step (options : FilterOptions) (scan : Scan) (line : Text) :
    (step options scan line).scan.ignoring =
      if Fence.isTilde line then Fence.startsVerbatim line else scan.ignoring := by
  have fits := scan.fits_event options.buildArtifacts line
  have unchanged : LineKind.ofLine line ≠ .verbatimStart → LineKind.ofLine line ≠ .verbatimEnd →
      scan.ignoring = if Fence.isTilde line then Fence.startsVerbatim line else scan.ignoring := by
    intro notStart notEnd
    simp [Fence.isTilde_eq_false notStart notEnd]
  cases isEvent : scan.event options.buildArtifacts line with
  | verbatim begins =>
    rw [isEvent] at fits
    rw [step_of_event isEvent]
    cases begins with
    | true =>
      have starts := LineKind.ofLine_eq_verbatimStart_iff.mp fits
      simp [Scan.after, starts, Fence.isTilde_of_startsVerbatim starts]
    | false =>
      have ends := LineKind.ofLine_eq_verbatimEnd_iff.mp fits
      have notStart : Fence.startsVerbatim line = false := by
        apply LineKind.startsVerbatim_eq_false
        simp only [Event.Fits] at fits
        simp [fits]
      simp [Scan.after, notStart, Fence.isTilde_of_endsVerbatim ends]
  | kept =>
    rw [isEvent] at fits
    rw [step_of_event isEvent]
    exact unchanged fits.1 fits.2.1
  | titled fence properties | begun fence properties | closed | taken =>
    rw [isEvent] at fits
    rw [step_of_event isEvent]
    apply unchanged
    · simp [fits.1]
    · simp [fits.1]

/-- The last tilde fence among the lines says whether the scan after them is inside of a region. -/
theorem ignoring_advance (options : FilterOptions) (scan : Scan) (lines : List Text) :
    (advance options scan lines).scan.ignoring =
      ((Fence.lastTilde? lines).map Fence.startsVerbatim).getD scan.ignoring := by
  induction lines generalizing scan with
  | nil => rfl
  | cons line rest ih =>
    simp only [advance, ih, ignoring_step, Fence.lastTilde?_cons]
    cases Fence.lastTilde? rest with
    | some last => rfl
    | none =>
      cases Fence.isTilde line with
      | true => rfl
      | false => rfl

theorem ignoring_advance_initial (options : FilterOptions) (lines : List Text) :
    (advance options {} lines).scan.ignoring = Fence.leavesVerbatim lines := by
  rw [ignoring_advance, Fence.leavesVerbatim]
  cases Fence.lastTilde? lines with
  | some last => rfl
  | none => rfl

/-- Inside of a region lines stay as they are, and the scan where it stands. -/
theorem advance_of_ignoring (options : FilterOptions) {scan : Scan} (ignoring : scan.ignoring)
    {lines : List Text} (noEnd : ∀ line ∈ lines, Fence.endsVerbatim line = false) :
    advance options scan lines = ⟨scan, lines, []⟩ := by
  induction lines with
  | nil => rfl
  | cons line rest ih =>
    have stays := step_of_ignoring options ignoring (noEnd line List.mem_cons_self)
    have restStays := ih fun other isRest => noEnd other (List.mem_cons_of_mem line isRest)
    simp only [advance, stays, restStays, List.singleton_append, List.nil_append]

theorem advance_verbatimRegion (options : FilterOptions) (scan : Scan) {first last : Text}
    {body : List Text} (starts : Fence.startsVerbatim first)
    (noEnd : ∀ line ∈ body, Fence.endsVerbatim line = false) (ends : Fence.endsVerbatim last) :
    advance options scan (first :: body ++ [last]) =
      ⟨{ scan with ignoring := false }, first :: body ++ [last], []⟩ := by
  let inside : Scan := { scan with ignoring := true }
  have isStart : step options scan first = ⟨inside, [first], []⟩ :=
    step_of_startsVerbatim options scan starts
  have isBody : advance options inside body = ⟨inside, body, []⟩ :=
    advance_of_ignoring options rfl noEnd
  have isEnd : step options inside last = ⟨{ scan with ignoring := false }, [last], []⟩ :=
    step_of_endsVerbatim options inside ends
  simp only [List.cons_append, advance, isStart, advance_append, isBody, isEnd, List.append_nil,
    List.nil_append]

variable {World : Type}

/--
From every state, a verbatim region is emitted as it is. The scan leaves it outside of a region and
with its script as before. The world is the same whatever the runner does to it, be it no more than
to note each call, so no script was run.
-/
theorem applyLines_verbatimRegion (options : FilterOptions) (runner : BuildRunner World)
    (state : State World) {first last : Text} {body : List Text}
    (starts : Fence.startsVerbatim first)
    (noEnd : ∀ line ∈ body, Fence.endsVerbatim line = false) (ends : Fence.endsVerbatim last) :
    Rule.applyLines (rules options runner) .exclusive state (first :: body ++ [last]) =
      (⟨{ state.scan with ignoring := false }, state.world⟩, first :: body ++ [last]) := by
  rw [applyLines_rules, advance_verbatimRegion options state.scan starts noEnd ends]
  rfl

/-- A region in the middle of a script, with fences, an artifact and another beginning in it. -/
theorem applyLines_verbatimRegion_inScript :
    ∃ first body last state,
      first = "~~~markdown\r".toList ∧ last = "~~~\t".toList ∧
      body = ["  ``` \x7b.make .build-artifact\x7d".toList, "all:".toList, "```".toList,
        "~~~markdown".toList, "~~~sh".toList, " ~~~".toList] ∧
      state = (⟨⟨false, true, ["first:".toList], ['\t'], [.className "build-artifact".toList]⟩,
        ([], ())⟩ : State (List Text × Unit)) ∧
      Fence.startsVerbatim first ∧ (∀ line ∈ body, Fence.endsVerbatim line = false) ∧
      Fence.endsVerbatim last ∧
      Rule.applyLines (rules ⟨true, .suppress⟩ BuildRunner.idle.noting) .exclusive state
          (first :: body ++ [last]) =
        (⟨{ state.scan with ignoring := false }, state.world⟩, first :: body ++ [last]) := by
  refine ⟨_, _, _, _, rfl, rfl, rfl, rfl, by decide, by decide, by decide, ?_⟩
  exact applyLines_verbatimRegion ⟨true, .suppress⟩ BuildRunner.idle.noting _ (by decide)
    (by decide) (by decide)

end LineFilter

end LiterateMarkdown
