import LiterateMarkdown.Proofs.LineFilter.Scan

/-!
# Filtering a filtered page

A page that the line filter has written passes through a fresh filter as it is, and no script is
handed over on the way (`run_run`).

The second scan is never in a build artifact, and it is in a verbatim region exactly when the first
one was: the lines that begin and end verbatim regions are never taken from the page. So each line
that the first scan emitted is met by the second one in a state in which it stays.
-/

namespace LiterateMarkdown

namespace LineFilter

/-- Whether a scan leaves all of the lines as they are and hands over no script. -/
def Passes (options : FilterOptions) : Scan → List Text → Prop
  | _, [] => True
  | scan, line :: rest =>
    (step options scan line).emitted = [line] ∧ (step options scan line).scripts = [] ∧
      Passes options (step options scan line).scan rest

theorem advance_of_passes {options : FilterOptions} {scan : Scan} {lines : List Text}
    (passes : Passes options scan lines) :
    (advance options scan lines).emitted = lines ∧ (advance options scan lines).scripts = [] := by
  induction lines generalizing scan with
  | nil => exact ⟨rfl, rfl⟩
  | cons line rest ih =>
    rcases passes with ⟨emitted, scripts, later⟩
    simp only [advance, emitted, scripts, ih later, List.singleton_append, List.nil_append,
      and_self]

theorem passes_append {options : FilterOptions} {scan : Scan} {earlier later : List Text} :
    Passes options scan (earlier ++ later) ↔
      Passes options scan earlier ∧ Passes options (advance options scan earlier).scan later := by
  induction earlier generalizing scan with
  | nil => simp [Passes, advance]
  | cons line rest ih => simp only [List.cons_append, Passes, ih, advance, and_assoc]

theorem passes_of_prefix {options : FilterOptions} {scan : Scan} {earlier lines : List Text}
    (begins : earlier <+: lines) (passes : Passes options scan lines) :
    Passes options scan earlier := by
  rcases begins with ⟨later, rfl⟩
  exact (passes_append.mp passes).1

/-- How a scan of emitted lines stands beside the scan that emitted them. -/
structure Follows (again scan : Scan) : Prop where
  sameIgnoring : again.ignoring = scan.ignoring
  notCollecting : again.collecting = false

/-- Outside of verbatim regions a rendered fence stays as it is. -/
theorem step_titledLine (options : FilterOptions) {again : Scan} {line : Text} {fence : OpenFence}
    {properties : List Property} (kind : LineKind.ofLine line = .opening fence properties)
    (attentive : again.ignoring = false) (notCollecting : again.collecting = false) :
    step options again (Fence.titledLine fence properties) =
      ⟨again, [Fence.titledLine fence properties], []⟩ := by
  rcases LineKind.ofLine_eq_opening_iff.mp kind with ⟨found, read⟩
  have notTaking := Scan.isTaking_of_not_collecting notCollecting
  rcases LineKind.ofLine_titledLine found read with
    ordinary | closing | ⟨shownFence, shown, opening, sameLine, classless⟩
  · apply step_of_kept
    simp [Scan.event, ordinary, notTaking]
  · apply step_of_kept
    simp [Scan.event, closing, notTaking]
  · have noBuild : Property.hasClass shown Fence.buildArtifactClass = false := by
      rw [Bool.eq_false_iff, ne_eq, Property.hasClass_iff, classless]
      exact List.not_mem_nil
    have titled : again.event options.buildArtifacts (Fence.titledLine fence properties) =
        .titled shownFence shown := by
      simp [Scan.event, opening, attentive, noBuild]
    rw [step_of_event titled, Event.emitted, sameLine]
    rfl

theorem passes_of_stays {options : FilterOptions} {again next after : Scan} {line : Text}
    (stays : step options again line = ⟨next, [line], []⟩) (follows : Follows next after) :
    Passes options again [line] ∧ Follows (advance options again [line]).scan after := by
  simp only [Passes, advance, stays, and_true, true_and]
  exact follows

theorem passes_fenceLines {options : FilterOptions} {again after : Scan} {line : Text}
    (closingFence : ClosingFence) (stays : step options again line = ⟨again, [line], []⟩)
    (follows : Follows again after) :
    Passes options again (fenceLines closingFence line) ∧
      Follows (advance options again (fenceLines closingFence line)).scan after := by
  cases closingFence with
  | verbatim => exact passes_of_stays stays follows
  | suppress => exact ⟨trivial, follows⟩

/-- What one step emits passes, and the two scans stand beside each other after it. -/
theorem passes_step (options : FilterOptions) {again scan : Scan} (line : Text)
    (follows : Follows again scan) :
    Passes options again (step options scan line).emitted ∧
      Follows (advance options again (step options scan line).emitted).scan
        (step options scan line).scan := by
  rcases follows with ⟨sameIgnoring, notCollecting⟩
  have notTaking := Scan.isTaking_of_not_collecting notCollecting
  have fits := scan.fits_event options.buildArtifacts line
  cases isEvent : scan.event options.buildArtifacts line with
  | verbatim begins =>
    rw [isEvent] at fits
    have sameEvent : again.event options.buildArtifacts line = .verbatim begins := by
      cases begins <;> simp_all [Event.Fits, Scan.event]
    have stays : step options again line = ⟨{ again with ignoring := begins }, [line], []⟩ :=
      step_of_event sameEvent
    rw [step_of_event isEvent]
    exact passes_of_stays stays ⟨rfl, notCollecting⟩
  | kept =>
    rw [isEvent] at fits
    have sameEvent : again.event options.buildArtifacts line = .kept := by
      rcases fits with ⟨notStart, notEnd, _, ignoring | closing | ordinary⟩
      · cases kind : LineKind.ofLine line <;> simp_all [Scan.event]
      · simp [Scan.event, closing, notTaking]
      · simp [Scan.event, ordinary, notTaking]
    rw [step_of_event isEvent]
    exact passes_of_stays (step_of_kept sameEvent) ⟨sameIgnoring, notCollecting⟩
  | titled fence properties =>
    rw [isEvent] at fits
    rcases fits with ⟨kind, attentive, _⟩
    have stays := step_titledLine options kind (sameIgnoring.trans attentive) notCollecting
    rw [step_of_event isEvent]
    exact passes_of_stays stays ⟨sameIgnoring, notCollecting⟩
  | begun fence properties =>
    rw [isEvent] at fits
    rcases fits with ⟨kind, attentive, _⟩
    have stays := step_titledLine options kind (sameIgnoring.trans attentive) notCollecting
    rw [step_of_event isEvent]
    exact passes_fenceLines options.closingFence stays ⟨sameIgnoring, notCollecting⟩
  | closed =>
    rw [isEvent] at fits
    have sameEvent : again.event options.buildArtifacts line = .kept := by
      simp [Scan.event, fits.1, notTaking]
    rw [step_of_event isEvent]
    exact passes_fenceLines options.closingFence (step_of_kept sameEvent)
      ⟨sameIgnoring, notCollecting⟩
  | taken =>
    rw [step_of_event isEvent]
    exact ⟨trivial, sameIgnoring, notCollecting⟩

/-- What a scan emits passes through a scan that stands beside it. -/
theorem passes_emitted (options : FilterOptions) {again scan : Scan} (lines : List Text)
    (follows : Follows again scan) :
    Passes options again (advance options scan lines).emitted := by
  induction lines generalizing again scan with
  | nil => trivial
  | cons line rest ih =>
    rcases passes_step options line follows with ⟨passes, later⟩
    exact passes_append.mpr ⟨passes, ih later⟩

theorem newline_not_mem_of_mem_fenceLines {closingFence : ClosingFence} {line : Text}
    (oneLine : '\n' ∉ line) : ∀ emitted ∈ fenceLines closingFence line, '\n' ∉ emitted := by
  cases closingFence <;> simp [fenceLines, oneLine]

theorem newline_not_mem_of_mem_step {options : FilterOptions} {scan : Scan} {line : Text}
    (oneLine : '\n' ∉ line) :
    ∀ emitted ∈ (step options scan line).emitted, '\n' ∉ emitted := by
  have fits := scan.fits_event options.buildArtifacts line
  simp only [step]
  cases isEvent : scan.event options.buildArtifacts line with
  | verbatim begins | kept => simpa [Event.emitted] using oneLine
  | titled fence properties =>
    rw [isEvent] at fits
    rcases LineKind.ofLine_eq_opening_iff.mp fits.1 with ⟨found, read⟩
    simpa [Event.emitted] using Fence.newline_not_mem_titledLine found read
  | begun fence properties =>
    rw [isEvent] at fits
    rcases LineKind.ofLine_eq_opening_iff.mp fits.1 with ⟨found, read⟩
    exact newline_not_mem_of_mem_fenceLines (Fence.newline_not_mem_titledLine found read)
  | closed => exact newline_not_mem_of_mem_fenceLines oneLine
  | taken => simp [Event.emitted]

theorem newline_not_mem_of_mem_emitted {options : FilterOptions} {scan : Scan} {lines : List Text}
    (oneLine : ∀ line ∈ lines, '\n' ∉ line) :
    ∀ line ∈ (advance options scan lines).emitted, '\n' ∉ line := by
  induction lines generalizing scan with
  | nil => simp [advance]
  | cons line rest ih =>
    rw [List.forall_mem_cons] at oneLine
    intro emitted present
    rcases List.mem_append.mp present with first | later
    · exact newline_not_mem_of_mem_step oneLine.1 emitted first
    · exact ih oneLine.2 emitted later

/-- The lines of a filtered page pass through a fresh scan. -/
theorem passes_items_of_run (options : FilterOptions) (page : Text) :
    Passes options {} (Lines.ofText (Lines.toText
      ⟨(advance options {} (Lines.ofText page).items).emitted,
        (Lines.ofText page).endsWithNewline⟩)).items := by
  have passes : Passes options {} (advance options {} (Lines.ofText page).items).emitted :=
    passes_emitted options (Lines.ofText page).items ⟨rfl, rfl⟩
  have oneLine : ∀ line ∈ (advance options {} (Lines.ofText page).items).emitted, '\n' ∉ line :=
    newline_not_mem_of_mem_emitted fun line present =>
      Lines.newline_not_mem_of_mem_split present
  rcases Lines.items_ofText_toText ⟨_, (Lines.ofText page).endsWithNewline⟩ oneLine with
    blank | begins
  · rw [blank]
    exact ⟨rfl, rfl, trivial⟩
  · exact passes_of_prefix begins passes

/--
Filtering a page a second time changes nothing, and the runner of the second time is handed no
script.
-/
theorem run_run {World Other : Type} (options : FilterOptions) (runner : BuildRunner World)
    (world : World) (again : BuildRunner Other) (other : Other) (page : Text) :
    (run options again.noting (.initial ([], other))
        (run options runner (.initial world) page).2).2 =
        (run options runner (.initial world) page).2 ∧
      (run options again.noting (.initial ([], other))
        (run options runner (.initial world) page).2).1.world = ([], other) := by
  rcases advance_of_passes (passes_items_of_run options page) with ⟨emitted, scripts⟩
  rw [run_eq options runner]
  simp only [State.initial]
  rw [run_eq options again.noting]
  simp only [emitted, scripts]
  exact ⟨Lines.toText_ofText _, by simp [runScripts]⟩

end LineFilter

end LiterateMarkdown
