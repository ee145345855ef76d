import LiterateMarkdown.Proofs.LineEnding.Fence
import LiterateMarkdown.Proofs.LineFilter.Scan

/-!
# The line filter on lines that end in carriage returns

A carriage return at the end of a line changes neither where the scan goes nor what is handed over:
the indentation that scripts are dedented by holds none, and the one at the end of a script's line
is dropped. What stands in place of the line ends in it.
-/

namespace LiterateMarkdown

namespace LineFilter

/-- What happens to a line that ends in a carriage return. -/
def Event.withReturn : Event → Event
  | titled fence properties => titled fence.withReturn properties
  | begun fence properties => begun fence.withReturn properties
  | event => event

/-- The progress on lines that end in carriage returns. -/
def Progress.toCrlf (progress : Progress) : Progress :=
  { progress with emitted := progress.emitted.map Text.crlfLine }

theorem Scan.event_append_return (buildArtifacts : Bool) (scan : Scan) {line : Text}
    (noReturn : '\r' ∉ line) :
    scan.event buildArtifacts (line ++ ['\r']) = (scan.event buildArtifacts line).withReturn := by
  simp only [event, LineKind.ofLine_append_return noReturn]
  cases LineKind.ofLine line with
  | verbatimStart | verbatimEnd => rfl
  | opening fence properties =>
    simp only [LineKind.withReturn]
    split
    · rfl
    split
    · rfl
    · rfl
  | closing | ordinary =>
    simp only [LineKind.withReturn]
    split
    · rfl
    · rfl

theorem Scan.after_append_return {scan : Scan} {line : Text} (noReturn : '\r' ∉ line)
    (noIndent : '\r' ∉ scan.scriptIndent) (event : Event) :
    scan.after (line ++ ['\r']) event.withReturn = scan.after line event := by
  cases event with
  | taken =>
    have sameLine : scan.takenLine (line ++ ['\r']) = scan.takenLine line :=
      Text.dropCarriageReturn_dedent_append noIndent noReturn
    simp only [after, Event.withReturn, sameLine]
  | verbatim | kept | titled | begun | closed => rfl

theorem Event.emitted_withReturn {buildArtifacts : Bool} {scan : Scan} {line : Text} {event : Event}
    (unbroken : line.Unbroken) (fits : event.Fits buildArtifacts scan line)
    (closingFence : ClosingFence) :
    event.withReturn.emitted closingFence (line ++ ['\r']) =
      (event.emitted closingFence line).map Text.crlfLine := by
  have isLine := Text.crlfLine_of_newline_not_mem unbroken.1
  cases event with
  | verbatim | kept | taken => simp [withReturn, emitted, isLine]
  | closed => cases closingFence <;> simp [withReturn, emitted, fenceLines, isLine]
  | titled fence properties =>
    rcases LineKind.ofLine_eq_opening_iff.mp fits.1 with ⟨found, parsed⟩
    simp [withReturn, emitted, Fence.titledLine_withReturn unbroken.2 found parsed]
  | begun fence properties =>
    rcases LineKind.ofLine_eq_opening_iff.mp fits.1 with ⟨found, parsed⟩
    cases closingFence <;>
      simp [withReturn, emitted, fenceLines, Fence.titledLine_withReturn unbroken.2 found parsed]

/-- A step of a line that ends in a carriage return. -/
theorem step_append_return (options : FilterOptions) {scan : Scan} {line : Text}
    (unbroken : line.Unbroken) (noIndent : '\r' ∉ scan.scriptIndent) :
    step options scan (line ++ ['\r']) = (step options scan line).toCrlf := by
  have fits := scan.fits_event options.buildArtifacts line
  have sameScripts : ∀ event : Event, scan.handedAt event.withReturn = scan.handedAt event := by
    intro event
    cases event <;> rfl
  simp only [step, Progress.toCrlf, Scan.event_append_return _ scan unbroken.2,
    Scan.after_append_return unbroken.2 noIndent, Event.emitted_withReturn unbroken fits,
    sameScripts]

/-- The indentation that scripts are dedented by holds spaces and tabs only. -/
theorem return_not_mem_scriptIndent_step (options : FilterOptions) {scan : Scan} (line : Text)
    (noIndent : '\r' ∉ scan.scriptIndent) :
    '\r' ∉ (step options scan line).scan.scriptIndent := by
  have fits := scan.fits_event options.buildArtifacts line
  rw [step]
  cases isEvent : scan.event options.buildArtifacts line with
  | begun fence properties =>
    rw [isEvent] at fits
    exact OpenFence.return_not_mem_indent (LineKind.ofLine_eq_opening_iff.mp fits.1).1
  | verbatim | kept | titled | closed | taken => exact noIndent

/-- The progress on the lines of a page with CRLF line endings. -/
theorem advance_map_crlfLine (options : FilterOptions) {scan : Scan} {lines : List Text}
    (unbroken : ∀ line ∈ lines, line.Unbroken) (noIndent : '\r' ∉ scan.scriptIndent) :
    advance options scan (lines.map Text.crlfLine) = (advance options scan lines).toCrlf := by
  induction lines generalizing scan with
  | nil => rfl
  | cons line rest ih =>
    rw [List.forall_mem_cons] at unbroken
    have isStep := step_append_return options unbroken.1 noIndent
    have isRest := ih unbroken.2 (return_not_mem_scriptIndent_step options line noIndent)
    rw [← Text.crlfLine_of_newline_not_mem unbroken.1.1] at isStep
    simp only [List.map_cons, advance, isStep, Progress.toCrlf, isRest, List.map_append]

end LineFilter

end LiterateMarkdown
