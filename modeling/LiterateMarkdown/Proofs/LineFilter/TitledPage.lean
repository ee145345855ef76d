import LiterateMarkdown.Proofs.LineFilter.Idempotence
import LiterateMarkdown.Proofs.LineFilter.Invariant
import LiterateMarkdown.Proofs.LineFilter.VerbatimRegion

/-!
# Pages that run no scripts

Without scripts to run, a filter puts one line in place of each line of a page. What that line is
depends on the line itself and on the last tilde fence before it: it is the rendered fence where the
line is a fence with properties outside of a verbatim region, and else the line as it was. The text
that is written has these lines and no others (`showsLines_run`).

That last step needs more than the lines. A blank line at the end of a text can be lost, or made out
of nothing, but a rendered fence is never blank.
-/

namespace LiterateMarkdown

theorem Fence.titledLine_ne_nil {line : Text} {fence : OpenFence}
    (found : OpenFence.ofLine? line = some fence) (properties : List Property) :
    titledLine fence properties ≠ [] := by
  intro blank
  have isFence := isFence_titledLine found properties
  rw [blank] at isFence
  contradiction

namespace LineFilter

/-- What a line is shown as after other lines of its page, when no scripts are run. -/
inductive ShownAs (earlier : List Text) (line : Text) : Text → Prop where
  /-- A fence whose properties can be read, outside of verbatim regions. -/
  | titled {fence : OpenFence} {properties : List Property}
      (found : OpenFence.ofLine? line = some fence)
      (parsed : Property.parse fence.properties = .ok properties)
      (outside : Fence.leavesVerbatim earlier = false) :
      ShownAs earlier line (Fence.titledLine fence properties)
  | unchanged
      (other : ∀ fence properties, OpenFence.ofLine? line = some fence →
        Property.parse fence.properties = .ok properties → Fence.leavesVerbatim earlier) :
      ShownAs earlier line line

theorem ShownAs.ne_nil {earlier : List Text} {line text : Text} (shown : ShownAs earlier line text)
    (nonempty : line ≠ []) : text ≠ [] := by
  cases shown with
  | titled found parsed outside => exact Fence.titledLine_ne_nil found _
  | unchanged other => exact nonempty

/-- The lines of a page, shown one by one. -/
structure ShowsLines (page shown : Lines) : Prop where
  sameLength : shown.items.length = page.items.length
  sameEnd : shown.endsWithNewline = page.endsWithNewline
  shownAs : ∀ earlier line later, page.items = earlier ++ line :: later →
    ∃ text, shown.items[earlier.length]? = some text ∧ ShownAs earlier line text

/-- What one step shows, when the earlier lines say whether the scan is inside of a region. -/
theorem exists_shownAs_step {options : FilterOptions} (noBuilds : options.buildArtifacts = false)
    {scan : Scan} (notCollecting : scan.collecting = false) {earlier : List Text}
    (sameRegion : scan.ignoring = Fence.leavesVerbatim earlier) (line : Text) :
    ∃ text, (step options scan line).emitted = [text] ∧ ShownAs earlier line text := by
  have notTaking := Scan.isTaking_of_not_collecting notCollecting
  have fits := scan.fits_event options.buildArtifacts line
  cases isEvent : scan.event options.buildArtifacts line with
  | verbatim begins =>
    rw [isEvent] at fits
    rw [step_of_event isEvent]
    refine ⟨line, rfl, .unchanged ?_⟩
    intro fence properties found parsed
    have opening := LineKind.ofLine_eq_opening_iff.mpr ⟨found, parsed⟩
    cases begins <;> simp [Event.Fits, opening] at fits
  | kept =>
    rw [isEvent] at fits
    rcases fits with ⟨_, _, _, inRegionOrOther⟩
    rw [step_of_event isEvent]
    refine ⟨line, rfl, .unchanged ?_⟩
    intro fence properties found parsed
    have opening := LineKind.ofLine_eq_opening_iff.mpr ⟨found, parsed⟩
    have ignoring : scan.ignoring := by simpa [opening] using inRegionOrOther
    exact sameRegion.symm.trans ignoring
  | titled fence properties =>
    rw [isEvent] at fits
    rcases fits with ⟨kind, notIgnoring, _⟩
    rcases LineKind.ofLine_eq_opening_iff.mp kind with ⟨found, parsed⟩
    rw [step_of_event isEvent]
    exact ⟨_, rfl, .titled found parsed (sameRegion.symm.trans notIgnoring)⟩
  | begun fence properties =>
    rw [isEvent] at fits
    simp [Event.Fits, noBuilds] at fits
  | closed | taken =>
    rw [isEvent] at fits
    simp [Event.Fits, notTaking] at fits

section

variable {options : FilterOptions} (noBuilds : options.buildArtifacts = false)

include noBuilds

theorem exists_shownAs_advance (earlier : List Text) (line : Text) :
    ∃ text, (advance options {} (earlier ++ [line])).emitted =
        (advance options {} earlier).emitted ++ [text] ∧ ShownAs earlier line text := by
  have idleStart : Scan.IsIdle {} := rfl
  have idle := (advance_of_isIdle idleStart noBuilds earlier).1
  have notCollecting : (advance options {} earlier).scan.collecting = false := by
    rw [idle]
  rcases exists_shownAs_step noBuilds notCollecting (ignoring_advance_initial options earlier)
    line with ⟨text, emitted, shown⟩
  refine ⟨text, ?_, shown⟩
  simp only [advance_append, advance, emitted, List.append_nil]

theorem length_emitted_advance (lines : List Text) :
    (advance options {} lines).emitted.length = lines.length := by
  induction lines using List.reverseRecOn with
  | nil => rfl
  | append_singleton earlier line ih =>
    rcases exists_shownAs_advance noBuilds earlier line with ⟨text, emitted, _⟩
    simp only [emitted, List.length_append, ih, List.length_singleton]

theorem exists_shownAs_getElem? (earlier : List Text) (line : Text) (later : List Text) :
    ∃ text, (advance options {} (earlier ++ line :: later)).emitted[earlier.length]? = some text ∧
      ShownAs earlier line text := by
  rcases exists_shownAs_advance noBuilds earlier line with ⟨text, upTo, shown⟩
  refine ⟨text, ?_, shown⟩
  have sameLength := length_emitted_advance noBuilds earlier
  have whole : (advance options {} (earlier ++ line :: later)).emitted =
      (advance options {} earlier).emitted ++ text ::
        (advance options (advance options {} (earlier ++ [line])).scan later).emitted := by
    rw [← List.singleton_append, ← List.append_assoc, advance_append, upTo]
    simp only [List.append_assoc, List.singleton_append]
  simp only [whole, ← sameLength, List.getElem?_append_right (Nat.le_refl _), Nat.sub_self,
    List.getElem?_cons_zero]

/-- The lines that stand for a page that can be read can be read themselves. -/
theorem readable_emitted_advance {page : Lines} (readable : page.Readable) :
    Lines.Readable ⟨(advance options {} page.items).emitted, page.endsWithNewline⟩ where
  oneLine := newline_not_mem_of_mem_emitted readable.oneLine
  ended := by
    intro ended
    apply List.ne_nil_of_length_pos
    rw [length_emitted_advance noBuilds]
    exact List.length_pos_iff.mpr (readable.ended ended)
  unended := by
    intro unended
    rcases List.eq_nil_or_concat page.items with nothing | ⟨earlier, last, isPage⟩
    · simp [nothing, advance]
    · rw [List.concat_eq_append] at isPage
      have nonempty : last ≠ [] := by
        simpa [isPage] using readable.unended unended
      rcases exists_shownAs_advance noBuilds earlier last with ⟨text, emitted, shown⟩
      rw [isPage, emitted]
      simpa using shown.ne_nil nonempty

end

end LineFilter

end LiterateMarkdown
