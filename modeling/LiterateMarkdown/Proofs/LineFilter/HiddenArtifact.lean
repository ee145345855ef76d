import LiterateMarkdown.Proofs.LineFilter.ArtifactBody

/-!
# Hidden build artifacts

A build artifact whose fences are hidden leaves no line on the page. It also leaves nothing in the
scan that a later line could meet: the indentation and the properties of the last artifact are read
only while another one is collected, which sets them anew (`Scan.Interchangeable`). So the page with
the artifact is filtered as the page without it, and the script of the artifact is handed over
between the scripts before it and those after it (`hides_artifact`).

There is one exception. The newline at the end of a page is kept even if no line is, so a page that
is nothing but an artifact becomes a newline and not the empty text (`not_forall_hidden_alone`).
-/

namespace LiterateMarkdown

namespace LineFilter

/-- Scans that treat all lines alike from now on. -/
inductive Scan.Interchangeable : Scan → Scan → Prop
  | refl (scan : Scan) : Interchangeable scan scan
  | idle {scan other : Scan} (sameIgnoring : scan.ignoring = other.ignoring)
      (notCollecting : scan.collecting = false) (otherNotCollecting : other.collecting = false) :
      Interchangeable scan other

theorem step_of_interchangeable (options : FilterOptions) {scan other : Scan} (line : Text)
    (alike : scan.Interchangeable other) :
    (step options scan line).scan.Interchangeable (step options other line).scan ∧
      (step options scan line).emitted = (step options other line).emitted ∧
      (step options scan line).scripts = (step options other line).scripts := by
  cases alike with
  | refl => exact ⟨.refl _, rfl, rfl⟩
  | idle sameIgnoring notCollecting otherNotCollecting =>
    have notTaking := Scan.isTaking_of_not_collecting notCollecting
    have otherNotTaking := Scan.isTaking_of_not_collecting otherNotCollecting
    have sameEvent : other.event options.buildArtifacts line =
        scan.event options.buildArtifacts line := by
      simp only [Scan.event, sameIgnoring, notTaking, otherNotTaking]
    have fits := scan.fits_event options.buildArtifacts line
    cases isEvent : scan.event options.buildArtifacts line with
    | verbatim begins =>
      rw [step_of_event isEvent, step_of_event (sameEvent.trans isEvent)]
      exact ⟨.idle rfl notCollecting otherNotCollecting, rfl, rfl⟩
    | kept | titled fence properties =>
      rw [step_of_event isEvent, step_of_event (sameEvent.trans isEvent)]
      exact ⟨.idle sameIgnoring notCollecting otherNotCollecting, rfl, rfl⟩
    | begun fence properties =>
      rw [step_of_event isEvent, step_of_event (sameEvent.trans isEvent)]
      refine ⟨?_, rfl, rfl⟩
      -- Only whether a region is open is left of the scans before.
      have sameScan : scan.after line (.begun fence properties) =
          other.after line (.begun fence properties) := by
        simp only [Scan.after, sameIgnoring]
      rw [sameScan]
      exact .refl _
    | closed | taken =>
      rw [isEvent] at fits
      simp [Event.Fits, notTaking] at fits

theorem advance_of_interchangeable (options : FilterOptions) {scan other : Scan}
    (alike : scan.Interchangeable other) (lines : List Text) :
    (advance options scan lines).emitted = (advance options other lines).emitted ∧
      (advance options scan lines).scripts = (advance options other lines).scripts := by
  induction lines generalizing scan other with
  | nil => exact ⟨rfl, rfl⟩
  | cons line rest ih =>
    rcases step_of_interchangeable options line alike with ⟨alikeAfter, emitted, scripts⟩
    rcases ih alikeAfter with ⟨laterEmitted, laterScripts⟩
    simp only [advance, emitted, scripts, laterEmitted, laterScripts, and_self]

/-- Scripts are run, and the fences around them leave the page. -/
abbrev suppressing : FilterOptions :=
  ⟨true, .suppress⟩

/-- A build artifact as it stands on a page, none of whose inner lines begins or ends anything. -/
structure ClosedArtifact where
  opening : Text
  fence : OpenFence
  properties : List Property
  body : List Text
  closing : Text
  found : OpenFence.ofLine? opening = some fence
  parsed : Property.parse fence.properties = .ok properties
  isBuild : Property.hasClass properties Fence.buildArtifactClass
  plain : ∀ line ∈ body, IsPlainLine line
  notClosing : ∀ line ∈ body, Fence.isClosing line = false
  closes : Fence.isClosing closing
  oneLine : ∀ line ∈ opening :: body ++ [closing], '\n' ∉ line

namespace ClosedArtifact

variable (artifact : ClosedArtifact)

def lines : List Text :=
  artifact.opening :: artifact.body ++ [artifact.closing]

/-- The lines of the artifact, each of them ended by a newline. -/
def text : Text :=
  Lines.toText ⟨artifact.lines, true⟩

def script : Text :=
  Text.join ['\n'] (artifact.body.map fun line =>
    Text.dropCarriageReturn (Text.dedent artifact.fence.indent line))

theorem ofText_text : Lines.ofText artifact.text = ⟨artifact.lines, true⟩ := by
  apply Lines.ofText_toText
  refine ⟨artifact.oneLine, ?_, ?_⟩
  · simp [lines]
  · simp

theorem getLast?_text : artifact.text.getLast? = some '\n' := by
  simp [text, Lines.toText]

/-- The lines after a hidden artifact fare as they do without it. -/
theorem advance_before {scan : Scan} (notIgnoring : scan.ignoring = false)
    (notCollecting : scan.collecting = false) (later : List Text) :
    (advance suppressing scan (artifact.lines ++ later)).emitted =
        (advance suppressing scan later).emitted ∧
      (advance suppressing scan (artifact.lines ++ later)).scripts =
        artifact.script :: (advance suppressing scan later).scripts := by
  have isBegun : scan.event suppressing.buildArtifacts artifact.opening =
      .begun artifact.fence artifact.properties := by
    have kind := LineKind.ofLine_eq_opening_iff.mpr ⟨artifact.found, artifact.parsed⟩
    simp [Scan.event, kind, notIgnoring, artifact.isBuild]
  have ordinary : ∀ line ∈ artifact.body, LineKind.ofLine line = .ordinary := by
    intro line isLine
    exact (isPlainLine_iff (artifact.notClosing line isLine)).mp (artifact.plain line isLine)
  have isHidden := advance_artifact notIgnoring isBegun ordinary artifact.closes
  have alike : Scan.Interchangeable
      { scan.begin artifact.fence artifact.properties with collecting := false } scan :=
    .idle rfl rfl notCollecting
  rcases advance_of_interchangeable suppressing alike later with ⟨emitted, scripts⟩
  rw [lines, advance_append, isHidden]
  constructor
  · exact emitted
  · rw [scripts]
    rfl

/-- The lines around a hidden artifact fare as they do without it. -/
theorem advance_between {earlier : List Text}
    (notIgnoring : (advance suppressing {} earlier).scan.ignoring = false)
    (notCollecting : (advance suppressing {} earlier).scan.collecting = false) (later : List Text) :
    (advance suppressing {} (earlier ++ (artifact.lines ++ later))).emitted =
        (advance suppressing {} (earlier ++ later)).emitted ∧
      ∃ rest,
        (advance suppressing {} (earlier ++ later)).scripts =
          (advance suppressing {} earlier).scripts ++ rest ∧
        (advance suppressing {} (earlier ++ (artifact.lines ++ later))).scripts =
          (advance suppressing {} earlier).scripts ++ artifact.script :: rest := by
  rcases artifact.advance_before notIgnoring notCollecting later with ⟨emitted, scripts⟩
  simp only [advance_append suppressing {} earlier, emitted, scripts, true_and]
  exact ⟨_, rfl, rfl⟩

theorem items_insert {earlier : Text} (ended : earlier = [] ∨ earlier.getLast? = some '\n')
    (later : Text) :
    (Lines.ofText (earlier ++ artifact.text ++ later)).items =
      (Lines.ofText earlier).items ++ (artifact.lines ++ (Lines.ofText later).items) := by
  have artifactLines : Lines.split artifact.text = artifact.lines :=
    congrArg Lines.items artifact.ofText_text
  simp only [Lines.ofText, List.append_assoc, Lines.split_append ended,
    Lines.split_append (.inr artifact.getLast?_text), artifactLines]

theorem endsWithNewline_insert {earlier later : Text}
    (ended : earlier = [] ∨ earlier.getLast? = some '\n') (nonempty : earlier ++ later ≠ []) :
    (Lines.ofText (earlier ++ artifact.text ++ later)).endsWithNewline =
      (Lines.ofText (earlier ++ later)).endsWithNewline := by
  cases later with
  | nil =>
    have earlierEnded : earlier.getLast? = some '\n' :=
      ended.resolve_left (by simpa using nonempty)
    simp [Lines.ofText, artifact.getLast?_text, earlierEnded]
  | cons c rest => simp [Lines.ofText, List.getLast?_append, List.getLast?_cons]

end ClosedArtifact

section

variable {World : Type} (runner : BuildRunner World) (world : World)

/-- A page through a fresh filter that runs scripts and hides their fences. -/
def filterHiding (page : Text) : State (List Text × World) × Text :=
  run suppressing runner.noting (.initial ([], world)) page

theorem filterHiding_eq (page : Text) :
    filterHiding runner world page =
      (⟨(advance suppressing {} (Lines.ofText page).items).scan,
          (advance suppressing {} (Lines.ofText page).items).scripts,
          runScripts runner world (advance suppressing {} (Lines.ofText page).items).scripts⟩,
        Lines.toText ⟨(advance suppressing {} (Lines.ofText page).items).emitted,
          (Lines.ofText page).endsWithNewline⟩) := by
  simp only [filterHiding, run_eq, State.initial, runScripts_noting, List.nil_append]

/--
A hidden build artifact between the parts of a page leaves the text that they have without it, but
that a newline is left where there are no such parts. Its script is handed over after those of the
part before it and before those of the part after it.
-/
theorem hides_artifact (artifact : ClosedArtifact) {earlier : Text}
    (ended : earlier = [] ∨ earlier.getLast? = some '\n')
    (notIgnoring : (filterHiding runner world earlier).1.scan.ignoring = false)
    (notCollecting : (filterHiding runner world earlier).1.scan.collecting = false)
    (later : Text) :
    (filterHiding runner world (earlier ++ artifact.text ++ later)).2 =
        (if earlier ++ later = [] then ['\n']
        else (filterHiding runner world (earlier ++ later)).2) ∧
      ∃ rest,
        (filterHiding runner world (earlier ++ later)).1.world.1 =
          (filterHiding runner world earlier).1.world.1 ++ rest ∧
        (filterHiding runner world (earlier ++ artifact.text ++ later)).1.world.1 =
          (filterHiding runner world earlier).1.world.1 ++ artifact.script :: rest := by
  have isRest : (Lines.ofText (earlier ++ later)).items =
      (Lines.ofText earlier).items ++ (Lines.ofText later).items :=
    Lines.split_append ended later
  rw [filterHiding_eq] at notIgnoring notCollecting
  rcases artifact.advance_between notIgnoring notCollecting (Lines.ofText later).items with
    ⟨emitted, scripts⟩
  simp only [filterHiding_eq, artifact.items_insert ended, isRest, emitted]
  refine ⟨?_, scripts⟩
  split
  · rename_i alone
    rcases List.append_eq_nil_iff.mp alone with ⟨rfl, rfl⟩
    simp only [List.nil_append, List.append_nil, artifact.ofText_text]
    rfl
  · rename_i nonempty
    rw [artifact.endsWithNewline_insert ended nonempty]

end

/-- An artifact with a blank line in its body, on a page with CRLF line endings. -/
def ClosedArtifact.recipe : ClosedArtifact where
  opening := "\t``` \x7b.make .build-artifact #site\x7d\r".toList
  fence := ⟨['\t'], ".make .build-artifact #site".toList, ['\r']⟩
  properties :=
    [.className "make".toList, .className "build-artifact".toList, .identifier "site".toList]
  body := ["\tall:\r".toList, ['\r'], "\t\techo done\r".toList]
  closing := "\t```\r".toList
  found := by decide +kernel
  parsed := by decide +kernel
  isBuild := by decide +kernel
  plain := by
    intro line isLine
    have notClosing : Fence.isClosing line = false := by
      revert line
      decide +kernel
    rw [isPlainLine_iff notClosing]
    revert line
    decide +kernel
  notClosing := by decide +kernel
  closes := by decide +kernel
  oneLine := by decide +kernel

/-- Between an artifact and a fence, after a verbatim region and before another artifact. -/
theorem hides_artifact_recipe :
    ∃ earlier later,
      earlier = ("~~~markdown\n``` \x7b.build-artifact\x7d\n~~~\n" ++
        "``` \x7b.build-artifact\x7d\nfirst:\n```\n").toList ∧
      later = "``` \x7b.py #b\x7d\n```\n``` \x7b.build-artifact\x7d\nlast:\n```".toList ∧
      (earlier = [] ∨ earlier.getLast? = some '\n') ∧
      (filterHiding .idle () earlier).1.scan.ignoring = false ∧
      (filterHiding .idle () earlier).1.scan.collecting = false ∧
      (filterHiding .idle () (earlier ++ ClosedArtifact.recipe.text ++ later)).2 =
        (if earlier ++ later = [] then ['\n']
        else (filterHiding .idle () (earlier ++ later)).2) ∧
      ∃ rest,
        (filterHiding .idle () (earlier ++ later)).1.world.1 =
          (filterHiding .idle () earlier).1.world.1 ++ rest ∧
        (filterHiding .idle () (earlier ++ ClosedArtifact.recipe.text ++ later)).1.world.1 =
          (filterHiding .idle () earlier).1.world.1 ++ ClosedArtifact.recipe.script :: rest := by
  generalize isEarlier : ("~~~markdown\n``` \x7b.build-artifact\x7d\n~~~\n" ++
    "``` \x7b.build-artifact\x7d\nfirst:\n```\n").toList = earlier
  have ended : earlier = [] ∨ earlier.getLast? = some '\n' := by
    subst isEarlier
    decide +kernel
  have notIgnoring : (filterHiding .idle () earlier).1.scan.ignoring = false := by
    subst isEarlier
    decide +kernel
  have notCollecting : (filterHiding .idle () earlier).1.scan.collecting = false := by
    subst isEarlier
    decide +kernel
  exact ⟨earlier, _, rfl, rfl, ended, notIgnoring, notCollecting,
    hides_artifact .idle () ClosedArtifact.recipe ended notIgnoring notCollecting _⟩

/-- A page that is nothing but a hidden artifact is not filtered as the empty page is. -/
theorem not_forall_hidden_alone :
    ¬ ∀ (artifact : ClosedArtifact) (earlier later : Text),
      (earlier = [] ∨ earlier.getLast? = some '\n') →
        (filterHiding .idle () earlier).1.scan.ignoring = false →
          (filterHiding .idle () earlier).1.scan.collecting = false →
            (filterHiding .idle () (earlier ++ artifact.text ++ later)).2 =
              (filterHiding .idle () (earlier ++ later)).2 := by
  intro allHidden
  have sameText := allHidden ClosedArtifact.recipe [] [] (.inl rfl) (by decide +kernel)
    (by decide +kernel)
  have newline : (filterHiding .idle () ([] ++ ClosedArtifact.recipe.text ++ [])).2 = ['\n'] := by
    decide +kernel
  have nothing : (filterHiding .idle () ([] ++ [])).2 = [] := by
    decide +kernel
  rw [newline, nothing] at sameText
  contradiction

end LineFilter

end LiterateMarkdown
