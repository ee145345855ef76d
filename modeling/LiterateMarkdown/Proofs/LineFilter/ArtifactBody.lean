import LiterateMarkdown.Proofs.LineFilter.Conservation

/-!
# The body of a build artifact

Between the fences of a build artifact every rule is still tried on each line before the line goes
to the script. So the body is taken from the page as a whole exactly when no other rule applies to
any of its lines (`hidesBody_iff`): a tilde fence or a fence with properties among them stays on the
page, and the script is not the body.

A body that begins a verbatim region even keeps its artifact from being closed
(`not_forall_hidesBody`).
-/

namespace LiterateMarkdown

namespace Text

theorem mem_dropCarriageReturn_of_mem {c : Char} {line : Text} (isMem : c ∈ line)
    (notReturn : c ≠ '\r') : c ∈ dropCarriageReturn line := by
  unfold dropCarriageReturn
  split
  · rename_i isLast
    rcases List.getLast?_eq_some_iff.mp isLast with ⟨start, rfl⟩
    simpa [notReturn] using isMem
  · exact isMem

theorem mem_dedent_of_mem {c : Char} {indent line : Text} (isMem : c ∈ line)
    (notIndent : c ∉ indent) : c ∈ dedent indent line := by
  unfold dedent
  cases begins : after? indent line with
  | none => exact isMem
  | some rest =>
    rw [after?_eq_some_iff.mp begins, List.mem_append] at isMem
    exact isMem.resolve_left notIndent

end Text

namespace LineFilter

/-- A line that is neither a tilde fence nor a fence whose properties can be read. -/
structure IsPlainLine (line : Text) : Prop where
  notStart : Fence.startsVerbatim line = false
  notEnd : Fence.endsVerbatim line = false
  notOpening : ∀ fence properties, OpenFence.ofLine? line = some fence →
    Property.parse fence.properties ≠ .ok properties

theorem isPlainLine_iff {line : Text} (notClosing : Fence.isClosing line = false) :
    IsPlainLine line ↔ LineKind.ofLine line = .ordinary := by
  constructor
  · rintro ⟨notStart, notEnd, notOpening⟩
    cases kind : LineKind.ofLine line with
    | verbatimStart =>
      rw [LineKind.ofLine_eq_verbatimStart_iff, notStart] at kind
      contradiction
    | verbatimEnd =>
      rw [LineKind.ofLine_eq_verbatimEnd_iff, notEnd] at kind
      contradiction
    | opening fence properties =>
      rcases LineKind.ofLine_eq_opening_iff.mp kind with ⟨found, parsed⟩
      exact absurd parsed (notOpening fence properties found)
    | closing =>
      rw [LineKind.ofLine_eq_closing_iff, notClosing] at kind
      contradiction
    | ordinary => rfl
  · intro kind
    refine ⟨LineKind.startsVerbatim_eq_false (by simp [kind]),
      LineKind.endsVerbatim_eq_false (by simp [kind]), ?_⟩
    intro fence properties found parsed
    rw [LineKind.ofLine_eq_opening_iff.mpr ⟨found, parsed⟩] at kind
    contradiction

/-- Ordinary lines of a build artifact go to its script, and to nothing else. -/
theorem advance_of_ordinary (options : FilterOptions) {scan : Scan} (taking : scan.isTaking)
    {lines : List Text} (ordinary : ∀ line ∈ lines, LineKind.ofLine line = .ordinary) :
    advance options scan lines =
      ⟨{ scan with scriptLines := scan.scriptLines ++ lines.map scan.takenLine }, [], []⟩ := by
  induction lines generalizing scan with
  | nil => simp [advance]
  | cons line rest ih =>
    rw [List.forall_mem_cons] at ordinary
    have isEvent : scan.event options.buildArtifacts line = .taken := by
      simp [Scan.event, ordinary.1, taking]
    let after : Scan := { scan with scriptLines := scan.scriptLines ++ [scan.takenLine line] }
    have isStep : step options scan line = ⟨after, [], []⟩ := step_of_event isEvent
    have sameTaken : after.takenLine = scan.takenLine := rfl
    have isLater := @ih after taking ordinary.2
    rw [sameTaken] at isLater
    simp only [advance, isStep, isLater]
    simp [after]

/-- Only a closing fence hands over a script. -/
theorem scripts_advance_of_not_closing (options : FilterOptions) {scan : Scan} {lines : List Text}
    (noClosing : ∀ line ∈ lines, Fence.isClosing line = false) :
    (advance options scan lines).scripts = [] := by
  induction lines generalizing scan with
  | nil => rfl
  | cons line rest ih =>
    rw [List.forall_mem_cons] at noClosing
    have noScript : (step options scan line).scripts = [] := by
      have fits := scan.fits_event options.buildArtifacts line
      cases isEvent : scan.event options.buildArtifacts line with
      | verbatim begins | kept | titled fence properties | begun fence properties | taken =>
        rw [step_of_event isEvent]
        rfl
      | closed =>
        rw [isEvent] at fits
        have closes := LineKind.ofLine_eq_closing_iff.mp fits.1
        rw [noClosing.1] at closes
        contradiction
    simp only [advance, noScript, ih noClosing.2, List.append_nil]

/-- Each line adds at most one line to the script. -/
theorem length_scriptLines_advance_le (options : FilterOptions) (scan : Scan) (lines : List Text) :
    (advance options scan lines).scan.scriptLines.length ≤
      scan.scriptLines.length + lines.length := by
  induction lines generalizing scan with
  | nil => exact Nat.le_refl _
  | cons line rest ih =>
    have first : (step options scan line).scan.scriptLines.length ≤
        scan.scriptLines.length + 1 := by
      simp only [step]
      cases scan.event options.buildArtifacts line <;> simp [Scan.after]
    have later := ih (step options scan line).scan
    simp only [advance, List.length_cons]
    omega

/-- A line of a body of which nothing is emitted goes to the script or begins another one. -/
theorem ordinary_or_begun_of_emitted_eq_nil {options : FilterOptions} {scan : Scan} {line : Text}
    (silent : (step options scan line).emitted = []) (notClosing : Fence.isClosing line = false) :
    LineKind.ofLine line = .ordinary ∨
      ∃ fence properties, scan.event options.buildArtifacts line = .begun fence properties := by
  have fits := scan.fits_event options.buildArtifacts line
  cases isEvent : scan.event options.buildArtifacts line with
  | verbatim begins | kept | titled fence properties =>
    rw [step_of_event isEvent] at silent
    exact absurd silent (List.cons_ne_nil _ _)
  | begun fence properties => exact .inr ⟨fence, properties, rfl⟩
  | closed =>
    rw [isEvent] at fits
    have closes := LineKind.ofLine_eq_closing_iff.mp fits.1
    rw [notClosing] at closes
    contradiction
  | taken =>
    rw [isEvent] at fits
    exact .inl fits.1

/-- An opening fence in a body leaves something in the script that the body should be. -/
theorem takenLine_ne_nil_of_ofLine? {scan : Scan} {line : Text} {fence : OpenFence}
    (indentBlank : scan.scriptIndent.all Text.isIndent)
    (found : OpenFence.ofLine? line = some fence) : scan.takenLine line ≠ [] := by
  rcases OpenFence.exists_toLine_of_ofLine? found with ⟨beforeBrace, afterBrace, isLine, _⟩
  have isMem : '`' ∈ line := by
    rw [isLine]
    simp [OpenFence.toLine, backticks]
  have notIndent : '`' ∉ scan.scriptIndent := fun present =>
    absurd (List.all_eq_true.mp indentBlank _ present) (by decide)
  exact List.ne_nil_of_mem
    (Text.mem_dropCarriageReturn_of_mem (Text.mem_dedent_of_mem isMem notIndent) (by decide))

section

variable {options : FilterOptions} {scan : Scan} {fence : OpenFence} {properties : List Property}
  {opening closing : Text} {body : List Text}

/-- The scan after the opening fence of a build artifact. -/
def Scan.begin (scan : Scan) (fence : OpenFence) (properties : List Property) : Scan :=
  scan.after [] (.begun fence properties)

theorem isTaking_begin (notIgnoring : scan.ignoring = false) :
    (scan.begin fence properties).isTaking := by
  simp [Scan.isTaking, Scan.begin, Scan.after, notIgnoring]

theorem advance_artifact_eq
    (isBegun : scan.event options.buildArtifacts opening = .begun fence properties) :
    advance options scan (opening :: body ++ [closing]) =
      ⟨(step options (advance options (scan.begin fence properties) body).scan closing).scan,
        fenceLines options.closingFence (Fence.titledLine fence properties) ++
          ((advance options (scan.begin fence properties) body).emitted ++
            (step options (advance options (scan.begin fence properties) body).scan
              closing).emitted),
        (advance options (scan.begin fence properties) body).scripts ++
          (step options (advance options (scan.begin fence properties) body).scan
            closing).scripts⟩ := by
  have isStep : step options scan opening = ⟨scan.begin fence properties,
      fenceLines options.closingFence (Fence.titledLine fence properties), []⟩ :=
    step_of_event isBegun
  rw [List.cons_append, advance, isStep, advance_append]
  simp only [advance, List.append_nil, List.nil_append]

/-- A build artifact with an ordinary body leaves its fences, and its body is handed over. -/
theorem advance_artifact (notIgnoring : scan.ignoring = false)
    (isBegun : scan.event options.buildArtifacts opening = .begun fence properties)
    (ordinary : ∀ line ∈ body, LineKind.ofLine line = .ordinary)
    (closes : Fence.isClosing closing) :
    advance options scan (opening :: body ++ [closing]) =
      ⟨{ scan.begin fence properties with collecting := false },
        fenceLines options.closingFence (Fence.titledLine fence properties) ++
          fenceLines options.closingFence closing,
        [Text.join ['\n'] (body.map (scan.begin fence properties).takenLine)]⟩ := by
  have taking : (scan.begin fence properties).isTaking := isTaking_begin notIgnoring
  have isBody := advance_of_ordinary options taking ordinary
  have noStart : (scan.begin fence properties).scriptLines = [] := rfl
  rw [noStart, List.nil_append] at isBody
  have kind := LineKind.ofLine_eq_closing_iff.mpr closes
  have isClosed : (advance options (scan.begin fence properties) body).scan.event
      options.buildArtifacts closing = .closed := by
    have stillTaking : (advance options (scan.begin fence properties) body).scan.isTaking := by
      rw [isBody]
      exact taking
    simp only [Scan.event, kind, stillTaking, ↓reduceIte]
  rw [advance_artifact_eq isBegun, step_of_event isClosed, isBody]
  rfl

/-- Where another artifact begins in a body, the script starts anew. -/
theorem length_scriptLines_of_begun {earlier later : List Text} {line : Text}
    {inner : OpenFence} {innerProperties : List Property}
    (isEvent : (advance options scan earlier).scan.event options.buildArtifacts line =
      .begun inner innerProperties) :
    (advance options scan (earlier ++ line :: later)).scan.scriptLines.length ≤ later.length := by
  have bound := length_scriptLines_advance_le options
    ((advance options scan earlier).scan.after line (.begun inner innerProperties)) later
  rw [advance_append]
  simp only [advance, step_of_event isEvent]
  simpa [Scan.after] using bound

/-- Where another artifact begins in a body, the script is not the body. -/
theorem join_scriptLines_ne_of_begun {earlier later : List Text} {line : Text}
    {inner : OpenFence} {innerProperties : List Property}
    (noStart : scan.scriptLines = []) (indentBlank : scan.scriptIndent.all Text.isIndent)
    (oneLine : ∀ other ∈ earlier ++ line :: later, '\n' ∉ other)
    (isEvent : (advance options scan earlier).scan.event options.buildArtifacts line =
      .begun inner innerProperties) :
    Text.join ['\n'] (advance options scan (earlier ++ line :: later)).scan.scriptLines ≠
      Text.join ['\n'] ((earlier ++ line :: later).map scan.takenLine) := by
  intro sameScript
  have fewer : (advance options scan (earlier ++ line :: later)).scan.scriptLines.length ≤
      later.length := length_scriptLines_of_begun isEvent
  have bodyOneLine : ∀ text ∈ (earlier ++ line :: later).map scan.takenLine, '\n' ∉ text := by
    intro text isText
    rcases List.mem_map.mp isText with ⟨other, isOther, rfl⟩
    exact newline_not_mem_takenLine scan (oneLine other isOther)
  have scriptOneLine : ∀ text ∈ (advance options scan (earlier ++ line :: later)).scan.scriptLines,
      '\n' ∉ text := by
    intro text isText
    rcases exists_taken_of_mem_scriptLines isText with
      isStart | ⟨before, other, after, isBody, _, rfl⟩
    · rw [noStart] at isStart
      contradiction
    · apply newline_not_mem_takenLine
      exact oneLine other (by simp [isBody])
  have bodyLines := Text.splitOn_join (by simp) bodyOneLine
  rw [← sameScript] at bodyLines
  by_cases isEmpty : (advance options scan (earlier ++ line :: later)).scan.scriptLines = []
  · -- The body would be one blank line, but a fence is none.
    have isTaken : scan.takenLine line ∈ (earlier ++ line :: later).map scan.takenLine := by
      simp
    rw [← bodyLines, isEmpty] at isTaken
    have fits := (advance options scan earlier).scan.fits_event options.buildArtifacts line
    rw [isEvent] at fits
    have isFound := LineKind.ofLine_eq_opening_iff.mp fits.1
    exact takenLine_ne_nil_of_ofLine? indentBlank isFound.1 (List.mem_singleton.mp isTaken)
  · rw [Text.splitOn_join isEmpty scriptOneLine] at bodyLines
    have sameLength := congrArg List.length bodyLines
    simp only [List.length_map, List.length_append, List.length_cons] at sameLength
    omega

/-- A build artifact whose body is handed over, and leaves nothing else, has an ordinary body. -/
theorem ordinary_of_advance_artifact
    (isBegun : scan.event options.buildArtifacts opening = .begun fence properties)
    (indentBlank : fence.indent.all Text.isIndent) (oneLine : ∀ line ∈ body, '\n' ∉ line)
    (noClosing : ∀ line ∈ body, Fence.isClosing line = false)
    (emitted : (advance options scan (opening :: body ++ [closing])).emitted =
      fenceLines options.closingFence (Fence.titledLine fence properties) ++
        fenceLines options.closingFence closing)
    (handed : (advance options scan (opening :: body ++ [closing])).scripts =
      [Text.join ['\n'] (body.map (scan.begin fence properties).takenLine)]) :
    ∀ line ∈ body, LineKind.ofLine line = .ordinary := by
  let begun := scan.begin fence properties
  let final := (advance options begun body).scan
  simp only [advance_artifact_eq isBegun, List.append_cancel_left_eq] at emitted
  simp only [advance_artifact_eq isBegun, scripts_advance_of_not_closing options noClosing,
    List.nil_append] at handed
  -- The closing fence hands over the script, so the lines before it emit nothing.
  have isClosed : final.event options.buildArtifacts closing = .closed := by
    cases isEvent : final.event options.buildArtifacts closing with
    | closed => rfl
    | verbatim begins | kept | titled fence properties | begun fence properties | taken =>
      rw [step_of_event isEvent] at handed
      exact absurd handed.symm (List.cons_ne_nil _ _)
  rw [step_of_event isClosed] at emitted handed
  have silent : (advance options begun body).emitted = [] :=
    List.append_left_eq_self.mp emitted
  intro line isMem
  rcases List.append_of_mem isMem with ⟨earlier, later, rfl⟩
  have lineSilent : (step options (advance options begun earlier).scan line).emitted = [] := by
    rw [advance_append] at silent
    simp only [advance, List.append_eq_nil_iff] at silent
    exact silent.2.1
  rcases ordinary_or_begun_of_emitted_eq_nil lineSilent (noClosing line isMem) with
    ordinary | ⟨inner, innerProperties, isEvent⟩
  · exact ordinary
  · have notBody := join_scriptLines_ne_of_begun rfl indentBlank oneLine isEvent
    exact absurd (List.head_eq_of_cons_eq handed) notBody

end

variable {World : Type}

/--
What is left of a build artifact whose body is hidden: its fences, as the options say, and a script
of the lines between them.
-/
structure HidesBody (options : FilterOptions) (fence : OpenFence) (properties : List Property)
    (body : List Text) (closing : Text) (start : State (List Text × World))
    (outcome : State (List Text × World) × List Text) : Prop where
  emitted : outcome.2 =
    fenceLines options.closingFence (Fence.titledLine fence properties) ++
      fenceLines options.closingFence closing
  handed : outcome.1.world.1 = start.world.1 ++ [Text.join ['\n'] (body.map fun line =>
    Text.dropCarriageReturn (Text.dedent fence.indent line))]
  notIgnoring : outcome.1.scan.ignoring = false
  notCollecting : outcome.1.scan.collecting = false

/--
From any place outside of a verbatim region, the body of a build artifact is hidden exactly when
none of its lines is a tilde fence or a fence with properties.
-/
theorem hidesBody_iff {options : FilterOptions} (builds : options.buildArtifacts)
    (runner : BuildRunner World) {start : State (List Text × World)}
    (notIgnoring : start.scan.ignoring = false) {opening closing : Text} {fence : OpenFence}
    {properties : List Property} {body : List Text}
    (found : OpenFence.ofLine? opening = some fence)
    (parsed : Property.parse fence.properties = .ok properties)
    (isBuild : Property.hasClass properties Fence.buildArtifactClass)
    (oneLine : ∀ line ∈ body, '\n' ∉ line)
    (noClosing : ∀ line ∈ body, Fence.isClosing line = false) (closes : Fence.isClosing closing) :
    HidesBody options fence properties body closing start
        (Rule.applyLines (rules options runner.noting) .exclusive start
          (opening :: body ++ [closing])) ↔
      ∀ line ∈ body, IsPlainLine line := by
  have isBegun : start.scan.event options.buildArtifacts opening = .begun fence properties := by
    have kind := LineKind.ofLine_eq_opening_iff.mpr ⟨found, parsed⟩
    simp [Scan.event, kind, notIgnoring, builds, isBuild]
  have sameWorld : start.world = (start.world.1, start.world.2) := rfl
  rw [applyLines_rules, Progress.run, sameWorld, runScripts_noting]
  constructor
  · rintro ⟨emitted, handed, _, _⟩ line isMem
    rcases OpenFence.exists_toLine_of_ofLine? found with ⟨_, _, _, indentBlank, _⟩
    rw [isPlainLine_iff (noClosing line isMem)]
    exact ordinary_of_advance_artifact isBegun indentBlank oneLine noClosing emitted
      (List.append_cancel_left handed) line isMem
  · intro plain
    have ordinary : ∀ line ∈ body, LineKind.ofLine line = .ordinary := fun line isMem =>
      (isPlainLine_iff (noClosing line isMem)).mp (plain line isMem)
    rw [advance_artifact notIgnoring isBegun ordinary closes]
    exact ⟨rfl, rfl, notIgnoring, rfl⟩

/-- A body with fences that open nothing, on a page with mixed line endings. -/
theorem hidesBody_iff_recipe :
    ∃ opening closing fence properties body,
      opening = "  ``` \x7b.make .build-artifact #site\x7d\r".toList ∧ closing = " ```\t".toList ∧
      body = ["  all:".toList, "  \techo done\r".toList, "``` \x7b= x\x7d".toList,
        "```sh".toList, " ~~~".toList, []] ∧
      OpenFence.ofLine? opening = some fence ∧
      Property.parse fence.properties = .ok properties ∧
      Property.hasClass properties Fence.buildArtifactClass ∧ (∀ line ∈ body, '\n' ∉ line) ∧
      (∀ line ∈ body, Fence.isClosing line = false) ∧ Fence.isClosing closing ∧
      (HidesBody ⟨true, .suppress⟩ fence properties body closing (.initial ([], ()))
          (Rule.applyLines (rules ⟨true, .suppress⟩ BuildRunner.idle.noting) .exclusive
            (.initial ([], ())) (opening :: body ++ [closing])) ↔
        ∀ line ∈ body, IsPlainLine line) := by
  have kind : LineKind.ofLine "  ``` \x7b.make .build-artifact #site\x7d\r".toList =
      .opening ⟨"  ".toList, ".make .build-artifact #site".toList, "\r".toList⟩
        [.className "make".toList, .className "build-artifact".toList,
          .identifier "site".toList] := by
    decide +kernel
  rcases LineKind.ofLine_eq_opening_iff.mp kind with ⟨found, parsed⟩
  refine ⟨_, _, _, _, _, rfl, rfl, rfl, found, parsed, by decide +kernel, by decide +kernel,
    by decide +kernel, by decide +kernel, ?_⟩
  exact hidesBody_iff rfl BuildRunner.idle rfl found parsed (by decide +kernel) (by decide +kernel)
    (by decide +kernel) (by decide +kernel)

/-- A body that begins a verbatim region keeps its closing fence from closing it. -/
theorem not_forall_hidesBody :
    ¬ ∀ body : List Text, (∀ line ∈ body, '\n' ∉ line) →
      (∀ line ∈ body, Fence.isClosing line = false) →
        HidesBody ⟨true, .suppress⟩ ⟨[], ".build-artifact".toList, []⟩
          [.className "build-artifact".toList] body "```".toList (.initial ([], ()))
          (Rule.applyLines (rules ⟨true, .suppress⟩ BuildRunner.idle.noting) .exclusive
            (.initial ([], ()))
            ("``` \x7b.build-artifact\x7d".toList :: body ++ ["```".toList])) := by
  intro allHidden
  have hidden := allHidden ["~~~markdown".toList] (by decide) (by decide +kernel)
  have ignoring : (Rule.applyLines (rules ⟨true, .suppress⟩ BuildRunner.idle.noting) .exclusive
      (.initial ([], ())) ("``` \x7b.build-artifact\x7d".toList :: ["~~~markdown".toList] ++
        ["```".toList])).1.scan.ignoring = true := by
    decide +kernel
  rw [hidden.notIgnoring] at ignoring
  contradiction

end LineFilter

end LiterateMarkdown
