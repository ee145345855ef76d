import LiterateMarkdown.Proofs.LineFilter.Invariant

/-!
# Shown and hidden fences

Where a scan goes and what it hands over depends on the events at the lines, and an event depends on
everything but what happens to the fences of scripts. So two filters that differ in that alone stand
at the same place after every line of every page, and have handed over the same scripts.

What they emit differs at these fences only. Marking the lines that are emitted for a fence at which
a script begins or ends makes both outputs out of one list: the filter that keeps the fences emits
all of it, and the one that hides them what is not marked (`reachedWithin_suppress`).
-/

namespace LiterateMarkdown

namespace LineFilter

/-- Whether a build artifact begins or ends at the line of the event. -/
def Event.isScriptFence : Event → Bool
  | .begun _ _ | .closed => true
  | .verbatim _ | .kept | .titled _ _ | .taken => false

theorem Event.emitted_suppress (line : Text) (event : Event) :
    event.emitted .suppress line =
      if event.isScriptFence then [] else event.emitted .verbatim line := by
  cases event with
  | begun fence properties | closed => rfl
  | verbatim begins | kept | titled fence properties | taken => rfl

/-- A line at which a build artifact begins or ends. -/
def IsScriptFence (options : FilterOptions) (scan : Scan) (line : Text) : Prop :=
  BeginsScript options scan line ∨ ClosesScript scan line

theorem isScriptFence_event_iff (options : FilterOptions) (scan : Scan) (line : Text) :
    (scan.event options.buildArtifacts line).isScriptFence ↔ IsScriptFence options scan line := by
  rw [IsScriptFence, beginsScript_iff, closesScript_iff options]
  cases scan.event options.buildArtifacts line with
  | begun fence properties => simp [Event.isScriptFence]
  | closed => simp [Event.isScriptFence]
  | verbatim begins | kept | titled fence properties | taken => simp [Event.isScriptFence]

instance (options : FilterOptions) (scan : Scan) (line : Text) :
    Decidable (IsScriptFence options scan line) :=
  decidable_of_iff _ (isScriptFence_event_iff options scan line)

/-- Hiding the fences of scripts changes nothing else in a step. -/
theorem step_suppress (buildArtifacts : Bool) (scan : Scan) (line : Text) :
    step ⟨buildArtifacts, .suppress⟩ scan line =
      { step ⟨buildArtifacts, .verbatim⟩ scan line with
        emitted :=
          if IsScriptFence ⟨buildArtifacts, .verbatim⟩ scan line then []
          else (step ⟨buildArtifacts, .verbatim⟩ scan line).emitted } := by
  have sameTest := isScriptFence_event_iff ⟨buildArtifacts, .verbatim⟩ scan line
  simp only [step, Event.emitted_suppress, sameTest]

/-- Hiding the fences of scripts changes neither the scan nor the scripts. -/
theorem advance_suppress (buildArtifacts : Bool) (scan : Scan) (lines : List Text) :
    (advance ⟨buildArtifacts, .suppress⟩ scan lines).scan =
        (advance ⟨buildArtifacts, .verbatim⟩ scan lines).scan ∧
      (advance ⟨buildArtifacts, .suppress⟩ scan lines).scripts =
        (advance ⟨buildArtifacts, .verbatim⟩ scan lines).scripts := by
  induction lines generalizing scan with
  | nil => exact ⟨rfl, rfl⟩
  | cons line rest ih =>
    rcases ih (step ⟨buildArtifacts, .verbatim⟩ scan line).scan with ⟨sameScan, sameScripts⟩
    simp only [advance, step_suppress]
    constructor
    · exact sameScan
    · rw [sameScripts]

/-- A line that is emitted, and whether it stands for a fence of a build artifact. -/
structure MarkedLine where
  text : Text
  isScriptFence : Bool
  deriving DecidableEq, Repr

section

variable {World : Type}

/-- The lines that the rules emit, marked where a build artifact begins or ends. -/
def markedLines (options : FilterOptions) (runner : BuildRunner World) (state : State World) :
    List Text → List MarkedLine
  | [] => []
  | line :: rest =>
    let (next, emitted) := Rule.applyLine (rules options runner) .exclusive state line
    emitted.map (⟨·, IsScriptFence options state.scan line⟩) ++
      markedLines options runner next rest

theorem map_text_markedLines (options : FilterOptions) (runner : BuildRunner World)
    (state : State World) (lines : List Text) :
    (markedLines options runner state lines).map MarkedLine.text =
      (Rule.applyLines (rules options runner) .exclusive state lines).2 := by
  induction lines generalizing state with
  | nil => rfl
  | cons line rest ih =>
    simp only [markedLines, Rule.applyLines, List.map_append, List.map_map, ih]
    congr 1
    exact List.map_id _

/-- Hiding the fences of scripts leaves the lines that are not marked. -/
theorem applyLines_suppress (buildArtifacts : Bool) (runner : BuildRunner World)
    (state : State World) (lines : List Text) :
    (Rule.applyLines (rules ⟨buildArtifacts, .suppress⟩ runner) .exclusive state lines).2 =
      ((markedLines ⟨buildArtifacts, .verbatim⟩ runner state lines).filter
        fun marked => !marked.isScriptFence).map MarkedLine.text := by
  induction lines generalizing state with
  | nil => rfl
  | cons line rest ih =>
    simp only [Rule.applyLines, Rule.applyLine, applyFirst_rules, step_suppress, Progress.run,
      markedLines, List.filter_append, List.map_append, ih]
    congr 1
    split
    · rename_i isFence
      simp [isFence]
    · rename_i notFence
      simp [notFence, List.filter_map, Function.comp_def]

variable (runner : BuildRunner World) (world : World)

/-- The lines that a fresh filter emits for a page after other pages. -/
def emittedFor (options : FilterOptions) (pages : List Text) (page : Text) : List Text :=
  (Rule.applyLines (rules options runner.noting) .exclusive
    (runPages options runner.noting (.initial ([], world)) pages).1 (Lines.ofText page).items).2

/-- The same lines, marked where a build artifact begins or ends. -/
def markedFor (options : FilterOptions) (pages : List Text) (page : Text) : List MarkedLine :=
  markedLines options runner.noting
    (runPages options runner.noting (.initial ([], world)) pages).1 (Lines.ofText page).items

theorem runPages_suppress (pages : List Text) :
    (runPages ⟨true, .suppress⟩ runner (.initial world) pages).1 =
      (runPages ⟨true, .verbatim⟩ runner (.initial world) pages).1 := by
  rcases advance_suppress true {} (pageLines pages) with ⟨sameScan, sameScripts⟩
  simp only [runPages_state, State.initial, sameScan, sameScripts]

/--
Two filters that go through the same pages and run scripts, one of which keeps the fences of scripts
and the other hides them: after every line of every page their scans are the same, and so are the
scripts that their runners have been given. The lines that the latter emits for a page are those of
the former without the fences at which a script begins or ends.
-/
theorem reachedWithin_suppress (pages : List Text) (page : Text) :
    (∀ count, reachedWithin ⟨true, .suppress⟩ runner world pages page count =
        reachedWithin ⟨true, .verbatim⟩ runner world pages page count) ∧
      emittedFor runner world ⟨true, .verbatim⟩ pages page =
        (markedFor runner world ⟨true, .verbatim⟩ pages page).map MarkedLine.text ∧
      emittedFor runner world ⟨true, .suppress⟩ pages page =
        ((markedFor runner world ⟨true, .verbatim⟩ pages page).filter
          fun marked => !marked.isScriptFence).map MarkedLine.text := by
  refine ⟨?_, ?_, ?_⟩
  · intro count
    rcases advance_suppress true {} (pageLines pages ++ (Lines.ofText page).items.take count) with
      ⟨sameScan, sameScripts⟩
    simp only [reachedWithin_eq, reached_eq, sameScan, sameScripts]
  · exact (map_text_markedLines _ _ _ _).symm
  · rw [emittedFor, runPages_suppress]
    exact applyLines_suppress true runner.noting _ _

end

end LineFilter

end LiterateMarkdown
