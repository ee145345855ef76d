import LiterateMarkdown.Text.Lines

/-!
# Line rules

A page is rewritten by offering each of its lines to an ordered list of rules, which share a state.
A rule may decline a line, keep it, or put other lines in its place.

In exclusive mode the first rule that does not decline a line decides it, and a line that every rule
declines stays. In pipeline mode each rule sees the lines that the rules before it left.
-/

namespace LiterateMarkdown

/-- What a rule says about a line. -/
inductive Verdict where
  /-- The rule does not apply. -/
  | noMatch
  /-- The rule applies and keeps the line. -/
  | passThrough
  /-- The rule applies and puts these lines in place of the line. -/
  | replace (lines : List Text)
  deriving DecidableEq, Repr

namespace Verdict

/-- The verdict that removes the line. -/
def erase : Verdict :=
  replace []

/-- Whether the rule applies. -/
def isMatch : Verdict → Bool
  | noMatch => false
  | _ => true

/-- The lines that stand in place of `line` after the verdict on it. -/
def lines (line : Text) : Verdict → List Text
  | noMatch | passThrough => [line]
  | replace lines => lines

end Verdict

/-- A named rule over a state. -/
structure Rule (State : Type) where
  name : Text
  /-- The state after the rule has seen a line, and its verdict on the line. -/
  apply : State → Text → State × Verdict

namespace Rule

variable {State : Type}

/-- A rule that sees every line. -/
def always (name : Text) (handler : State → Text → State × Verdict) : Rule State :=
  ⟨name, handler⟩

/-- A rule that declines the lines `recognise` rejects and hands on what it finds in the others. -/
def onLine {Found : Type} (name : Text) (recognise : Text → Option Found)
    (handler : State → Text → Found → State × Verdict) : Rule State where
  name := name
  apply state line :=
    match recognise line with
    | some found => handler state line found
    | none => (state, .noMatch)

/-- A rule that declines the lines outside `recognise`. -/
def onLines (name : Text) (recognise : Text → Bool)
    (handler : State → Text → State × Verdict) : Rule State where
  name := name
  apply state line := if recognise line then handler state line else (state, .noMatch)

/-- How a list of rules is applied to a line. -/
inductive Mode where
  | exclusive
  | pipeline
  deriving DecidableEq, Repr

/-- The first rule that does not decline the line decides it. -/
def applyFirst (rules : List (Rule State)) (state : State) (line : Text) : State × List Text :=
  match rules with
  | [] => (state, [line])
  | rule :: rules =>
    match rule.apply state line with
    | (state, .noMatch) => applyFirst rules state line
    | (state, verdict) => (state, verdict.lines line)

/-- One rule sees each line in turn. -/
def applyEach (rule : Rule State) (state : State) : List Text → State × List Text
  | [] => (state, [])
  | line :: rest =>
    let (state, verdict) := rule.apply state line
    let (state, later) := applyEach rule state rest
    (state, verdict.lines line ++ later)

/-- Each rule sees the lines that the rules before it left. -/
def applyAll (rules : List (Rule State)) (state : State) (lines : List Text) :
    State × List Text :=
  match rules with
  | [] => (state, lines)
  | rule :: rules =>
    let (state, lines) := applyEach rule state lines
    applyAll rules state lines

/-- What becomes of one line of a page. -/
def applyLine (rules : List (Rule State)) (mode : Mode) (state : State) (line : Text) :
    State × List Text :=
  match mode with
  | .exclusive => applyFirst rules state line
  | .pipeline => applyAll rules state [line]

/-- What becomes of the lines of a page. -/
def applyLines (rules : List (Rule State)) (mode : Mode) (state : State) :
    List Text → State × List Text
  | [] => (state, [])
  | line :: rest =>
    let (state, emitted) := applyLine rules mode state line
    let (state, later) := applyLines rules mode state rest
    (state, emitted ++ later)

/-- Run the rules over a text. -/
def run (rules : List (Rule State)) (mode : Mode) (state : State) (text : Text) : State × Text :=
  let page := Lines.ofText text
  let (state, emitted) := applyLines rules mode state page.items
  (state, Lines.toText ⟨emitted, page.endsWithNewline⟩)

theorem applyLines_append (rules : List (Rule State)) (mode : Mode) (state : State)
    (earlier later : List Text) :
    applyLines rules mode state (earlier ++ later) =
      ((applyLines rules mode (applyLines rules mode state earlier).1 later).1,
        (applyLines rules mode state earlier).2 ++
          (applyLines rules mode (applyLines rules mode state earlier).1 later).2) := by
  induction earlier generalizing state with
  | nil => simp [applyLines]
  | cons line rest ih => simp [applyLines, ih]

theorem applyFirst_of_noMatch {rule : Rule State} {state after : State} {line : Text}
    (declines : rule.apply state line = (after, .noMatch)) (rest : List (Rule State)) :
    applyFirst (rule :: rest) state line = applyFirst rest after line := by
  simp only [applyFirst, declines]

theorem applyFirst_of_match {rule : Rule State} {state after : State} {line : Text}
    {verdict : Verdict} (decides : rule.apply state line = (after, verdict))
    (isMatch : verdict.isMatch) (rest : List (Rule State)) :
    applyFirst (rule :: rest) state line = (after, verdict.lines line) := by
  cases verdict with
  | noMatch => contradiction
  | passThrough | replace lines => simp only [applyFirst, decides]

theorem onLines_of_rejects {state : State} {line name : Text} {recognise : Text → Bool}
    {handler : State → Text → State × Verdict} (rejects : recognise line = false) :
    (onLines name recognise handler).apply state line = (state, .noMatch) := by
  simp only [onLines, rejects, Bool.false_eq_true, ↓reduceIte]

theorem onLine_of_rejects {Found : Type} {state : State} {line name : Text}
    {recognise : Text → Option Found} {handler : State → Text → Found → State × Verdict}
    (rejects : recognise line = none) :
    (onLine name recognise handler).apply state line = (state, .noMatch) := by
  simp only [onLine, rejects]

/-- Without rules a text stays as it is. -/
@[simp]
theorem run_nil (mode : Mode) (state : State) (text : Text) :
    run [] mode state text = (state, text) := by
  have kept : ∀ lines, applyLines ([] : List (Rule State)) mode state lines = (state, lines) := by
    intro lines
    induction lines with
    | nil => rfl
    | cons line rest ih => cases mode <;> simp [applyLines, applyLine, applyFirst, applyAll, ih]
  simp only [run, kept]
  exact congrArg _ (Lines.toText_ofText text)

end Rule

end LiterateMarkdown
