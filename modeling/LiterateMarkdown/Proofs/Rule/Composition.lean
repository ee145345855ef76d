import LiterateMarkdown.Proofs.Text.Lines
import LiterateMarkdown.Rule.Basic

/-!
# Runs in parts

A run of rules can be cut in two ways.

Cut across the text, after a newline, the second run goes on in the state that the first one left.
The states agree for every cut, and the texts that are written do unless a part is erased as a
whole: its lines are gone then, but the newline that ends it is written all the same (`run_append`).

Cut between the rules, in pipeline mode, the second run reads what the first one wrote. Each rule
sees the lines in the same order in both ways, but not in between the same lines, so this holds of
rules whose verdicts do not hang on the state. What they leave of some lines is then a function of
the lines that can be taken rule by rule or line by line (`leaves`), and the text in the middle is
read as the lines it was written from (`run_pipeline_append`).
-/

namespace LiterateMarkdown

namespace Text

theorem join_append {separator : Text} {first second : List Text} (firstNonempty : first ≠ [])
    (secondNonempty : second ≠ []) :
    join separator (first ++ second) =
      join separator first ++ separator ++ join separator second := by
  induction first with
  | nil => contradiction
  | cons piece more ih =>
    rcases List.exists_cons_of_ne_nil secondNonempty with ⟨next, rest, rfl⟩
    cases more with
    | nil => rfl
    | cons following more =>
      have joined := ih (List.cons_ne_nil following more)
      simp only [List.cons_append, join] at joined ⊢
      rw [joined]
      simp only [List.append_assoc]

end Text

namespace Rule

variable {State : Type}

/-! ## A text in two parts -/

/-- The lines that a run over a text writes. -/
def emitted (rules : List (Rule State)) (mode : Mode) (state : State) (text : Text) : List Text :=
  (applyLines rules mode state (Lines.ofText text).items).2

theorem run_eq_emitted (rules : List (Rule State)) (mode : Mode) (state : State) (text : Text) :
    run rules mode state text =
      ((applyLines rules mode state (Lines.ofText text).items).1,
        Lines.toText ⟨emitted rules mode state text, (Lines.ofText text).endsWithNewline⟩) :=
  rfl

theorem applyLines_ofText_append (rules : List (Rule State)) (mode : Mode) (state : State)
    {first : Text} (ended : first.getLast? = some '\n') (second : Text) :
    applyLines rules mode state (Lines.ofText (first ++ second)).items =
      ((run rules mode (run rules mode state first).1 second).1,
        emitted rules mode state first ++
          emitted rules mode (run rules mode state first).1 second) := by
  have parts : (Lines.ofText (first ++ second)).items =
      (Lines.ofText first).items ++ (Lines.ofText second).items :=
    Lines.split_append (.inr ended) second
  rw [parts, applyLines_append]
  rfl

/-- Lines that are written in two parts make the text that they make together. -/
theorem toText_append_toText {first second : List Text} (firstNonempty : first ≠ [])
    (secondNonempty : second ≠ []) (endsWithNewline : Bool) :
    Lines.toText ⟨first, true⟩ ++ Lines.toText ⟨second, endsWithNewline⟩ =
      Lines.toText ⟨first ++ second, endsWithNewline⟩ := by
  simp only [Lines.toText, ↓reduceIte]
  rw [Text.join_append firstNonempty secondNonempty]
  simp only [List.append_assoc]

/--
A text may be run over in two parts, the first of which ends in a newline. This leaves the state
that a run over the whole leaves. If the first part writes lines, and the second one does too or is
empty, then both together write what the whole does.
-/
theorem run_append (rules : List (Rule State)) (mode : Mode) (state : State) {first : Text}
    (ended : first.getLast? = some '\n') (second : Text) :
    (run rules mode (run rules mode state first).1 second).1 =
        (run rules mode state (first ++ second)).1 ∧
      (emitted rules mode state first ≠ [] →
        second = [] ∨ emitted rules mode (run rules mode state first).1 second ≠ [] →
        (run rules mode state first).2 ++ (run rules mode (run rules mode state first).1 second).2 =
          (run rules mode state (first ++ second)).2) := by
  have whole := applyLines_ofText_append rules mode state ended second
  constructor
  · simp only [run_eq_emitted rules mode state (first ++ second), whole]
  · intro firstWrites secondWrites
    have firstEnds : (Lines.ofText first).endsWithNewline = true := by simp [Lines.ofText, ended]
    rcases secondWrites with rfl | secondWrites
    · rw [List.append_nil]
      exact List.append_nil _
    · have nonempty : second ≠ [] := by
        rintro rfl
        exact secondWrites rfl
      have sameEnd : (Lines.ofText (first ++ second)).endsWithNewline =
          (Lines.ofText second).endsWithNewline := by
        rcases List.getLast?_isSome.mpr nonempty |> Option.isSome_iff_exists.mp with ⟨last, isLast⟩
        simp [Lines.ofText, List.getLast?_append, isLast]
      have wholeEmitted : emitted rules mode state (first ++ second) =
          emitted rules mode state first ++
            emitted rules mode (run rules mode state first).1 second :=
        congrArg Prod.snd whole
      rw [run_eq_emitted rules mode state (first ++ second), wholeEmitted, sameEnd]
      rw [run_eq_emitted rules mode state first, firstEnds]
      exact toText_append_toText firstWrites secondWrites _

/-- Rules that remove the lines from one mark to another one, marks included. -/
def betweenMarks : List (Rule Bool) :=
  [ .onLines "open".toList (· = "begin".toList) fun _ _ => (true, .erase),
    .onLines "close".toList (· = "end".toList) fun _ _ => (false, .erase),
    .always "hide".toList fun hidden _ => (hidden, if hidden then .erase else .noMatch) ]

/-- The text may be parted between the marks. -/
theorem run_append_betweenMarks :
    ∃ first second,
      first = "a\nbegin\nb\n".toList ∧ second = "c\nend\nd".toList ∧
      first.getLast? = some '\n' ∧
      emitted betweenMarks .exclusive false first = ["a".toList] ∧
      emitted betweenMarks .exclusive (run betweenMarks .exclusive false first).1 second =
        ["d".toList] ∧
      (run betweenMarks .exclusive (run betweenMarks .exclusive false first).1 second).1 =
        (run betweenMarks .exclusive false (first ++ second)).1 ∧
      (run betweenMarks .exclusive false first).2 ++
          (run betweenMarks .exclusive (run betweenMarks .exclusive false first).1 second).2 =
        (run betweenMarks .exclusive false (first ++ second)).2 := by
  generalize isFirst : "a\nbegin\nb\n".toList = first
  generalize isSecond : "c\nend\nd".toList = second
  have ended : first.getLast? = some '\n' := by
    subst isFirst
    decide +kernel
  have firstWrites : emitted betweenMarks .exclusive false first = ["a".toList] := by
    subst isFirst
    decide +kernel
  have secondWrites : emitted betweenMarks .exclusive
      (run betweenMarks .exclusive false first).1 second = ["d".toList] := by
    subst isFirst isSecond
    decide +kernel
  rcases run_append betweenMarks .exclusive false ended second with ⟨sameState, sameText⟩
  refine ⟨first, second, rfl, rfl, ended, firstWrites, secondWrites, sameState, ?_⟩
  apply sameText
  · rw [firstWrites]
    exact List.cons_ne_nil _ _
  · right
    rw [secondWrites]
    exact List.cons_ne_nil _ _

/-- A part that is erased as a whole writes the newline at its end, which the whole does not. -/
example :
    (run betweenMarks .exclusive true "a\n".toList).2 = "\n".toList ∧
      (run betweenMarks .exclusive true "end\nb\n".toList).2 = "b\n".toList ∧
      (run betweenMarks .exclusive true "a\nend\nb\n".toList).2 = "b\n".toList := by
  decide +kernel

/-! ## Rules in two stages -/

/-- The verdict on a line does not hang on the state. -/
def IsStateless (rule : Rule State) : Prop :=
  ∀ state other line, (rule.apply state line).2 = (rule.apply other line).2

/-- What is put in place of a line is lines, if it was one. -/
def ReplacesByLines (rule : Rule State) : Prop :=
  ∀ state line replacement, '\n' ∉ line → (rule.apply state line).2 = .replace replacement →
    ∀ replaced ∈ replacement, '\n' ∉ replaced

/-- What rules leave of some lines, if each verdict is given in the same state. -/
def leaves (state : State) (rules : List (Rule State)) (lines : List Text) : List Text :=
  rules.foldl
    (fun lines rule => lines.flatMap fun line => (rule.apply state line).2.lines line) lines

theorem leaves_cons (state : State) (rule : Rule State) (rules : List (Rule State))
    (lines : List Text) :
    leaves state (rule :: rules) lines =
      leaves state rules (lines.flatMap fun line => (rule.apply state line).2.lines line) :=
  rfl

/-- The rules of a second stage see what the first stage left. -/
theorem leaves_append (state : State) (first second : List (Rule State)) (lines : List Text) :
    leaves state (first ++ second) lines = leaves state second (leaves state first lines) :=
  List.foldl_append

@[simp]
theorem leaves_nil (state : State) (rules : List (Rule State)) : leaves state rules [] = [] := by
  induction rules with
  | nil => rfl
  | cons rule rules ih => exact ih

/-- What is left of some lines is left of each of them by itself. -/
theorem leaves_append_lines (state : State) (rules : List (Rule State))
    (earlier later : List Text) :
    leaves state rules (earlier ++ later) =
      leaves state rules earlier ++ leaves state rules later := by
  induction rules generalizing earlier later with
  | nil => rfl
  | cons rule rules ih => rw [leaves_cons, List.flatMap_append, ih, ← leaves_cons, ← leaves_cons]

theorem applyEach_of_isStateless {rule : Rule State} (isStateless : rule.IsStateless)
    (state other : State) (lines : List Text) :
    (applyEach rule state lines).2 =
      lines.flatMap fun line => (rule.apply other line).2.lines line := by
  induction lines generalizing state with
  | nil => rfl
  | cons line rest ih =>
    rw [applyEach, List.flatMap_cons, isStateless other state line]
    exact congrArg (_ ++ ·) (ih _)

theorem applyAll_of_isStateless {rules : List (Rule State)}
    (areStateless : ∀ rule ∈ rules, rule.IsStateless) (state other : State) (lines : List Text) :
    (applyAll rules state lines).2 = leaves other rules lines := by
  induction rules generalizing state lines with
  | nil => rfl
  | cons rule rules ih =>
    rw [List.forall_mem_cons] at areStateless
    rw [leaves_cons, ← applyEach_of_isStateless areStateless.1 state other lines]
    exact ih areStateless.2 _ _

/-- In pipeline mode rules without state leave of a page what they leave of its lines together. -/
theorem applyLines_of_isStateless {rules : List (Rule State)}
    (areStateless : ∀ rule ∈ rules, rule.IsStateless) (state other : State) (lines : List Text) :
    (applyLines rules .pipeline state lines).2 = leaves other rules lines := by
  induction lines generalizing state with
  | nil => exact (leaves_nil other rules).symm
  | cons line rest ih =>
    rw [applyLines, ← List.singleton_append, leaves_append_lines,
      ← applyAll_of_isStateless areStateless state other [line]]
    exact congrArg (_ ++ ·) (ih _)

theorem newline_not_mem_leaves {state : State} {rules : List (Rule State)}
    (replaceByLines : ∀ rule ∈ rules, rule.ReplacesByLines) {lines : List Text}
    (areLines : ∀ line ∈ lines, '\n' ∉ line) : ∀ line ∈ leaves state rules lines, '\n' ∉ line := by
  induction rules generalizing lines with
  | nil => exact areLines
  | cons rule rules ih =>
    rw [List.forall_mem_cons] at replaceByLines
    rw [leaves_cons]
    apply ih replaceByLines.2
    intro left isLeft
    rcases List.mem_flatMap.mp isLeft with ⟨line, isLine, isLeft⟩
    cases verdict : (rule.apply state line).2 with
    | noMatch | passThrough =>
      rw [verdict, Verdict.lines, List.mem_singleton] at isLeft
      rw [isLeft]
      exact areLines line isLine
    | replace replacement =>
      rw [verdict, Verdict.lines] at isLeft
      exact replaceByLines.1 state line replacement (areLines line isLine) verdict left isLeft

/--
In pipeline mode, rules whose verdicts do not hang on the state may be run in two stages, the second
of which reads what the first one wrote: on a text that ends in a newline, if the rules of the first
stage leave a line of it and replace lines by lines, the stages write what all rules together do.
-/
theorem run_pipeline_append {first second : List (Rule State)}
    (firstStateless : ∀ rule ∈ first, rule.IsStateless)
    (secondStateless : ∀ rule ∈ second, rule.IsStateless)
    (replaceByLines : ∀ rule ∈ first, rule.ReplacesByLines) {text : Text}
    (ended : text.getLast? = some '\n') (state earlier later : State)
    (writes : emitted first .pipeline earlier text ≠ []) :
    (run (first ++ second) .pipeline state text).2 =
      (run second .pipeline later (run first .pipeline earlier text).2).2 := by
  have areStateless : ∀ rule ∈ first ++ second, rule.IsStateless := by
    intro rule isRule
    rcases List.mem_append.mp isRule with inFirst | inSecond
    · exact firstStateless rule inFirst
    · exact secondStateless rule inSecond
  have endsWithNewline : (Lines.ofText text).endsWithNewline = true := by
    simp [Lines.ofText, ended]
  have areLines : ∀ line ∈ (Lines.ofText text).items, '\n' ∉ line :=
    fun _ => Lines.newline_not_mem_of_mem_split
  have middle : emitted first .pipeline earlier text =
      leaves state first (Lines.ofText text).items :=
    applyLines_of_isStateless firstStateless earlier state _
  have middleRead : Lines.ofText (run first .pipeline earlier text).2 =
      ⟨emitted first .pipeline earlier text, true⟩ := by
    rw [run_eq_emitted, endsWithNewline]
    apply Lines.ofText_toText
    refine ⟨?_, fun _ => writes, ?_⟩
    · rw [middle]
      exact newline_not_mem_leaves replaceByLines areLines
    · exact fun unended => Bool.noConfusion unended
  have inStages : emitted (first ++ second) .pipeline state text =
      emitted second .pipeline later (run first .pipeline earlier text).2 := by
    calc
      _ = leaves state (first ++ second) (Lines.ofText text).items :=
        applyLines_of_isStateless areStateless state state _
      _ = leaves state second (emitted first .pipeline earlier text) := by
        rw [leaves_append, middle]
      _ = (applyLines second .pipeline later (emitted first .pipeline earlier text)).2 :=
        (applyLines_of_isStateless secondStateless later state _).symm
      _ = _ :=
        congrArg (fun page : Lines => (applyLines second .pipeline later page.items).2)
          middleRead.symm
  rw [run_eq_emitted (first ++ second), run_eq_emitted second, inStages, endsWithNewline,
    middleRead]

/-- A rule that doubles a line, and counts how often it did. -/
def doubling : Rule Nat :=
  .onLines "double".toList (· = "dup".toList) fun count line => (count + 1, .replace [line, line])

/-- A rule that removes a line, and counts how often it did. -/
def deleting : Rule Nat :=
  .onLines "delete".toList (· = "del".toList) fun count _ => (count + 1, .erase)

/-- A rule that quotes every line. -/
def quoting : Rule Nat :=
  .always "quote".toList fun count line => (count, .replace ['>' :: line])

theorem isStateless_doubling : doubling.IsStateless := by
  intro state other line
  simp only [doubling, onLines]
  split <;> rfl

theorem isStateless_deleting : deleting.IsStateless := by
  intro state other line
  simp only [deleting, onLines]
  split <;> rfl

/-- Lines that the first stage doubles are quoted in the second one, and none of them is lost. -/
theorem run_pipeline_append_quoting :
    ∃ text,
      text = "dup\ndel\nx\n".toList ∧
      (∀ rule ∈ [doubling, deleting], rule.IsStateless ∧ rule.ReplacesByLines) ∧
      (∀ rule ∈ [quoting, deleting], rule.IsStateless) ∧
      emitted [doubling, deleting] .pipeline 7 text ≠ [] ∧
      (run ([doubling, deleting] ++ [quoting, deleting]) .pipeline 0 text).2 =
        (run [quoting, deleting] .pipeline 9 (run [doubling, deleting] .pipeline 7 text).2).2 := by
  have quotingStateless : quoting.IsStateless := fun _ _ _ => rfl
  have doublingLines : doubling.ReplacesByLines := by
    intro state line replacement isLine verdict
    simp only [doubling, onLines] at verdict
    split at verdict
    · cases verdict
      simpa using isLine
    · contradiction
  have deletingLines : deleting.ReplacesByLines := by
    intro state line replacement isLine verdict
    simp only [deleting, onLines, Verdict.erase] at verdict
    split at verdict
    · cases verdict
      simp
    · contradiction
  have first : ∀ rule ∈ [doubling, deleting], rule.IsStateless ∧ rule.ReplacesByLines := by
    simp only [List.forall_mem_cons]
    exact ⟨⟨isStateless_doubling, doublingLines⟩, ⟨isStateless_deleting, deletingLines⟩, by simp⟩
  have second : ∀ rule ∈ [quoting, deleting], rule.IsStateless := by
    simp only [List.forall_mem_cons]
    exact ⟨quotingStateless, isStateless_deleting, by simp⟩
  have writes : emitted [doubling, deleting] .pipeline 7 "dup\ndel\nx\n".toList ≠ [] := by
    decide +kernel
  exact ⟨_, rfl, first, second, writes,
    run_pipeline_append (fun rule isRule => (first rule isRule).1) second
      (fun rule isRule => (first rule isRule).2) (by decide +kernel) 0 7 9 writes⟩

end Rule

end LiterateMarkdown
