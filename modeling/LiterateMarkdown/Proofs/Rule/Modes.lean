import LiterateMarkdown.Proofs.Rule.Composition

/-!
# Both modes

In exclusive mode the first rule that does not decline a line has the last word on it. In pipeline
mode the rules after it see what it put there, so the modes can differ only where one of these rules
replaces such a line. Where none does (`Rule.IsSettledByFirst`), and the verdicts do not hang on the
state, both modes write the same text (`Rule.run_exclusive_eq_run_pipeline`).
-/

namespace LiterateMarkdown

theorem Verdict.isMatch_of_ne_noMatch {verdict : Verdict} (applies : verdict ≠ .noMatch) :
    verdict.isMatch = true := by
  cases verdict with
  | noMatch => contradiction
  | passThrough | replace lines => rfl

namespace Rule

variable {State : Type}

/-- The rule leaves a line where it is: it declines it, or keeps it. -/
def Keeps (rule : Rule State) (state : State) (line : Text) : Prop :=
  (rule.apply state line).2 = .noMatch ∨ (rule.apply state line).2 = .passThrough

/-- What the first rule that does not decline the line puts in its place is left by all rules after
this one. -/
def IsSettledByFirst (rules : List (Rule State)) (state : State) (line : Text) : Prop :=
  ∀ earlier first later, rules = earlier ++ first :: later →
    (∀ rule ∈ earlier, (rule.apply state line).2 = .noMatch) →
    (first.apply state line).2 ≠ .noMatch →
    ∀ produced ∈ (first.apply state line).2.lines line, ∀ rule ∈ later, rule.Keeps state produced

theorem lines_of_keeps {rule : Rule State} {state : State} {line : Text}
    (keeps : rule.Keeps state line) : (rule.apply state line).2.lines line = [line] := by
  rcases keeps with declines | passes
  · rw [declines, Verdict.lines]
  · rw [passes, Verdict.lines]

/-- Either the first rule of a list declines the line, or what it puts there stays. -/
theorem isSettledByFirst_cons {rule : Rule State} {rules : List (Rule State)} {state : State}
    {line : Text} :
    IsSettledByFirst (rule :: rules) state line ↔
      if (rule.apply state line).2 = .noMatch then IsSettledByFirst rules state line
      else ∀ produced ∈ (rule.apply state line).2.lines line,
        ∀ next ∈ rules, next.Keeps state produced := by
  split
  · rename_i declines
    constructor
    · intro settled earlier first later parts earlierDecline
      apply settled (rule :: earlier) first later (congrArg (rule :: ·) parts)
      exact List.forall_mem_cons.mpr ⟨declines, earlierDecline⟩
    · intro settled earlier first later parts earlierDecline applies
      rcases List.cons_eq_append_iff.mp parts with ⟨rfl, isFirst⟩ | ⟨more, rfl, parts⟩
      · cases isFirst
        exact absurd declines applies
      · rw [List.forall_mem_cons] at earlierDecline
        exact settled more first later (List.cons.inj parts).2 earlierDecline.2 applies
  · rename_i applies
    constructor
    · intro settled
      exact settled [] rule rules rfl (by simp) applies
    · intro stays earlier first later parts earlierDecline _
      rcases List.cons_eq_append_iff.mp parts with ⟨rfl, isFirst⟩ | ⟨more, rfl, parts⟩
      · cases isFirst
        exact stays
      · cases (List.cons.inj parts).1
        exact absurd (List.forall_mem_cons.mp earlierDecline).1 applies

/-- Rules that leave every line where it is leave all lines as they are. -/
theorem leaves_of_keeps {state : State} {rules : List (Rule State)} {lines : List Text}
    (keep : ∀ line ∈ lines, ∀ rule ∈ rules, rule.Keeps state line) :
    leaves state rules lines = lines := by
  induction rules with
  | nil => rfl
  | cons rule rules ih =>
    have kept : (lines.flatMap fun line => (rule.apply state line).2.lines line) = lines := by
      have sameLines : lines.map (fun line => (rule.apply state line).2.lines line) =
          lines.map fun line => [line] := by
        apply List.map_congr_left
        intro line isLine
        exact lines_of_keeps (keep line isLine rule List.mem_cons_self)
      rw [List.flatMap_def, sameLines, ← List.flatMap_def, List.flatMap_singleton']
    rw [leaves_cons, kept]
    exact ih fun line isLine next isNext => keep line isLine next (List.mem_cons_of_mem rule isNext)

/-- The verdict of the first rule that does not decline the line is what all rules leave of it. -/
theorem applyFirst_of_isSettledByFirst {rules : List (Rule State)}
    (areStateless : ∀ rule ∈ rules, rule.IsStateless) {other : State} {line : Text}
    (settled : IsSettledByFirst rules other line) (state : State) :
    (applyFirst rules state line).2 = leaves other rules [line] := by
  induction rules generalizing state with
  | nil => rfl
  | cons rule rules ih =>
    rw [List.forall_mem_cons] at areStateless
    rw [isSettledByFirst_cons] at settled
    have decides : rule.apply state line =
        ((rule.apply state line).1, (rule.apply other line).2) :=
      Prod.ext rfl (areStateless.1 state other line)
    rw [leaves_cons, List.flatMap_singleton]
    by_cases declines : (rule.apply other line).2 = .noMatch
    · rw [if_pos declines] at settled
      rw [declines] at decides
      rw [applyFirst_of_noMatch decides, declines]
      exact ih areStateless.2 settled _
    · rw [if_neg declines] at settled
      rw [leaves_of_keeps settled,
        applyFirst_of_match decides (Verdict.isMatch_of_ne_noMatch declines)]

theorem applyLines_exclusive_of_isSettledByFirst {rules : List (Rule State)}
    (areStateless : ∀ rule ∈ rules, rule.IsStateless) {other : State} {lines : List Text}
    (settled : ∀ line ∈ lines, IsSettledByFirst rules other line) (state : State) :
    (applyLines rules .exclusive state lines).2 = leaves other rules lines := by
  induction lines generalizing state with
  | nil => exact (leaves_nil other rules).symm
  | cons line rest ih =>
    rw [List.forall_mem_cons] at settled
    rw [applyLines, ← List.singleton_append, leaves_append_lines,
      ← applyFirst_of_isSettledByFirst areStateless settled.1 state]
    exact congrArg (_ ++ ·) (ih settled.2 _)

/--
Rules whose verdicts do not hang on the state write the same text in both modes, if what the first
rule that does not decline a line puts in its place is left by all rules after it.
-/
theorem run_exclusive_eq_run_pipeline {rules : List (Rule State)}
    (areStateless : ∀ rule ∈ rules, rule.IsStateless) {text : Text} {asked : State}
    (settled : ∀ line ∈ (Lines.ofText text).items, IsSettledByFirst rules asked line)
    (state other : State) :
    (run rules .exclusive state text).2 = (run rules .pipeline other text).2 := by
  have sameLines : emitted rules .exclusive state text = emitted rules .pipeline other text := by
    calc
      _ = leaves asked rules (Lines.ofText text).items :=
        applyLines_exclusive_of_isSettledByFirst areStateless settled state
      _ = _ := (applyLines_of_isStateless areStateless other asked _).symm
  rw [run_eq_emitted, run_eq_emitted, sameLines]

/-- A rule that keeps every line. -/
def keeping : Rule Nat :=
  .always "keep".toList fun count _ => (count, .passThrough)

/-- Lines that are doubled, removed and kept, none of which a later rule replaces. -/
theorem run_exclusive_eq_run_pipeline_doubling :
    ∃ text,
      text = "dup\ndel\nx".toList ∧
      (∀ rule ∈ [doubling, deleting, keeping], rule.IsStateless) ∧
      (∀ line ∈ (Lines.ofText text).items,
        IsSettledByFirst [doubling, deleting, keeping] 3 line) ∧
      (run [doubling, deleting, keeping] .exclusive 0 text).2 = "dup\ndup\nx".toList ∧
      (run [doubling, deleting, keeping] .exclusive 0 text).2 =
        (run [doubling, deleting, keeping] .pipeline 7 text).2 := by
  have stateless : ∀ rule ∈ [doubling, deleting, keeping], rule.IsStateless := by
    simp only [List.forall_mem_cons]
    exact ⟨isStateless_doubling, isStateless_deleting, fun _ _ _ => rfl, by simp⟩
  have lines : (Lines.ofText "dup\ndel\nx".toList).items =
      ["dup".toList, "del".toList, "x".toList] := by
    decide +kernel
  have settled : ∀ line ∈ (Lines.ofText "dup\ndel\nx".toList).items,
      IsSettledByFirst [doubling, deleting, keeping] 3 line := by
    rw [lines]
    simp [isSettledByFirst_cons, doubling, deleting, keeping, onLines, always,
      Verdict.lines, Verdict.erase, Keeps]
  exact ⟨_, rfl, stateless, settled, by decide +kernel,
    run_exclusive_eq_run_pipeline stateless settled 0 7⟩

/-- A later rule that replaces what an earlier one put there shows in pipeline mode only. -/
example :
    (run [doubling, quoting] .exclusive 0 "dup".toList).2 = "dup\ndup".toList ∧
      (run [doubling, quoting] .pipeline 0 "dup".toList).2 = ">dup\n>dup".toList := by
  decide +kernel

end Rule

end LiterateMarkdown
