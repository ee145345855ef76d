import LiterateMarkdown.LineFilter
import LiterateMarkdown.Proofs.Fence.Pattern
import Mathlib.Data.List.Perm.Basic

/-!
# The order of the line filter's rules

No line is matched by two of the four patterns for fence lines. The rules for these patterns can
therefore be tried in any order: on every line all of them but one decline, whatever the scan has
seen, and that one may still decline and leave the line to the rule for the lines of a script.
-/

namespace LiterateMarkdown

namespace Rule

variable {State : Type} {line : Text} {first second : Rule State}

/-- The rule declines the line in every state, and leaves the state as it is. -/
def Rejects (rule : Rule State) (line : Text) : Prop :=
  ∀ state, rule.apply state line = (state, .noMatch)

theorem rejects_onLines {name : Text} {recognise : Text → Bool}
    {handler : State → Text → State × Verdict} (rejects : recognise line = false) :
    (onLines name recognise handler).Rejects line :=
  fun _ => onLines_of_rejects rejects

theorem rejects_onLine {Found : Type} {name : Text} {recognise : Text → Option Found}
    {handler : State → Text → Found → State × Verdict} (rejects : (recognise line).isSome = false) :
    (onLine name recognise handler).Rejects line :=
  fun _ => onLine_of_rejects (Option.isSome_eq_false_iff.mp rejects |> Option.isNone_iff_eq_none.mp)

theorem applyFirst_of_rejects (rejects : first.Rejects line) (rest : List (Rule State))
    (state : State) : applyFirst (first :: rest) state line = applyFirst rest state line :=
  applyFirst_of_noMatch (rejects state) rest

/-- Where the rules after a rule agree, the rules from it on agree. -/
theorem applyFirst_cons_congr {rest other : List (Rule State)}
    (agree : ∀ state, applyFirst rest state line = applyFirst other state line) (state : State) :
    applyFirst (first :: rest) state line = applyFirst (first :: other) state line := by
  rcases decided : first.apply state line with ⟨after, verdict⟩
  cases verdict with
  | noMatch => rw [applyFirst_of_noMatch decided, applyFirst_of_noMatch decided, agree]
  | passThrough | replace lines =>
    rw [applyFirst_of_match decided rfl, applyFirst_of_match decided rfl]

/-- A rule that rejects the line may come later. -/
theorem applyFirst_swap (rejects : first.Rejects line) (rest : List (Rule State)) (state : State) :
    applyFirst (first :: second :: rest) state line =
      applyFirst (second :: first :: rest) state line := by
  rw [applyFirst_of_rejects rejects]
  apply applyFirst_cons_congr
  intro after
  rw [applyFirst_of_rejects rejects]

/-- Rules of which all but one reject the line may be tried in any order. -/
theorem applyFirst_of_perm {rules other : List (Rule State)} (reorders : rules.Perm other)
    (exclusive : rules.Pairwise fun first second => first.Rejects line ∨ second.Rejects line)
    (rest : List (Rule State)) (state : State) :
    applyFirst (rules ++ rest) state line = applyFirst (other ++ rest) state line := by
  induction reorders generalizing state with
  | nil => rfl
  | cons rule _ ih => exact applyFirst_cons_congr (ih (List.pairwise_cons.mp exclusive).2) state
  | swap first second more =>
    rcases (List.pairwise_cons.mp exclusive).1 first List.mem_cons_self with rejects | rejects
    · exact applyFirst_swap rejects _ state
    · exact (applyFirst_swap rejects _ state).symm
  | trans firstHalf _ ih ihToo =>
    have stillExclusive := (firstHalf.pairwise_iff fun either => either.symm).mp exclusive
    exact (ih exclusive state).trans (ihToo stillExclusive state)

/-- Rules that agree on every line agree on every text. -/
theorem run_congr {rules other : List (Rule State)}
    (agree : ∀ state line, applyFirst rules state line = applyFirst other state line)
    (state : State) (text : Text) :
    run rules .exclusive state text = run other .exclusive state text := by
  have onLines : ∀ lines state, applyLines rules .exclusive state lines =
      applyLines other .exclusive state lines := by
    intro lines
    induction lines with
    | nil => exact fun _ => rfl
    | cons line rest ih =>
      intro state
      simp only [applyLines, applyLine, agree, ih]
  simp only [run, onLines]

/-! ## Rules by patterns -/

/-- A rule by a pattern is for the lines that the pattern matches. -/
theorem onPattern?_eq_onLines {pattern : Text} {recognise : Text → Bool}
    (isPattern : (Pattern.atStart? pattern).isSome)
    (recognises : ∀ line, (Pattern.matchStart? pattern line).isSome = recognise line) (name : Text)
    (handler : State → Text → State × Verdict) :
    onPattern? name pattern (fun state found => handler state found.line) =
      some (onLines name recognise handler) := by
  rcases Option.isSome_iff_exists.mp isPattern with ⟨found, isFound⟩
  simp only [Pattern.matchStart?, isFound, bind, Option.bind_some] at recognises
  rw [onPattern?, isFound, Option.map_some, onLine, onLines]
  congr 2
  funext state line
  rw [← recognises line, Pattern.matchLine?]
  cases found.regex.search? line <;> rfl

end Rule

namespace Fence

/-- The patterns of the four kinds of fence lines. -/
def patterns : List Text :=
  [verbatimStartPattern, verbatimEndPattern, openingPattern, closingPattern]

/-- No line is recognised as two of the four kinds. -/
theorem recognisers_exclusive (line : Text) :
    [startsVerbatim line, endsVerbatim line, (OpenFence.ofLine? line).isSome,
      isClosing line].Pairwise fun first second => first = false ∨ second = false := by
  have notOpening : isFence line = false → (OpenFence.ofLine? line).isSome = false := by
    intro noFence
    cases found : OpenFence.ofLine? line with
    | none => rfl
    | some fence =>
      rw [isFence_of_ofLine? found] at noFence
      contradiction
  have notClosing : isFence line = false → isClosing line = false := by
    intro noFence
    cases closes : isClosing line with
    | false => rfl
    | true =>
      rw [isFence_of_isClosing closes] at noFence
      contradiction
  simp only [List.pairwise_cons, List.mem_cons, List.not_mem_nil, or_false, forall_eq_or_imp,
    forall_eq, false_imp_iff, implies_true, List.Pairwise.nil, and_true]
  refine ⟨?_, ?_, ?_⟩
  · cases starts : startsVerbatim line with
    | false => simp
    | true =>
      have noFence := not_isFence_of_startsVerbatim starts
      simp [not_endsVerbatim_of_startsVerbatim starts, notOpening noFence, notClosing noFence]
  · cases ends : endsVerbatim line with
    | false => simp
    | true =>
      have noFence := not_isFence_of_endsVerbatim ends
      simp [notOpening noFence, notClosing noFence]
  · cases found : OpenFence.ofLine? line with
    | none => simp
    | some fence => simp [not_isClosing_of_ofLine? found]

theorem patterns_exclusive (line : Text) :
    patterns.Pairwise fun first second =>
      ¬ ((Pattern.matchStart? first line).isSome ∧ (Pattern.matchStart? second line).isSome) := by
  have isOpening : (Pattern.matchStart? openingPattern line).isSome =
      (OpenFence.ofLine? line).isSome := by
    rw [matchStart?_openingPattern_eq, Option.isSome_map]
  have areRecognised : patterns.map (fun pattern => (Pattern.matchStart? pattern line).isSome) =
      [startsVerbatim line, endsVerbatim line, (OpenFence.ofLine? line).isSome,
        isClosing line] := by
    simp only [patterns, List.map_cons, List.map_nil, isSome_matchStart?_verbatimStartPattern,
      isSome_matchStart?_verbatimEndPattern, isSome_matchStart?_closingPattern, isOpening]
  have exclusive := recognisers_exclusive line
  rw [← areRecognised, List.pairwise_map] at exclusive
  apply exclusive.imp
  rintro first second (isNone | isNone) ⟨matchesFirst, matchesSecond⟩
  · exact Bool.false_ne_true (isNone.symm.trans matchesFirst)
  · exact Bool.false_ne_true (isNone.symm.trans matchesSecond)

end Fence

namespace LineFilter

variable {World : Type}

/-- The rules for fence lines are the rules by the four patterns. -/
theorem onPattern?_rules (options : FilterOptions) (runner : BuildRunner World) :
    [ Rule.onPattern? "start_ignore".toList Fence.verbatimStartPattern fun state found =>
        startIgnore state found.line,
      Rule.onPattern? "stop_ignore".toList Fence.verbatimEndPattern fun state found =>
        stopIgnore state found.line,
      Rule.onPattern? "open_code_block".toList Fence.openingPattern fun state found =>
        openCodeBlock options state found.line (OpenFence.ofMatch found),
      Rule.onPattern? "close_code_block".toList Fence.closingPattern fun state found =>
        closeCodeBlock options runner state found.line ] =
      ((rules options runner).take 4).map some := by
  have opening : (Rule.onPattern? "open_code_block".toList Fence.openingPattern fun state found =>
      openCodeBlock options state found.line (OpenFence.ofMatch found)) =
        some (Rule.onLine "open_code_block".toList OpenFence.ofLine?
          (@openCodeBlock World options)) := by
    rw [Rule.onPattern?, Fence.atStart?_openingPattern, Option.map_some, Rule.onLine, Rule.onLine]
    congr 2
    funext state line
    have found := Fence.matchStart?_openingPattern_eq line
    rw [Pattern.matchStart?, Fence.atStart?_openingPattern] at found
    change Pattern.matchLine? _ line = _ at found
    rw [found]
    cases OpenFence.ofLine? line <;> rfl
  rw [Rule.onPattern?_eq_onLines (by rw [Fence.atStart?_verbatimStartPattern]; rfl)
      Fence.isSome_matchStart?_verbatimStartPattern,
    Rule.onPattern?_eq_onLines (by rw [Fence.atStart?_verbatimEndPattern]; rfl)
      Fence.isSome_matchStart?_verbatimEndPattern,
    Rule.onPattern?_eq_onLines (by rw [Fence.atStart?_closingPattern]; rfl)
      Fence.isSome_matchStart?_closingPattern, opening]
  rfl

theorem pairwise_rejects (options : FilterOptions) (runner : BuildRunner World) (line : Text) :
    ((rules options runner).take 4).Pairwise fun first second =>
      first.Rejects line ∨ second.Rejects line := by
  have exclusive := Fence.recognisers_exclusive line
  simp only [rules, List.take_succ_cons, List.take_zero, List.pairwise_cons, List.mem_cons,
    List.not_mem_nil, or_false, forall_eq_or_imp, forall_eq, false_imp_iff, implies_true,
    List.Pairwise.nil, and_true] at exclusive ⊢
  rcases exclusive with ⟨⟨startEnd, startOpening, startClosing⟩, ⟨endOpening, endClosing⟩,
    openingClosing⟩
  refine ⟨⟨?_, ?_, ?_⟩, ⟨?_, ?_⟩, ?_⟩
  · exact startEnd.imp Rule.rejects_onLines Rule.rejects_onLines
  · exact startOpening.imp Rule.rejects_onLines Rule.rejects_onLine
  · exact startClosing.imp Rule.rejects_onLines Rule.rejects_onLines
  · exact endOpening.imp Rule.rejects_onLines Rule.rejects_onLine
  · exact endClosing.imp Rule.rejects_onLines Rule.rejects_onLines
  · exact openingClosing.imp Rule.rejects_onLine Rule.rejects_onLines

/--
No line is matched by two of the patterns for fence lines, and so the rules for fence lines may be
tried in any order: the page, the scan and the world of the runner, with all scripts that it was
handed, are the same.
-/
theorem patterns_exclusive_and_run_of_perm :
    (∀ line, Fence.patterns.Pairwise fun first second =>
      ¬ ((Pattern.matchStart? first line).isSome ∧ (Pattern.matchStart? second line).isSome)) ∧
    ∀ {World : Type} (options : FilterOptions) (runner : BuildRunner World)
      (order : List (Rule (State World))), order.Perm ((rules options runner).take 4) →
      ∀ (state : State World) (page : Text),
        Rule.run (order ++ (rules options runner).drop 4) .exclusive state page =
          run options runner state page := by
  refine ⟨Fence.patterns_exclusive, ?_⟩
  intro World options runner order reorders state page
  have agree : ∀ state line,
      Rule.applyFirst (order ++ (rules options runner).drop 4) state line =
        Rule.applyFirst (rules options runner) state line := by
    intro state line
    have exclusive := (reorders.pairwise_iff fun either => either.symm).mpr
      (pairwise_rejects options runner line)
    rw [Rule.applyFirst_of_perm reorders exclusive, List.take_append_drop]
  exact Rule.run_congr agree state page

/-- Tried in the opposite order, the rules hand over the script of a build artifact all the same. -/
theorem patterns_exclusive_and_run_of_perm_reversed :
    let options : FilterOptions := { buildArtifacts := true, closingFence := .suppress }
    let page := "a\n~~~markdown\n```\n~~~\n``` \x7b.build-artifact\x7d\nall:\n```\n".toList
    let fences := (rules options BuildRunner.idle.noting).take 4
    let ran := Rule.run (fences.reverse ++ (rules options BuildRunner.idle.noting).drop 4)
      .exclusive (.initial ([], ())) page
    fences.reverse.Perm fences ∧
      (ran.1.scan, ran.1.world, ran.2) =
        ({ scriptProperties := [.className "build-artifact".toList] }, (["all:".toList], ()),
          "a\n~~~markdown\n```\n~~~\n".toList) := by
  intro options page fences ran
  refine ⟨List.reverse_perm _, ?_⟩
  have sameRun : ran = run options BuildRunner.idle.noting (.initial ([], ())) page :=
    patterns_exclusive_and_run_of_perm.2 options BuildRunner.idle.noting _ (List.reverse_perm _) _ _
  rw [sameRun]
  decide +kernel

end LineFilter

end LiterateMarkdown
