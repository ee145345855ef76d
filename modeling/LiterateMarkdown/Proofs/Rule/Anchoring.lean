import LiterateMarkdown.Proofs.Regex.Steps
import LiterateMarkdown.Rule.Pattern
import Mathlib

/-!
# Rules for the beginning of a line

A rule by a pattern is meant for the lines that the pattern matches from their beginning on. To this
end the text of the pattern is put in a group behind the mark of a beginning, and that is read as a
pattern. If the group ends with the text, then the rule is as it is meant to be.

It need not end there. The parenthesis behind the text is lost in a comment at the end of the text,
and a pattern is refused (`Pattern.EndsOpen`). Or the text has a parenthesis of its own that closes
the group: it is no pattern then, but may be taken for one, and what stands behind that parenthesis
is no longer held to the beginning of a line (`Pattern.ClosesEarly`). Where the syntax makes no
difference, the limits of the library may, as the group adds to the size of the pattern
(`Pattern.CrossesLimit`). For every library and every text it is one of these, or the rule is as it
is meant to be (`Rule.isAnchored_iff`).
-/

namespace LiterateMarkdown

namespace Regex

open PatternReader

variable {Answer : Type}

/-- What is read from a group with a mark of the beginning of the text before it. -/
def atTextStart (body : Regex) : Regex :=
  concatReversed [some body, some (.anchor .textStart)]

theorem matchFrom_atTextStart (body : Regex) (next : Continuation Answer) :
    matchFrom (atTextStart body) next = matchFrom (.anchor .textStart) (matchFrom body next) := by
  cases body <;> rfl

/-- What is tied to the beginning of a text is found there or nowhere. -/
theorem search?_atTextStart (body : Regex) (text : Text) :
    (atTextStart body).search? text = body.matchAt? { before := none, rest := text } := by
  have nowhereLater : ∀ c rest, (atTextStart body).searchFrom? (some c) rest = none := by
    intro c rest
    induction rest generalizing c with
    | nil =>
      rw [searchFrom?, matchAt?, matchFrom_atTextStart]
      rfl
    | cons next rest ih =>
      rw [searchFrom?, matchAt?, matchFrom_atTextStart]
      exact ih next
  have atStart : (atTextStart body).matchAt? { before := none, rest := text } =
      body.matchAt? { before := none, rest := text } := by
    rw [matchAt?, matchFrom_atTextStart]
    rfl
  rw [search?, searchFrom?.eq_def, atStart]
  cases body.matchAt? { before := none, rest := text } with
  | some captures => rfl
  | none =>
    cases text with
    | nil => rfl
    | cons c rest => exact nowhereLater c rest

end Regex

namespace Pattern

open PatternReader

variable [library : PatternLibrary]

/-- The text has the syntax of a pattern. -/
def IsRead (text : Text) : Prop :=
  (read? text).isSome

instance (text : Text) : Decidable (IsRead text) :=
  inferInstanceAs (Decidable ((read? text).isSome = true))

/-- The text has the syntax of a pattern, and a parenthesis behind it is no part of that. -/
def EndsClosed (text : Text) : Prop :=
  IsRead text ∧ ¬ IsRead (text ++ [')'])

/-- The text is a pattern, and a parenthesis behind it is part of the comment at its end. -/
def EndsOpen (text : Text) : Prop :=
  (ofText? text).isSome ∧ IsRead (text ++ [')'])

instance (text : Text) : Decidable (EndsOpen text) :=
  inferInstanceAs (Decidable ((ofText? text).isSome = true ∧ IsRead (text ++ [')'])))

/--
The text is accepted as the pattern of a rule, but a parenthesis in it is the one that closes the
group around the text: what stands before it is a pattern whose end is not in a comment.
-/
def ClosesEarly (text : Text) : Prop :=
  (atStart? text).isSome ∧ ∃ first second, text = first ++ ')' :: second ∧ EndsClosed first

/-- The text has the syntax of a pattern, and is within the limits of the library just by itself, or
just in its group. -/
def CrossesLimit (text : Text) : Prop :=
  EndsClosed text ∧ library.admits text ≠ library.admits (inGroup text)

theorem isSome_ofText?_iff (text : Text) :
    (ofText? text).isSome ↔ library.admits text = true ∧ IsRead text := by
  rw [ofText?, IsRead]
  cases library.admits text <;> simp

/-! ## Reading a text -/

theorem read?_eq_of_enough {steps : Nat} {text : Text} (enough : 3 * text.length + 2 ≤ steps) :
    read? text =
      match readAlternatives steps { rest := text } with
      | some (regex, last) => if last.rest = [] then some ⟨regex, last.names⟩ else none
      | none => none := by
  have same : readAlternatives (3 * text.length + 3) { rest := text } =
      readAlternatives steps { rest := text } :=
    readAlternatives_eq_of_enough (Nat.le_succ _) enough
  rw [read?, StateT.run, same]
  cases readAlternatives steps { rest := text } <;> rfl

theorem read?_of_read {steps : Nat} {text : Text} {regex : Regex} {last : PatternState}
    (enough : 3 * text.length + 2 ≤ steps)
    (read : readAlternatives steps { rest := text } = some (regex, last)) :
    read? text = if last.rest = [] then some ⟨regex, last.names⟩ else none := by
  rw [read?_eq_of_enough enough, read]

theorem exists_read_of_read?_eq_some {steps : Nat} {text : Text} {pattern : Pattern}
    (enough : 3 * text.length + 2 ≤ steps) (isPattern : read? text = some pattern) :
    ∃ last, readAlternatives steps { rest := text } = some (pattern.regex, last) ∧
      last.rest = [] ∧ last.names = pattern.names := by
  cases read : readAlternatives steps { rest := text } with
  | none =>
    rw [read?_eq_of_enough enough, read] at isPattern
    contradiction
  | some found =>
    rw [read?_of_read enough read] at isPattern
    split at isPattern
    · rename_i ended
      cases isPattern
      exact ⟨found.2, rfl, ended, rfl⟩
    · contradiction

/-- A pattern that does not end in a comment is read up to a parenthesis behind it. -/
theorem exists_stop_of_not_isRead {steps : Nat} {text : Text} {pattern : Pattern}
    (enough : 3 * text.length + 5 ≤ steps) (isPattern : read? text = some pattern)
    (ends : ¬ IsRead (text ++ [')'])) :
    ∃ last : PatternState, last.rest = [] ∧ last.names = pattern.names ∧
      ∀ more, readAlternatives steps { rest := text ++ ')' :: more } =
        some (pattern.regex, last.enclosed more) := by
  have enoughAlone : 3 * text.length + 2 ≤ steps := by omega
  rcases exists_read_of_read?_eq_some enoughAlone isPattern with ⟨last, read, ended, names⟩
  rcases (patternsAreLocal steps).alternatives.staysOrPasses { rest := text } with
    ⟨regex, place, readFirst, readEnclosed⟩ | passes
  · rw [read] at readFirst
    cases readFirst
    exact ⟨last, ended, names, readEnclosed⟩
  · exfalso
    apply ends
    have enoughClosed : 3 * (text ++ [')']).length + 2 ≤ steps := by
      rw [List.length_append, List.length_singleton]
      omega
    rw [IsRead, read?_of_read enoughClosed (passes.atEnd read).2, if_pos ended]
    rfl

/-- What is read up to a parenthesis is a pattern that does not end in a comment. -/
theorem endsClosed_of_read {steps : Nat} {first second : Text} {regex : Regex} {last : PatternState}
    (enough : 3 * first.length + 5 ≤ steps)
    (read : readAlternatives steps { rest := first ++ ')' :: second } = some (regex, last))
    (stops : last.rest = ')' :: second) : EndsClosed first := by
  rcases (patternsAreLocal steps).alternatives.staysOrPasses { rest := first } with
    ⟨found, place, readFirst, readEnclosed⟩ | passes
  · -- what is read alone ends where the parenthesis was met
    have readSecond := readEnclosed second
    rw [PatternState.enclosed, read] at readSecond
    cases readSecond
    have ended : place.rest = [] := by simpa using stops
    constructor
    · rw [IsRead, read?_of_read (by omega) readFirst, if_pos ended]
      rfl
    · intro isClosed
      have enoughClosed : 3 * (first ++ [')']).length + 2 ≤ steps := by
        rw [List.length_append, List.length_singleton]
        omega
      have unended : (place.enclosed []).rest ≠ [] := by simp
      rw [IsRead, read?_of_read enoughClosed (readEnclosed []), if_neg unended] at isClosed
      contradiction
  · exfalso
    rcases passes.past read with isPast | isAstray
    · rw [PatternState.IsPast, stops] at isPast
      exact Nat.not_succ_le_self _ isPast
    · exact isAstray

/-- A parenthesis behind a pattern is no part of it, whatever follows. -/
theorem not_isRead_append {first : Text} (ends : EndsClosed first) (second : Text) :
    ¬ IsRead (first ++ ')' :: second) := by
  rcases Option.isSome_iff_exists.mp ends.1 with ⟨pattern, isPattern⟩
  have enough : 3 * first.length + 5 ≤ 3 * (first ++ ')' :: second).length + 2 := by
    rw [List.length_append, List.length_cons]
    omega
  rcases exists_stop_of_not_isRead enough isPattern ends.2 with ⟨last, ended, _, reads⟩
  have unended : (last.enclosed second).rest ≠ [] := by simp
  rw [IsRead, read?_of_read le_rfl (reads second), if_neg unended]
  exact Bool.false_ne_true

/-! ## Reading a text in its group -/

/-- What is read behind the group. -/
def afterGroup (steps : Nat) (body : Regex) : PatternReader Regex := do
  let first ← readParts (steps + 1) [some body, some (.anchor .textStart)]
  if ← takeIf "|" then return .alternation first (← readAlternatives (steps + 3))
  else return first

theorem readAlternatives_atStart (steps : Nat) (rest : Text) :
    readAlternatives (steps + 4) { rest := "^(?:".toList ++ rest } =
      (readGroup (steps + 1) {} >>= afterGroup steps) { rest } := by
  have start : readParts (steps + 3) [] { rest := "^(?:".toList ++ rest } =
      (readGroup (steps + 1) {} >>= fun body =>
        readParts (steps + 1) [some body, some (.anchor .textStart)]) { rest } := rfl
  rw [readAlternatives]
  cases group : readGroup (steps + 1) {} { rest } with
  | none =>
    rw [bind_of_eq_none group] at start ⊢
    exact bind_of_eq_none start
  | some found =>
    rw [bind_of_eq_some group] at start ⊢
    exact congrArg (Option.bind · _) start

theorem readGroup_of_read {steps : Nat} {state last : PatternState} {body : Regex}
    (outside : PatternFlags) (read : readAlternatives steps state = some (body, last)) :
    readGroup (steps + 1) outside state =
      if last.rest.head? = some ')' then
        some (body, { last with rest := last.rest.tail, flags := outside })
      else none := by
  rcases last with ⟨_ | ⟨c, rest⟩, flags, groups, names⟩
  · rw [readGroup, bind_of_eq_some read]
    rfl
  · have takes : take ⟨c :: rest, flags, groups, names⟩ = some (c, ⟨rest, flags, groups, names⟩) :=
      rfl
    rw [readGroup, bind_of_eq_some read, bind_of_eq_some takes]
    by_cases closes : c = ')'
    · subst closes
      rfl
    · have other : ¬ (c :: rest).head? = some ')' := by simpa using closes
      rw [if_neg other]
      dsimp only
      rw [if_pos closes]
      rfl

/-- The text in its group, with enough steps for it. -/
theorem read?_inGroup (text : Text) :
    read? (inGroup text) =
      match (readGroup (3 * text.length + 14) {} >>= afterGroup (3 * text.length + 13))
        { rest := text ++ [')'] } with
      | some (regex, last) => if last.rest = [] then some ⟨regex, last.names⟩ else none
      | none => none := by
  have enough : 3 * ("^(?:".toList ++ (text ++ [')'])).length + 2 ≤ 3 * text.length + 13 + 4 := by
    simp only [List.length_append, List.length_singleton]
    have : "^(?:".toList.length = 4 := rfl
    omega
  rw [inGroup, List.append_assoc, read?_eq_of_enough enough, readAlternatives_atStart]

/-- If the group ends with the text, then the pattern is tied to the beginning. -/
theorem read?_inGroup_of_endsClosed {text : Text} {pattern : Pattern}
    (isPattern : read? text = some pattern) (ends : ¬ IsRead (text ++ [')'])) :
    read? (inGroup text) = some ⟨pattern.regex.atTextStart, pattern.names⟩ := by
  have enough : 3 * text.length + 5 ≤ 3 * text.length + 13 := by omega
  rcases exists_stop_of_not_isRead enough isPattern ends with ⟨last, ended, names, reads⟩
  have group := readGroup_of_read {} (reads [])
  rw [PatternState.rest_enclosed, ended, List.nil_append, List.head?_cons, if_pos rfl] at group
  rw [read?_inGroup, bind_of_eq_some group]
  rcases last with ⟨rest, flags, groups, sameNames⟩
  cases names
  rfl

/-- A text is read in its group only if what is read there is followed by a parenthesis. -/
theorem exists_stop_of_isRead_inGroup {text : Text} (accepted : IsRead (inGroup text)) :
    ∃ body last, readAlternatives (3 * text.length + 13) { rest := text ++ [')'] } =
      some (body, last) ∧ last.rest.head? = some ')' := by
  cases read : readAlternatives (3 * text.length + 13) { rest := text ++ [')'] } with
  | none =>
    have group : readGroup (3 * text.length + 14) {} { rest := text ++ [')'] } = none := by
      rw [readGroup, bind_of_eq_none read]
    rw [IsRead, read?_inGroup, bind_of_eq_none group] at accepted
    contradiction
  | some found =>
    refine ⟨found.1, found.2, rfl, ?_⟩
    by_contra unclosed
    have group := readGroup_of_read {} read
    rw [if_neg unclosed] at group
    rw [IsRead, read?_inGroup, bind_of_eq_none group] at accepted
    contradiction

/-- A comment at the end of the text takes the parenthesis, and the group does not end. -/
theorem not_isRead_inGroup {text : Text} (isOpen : IsRead (text ++ [')'])) :
    ¬ IsRead (inGroup text) := by
  intro accepted
  rcases exists_stop_of_isRead_inGroup accepted with ⟨body, last, read, isNext⟩
  have enough : 3 * (text ++ [')']).length + 2 ≤ 3 * text.length + 13 := by
    rw [List.length_append, List.length_singleton]
    omega
  rcases Option.isSome_iff_exists.mp isOpen with ⟨pattern, isPattern⟩
  rcases exists_read_of_read?_eq_some enough isPattern with ⟨place, readToo, ended, _⟩
  rw [read] at readToo
  cases readToo
  rw [ended] at isNext
  cases isNext

/-- What is read in a group but not by itself has a parenthesis that closes the group. -/
theorem exists_endsClosed_of_not_isRead {text : Text} (noPattern : ¬ IsRead text)
    (accepted : IsRead (inGroup text)) :
    ∃ first second, text = first ++ ')' :: second ∧ EndsClosed first := by
  rcases exists_stop_of_isRead_inGroup accepted with ⟨body, last, read, isNext⟩
  rcases List.head?_eq_some_iff.mp isNext with ⟨more, stops⟩
  have suffix : last.rest <:+ text ++ [')'] := (patternsAreLocal _).alternatives.suffix read
  rcases suffix with ⟨first, parts⟩
  rw [stops] at parts
  have enough : 3 * first.length + 5 ≤ 3 * text.length + 13 := by
    have lengths := congrArg List.length parts
    simp only [List.length_append, List.length_cons, List.length_nil] at lengths
    omega
  rw [← parts] at read
  have isFirst := endsClosed_of_read enough read stops
  refine ⟨first, ?_⟩
  rcases List.eq_nil_or_concat more with rfl | ⟨second, c, rfl⟩
  · -- the parenthesis that was met is the one behind the text
    have whole : first = text := (List.append_inj' parts rfl).1
    rw [whole] at isFirst
    exact absurd isFirst.1 noPattern
  · rw [List.concat_eq_append, ← List.cons_append, ← List.append_assoc] at parts
    exact ⟨second, (List.append_inj' parts rfl).1.symm, isFirst⟩

end Pattern

namespace Rule

open Pattern

section Library

variable [library : PatternLibrary]

/--
The rules by a text are for the lines that the text as a pattern matches from their beginning: such
rules exist just if the text is a pattern by itself, and they hand on what its groups match there
and decline the other lines.
-/
def IsAnchored (text : Text) : Prop :=
  ∀ (State : Type) (name : Text) (handler : State → LineMatch → State × Verdict),
    (onPattern? name text handler).isSome = (ofText? text).isSome ∧
      ∀ rule ∈ onPattern? name text handler, ∀ pattern ∈ ofText? text,
        rule.name = name ∧ ∃ regex, ∀ state line,
          rule.apply state line =
            match pattern.regex.matchAt? { before := none, rest := line } with
            | some captures => handler state ⟨line, ⟨regex, pattern.names⟩, captures⟩
            | none => (state, .noMatch)

/-- If a text is accepted just where it is a pattern, then it is none of the exceptions. -/
theorem no_exception_of_isSome_eq {text : Text}
    (accepts : (atStart? text).isSome = (ofText? text).isSome) :
    ¬ EndsOpen text ∧ ¬ ClosesEarly text ∧ ¬ CrossesLimit text := by
  refine ⟨?_, ?_, ?_⟩
  · rintro ⟨isPattern, isOpen⟩
    rw [← accepts, atStart?, isSome_ofText?_iff] at isPattern
    exact not_isRead_inGroup isOpen isPattern.2
  · rintro ⟨accepted, first, second, rfl, ends⟩
    rw [accepts, isSome_ofText?_iff] at accepted
    exact not_isRead_append ends second accepted.2
  · rintro ⟨⟨isRead, ends⟩, differs⟩
    rcases Option.isSome_iff_exists.mp isRead with ⟨pattern, isPattern⟩
    apply differs
    rw [atStart?, ofText?, ofText?, isPattern, read?_inGroup_of_endsClosed isPattern ends]
      at accepts
    revert accepts
    cases library.admits text <;> cases library.admits (inGroup text) <;> simp

/-- What is accepted is a pattern by itself, if it is none of the exceptions. -/
theorem isSome_ofText?_of_isSome_atStart? {text : Text} (closesLate : ¬ ClosesEarly text)
    (staysWithin : ¬ CrossesLimit text) (accepted : (atStart? text).isSome) :
    (ofText? text).isSome := by
  have inItsGroup := (isSome_ofText?_iff (inGroup text)).mp accepted
  rw [isSome_ofText?_iff]
  by_cases isRead : IsRead text
  · refine ⟨?_, isRead⟩
    by_contra notWithin
    apply staysWithin
    refine ⟨⟨isRead, fun isOpen => not_isRead_inGroup isOpen inItsGroup.2⟩, ?_⟩
    rw [inItsGroup.1]
    exact notWithin
  · exact absurd ⟨accepted, exists_endsClosed_of_not_isRead isRead inItsGroup.2⟩ closesLate

end Library

/-- In a pattern with comments the parenthesis behind the text may be part of the last one. -/
example : EndsOpen "(?x)a # note".toList := by
  decide +kernel

/-- A text that closes the group around it and opens another one. -/
def reopening : Text :=
  "a)|(?:b".toList

theorem read?_reopening [PatternLibrary] : read? reopening = none := by
  unfold reopening
  cbv

theorem isRead_inGroup_reopening [PatternLibrary] : IsRead (inGroup reopening) := by
  unfold IsRead reopening
  cbv

/-- The rule by that text is also for lines with a `b` in their midst. -/
example :
    ((onPattern? [] reopening fun (calls : Nat) _ => (calls + 1, .passThrough)).map
      fun rule => rule.apply 0 "xb".toList) = some (1, .passThrough) := by
  decide +kernel

end Rule

end LiterateMarkdown
