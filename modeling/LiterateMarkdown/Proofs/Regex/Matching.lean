import LiterateMarkdown.Regex.Basic
import Mathlib.Order.Basic

/-!
# Matching characters and runs of characters

What the simplest parts of a regular expression do: a literal text, and a greedy run of characters
of a class. A run is as long as it can be while what follows it still matches. Where what follows
cannot begin with a character of the class, that is the longest run there is
(`matchFrom_run_of_declines`); where what follows matches after one run only, it is that one
(`matchFrom_run_of_unique`).
-/

namespace LiterateMarkdown

namespace CharClass

@[simp]
theorem contains_single (c d : Char) : (single d).contains c = decide (c = d) := by
  rw [single, contains, Bool.eq_iff_iff, Bool.and_eq_true, decide_eq_true_eq, decide_eq_true_eq,
    decide_eq_true_eq]
  constructor
  · rintro ⟨notBelow, notAbove⟩
    exact Char.le_antisymm notAbove notBelow
  · rintro rfl
    exact ⟨Char.le_refl c, Char.le_refl c⟩

end CharClass

namespace MatchPlace

/-- The place behind some of the characters that come next. -/
def skip (place : MatchPlace) (taken : Text) : MatchPlace :=
  { place with before := taken.getLast?.or place.before, rest := place.rest.drop taken.length }

variable {place : MatchPlace} {taken rest : Text}

@[simp]
theorem skip_nil (place : MatchPlace) : place.skip [] = place :=
  rfl

@[simp]
theorem captures_skip (place : MatchPlace) (taken : Text) :
    (place.skip taken).captures = place.captures :=
  rfl

theorem rest_skip (parts : place.rest = taken ++ rest) : (place.skip taken).rest = rest := by
  rw [skip, parts]
  exact List.drop_left

theorem rest_skip_singleton {c : Char} (begins : place.rest = c :: rest) :
    (place.skip [c]).rest = rest :=
  @rest_skip place [c] rest begins

theorem skip_skip (place : MatchPlace) (taken more : Text) :
    (place.skip taken).skip more = place.skip (taken ++ more) := by
  unfold skip
  simp only [List.getLast?_append, Option.or_assoc, List.drop_drop, List.length_append]

theorem textUpTo_skip (parts : place.rest = taken ++ rest) :
    place.textUpTo (place.skip taken) = taken := by
  rw [textUpTo, rest_skip parts, parts, List.length_append, Nat.add_sub_cancel]
  exact List.take_left

end MatchPlace

namespace Regex

variable {Answer : Type} {next : Continuation Answer} {place : MatchPlace} {chars : CharClass}

theorem matchFrom_one_cons {c : Char} {rest : Text} (begins : place.rest = c :: rest) :
    matchFrom (.one chars) next place =
      if chars.contains c then next (place.skip [c]) else none := by
  simp only [matchFrom, MatchPlace.skip, begins, List.getLast?_singleton, Option.some_or,
    List.length_singleton, List.drop_succ_cons, List.drop_zero]

theorem matchFrom_one_nil (ended : place.rest = []) : matchFrom (.one chars) next place = none := by
  simp only [matchFrom, ended]

/-! ## Literal texts -/

/-- A text, character by character, and then a regular expression. -/
def literal (text : Text) (body : Regex) : Regex :=
  text.foldr (fun c body => .concat (.one (.single c)) body) body

/-- A literal text is matched where it comes next. -/
theorem matchFrom_literal (text : Text) (body : Regex) :
    matchFrom (literal text body) next place =
      if (Text.after? text place.rest).isSome then matchFrom body next (place.skip text)
      else none := by
  induction text generalizing place with
  | nil => rfl
  | cons c text ih =>
    change matchFrom (.one (.single c)) (matchFrom (literal text body) next) place = _
    cases begins : place.rest with
    | nil =>
      rw [matchFrom_one_nil begins]
      rfl
    | cons first rest =>
      rw [matchFrom_one_cons begins, CharClass.contains_single, Text.after?]
      by_cases same : first = c
      · subst same
        simp only [decide_true, ↓reduceIte, ih, MatchPlace.skip_skip, List.singleton_append,
          MatchPlace.rest_skip_singleton begins]
      · simp only [same, Ne.symm same, decide_false, Bool.false_eq_true, ↓reduceIte,
          Option.isSome_none]

/-! ## Runs of characters -/

/-- As many characters of a class as can be. -/
def run (chars : CharClass) : Regex :=
  .repetition 0 none true (.one chars)

theorem prefer_eq (first second : Continuation Answer) (place : MatchPlace) :
    prefer first second place = (first place).or (second place) := by
  unfold prefer
  cases first place <;> rfl

theorem oneOrMore_one_cons {c : Char} {rest : Text} (begins : place.rest = c :: rest) :
    oneOrMore true (matchFrom (.one chars)) next place =
      if chars.contains c then
        repeatOrEnd true (matchFrom (.one chars)) next place.rest.length (place.skip [c])
      else none := by
  have isAfter : (place.skip [c]).isAfter place = true := by
    simp [MatchPlace.isAfter, MatchPlace.rest_skip_singleton begins, begins]
  rw [oneOrMore, matchFrom_one_cons begins, isAfter, if_pos rfl]

theorem repeatOrEnd_nil (ended : place.rest = []) (steps : Nat) :
    repeatOrEnd true (matchFrom (.one chars)) next steps place = next place := by
  cases steps with
  | zero => rfl
  | succ steps =>
    rw [repeatOrEnd, preferMore, if_pos rfl, prefer_eq, matchFrom_one_nil ended]
    rfl

theorem repeatOrEnd_cons {c : Char} {rest : Text} (begins : place.rest = c :: rest) (steps : Nat) :
    repeatOrEnd true (matchFrom (.one chars)) next (steps + 1) place =
      (if chars.contains c then
        repeatOrEnd true (matchFrom (.one chars)) next steps (place.skip [c])
      else none).or (next place) := by
  have isAfter : (place.skip [c]).isAfter place = true := by
    simp [MatchPlace.isAfter, MatchPlace.rest_skip_singleton begins, begins]
  rw [repeatOrEnd, preferMore, if_pos rfl, prefer_eq, matchFrom_one_cons begins, isAfter,
    if_pos rfl]

theorem matchFrom_run_nil (ended : place.rest = []) :
    matchFrom (run chars) next place = next place := by
  rw [run, matchFrom, preferMore, if_pos rfl, prefer_eq, oneOrMore, matchFrom_one_nil ended]
  rfl

/-- A run goes on as long as it can, and ends earlier only if what follows does not match else. -/
theorem matchFrom_run_cons {c : Char} {rest : Text} (begins : place.rest = c :: rest) :
    matchFrom (run chars) next place =
      (if chars.contains c then matchFrom (run chars) next (place.skip [c]) else none).or
        (next place) := by
  have goesOn : matchFrom (run chars) next (place.skip [c]) =
      repeatOrEnd true (matchFrom (.one chars)) next place.rest.length (place.skip [c]) := by
    have isLeft := MatchPlace.rest_skip_singleton begins
    cases later : (place.skip [c]).rest with
    | nil => rw [matchFrom_run_nil later, repeatOrEnd_nil later]
    | cons second more =>
      rw [run, matchFrom, preferMore, if_pos rfl, prefer_eq, oneOrMore_one_cons later, isLeft,
        begins, List.length_cons, repeatOrEnd_cons later]
  rw [goesOn, run, matchFrom, preferMore, if_pos rfl, prefer_eq, oneOrMore_one_cons begins]

/-- If nothing that follows matches, whatever the run, then nothing matches. -/
theorem matchFrom_run_eq_none
    (declines : ∀ taken rest, place.rest = taken ++ rest → taken.all chars.contains →
      next (place.skip taken) = none) :
    matchFrom (run chars) next place = none := by
  generalize begins : place.rest = text at declines
  induction text generalizing place with
  | nil =>
    rw [matchFrom_run_nil begins]
    exact declines [] [] rfl rfl
  | cons c rest ih =>
    rw [matchFrom_run_cons begins, Option.or_eq_none_iff]
    refine ⟨?_, declines [] (c :: rest) rfl rfl⟩
    split
    · rename_i isMember
      apply ih (MatchPlace.rest_skip_singleton begins)
      intro taken more parts areMembers
      rw [MatchPlace.skip_skip]
      apply declines ([c] ++ taken) more
      · rw [parts, List.append_assoc, List.singleton_append]
      · simp [isMember, areMembers]
    · rfl

/-- If what follows matches after one run at most, then that run is taken. -/
theorem matchFrom_run_of_unique {taken rest : Text} (parts : place.rest = taken ++ rest)
    (areMembers : taken.all chars.contains)
    (unique : ∀ other after, place.rest = other ++ after → other.all chars.contains →
      other ≠ taken → next (place.skip other) = none) :
    matchFrom (run chars) next place = next (place.skip taken) := by
  induction taken generalizing place with
  | nil =>
    cases begins : place.rest with
    | nil => rw [matchFrom_run_nil begins, MatchPlace.skip_nil]
    | cons c rest =>
      have shorter : (if chars.contains c then matchFrom (run chars) next (place.skip [c])
          else none) = none := by
        split
        · rename_i isMember
          apply matchFrom_run_eq_none
          intro other after parts areMembers
          rw [MatchPlace.skip_skip]
          apply unique ([c] ++ other) after
          · rw [begins, ← MatchPlace.rest_skip_singleton begins, parts]
            rfl
          · simp [isMember, areMembers]
          · simp
        · rfl
      rw [matchFrom_run_cons begins, shorter, Option.none_or, MatchPlace.skip_nil]
  | cons c taken ih =>
    rw [List.cons_append] at parts
    have isLeft : (place.skip [c]).rest = taken ++ rest := MatchPlace.rest_skip_singleton parts
    rw [List.all_cons, Bool.and_eq_true] at areMembers
    have sooner : next place = none :=
      unique [] (c :: (taken ++ rest)) parts rfl (List.cons_ne_nil c taken).symm
    rw [matchFrom_run_cons parts, if_pos areMembers.1, sooner, Option.or_none,
      ih isLeft areMembers.2, MatchPlace.skip_skip, List.singleton_append]
    intro other after otherParts otherMembers differs
    rw [MatchPlace.skip_skip]
    apply unique ([c] ++ other) after
    · rw [parts, ← isLeft, otherParts]
      rfl
    · simp [areMembers.1, otherMembers]
    · simpa using differs

/-- If what follows does not begin with a character of the class, then the longest run is taken. -/
theorem matchFrom_run_of_declines {member : Char → Bool}
    (members : ∀ c, chars.contains c = member c)
    (declines : ∀ (later : MatchPlace) c, later.rest.head? = some c → member c →
      next later = none) :
    matchFrom (run chars) next place = next (place.skip (place.rest.takeWhile member)) := by
  simp only [← members] at declines
  obtain rfl : (fun c => chars.contains c) = member := funext members
  have parts := (List.takeWhile_append_dropWhile (p := fun c => chars.contains c)
    (l := place.rest)).symm
  apply matchFrom_run_of_unique parts List.all_takeWhile
  intro other after otherParts otherMembers differs
  have taken : place.rest.takeWhile (fun c => chars.contains c) =
      other ++ after.takeWhile fun c => chars.contains c := by
    rw [otherParts, List.takeWhile_append_of_pos (List.all_eq_true.mp otherMembers)]
  cases after with
  | nil =>
    rw [List.takeWhile_nil, List.append_nil] at taken
    exact absurd taken.symm differs
  | cons c after =>
    apply declines _ c
    · rw [MatchPlace.rest_skip otherParts]
      rfl
    · by_contra notMember
      rw [List.takeWhile_cons, if_neg notMember, List.append_nil] at taken
      exact differs taken.symm

end Regex

end LiterateMarkdown
