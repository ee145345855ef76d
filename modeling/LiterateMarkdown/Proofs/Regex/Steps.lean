import LiterateMarkdown.Proofs.Regex.Enclosed

/-!
# Steps enough

The readers of nested parts take a bound on their steps. Each part of a pattern takes a character,
and a group is the part that needs most steps for one: three, to begin the group, its first
alternative and the first part of that. So three steps for each character that is left, and some to
begin with, are enough: any two bounds that allow for them give the same
(`readAlternatives_eq_of_enough`).
-/

namespace LiterateMarkdown

namespace PatternReader

variable {Value Other : Type}

/-- Readers in sequence do the same if each does, wherever the first one comes to. -/
theorem bind_congr {first second : PatternReader Value}
    {firstNext secondNext : Value → PatternReader Other} {state : PatternState}
    (same : first state = second state)
    (sameNext : ∀ value later, first state = some (value, later) →
      firstNext value later = secondNext value later) :
    (first >>= firstNext) state = (second >>= secondNext) state := by
  cases read : first state with
  | none =>
    rw [bind_of_eq_none read, bind_of_eq_none (same.symm.trans read)]
  | some found =>
    rw [bind_of_eq_some read, bind_of_eq_some (same.symm.trans read)]
    exact sameNext _ _ read

/-! ## Readers that take a character -/

/-- The reader takes a character wherever it succeeds. -/
def Advances (reader : PatternReader Value) : Prop :=
  ∀ ⦃state later : PatternState⦄ ⦃value : Value⦄,
    reader state = some (value, later) → later.rest.length < state.rest.length

theorem Advances.bind {reader : PatternReader Value} {next : Value → PatternReader Other}
    {astray : Other → PatternState → Text → Prop} (advances : Advances reader)
    (isLocal : ∀ value, IsLocalUpTo astray (next value)) : Advances (reader >>= next) := by
  intro state later value read
  rcases exists_of_bind_eq_some read with ⟨found, place, readFirst, readSecond⟩
  exact Nat.lt_of_le_of_lt ((isLocal found).suffix readSecond).length_le (advances readFirst)

theorem advances_take : Advances take := by
  intro state later c read
  rcases state with ⟨_ | ⟨first, rest⟩, flags, groups, names⟩
  · contradiction
  · cases read
    exact Nat.lt_succ_self _

theorem advances_takeSpaced : Advances takeSpaced := by
  have isLocal : ∀ c : Char, IsLocal (skipSpace >>= fun _ => pure c) :=
    fun c => isLocal_skipSpace.bind fun _ => .pure c
  exact advances_take.bind isLocal

theorem advances_readClassItem [PatternLibrary] : Advances readClassItem := by
  have advances : Advances readClassPrimitive := advances_take.bind isLocal_classPrimitiveFrom
  apply advances.bind
  intro first
  exact isLocal_skipSpace.bind fun _ => isLocal_readItemFrom first

theorem advances_readPrimitive [PatternLibrary] : Advances readPrimitive := by
  intro state later part read
  exact advances_take.bind (isLocal_primitiveFrom state.flags) read

theorem length_lt_of_drop_one {state later : PatternState} {c : Char}
    (isNext : state.rest.head? = some c) (read : drop 1 state = some ((), later)) :
    later.rest.length < state.rest.length := by
  rcases List.head?_eq_some_iff.mp isNext with ⟨text, isText⟩
  rw [drop_one_of_cons isText] at read
  cases read
  rw [isText]
  exact Nat.lt_succ_self _

theorem length_lt_of_takeIf {expected : String} (nonempty : expected.toList ≠ [])
    {state later : PatternState} (read : takeIf expected state = some (true, later)) :
    later.rest.length < state.rest.length := by
  rw [takeIf_eq] at read
  split at read
  · rename_i rest isAfter
    cases read
    rw [Text.after?_eq_some_iff.mp isAfter, List.length_append]
    exact Nat.lt_add_of_pos_left (List.length_pos_iff.mpr nonempty)
  · cases read

theorem length_lt_of_takeOperation? {state later : PatternState} {operation : ClassOperation}
    (read : takeOperation? state = some (some operation, later)) :
    later.rest.length < state.rest.length := by
  have within : ∀ {expected : String}, ')' ∉ expected.toList → ∀ {place after taken},
      takeIf expected place = some (taken, after) → after.rest.length ≤ place.rest.length :=
    fun absent _ _ _ taken => ((isLocal_takeIf absent).suffix taken).length_le
  rcases exists_of_bind_eq_some read with ⟨_ | _, afterAnd, isAnd, read⟩
  · rcases exists_of_bind_eq_some read with ⟨_ | _, afterDash, isDash, read⟩
    · rcases exists_of_bind_eq_some read with ⟨_ | _, afterTilde, isTilde, read⟩
      · cases read
      · cases read
        have := length_lt_of_takeIf (by decide) isTilde
        have := within (by decide) isDash
        have := within (by decide) isAnd
        omega
    · cases read
      have := length_lt_of_takeIf (by decide) isDash
      have := within (by decide) isAnd
      omega
  · cases read
    exact length_lt_of_takeIf (by decide) isAnd

theorem eq_of_takeAsciiClass?_eq_none {state later : PatternState}
    (read : takeAsciiClass? state = some (none, later)) : later = state := by
  cases isClass : asciiClass? state.rest with
  | none =>
    rw [takeAsciiClass?_of_none isClass] at read
    cases read
    rfl
  | some found =>
    rw [takeAsciiClass?_of_some isClass] at read
    rcases exists_of_bind_eq_some read with ⟨members, place, complements, ends⟩
    cases ends

theorem length_lt_of_takeAsciiClass? {state later : PatternState} {members : CharClass}
    (read : takeAsciiClass? state = some (some members, later)) :
    later.rest.length < state.rest.length := by
  cases isClass : asciiClass? state.rest with
  | none =>
    rw [takeAsciiClass?_of_none isClass] at read
    cases read
  | some found =>
    rw [takeAsciiClass?_of_some isClass] at read
    have isLocal := (isLocal_complementIf found.1 (inAnyCase state.flags found.2.1)).bind
      fun members => (.pure (some members) : IsLocal _)
    rcases asciiClass?_suffix isClass with ⟨inside, isInside, suffix⟩
    have within := ((isLocal.suffix read).trans suffix).length_le
    rw [isInside, List.length_cons, List.length_cons]
    omega

/-! ## Steps for classes in brackets -/

theorem takeDashes_eq_of_enough {steps enough : Nat} {state : PatternState}
    (bound : state.rest.length ≤ steps) (boundToo : state.rest.length ≤ enough) :
    takeDashes steps state = takeDashes enough state := by
  have atEnd : ∀ steps {state : PatternState}, state.rest = [] →
      takeDashes steps state = some (.nothing, state) := by
    rintro (_ | steps) ⟨_, flags, groups, names⟩ rfl <;> rfl
  induction steps generalizing enough state with
  | zero =>
    have ended : state.rest = [] := List.length_eq_zero_iff.mp (Nat.le_zero.mp bound)
    rw [atEnd _ ended, atEnd _ ended]
  | succ steps ih =>
    cases enough with
    | zero =>
      have ended : state.rest = [] := List.length_eq_zero_iff.mp (Nat.le_zero.mp boundToo)
      rw [atEnd _ ended, atEnd _ ended]
    | succ enough =>
      rw [takeDashes, takeDashes, peek?_bind_eq, peek?_bind_eq]
      split
      · apply bind_congr rfl
        intro c later taken
        have shorter := advances_takeSpaced taken
        exact bind_congr (ih (by omega) (by omega)) fun _ _ _ => rfl
      · rfl

theorem takeClassStart_eq_of_enough {steps enough : Nat} {state : PatternState}
    (bound : state.rest.length ≤ steps) (boundToo : state.rest.length ≤ enough) :
    takeClassStart steps state = takeClassStart enough state := by
  rw [takeClassStart, takeClassStart, peek?_bind_eq, peek?_bind_eq]
  split
  · exact takeDashes_eq_of_enough bound boundToo
  · rfl

/-- With enough steps the readers of a class do the same as with others that are enough. -/
structure ClassesAgree [PatternLibrary] (steps : Nat) : Prop where
  brackets {enough : Nat} {state : PatternState} :
    2 * state.rest.length + 2 ≤ steps → 2 * state.rest.length + 2 ≤ enough →
      readBrackets steps state = readBrackets enough state
  classRest {enough : Nat} {pending : Option (CharClass × ClassOperation)} {members : CharClass}
    {state : PatternState} :
    2 * state.rest.length + 1 ≤ steps → 2 * state.rest.length + 1 ≤ enough →
      readClassRest steps pending members state = readClassRest enough pending members state

theorem classesAgree [PatternLibrary] (steps : Nat) : ClassesAgree steps := by
  induction steps with
  | zero =>
    constructor
    · intro enough state bound
      contradiction
    · intro enough pending members state bound
      contradiction
  | succ steps ih =>
    constructor
    · intro enough state bound boundToo
      rcases enough with _ | enough
      · contradiction
      rw [readBrackets, readBrackets]
      apply bind_congr rfl
      intro _ inside skipped
      have insideLength := (isLocal_skipSpace.suffix skipped).length_le
      apply bind_congr rfl
      intro negated afterMark marked
      have afterMarkLength := (isLocal_takeNegation.suffix marked).length_le
      apply bind_congr (takeClassStart_eq_of_enough (by omega) (by omega))
      intro first afterStart started
      have afterStartLength := ((isLocal_takeClassStart steps).suffix started).length_le
      exact bind_congr (ih.classRest (by omega) (by omega)) fun _ _ _ => rfl
    · intro enough pending members state bound boundToo
      rcases enough with _ | enough
      · contradiction
      rw [readClassRest, readClassRest]
      apply bind_congr rfl
      intro _ inside skipped
      have insideLength := (isLocal_skipSpace.suffix skipped).length_le
      rw [get_bind_eq, get_bind_eq]
      apply bind_congr rfl
      rintro (_ | operation) place operates
      · have placeLength := (isLocal_takeOperation?.suffix operates).length_le
        dsimp only
        rw [peek?_bind_eq, peek?_bind_eq]
        generalize isNext : place.rest.head? = c?
        split
        · rfl
        · apply bind_congr rfl
          rintro (_ | named) afterClass takes
          · rw [eq_of_takeAsciiClass?_eq_none takes]
            apply bind_congr rfl
            intro _ nestedStart drops
            have shorter := length_lt_of_drop_one isNext drops
            apply bind_congr (ih.brackets (by omega) (by omega))
            intro nested afterNested reads
            have nestedLength := ((classesAreLocal steps).brackets.suffix reads).length_le
            exact ih.classRest (by omega) (by omega)
          · have shorter := length_lt_of_takeAsciiClass? takes
            exact ih.classRest (by omega) (by omega)
        · apply bind_congr rfl
          intro item later reads
          have shorter := advances_readClassItem reads
          exact ih.classRest (by omega) (by omega)
      · have shorter := length_lt_of_takeOperation? operates
        exact ih.classRest (by omega) (by omega)

/-! ## Steps for patterns -/

/-- With enough steps the readers of patterns do the same as with others that are enough. -/
structure PatternsAgree [PatternLibrary] (steps : Nat) : Prop where
  alternatives {enough : Nat} {state : PatternState} :
    3 * state.rest.length + 2 ≤ steps → 3 * state.rest.length + 2 ≤ enough →
      readAlternatives steps state = readAlternatives enough state
  parts {enough : Nat} {parts : List (Option Regex)} {state : PatternState} :
    3 * state.rest.length + 1 ≤ steps → 3 * state.rest.length + 1 ≤ enough →
      readParts steps parts state = readParts enough parts state
  group {enough : Nat} {outside : PatternFlags} {state : PatternState} :
    3 * state.rest.length + 3 ≤ steps → 3 * state.rest.length + 3 ≤ enough →
      readGroup steps outside state = readGroup enough outside state

theorem patternsAgree [PatternLibrary] (steps : Nat) : PatternsAgree steps := by
  induction steps with
  | zero =>
    constructor
    · intro enough state bound
      contradiction
    · intro enough parts state bound
      contradiction
    · intro enough outside state bound
      contradiction
  | succ steps ih =>
    constructor
    · intro enough state bound boundToo
      rcases enough with _ | enough
      · contradiction
      rw [readAlternatives, readAlternatives]
      apply bind_congr (ih.parts (by omega) (by omega))
      intro first afterFirst reads
      have firstLength := (((patternsAreLocal steps).parts []).suffix reads).length_le
      apply bind_congr rfl
      rintro (_ | _) afterMark marked
      · rfl
      · have shorter := length_lt_of_takeIf (by decide) marked
        exact bind_congr (ih.alternatives (by omega) (by omega)) fun _ _ _ => rfl
    · intro enough parts state bound boundToo
      rcases enough with _ | enough
      · contradiction
      rw [readParts, readParts]
      apply bind_congr rfl
      intro _ inside skipped
      have insideLength := (isLocal_skipSpace.suffix skipped).length_le
      rw [peek?_bind_eq, peek?_bind_eq]
      generalize isNext : inside.rest.head? = c?
      split
      · rfl
      · rfl
      · rfl
      · apply bind_congr rfl
        intro _ afterMark drops
        have shorter := length_lt_of_drop_one isNext drops
        rw [get_bind_eq, get_bind_eq]
        apply bind_congr rfl
        intro start inGroup starts
        have inGroupLength := (isLocal_readGroupStart.suffix starts).length_le
        have afterGroup : ∀ {body later}, readGroup steps afterMark.flags inGroup =
            some (body, later) → later.rest.length ≤ inGroup.rest.length :=
          fun reads => (((patternsAreLocal steps).group _).suffix reads).length_le
        cases start with
        | flags => exact ih.parts (by omega) (by omega)
        | plain =>
          apply bind_congr (ih.group (by omega) (by omega))
          intro body later reads
          have laterLength := afterGroup reads
          exact ih.parts (by omega) (by omega)
        | capturing index =>
          apply bind_congr (ih.group (by omega) (by omega))
          intro body later reads
          have laterLength := afterGroup reads
          exact ih.parts (by omega) (by omega)
      · apply bind_congr rfl
        intro _ afterMark drops
        have shorter := length_lt_of_drop_one isNext drops
        apply bind_congr ((classesAgree steps).brackets (by omega) (by omega))
        intro members later reads
        have laterLength := ((classesAreLocal steps).brackets.suffix reads).length_le
        exact ih.parts (by omega) (by omega)
      · split
        · apply bind_congr rfl
          intro _ afterMark drops
          have shorter := length_lt_of_drop_one isNext drops
          rcases parts with _ | ⟨_ | body, parts⟩
          · rfl
          · rfl
          · apply bind_congr rfl
            intro bounds afterBounds reads
            have boundsLength := ((isLocal_readMark _).suffix reads).length_le
            apply bind_congr rfl
            intro repeated later repeats
            have laterLength := ((isLocal_readRepetition _ _).suffix repeats).length_le
            exact ih.parts (by omega) (by omega)
        · apply bind_congr rfl
          intro part later reads
          have shorter := advances_readPrimitive reads
          exact ih.parts (by omega) (by omega)
    · intro enough outside state bound boundToo
      rcases enough with _ | enough
      · contradiction
      rw [readGroup, readGroup]
      exact bind_congr (ih.alternatives (by omega) (by omega)) fun _ _ _ => rfl

/-- Steps that allow for three to each character, and two more, are as good as any number more. -/
theorem readAlternatives_eq_of_enough [PatternLibrary] {steps enough : Nat} {state : PatternState}
    (bound : 3 * state.rest.length + 2 ≤ steps) (boundToo : 3 * state.rest.length + 2 ≤ enough) :
    readAlternatives steps state = readAlternatives enough state :=
  (patternsAgree steps).alternatives bound boundToo

end PatternReader

end LiterateMarkdown
