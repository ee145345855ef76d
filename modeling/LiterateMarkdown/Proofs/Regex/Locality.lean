import LiterateMarkdown.Regex.Parser
import Mathlib.Data.List.TakeWhile

/-!
# Readers before a parenthesis

What a reader does when a closing parenthesis and more text follow its own text. Most readers stop
before the parenthesis and do the same as without it. One that does not either finds its text too
short and fails, or the last thing in its text is a comment, which then goes on past the
parenthesis (`IsLocal`).

Two readers look ahead over a comment and may come back from it: an escaped `b` looks for a word in
braces, and a part of a class for the end of a range. Where the comment is open they go astray. Each
is told apart by what it leaves for the next reader, which cannot stop before the parenthesis any
more (`IsLocalUpTo`).
-/

namespace LiterateMarkdown

namespace PatternState

/-- The same place in a pattern that a closing parenthesis and more text follow. -/
def enclosed (state : PatternState) (more : Text) : PatternState :=
  { state with rest := state.rest ++ ')' :: more }

@[simp]
theorem rest_enclosed (state : PatternState) (more : Text) :
    (state.enclosed more).rest = state.rest ++ ')' :: more :=
  rfl

@[simp]
theorem flags_enclosed (state : PatternState) (more : Text) :
    (state.enclosed more).flags = state.flags :=
  rfl

/-- The place is after the parenthesis. -/
def IsPast (more : Text) (state : PatternState) : Prop :=
  state.rest.length ≤ more.length

theorem IsPast.of_suffix {more : Text} {state later : PatternState} (past : state.IsPast more)
    (suffix : later.rest <:+ state.rest) : later.IsPast more :=
  Nat.le_trans suffix.length_le past

end PatternState

namespace PatternReader

variable {Value Other : Type}

/-! ## Readers in sequence -/

theorem bind_of_eq_some {reader : PatternReader Value} {next : Value → PatternReader Other}
    {state later : PatternState} {value : Value} (read : reader state = some (value, later)) :
    (reader >>= next) state = next value later := by
  change (reader state).bind _ = _
  rw [read]
  rfl

theorem bind_of_eq_none {reader : PatternReader Value} {next : Value → PatternReader Other}
    {state : PatternState} (fails : reader state = none) : (reader >>= next) state = none := by
  change (reader state).bind _ = _
  rw [fails]
  rfl

theorem exists_of_bind_eq_some {reader : PatternReader Value} {next : Value → PatternReader Other}
    {state last : PatternState} {result : Other}
    (read : (reader >>= next) state = some (result, last)) :
    ∃ value later, reader state = some (value, later) ∧ next value later = some (result, last) := by
  cases first : reader state with
  | none =>
    rw [bind_of_eq_none first] at read
    contradiction
  | some found =>
    rw [bind_of_eq_some first] at read
    exact ⟨found.1, found.2, rfl, read⟩

theorem get_bind_eq (next : PatternState → PatternReader Value) (state : PatternState) :
    (get >>= next) state = next state state :=
  rfl

theorem peek?_bind_eq (next : Option Char → PatternReader Value) (state : PatternState) :
    (peek? >>= next) state = next state.rest.head? state :=
  rfl

/-! ## Staying before the parenthesis, or not -/

/-- The reader stays before the parenthesis and does what it does without it. -/
def Stays (reader : PatternReader Value) (state : PatternState) : Prop :=
  ∃ value later, reader state = some (value, later) ∧
    ∀ more, reader (state.enclosed more) = some (value, later.enclosed more)

/--
The reader does not stay before the parenthesis: it fails, goes past it or astray. If it succeeds
without it, then at the end of the text, and a parenthesis alone is passed over.
-/
structure Passes (astray : Value → PatternState → Text → Prop) (reader : PatternReader Value)
    (state : PatternState) : Prop where
  past {more : Text} {value : Value} {later : PatternState} :
    reader (state.enclosed more) = some (value, later) →
      later.IsPast more ∨ astray value later more
  atEnd {value : Value} {later : PatternState} :
    reader state = some (value, later) →
      later.rest = [] ∧ reader (state.enclosed []) = some (value, later)

/-- Whether a parenthesis follows matters to a reader only where it passes it or goes astray. -/
structure IsLocalUpTo (astray : Value → PatternState → Text → Prop)
    (reader : PatternReader Value) : Prop where
  suffix {state later : PatternState} {value : Value} :
    reader state = some (value, later) → later.rest <:+ state.rest
  staysOrPasses (state : PatternState) : Stays reader state ∨ Passes astray reader state

/-- No way to go astray. -/
def Nowhere (_value : Value) (_later : PatternState) (_more : Text) : Prop :=
  False

/-- Whether a parenthesis follows matters to a reader only where it passes it. -/
abbrev IsLocal (reader : PatternReader Value) : Prop :=
  IsLocalUpTo Nowhere reader

theorem Passes.of_eq_none {astray : Value → PatternState → Text → Prop}
    {reader : PatternReader Value} {state : PatternState} (fails : reader state = none)
    (past : ∀ more value later, reader (state.enclosed more) = some (value, later) →
      later.IsPast more ∨ astray value later more) : Passes astray reader state where
  past := past _ _ _
  atEnd read := by
    rw [fails] at read
    contradiction

/-- A reader stays or passes as another one does from where it goes on. -/
theorem staysOrPasses_of_eq {astray : Value → PatternState → Text → Prop}
    {reader following : PatternReader Value} {state later : PatternState}
    (isLocal : IsLocalUpTo astray following) (goesOn : reader state = following later)
    (goesOnEnclosed : ∀ more, reader (state.enclosed more) = following (later.enclosed more)) :
    Stays reader state ∨ Passes astray reader state := by
  rcases isLocal.staysOrPasses later with ⟨value, last, read, readEnclosed⟩ | passes
  · left
    refine ⟨value, last, goesOn.trans read, ?_⟩
    intro more
    rw [goesOnEnclosed, readEnclosed]
  · right
    constructor
    · intro more value last read
      rw [goesOnEnclosed] at read
      exact passes.past read
    · intro value last read
      rw [goesOn] at read
      rw [goesOnEnclosed]
      exact passes.atEnd read

namespace IsLocalUpTo

variable {astray : Value → PatternState → Text → Prop}
  {astrayNext : Other → PatternState → Text → Prop}

/-- The next reader may find what went astray if it goes past the parenthesis from there. -/
theorem bind_of_returns {reader : PatternReader Value} {next : Value → PatternReader Other}
    (first : IsLocalUpTo astray reader) (second : ∀ value, IsLocalUpTo astrayNext (next value))
    (returns : ∀ {value later more result last}, astray value later more →
      next value later = some (result, last) → last.IsPast more ∨ astrayNext result last more) :
    IsLocalUpTo astrayNext (reader >>= next) where
  suffix read := by
    rcases exists_of_bind_eq_some read with ⟨value, later, readFirst, readSecond⟩
    exact ((second value).suffix readSecond).trans (first.suffix readFirst)
  staysOrPasses state := by
    rcases first.staysOrPasses state with ⟨value, later, read, readEnclosed⟩ | passes
    · exact staysOrPasses_of_eq (second value) (bind_of_eq_some read)
        fun more => bind_of_eq_some (readEnclosed more)
    · -- the second reader starts behind the parenthesis, or at the end of the text
      right
      constructor
      · intro more result last readBoth
        rcases exists_of_bind_eq_some readBoth with ⟨value, later, readFirst, readSecond⟩
        rcases passes.past readFirst with isPast | isAstray
        · exact Or.inl (isPast.of_suffix ((second value).suffix readSecond))
        · exact returns isAstray readSecond
      · intro result last readBoth
        rcases exists_of_bind_eq_some readBoth with ⟨value, later, readFirst, readSecond⟩
        rcases passes.atEnd readFirst with ⟨ended, readEnclosed⟩
        have suffix := (second value).suffix readSecond
        rw [ended, List.suffix_nil] at suffix
        rw [bind_of_eq_some readEnclosed]
        exact ⟨suffix, readSecond⟩

theorem bind {reader : PatternReader Value} {next : Value → PatternReader Other}
    (first : IsLocal reader) (second : ∀ value, IsLocalUpTo astrayNext (next value)) :
    IsLocalUpTo astrayNext (reader >>= next) :=
  first.bind_of_returns second False.elim

theorem mono {astrayToo : Value → PatternState → Text → Prop} {reader : PatternReader Value}
    (isLocal : IsLocalUpTo astray reader)
    (included : ∀ {value later more}, astray value later more → astrayToo value later more) :
    IsLocalUpTo astrayToo reader where
  suffix := isLocal.suffix
  staysOrPasses state := by
    rcases isLocal.staysOrPasses state with stays | passes
    · exact Or.inl stays
    · right
      exact ⟨fun read => (passes.past read).imp_right included, passes.atEnd⟩

theorem of_stays {reader : PatternReader Value}
    (stays : ∀ state, ∃ value later, reader state = some (value, later) ∧
      later.rest <:+ state.rest ∧
      ∀ more, reader (state.enclosed more) = some (value, later.enclosed more)) :
    IsLocalUpTo astray reader where
  suffix {state later value} read := by
    rcases stays state with ⟨found, place, readState, suffix, _⟩
    rw [readState, Option.some.injEq, Prod.mk.injEq] at read
    rw [← read.2]
    exact suffix
  staysOrPasses state := by
    rcases stays state with ⟨value, later, read, _, readEnclosed⟩
    exact Or.inl ⟨value, later, read, readEnclosed⟩

theorem pure (value : Value) : IsLocalUpTo astray (pure value) := by
  apply of_stays
  intro state
  exact ⟨value, state, rfl, List.suffix_rfl, fun _ => rfl⟩

theorem refuse : IsLocalUpTo astray (refuse : PatternReader Value) where
  suffix read := by contradiction
  staysOrPasses state := by
    right
    apply Passes.of_eq_none rfl
    intro more value later read
    contradiction

theorem refuse_bind (next : Other → PatternReader Value) :
    IsLocalUpTo astray (PatternReader.refuse >>= next) :=
  refuse

theorem ite {condition : Prop} [Decidable condition] {first second : PatternReader Value}
    (isLocalFirst : IsLocalUpTo astray first) (isLocalSecond : IsLocalUpTo astray second) :
    IsLocalUpTo astray (if condition then first else second) := by
  split
  · exact isLocalFirst
  · exact isLocalSecond

/-- What depends on the state, but not on the rest of the text. -/
theorem get_bind {next : PatternState → PatternReader Value}
    (same : ∀ state more, next (state.enclosed more) = next state)
    (isLocal : ∀ state, IsLocalUpTo astray (next state)) :
    IsLocalUpTo astray (get >>= next) where
  suffix read := (isLocal _).suffix read
  staysOrPasses state := by
    apply staysOrPasses_of_eq (isLocal state) (get_bind_eq next state)
    intro more
    exact congrFun (same state more) (state.enclosed more)

/-- What does the same at the end of the text as before a closing parenthesis. -/
theorem peek_bind {next : Option Char → PatternReader Value} (same : next none = next (some ')'))
    (isLocal : ∀ c?, IsLocalUpTo astray (next c?)) : IsLocalUpTo astray (peek? >>= next) := by
  rw [show (peek? >>= next) = (get >>= fun state => next state.rest.head?) from rfl]
  apply get_bind
  · intro state more
    cases state with
    | mk rest flags groups names =>
      cases rest with
      | nil => exact same.symm
      | cons c rest => rfl
  · intro state
    exact isLocal _

theorem modify {astray : Unit → PatternState → Text → Prop}
    {change : PatternState → PatternState}
    (suffix : ∀ state, (change state).rest <:+ state.rest)
    (commutes : ∀ state more, change (state.enclosed more) = (change state).enclosed more) :
    IsLocalUpTo astray (modify change) := by
  apply of_stays
  intro state
  refine ⟨(), change state, rfl, suffix state, ?_⟩
  intro more
  rw [← commutes]
  rfl

end IsLocalUpTo

/-! ## Taking characters -/

theorem after?_enclosed {start : Text} (absent : ')' ∉ start) (text more : Text) :
    Text.after? start (text ++ ')' :: more) = (Text.after? start text).map (· ++ ')' :: more) := by
  induction start generalizing text with
  | nil => rfl
  | cons expected start ih =>
    rw [List.mem_cons, not_or] at absent
    cases text with
    | nil => simp [Text.after?, Ne.symm absent.1]
    | cons actual text =>
      by_cases same : expected = actual
      · simp [Text.after?, same, ih absent.2]
      · simp [Text.after?, same]

theorem takeWhile_enclosed {condition : Char → Bool} (stops : condition ')' = false)
    (text more : Text) :
    (text ++ ')' :: more).takeWhile condition = text.takeWhile condition := by
  induction text with
  | nil => simp [stops]
  | cons c text ih => simp only [List.cons_append, List.takeWhile_cons, ih]

theorem dropWhile_enclosed {condition : Char → Bool} (stops : condition ')' = false)
    (text more : Text) :
    (text ++ ')' :: more).dropWhile condition = text.dropWhile condition ++ ')' :: more := by
  induction text with
  | nil => simp [stops]
  | cons c text ih =>
    simp only [List.cons_append, List.dropWhile_cons, ih]
    split <;> rfl

theorem isLocal_take : IsLocal take where
  suffix {state later value} read := by
    rcases state with ⟨_ | ⟨c, rest⟩, flags, groups, names⟩
    · contradiction
    · cases read
      exact List.suffix_cons _ _
  staysOrPasses state := by
    rcases state with ⟨_ | ⟨c, rest⟩, flags, groups, names⟩
    · right
      apply Passes.of_eq_none rfl
      intro more value later read
      cases read
      exact Or.inl (Nat.le_refl _)
    · exact Or.inl ⟨_, _, rfl, fun _ => rfl⟩

theorem takeIf_eq (expected : String) (state : PatternState) :
    takeIf expected state =
      match Text.after? expected.toList state.rest with
      | some rest => some (true, { state with rest })
      | none => some (false, state) := by
  rw [takeIf, get_bind_eq]
  cases Text.after? expected.toList state.rest <;> rfl

theorem isLocal_takeIf {expected : String} (absent : ')' ∉ expected.toList) :
    IsLocal (takeIf expected) := by
  apply IsLocalUpTo.of_stays
  intro state
  simp only [takeIf_eq, PatternState.rest_enclosed, after?_enclosed absent]
  cases found : Text.after? expected.toList state.rest with
  | none => exact ⟨false, state, rfl, List.suffix_rfl, fun _ => rfl⟩
  | some rest =>
    refine ⟨true, { state with rest }, rfl, ?_, fun _ => rfl⟩
    rw [Text.after?_eq_some_iff.mp found]
    exact List.suffix_append _ _

theorem drop_one_of_cons {state : PatternState} {c : Char} {text : Text}
    (isNext : state.rest = c :: text) : drop 1 state = some ((), { state with rest := text }) := by
  rcases state with ⟨rest, flags, groups, names⟩
  cases isNext
  rfl

theorem isLocal_drop_one : IsLocal (drop 1) where
  suffix {state later value} read := by
    cases read
    exact List.drop_suffix 1 state.rest
  staysOrPasses state := by
    rcases state with ⟨_ | ⟨c, rest⟩, flags, groups, names⟩
    · right
      constructor
      · intro more value later read
        cases read
        exact Or.inl (Nat.le_refl _)
      · intro value later read
        cases read
        exact ⟨rfl, rfl⟩
    · exact Or.inl ⟨_, _, rfl, fun _ => rfl⟩

theorem drop_length_takeWhile (condition : Char → Bool) (text : Text) :
    text.drop (text.takeWhile condition).length = text.dropWhile condition := by
  induction text with
  | nil => rfl
  | cons c text ih => by_cases satisfied : condition c <;> simp [satisfied, ih]

theorem takeWhile_eq (condition : Char → Bool) (state : PatternState) :
    takeWhile condition state =
      some (state.rest.takeWhile condition,
        { state with rest := state.rest.dropWhile condition }) := by
  change some (_, { state with rest := state.rest.drop _ }) = _
  rw [drop_length_takeWhile]

theorem isLocal_takeWhile {condition : Char → Bool} (stops : condition ')' = false) :
    IsLocal (takeWhile condition) := by
  apply IsLocalUpTo.of_stays
  intro state
  refine ⟨_, _, takeWhile_eq condition state, List.dropWhile_suffix condition, ?_⟩
  intro more
  rw [takeWhile_eq, PatternState.rest_enclosed, takeWhile_enclosed stops, dropWhile_enclosed stops]
  rfl

theorem takeUntil_eq (last : Char) (state : PatternState) :
    takeUntil last state =
      match state.rest.dropWhile (· ≠ last) with
      | [] => none
      | _ :: rest => some (state.rest.takeWhile (· ≠ last), { state with rest }) := by
  rw [takeUntil, bind_of_eq_some (takeWhile_eq _ _)]
  cases state.rest.dropWhile (· ≠ last) <;> rfl

theorem isLocal_takeUntil {last : Char} (other : ')' ≠ last) : IsLocal (takeUntil last) where
  suffix {state later value} read := by
    rw [takeUntil_eq] at read
    split at read
    · contradiction
    · rename_i c rest isRest
      cases read
      have suffix : c :: rest <:+ state.rest := isRest ▸ List.dropWhile_suffix _
      exact (List.suffix_cons c rest).trans suffix
  staysOrPasses state := by
    cases isRest : state.rest.dropWhile (· ≠ last) with
    | nil =>
      right
      have all : ∀ c ∈ state.rest, decide (c ≠ last) = true := List.dropWhile_eq_nil_iff.mp isRest
      apply Passes.of_eq_none
      · rw [takeUntil_eq, isRest]
      · intro more value later read
        left
        rw [takeUntil_eq, PatternState.rest_enclosed, List.dropWhile_append_of_pos all,
          List.dropWhile_cons_of_pos (by simpa using other)] at read
        split at read
        · contradiction
        · rename_i c rest isMore
          cases read
          have suffix : c :: rest <:+ more := isMore ▸ List.dropWhile_suffix _
          exact ((List.suffix_cons c rest).trans suffix).length_le
    | cons c rest =>
      left
      have shorter : (state.rest.takeWhile (· ≠ last)).length ≠ state.rest.length := by
        have lengths := congrArg List.length (List.takeWhile_append_dropWhile :
          state.rest.takeWhile (· ≠ last) ++ state.rest.dropWhile (· ≠ last) = state.rest)
        rw [isRest, List.length_append, List.length_cons] at lengths
        omega
      refine ⟨_, { state with rest }, by rw [takeUntil_eq, isRest], ?_⟩
      intro more
      rw [takeUntil_eq, PatternState.rest_enclosed, List.dropWhile_append, isRest,
        List.takeWhile_append, if_neg shorter]
      rfl

/-! ## Skipping white space and comments -/

theorem afterSpace_suffix (inComment : Bool) (text : Text) :
    afterSpace inComment text <:+ text := by
  induction text generalizing inComment with
  | nil => exact List.suffix_rfl
  | cons c rest ih =>
    have skipped : ∀ inComment, afterSpace inComment rest <:+ c :: rest :=
      fun inComment => (ih inComment).trans (List.suffix_cons c rest)
    rw [afterSpace]
    split
    · exact skipped _
    · split
      · exact skipped _
      · split
        · exact skipped _
        · exact List.suffix_rfl

theorem withoutSpace_suffix (flags : PatternFlags) (text : Text) :
    withoutSpace flags text <:+ text := by
  rw [withoutSpace]
  split
  · exact afterSpace_suffix false text
  · exact List.suffix_rfl

theorem afterSpace_afterSpace (inComment : Bool) (text : Text) :
    afterSpace false (afterSpace inComment text) = afterSpace inComment text := by
  induction text generalizing inComment with
  | nil => rfl
  | cons c rest ih =>
    rw [afterSpace]
    split
    · exact ih _
    · split
      · exact ih _
      · split
        · exact ih _
        · rename_i notBlank notHash
          rw [afterSpace, if_neg Bool.false_ne_true, if_neg notBlank, if_neg notHash]

theorem withoutSpace_withoutSpace (flags : PatternFlags) (text : Text) :
    withoutSpace flags (withoutSpace flags text) = withoutSpace flags text := by
  simp only [withoutSpace]
  split
  · exact afterSpace_afterSpace false text
  · rfl

theorem afterSpace_enclosed (inComment : Bool) (text : Text) :
    (∀ more, afterSpace inComment (text ++ ')' :: more) =
        afterSpace inComment text ++ ')' :: more) ∨
      afterSpace inComment text = [] ∧ afterSpace inComment (text ++ [')']) = [] ∧
        ∀ more, afterSpace inComment (text ++ ')' :: more) <:+ more := by
  induction text generalizing inComment with
  | nil =>
    cases inComment with
    | true => exact Or.inr ⟨rfl, rfl, fun more => afterSpace_suffix true more⟩
    | false => exact Or.inl fun _ => rfl
  | cons c rest ih =>
    simp only [List.cons_append, afterSpace]
    split
    · exact ih _
    · split
      · exact ih _
      · split
        · exact ih _
        · exact Or.inl fun _ => rfl

/-- A parenthesis is found again behind white space and comments, unless a comment is open there. -/
theorem withoutSpace_enclosed (flags : PatternFlags) (text : Text) :
    (∀ more, withoutSpace flags (text ++ ')' :: more) = withoutSpace flags text ++ ')' :: more) ∨
      withoutSpace flags text = [] ∧ withoutSpace flags (text ++ [')']) = [] ∧
        ∀ more, withoutSpace flags (text ++ ')' :: more) <:+ more := by
  simp only [withoutSpace]
  split
  · exact afterSpace_enclosed false text
  · exact Or.inl fun _ => rfl

theorem skipSpace_eq (state : PatternState) :
    skipSpace state = some ((), { state with rest := withoutSpace state.flags state.rest }) :=
  rfl

theorem isLocal_skipSpace : IsLocal skipSpace where
  suffix {state later value} read := by
    cases read
    exact withoutSpace_suffix _ _
  staysOrPasses state := by
    rcases withoutSpace_enclosed state.flags state.rest with kept | ⟨ended, endedToo, past⟩
    · left
      refine ⟨_, _, skipSpace_eq state, ?_⟩
      intro more
      rw [skipSpace_eq, PatternState.rest_enclosed, PatternState.flags_enclosed, kept]
      rfl
    · right
      constructor
      · intro more value later read
        cases read
        exact Or.inl (past more).length_le
      · intro value later read
        cases read
        refine ⟨ended, ?_⟩
        change _ = some ((), { state with rest := withoutSpace state.flags state.rest })
        rw [skipSpace_eq, PatternState.rest_enclosed, PatternState.flags_enclosed, endedToo, ended]
        rfl

end PatternReader

end LiterateMarkdown
