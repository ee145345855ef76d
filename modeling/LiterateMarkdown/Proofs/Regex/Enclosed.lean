import LiterateMarkdown.Proofs.Regex.Locality

/-!
# Patterns before a parenthesis

Every reader of a part of a pattern stays before a closing parenthesis or passes it. Readers in
sequence inherit this, so for most of them it is read off the definition. The two that look ahead
over comments go astray at a brace and at a dash (`isLocal_readBoundary`, `isLocal_readClassItem`).
What goes on from there meets the same mark again, and is past the parenthesis when it is done with
it (`isPast_of_readParts`, `isPast_of_readClassRest`). So whole classes and whole patterns do not go
astray (`classesAreLocal`, `patternsAreLocal`).
-/

namespace LiterateMarkdown

namespace PatternReader

/-! ## Escapes -/

theorem isLocal_takeSpaced : IsLocal takeSpaced := by
  refine isLocal_take.bind fun c => ?_
  exact isLocal_skipSpace.bind fun _ => .pure c

theorem isLocal_complementIf (negated : Bool) (members : CharClass) :
    IsLocal (complementIf negated members) := by
  apply IsLocalUpTo.ite
  · exact .pure _
  · apply IsLocalUpTo.get_bind
    · intro state more
      rfl
    · intro state
      exact .ite (.pure _) .refuse

theorem isLocal_hexChar (digits : Text) : IsLocal (hexChar digits) := by
  unfold hexChar
  split
  · exact .ite (.pure _) .refuse
  · exact .refuse

theorem isLocal_takeSpacedTimes (count : Nat) : IsLocal (takeSpacedTimes count) := by
  induction count with
  | zero => exact .pure []
  | succ count ih =>
    refine isLocal_takeSpaced.bind fun c => ?_
    exact ih.bind fun rest => .pure _

theorem isLocal_readHex (count : Nat) : IsLocal (readHex count) := by
  refine isLocal_skipSpace.bind fun _ => ?_
  apply IsLocalUpTo.peek_bind rfl
  intro c?
  apply IsLocalUpTo.ite
  · refine isLocal_take.bind fun _ => ?_
    apply IsLocalUpTo.get_bind
    · intro state more
      rfl
    · intro state
      refine (isLocal_takeUntil (by decide)).bind fun digits => ?_
      exact isLocal_hexChar _
  · refine (isLocal_takeSpacedTimes count).bind fun digits => ?_
    refine (isLocal_hexChar digits).bind fun c => ?_
    apply IsLocalUpTo.get_bind
    · intro state more
      rfl
    · intro state
      apply IsLocalUpTo.ite
      · exact .refuse_bind _
      · exact .pure c

theorem isLocal_readPropertyClass [PatternLibrary] : IsLocal readPropertyClass := by
  refine isLocal_take.bind fun first => ?_
  apply IsLocalUpTo.ite
  · refine (isLocal_takeUntil (by decide)).bind fun name => ?_
    split
    · exact .pure _
    · exact .refuse
  · split
    · exact isLocal_skipSpace.bind fun _ => .pure _
    · exact .refuse

theorem isLocal_readProperty [PatternLibrary] (negated : Bool) :
    IsLocal (readProperty negated) := by
  refine isLocal_skipSpace.bind fun _ => ?_
  apply IsLocalUpTo.get_bind
  · intro state more
    rfl
  · intro state
    apply IsLocalUpTo.ite
    · refine isLocal_readPropertyClass.bind fun found => ?_
      exact isLocal_complementIf _ _
    · exact .refuse

theorem isLocal_readBoundaryName (ascii : Bool) : IsLocal (readBoundaryName ascii) := by
  refine (isLocal_takeUntil (by decide)).bind fun name => ?_
  apply IsLocalUpTo.get_bind
  · intro state more
    rfl
  · intro state
    split
    · exact .pure _
    · exact .refuse

/-- A mark comes next, and then nothing but white space and comments up to some text. -/
def IsNextBefore (mark : Char) (target : Text) (state : PatternState) : Prop :=
  ∃ text, state.rest = mark :: text ∧ withoutSpace state.flags text <:+ target

theorem readBoundary_of_other (ascii : Bool) {state : PatternState}
    (other : Text.after? ['\x7b'] state.rest = none) :
    readBoundary ascii state = some (.wordBoundary false ascii, state) := by
  have isOther : takeIf "\x7b" state = some (false, state) := by
    rw [takeIf_eq, show "\x7b".toList = ['\x7b'] from rfl, other]
  rw [readBoundary, get_bind_eq, bind_of_eq_some isOther]
  rfl

theorem readBoundary_of_brace (ascii : Bool) {state : PatternState} {rest : Text}
    (brace : Text.after? ['\x7b'] state.rest = some rest) :
    readBoundary ascii state =
      match withoutSpace state.flags rest with
      | [] => none
      | first :: after =>
        if first.isAlpha || first = '-' then
          readBoundaryName ascii { state with rest := first :: after }
        else some (.wordBoundary false ascii, state) := by
  have isBrace : takeIf "\x7b" state = some (true, { state with rest }) := by
    rw [takeIf_eq, show "\x7b".toList = ['\x7b'] from rfl, brace]
  rw [readBoundary, get_bind_eq, bind_of_eq_some isBrace]
  change (skipSpace >>= _) _ = _
  rw [bind_of_eq_some (skipSpace_eq _), peek?_bind_eq]
  cases withoutSpace state.flags rest with
  | nil => rfl
  | cons first after =>
    simp only [List.head?_cons]
    split <;> rfl

theorem readBoundary_suffix {ascii : Bool} {state later : PatternState} {condition : Anchor}
    (read : readBoundary ascii state = some (condition, later)) : later.rest <:+ state.rest := by
  cases brace : Text.after? ['\x7b'] state.rest with
  | none =>
    rw [readBoundary_of_other ascii brace] at read
    cases read
    exact List.suffix_rfl
  | some rest =>
    rw [readBoundary_of_brace ascii brace] at read
    split at read
    · contradiction
    · rename_i first after skipped
      split at read
      · have inName := (isLocal_readBoundaryName ascii).suffix read
        have inRest := withoutSpace_suffix state.flags rest
        rw [skipped] at inRest
        rw [Text.after?_eq_some_iff.mp brace]
        exact (inName.trans inRest).trans (List.suffix_append _ _)
      · cases read
        exact List.suffix_rfl

/-- After an escaped `b` and a brace nothing but space comes before the parenthesis. -/
theorem passes_readBoundary (ascii : Bool) {state : PatternState} {rest : Text}
    (brace : Text.after? ['\x7b'] state.rest = some rest)
    (nothing : withoutSpace state.flags rest = [])
    (behind : ∀ more, withoutSpace state.flags (rest ++ ')' :: more) <:+ ')' :: more) :
    Passes (fun _ later more => IsNextBefore '\x7b' (')' :: more) later) (readBoundary ascii)
      state := by
  apply Passes.of_eq_none
  · rw [readBoundary_of_brace ascii brace, nothing]
  · intro more condition later read
    have braceToo : Text.after? ['\x7b'] (state.enclosed more).rest =
        some (rest ++ ')' :: more) := by
      rw [PatternState.rest_enclosed, after?_enclosed (by decide), brace]
      rfl
    have behindMore := behind more
    rw [readBoundary_of_brace ascii braceToo, PatternState.flags_enclosed] at read
    split at read
    · contradiction
    · rename_i first after skipped
      split at read
      · rename_i beginsName
        left
        have inName := (isLocal_readBoundaryName ascii).suffix read
        rw [skipped] at behindMore
        rcases List.suffix_cons_iff.mp behindMore with same | inMore
        · cases same
          contradiction
        · exact (inName.trans inMore).length_le
      · cases read
        right
        exact ⟨rest ++ ')' :: more, Text.after?_eq_some_iff.mp braceToo, behindMore⟩

/-- An escaped `b` before braces comes back to them if they hold nothing but space so far. -/
theorem isLocal_readBoundary (ascii : Bool) :
    IsLocalUpTo (fun _ later more => IsNextBefore '\x7b' (')' :: more) later)
      (readBoundary ascii) where
  suffix := readBoundary_suffix
  staysOrPasses state := by
    have sameBrace : ∀ more, Text.after? ['\x7b'] (state.enclosed more).rest =
        (Text.after? ['\x7b'] state.rest).map (· ++ ')' :: more) :=
      fun more => after?_enclosed (by decide) state.rest more
    cases brace : Text.after? ['\x7b'] state.rest with
    | none =>
      left
      refine ⟨_, _, readBoundary_of_other ascii brace, ?_⟩
      intro more
      apply readBoundary_of_other
      rw [sameBrace, brace]
      rfl
    | some rest =>
      simp only [brace, Option.map_some] at sameBrace
      rcases withoutSpace_enclosed state.flags rest with kept | ⟨ended, _, past⟩
      · cases skipped : withoutSpace state.flags rest with
        | nil =>
          right
          apply passes_readBoundary ascii brace skipped
          intro more
          rw [kept, skipped]
          exact List.suffix_rfl
        | cons first after =>
          have opened := readBoundary_of_brace ascii brace
          have enclosed := fun more => readBoundary_of_brace ascii (sameBrace more)
          simp only [PatternState.flags_enclosed, kept, skipped, List.cons_append]
            at opened enclosed
          by_cases isName : (first.isAlpha || decide (first = '-')) = true
          · simp only [if_pos isName] at opened enclosed
            exact staysOrPasses_of_eq ((isLocal_readBoundaryName ascii).mono False.elim) opened
              enclosed
          · simp only [if_neg isName] at opened enclosed
            exact Or.inl ⟨_, _, opened, enclosed⟩
      · right
        apply passes_readBoundary ascii brace ended
        intro more
        exact (past more).trans (List.suffix_cons _ _)

/-- A condition on a place was read where an escaped `b` goes astray. -/
def IsAnchorAstray (found : Primitive) (later : PatternState) (more : Text) : Prop :=
  (∃ condition, found = .anchor condition) ∧ IsNextBefore '\x7b' (')' :: more) later

theorem isLocal_readEscape [PatternLibrary] : IsLocalUpTo IsAnchorAstray readEscape := by
  refine isLocal_take.bind fun c => ?_
  apply IsLocalUpTo.get_bind
  · intro state more
    rfl
  · intro state
    dsimp only
    split
    · exact (isLocal_complementIf _ _).bind fun _ => .pure _
    · exact .pure _
    · exact (isLocal_readHex 2).bind fun _ => .pure _
    · exact (isLocal_readHex 4).bind fun _ => .pure _
    · exact (isLocal_readHex 8).bind fun _ => .pure _
    · exact (isLocal_readProperty false).bind fun _ => .pure _
    · exact (isLocal_readProperty true).bind fun _ => .pure _
    · exact .pure _
    · exact .pure _
    · apply (isLocal_readBoundary _).bind_of_returns fun _ => .pure _
      intro condition later more result last isNext read
      cases read
      exact Or.inr ⟨⟨condition, rfl⟩, isNext⟩
    · exact .pure _
    · exact .pure _
    · exact .pure _
    · exact .ite .refuse (.pure _)

/-! ## Classes in brackets -/

theorem isLocal_takeOperation? : IsLocal takeOperation? := by
  refine (isLocal_takeIf (by decide)).bind fun isIntersection => ?_
  apply IsLocalUpTo.ite (.pure _)
  refine (isLocal_takeIf (by decide)).bind fun isDifference => ?_
  apply IsLocalUpTo.ite (.pure _)
  refine (isLocal_takeIf (by decide)).bind fun isSymmetric => ?_
  exact .ite (.pure _) (.pure _)

theorem isLocal_literalClass (first last : Char) : IsLocal (literalClass first last) := by
  apply IsLocalUpTo.get_bind
  · intro state more
    rfl
  · intro state
    exact .ite (.pure _) .refuse

theorem isLocal_takeDashes (steps : Nat) : IsLocal (takeDashes steps) := by
  induction steps with
  | zero => exact .pure _
  | succ steps ih =>
    apply IsLocalUpTo.peek_bind rfl
    intro c?
    apply IsLocalUpTo.ite
    · refine isLocal_takeSpaced.bind fun _ => ?_
      exact ih.bind fun _ => .pure _
    · exact .pure _

theorem isLocal_takeNegation : IsLocal takeNegation := by
  apply IsLocalUpTo.peek_bind rfl
  intro c?
  apply IsLocalUpTo.ite
  · exact isLocal_takeSpaced.bind fun _ => .pure true
  · exact .pure false

theorem isLocal_takeClassStart (steps : Nat) : IsLocal (takeClassStart steps) := by
  apply IsLocalUpTo.peek_bind rfl
  intro c?
  apply IsLocalUpTo.ite (isLocal_takeDashes steps)
  apply IsLocalUpTo.ite
  · exact isLocal_takeSpaced.bind fun _ => .pure _
  · exact .pure _

theorem isLocal_classPrimitiveFrom [PatternLibrary] (first : Char) :
    IsLocalUpTo (fun found _ _ => ∃ condition, found = .anchor condition)
      (classPrimitiveFrom first) := by
  unfold classPrimitiveFrom
  split
  · exact isLocal_readEscape.mono And.left
  · exact .pure _

theorem isLocal_readClassPrimitive [PatternLibrary] :
    IsLocalUpTo (fun found _ _ => ∃ condition, found = .anchor condition) readClassPrimitive :=
  isLocal_take.bind isLocal_classPrimitiveFrom

theorem parenthesis_not_mem_of_ofAsciiName? {name : Text} {members : CharClass}
    (found : CharClass.ofAsciiName? name = some members) : ')' ∉ name := by
  rcases List.lookup_eq_some_iff.mp found with ⟨before, after, entries, _⟩
  have named : ∀ known ∈ ["alnum", "alpha", "ascii", "blank", "cntrl", "digit", "graph", "lower",
      "print", "punct", "space", "upper", "word", "xdigit"], ')' ∉ known.toList := by decide
  have isKnown := named (String.ofList name) (by
    have isEntry : (String.ofList name, members) ∈
        before ++ (String.ofList name, members) :: after :=
      List.mem_append_right _ List.mem_cons_self
    rw [← entries] at isEntry
    exact List.mem_map_of_mem (f := Prod.fst) isEntry)
  simpa using isKnown

theorem asciiName?_suffix {text rest : Text} {members : CharClass}
    (found : asciiName? text = some (members, rest)) : rest <:+ text := by
  rw [asciiName?, Option.bind_eq_bind, Option.bind_eq_some_iff] at found
  rcases found with ⟨_, _, found⟩
  rw [Option.bind_eq_bind, Option.bind_eq_some_iff] at found
  rcases found with ⟨after, isAfter, found⟩
  cases found
  have parts := Text.after?_eq_some_iff.mp isAfter
  exact ⟨_, parts.symm⟩

/-- The name of a class ends before the parenthesis, or there is none. -/
theorem asciiName?_enclosed (text more : Text) :
    asciiName? (text ++ ')' :: more) =
      (asciiName? text).map fun found => (found.1, found.2 ++ ')' :: more) := by
  simp only [asciiName?, List.takeWhile_append]
  by_cases endless : (text.takeWhile (· ≠ ':')).length = text.length
  · have isName : text.takeWhile (· ≠ ':') = text :=
      (List.takeWhile_prefix _).eq_of_length endless
    have noName : CharClass.ofAsciiName? (text ++ (')' :: more).takeWhile (· ≠ ':')) = none := by
      cases found : CharClass.ofAsciiName? (text ++ (')' :: more).takeWhile (· ≠ ':')) with
      | none => rfl
      | some members => exact absurd (by simp) (parenthesis_not_mem_of_ofAsciiName? found)
    have noEnd : Text.after? (text ++ [':', ']']) text = none := by
      cases found : Text.after? (text ++ [':', ']']) text with
      | none => rfl
      | some rest =>
        have lengths := congrArg List.length (Text.after?_eq_some_iff.mp found)
        simp only [List.length_append, List.length_cons] at lengths
        omega
    rw [if_pos endless, noName, isName, noEnd]
    cases CharClass.ofAsciiName? text <;> rfl
  · rw [if_neg endless]
    cases found : CharClass.ofAsciiName? (text.takeWhile (· ≠ ':')) with
    | none => rfl
    | some members =>
      have absent := parenthesis_not_mem_of_ofAsciiName? found
      have absentToo : ')' ∉ text.takeWhile (· ≠ ':') ++ [':', ']'] := by
        rw [List.mem_append, not_or]
        exact ⟨absent, by decide⟩
      simp only [Option.bind_eq_bind, Option.bind_some, after?_enclosed absentToo]
      cases Text.after? (text.takeWhile (· ≠ ':') ++ [':', ']']) text <;> rfl

theorem asciiClass?_suffix {text rest : Text} {negated : Bool} {members : CharClass}
    (found : asciiClass? text = some (negated, members, rest)) :
    ∃ inside, text = '[' :: ':' :: inside ∧ rest <:+ inside := by
  rw [asciiClass?, Option.bind_eq_bind, Option.bind_eq_some_iff] at found
  rcases found with ⟨inside, isInside, found⟩
  refine ⟨inside, Text.after?_eq_some_iff.mp isInside, ?_⟩
  split at found
  · rcases Option.map_eq_some_iff.mp found with ⟨_, named, same⟩
    cases same
    exact (asciiName?_suffix named).trans (List.drop_suffix 1 inside)
  · rcases Option.map_eq_some_iff.mp found with ⟨_, named, same⟩
    cases same
    exact asciiName?_suffix named

theorem asciiClass?_enclosed (text more : Text) :
    asciiClass? (text ++ ')' :: more) =
      (asciiClass? text).map fun found => (found.1, found.2.1, found.2.2 ++ ')' :: more) := by
  simp only [asciiClass?, after?_enclosed (show ')' ∉ ['[', ':'] by decide)]
  cases Text.after? ['[', ':'] text with
  | none => rfl
  | some inside =>
    have sameName := asciiName?_enclosed inside more
    cases inside with
    | nil =>
      rw [List.nil_append] at sameName
      simp [sameName, Function.comp_def]
    | cons first inside =>
      by_cases isNegated : first = '^'
      · simp [isNegated, asciiName?_enclosed, Function.comp_def]
      · rw [List.cons_append] at sameName
        simp [isNegated, sameName, Function.comp_def]

theorem takeAsciiClass?_of_none {state : PatternState} (other : asciiClass? state.rest = none) :
    takeAsciiClass? state = some (none, state) := by
  rw [takeAsciiClass?, get_bind_eq, other]
  rfl

theorem takeAsciiClass?_of_some {state : PatternState} {negated : Bool} {members : CharClass}
    {rest : Text} (isClass : asciiClass? state.rest = some (negated, members, rest)) :
    takeAsciiClass? state =
      (complementIf negated (inAnyCase state.flags members) >>= fun found => pure (some found) :
        PatternReader (Option CharClass)) { state with rest } := by
  rw [takeAsciiClass?, get_bind_eq, isClass]
  rfl

theorem isLocal_takeAsciiClass? : IsLocal takeAsciiClass? where
  suffix {state later value} read := by
    cases isClass : asciiClass? state.rest with
    | none =>
      rw [takeAsciiClass?_of_none isClass] at read
      cases read
      exact List.suffix_rfl
    | some found =>
      rw [takeAsciiClass?_of_some isClass] at read
      have isLocal := (isLocal_complementIf found.1 (inAnyCase state.flags found.2.1)).bind
        fun members => (.pure (some members) : IsLocal _)
      rcases asciiClass?_suffix isClass with ⟨inside, isInside, suffix⟩
      rw [isInside]
      exact ((isLocal.suffix read).trans suffix).trans (List.suffix_append ['[', ':'] inside)
  staysOrPasses state := by
    have sameClass := asciiClass?_enclosed state.rest
    cases isClass : asciiClass? state.rest with
    | none =>
      left
      refine ⟨none, state, takeAsciiClass?_of_none isClass, ?_⟩
      intro more
      apply takeAsciiClass?_of_none
      rw [PatternState.rest_enclosed, sameClass, isClass]
      rfl
    | some found =>
      have isLocal := (isLocal_complementIf found.1 (inAnyCase state.flags found.2.1)).bind
        fun members => (.pure (some members) : IsLocal _)
      apply staysOrPasses_of_eq isLocal (takeAsciiClass?_of_some isClass)
      intro more
      apply takeAsciiClass?_of_some
      rw [PatternState.rest_enclosed, sameClass, isClass]
      rfl

theorem isLocal_primitiveClass (found : Primitive) : IsLocal (primitiveClass found) := by
  cases found with
  | literal c => exact isLocal_literalClass c c
  | chars members => exact .pure members
  | anchor condition => exact .refuse

theorem isLocal_rangeClass (first last : Primitive) : IsLocal (rangeClass first last) := by
  unfold rangeClass
  split
  · exact isLocal_literalClass _ _
  · exact .refuse

theorem isLocal_readRangeLast [PatternLibrary] (first : Primitive) :
    IsLocal (readClassPrimitive >>= rangeClass first) := by
  apply isLocal_readClassPrimitive.bind_of_returns (isLocal_rangeClass first)
  rintro last later more result place ⟨condition, rfl⟩ read
  cases first <;> contradiction

theorem isLocal_readRangeEnd [PatternLibrary] (first : Primitive) : IsLocal (readRangeEnd first) :=
  isLocal_takeSpaced.bind fun _ => isLocal_readRangeLast first

theorem primitiveClass_keeps {found : Primitive} {state later : PatternState} {members : CharClass}
    (read : primitiveClass found state = some (members, later)) : later = state := by
  cases found with
  | literal c =>
    have opened : primitiveClass (.literal c) state =
        (if c ≤ c ∧ (state.flags.unicode ∨ c.toNat < 0x80) then pure (.range c c) else refuse :
          PatternReader CharClass) state := rfl
    rw [opened] at read
    split at read
    · cases read
      rfl
    · contradiction
  | chars members =>
    cases read
    rfl
  | anchor condition => contradiction

theorem beginsRangeEnd_enclosed (flags : PatternFlags) (text : Text) :
    (∀ more, beginsRangeEnd flags (text ++ ')' :: more) = beginsRangeEnd flags text) ∨
      ∃ after, text = '-' :: after ∧ withoutSpace flags after = [] ∧
        ∀ more, withoutSpace flags (after ++ ')' :: more) <:+ more := by
  cases text with
  | nil => exact Or.inl fun _ => rfl
  | cons first after =>
    by_cases isDash : first = '-'
    · subst isDash
      rcases withoutSpace_enclosed flags after with kept | ⟨ended, _, past⟩
      · left
        intro more
        simp only [List.cons_append, beginsRangeEnd, kept]
        cases withoutSpace flags after <;> rfl
      · exact Or.inr ⟨after, rfl, ended, past⟩
    · left
      intro more
      simp [beginsRangeEnd, isDash]

/-- After a part of a class that looked for the end of a range over an open comment, a dash. -/
def IsDashAstray (_members : CharClass) (later : PatternState) (more : Text) : Prop :=
  IsNextBefore '-' more later

theorem readItemFrom_eq [PatternLibrary] (first : Primitive) (state : PatternState) :
    readItemFrom first state =
      if beginsRangeEnd state.flags state.rest then readRangeEnd first state
      else primitiveClass first state := by
  rw [readItemFrom, get_bind_eq]
  split <;> rfl

theorem readItemFrom_suffix [PatternLibrary] {first : Primitive} {state later : PatternState}
    {members : CharClass} (read : readItemFrom first state = some (members, later)) :
    later.rest <:+ state.rest := by
  rw [readItemFrom_eq] at read
  split at read
  · exact (isLocal_readRangeEnd first).suffix read
  · exact (isLocal_primitiveClass first).suffix read

theorem readRangeEnd_of_dash [PatternLibrary] (first : Primitive) {state : PatternState}
    {text : Text} (isDash : state.rest = '-' :: text) :
    readRangeEnd first state =
      (readClassPrimitive >>= rangeClass first)
        { state with rest := withoutSpace state.flags text } := by
  rcases state with ⟨rest, flags, groups, names⟩
  cases isDash
  rfl

/--
After a dash a comment is open at the end of the text. There is no end of a range in the text, and
one may be found or missed behind the comment.
-/
theorem passes_readItemFrom [PatternLibrary] (first : Primitive) {state : PatternState}
    {text : Text} (isDash : state.rest = '-' :: text)
    (ended : withoutSpace state.flags text = [])
    (past : ∀ more, withoutSpace state.flags (text ++ ')' :: more) <:+ more) :
    Passes IsDashAstray (readItemFrom first) state := by
  apply Passes.of_eq_none
  · have isRange : beginsRangeEnd state.flags state.rest = true := by
      simp [isDash, beginsRangeEnd, ended]
    rw [readItemFrom_eq, if_pos isRange, readRangeEnd_of_dash first isDash, ended]
    rfl
  · intro more members later read
    have isDashToo : (state.enclosed more).rest = '-' :: (text ++ ')' :: more) := by
      rw [PatternState.rest_enclosed, isDash]
      rfl
    rw [readItemFrom_eq] at read
    split at read
    · left
      rw [readRangeEnd_of_dash first isDashToo] at read
      exact (((isLocal_readRangeLast first).suffix read).trans (past more)).length_le
    · right
      rw [primitiveClass_keeps read]
      exact ⟨_, isDashToo, past more⟩

theorem isLocal_readItemFrom [PatternLibrary] (first : Primitive) :
    IsLocalUpTo IsDashAstray (readItemFrom first) where
  suffix := readItemFrom_suffix
  staysOrPasses state := by
    rcases beginsRangeEnd_enclosed state.flags state.rest with same | ⟨text, isDash, ended, past⟩
    · have enclosed := fun more => readItemFrom_eq first (state.enclosed more)
      simp only [PatternState.flags_enclosed, PatternState.rest_enclosed, same] at enclosed
      have opened := readItemFrom_eq first state
      by_cases isRange : beginsRangeEnd state.flags state.rest = true
      · simp only [if_pos isRange] at opened enclosed
        exact staysOrPasses_of_eq ((isLocal_readRangeEnd first).mono False.elim) opened enclosed
      · simp only [if_neg isRange] at opened enclosed
        exact staysOrPasses_of_eq ((isLocal_primitiveClass first).mono False.elim) opened enclosed
    · exact Or.inr (passes_readItemFrom first isDash ended past)

theorem isLocal_readClassItem [PatternLibrary] : IsLocalUpTo IsDashAstray readClassItem := by
  apply isLocal_readClassPrimitive.bind_of_returns
  · intro first
    exact isLocal_skipSpace.bind fun _ => isLocal_readItemFrom first
  · -- conditions are not for classes
    rintro found later more members last ⟨condition, rfl⟩ read
    rcases exists_of_bind_eq_some read with ⟨_, place, _, readClass⟩
    change (if beginsRangeEnd place.flags place.rest then readRangeEnd (.anchor condition)
      else refuse) place = _ at readClass
    split at readClass
    · rcases exists_of_bind_eq_some readClass with ⟨_, _, _, readLast⟩
      rcases exists_of_bind_eq_some readLast with ⟨_, _, _, classRead⟩
      contradiction
    · contradiction

theorem withoutSpace_of_other {flags : PatternFlags} {c : Char} (text : Text)
    (notBlank : Text.isBlank c = false) (notHash : c ≠ '#') :
    withoutSpace flags (c :: text) = c :: text := by
  rw [withoutSpace]
  split
  · simp [afterSpace, notBlank, notHash]
  · rfl

/-- Nothing is skipped before a character that is no white space and begins no comment. -/
theorem skipSpace_of_other {state : PatternState} {c : Char} {text : Text}
    (isNext : state.rest = c :: text) (notBlank : Text.isBlank c = false) (notHash : c ≠ '#') :
    skipSpace state = some ((), state) := by
  rcases state with ⟨rest, flags, groups, names⟩
  cases isNext
  rw [skipSpace_eq, withoutSpace_of_other text notBlank notHash]

theorem takeOperation?_of_dash {state : PatternState} {text : Text}
    (isNext : state.rest = '-' :: text) :
    takeOperation? state =
      match Text.after? ['-'] text with
      | some rest => some (some .difference, { state with rest })
      | none => some (none, state) := by
  rcases state with ⟨rest, flags, groups, names⟩
  cases isNext
  have notAnd : takeIf "&&" ⟨'-' :: text, flags, groups, names⟩ =
      some (false, ⟨'-' :: text, flags, groups, names⟩) := rfl
  have notTilde : takeIf "~~" ⟨'-' :: text, flags, groups, names⟩ =
      some (false, ⟨'-' :: text, flags, groups, names⟩) := rfl
  have dashes : takeIf "--" ⟨'-' :: text, flags, groups, names⟩ =
      match Text.after? ['-'] text with
      | some rest => some (true, ⟨rest, flags, groups, names⟩)
      | none => some (false, ⟨'-' :: text, flags, groups, names⟩) :=
    takeIf_eq _ _
  rw [takeOperation?, bind_of_eq_some notAnd, if_neg (by decide)]
  cases found : Text.after? ['-'] text with
  | some rest =>
    rw [found] at dashes
    rw [bind_of_eq_some dashes]
    rfl
  | none =>
    rw [found] at dashes
    rw [bind_of_eq_some dashes, if_neg (by decide), bind_of_eq_some notTilde]
    rfl

theorem isPast_of_readClassItem [PatternLibrary] {state later : PatternState} {more : Text}
    {members : CharClass}
    (isNext : IsNextBefore '-' more state) (read : readClassItem state = some (members, later)) :
    later.IsPast more := by
  rcases isNext with ⟨text, isDash, behind⟩
  have first : readClassPrimitive state = some (.literal '-', { state with rest := text }) := by
    rcases state with ⟨rest, flags, groups, names⟩
    cases isDash
    rfl
  rw [readClassItem, bind_of_eq_some first, bind_of_eq_some (skipSpace_eq _)] at read
  have suffix := (isLocal_readItemFrom (.literal '-')).suffix read
  exact (suffix.trans behind).length_le

/-- A part of a class may go astray at a dash, but from there the class goes past the parenthesis.
-/
theorem isPast_of_readClassRest [PatternLibrary] {steps : Nat}
    {pending : Option (CharClass × ClassOperation)} {members found : CharClass}
    {state later : PatternState} {more : Text}
    (suffix : ∀ {pending members found} {state later : PatternState},
      readClassRest steps pending members state = some (found, later) → later.rest <:+ state.rest)
    (isNext : IsNextBefore '-' more state)
    (read : readClassRest (steps + 1) pending members state = some (found, later)) :
    later.IsPast more := by
  rcases isNext with ⟨text, isDash, behind⟩
  rw [readClassRest, bind_of_eq_some (skipSpace_of_other isDash (by decide) (by decide)),
    get_bind_eq] at read
  rcases exists_of_bind_eq_some read with ⟨operation?, place, operates, readRest⟩
  rw [takeOperation?_of_dash isDash] at operates
  split at operates
  · rename_i rest isOperation
    cases operates
    rw [Text.after?_eq_some_iff.mp isOperation, List.singleton_append,
      withoutSpace_of_other rest (by decide) (by decide)] at behind
    exact ((suffix readRest).trans ((List.suffix_cons '-' rest).trans behind)).length_le
  · cases operates
    change (peek? >>= _) state = _ at readRest
    rw [peek?_bind_eq, isDash] at readRest
    change (readClassItem >>= _) state = _ at readRest
    rcases exists_of_bind_eq_some readRest with ⟨item, after, readItem, readMore⟩
    have isPast := isPast_of_readClassItem ⟨text, isDash, behind⟩ readItem
    exact isPast.of_suffix (suffix readMore)

/-- What holds of the readers of a class that take some number of steps. -/
structure ClassesAreLocal [PatternLibrary] (steps : Nat) : Prop where
  brackets : IsLocal (readBrackets steps)
  classRest (pending : Option (CharClass × ClassOperation)) (members : CharClass) :
    IsLocal (readClassRest steps pending members)
  afterDash {pending : Option (CharClass × ClassOperation)} {members found : CharClass}
    {state later : PatternState} {more : Text} :
    IsNextBefore '-' more state → readClassRest steps pending members state = some (found, later) →
      later.IsPast more

theorem classesAreLocal [PatternLibrary] (steps : Nat) : ClassesAreLocal steps := by
  induction steps with
  | zero =>
    refine ⟨.refuse, fun _ _ => .refuse, ?_⟩
    intros
    contradiction
  | succ steps ih =>
    constructor
    · rw [readBrackets]
      refine isLocal_skipSpace.bind fun _ => ?_
      refine isLocal_takeNegation.bind fun negated => ?_
      refine (isLocal_takeClassStart steps).bind fun first => ?_
      refine (ih.classRest none first).bind fun members => ?_
      apply IsLocalUpTo.get_bind
      · intro state more
        rfl
      · intro state
        exact isLocal_complementIf _ _
    · intro pending members
      rw [readClassRest]
      refine isLocal_skipSpace.bind fun _ => ?_
      apply IsLocalUpTo.get_bind
      · intro state more
        rfl
      · intro state
        refine isLocal_takeOperation?.bind fun operation? => ?_
        split
        · exact ih.classRest _ _
        · apply IsLocalUpTo.peek_bind rfl
          intro c?
          split
          · exact isLocal_drop_one.bind fun _ => .pure _
          · refine isLocal_takeAsciiClass?.bind fun class? => ?_
            split
            · exact ih.classRest _ _
            · refine isLocal_drop_one.bind fun _ => ?_
              exact ih.brackets.bind fun nested => ih.classRest _ _
          · -- the dash that a part comes back to begins the next one, or an operation
            apply isLocal_readClassItem.bind_of_returns fun item => ih.classRest _ _
            intro item later more found last isNext read
            exact Or.inl (ih.afterDash isNext read)
    · intro pending members found state later more isNext read
      exact isPast_of_readClassRest (ih.classRest _ _).suffix isNext read

/-! ## Repetitions -/

theorem isLocal_skipBlanks : IsLocal skipBlanks := by
  apply IsLocalUpTo.modify
  · intro state
    exact List.dropWhile_suffix _
  · intro state more
    have kept := dropWhile_enclosed (show Text.isBlank ')' = false by decide) state.rest more
    rw [PatternState.enclosed, PatternState.enclosed, kept]

theorem isLocal_readCount? : IsLocal readCount? := by
  refine isLocal_skipSpace.bind fun _ => ?_
  refine isLocal_skipBlanks.bind fun _ => ?_
  refine (isLocal_takeWhile (by decide)).bind fun digits => ?_
  refine isLocal_skipSpace.bind fun _ => ?_
  refine isLocal_skipBlanks.bind fun _ => ?_
  refine isLocal_skipSpace.bind fun _ => ?_
  apply IsLocalUpTo.ite (.pure _)
  exact .ite (.pure _) .refuse

theorem isLocal_readBounds : IsLocal readBounds := by
  refine isLocal_readCount?.bind fun least? => ?_
  split
  · refine isLocal_take.bind fun mark => ?_
    split
    · exact .pure _
    · refine isLocal_skipSpace.bind fun _ => ?_
      refine (isLocal_takeIf (by decide)).bind fun isOpen => ?_
      apply IsLocalUpTo.ite (.pure _)
      refine isLocal_readCount?.bind fun most? => ?_
      split
      · refine isLocal_take.bind fun last => ?_
        exact .ite (.refuse_bind _) (.pure _)
      · exact .refuse
    · exact .refuse
  · exact .refuse

theorem isLocal_readMark (mark : Char) : IsLocal (readMark mark) := by
  apply IsLocalUpTo.ite (.pure _)
  apply IsLocalUpTo.ite (.pure _)
  apply IsLocalUpTo.ite (.pure _)
  refine isLocal_readBounds.bind fun bounds => ?_
  exact isLocal_skipSpace.bind fun _ => .pure bounds

theorem isLocal_readRepetition (bounds : Nat × Option Nat) (body : Regex) :
    IsLocal (readRepetition bounds body) := by
  refine (isLocal_takeIf (by decide)).bind fun isLazy => ?_
  apply IsLocalUpTo.get_bind
  · intro state more
    rfl
  · intro state
    exact .pure _

theorem readBounds_withoutSpace (state : PatternState) :
    readBounds { state with rest := withoutSpace state.flags state.rest } = readBounds state := by
  have sameCount : readCount? { state with rest := withoutSpace state.flags state.rest } =
      readCount? state := by
    rw [readCount?, bind_of_eq_some (skipSpace_eq _), bind_of_eq_some (skipSpace_eq state),
      withoutSpace_withoutSpace]
  cases count : readCount? state with
  | none =>
    rw [readBounds, bind_of_eq_none count, bind_of_eq_none (sameCount.trans count)]
  | some found =>
    rw [readBounds, bind_of_eq_some count, bind_of_eq_some (sameCount.trans count)]

/-- The parenthesis is no number. -/
theorem readBounds_of_parenthesis {state : PatternState} {more : Text}
    (isNext : state.rest = ')' :: more) : readBounds state = none := by
  rcases state with ⟨rest, flags, groups, names⟩
  cases isNext
  have skips : skipSpace ⟨')' :: more, flags, groups, names⟩ =
      some ((), ⟨')' :: more, flags, groups, names⟩) :=
    skipSpace_of_other rfl (by decide) (by decide)
  have skipsBlanks : skipBlanks ⟨')' :: more, flags, groups, names⟩ =
      some ((), ⟨')' :: more, flags, groups, names⟩) := rfl
  have noDigits : takeWhile Char.isDigit ⟨')' :: more, flags, groups, names⟩ =
      some ([], ⟨')' :: more, flags, groups, names⟩) := rfl
  have noCount : readCount? ⟨')' :: more, flags, groups, names⟩ =
      some (none, ⟨')' :: more, flags, groups, names⟩) := by
    rw [readCount?, bind_of_eq_some skips, bind_of_eq_some skipsBlanks, bind_of_eq_some noDigits,
      bind_of_eq_some skips, bind_of_eq_some skipsBlanks, bind_of_eq_some skips]
    rfl
  rw [readBounds, bind_of_eq_some noCount]
  rfl

/-- Before the parenthesis nothing but space stands in the braces, so they end behind it, if at all.
-/
theorem isPast_of_readMark {state later : PatternState} {bounds : Nat × Option Nat} {more : Text}
    (behind : withoutSpace state.flags state.rest <:+ ')' :: more)
    (read : readMark '\x7b' state = some (bounds, later)) : later.IsPast more := by
  rw [show readMark '\x7b' =
    (readBounds >>= fun bounds => skipSpace >>= fun _ => pure bounds) from rfl] at read
  rcases exists_of_bind_eq_some read with ⟨found, place, readsBounds, readsSpace⟩
  rcases exists_of_bind_eq_some readsSpace with ⟨_, last, skips, ends⟩
  cases ends
  rw [← readBounds_withoutSpace] at readsBounds
  rcases List.suffix_cons_iff.mp behind with isNext | behind
  · rw [readBounds_of_parenthesis isNext] at readsBounds
    contradiction
  · have suffix := (isLocal_skipSpace.suffix skips).trans (isLocal_readBounds.suffix readsBounds)
    exact (suffix.trans behind).length_le

/-! ## Groups -/

theorem isLocal_applyFlags (flags : PatternFlags) (letters : Text) :
    IsLocal (applyFlags flags letters) := by
  unfold applyFlags
  dsimp only
  apply IsLocalUpTo.ite (.refuse_bind _)
  split
  · split
    · exact .pure _
    · exact .refuse
  · exact .refuse

theorem isLocal_newGroup : IsLocal newGroup := by
  apply IsLocalUpTo.get_bind
  · intro state more
    rfl
  · intro state
    refine IsLocalUpTo.bind (.modify ?_ ?_) fun _ => .pure _
    · intro state
      exact List.suffix_rfl
    · intro state more
      rfl

theorem isLocal_takeNameMark : IsLocal takeNameMark := by
  refine (isLocal_takeIf (by decide)).bind fun isMark => ?_
  apply IsLocalUpTo.ite (.pure true)
  exact isLocal_takeIf (by decide)

theorem isLocal_readGroupName : IsLocal readGroupName := by
  refine isLocal_newGroup.bind fun index => ?_
  refine (isLocal_takeUntil (by decide)).bind fun name => ?_
  apply IsLocalUpTo.get_bind
  · intro state more
    rfl
  · intro state
    apply IsLocalUpTo.ite (.refuse_bind _)
    refine IsLocalUpTo.bind (.modify ?_ ?_) fun _ => .pure _
    · intro state
      exact List.suffix_rfl
    · intro state more
      rfl

theorem isLocal_readGroupFlags : IsLocal readGroupFlags := by
  refine (isLocal_takeWhile (by decide)).bind fun letters => ?_
  refine isLocal_take.bind fun last => ?_
  apply IsLocalUpTo.get_bind
  · intro state more
    rfl
  · intro state
    refine (isLocal_applyFlags _ _).bind fun flags => ?_
    refine IsLocalUpTo.bind (.modify ?_ ?_) fun _ => ?_
    · intro state
      exact List.suffix_rfl
    · intro state more
      rfl
    · apply IsLocalUpTo.ite (.pure _)
      exact .ite .refuse (.pure _)

theorem beginsLook_enclosed (text more : Text) :
    beginsLook (text ++ ')' :: more) = beginsLook text := by
  have absent : ∀ look ∈ ["?=", "?!", "?<=", "?<!"], ')' ∉ look.toList := by decide
  rw [Bool.eq_iff_iff, beginsLook, beginsLook, List.any_eq_true, List.any_eq_true]
  apply exists_congr
  intro look
  apply and_congr_right
  intro isLook
  rw [after?_enclosed (absent look isLook), Option.isSome_map]

theorem isLocal_readGroupStart : IsLocal readGroupStart := by
  refine isLocal_skipSpace.bind fun _ => ?_
  apply IsLocalUpTo.get_bind
  · intro state more
    rw [PatternState.rest_enclosed, beginsLook_enclosed]
  · intro state
    apply IsLocalUpTo.ite .refuse
    refine isLocal_takeNameMark.bind fun isNamed => ?_
    apply IsLocalUpTo.ite isLocal_readGroupName
    refine (isLocal_takeIf (by decide)).bind fun hasFlags => ?_
    apply IsLocalUpTo.ite isLocal_readGroupFlags
    exact isLocal_newGroup.bind fun index => .pure _

/-! ## Patterns -/

theorem isLocal_ofLiteral (c : Char) : IsLocal (ofLiteral c) := by
  apply IsLocalUpTo.get_bind
  · intro state more
    rfl
  · intro state
    exact .ite (.refuse_bind _) (.pure _)

theorem isLocal_ofDot : IsLocal ofDot := by
  apply IsLocalUpTo.get_bind
  · intro state more
    rfl
  · intro state
    apply IsLocalUpTo.ite .refuse
    apply IsLocalUpTo.ite (.pure _)
    exact .ite (.pure _) (.pure _)

/-- After a part of a pattern that looked for a word over white space and comments, a brace. -/
def IsBraceAstray (_part : Regex) (later : PatternState) (more : Text) : Prop :=
  IsNextBefore '\x7b' (')' :: more) later

theorem isLocal_primitiveFrom [PatternLibrary] (flags : PatternFlags) (first : Char) :
    IsLocalUpTo IsBraceAstray (primitiveFrom flags first) := by
  unfold primitiveFrom
  split
  · exact isLocal_ofDot.mono False.elim
  · exact .pure _
  · exact .pure _
  · apply isLocal_readEscape.bind_of_returns
    · intro found
      split
      · exact (isLocal_ofLiteral _).mono False.elim
      · exact .pure _
      · exact .pure _
    · rintro found later more part last ⟨⟨condition, rfl⟩, isNext⟩ read
      cases read
      exact Or.inr isNext
  · exact (isLocal_ofLiteral _).mono False.elim

theorem isLocal_readPrimitive [PatternLibrary] : IsLocalUpTo IsBraceAstray readPrimitive := by
  apply IsLocalUpTo.get_bind
  · intro state more
    rfl
  · intro state
    exact isLocal_take.bind (isLocal_primitiveFrom _)

/-- What is found in a pattern goes astray at a brace; the pattern goes on past the parenthesis. -/
theorem isPast_of_readParts [PatternLibrary] {steps : Nat} {parts : List (Option Regex)}
    {found : Regex}
    {state later : PatternState} {more : Text}
    (suffix : ∀ {parts found} {state later : PatternState},
      readParts steps parts state = some (found, later) → later.rest <:+ state.rest)
    (isNext : IsNextBefore '\x7b' (')' :: more) state)
    (read : readParts (steps + 1) parts state = some (found, later)) : later.IsPast more := by
  rcases isNext with ⟨text, isBrace, behind⟩
  rw [readParts, bind_of_eq_some (skipSpace_of_other isBrace (by decide) (by decide)),
    peek?_bind_eq, isBrace] at read
  change (if '\x7b' = '?' ∨ '\x7b' = '*' ∨ '\x7b' = '+' ∨ '\x7b' = '\x7b' then _ else _ :
    PatternReader Regex) state = some _ at read
  rw [if_pos (by decide), bind_of_eq_some (drop_one_of_cons isBrace)] at read
  rcases parts with _ | ⟨_ | body, parts⟩
  · contradiction
  · contradiction
  · rcases exists_of_bind_eq_some read with ⟨bounds, afterMark, readsMark, readMore⟩
    rcases exists_of_bind_eq_some readMore with ⟨repeated, afterRepetition, repeats, readMore⟩
    have isPast := isPast_of_readMark behind readsMark
    exact isPast.of_suffix
      ((suffix readMore).trans ((isLocal_readRepetition _ _).suffix repeats))

/-- What holds of the readers of patterns that take some number of steps. -/
structure PatternsAreLocal [PatternLibrary] (steps : Nat) : Prop where
  alternatives : IsLocal (readAlternatives steps)
  parts (parts : List (Option Regex)) : IsLocal (readParts steps parts)
  group (outside : PatternFlags) : IsLocal (readGroup steps outside)
  afterBrace {parts : List (Option Regex)} {found : Regex} {state later : PatternState}
    {more : Text} :
    IsNextBefore '\x7b' (')' :: more) state → readParts steps parts state = some (found, later) →
      later.IsPast more

theorem patternsAreLocal [PatternLibrary] (steps : Nat) : PatternsAreLocal steps := by
  induction steps with
  | zero =>
    refine ⟨.refuse, fun _ => .refuse, fun _ => .refuse, ?_⟩
    intros
    contradiction
  | succ steps ih =>
    constructor
    · rw [readAlternatives]
      refine (ih.parts []).bind fun first => ?_
      refine (isLocal_takeIf (by decide)).bind fun hasMore => ?_
      apply IsLocalUpTo.ite
      · exact ih.alternatives.bind fun others => .pure _
      · exact .pure first
    · intro parts
      rw [readParts]
      refine isLocal_skipSpace.bind fun _ => ?_
      apply IsLocalUpTo.peek_bind rfl
      intro c?
      split
      · exact .pure _
      · exact .pure _
      · exact .pure _
      · refine isLocal_drop_one.bind fun _ => ?_
        apply IsLocalUpTo.get_bind
        · intro state more
          rfl
        · intro state
          refine isLocal_readGroupStart.bind fun start => ?_
          split
          · exact ih.parts _
          · exact (ih.group _).bind fun body => ih.parts _
          · exact (ih.group _).bind fun body => ih.parts _
      · refine isLocal_drop_one.bind fun _ => ?_
        exact (classesAreLocal steps).brackets.bind fun members => ih.parts _
      · apply IsLocalUpTo.ite
        · refine isLocal_drop_one.bind fun _ => ?_
          split
          · refine (isLocal_readMark _).bind fun bounds => ?_
            exact (isLocal_readRepetition _ _).bind fun repeated => ih.parts _
          · exact .refuse
        · -- the brace that a part comes back to begins the next one
          apply isLocal_readPrimitive.bind_of_returns fun part => ih.parts _
          intro part later more found last isNext read
          exact Or.inl (ih.afterBrace isNext read)
    · intro outside
      rw [readGroup]
      refine ih.alternatives.bind fun body => ?_
      refine isLocal_take.bind fun last => ?_
      apply IsLocalUpTo.ite (.refuse_bind _)
      refine IsLocalUpTo.bind (.modify ?_ ?_) fun _ => .pure _
      · intro state
        exact List.suffix_rfl
      · intro state more
        rfl
    · intro parts found state later more isNext read
      exact isPast_of_readParts (ih.parts _).suffix isNext read

end PatternReader

end LiterateMarkdown
