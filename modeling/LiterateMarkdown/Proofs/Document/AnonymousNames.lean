import LiterateMarkdown.Proofs.Document.History
import LiterateMarkdown.Property.Parser

/-!
# Names that are made up

A block without an identifier and without a file is registered under a name that is counted up. No
two names that are made up are the same, so such a block is the only one of its name exactly when no
other block is given that name by its author, before or after it (`standsAlone_iff`).

An author can do so: a name that is made up can be written as an identifier or as a file
(`not_forall_standsAlone`).
-/

namespace LiterateMarkdown

theorem Text.ofNat_injective : Function.Injective Text.ofNat := by
  intro first second same
  have sameValue := congrArg (fun digits => Nat.ofDigitChars 10 digits 0) same
  simpa [Text.ofNat] using sameValue

namespace References

theorem anonymousName_injective : Function.Injective anonymousName := by
  intro first second same
  exact Nat.succ.inj (Text.ofNat_injective (List.append_cancel_left same))

/-- A block goes by its own name, or else by the next one that is made up. -/
theorem name_insert (references : References) (block : Block) :
    (references.insert block).2.name =
      (givenName? block).getD (anonymousName references.anonymous) := by
  cases given : givenName? block <;> simp [insert, insertNamed, given]

theorem anonymous_insert (references : References) (block : Block) :
    (references.insert block).1.anonymous =
      references.anonymous + if (givenName? block).isNone then 1 else 0 := by
  cases given : givenName? block <;> simp [insert, insertNamed, given]

/-- How many of the blocks have no name of their own. -/
def nameless (blocks : List Block) : Nat :=
  blocks.countP fun block => (givenName? block).isNone

theorem anonymous_perform (references : References) (actions : List Action) :
    (references.perform actions).1.anonymous =
      references.anonymous + nameless (inserted actions) := by
  induction actions generalizing references with
  | nil => rfl
  | cons action rest ih =>
    cases action with
    | insert block =>
      have first : inserted (.insert block :: rest) = block :: inserted rest := rfl
      simp only [perform, ih, anonymous_insert, first, nameless, List.countP_cons]
      omega
    | change id change => exact ih _

/-- A reference has the name that its block was given, or one that was made up in the history. -/
theorem name_of_mem_perform {references : References} {actions : List Action} {id : ReferenceId}
    (isGiven : id ∈ (references.perform actions).2) :
    (∃ block ∈ inserted actions, givenName? block = some id.name) ∨
      ∃ made, references.anonymous ≤ made ∧ made < (references.perform actions).1.anonymous ∧
        id.name = anonymousName made := by
  induction actions generalizing references with
  | nil => exact absurd isGiven List.not_mem_nil
  | cons action rest ih =>
    cases action with
    | change other change => exact ih isGiven
    | insert block =>
      have isMade := anonymous_insert references block
      have isFinal := anonymous_perform (references.insert block).1 rest
      rw [perform_insert] at isGiven ⊢
      rcases List.mem_cons.mp isGiven with rfl | isLater
      · rw [name_insert]
        cases given : givenName? block with
        | some name => exact .inl ⟨block, List.mem_cons_self, given⟩
        | none =>
          rw [given, Option.isNone_none, if_pos rfl] at isMade
          refine .inr ⟨references.anonymous, Nat.le_refl _, ?_, rfl⟩
          change references.anonymous < ((references.insert block).1.perform rest).1.anonymous
          omega
      · rcases ih isLater with ⟨other, isOther, given⟩ | ⟨made, isLeast, isMost, isName⟩
        · exact .inl ⟨other, List.mem_cons_of_mem _ isOther, given⟩
        · exact .inr ⟨made, by omega, isMost, isName⟩

theorem exists_mem_perform_of_givenName? {actions : List Action} {block : Block} {name : Text}
    (isInserted : block ∈ inserted actions) (given : givenName? block = some name)
    (references : References) : ∃ id ∈ (references.perform actions).2, id.name = name := by
  induction actions generalizing references with
  | nil => exact absurd isInserted List.not_mem_nil
  | cons action rest ih =>
    cases action with
    | change other change => exact ih isInserted _
    | insert first =>
      rw [perform_insert]
      rcases List.mem_cons.mp isInserted with rfl | isLater
      · refine ⟨(references.insert block).2, List.mem_cons_self, ?_⟩
        rw [name_insert, given, Option.getD_some]
      · rcases ih isLater (references.insert first).1 with ⟨id, isGiven, isName⟩
        exact ⟨id, List.mem_cons_of_mem _ isGiven, isName⟩

/-- A name that is not made up in a history is in it only if a block is given it. -/
theorem exists_mem_perform_iff (references : References) (actions : List Action) {made : Nat}
    (notMade : made < references.anonymous ∨ (references.perform actions).1.anonymous ≤ made) :
    (∃ id ∈ (references.perform actions).2, id.name = anonymousName made) ↔
      ∃ block ∈ inserted actions, givenName? block = some (anonymousName made) := by
  constructor
  · rintro ⟨id, isGiven, isName⟩
    rcases name_of_mem_perform isGiven with
      ⟨block, isInserted, given⟩ | ⟨other, isLeast, isMost, same⟩
    · exact ⟨block, isInserted, isName ▸ given⟩
    · have sameNumber := anonymousName_injective (isName.symm.trans same)
      omega
  · rintro ⟨block, isInserted, given⟩
    exact exists_mem_perform_of_givenName? isInserted given references

/-- Whether the block under a reference is the only one of its name. -/
structure StandsAlone (references : References) (id : ReferenceId) : Prop where
  differs : ∀ other ∈ references.keys, other ≠ id → other.name ≠ id.name
  isFirst : id.index = 0
  named : references.named id.name = [id]

theorem standsAlone_iff_of_keys {references : References} (inStep : references.InStep)
    {earlier later : List ReferenceId} {id : ReferenceId}
    (isKeys : references.keys = earlier ++ id :: later) :
    references.StandsAlone id ↔ ∀ other ∈ earlier ++ later, other.name ≠ id.name := by
  have isNamed : references.named id.name = earlier.filter (fun other => other.name = id.name) ++
      id :: later.filter (fun other => other.name = id.name) := by
    simp [inStep.indexed, isKeys]
  constructor
  · rintro ⟨_, _, onlyOne⟩
    have sameLength := congrArg List.length (isNamed.symm.trans onlyOne)
    simp only [List.length_append, List.length_cons, List.length_nil] at sameLength
    have noEarlier : earlier.filter (fun other => other.name = id.name) = [] :=
      List.eq_nil_of_length_eq_zero (by omega)
    have noLater : later.filter (fun other => other.name = id.name) = [] :=
      List.eq_nil_of_length_eq_zero (by omega)
    rw [List.filter_eq_nil_iff] at noEarlier noLater
    intro other isOther
    rcases List.mem_append.mp isOther with isEarlier | isLater
    · simpa using noEarlier other isEarlier
    · simpa using noLater other isLater
  · intro differs
    rw [List.forall_mem_append] at differs
    have onlyOne : references.named id.name = [id] := by
      rw [isNamed, List.filter_eq_nil_iff.mpr (by simpa using differs.1),
        List.filter_eq_nil_iff.mpr (by simpa using differs.2), List.nil_append]
    refine ⟨?_, ?_, onlyOne⟩
    · intro other isKey notSame
      rw [isKeys, List.mem_append, List.mem_cons] at isKey
      rcases isKey with isEarlier | same | isLater
      · exact differs.1 other isEarlier
      · exact absurd same notSame
      · exact differs.2 other isLater
    · have isNumbered := inStep.numbered id.name
      rw [onlyOne] at isNumbered
      exact List.head_eq_of_cons_eq isNumbered

/--
A block without a name of its own is the only one of the name that is made up for it exactly when no
other block is given that name.
-/
theorem standsAlone_iff (earlier later : List Action) {block : Block}
    (noName : givenName? block = none) :
    ∃ id, (empty.perform (earlier ++ .insert block :: later)).2[(inserted earlier).length]? =
        some id ∧
      id.name = anonymousName (nameless (inserted earlier)) ∧
      ((empty.perform (earlier ++ .insert block :: later)).1.StandsAlone id ↔
        ∀ other ∈ inserted earlier ++ inserted later, givenName? other ≠ some id.name) := by
  have inStep := inStep_perform inStep_empty (earlier ++ .insert block :: later)
  have isKeys := keys_perform inStep_empty (earlier ++ .insert block :: later)
  have isMade := anonymous_perform empty earlier
  have isNext := anonymous_insert (empty.perform earlier).1 block
  have isName := name_insert (empty.perform earlier).1 block
  rw [perform_append, perform_insert] at inStep isKeys ⊢
  have noStart : empty.anonymous = 0 := rfl
  rw [noStart, Nat.zero_add] at isMade
  rw [noName, Option.isNone_none, if_pos rfl] at isNext
  rw [noName, Option.getD_none, isMade] at isName
  refine ⟨((empty.perform earlier).1.insert block).2, ?_, isName, ?_⟩
  · rw [← length_perform empty earlier]
    simp
  · rw [standsAlone_iff_of_keys inStep isKeys, isName]
    have before := exists_mem_perform_iff empty earlier (.inr (Nat.le_of_eq isMade))
    have isPast : nameless (inserted earlier) <
        ((empty.perform earlier).1.insert block).1.anonymous := by
      omega
    have after := exists_mem_perform_iff ((empty.perform earlier).1.insert block).1 later
      (.inl isPast)
    simp only [List.forall_mem_append]
    apply and_congr
    · simpa using not_congr before
    · simpa using not_congr after

/-- A name for the second block without one, while a file of that name is registered. -/
theorem standsAlone_iff_filed :
    ∃ filed nameless named : Block,
      filed.properties = [.attribute Fence.fileKey "#anonymous-2".toList] ∧
      nameless.properties = [.className "c".toList] ∧
      named.properties = [.identifier "a".toList] ∧
      givenName? nameless = none ∧
      ∃ id, (empty.perform ([.insert filed, .insert nameless, .insert named] ++
          .insert nameless :: [.insert named])).2[3]? = some id ∧
        id.name = anonymousName 1 ∧
        ((empty.perform ([.insert filed, .insert nameless, .insert named] ++
            .insert nameless :: [.insert named])).1.StandsAlone id ↔
          ∀ other ∈ [filed, nameless, named] ++ [named], givenName? other ≠ some id.name) :=
  ⟨⟨[.attribute Fence.fileKey "#anonymous-2".toList], [], [], [], [], [], 1⟩,
    ⟨[.className "c".toList], [], [], [], [], [], 3⟩,
    ⟨[.identifier "a".toList], [], [], [], [], [], 5⟩, rfl, rfl, rfl, rfl,
    standsAlone_iff [.insert _, .insert _, .insert _] [.insert _] rfl⟩

/-- An author can write a name that is made up for a later block. -/
theorem not_forall_standsAlone :
    Property.parse "##anonymous-1".toList = .ok [.identifier "#anonymous-1".toList] ∧
      ¬ ∀ (earlier later : List Action) (block : Block) (id : ReferenceId),
        givenName? block = none →
        (empty.perform (earlier ++ .insert block :: later)).2[(inserted earlier).length]? =
          some id →
        (empty.perform (earlier ++ .insert block :: later)).1.StandsAlone id := by
  refine ⟨by decide +kernel, ?_⟩
  intro allAlone
  have alone := allAlone
    [.insert ⟨[.identifier "#anonymous-1".toList], [], [], [], [], [], 1⟩] []
    ⟨[], [], [], [], [], [], 3⟩ ⟨"#anonymous-1".toList, 1⟩ rfl rfl
  exact absurd alone.isFirst (by decide)

end References

end LiterateMarkdown
