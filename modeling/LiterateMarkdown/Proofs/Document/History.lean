import LiterateMarkdown.Proofs.Document.References

/-!
# Histories of references

Blocks are registered and changed in any order. A history leaves every block under the reference
that it was registered under, with the changes that were made through this reference and no others
(`get?_perform_of_some`), and it adds the references that it gives out, in order, to those that were
there (`keys_perform`). So nothing is lost or overwritten, whatever names the blocks have
(`records_perform`).
-/

namespace LiterateMarkdown

namespace References

/-- What can be done to registered blocks. -/
inductive Action where
  | insert (block : Block)
  /-- Change the block that a reference leads to, if there is one. -/
  | change (id : ReferenceId) (change : Block → Block)

/-- The block that an action registers, if it registers one. -/
def Action.inserted? : Action → Option Block
  | insert block => some block
  | change _ _ => none

/-- The blocks that actions register, in order. -/
def inserted (actions : List Action) : List Block :=
  actions.filterMap Action.inserted?

/-- Carry out actions, in order. The result has the references that were given out. -/
def perform (references : References) : List Action → References × List ReferenceId
  | [] => (references, [])
  | .insert block :: rest =>
    let (references, id) := references.insert block
    let (references, ids) := references.perform rest
    (references, id :: ids)
  | .change id change :: rest => (references.modify id change).perform rest

end References

/-- The block after the changes that are made through `id`, in order. -/
def Block.changedThrough (id : ReferenceId) (block : Block) : List References.Action → Block
  | [] => block
  | .insert _ :: rest => block.changedThrough id rest
  | .change other change :: rest =>
    (if other = id then change block else block).changedThrough id rest

namespace References

theorem perform_insert (references : References) (block : Block) (rest : List Action) :
    references.perform (.insert block :: rest) =
      (((references.insert block).1.perform rest).1,
        (references.insert block).2 :: ((references.insert block).1.perform rest).2) :=
  rfl

theorem perform_append (references : References) (earlier later : List Action) :
    references.perform (earlier ++ later) =
      (((references.perform earlier).1.perform later).1,
        (references.perform earlier).2 ++ ((references.perform earlier).1.perform later).2) := by
  induction earlier generalizing references with
  | nil => rfl
  | cons action rest ih =>
    cases action with
    | insert block => simp only [List.cons_append, perform, ih]
    | change id change => simp only [List.cons_append, perform, ih]

/-- The tables stay in step, whatever is registered and changed. -/
theorem inStep_perform {references : References} (inStep : references.InStep)
    (actions : List Action) : (references.perform actions).1.InStep := by
  induction actions generalizing references with
  | nil => exact inStep
  | cons action rest ih =>
    cases action with
    | insert block => exact ih (inStep_insert inStep block)
    | change id change => exact ih (inStep_modify inStep id change)

/-- The references that are given out are added to those that were there. -/
theorem keys_perform {references : References} (inStep : references.InStep)
    (actions : List Action) :
    (references.perform actions).1.keys = references.keys ++ (references.perform actions).2 := by
  induction actions generalizing references with
  | nil => simp [perform]
  | cons action rest ih =>
    cases action with
    | insert block =>
      simp only [perform, ih (inStep_insert inStep block), keys_insert inStep, List.append_assoc,
        List.singleton_append]
    | change id change => simp only [perform, ih (inStep_modify inStep id change), keys_modify]

theorem length_perform (references : References) (actions : List Action) :
    (references.perform actions).2.length = (inserted actions).length := by
  induction actions generalizing references with
  | nil => rfl
  | cons action rest ih =>
    cases action with
    | insert block => exact congrArg (· + 1) (ih _)
    | change id change => exact ih _

/-- A block stays under its reference, and changes only through it. -/
theorem get?_perform_of_some {references : References} (inStep : references.InStep)
    {id : ReferenceId} {block : Block} (registered : references.get? id = some block)
    (actions : List Action) :
    (references.perform actions).1.get? id = some (block.changedThrough id actions) := by
  induction actions generalizing references block with
  | nil => exact registered
  | cons action rest ih =>
    cases action with
    | insert other =>
      exact ih (inStep_insert inStep other) (get?_insert_of_some inStep registered other)
    | change other change =>
      simp only [perform, Block.changedThrough]
      apply ih (inStep_modify inStep other change)
      by_cases same : other = id
      · rw [if_pos same, same, get?_modify_self, registered, Option.map_some]
      · rw [if_neg same, get?_modify_of_ne references (Ne.symm same), registered]

/-- What references hold after a history in which `ids` were given out. -/
structure Records (references : References) (actions : List Action) (ids : List ReferenceId) :
    Prop where
  size : references.size = (inserted actions).length
  sameLength : ids.length = (inserted actions).length
  distinct : ids.Nodup
  /-- Each block is found under its reference, with the changes made through this one. -/
  found : ∀ earlier block later, actions = earlier ++ .insert block :: later →
    ∃ id, ids[(inserted earlier).length]? = some id ∧
      references.get? id = some (block.changedThrough id later)
  named : ∀ name, references.named name = ids.filter fun id => id.name = name
  numbered : ∀ name, (references.named name).map ReferenceId.index =
    List.range (references.named name).length
  /-- Nothing is found under any other reference. -/
  notFound : ∀ id ∉ ids, references.get? id = none ∧ ∀ name, id ∉ references.named name

/-- A history loses no block and overwrites none. -/
theorem records_perform (actions : List Action) :
    (empty.perform actions).1.Records actions (empty.perform actions).2 := by
  have inStep := inStep_perform inStep_empty actions
  have isKeys : (empty.perform actions).1.keys = (empty.perform actions).2 :=
    keys_perform inStep_empty actions
  have named : ∀ name, (empty.perform actions).1.named name =
      (empty.perform actions).2.filter fun id => id.name = name := by
    intro name
    rw [inStep.indexed, isKeys]
  refine ⟨?_, length_perform empty actions, ?_, ?_, named, inStep.numbered, ?_⟩
  · rw [← length_perform empty actions, ← isKeys, keys, List.length_map, size]
  · rw [← isKeys]
    exact nodup_keys inStep
  · rintro earlier block later rfl
    have atStart := inStep_perform inStep_empty earlier
    have registered := get?_insert_self (empty.perform earlier).1 block
    refine ⟨((empty.perform earlier).1.insert block).2, ?_, ?_⟩
    · rw [perform_append, ← length_perform empty earlier]
      simp [perform]
    · rw [perform_append]
      exact get?_perform_of_some (inStep_insert atStart block) registered later
  · intro id notGiven
    constructor
    · apply get?_eq_none_of_not_mem_keys
      rwa [isKeys]
    · intro name isNamed
      rw [named] at isNamed
      exact notGiven (List.mem_of_mem_filter isNamed)

end References

end LiterateMarkdown
