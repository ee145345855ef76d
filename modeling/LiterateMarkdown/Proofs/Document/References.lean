import LiterateMarkdown.Document.References
import Mathlib.Data.List.Nodup

/-!
# Registering blocks

The table of the references by name lists the references under which blocks stand, and those of each
name are numbered from zero on: the two tables are in step (`InStep`). So the number that is read
off the second table is one that is not taken in the first (`next_not_mem_keys`): a block is put in
no other's place, and the tables stay in step (`inStep_insert`, `inStep_modify`).
-/

namespace LiterateMarkdown

namespace References

/-- The references under which blocks stand, in the order in which they were registered. -/
def keys (references : References) : List ReferenceId :=
  references.entries.map Prod.fst

/-- The tables are in step: each name has the references of that name under which blocks stand, and
they are numbered from zero on. -/
structure InStep (references : References) : Prop where
  indexed : ∀ name, references.named name = references.keys.filter fun id => id.name = name
  numbered : ∀ name, (references.named name).map ReferenceId.index =
    List.range (references.named name).length

theorem inStep_empty : empty.InStep :=
  ⟨fun _ => rfl, fun _ => rfl⟩

theorem mem_entries_of_get? {references : References} {id : ReferenceId} {block : Block}
    (registered : references.get? id = some block) : (id, block) ∈ references.entries := by
  rcases Option.map_eq_some_iff.mp registered with ⟨⟨other, sameBlock⟩, isEntry, rfl⟩
  have isSame := List.find?_some isEntry
  have sameId : other = id := of_decide_eq_true isSame
  subst sameId
  exact List.mem_of_find?_eq_some isEntry

theorem mem_keys_of_get? {references : References} {id : ReferenceId} {block : Block}
    (registered : references.get? id = some block) : id ∈ references.keys :=
  List.mem_map_of_mem (mem_entries_of_get? registered)

theorem get?_eq_none_of_not_mem_keys {references : References} {id : ReferenceId}
    (notTaken : id ∉ references.keys) : references.get? id = none := by
  cases found : references.get? id with
  | none => rfl
  | some block => exact absurd (mem_keys_of_get? found) notTaken

/-! ## Registering under a name -/

section Name

variable {references : References}

/-- The number of the next block of a name is not taken. -/
theorem next_not_mem_keys (inStep : references.InStep) (name : Text) :
    ⟨name, (references.named name).length⟩ ∉ references.keys := by
  intro present
  have isNamed : ⟨name, (references.named name).length⟩ ∈
      references.keys.filter fun id => id.name = name :=
    List.mem_filter.mpr ⟨present, decide_eq_true rfl⟩
  rw [← inStep.indexed name] at isNamed
  have isIndex := List.mem_map_of_mem (f := ReferenceId.index) isNamed
  rw [inStep.numbered name, List.mem_range] at isIndex
  exact Nat.lt_irrefl _ isIndex

/-- A block that is registered comes after the others. -/
theorem entries_insertNamed (inStep : references.InStep) (name : Text) (block : Block) :
    (references.insertNamed name block).1.entries =
      references.entries ++ [(⟨name, (references.named name).length⟩, block)] :=
  Table.put_of_not_mem (next_not_mem_keys inStep name) block

theorem keys_insertNamed (inStep : references.InStep) (name : Text) (block : Block) :
    (references.insertNamed name block).1.keys =
      references.keys ++ [⟨name, (references.named name).length⟩] := by
  rw [keys, entries_insertNamed inStep, List.map_append]
  rfl

theorem named_insertNamed_self (references : References) (name : Text) (block : Block) :
    (references.insertNamed name block).1.named name =
      references.named name ++ [⟨name, (references.named name).length⟩] := by
  simp [named, insertNamed]

theorem named_insertNamed_of_ne (references : References) {name other : Text} (ne : name ≠ other)
    (block : Block) :
    (references.insertNamed name block).1.named other = references.named other := by
  simp only [named, insertNamed, Table.at?_put_of_ne _ (Ne.symm ne)]

theorem inStep_insertNamed (inStep : references.InStep) (name : Text) (block : Block) :
    (references.insertNamed name block).1.InStep := by
  constructor
  · intro other
    rw [keys_insertNamed inStep, List.filter_append, ← inStep.indexed]
    by_cases same : name = other
    · subst same
      simp [named_insertNamed_self]
    · simp [named_insertNamed_of_ne references same, same]
  · intro other
    by_cases same : name = other
    · subst same
      simp only [named_insertNamed_self, List.map_append, List.map_singleton,
        inStep.numbered name, List.length_append, List.length_singleton, List.range_succ]
    · rw [named_insertNamed_of_ne references same]
      exact inStep.numbered other

/-- A block stands under the reference that it was registered under. -/
theorem get?_insertNamed_self (references : References) (name : Text) (block : Block) :
    (references.insertNamed name block).1.get? (references.insertNamed name block).2 =
      some block :=
  Table.at?_put_self _ _ _

/-- Registering a block leaves the blocks that are there where they are. -/
theorem get?_insertNamed_of_some (inStep : references.InStep) {id : ReferenceId} {other : Block}
    (registered : references.get? id = some other) (name : Text) (block : Block) :
    (references.insertNamed name block).1.get? id = some other := by
  have notNext : id ≠ ⟨name, (references.named name).length⟩ := by
    rintro rfl
    exact next_not_mem_keys inStep name (mem_keys_of_get? registered)
  rw [← registered]
  exact Table.at?_put_of_ne _ notNext block

end Name

/-! ## Registering and changing -/

/-- Registering a block under its own name is registering it under some name. -/
theorem exists_insertNamed_eq_insert (references : References) (block : Block) :
    ∃ name made, references.insert block =
      ({ references with anonymous := made } : References).insertNamed name block := by
  cases given : givenName? block with
  | some name => exact ⟨name, references.anonymous, by simp only [insert, given]⟩
  | none =>
    exact ⟨anonymousName references.anonymous, references.anonymous + 1, by
      simp only [insert, given]⟩

section Own

variable {references : References}

theorem InStep.withAnonymous (inStep : references.InStep) (made : Nat) :
    ({ references with anonymous := made } : References).InStep :=
  ⟨inStep.indexed, inStep.numbered⟩

theorem inStep_insert (inStep : references.InStep) (block : Block) :
    (references.insert block).1.InStep := by
  rcases exists_insertNamed_eq_insert references block with ⟨name, made, isInsert⟩
  rw [isInsert]
  exact inStep_insertNamed (inStep.withAnonymous made) name block

theorem get?_insert_self (references : References) (block : Block) :
    (references.insert block).1.get? (references.insert block).2 = some block := by
  rcases exists_insertNamed_eq_insert references block with ⟨name, made, isInsert⟩
  rw [isInsert]
  exact get?_insertNamed_self _ name block

theorem get?_insert_of_some (inStep : references.InStep) {id : ReferenceId} {other : Block}
    (registered : references.get? id = some other) (block : Block) :
    (references.insert block).1.get? id = some other := by
  rcases exists_insertNamed_eq_insert references block with ⟨name, made, isInsert⟩
  rw [isInsert]
  exact get?_insertNamed_of_some (inStep.withAnonymous made) registered name block

theorem keys_insert (inStep : references.InStep) (block : Block) :
    (references.insert block).1.keys = references.keys ++ [(references.insert block).2] := by
  rcases exists_insertNamed_eq_insert references block with ⟨name, made, isInsert⟩
  rw [isInsert]
  exact keys_insertNamed (inStep.withAnonymous made) name block

@[simp]
theorem keys_modify (references : References) (id : ReferenceId) (change : Block → Block) :
    (references.modify id change).keys = references.keys := by
  simp only [keys, modify, List.map_map]
  apply List.map_congr_left
  intro entry _
  by_cases same : entry.1 = id <;> simp [same]

theorem inStep_modify (inStep : references.InStep) (id : ReferenceId) (change : Block → Block) :
    (references.modify id change).InStep := by
  constructor
  · intro name
    rw [named_modify, keys_modify]
    exact inStep.indexed name
  · exact inStep.numbered

end Own

/-! ## References in step -/

/-- No two blocks stand under one reference. -/
theorem nodup_keys {references : References} (inStep : references.InStep) :
    references.keys.Nodup := by
  rw [List.nodup_iff_count_le_one]
  intro id
  have indices : ((references.named id.name).map ReferenceId.index).Nodup := by
    rw [inStep.numbered id.name]
    exact List.nodup_range
  have once := List.nodup_iff_count_le_one.mp (List.Nodup.of_map _ indices) id
  rwa [inStep.indexed, List.count_filter (by simp)] at once

theorem get?_of_mem_entries {references : References} (inStep : references.InStep)
    {id : ReferenceId} {block : Block} (isEntry : (id, block) ∈ references.entries) :
    references.get? id = some block := by
  cases found : references.get? id with
  | some other =>
    have sameEntry := List.inj_on_of_nodup_map (nodup_keys inStep) isEntry
      (mem_entries_of_get? found) rfl
    cases sameEntry
    rfl
  | none =>
    simp only [get?, Table.at?, Option.map_eq_none_iff, List.find?_eq_none] at found
    simpa using found _ isEntry

/-- The number of a block is the number of blocks of its name that stand before it. -/
theorem index_eq_countP {references : References} (inStep : references.InStep) {place : Nat}
    {id : ReferenceId} (isKey : references.keys[place]? = some id) :
    id.index = (references.keys.take place).countP fun other => other.name = id.name := by
  let sameName : ReferenceId → Bool := fun other => other.name = id.name
  rcases List.getElem?_eq_some_iff.mp isKey with ⟨inRange, isThere⟩
  have isSplit : references.keys.take place ++ id :: references.keys.drop (place + 1) =
      references.keys := by
    rw [← isThere, List.getElem_cons_drop, List.take_append_drop]
  have isNamed : references.named id.name = (references.keys.take place).filter sameName ++
      id :: (references.keys.drop (place + 1)).filter sameName := by
    have filtered := congrArg (List.filter sameName) isSplit
    simpa [sameName, inStep.indexed] using filtered.symm
  have numbers := congrArg (·[((references.keys.take place).filter sameName).length]?)
    (inStep.numbered id.name)
  rw [List.countP_eq_length_filter]
  simpa [isNamed] using numbers

end References

end LiterateMarkdown
