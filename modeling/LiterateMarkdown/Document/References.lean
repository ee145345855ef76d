import LiterateMarkdown.Document.Block
import LiterateMarkdown.Fence.Title

/-!
# The blocks of a page

Blocks are registered under a name and counted per name: the first block called `hello` is
`hello[0]`, the next one `hello[1]`. A block takes its name from its first identifier, else from its
file, else it gets a name that is counted up.

There are two tables, of the blocks by their references and of the references by name. Registering a
block takes its number from the second table and puts it into the first, in place of what stands
there.
-/

namespace LiterateMarkdown

/-- What stands at some keys, in the order in which they came. -/
abbrev Table (Key Value : Type) := List (Key × Value)

namespace Table

variable {Key Value : Type} [DecidableEq Key]

/-- Put a value at a key, in place of what stands there. -/
def put (table : Table Key Value) (key : Key) (value : Value) : Table Key Value :=
  match table with
  | [] => [(key, value)]
  | entry :: rest => if entry.1 = key then (key, value) :: rest else entry :: put rest key value

/-- What stands at a key. -/
def at? (table : Table Key Value) (key : Key) : Option Value :=
  (table.find? fun entry => entry.1 = key).map Prod.snd

theorem put_of_not_mem {table : Table Key Value} {key : Key} (isNew : key ∉ table.map Prod.fst)
    (value : Value) : put table key value = table ++ [(key, value)] := by
  induction table with
  | nil => rfl
  | cons entry rest ih =>
    rw [List.map_cons, List.mem_cons, not_or] at isNew
    rw [put, if_neg (Ne.symm isNew.1), ih isNew.2, List.cons_append]

@[simp]
theorem at?_put_self (table : Table Key Value) (key : Key) (value : Value) :
    at? (put table key value) key = some value := by
  unfold at?
  induction table with
  | nil => simp [put]
  | cons entry rest ih => by_cases same : entry.1 = key <;> simp [put, same, ih]

theorem at?_put_of_ne (table : Table Key Value) {key other : Key} (ne : other ≠ key)
    (value : Value) : at? (put table key value) other = at? table other := by
  unfold at?
  induction table with
  | nil => simp [put, Ne.symm ne]
  | cons entry rest ih =>
    rw [put]
    split
    · rename_i same
      simp [same, Ne.symm ne]
    · rw [List.find?_cons, List.find?_cons]
      split
      · rfl
      · exact ih

/-- Putting a value and changing all values can be done in either order. -/
theorem put_map (table : Table Key Value) (key : Key) (value : Value) (change : Value → Value) :
    put (table.map fun entry => (entry.1, change entry.2)) key (change value) =
      (put table key value).map fun entry => (entry.1, change entry.2) := by
  induction table with
  | nil => rfl
  | cons entry rest ih =>
    rw [List.map_cons, put, put]
    split
    · rfl
    · rw [ih, List.map_cons]

end Table

/-- The blocks of a page, and which of them have a name. -/
structure References where
  /-- The blocks by their references. -/
  entries : Table ReferenceId Block := []
  /-- The references of each name, in the order in which they were given out. -/
  index : Table Text (List ReferenceId) := []
  /-- How many names have been made up. -/
  anonymous : Nat := 0
  deriving DecidableEq, Repr

namespace References

/-- No blocks. -/
def empty : References :=
  {}

/-- The references to the blocks called `name`, in order. -/
def named (references : References) (name : Text) : List ReferenceId :=
  (references.index.at? name).getD []

/-- The block that a reference leads to. -/
def get? (references : References) (id : ReferenceId) : Option Block :=
  references.entries.at? id

/-- The number of blocks. -/
def size (references : References) : Nat :=
  references.entries.length

/-- The name that the author gave a block: its first identifier, or else its file. -/
def givenName? (block : Block) : Option Text :=
  (Property.identifiers block.properties).head?.or
    (Property.firstValue? block.properties Fence.fileKey)

/-- The name that is made up for the block after `made` others. -/
def anonymousName (made : Nat) : Text :=
  "#anonymous-".toList ++ Text.ofNat (made + 1)

/-- Register a block under a name. -/
def insertNamed (references : References) (name : Text) (block : Block) :
    References × ReferenceId :=
  let ids := references.named name
  let id := ⟨name, ids.length⟩
  ({ references with
      entries := references.entries.put id block
      index := references.index.put name (ids ++ [id]) }, id)

/-- Register a block under its own name. -/
def insert (references : References) (block : Block) : References × ReferenceId :=
  match givenName? block with
  | some name => references.insertNamed name block
  | none =>
    { references with anonymous := references.anonymous + 1 }.insertNamed
      (anonymousName references.anonymous) block

/-- Change the block that a reference leads to, if there is one. -/
def modify (references : References) (id : ReferenceId) (change : Block → Block) : References :=
  { references with
    entries := references.entries.map fun entry =>
      if entry.1 = id then (entry.1, change entry.2) else entry }

@[simp]
theorem get?_empty (id : ReferenceId) : empty.get? id = none :=
  rfl

theorem get?_modify_self (references : References) (id : ReferenceId) (change : Block → Block) :
    (references.modify id change).get? id = (references.get? id).map change := by
  simp only [get?, Table.at?, modify]
  induction references.entries with
  | nil => rfl
  | cons entry rest ih =>
    by_cases same : entry.1 = id
    · simp [same]
    · simp only [List.map_cons, same, ↓reduceIte, List.find?_cons, decide_false]
      exact ih

theorem get?_modify_of_ne (references : References) {id other : ReferenceId} (ne : other ≠ id)
    (change : Block → Block) :
    (references.modify id change).get? other = references.get? other := by
  simp only [get?, Table.at?, modify]
  induction references.entries with
  | nil => rfl
  | cons entry rest ih =>
    by_cases same : entry.1 = id
    · have notOther : ¬ entry.1 = other := fun isOther => ne (isOther.symm.trans same)
      simp only [List.map_cons, same, ↓reduceIte, List.find?_cons]
      have notOther' : ¬ id = other := fun isOther => ne isOther.symm
      simp only [notOther', decide_false]
      exact ih
    · simp only [List.map_cons, same, ↓reduceIte, List.find?_cons]
      by_cases isOther : entry.1 = other
      · simp [isOther]
      · simp only [isOther, decide_false]
        exact ih

/-- Changing a block changes no name. -/
@[simp]
theorem named_modify (references : References) (id : ReferenceId) (change : Block → Block)
    (name : Text) : (references.modify id change).named name = references.named name :=
  rfl

end References

end LiterateMarkdown
