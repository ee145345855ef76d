import LiterateMarkdown.Toml.Value
import Mathlib.Data.List.Nodup

/-!
# Tables with distinct keys

Entries with distinct keys add up to a table that holds them in order, and sections with headers of
their own come after them. What is looked up in such a table is the value of the entry, if it was
not left out.
-/

namespace LiterateMarkdown

namespace TomlTable

variable {table : TomlTable} {key : Text} {value : TomlValue} {entries : List Entry}
  {parts : List Section}

theorem get?_of_not_mem (isNew : key ∉ table.map Prod.fst) : get? table key = none := by
  rw [get?, List.lookup_eq_none_iff]
  intro entry isEntry
  rw [bne_iff_ne]
  rintro rfl
  exact isNew (List.mem_map_of_mem isEntry)

theorem put_of_not_mem (isNew : key ∉ table.map Prod.fst) (value : TomlValue) :
    put table key value = table ++ [(key, value)] := by
  induction table with
  | nil => rfl
  | cons entry rest ih =>
    rw [List.map_cons, List.mem_cons, not_or] at isNew
    rw [put, if_neg (Ne.symm isNew.1), ih isNew.2, List.cons_append]

/-- The table that holds entries in order. -/
def ofEntries (entries : List Entry) : TomlTable :=
  entries.map fun entry => (entry.key, entry.value)

/-- Entries that are not dotted, with keys that are not there yet, are added in order. -/
theorem addEntries_of_distinct (notDotted : ∀ entry ∈ entries, entry.path = [])
    (distinct : (table.map Prod.fst ++ entries.map Entry.key).Nodup) :
    addEntries table entries = some (table ++ ofEntries entries) := by
  induction entries generalizing table with
  | nil => simp [addEntries, ofEntries]
  | cons entry rest ih =>
    rw [List.forall_mem_cons] at notDotted
    have isNew : entry.key ∉ table.map Prod.fst := by
      intro isKnown
      exact (List.nodup_append.mp distinct).2.2 _ isKnown _ List.mem_cons_self rfl
    have added : addEntry table entry = some (table ++ [(entry.key, entry.value)]) := by
      rw [addEntry, if_pos notDotted.1, define, get?_of_not_mem isNew, put_of_not_mem isNew]
      rfl
    have stillDistinct :
        ((table ++ [(entry.key, entry.value)]).map Prod.fst ++ rest.map Entry.key).Nodup := by
      simpa using distinct
    rw [addEntries, List.foldlM_cons, added]
    change addEntries _ rest = _
    rw [ih notDotted.2 stillDistinct]
    simp [ofEntries]

/-- A section with a header in single brackets and entries that are not dotted, each key once. -/
structure Section.IsSimple (part : Section) : Prop where
  atTop : part.path = []
  once : part.repeats = false
  notDotted : ∀ entry ∈ part.entries, entry.path = []
  distinct : (part.entries.map Entry.key).Nodup

/-- The table of a section under its key. -/
def Section.pair (part : Section) : Text × TomlValue :=
  (part.key, .table .header (ofEntries part.entries))

theorem addSection_of_isSimple {part : Section} (isSimple : part.IsSimple)
    (isNew : part.key ∉ table.map Prod.fst) :
    addSection table part = some (table ++ [part.pair]) := by
  have added : addEntries [] part.entries = some (ofEntries part.entries) :=
    addEntries_of_distinct isSimple.notDotted isSimple.distinct
  rw [addSection, isSimple.atTop, changeAt, addSectionBelow, isSimple.once,
    if_neg Bool.false_ne_true, get?_of_not_mem isNew, added]
  change some (put table part.key _) = _
  rw [put_of_not_mem isNew]
  rfl

/-- The table of a file in which every key and every header comes once. -/
theorem ofSections?_of_distinct (notDotted : ∀ entry ∈ entries, entry.path = [])
    (areSimple : ∀ part ∈ parts, part.IsSimple)
    (distinct : (entries.map Entry.key ++ parts.map Section.key).Nodup) :
    ofSections? entries parts = some (ofEntries entries ++ parts.map Section.pair) := by
  have added : addEntries [] entries = some (ofEntries entries) :=
    addEntries_of_distinct notDotted (List.nodup_append.mp distinct).1
  have areKeys : entries.map Entry.key = (ofEntries entries).map Prod.fst := by
    simp [ofEntries]
  rw [ofSections?, added]
  change parts.foldlM addSection (ofEntries entries) = _
  rw [areKeys] at distinct
  clear areKeys added
  generalize ofEntries entries = table at distinct
  induction parts generalizing table with
  | nil => simp
  | cons part rest ih =>
    rw [List.forall_mem_cons] at areSimple
    have isNew : part.key ∉ table.map Prod.fst := by
      intro isKnown
      exact (List.nodup_append.mp distinct).2.2 _ isKnown _ List.mem_cons_self rfl
    have stillDistinct :
        ((table ++ [part.pair]).map Prod.fst ++ rest.map Section.key).Nodup := by
      simpa [Section.pair] using distinct
    rw [List.foldlM_cons, addSection_of_isSimple areSimple.1 isNew]
    change rest.foldlM addSection _ = _
    rw [ih areSimple.2 _ stillDistinct]
    simp

/-- What is left of items with distinct names is found under their names. -/
theorem get?_map_filter {Item : Type} {items : List Item} {name : Item → Text}
    (distinct : (items.map name).Nodup) (value : Item → TomlValue) (keeps : Item → Bool)
    {item : Item} (isItem : item ∈ items) :
    get? ((items.filter keeps).map fun item => (name item, value item)) (name item) =
      if keeps item then some (value item) else none := by
  induction items with
  | nil => contradiction
  | cons first rest ih =>
    rw [List.map_cons, List.nodup_cons] at distinct
    rcases List.mem_cons.mp isItem with rfl | isLater
    · cases kept : keeps item with
      | true => simp [get?, kept]
      | false =>
        rw [List.filter_cons_of_neg (by simp [kept]), if_neg Bool.false_ne_true]
        apply get?_of_not_mem
        intro isName
        simp only [List.map_map, List.mem_map, List.mem_filter, Function.comp_apply] at isName
        rcases isName with ⟨other, ⟨isOther, _⟩, sameName⟩
        exact distinct.1 (sameName ▸ List.mem_map_of_mem isOther)
    · have differs : (name item == name first) = false := by
        rw [beq_eq_false_iff_ne]
        intro sameName
        exact distinct.1 (sameName ▸ List.mem_map_of_mem isLater)
      rw [← ih distinct.2 isLater]
      cases kept : keeps first with
      | true => simp [get?, kept, List.lookup_cons, differs]
      | false => rw [List.filter_cons_of_neg (by simp [kept])]

end TomlTable

end LiterateMarkdown
