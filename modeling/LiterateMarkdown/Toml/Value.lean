import LiterateMarkdown.Text.Basic

/-!
# TOML values and tables

What a TOML file defines, and the rules by which its statements add up to one table. A table
remembers how it came about, because that decides who may add to it: a table written in braces is
complete, a table with a header of its own is added to only under that header and by headers below
it, and dotted keys add only to tables that came from dotted keys.
-/

namespace LiterateMarkdown

/-- How a table came about. -/
inductive TableOrigin where
  /-- It has a header of its own, or it is the whole file. -/
  | header
  /-- It stands on the way to the table of a header. -/
  | headerPath
  /-- It stands on the way to the last part of a dotted key. -/
  | dottedKey
  /-- It is written in braces. -/
  | braces
  deriving DecidableEq, Repr

/-- A value in a TOML file. -/
inductive TomlValue where
  | string (text : Text)
  | boolean (value : Bool)
  /-- A number, a date or a time; these are not told apart. -/
  | scalar
  | array (items : List TomlValue)
  | table (origin : TableOrigin) (entries : List (Text × TomlValue))
  /-- The tables that one repeated header in double brackets opens. -/
  | tables (items : List (List (Text × TomlValue)))
  deriving Repr

/-- The entries of a table, each key once. -/
abbrev TomlTable := List (Text × TomlValue)

namespace TomlTable

/-- The value of a key. -/
def get? (table : TomlTable) (key : Text) : Option TomlValue :=
  List.lookup key table

/-- Give a key a value, in place of the one it has. -/
def put (table : TomlTable) (key : Text) (value : TomlValue) : TomlTable :=
  match table with
  | [] => [(key, value)]
  | entry :: rest =>
    if entry.1 = key then (key, value) :: rest else entry :: put rest key value

/--
Change the table at the end of a path of keys, and make the tables that are missing on the way. The
change is told how that table came about. The way is barred by values that are no tables, by tables
in braces, and for dotted keys by tables with a header of their own; among tables under one header
in double brackets it leads through the last.
-/
def changeAt (change : TableOrigin → TomlTable → Option TomlTable) (byDottedKey : Bool)
    (origin : TableOrigin) (table : TomlTable) : (path : List Text) → Option TomlTable
  | [] => change origin table
  | key :: path =>
    match get? table key with
    | none => do
      let origin := if byDottedKey then .dottedKey else .headerPath
      return put table key (.table origin (← changeAt change byDottedKey origin [] path))
    | some (.table origin entries) =>
      if origin = .braces || (byDottedKey && origin = .header) then none
      else do
        return put table key (.table origin (← changeAt change byDottedKey origin entries path))
    | some (.tables items) => do
      let last ← changeAt change byDottedKey .header (← items.getLast?) path
      return put table key (.tables (items.dropLast ++ [last]))
    | some _ => none

/-- Give a key a value that it does not have yet. -/
def define (table : TomlTable) (key : Text) (value : TomlValue) : Option TomlTable :=
  if (get? table key).isSome then none else some (put table key value)

/-- A line that gives a key, possibly dotted, a value. -/
structure Entry where
  path : List Text
  key : Text
  value : TomlValue

/-- Add an entry to the table that it stands in. -/
def addEntry (table : TomlTable) (entry : Entry) : Option TomlTable :=
  if entry.path = [] then define table entry.key entry.value
  else
    changeAt
      (fun origin parent =>
        if origin = .dottedKey then define parent entry.key entry.value else none)
      true .header table entry.path

/-- Add entries one after the other. -/
def addEntries (table : TomlTable) (entries : List Entry) : Option TomlTable :=
  entries.foldlM addEntry table

/-- A header and the entries below it. -/
structure Section where
  path : List Text
  key : Text
  /-- Whether the header is in double brackets, so that it may be repeated. -/
  repeats : Bool
  entries : List Entry

/-- Add the table of a section to the table above it. -/
def addSectionBelow (part : Section) (table : TomlTable) : Option TomlTable := do
  if part.repeats then
    let added ← addEntries [] part.entries
    match get? table part.key with
    | none => return put table part.key (.tables [added])
    | some (.tables items) => return put table part.key (.tables (items ++ [added]))
    | some _ => none
  else
    match get? table part.key with
    | none => return put table part.key (.table .header (← addEntries [] part.entries))
    | some (.table .headerPath known) =>
      return put table part.key (.table .header (← addEntries known part.entries))
    | some _ => none

/-- Add a section to the table of the whole file. -/
def addSection (table : TomlTable) (part : Section) : Option TomlTable :=
  changeAt (fun _ parent => addSectionBelow part parent) false .header table part.path

/-- The table of a file with some entries before its first section. -/
def ofSections? (entries : List Entry) (sections : List Section) : Option TomlTable := do
  sections.foldlM addSection (← addEntries [] entries)

@[simp]
theorem get?_put_self (table : TomlTable) (key : Text) (value : TomlValue) :
    get? (put table key value) key = some value := by
  induction table with
  | nil => simp [put, get?]
  | cons entry rest ih =>
    obtain ⟨known, content⟩ := entry
    by_cases same : known = key
    · simp [put, get?, same]
    · have differs : (key == known) = false := by simpa using Ne.symm same
      simpa only [put, if_neg same, get?, List.lookup_cons, differs] using ih

end TomlTable

end LiterateMarkdown
