import LiterateMarkdown.Text.Basic

/-!
# JSON values

The values that a JSON text can hold. A string need not be text: its bytes may not be UTF-8, and it
may escape half of a surrogate pair. A reader that looks at such a string must refuse it, and one
that skips it need not, so the value of a string is its text or nothing. Numbers are not told apart.
-/

namespace LiterateMarkdown

/-- A JSON value. -/
inductive JsonValue where
  | null
  | boolean (value : Bool)
  | number
  /-- A string, with its text if it is text. -/
  | string (content : Option Text)
  | array (items : List JsonValue)
  | object (members : List (Option Text × JsonValue))
  deriving Repr

namespace JsonValue

/-- The values of the members called `name`, in order. -/
def membersNamed (members : List (Option Text × JsonValue)) (name : Text) : List JsonValue :=
  members.filterMap fun member => if member.1 = some name then some member.2 else none

/--
The fields of a record. An object gives each field at most once, by its name, and may have further
members as long as their names are text. An array gives the fields in order, the last ones missing.
-/
def fields? (names : List Text) : JsonValue → Option (List (Option JsonValue))
  | array items =>
    if items.length ≤ names.length then
      some (items.map some ++ List.replicate (names.length - items.length) none)
    else none
  | object members =>
    if members.all fun member => member.1.isSome then
      names.mapM fun name =>
        match membersNamed members name with
        | [] => some none
        | [value] => some (some value)
        | _ => none
    else none
  | _ => none

/-- The text of a string. -/
def text? : JsonValue → Option Text
  | string content => content
  | _ => none

/-- A field that may be missing or null. -/
def optional? {Value : Type} (read : JsonValue → Option Value) :
    Option JsonValue → Option (Option Value)
  | none | some null => some none
  | some value => (read value).map some

/-- A field that may be missing but not null. -/
def withDefault? {Value : Type} (default : Value) (read : JsonValue → Option Value) :
    Option JsonValue → Option Value
  | none => some default
  | some value => read value

/-- The items of an array, each read in turn. -/
def items? {Value : Type} (read : JsonValue → Option Value) : JsonValue → Option (List Value)
  | array items => items.mapM read
  | _ => none

end JsonValue

end LiterateMarkdown
