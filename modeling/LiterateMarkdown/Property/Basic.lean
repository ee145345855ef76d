import LiterateMarkdown.Text.Basic

/-!
# Code block properties

A fence may carry a list of properties, written in braces: identifiers `#main`, classes `.python`
and attributes `file="main.py"`. This file gives the type of a property, its written form, and the
look-ups that the rest of the library makes in a property list.
-/

namespace LiterateMarkdown

/-- One property of a code block. -/
inductive Property where
  /-- `#name` -/
  | identifier (name : Text)
  /-- `.name` -/
  | className (name : Text)
  /-- `key="value"` -/
  | attribute (key value : Text)
  deriving DecidableEq, Repr

namespace Property

/-- A character of an attribute value as it is written between quotes. -/
def escape (c : Char) : Text :=
  if c = '\\' ∨ c = '"' then ['\\', c] else [c]

/-- The value between quotes, with quotes and backslashes escaped. -/
def quote (value : Text) : Text :=
  '"' :: value.flatMap escape ++ ['"']

/-- The written form of a property. -/
def toText : Property → Text
  | .identifier name => '#' :: name
  | .className name => '.' :: name
  | .attribute key value => key ++ '=' :: quote value

/-- The name, if the property is an identifier. -/
def identifier? : Property → Option Text
  | .identifier name => some name
  | _ => none

/-- The name, if the property is a class. -/
def className? : Property → Option Text
  | .className name => some name
  | _ => none

/-- The value, if the property is an attribute called `key`. -/
def valueOf? (key : Text) : Property → Option Text
  | .attribute name value => if name = key then some value else none
  | _ => none

/-- The identifiers of a property list, in order. -/
def identifiers (properties : List Property) : List Text :=
  properties.filterMap identifier?

/-- The classes of a property list, in order. -/
def classNames (properties : List Property) : List Text :=
  properties.filterMap className?

/-- The values of every attribute called `key`, in order. -/
def values (properties : List Property) (key : Text) : List Text :=
  properties.filterMap (valueOf? key)

/-- The value of the first attribute called `key`. -/
def firstValue? (properties : List Property) (key : Text) : Option Text :=
  properties.findSome? (valueOf? key)

/-- Whether the list has the class `name`. -/
def hasClass (properties : List Property) (name : Text) : Bool :=
  properties.contains (className name)

@[simp]
theorem head?_values (properties : List Property) (key : Text) :
    (values properties key).head? = firstValue? properties key := by
  simp [values, firstValue?, List.head?_filterMap]

theorem hasClass_iff (properties : List Property) (name : Text) :
    hasClass properties name ↔ name ∈ classNames properties := by
  simp only [hasClass, List.contains_iff_mem, classNames, List.mem_filterMap]
  constructor
  · intro present
    exact ⟨_, present, rfl⟩
  · rintro ⟨property, present, isClass⟩
    cases property <;> simp [className?] at isClass
    exact isClass ▸ present

end Property

end LiterateMarkdown
