import LiterateMarkdown.Regex.CharClass
import LiterateMarkdown.Unicode.Script

/-!
# Pattern libraries

The syntax of patterns leaves two things to the library that reads them: which properties of
characters have a name, and how deeply nested and how large a pattern may be. Both are taken as they
come, so statements about patterns hold for all libraries. `PatternLibrary.common` is one that knows
the general categories and the scripts in common use, and sets no limits.
-/

namespace LiterateMarkdown

/-- What a library of patterns adds to their syntax. -/
class PatternLibrary where
  /-- The class of the property that a single letter names. -/
  letterProperty? : Char → Option CharClass
  /-- The class of the property that a text in braces names, and whether its complement is meant. -/
  bracedProperty? : Text → Option (CharClass × Bool)
  /-- Whether the text of a pattern is within the limits of the library. -/
  admits : Text → Bool

namespace PatternLibrary

/-- The name of a property without case, spaces, dashes and underscores. -/
def plainName (name : Text) : Text :=
  (name.filter fun c => c ≠ ' ' && c ≠ '-' && c ≠ '_').map Char.toLower

/-- The class of the characters with a property. -/
def namedProperty? (name : Text) : Option CharClass :=
  let plain := plainName name
  let property := [("any", CharClass.everything), ("ascii", .range '\x00' '\x7f'),
    ("assigned", .complement (.category [.unassigned])), ("alphabetic", .alphabetic),
    ("alpha", .alphabetic), ("whitespace", .blank), ("space", .blank)].lookup (String.ofList plain)
  (property.or (CharClass.ofCategoryName? plain)).or
    ((Unicode.scriptRanges? plain).map .codePoints)

/-- The class of the characters for which a property has a value. -/
def propertyValue? (property value : Text) : Option CharClass :=
  let property := plainName property
  if property = "gc".toList ∨ property = "generalcategory".toList then
    CharClass.ofCategoryName? (plainName value)
  else if property = "sc".toList ∨ property = "script".toList then
    (Unicode.scriptRanges? (plainName value)).map .codePoints
  else none

/-- What stands before and after the first character that satisfies `isSeparator`. -/
def splitAtSeparator? (isSeparator : Char → Bool) (text : Text) : Option (Text × Text) :=
  match text.dropWhile fun c => !isSeparator c with
  | [] => none
  | _ :: after => some (text.takeWhile fun c => !isSeparator c, after)

/-- The class of a property in braces: its name, or a name and a value. -/
def namedOrValue? (text : Text) : Option (CharClass × Bool) :=
  match splitAtSeparator? (fun c => c = ':' || c = '=') text with
  | some (name, value) =>
    if name.getLast? = some '!' ∧ Text.after? (name ++ ['=']) text = some value then
      (propertyValue? name.dropLast value).map (·, true)
    else (propertyValue? name value).map (·, false)
  | none => (namedProperty? text).map (·, false)

/-- The general categories and the scripts in common use, and no limits. -/
@[reducible]
def common : PatternLibrary where
  letterProperty? letter := namedProperty? [letter]
  bracedProperty? := namedOrValue?
  admits _ := true

end PatternLibrary

end LiterateMarkdown
