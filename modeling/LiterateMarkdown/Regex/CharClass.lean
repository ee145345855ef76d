import LiterateMarkdown.Unicode.CaseFolding

/-!
# Character classes

The sets of characters that a pattern can name, built from ranges and properties by the operations
on sets. A class may be widened to all characters that differ from its own at most in case.
-/

namespace LiterateMarkdown

/-- A set of characters. -/
inductive CharClass where
  | range (first last : Char)
  /-- The characters of words. -/
  | word
  /-- Decimal digits. -/
  | digit
  /-- White space. -/
  | blank
  | alphabetic
  /-- The characters whose general category is in a list. -/
  | category (categories : List Category)
  /-- The characters in ranges of code points. -/
  | codePoints (ranges : List (Nat × Nat))
  | nothing
  | complement (excluded : CharClass)
  | union (left right : CharClass)
  | intersection (left right : CharClass)
  /-- The characters that differ at most in case from some of the class. -/
  | anyCase (body : CharClass)
  /-- The same where only the letters of ASCII have case. -/
  | anyAsciiCase (body : CharClass)
  deriving DecidableEq, Repr

namespace CharClass

/-- The characters that differ from a character at most in case, among the letters of ASCII. -/
def asciiVariants (c : Char) : List Char :=
  [c, c.toLower, c.toUpper]

/-- Whether a character is in a class. -/
def contains (c : Char) : CharClass → Bool
  | range first last => first ≤ c && c ≤ last
  | word => Unicode.isWord c
  | digit => Unicode.isDigit c
  | blank => Text.isBlank c
  | alphabetic => Unicode.isAlphabetic c
  | category categories => categories.contains (Category.ofChar c)
  | codePoints ranges => ranges.any fun range => range.1 ≤ c.toNat && c.toNat ≤ range.2
  | nothing => false
  | complement excluded => !excluded.contains c
  | union left right => left.contains c || right.contains c
  | intersection left right => left.contains c && right.contains c
  | anyCase body => (c :: Unicode.caseVariants c).any fun variant => body.contains variant
  | anyAsciiCase body => (asciiVariants c).any fun variant => body.contains variant

/-- The class of one character. -/
def single (c : Char) : CharClass :=
  range c c

/-- The class of all characters. -/
def everything : CharClass :=
  complement nothing

/-- The characters of the first class that are not in the second. -/
def difference (left right : CharClass) : CharClass :=
  intersection left (complement right)

/-- The characters that are in just one of two classes. -/
def symmetricDifference (left right : CharClass) : CharClass :=
  union (difference left right) (difference right left)

/-- The union of the ranges between characters, two by two. -/
def ranges : List Char → CharClass
  | first :: last :: rest => union (range first last) (ranges rest)
  | _ => nothing

/-- The characters of words in ASCII. -/
def asciiWord : CharClass :=
  ranges ['0', '9', 'A', 'Z', '_', '_', 'a', 'z']

/-- White space in ASCII. -/
def asciiBlank : CharClass :=
  ranges ['\t', '\r', ' ', ' ']

/-- The class of ASCII characters with a name. -/
def ofAsciiName? (name : Text) : Option CharClass :=
  [("alnum", ranges ['0', '9', 'A', 'Z', 'a', 'z']),
    ("alpha", ranges ['A', 'Z', 'a', 'z']),
    ("ascii", range '\x00' '\x7f'),
    ("blank", ranges ['\t', '\t', ' ', ' ']),
    ("cntrl", ranges ['\x00', '\x1f', '\x7f', '\x7f']),
    ("digit", range '0' '9'),
    ("graph", range '!' '~'),
    ("lower", range 'a' 'z'),
    ("print", range ' ' '~'),
    ("punct", ranges ['!', '/', ':', '@', '[', '\x60', '\x7b', '~']),
    ("space", asciiBlank),
    ("upper", range 'A' 'Z'),
    ("word", asciiWord),
    ("xdigit", ranges ['0', '9', 'A', 'F', 'a', 'f'])].lookup (String.ofList name)

/-- The long names of general categories and their groups, by their abbreviations. -/
def categoryNames : List (String × String) := [
  ("letter", "l"), ("casedletter", "lc"), ("uppercaseletter", "lu"), ("lowercaseletter", "ll"),
  ("titlecaseletter", "lt"), ("modifierletter", "lm"), ("otherletter", "lo"), ("mark", "m"),
  ("combiningmark", "m"), ("nonspacingmark", "mn"), ("spacingmark", "mc"), ("enclosingmark", "me"),
  ("number", "n"), ("decimalnumber", "nd"), ("digit", "nd"), ("letternumber", "nl"),
  ("othernumber", "no"), ("punctuation", "p"), ("punct", "p"), ("connectorpunctuation", "pc"),
  ("dashpunctuation", "pd"), ("openpunctuation", "ps"), ("closepunctuation", "pe"),
  ("initialpunctuation", "pi"), ("finalpunctuation", "pf"), ("otherpunctuation", "po"),
  ("symbol", "s"), ("mathsymbol", "sm"), ("currencysymbol", "sc"), ("modifiersymbol", "sk"),
  ("othersymbol", "so"), ("separator", "z"), ("spaceseparator", "zs"), ("lineseparator", "zl"),
  ("paragraphseparator", "zp"), ("other", "c"), ("control", "cc"), ("cntrl", "cc"),
  ("format", "cf"), ("surrogate", "cs"), ("privateuse", "co"), ("unassigned", "cn")]

/-- The class of the general categories with a name, in small letters. -/
def ofCategoryName? (name : Text) : Option CharClass :=
  let abbreviation := ((categoryNames.lookup (String.ofList name)).map String.toList).getD name
  match abbreviation with
  | ['l', 'c'] => some (category [.uppercaseLetter, .lowercaseLetter, .titlecaseLetter])
  | [group] =>
    let members := Category.all.filter fun member => member.group.toLower = group
    if members = [] then none else some (category members)
  | [group, place] =>
    (Category.ofAbbreviation? group.toUpper place).map fun member => category [member]
  | _ => none

end CharClass

end LiterateMarkdown
