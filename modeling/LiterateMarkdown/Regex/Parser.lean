import LiterateMarkdown.Regex.Basic
import LiterateMarkdown.Regex.Library

/-!
# Patterns

The text form of regular expressions. Flags in a group hold to its end. The functions that read
nested parts take a bound on their steps, which no pattern exhausts; they fail where the text is no
pattern.
-/

namespace LiterateMarkdown

/-- What the flags of a pattern turn on and off. -/
structure PatternFlags where
  ignoreCase : Bool := false
  multiLine : Bool := false
  /-- Whether the dot matches newlines too. -/
  dotAll : Bool := false
  /-- Whether repetitions are greedy just if a question mark follows. -/
  swapGreed : Bool := false
  unicode : Bool := true
  /-- Whether carriage returns end lines too. -/
  crlf : Bool := false
  /-- Whether white space and comments are left out. -/
  spaced : Bool := false
  deriving DecidableEq, Repr

/-- How far a pattern has been read. -/
structure PatternState where
  rest : Text
  flags : PatternFlags := {}
  /-- The number of capturing groups so far. -/
  groups : Nat := 0
  names : List (Text × Nat) := []
  deriving Repr

/-- A reader of a part of a pattern. -/
abbrev PatternReader := StateT PatternState Option

namespace PatternReader

/-- Fail: the text is no pattern. -/
def refuse {Value : Type} : PatternReader Value :=
  failure

/-- The next character, if there is one. -/
def peek? : PatternReader (Option Char) := do
  return (← get).rest.head?

/-- Go on after some characters. -/
def drop (count : Nat) : PatternReader Unit :=
  modify fun state => { state with rest := state.rest.drop count }

/-- Take the next character. -/
def take : PatternReader Char := do
  match (← get).rest with
  | c :: rest =>
    modify fun state => { state with rest }
    return c
  | [] => refuse

/-- Take a given text if it comes next, and tell whether it does. -/
def takeIf (expected : String) : PatternReader Bool := do
  match Text.after? expected.toList (← get).rest with
  | some rest =>
    modify fun state => { state with rest }
    return true
  | none => return false

/-- A text without the white space and the comments before it. -/
def afterSpace (inComment : Bool) : Text → Text
  | [] => []
  | c :: rest =>
    if inComment then afterSpace (c ≠ '\n') rest
    else if Text.isBlank c then afterSpace false rest
    else if c = '#' then afterSpace true rest
    else c :: rest

/-- A text without what the flags leave out before it. -/
def withoutSpace (flags : PatternFlags) (text : Text) : Text :=
  if flags.spaced then afterSpace false text else text

/-- Skip what the flags leave out. -/
def skipSpace : PatternReader Unit :=
  modify fun state => { state with rest := withoutSpace state.flags state.rest }

/-- Take the next character and skip what the flags leave out after it. -/
def takeSpaced : PatternReader Char := do
  let c ← take
  skipSpace
  return c

/-- Take the next characters that satisfy a condition. -/
def takeWhile (condition : Char → Bool) : PatternReader Text := do
  let text := (← get).rest.takeWhile condition
  drop text.length
  return text

/-- The characters up to a given one, which is taken too. -/
def takeUntil (last : Char) : PatternReader Text := do
  let text ← takeWhile (· ≠ last)
  let _ ← take
  return text

/-! ## Escapes -/

/-- What an escape or a single character stands for. -/
inductive Primitive where
  | literal (c : Char)
  | chars (members : CharClass)
  | anchor (condition : Anchor)

/-- A class widened as the flags say. -/
def inAnyCase (flags : PatternFlags) (members : CharClass) : CharClass :=
  if !flags.ignoreCase then members
  else if flags.unicode then .anyCase members
  else .anyAsciiCase members

/-- A class, or all other characters. Without Unicode, the others are not characters alone. -/
def complementIf (negated : Bool) (members : CharClass) : PatternReader CharClass := do
  if !negated then return members
  else if (← get).flags.unicode then return .complement members
  else refuse

/-- The class that a letter after a backslash names. -/
def letterClass? (flags : PatternFlags) (letter : Char) : Option CharClass :=
  match letter.toLower with
  | 'd' => some (if flags.unicode then .digit else .range '0' '9')
  | 's' => some (if flags.unicode then .blank else .asciiBlank)
  | 'w' => some (if flags.unicode then .word else .asciiWord)
  | _ => none

/-- The value of a hexadecimal digit. -/
def hexValue? (c : Char) : Option Nat :=
  if c.isDigit then some (c.toNat - '0'.toNat)
  else if ('a' ≤ c ∧ c ≤ 'f') ∨ ('A' ≤ c ∧ c ≤ 'F') then some (c.toNat % 32 + 9)
  else none

/-- The character with the given hexadecimal digits. -/
def hexChar (digits : Text) : PatternReader Char := do
  let some values := digits.mapM hexValue? | refuse
  let code := values.foldl (fun code value => code * 16 + value) 0
  if digits ≠ [] ∧ code.isValidChar then return .ofNat code else refuse

/-- Take some characters and skip what the flags leave out after each. -/
def takeSpacedTimes : (count : Nat) → PatternReader Text
  | 0 => return []
  | count + 1 => do return (← takeSpaced) :: (← takeSpacedTimes count)

/-- A text without the white space in it, if the flags leave that out. -/
def withoutBlanks (flags : PatternFlags) (text : Text) : Text :=
  if flags.spaced then text.filter fun c => !Text.isBlank c else text

/-- The rest of a hexadecimal escape, whose digits are so many or in braces. -/
def readHex (count : Nat) : PatternReader Char := do
  skipSpace
  if (← peek?) = some '\x7b' then
    let _ ← take
    hexChar (withoutBlanks (← get).flags (← takeUntil '\x7d'))
  else
    let c ← hexChar (← takeSpacedTimes count)
    -- two digits give a byte, which is a character alone only in Unicode or in ASCII
    if count = 2 ∧ !(← get).flags.unicode ∧ c.toNat ≥ 0x80 then refuse
    return c

/-- The class of a property, which is in braces or one letter, and whether its complement is meant.
-/
def readPropertyClass [library : PatternLibrary] : PatternReader (CharClass × Bool) := do
  let first ← take
  if first = '\x7b' then
    let some named := library.bracedProperty? (← takeUntil '\x7d') | refuse
    return named
  else
    let some members := library.letterProperty? first | refuse
    skipSpace
    return (members, false)

/-- The rest of an escape that names a property. -/
def readProperty [PatternLibrary] (negated : Bool) : PatternReader CharClass := do
  skipSpace
  let flags := (← get).flags
  if flags.unicode then
    let (members, inverted) ← readPropertyClass
    complementIf (negated != inverted) (inAnyCase flags members)
  else refuse

/-- The condition that a word in braces after an escaped `b` names, if it names one. -/
def namedBoundary? (ascii : Bool) (name : Text) : Option Anchor :=
  [("start", Anchor.wordStart ascii), ("end", .wordEnd ascii),
    ("start-half", .wordStartHalf ascii), ("end-half", .wordEndHalf ascii)].lookup
    (String.ofList name)

/-- The rest of a word in braces after an escaped `b`. -/
def readBoundaryName (ascii : Bool) : PatternReader Anchor := do
  let name ← takeUntil '\x7d'
  let some condition := namedBoundary? ascii (withoutBlanks (← get).flags name) | refuse
  return condition

/-- The rest of an escaped `b`. Braces may follow that hold a word, or a number of repetitions. -/
def readBoundary (ascii : Bool) : PatternReader Anchor := do
  let start := (← get).rest
  if !(← takeIf "\x7b") then return .wordBoundary false ascii
  skipSpace
  let some first ← peek? | refuse
  if first.isAlpha || first = '-' then readBoundaryName ascii
  else
    modify fun state => { state with rest := start }
    return .wordBoundary false ascii

/-- The character that a letter after a backslash stands for. -/
def letterChar? : Char → Option Char
  | 'a' => some '\x07'
  | 'f' => some '\x0c'
  | 't' => some '\t'
  | 'n' => some '\n'
  | 'r' => some '\r'
  | 'v' => some '\x0b'
  | _ => none

/-- What follows a backslash. -/
def readEscape [PatternLibrary] : PatternReader Primitive := do
  let c ← take
  let flags := (← get).flags
  let ascii := !flags.unicode
  match letterClass? flags c, letterChar? c, c with
  | some members, _, _ => return .chars (← complementIf c.isUpper members)
  | none, some stands, _ => return .literal stands
  | none, none, 'x' => return .literal (← readHex 2)
  | none, none, 'u' => return .literal (← readHex 4)
  | none, none, 'U' => return .literal (← readHex 8)
  | none, none, 'p' => return .chars (← readProperty false)
  | none, none, 'P' => return .chars (← readProperty true)
  | none, none, 'A' => return .anchor .textStart
  | none, none, 'z' => return .anchor .textEnd
  | none, none, 'b' => return .anchor (← readBoundary ascii)
  | none, none, 'B' => return .anchor (.wordBoundary true ascii)
  | none, none, '<' => return .anchor (.wordStart ascii)
  | none, none, '>' => return .anchor (.wordEnd ascii)
  | none, none, c => if c.isAlphanum || 0x80 ≤ c.toNat then refuse else return .literal c

/-! ## Classes in brackets -/

/-- An operation between the parts of a class in brackets. -/
inductive ClassOperation where
  | intersection
  | difference
  | symmetricDifference

/-- The operation that comes next, if one does. -/
def takeOperation? : PatternReader (Option ClassOperation) := do
  if ← takeIf "&&" then return some .intersection
  else if ← takeIf "--" then return some .difference
  else if ← takeIf "~~" then return some .symmetricDifference
  else return none

/-- The class up to here, after the operation that is under way. -/
def applyOperation (flags : PatternFlags) (pending : Option (CharClass × ClassOperation))
    (members : CharClass) : CharClass :=
  match pending with
  | none => members
  | some (left, operation) =>
    let left := inAnyCase flags left
    let right := inAnyCase flags members
    match operation with
    | .intersection => .intersection left right
    | .difference => .difference left right
    | .symmetricDifference => .symmetricDifference left right

/-- The class of ASCII characters whose name a text begins with, and the text after a name's end. -/
def asciiName? (text : Text) : Option (CharClass × Text) := do
  let name := text.takeWhile (· ≠ ':')
  let members ← CharClass.ofAsciiName? name
  let rest ← Text.after? (name ++ [':', ']']) text
  return (members, rest)

/--
The named class of ASCII characters, in brackets and colons, that a text begins with: whether its
complement is meant, the class, and the text after it.
-/
def asciiClass? (text : Text) : Option (Bool × CharClass × Text) := do
  let inside ← Text.after? ['[', ':'] text
  if inside.head? = some '^' then (asciiName? (inside.drop 1)).map (true, ·)
  else (asciiName? inside).map (false, ·)

/-- A named class of ASCII characters in brackets and colons, if one comes next. -/
def takeAsciiClass? : PatternReader (Option CharClass) := do
  let state ← get
  match asciiClass? state.rest with
  | none => return none
  | some (negated, members, rest) =>
    set { state with rest }
    return some (← complementIf negated (inAnyCase state.flags members))

/-- What a character in brackets begins. -/
def classPrimitiveFrom [PatternLibrary] : (first : Char) → PatternReader Primitive
  | '\\' => readEscape
  | c => return .literal c

/-- A character or an escape in brackets. -/
def readClassPrimitive [PatternLibrary] : PatternReader Primitive := do
  classPrimitiveFrom (← take)

/-- The class of a character in brackets; without Unicode it must be ASCII. -/
def literalClass (first last : Char) : PatternReader CharClass := do
  if first ≤ last ∧ ((← get).flags.unicode ∨ last.toNat < 0x80) then return .range first last
  else refuse

/-- The class of what stands in brackets, if it is no range. -/
def primitiveClass : (found : Primitive) → PatternReader CharClass
  | .literal c => literalClass c c
  | .chars members => return members
  | .anchor _ => refuse

/-- The class of a range between two characters. -/
def rangeClass : (first last : Primitive) → PatternReader CharClass
  | .literal first, .literal last => literalClass first last
  | _, _ => refuse

/-- The rest of a range after its first character, from the dash on. -/
def readRangeEnd [PatternLibrary] (first : Primitive) : PatternReader CharClass := do
  let _ ← takeSpaced
  rangeClass first (← readClassPrimitive)

/-- Whether a text begins with a dash that the end of a range follows. -/
def beginsRangeEnd (flags : PatternFlags) : Text → Bool
  | '-' :: after =>
    let next := (withoutSpace flags after).head?
    next ≠ some ']' && next ≠ some '-'
  | _ => false

/-- The rest of what begins with a character or an escape in brackets, and space after it. -/
def readItemFrom [PatternLibrary] (first : Primitive) : PatternReader CharClass := do
  let state ← get
  if beginsRangeEnd state.flags state.rest then readRangeEnd first else primitiveClass first

/-- A character, a range or an escape in brackets. -/
def readClassItem [PatternLibrary] : PatternReader CharClass := do
  let first ← readClassPrimitive
  skipSpace
  readItemFrom first

/-- The dashes that come next stand for themselves. -/
def takeDashes (steps : Nat) : PatternReader CharClass := do
  match steps with
  | 0 => return .nothing
  | steps + 1 =>
    if (← peek?) = some '-' then
      let _ ← takeSpaced
      return .union (.single '-') (← takeDashes steps)
    else return .nothing

/-- Take the mark of a class that holds the characters it does not list, and tell whether it came.
-/
def takeNegation : PatternReader Bool := do
  if (← peek?) = some '^' then
    let _ ← takeSpaced
    return true
  else return false

/-- The dashes or the bracket at the beginning of a class that stand for themselves. -/
def takeClassStart (steps : Nat) : PatternReader CharClass := do
  let next? ← peek?
  if next? = some '-' then takeDashes steps
  else if next? = some ']' then
    let _ ← takeSpaced
    return .single ']'
  else return .nothing

mutual

/-- A class after its opening bracket. -/
def readBrackets [PatternLibrary] (steps : Nat) : PatternReader CharClass :=
  match steps with
  | 0 => refuse
  | steps + 1 => do
    skipSpace
    let negated ← takeNegation
    let first ← takeClassStart steps
    let members ← readClassRest steps none first
    complementIf negated (inAnyCase (← get).flags members)

/-- The rest of a class up to its closing bracket. -/
def readClassRest [PatternLibrary] (steps : Nat) (pending : Option (CharClass × ClassOperation))
    (members : CharClass) : PatternReader CharClass :=
  match steps with
  | 0 => refuse
  | steps + 1 => do
    skipSpace
    let flags := (← get).flags
    match ← takeOperation? with
    | some operation =>
      readClassRest steps (some (applyOperation flags pending members, operation)) .nothing
    | none =>
      match ← peek? with
      | some ']' => do
        drop 1
        return applyOperation flags pending members
      | some '[' => do
        let nested ←
          match ← takeAsciiClass? with
          | some named => pure named
          | none =>
            drop 1
            readBrackets steps
        readClassRest steps pending (.union members nested)
      | _ => readClassRest steps pending (.union members (← readClassItem))

end

/-! ## Repetitions -/

/-- Skip white space. -/
def skipBlanks : PatternReader Unit :=
  modify fun state => { state with rest := state.rest.dropWhile Text.isBlank }

/-- A number in braces, with white space around it. -/
def readCount? : PatternReader (Option Nat) := do
  skipSpace
  skipBlanks
  let digits ← takeWhile Char.isDigit
  skipSpace
  skipBlanks
  skipSpace
  let value := digits.foldl (fun value c => value * 10 + (c.toNat - '0'.toNat)) 0
  if digits = [] then return none
  else if value < 0x100000000 then return some value
  else refuse

/-- The bounds of a repetition after its opening brace. -/
def readBounds : PatternReader (Nat × Option Nat) := do
  let least? ← readCount?
  let some least := least? | refuse
  match ← take with
  | '\x7d' => return (least, some least)
  | ',' => do
    skipSpace
    if ← takeIf "\x7d" then return (least, none)
    let some most ← readCount? | refuse
    if (← take) ≠ '\x7d' ∨ most < least then refuse
    return (least, some most)
  | _ => refuse

/-- How often the part before a mark is repeated; the mark has been taken. -/
def readMark (mark : Char) : PatternReader (Nat × Option Nat) := do
  if mark = '?' then return (0, some 1)
  else if mark = '*' then return (0, none)
  else if mark = '+' then return (1, none)
  else
    let bounds ← readBounds
    skipSpace
    return bounds

/-- A repetition of a part, whose mark has been taken. -/
def readRepetition (bounds : Nat × Option Nat) (body : Regex) : PatternReader Regex := do
  let isLazy ← takeIf "?"
  return .repetition bounds.1 bounds.2 (isLazy == (← get).flags.swapGreed) body

/-! ## Groups -/

/-- Turn a flag on or off. -/
def setFlag? (flags : PatternFlags) (value : Bool) : Char → Option PatternFlags
  | 'i' => some { flags with ignoreCase := value }
  | 'm' => some { flags with multiLine := value }
  | 's' => some { flags with dotAll := value }
  | 'U' => some { flags with swapGreed := value }
  | 'u' => some { flags with unicode := value }
  | 'R' => some { flags with crlf := value }
  | 'x' => some { flags with spaced := value }
  | _ => none

/-- Turn flags on, and off after a dash, each at most once. -/
def applyFlags (flags : PatternFlags) (letters : Text) : PatternReader PatternFlags := do
  if letters.eraseDups.length ≠ letters.length ∨ letters.getLast? = some '-' then refuse
  let on := letters.takeWhile (· ≠ '-')
  let off := letters.drop (on.length + 1)
  let some flags := on.foldlM (fun flags c => setFlag? flags true c) flags | refuse
  let some flags := off.foldlM (fun flags c => setFlag? flags false c) flags | refuse
  return flags

/-- Whether a character may stand in the name of a group. -/
def isGroupName (name : Text) : Bool :=
  match name with
  | [] => false
  | first :: rest =>
    (first = '_' || Unicode.isAlphabetic first) &&
      rest.all fun c =>
        c = '_' || c = '.' || c = '[' || c = ']' || Unicode.isAlphanumeric c

/-- Count one more capturing group. -/
def newGroup : PatternReader Nat := do
  let index := (← get).groups + 1
  modify fun state => { state with groups := index }
  return index

/-- What an opening parenthesis begins. -/
inductive GroupStart where
  | capturing (index : Nat)
  | plain
  /-- The flags hold up to the end of the group around them. -/
  | flags

/-- Whether a text begins with the mark of a condition on its surroundings, which is no pattern. -/
def beginsLook (text : Text) : Bool :=
  ["?=", "?!", "?<=", "?<!"].any fun look => (Text.after? look.toList text).isSome

/-- Take what stands before the name of a group, and tell whether it came next. -/
def takeNameMark : PatternReader Bool := do
  if ← takeIf "?P<" then return true
  else takeIf "?<"

/-- The name of a group, which no earlier group may have. -/
def readGroupName : PatternReader GroupStart := do
  let index ← newGroup
  let name ← takeUntil '>'
  if !isGroupName name || ((← get).names.lookup name).isSome then refuse
  modify fun state => { state with names := state.names ++ [(name, index)] }
  return .capturing index

/-- Flags, and what they are for. -/
def readGroupFlags : PatternReader GroupStart := do
  let letters ← takeWhile fun c => c ≠ ':' && c ≠ ')'
  let last ← take
  let flags ← applyFlags (← get).flags letters
  modify fun state => { state with flags }
  if last = ':' then return .plain
  else if letters = [] then refuse
  else return .flags

/-- What follows an opening parenthesis. The flags of the group are set. -/
def readGroupStart : PatternReader GroupStart := do
  skipSpace
  if beginsLook (← get).rest then refuse
  else if ← takeNameMark then readGroupName
  else if ← takeIf "?" then readGroupFlags
  else return .capturing (← newGroup)

/-! ## Patterns -/

/-- One character of a pattern as a regular expression. -/
def ofLiteral (c : Char) : PatternReader Regex := do
  let flags := (← get).flags
  if flags.ignoreCase ∧ !flags.unicode ∧ c.toNat ≥ 0x80 then refuse
  return .one (inAnyCase flags (.single c))

/-- The dot. -/
def ofDot : PatternReader Regex := do
  let flags := (← get).flags
  if !flags.unicode then refuse
  else if flags.dotAll then return .one .everything
  else if flags.crlf then return .one (.complement (.union (.single '\r') (.single '\n')))
  else return .one (.complement (.single '\n'))

/-- What a character begins that is no mark of a repetition, a group or a class in brackets. -/
def primitiveFrom [PatternLibrary] (flags : PatternFlags) : (first : Char) → PatternReader Regex
  | '.' => ofDot
  | '^' => return .anchor (if flags.multiLine then .lineStart flags.crlf else .textStart)
  | '$' => return .anchor (if flags.multiLine then .lineEnd flags.crlf else .textEnd)
  | '\\' => do
    match ← readEscape with
    | .literal c => ofLiteral c
    | .chars members => return .one members
    | .anchor condition => return .anchor condition
  | c => ofLiteral c

/-- A single character, a dot, a mark of a line end or an escape. -/
def readPrimitive [PatternLibrary] : PatternReader Regex := do
  let flags := (← get).flags
  primitiveFrom flags (← take)

/-- The concatenation of parts, the last of them first. Parts that only set flags are left out. -/
def concatReversed (parts : List (Option Regex)) : Regex :=
  parts.foldl
    (fun whole part =>
      match part, whole with
      | none, whole => whole
      | some part, .empty => part
      | some part, whole => .concat part whole)
    .empty

mutual

/-- One or more alternatives. -/
def readAlternatives [PatternLibrary] (steps : Nat) : PatternReader Regex :=
  match steps with
  | 0 => refuse
  | steps + 1 => do
    let first ← readParts steps []
    if ← takeIf "|" then return .alternation first (← readAlternatives steps)
    else return first

/-- The parts of an alternative, after those in `parts`, which holds the last one first. -/
def readParts [PatternLibrary] (steps : Nat) (parts : List (Option Regex)) : PatternReader Regex :=
  match steps with
  | 0 => refuse
  | steps + 1 => do
    skipSpace
    match ← peek? with
    | none | some ')' | some '|' => return concatReversed parts
    | some '(' => do
      drop 1
      let outside := (← get).flags
      match ← readGroupStart with
      | .flags => readParts steps (none :: parts)
      | .plain => do
        let body ← readGroup steps outside
        readParts steps (some body :: parts)
      | .capturing index => do
        let body ← readGroup steps outside
        readParts steps (some (.capture index body) :: parts)
    | some '[' => do
      drop 1
      let members ← readBrackets steps
      readParts steps (some (.one members) :: parts)
    | some c =>
      if c = '?' ∨ c = '*' ∨ c = '+' ∨ c = '\x7b' then do
        drop 1
        match parts with
        | some body :: parts =>
          let repeated ← readRepetition (← readMark c) body
          readParts steps (some repeated :: parts)
        | _ => refuse
      else do
        let part ← readPrimitive
        readParts steps (some part :: parts)

/-- The rest of a group, after which the flags are again those outside of it. -/
def readGroup [PatternLibrary] (steps : Nat) (outside : PatternFlags) : PatternReader Regex :=
  match steps with
  | 0 => refuse
  | steps + 1 => do
    let body ← readAlternatives steps
    if (← take) ≠ ')' then refuse
    modify fun state => { state with flags := outside }
    return body

end

end PatternReader

/-- A regular expression with names for some of its groups. -/
structure Pattern where
  regex : Regex
  names : List (Text × Nat)
  deriving DecidableEq, Repr

namespace Pattern

variable [library : PatternLibrary]

/-- The regular expression that a text writes, if it has the syntax of a pattern. -/
def read? (text : Text) : Option Pattern := do
  let (regex, state) ←
    (PatternReader.readAlternatives (3 * text.length + 3)).run { rest := text }
  if state.rest = [] then return ⟨regex, state.names⟩ else none

/-- The pattern that a text is, if it is one within the limits of the library. -/
def ofText? (text : Text) : Option Pattern :=
  if library.admits text then read? text else none

/-- A text in a group behind the mark of a beginning. -/
def inGroup (text : Text) : Text :=
  "^(?:".toList ++ text ++ [')']

/-- A pattern that matches only at the beginning of a text. -/
def atStart? (text : Text) : Option Pattern :=
  ofText? (inGroup text)

end Pattern

end LiterateMarkdown
