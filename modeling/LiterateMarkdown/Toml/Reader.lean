import LiterateMarkdown.Toml.Quoted
import LiterateMarkdown.Toml.Scalar
import LiterateMarkdown.Toml.Value

/-!
# Reading TOML

A file is a sequence of lines that give values to keys, under headers that name tables. A carriage
return stands only before a newline and counts as a blank there. The functions that read a sequence
take the length of their input as a bound on their steps, which no input exhausts; values are nested
at most as deep as `maximalDepth` says.
-/

namespace LiterateMarkdown

namespace TomlReader

/-- How deep arrays and tables in braces may be nested. -/
def maximalDepth : Nat := 80

/-- Whether every carriage return stands before a newline. -/
def returnsEndLines : Text → Bool
  | '\r' :: '\n' :: rest => returnsEndLines rest
  | '\r' :: _ => false
  | _ :: rest => returnsEndLines rest
  | [] => true

/-- The text without the blanks before it. -/
def skipBlanks (text : Text) : Text :=
  text.dropWhile fun c => c = ' ' || c = '\t' || c = '\r'

/-- The text without the blanks, newlines and comments before it. -/
def skipLayout? (inComment : Bool) : Text → Option Text
  | [] => some []
  | c :: rest =>
    if inComment then
      if c = '\n' then skipLayout? false rest
      else if QuoteStyle.isPlain c || c = '\r' then skipLayout? true rest
      else none
    else if c = '#' then skipLayout? true rest
    else if QuoteStyle.isLayout c then skipLayout? false rest
    else some (c :: rest)

/-- What follows a line of which only blanks and a comment may be left. -/
def nextLine? (text : Text) : Option Text :=
  match skipBlanks text with
  | [] => some []
  | '\n' :: rest => skipLayout? false rest
  | '#' :: rest => skipLayout? true rest
  | _ => none

/-- Whether a character may stand in a key without quotes. -/
def isBareKey (c : Char) : Bool :=
  c.isAlphanum || c = '_' || c = '-'

/-- A part of a key, and what follows it. -/
def readKeyPart? : Text → Option (Text × Text)
  | '"' :: rest => QuoteStyle.read? ⟨true, false⟩ rest
  | '\'' :: rest => QuoteStyle.read? ⟨false, false⟩ rest
  | text =>
    let key := text.takeWhile isBareKey
    if key = [] then none else some (key, text.drop key.length)

/-- A key with the path of keys before its last dot, and what follows it. -/
def readKey? (steps : Nat) (text : Text) : Option ((List Text × Text) × Text) :=
  match steps with
  | 0 => none
  | steps + 1 => do
    let (part, rest) ← readKeyPart? (skipBlanks text)
    match skipBlanks rest with
    | '.' :: rest =>
      let ((path, key), rest) ← readKey? steps rest
      return ((part :: path, key), rest)
    | rest => return (([], part), rest)

/-- Whether a character ends a value without quotes. -/
def endsWord (c : Char) : Bool :=
  QuoteStyle.isLayout c || c = ',' || c = ']' || c = '\x7d' || c = '#' || c = '='

/-- The word at the beginning of a text; a time may follow a date after a space. -/
def wordOf (text : Text) : Text :=
  let word := text.takeWhile fun c => !endsWord c
  match text.drop word.length with
  | ' ' :: rest =>
    let time := rest.takeWhile fun c => !endsWord c
    if TomlScalar.afterDate? word = some [] && time.head?.any Char.isDigit then word ++ ' ' :: time
    else word
  | _ => word

/-- A value without quotes or brackets, and what follows it. -/
def readWord? (text : Text) : Option (TomlValue × Text) :=
  let word := wordOf text
  let rest := text.drop word.length
  if word = "true".toList then some (.boolean true, rest)
  else if word = "false".toList then some (.boolean false, rest)
  else if TomlScalar.isNumber word || TomlScalar.isDateTime word then some (.scalar, rest)
  else none

mutual

/-- A value, and what follows it. -/
def readValue? (steps depth : Nat) (text : Text) : Option (TomlValue × Text) :=
  match steps with
  | 0 => none
  | steps + 1 =>
    match text with
    | '[' :: rest =>
      if depth = 0 then none
      else do
        let (items, rest) ← readItems? steps (depth - 1) rest
        return (.array items, rest)
    | '\x7b' :: rest =>
      if depth = 0 then none
      else do
        let (entries, rest) ← readBraces? steps (depth - 1) rest
        return (.table .braces (← TomlTable.addEntries [] entries), rest)
    | '"' :: _ | '\'' :: _ => do
      let (content, rest) ← QuoteStyle.readAny? text
      return (.string content, rest)
    | _ => readWord? text

/-- The remaining items of an array, and what follows its closing bracket. -/
def readItems? (steps depth : Nat) (text : Text) : Option (List TomlValue × Text) :=
  match steps with
  | 0 => none
  | steps + 1 => do
    match ← skipLayout? false text with
    | ']' :: rest => return ([], rest)
    | text =>
      let (item, rest) ← readValue? steps depth text
      match ← skipLayout? false rest with
      | ']' :: rest => return ([item], rest)
      | ',' :: rest =>
        let (items, rest) ← readItems? steps depth rest
        return (item :: items, rest)
      | _ => none

/-- The remaining entries of a table in braces, and what follows its closing brace. -/
def readBraces? (steps depth : Nat) (text : Text) : Option (List TomlTable.Entry × Text) :=
  match steps with
  | 0 => none
  | steps + 1 => do
    match ← skipLayout? false text with
    | '\x7d' :: rest => return ([], rest)
    | text =>
      let (entry, rest) ← readEntry? steps depth text
      match ← skipLayout? false rest with
      | '\x7d' :: rest => return ([entry], rest)
      | ',' :: rest =>
        let (entries, rest) ← readBraces? steps depth rest
        return (entry :: entries, rest)
      | _ => none

/-- A key and its value, and what follows them. -/
def readEntry? (steps depth : Nat) (text : Text) : Option (TomlTable.Entry × Text) :=
  match steps with
  | 0 => none
  | steps + 1 => do
    let ((path, key), rest) ← readKey? steps text
    match rest with
    | '=' :: rest =>
      let (value, rest) ← readValue? steps depth (skipBlanks rest)
      return (⟨path, key, value⟩, rest)
    | _ => none

end

/-- The entries up to the next header, and what follows them. -/
def readEntries? (steps : Nat) (text : Text) : Option (List TomlTable.Entry × Text) :=
  match steps with
  | 0 => none
  | steps + 1 =>
    match text with
    | [] | '[' :: _ => some ([], text)
    | _ => do
      let (entry, rest) ← readEntry? steps maximalDepth text
      let (entries, rest) ← readEntries? steps (← nextLine? rest)
      return (entry :: entries, rest)

/-- The path, the key and the kind of a header, and what follows its line. -/
def readHeader? (steps : Nat) (text : Text) : Option ((List Text × Text) × Bool × Text) :=
  match text with
  | '[' :: '[' :: rest => do
    let (name, rest) ← readKey? steps rest
    return (name, true, ← nextLine? (← Text.after? [']', ']'] rest))
  | '[' :: rest => do
    let (name, rest) ← readKey? steps rest
    return (name, false, ← nextLine? (← Text.after? [']'] rest))
  | _ => none

/-- The sections of a file from a header on. -/
def readSections? (steps : Nat) (text : Text) : Option (List TomlTable.Section) :=
  match steps with
  | 0 => none
  | steps + 1 =>
    if text = [] then some []
    else do
      let ((path, key), repeats, rest) ← readHeader? steps text
      let (entries, rest) ← readEntries? steps rest
      return ⟨path, key, repeats, entries⟩ :: (← readSections? steps rest)

/-- The table of a whole file. -/
def ofText? (text : Text) : Option TomlTable := do
  guard (returnsEndLines text)
  let steps := 4 * text.length + 4
  let start := (Text.after? ['\ufeff'] text).getD text
  let (entries, rest) ← readEntries? steps (← skipLayout? false start)
  TomlTable.ofSections? entries (← readSections? steps rest)

end TomlReader

end LiterateMarkdown
