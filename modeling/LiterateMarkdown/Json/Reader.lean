import LiterateMarkdown.Json.Value
import LiterateMarkdown.Text.Utf8

/-!
# Reading JSON

A JSON text is read from symbols, so that bytes which are no text may stand in a string. Nothing but
blanks may follow the value. The functions that read a nested value take the length of their input
as a bound on their steps, which no input exhausts.
-/

namespace LiterateMarkdown

namespace JsonValue

/-- A part of a string as it is written. -/
inductive StringPiece where
  | char (c : Char)
  /-- A code unit of UTF-16, written as an escape. -/
  | codeUnit (value : Nat)
  | stray
  deriving DecidableEq, Repr

/-- A blank between the tokens of a JSON text. -/
def isLayout : Symbol → Bool
  | .char c => c = ' ' || c = '\t' || c = '\r' || c = '\n'
  | .stray _ => false

/-- The symbols without the blanks before them. -/
def skipLayout (input : List Symbol) : List Symbol :=
  input.dropWhile isLayout

/-- The value of a hexadecimal digit. -/
def hexDigit? (c : Char) : Option Nat :=
  if '0' ≤ c ∧ c ≤ '9' then some (c.toNat - '0'.toNat)
  else if 'a' ≤ c ∧ c ≤ 'f' then some (c.toNat - 'a'.toNat + 10)
  else if 'A' ≤ c ∧ c ≤ 'F' then some (c.toNat - 'A'.toNat + 10)
  else none

/-- The character that a one-letter escape stands for. -/
def escaped? (c : Char) : Option Char :=
  if c = '"' ∨ c = '\\' ∨ c = '/' then some c
  else if c = 'b' then some '\x08'
  else if c = 'f' then some '\x0c'
  else if c = 'n' then some '\n'
  else if c = 'r' then some '\r'
  else if c = 't' then some '\t'
  else none

/-- The rest of a string after its opening quote, and what follows its closing quote. -/
def stringPieces : List Symbol → Option (List StringPiece × List Symbol)
  | .char '"' :: rest => some ([], rest)
  | .char '\\' :: .char 'u' :: .char a :: .char b :: .char c :: .char d :: rest => do
    let value := (((← hexDigit? a) * 16 + (← hexDigit? b)) * 16 + (← hexDigit? c)) * 16 +
      (← hexDigit? d)
    let (pieces, remainder) ← stringPieces rest
    return (.codeUnit value :: pieces, remainder)
  | .char '\\' :: .char c :: rest => do
    let escaped ← escaped? c
    let (pieces, remainder) ← stringPieces rest
    return (.char escaped :: pieces, remainder)
  | .char c :: rest =>
    if c = '\\' ∨ c < ' ' then none
    else do
      let (pieces, remainder) ← stringPieces rest
      return (.char c :: pieces, remainder)
  | .stray _ :: rest => do
    let (pieces, remainder) ← stringPieces rest
    return (.stray :: pieces, remainder)
  | [] => none

/-- Whether a code unit is the first of a surrogate pair. -/
def isHighSurrogate (value : Nat) : Bool :=
  0xd800 ≤ value && value < 0xdc00

/-- Whether a code unit is the second of a surrogate pair. -/
def isLowSurrogate (value : Nat) : Bool :=
  0xdc00 ≤ value && value < 0xe000

/-- The text of a string, if its pieces are text. -/
def textOfPieces? : List StringPiece → Option Text
  | [] => some []
  | .char c :: rest => (textOfPieces? rest).map (c :: ·)
  | .stray :: _ => none
  | .codeUnit high :: .codeUnit low :: rest =>
    if isHighSurrogate high then
      if isLowSurrogate low then
        (textOfPieces? rest).map
          (.ofNat (0x10000 + (high - 0xd800) * 0x400 + (low - 0xdc00)) :: ·)
      else none
    else if isLowSurrogate high then none
    else (textOfPieces? (.codeUnit low :: rest)).map (.ofNat high :: ·)
  | .codeUnit value :: rest =>
    if isHighSurrogate value || isLowSurrogate value then none
    else (textOfPieces? rest).map (.ofNat value :: ·)

/-- Whether a symbol is a decimal digit. -/
def isDigit : Symbol → Bool
  | .char c => c.isDigit
  | .stray _ => false

/-- What follows one or more digits. -/
def afterDigits? (input : List Symbol) : Option (List Symbol) :=
  if input.head?.any isDigit then some (input.dropWhile isDigit) else none

/-- What follows the digits before the point of a number, which has no needless leading zero. -/
def afterInteger? : List Symbol → Option (List Symbol)
  | .char '0' :: rest => if rest.head?.any isDigit then none else some rest
  | input => afterDigits? input

/-- What follows the fraction of a number, if it has one. -/
def afterFraction? : List Symbol → Option (List Symbol)
  | .char '.' :: rest => afterDigits? rest
  | input => some input

/-- What follows the exponent of a number, if it has one. -/
def afterExponent? : List Symbol → Option (List Symbol)
  | .char c :: rest =>
    if c = 'e' ∨ c = 'E' then
      match rest with
      | .char '+' :: digits | .char '-' :: digits => afterDigits? digits
      | digits => afterDigits? digits
    else some (.char c :: rest)
  | input => some input

/-- What follows a number. -/
def afterNumber? (input : List Symbol) : Option (List Symbol) := do
  let unsigned :=
    match input with
    | .char '-' :: rest => rest
    | _ => input
  afterExponent? (← afterFraction? (← afterInteger? unsigned))

/-- What follows a word. -/
def afterWord? : Text → List Symbol → Option (List Symbol)
  | [], input => some input
  | expected :: word, .char actual :: rest =>
    if expected = actual then afterWord? word rest else none
  | _, _ => none

/-- A string after its opening quote. -/
def readString (input : List Symbol) : Option (Option Text × List Symbol) := do
  let (pieces, rest) ← stringPieces input
  return (textOfPieces? pieces, rest)

mutual

/-- A value, and what follows it. -/
def readValue (steps : Nat) (input : List Symbol) : Option (JsonValue × List Symbol) :=
  match steps with
  | 0 => none
  | steps + 1 =>
    match skipLayout input with
    | .char '"' :: rest => (readString rest).map fun (content, rest) => (string content, rest)
    | .char '[' :: rest =>
      match skipLayout rest with
      | .char ']' :: rest => some (array [], rest)
      | rest => (readItems steps rest).map fun (items, rest) => (array items, rest)
    | .char '\x7b' :: rest =>
      match skipLayout rest with
      | .char '\x7d' :: rest => some (object [], rest)
      | rest => (readMembers steps rest).map fun (members, rest) => (object members, rest)
    | .char 'n' :: rest => (afterWord? "ull".toList rest).map (null, ·)
    | .char 't' :: rest => (afterWord? "rue".toList rest).map (boolean true, ·)
    | .char 'f' :: rest => (afterWord? "alse".toList rest).map (boolean false, ·)
    | rest => (afterNumber? rest).map (number, ·)

/-- The items of an array that has some, and what follows the closing bracket. -/
def readItems (steps : Nat) (input : List Symbol) : Option (List JsonValue × List Symbol) :=
  match steps with
  | 0 => none
  | steps + 1 => do
    let (item, rest) ← readValue steps input
    match skipLayout rest with
    | .char ']' :: rest => some ([item], rest)
    | .char ',' :: rest =>
      let (items, rest) ← readItems steps rest
      some (item :: items, rest)
    | _ => none

/-- The members of an object that has some, and what follows the closing brace. -/
def readMembers (steps : Nat) (input : List Symbol) :
    Option (List (Option Text × JsonValue) × List Symbol) :=
  match steps with
  | 0 => none
  | steps + 1 =>
    match skipLayout input with
    | .char '"' :: rest => do
      let (name, rest) ← readString rest
      match skipLayout rest with
      | .char ':' :: rest =>
        let (value, rest) ← readValue steps rest
        match skipLayout rest with
        | .char '\x7d' :: rest => some ([(name, value)], rest)
        | .char ',' :: rest =>
          let (members, rest) ← readMembers steps rest
          some ((name, value) :: members, rest)
        | _ => none
      | _ => none
    | _ => none

end

/-- The value of a whole JSON text. -/
def ofSymbols? (input : List Symbol) : Option JsonValue := do
  let (value, rest) ← readValue (2 * input.length + 1) input
  if (skipLayout rest).isEmpty then some value else none

end JsonValue

end LiterateMarkdown
