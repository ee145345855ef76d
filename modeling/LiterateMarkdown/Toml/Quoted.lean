import LiterateMarkdown.Text.Basic

/-!
# TOML strings

A string is written between double quotes, where a backslash starts an escape, or between single
quotes, where every character stands for itself. Between three quotes it may run over several lines.
A value is written in the plainest style that needs no escapes.
-/

namespace LiterateMarkdown

/-- A style of quoting. -/
structure QuoteStyle where
  /-- Whether a backslash starts an escape, between double quotes. -/
  escapes : Bool
  multiLine : Bool
  deriving DecidableEq, Repr

namespace QuoteStyle

/-- The character that quotes a string. -/
def mark (style : QuoteStyle) : Char :=
  if style.escapes then '"' else '\''

/-- What stands before and after a string. -/
def delimiter (style : QuoteStyle) : Text :=
  List.replicate (if style.multiLine then 3 else 1) style.mark

/-- Whether a character other than a newline may stand in a string or a comment. -/
def isPlain (c : Char) : Bool :=
  c = '\t' || (' ' ≤ c && c ≠ '\x7f')

/-- Whether a character may stand in a multi-line string. -/
def isPlainOrNewline (c : Char) : Bool :=
  isPlain c || c = '\n' || c = '\r'

/-- The character with the given hexadecimal digits. -/
def hexChar? (count : Nat) (text : Text) : Option Char :=
  let digits := text.take count
  let isHex (c : Char) := c.isDigit || ('a' ≤ c && c ≤ 'f') || ('A' ≤ c && c ≤ 'F')
  let value (c : Char) := if c.isDigit then c.toNat - 48 else c.toNat % 32 + 9
  let code := digits.foldl (fun code c => code * 16 + value c) 0
  if digits.length = count ∧ digits.all isHex ∧ code.isValidChar then some (.ofNat code) else none

/-- What an escape stands for, and how many characters it takes after the backslash. -/
def escaped? : Text → Option (Char × Nat)
  | 'b' :: _ => some ('\x08', 1)
  | 't' :: _ => some ('\t', 1)
  | 'n' :: _ => some ('\n', 1)
  | 'f' :: _ => some ('\x0c', 1)
  | 'r' :: _ => some ('\r', 1)
  | 'e' :: _ => some ('\x1b', 1)
  | '"' :: _ => some ('"', 1)
  | '\\' :: _ => some ('\\', 1)
  | 'x' :: digits => (hexChar? 2 digits).map (·, 3)
  | 'u' :: digits => (hexChar? 4 digits).map (·, 5)
  | 'U' :: digits => (hexChar? 8 digits).map (·, 9)
  | _ => none

/-- White space, newlines included. -/
def isLayout (c : Char) : Bool :=
  c = ' ' || c = '\t' || c = '\r' || c = '\n'

/--
The number of characters that a backslash at the end of a line leaves out: the rest of the line,
which is blank, and the white space after it.
-/
def continuation? (text : Text) : Option Nat :=
  match text.dropWhile fun c => c = ' ' || c = '\t' || c = '\r' with
  | '\n' :: _ => some (text.takeWhile isLayout).length
  | _ => none

/-- The value of a string after its opening delimiter, and what follows the closing one. -/
def read? (style : QuoteStyle) (text : Text) : Option (Text × Text) :=
  match text with
  | [] => none
  | c :: rest =>
    if c = style.mark then
      if style.multiLine then
        -- up to two quotes before the closing delimiter belong to the string
        let more := (rest.takeWhile (· = c)).length
        if more < 2 then (read? style rest).map fun (value, rest) => (c :: value, rest)
        else some (List.replicate (min (more - 2) 2) c, rest.drop (min more 4))
      else some ([], rest)
    else if c = '\\' && style.escapes then
      match if style.multiLine then continuation? rest else none with
      | some length => read? style (rest.drop length)
      | none => do
        let (escaped, length) ← escaped? rest
        let (value, rest) ← read? style (rest.drop length)
        return (escaped :: value, rest)
    else if isPlain c || (style.multiLine && isPlainOrNewline c) then
      (read? style rest).map fun (value, rest) => (c :: value, rest)
    else none
termination_by text.length
decreasing_by all_goals simp only [List.length_drop, List.length_cons]; omega

/-- A multi-line string does not begin with the newline right after its opening delimiter. -/
def afterFirstNewline : Text → Text
  | '\n' :: rest | '\r' :: '\n' :: rest => rest
  | text => text

/-- The value of a string in any style, and what follows it. -/
def readAny? : Text → Option (Text × Text)
  | '"' :: '"' :: '"' :: rest => read? ⟨true, true⟩ (afterFirstNewline rest)
  | '\'' :: '\'' :: '\'' :: rest => read? ⟨false, true⟩ (afterFirstNewline rest)
  | '"' :: rest => read? ⟨true, false⟩ rest
  | '\'' :: rest => read? ⟨false, false⟩ rest
  | _ => none

/-! ## Writing -/

/-- The longest run of a character. -/
def longestRun (c : Char) (text : Text) : Nat :=
  go 0 text
where
  /-- The longest run, when the text goes on after `run` occurrences. -/
  go (run : Nat) : Text → Nat
    | [] => run
    | first :: rest => if first = c then go (run + 1) rest else max run (go 0 rest)

/-- Whether a string in this style shows a value without any escape. -/
def showsPlainly (style : QuoteStyle) (value : Text) : Bool :=
  value.all isPlainUnder && !(style.escapes && value.contains '\\') &&
    longestRun style.mark value ≤ (if style.multiLine then 2 else 0)
where
  /-- Whether a character may stand in a string of this style. -/
  isPlainUnder (c : Char) : Bool :=
    isPlain c || (style.multiLine && c = '\n')

/-- The style in which a value is written. -/
def ofValue (value : Text) : QuoteStyle :=
  let styles : List QuoteStyle := [⟨true, false⟩, ⟨false, false⟩, ⟨true, true⟩, ⟨false, true⟩]
  match styles.find? fun style => showsPlainly style value with
  | some style => style
  | none => ⟨true, value.contains '\n'⟩

/-- The hexadecimal digits of a control character. -/
def controlDigits (c : Char) : Text :=
  let digit (n : Nat) : Char := if n < 10 then .ofNat (48 + n) else .ofNat (55 + n)
  ['0', '0', digit (c.toNat / 16), digit (c.toNat % 16)]

/-- A character other than a quote between double quotes. -/
def escapeChar (multiLine : Bool) (c : Char) : Text :=
  if c = '\x08' then ['\\', 'b']
  else if c = '\t' then ['\\', 't']
  else if c = '\n' then if multiLine then [c] else ['\\', 'n']
  else if c = '\x0c' then ['\\', 'f']
  else if c = '\r' then ['\\', 'r']
  else if c = '\\' then ['\\', '\\']
  else if isPlain c then [c]
  else '\\' :: 'u' :: controlDigits c

/-- A value between double quotes, after `run` quotes that are not escaped. -/
def escape (multiLine : Bool) (run : Nat) : Text → Text
  | [] => []
  | '"' :: rest =>
    if run < (if multiLine then 2 else 0) then '"' :: escape multiLine (run + 1) rest
    else '\\' :: '"' :: escape multiLine 0 rest
  | c :: rest => escapeChar multiLine c ++ escape multiLine 0 rest

/-- A value as a string of a style. -/
def write (style : QuoteStyle) (value : Text) : Text :=
  style.delimiter ++ (if style.multiLine && value.contains '\n' then ['\n'] else []) ++
    (if style.escapes then escape style.multiLine 0 value else value) ++ style.delimiter

end QuoteStyle

end LiterateMarkdown
