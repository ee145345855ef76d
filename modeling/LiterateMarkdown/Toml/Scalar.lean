import LiterateMarkdown.Text.Basic

/-!
# TOML numbers, dates and times

No setting is a number, a date or a time, so only their form matters here: whether a word is one of
them. Underscores stand between digits, decimal numbers have no needless leading zero, whole numbers
fit 128 bits, other numbers do not exceed the largest finite one, and the parts of a date or a time
are within their bounds.
-/

namespace LiterateMarkdown

namespace TomlScalar

/-- Whether every piece between underscores is made of one or more of the given digits. -/
def isDigits (digit : Char → Bool) (text : Text) : Bool :=
  (Text.splitOn '_' text).all fun piece => !piece.isEmpty && piece.all digit

/-- The value of a digit, hexadecimal letters included. -/
def digitValue (c : Char) : Nat :=
  if c.isDigit then c.toNat - '0'.toNat
  else if 'a' ≤ c then c.toNat - 'a'.toNat + 10
  else c.toNat - 'A'.toNat + 10

/-- The value of digits in a base; underscores do not count. -/
def valueOfDigits (base : Nat) (text : Text) : Nat :=
  (text.filter (· ≠ '_')).foldl (fun value c => value * base + digitValue c) 0

/-- Whether digits are those of a decimal number without a needless leading zero. -/
def isDecimal (text : Text) : Bool :=
  isDigits Char.isDigit text && (text.length = 1 || text.head? ≠ some '0')

/-- Whether a number of this size and sign fits 128 bits. -/
def fitsInteger (negative : Bool) (size : Nat) : Bool :=
  if negative then size ≤ Nat.pow 2 127 else size < Nat.pow 2 128

/-- Whether a word is a whole number in base 16, 8 or 2. -/
def isInteger : Text → Bool
  | '0' :: 'x' :: digits =>
    isDigits (fun c => c.isDigit || ('a' ≤ c && c ≤ 'f') || ('A' ≤ c && c ≤ 'F')) digits &&
      fitsInteger false (valueOfDigits 16 digits)
  | '0' :: 'o' :: digits =>
    isDigits (fun c => '0' ≤ c && c ≤ '7') digits && fitsInteger false (valueOfDigits 8 digits)
  | '0' :: 'b' :: digits =>
    isDigits (fun c => c = '0' || c = '1') digits && fitsInteger false (valueOfDigits 2 digits)
  | _ => false

/-- What follows a sign, if there is one, and whether the sign is a minus. -/
def afterSign : Text → Text × Bool
  | '+' :: rest => (rest, false)
  | '-' :: rest => (rest, true)
  | text => (text, false)

/-- The parts of a text before and after the first character that satisfies `stops`. -/
def splitAtFirst (stops : Char → Bool) (text : Text) : Text × Option Text :=
  match text.dropWhile fun c => !stops c with
  | [] => (text, none)
  | _ :: rest => (text.takeWhile fun c => !stops c, some rest)

/--
Whether `digits` times ten to the given power stays below the midpoint between the largest finite
number in double precision and the next power of two.
-/
def isFinite (digits : Nat) (exponent : Int) : Bool :=
  let midpoint := (Nat.pow 2 54 - 1) * Nat.pow 2 970
  if digits = 0 then true
  else if exponent < 0 then
    let places := exponent.natAbs
    -- so many places below the point make a number with fewer digits small
    if (Nat.toDigits 10 digits).length ≤ places then true
    else digits < midpoint * Nat.pow 10 places
  else if 400 < exponent then false
  else digits * Nat.pow 10 exponent.toNat < midpoint

/-- Whether a word after its sign is a decimal number with a fraction, an exponent or both. -/
def isFractional (text : Text) : Bool :=
  let (mantissa, exponent) := splitAtFirst (fun c => c = 'e' || c = 'E') text
  let (whole, fraction) := splitAtFirst (· = '.') mantissa
  let (power, negative) := afterSign (exponent.getD [])
  let places := ((fraction.getD []).filter (· ≠ '_')).length
  let size := valueOfDigits 10 power
  (fraction.isSome || exponent.isSome) && isDecimal whole &&
    fraction.all (isDigits Char.isDigit) &&
    (exponent.isNone || isDigits Char.isDigit power) &&
    isFinite (valueOfDigits 10 (whole ++ fraction.getD []))
      ((if negative then -(size : Int) else size) - places)

/-- Whether a word is a number. -/
def isNumber (word : Text) : Bool :=
  let (unsigned, negative) := afterSign word
  isInteger word || unsigned = "inf".toList || unsigned = "nan".toList ||
    (isDecimal unsigned && fitsInteger negative (valueOfDigits 10 unsigned)) ||
    isFractional unsigned

/-- The value of so many digits at the beginning of a text, and what follows them. -/
def fixedDigits? (count : Nat) (text : Text) : Option (Nat × Text) :=
  let digits := text.take count
  if digits.length = count ∧ digits.all Char.isDigit then
    some (valueOfDigits 10 digits, text.drop count)
  else none

/-- What follows one given character. -/
def afterChar? (c : Char) (text : Text) : Option Text :=
  Text.after? [c] text

/-- The number of days of a month. -/
def daysOfMonth (year month : Nat) : Nat :=
  if month = 2 then
    if year % 4 = 0 ∧ (year % 100 ≠ 0 ∨ year % 400 = 0) then 29 else 28
  else if month = 4 ∨ month = 6 ∨ month = 9 ∨ month = 11 then 30
  else 31

/-- What follows a date. -/
def afterDate? (text : Text) : Option Text := do
  let (year, rest) ← fixedDigits? 4 text
  let (month, rest) ← fixedDigits? 2 (← afterChar? '-' rest)
  let (day, rest) ← fixedDigits? 2 (← afterChar? '-' rest)
  guard (1 ≤ month ∧ month ≤ 12 ∧ 1 ≤ day ∧ day ≤ daysOfMonth year month)
  return rest

/-- What follows an hour and a minute. -/
def afterMinutes? (text : Text) : Option Text := do
  let (hour, rest) ← fixedDigits? 2 text
  let (minute, rest) ← fixedDigits? 2 (← afterChar? ':' rest)
  guard (hour < 24 ∧ minute < 60)
  return rest

/-- What follows a time, whose seconds and their fraction may be missing. -/
def afterTime? (text : Text) : Option Text := do
  match ← afterMinutes? text with
  | ':' :: rest =>
    let (second, rest) ← fixedDigits? 2 rest
    guard (second ≤ 60)
    match rest with
    | '.' :: fraction =>
      guard (fraction.head?.any Char.isDigit)
      return fraction.dropWhile Char.isDigit
    | rest => return rest
  | rest => return rest

/-- What follows the offset of a time, if it has one. -/
def afterOffset? : Text → Option Text
  | 'Z' :: rest | 'z' :: rest => some rest
  | '+' :: rest | '-' :: rest => afterMinutes? rest
  | text => some text

/-- Whether a word is a date, a time or both. -/
def isDateTime (word : Text) : Bool :=
  match afterDate? word with
  | some [] => true
  | some (separator :: rest) =>
    (separator = 'T' || separator = 't' || separator = ' ') &&
      (afterTime? rest >>= afterOffset?) = some []
  | none => afterTime? word = some []

end TomlScalar

end LiterateMarkdown
