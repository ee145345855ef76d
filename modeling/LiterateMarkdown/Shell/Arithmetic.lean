import LiterateMarkdown.Shell.Syntax

/-!
# Shell arithmetic

Sums, differences, products, quotients and remainders of integers and variables, with parentheses. A
quotient is cut off toward zero, and dividing by zero is an error.
-/

namespace LiterateMarkdown.Shell

/-- A token of an arithmetic expression. -/
inductive ArithmeticToken where
  | number (value : Int)
  | operator (symbol : Char)
  deriving DecidableEq, Repr

namespace Arithmetic

/-- The number that decimal digits stand for. -/
def decimal (digits : Text) : Nat :=
  digits.foldl (fun value c => value * 10 + (c.toNat - '0'.toNat)) 0

/-- The integer that a text stands for, nothing standing for zero. -/
def integer? (text : Text) : Option Int :=
  match text with
  | '-' :: digits =>
    if digits ≠ [] ∧ digits.all Char.isDigit then some (-(decimal digits)) else none
  | digits => if digits.all Char.isDigit then some (decimal digits) else none

/-- The tokens of an expression, variables being replaced by their values. -/
def tokens (valueOf : Text → Text) (steps : Nat) (input : Text) : Option (List ArithmeticToken) :=
  match steps with
  | 0 => none
  | steps + 1 =>
    match input.dropWhile Text.isBlank with
    | [] => some []
    | c :: rest =>
      if c.isDigit then do
        let later ← tokens valueOf steps (rest.dropWhile Char.isDigit)
        return .number (decimal (c :: rest.takeWhile Char.isDigit)) :: later
      else if isNameStart c then do
        let value ← integer? (valueOf (c :: rest.takeWhile isNameRest))
        return .number value :: (← tokens valueOf steps (rest.dropWhile isNameRest))
      else if c = '$' then tokens valueOf steps rest
      else do return .operator c :: (← tokens valueOf steps rest)

mutual

/-- A number, a negation or an expression in parentheses. -/
def factor (steps : Nat) (input : List ArithmeticToken) : Option (Int × List ArithmeticToken) :=
  match steps with
  | 0 => none
  | steps + 1 =>
    match input with
    | .number value :: rest => some (value, rest)
    | .operator '-' :: rest => (factor steps rest).map fun (value, rest) => (-value, rest)
    | .operator '+' :: rest => factor steps rest
    | .operator '(' :: rest => do
      let (first, rest) ← factor steps rest
      let (value, rest) ← continueSum steps 0 first true rest
      match rest with
      | .operator ')' :: rest => some (value, rest)
      | _ => none
    | _ => none

/--
Go on with a sum: `done` is what is summed up so far and `current` the present product, which is
added if `positive` and else taken away.
-/
def continueSum (steps : Nat) (done current : Int) (positive : Bool)
    (input : List ArithmeticToken) : Option (Int × List ArithmeticToken) :=
  let total := if positive then done + current else done - current
  match steps with
  | 0 => none
  | steps + 1 =>
    match input with
    | .operator '+' :: rest => do
      let (next, rest) ← factor steps rest
      continueSum steps total next true rest
    | .operator '-' :: rest => do
      let (next, rest) ← factor steps rest
      continueSum steps total next false rest
    | .operator '*' :: rest => do
      let (next, rest) ← factor steps rest
      continueSum steps done (current * next) positive rest
    | .operator '/' :: rest => do
      let (next, rest) ← factor steps rest
      if next = 0 then none else continueSum steps done (current.tdiv next) positive rest
    | .operator '%' :: rest => do
      let (next, rest) ← factor steps rest
      if next = 0 then none else continueSum steps done (current.tmod next) positive rest
    | rest => some (total, rest)

end

/-- The value of an expression, an empty one having the value zero. -/
def evaluate (valueOf : Text → Text) (expression : Text) : Option Int := do
  let tokens ← tokens valueOf (expression.length + 1) expression
  if tokens = [] then return 0
  let steps := 2 * tokens.length + 2
  let (first, rest) ← factor steps tokens
  let (value, rest) ← continueSum steps 0 first true rest
  if rest = [] then some value else none

/-- The decimal digits of an integer, with a sign if it is negative. -/
def ofInt (value : Int) : Text :=
  if value < 0 then '-' :: Text.ofNat value.natAbs else Text.ofNat value.natAbs

end Arithmetic

end LiterateMarkdown.Shell
