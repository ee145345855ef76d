import LiterateMarkdown.Text.Basic

/-!
# Shell scripts

The part of the shell language in which build scripts and sync commands are written here: simple
commands with quoting, parameters, arithmetic, command substitution and redirections, chained by
semicolons, newlines, `&&` and `||`. A script is read line by line, so the lines before a faulty one
are there to be run.
-/

namespace LiterateMarkdown.Shell

/-- A part of a word. What is quoted is not split at blanks. -/
inductive WordPart where
  | literal (text : Text) (quoted : Bool)
  | parameter (name : Text) (quoted : Bool)
  | arithmetic (expression : Text) (quoted : Bool)
  | substitution (script : Text) (quoted : Bool)
  deriving DecidableEq, Repr

/-- A word, part by part. -/
abbrev Word := List WordPart

/-- What a redirection does with its target. -/
inductive Direction where
  | write
  | append
  | read
  /-- The target names a descriptor. -/
  | duplicate
  deriving DecidableEq, Repr

/-- A token of a script. -/
inductive Token where
  | word (word : Word)
  | redirect (descriptor : Nat) (direction : Direction)
  | semicolon
  | newline
  | andThen
  | orElse
  | unsupported
  deriving DecidableEq, Repr

/-- A redirection with its target. -/
structure Redirection where
  descriptor : Nat
  direction : Direction
  target : Word
  deriving DecidableEq, Repr

/-- A simple command. -/
structure Command where
  words : List Word := []
  redirections : List Redirection := []
  deriving DecidableEq, Repr

/-- When a command of a line is run. -/
inductive Condition where
  | always
  /-- Only after a command that succeeded. -/
  | succeeded
  /-- Only after a command that failed. -/
  | failed
  deriving DecidableEq, Repr

/-- The commands of a line, in order. -/
abbrev CommandLine := List (Condition × Command)

/-- A character that may begin the name of a variable. -/
def isNameStart (c : Char) : Bool :=
  c.isAlpha || c = '_'

/-- A character of the name of a variable. -/
def isNameRest (c : Char) : Bool :=
  c.isAlphanum || c = '_'

/-- A character that ends a word unless it is quoted. -/
def isDelimiter (c : Char) : Bool :=
  c = ' ' || c = '\t' || c = '\n' || c = ';' || c = '&' || c = '|' || c = '<' || c = '>' ||
    c = '(' || c = ')'

/-- A character that a word holds as it is. -/
def isPlain (c : Char) : Bool :=
  !isDelimiter c && c ≠ '\'' && c ≠ '"' && c ≠ '\\' && c ≠ '$' && c ≠ '\x60'

/-- A parameter that is named by one character other than a letter. -/
def isSpecialParameter (c : Char) : Bool :=
  c.isDigit || c = '@' || c = '*' || c = '#' || c = '?' || c = '-' || c = '$' || c = '!'

/-- The text up to the parenthesis that closes `depth` open ones, and what follows it. -/
def untilClosed (depth : Nat) : Text → Option (Text × Text)
  | [] => none
  | c :: rest =>
    if c = ')' then
      match depth with
      | 0 => some ([], rest)
      | depth + 1 => (untilClosed depth rest).map fun (inner, rest) => (c :: inner, rest)
    else
      (untilClosed (if c = '(' then depth + 1 else depth) rest).map
        fun (inner, rest) => (c :: inner, rest)

/-- What a dollar sign begins, and what follows it. -/
def readExpansion (quoted : Bool) (input : Text) : Option (WordPart × Text) :=
  match input with
  | '(' :: '(' :: rest => do
    let (expression, rest) ← untilClosed 0 rest
    match rest with
    | ')' :: rest => some (.arithmetic expression quoted, rest)
    | _ => none
  | '(' :: rest => do
    let (script, rest) ← untilClosed 0 rest
    return (.substitution script quoted, rest)
  | '\x7b' :: rest =>
    let name := rest.takeWhile fun c => isNameRest c || isSpecialParameter c
    match name, rest.dropWhile fun c => isNameRest c || isSpecialParameter c with
    | _ :: _, '\x7d' :: rest => some (.parameter name quoted, rest)
    | _, _ => none
  | c :: rest =>
    if isNameStart c then
      some (.parameter (c :: rest.takeWhile isNameRest) quoted, rest.dropWhile isNameRest)
    else if isSpecialParameter c then some (.parameter [c] quoted, rest)
    else some (.literal ['$'] quoted, c :: rest)
  | [] => some (.literal ['$'] quoted, [])

/-- A character that a backslash escapes between double quotes. -/
def isEscapable (c : Char) : Bool :=
  c = '$' || c = '"' || c = '\\' || c = '\x60'

/-- What stands between double quotes, and what follows them. -/
def readQuoted (steps : Nat) (input : Text) : Option (Word × Text) :=
  match steps with
  | 0 => none
  | steps + 1 =>
    match input with
    | [] => none
    | '"' :: rest => some ([.literal [] true], rest)
    | '\\' :: '\n' :: rest => readQuoted steps rest
    | '\\' :: c :: rest => do
      let (parts, remainder) ← readQuoted steps rest
      return (.literal (if isEscapable c then [c] else ['\\', c]) true :: parts, remainder)
    | '$' :: rest => do
      let (part, rest) ← readExpansion true rest
      let (parts, rest) ← readQuoted steps rest
      return (part :: parts, rest)
    | c :: rest =>
      if c = '\x60' then none
      else do
        let (parts, rest) ← readQuoted steps rest
        return (.literal [c] true :: parts, rest)

/-- A word, and what follows it. -/
def readWord (steps : Nat) (input : Text) : Option (Word × Text) :=
  match steps with
  | 0 => none
  | steps + 1 =>
    match input with
    | [] => some ([], [])
    | '\'' :: rest =>
      match rest.dropWhile (· ≠ '\'') with
      | _ :: after => do
        let (parts, remainder) ← readWord steps after
        return (.literal (rest.takeWhile (· ≠ '\'')) true :: parts, remainder)
      | [] => none
    | '"' :: rest => do
      let (inner, rest) ← readQuoted (rest.length + 1) rest
      let (parts, rest) ← readWord steps rest
      return (inner ++ parts, rest)
    | '\\' :: '\n' :: rest => readWord steps rest
    | '\\' :: c :: rest => do
      let (parts, rest) ← readWord steps rest
      return (.literal [c] true :: parts, rest)
    | '$' :: rest => do
      let (part, rest) ← readExpansion false rest
      let (parts, rest) ← readWord steps rest
      return (part :: parts, rest)
    | c :: rest =>
      if isDelimiter c then some ([], input)
      else if c = '\x60' then none
      else if isPlain c then do
        let (parts, remainder) ← readWord steps (rest.dropWhile isPlain)
        return (.literal (c :: rest.takeWhile isPlain) false :: parts, remainder)
      else some ([.literal [c] false], rest)

/-- The operator at the beginning of the input, and what follows it. -/
def readOperator? : Text → Option (Token × Text)
  | '\n' :: rest => some (.newline, rest)
  | ';' :: rest => some (.semicolon, rest)
  | '&' :: '&' :: rest => some (.andThen, rest)
  | '|' :: '|' :: rest => some (.orElse, rest)
  | '>' :: '>' :: rest => some (.redirect 1 .append, rest)
  | '>' :: '&' :: rest => some (.redirect 1 .duplicate, rest)
  | '>' :: '|' :: rest => some (.redirect 1 .write, rest)
  | '>' :: rest => some (.redirect 1 .write, rest)
  | '<' :: rest => some (.redirect 0 .read, rest)
  | c :: rest => if isDelimiter c then some (.unsupported, rest) else none
  | [] => none

/-- The redirection of a numbered descriptor, and what follows its operator. -/
def readNumbered? : Text → Option (Token × Text)
  | c :: rest =>
    if c.isDigit then
      match readOperator? rest with
      | some (.redirect _ direction, rest) => some (.redirect (c.toNat - '0'.toNat) direction, rest)
      | _ => none
    else none
  | [] => none

/-- The tokens of a script, up to the first place that is none. -/
def readTokens (steps : Nat) (input : Text) : List Token :=
  match steps with
  | 0 => []
  | steps + 1 =>
    match input.dropWhile Text.isIndent with
    | [] => []
    | '#' :: rest => readTokens steps (rest.dropWhile (· ≠ '\n'))
    | '\\' :: '\n' :: rest => readTokens steps rest
    | input =>
      match (readNumbered? input).or (readOperator? input) with
      | some (token, rest) => token :: readTokens steps rest
      | none =>
        match readWord (input.length + 1) input with
        | some (word, rest) => .word word :: readTokens steps rest
        | none => [.unsupported]

/-- The tokens of each line, a newline after `&&` or `||` ending none. -/
def splitTokens : List Token → List (List Token)
  | [] => [[]]
  | .newline :: rest => [] :: splitTokens rest
  | .andThen :: .newline :: rest => splitTokens (.andThen :: rest)
  | .orElse :: .newline :: rest => splitTokens (.orElse :: rest)
  | token :: rest =>
    match splitTokens rest with
    | [] => [[token]]
    | line :: more => (token :: line) :: more
termination_by tokens => tokens.length

/-- Whether a command has nothing in it. -/
def Command.isEmpty (command : Command) : Bool :=
  command.words.isEmpty && command.redirections.isEmpty

/-- Read the commands of a line, the first of which is run under `condition`. -/
def readCommands (condition : Condition) (command : Command) :
    List Token → Option CommandLine
  | [] =>
    if command.isEmpty then if condition = .always then some [] else none
    else some [(condition, command)]
  | .word word :: rest =>
    readCommands condition { command with words := command.words ++ [word] } rest
  | .redirect descriptor direction :: .word target :: rest =>
    readCommands condition
      { command with
        redirections := command.redirections ++ [⟨descriptor, direction, target⟩] } rest
  | .semicolon :: rest => next .always rest
  | .andThen :: rest => next .succeeded rest
  | .orElse :: rest => next .failed rest
  | _ => none
where
  /-- Go on to the next command once this one is there. -/
  next (following : Condition) (rest : List Token) : Option CommandLine :=
    if command.isEmpty then none
    else (readCommands following {} rest).map ((condition, command) :: ·)

/-- The lines of a script; a line that cannot be read is nothing. -/
def readScript (script : Text) : List (Option CommandLine) :=
  (splitTokens (readTokens (script.length + 1) script)).map (readCommands .always {})

end LiterateMarkdown.Shell
