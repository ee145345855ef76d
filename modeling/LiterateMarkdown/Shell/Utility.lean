import LiterateMarkdown.Files.Tree
import LiterateMarkdown.Shell.Arithmetic

/-!
# Utilities

The programs that scripts start besides the shell itself. A utility is given its arguments, its
input and the files; it answers with the files it leaves, what it prints and its exit status. What
it says about errors is not kept.
-/

namespace LiterateMarkdown.Shell

/-- What a utility leaves behind. -/
structure Reply where
  files : FileTree
  output : Bytes := []
  status : Nat := 0

/-- A program that acts on files. -/
abbrev Utility := (arguments : List Text) → (input : Bytes) → FileTree → Reply

namespace Utility

/-- Print a text. -/
def printing (files : FileTree) (text : Text) : Reply :=
  { files, output := Utf8.encode text }

/-- Fail. -/
def failing (files : FileTree) (status : Nat) : Reply :=
  { files, status }

/-- Whether an argument gives options. -/
def isOption : Text → Bool
  | '-' :: _ :: _ => true
  | _ => false

/-- The options at the beginning of the arguments, letter by letter, and the operands after them. -/
def splitOptions : List Text → Text × List Text
  | [] => ([], [])
  | argument :: rest =>
    if argument = "--".toList then ([], rest)
    else if isOption argument then
      let (letters, operands) := splitOptions rest
      (argument.tail ++ letters, operands)
    else ([], argument :: rest)

/-- Do something for each operand in turn, failing if it fails for one of them. -/
def forEach (files : FileTree) (operands : List Text)
    (act : FileTree → Text → FileTree × Bool) : Reply :=
  operands.foldl (fun reply operand =>
    let (files, ok) := act reply.files operand
    { reply with files, status := if ok then reply.status else 1 }) { files }

/-- A result with its files, or the files as they were. -/
def attempt (files : FileTree) (result : Except FileError FileTree) : FileTree × Bool :=
  match result with
  | .ok files => (files, true)
  | .error _ => (files, false)

/-- The last named segment of a path. -/
def baseName (path : Path) : Text :=
  match (Path.segments path).filter (· ≠ []) with
  | [] => if path = [] then [] else ['/']
  | segments => segments.getLast?.getD []

/-- The path without its last named segment. -/
def directoryName (path : Path) : Path :=
  match (Path.segments path).reverse.dropWhile (· = []) with
  | [] => if path = [] then Path.here else ['/']
  | _ :: rest =>
    match (rest.dropWhile (· = [])).reverse with
    | [] => if Path.isAbsolute path then ['/'] else Path.here
    | segments => Text.join ['/'] segments

/-- The file name without `ending`, unless it is all of it. -/
def dropEnding (name ending : Text) : Text :=
  if name ≠ ending ∧ ending.reverse.isPrefixOf name.reverse then
    name.take (name.length - ending.length)
  else name

/-- Print the last segment of a path. -/
def basename : Utility := fun arguments _ files =>
  match arguments with
  | [path] => printing files (baseName path ++ ['\n'])
  | [path, ending] => printing files (dropEnding (baseName path) ending ++ ['\n'])
  | _ => failing files 1

/-- Print the directory of each path. -/
def dirname : Utility := fun arguments _ files =>
  if arguments = [] then failing files 1
  else printing files (arguments.flatMap fun path => directoryName path ++ ['\n'])

/-- Print the content of files one after the other, or the input. -/
def cat : Utility := fun arguments input files =>
  let operands := if arguments = [] then [['-']] else arguments
  operands.foldl (fun reply path =>
    if path = ['-'] then { reply with output := reply.output ++ input }
    else
      match files.readBytes path with
      | .ok content => { reply with output := reply.output ++ content }
      | .error _ => { reply with status := 1 }) { files }

/-- The path under which a file goes to a target, which may be a directory. -/
def targetPath (files : FileTree) (source target : Path) : Path :=
  if files.isDirectory target then Path.append target (baseName source) else target

/-- Copy a file. -/
def copyFile (files : FileTree) (source target : Path) : Except FileError FileTree := do
  let content ← files.readBytes source
  files.writeBytes (targetPath files source target) content

/-- Move a file. -/
def moveFile (files : FileTree) (source target : Path) : Except FileError FileTree := do
  let location ← files.locate source
  let copied ← copyFile files source target
  return copied.remove location

/-- The sources and the target of a copy or a move. -/
def sourcesAndTarget? (files : FileTree) (arguments : List Text) : Option (List Path × Path) :=
  match arguments with
  | ['-', 't'] :: target :: operands => some ((splitOptions operands).2, target)
  | _ =>
    match (splitOptions arguments).2.reverse with
    | target :: source :: rest =>
      if rest ≠ [] ∧ !files.isDirectory target then none
      else some ((source :: rest).reverse, target)
    | _ => none

/-- Bring files to a target by copying or moving them. -/
def transfer (act : FileTree → Path → Path → Except FileError FileTree) : Utility :=
  fun arguments _ files =>
    match sourcesAndTarget? files arguments with
    | some (sources, target) =>
      forEach files sources fun files source => attempt files (act files source target)
    | none => failing files 1

/-- Remove files, and with the option `r` directories. -/
def rm : Utility := fun arguments _ files =>
  let (options, operands) := splitOptions arguments
  forEach files operands fun files path =>
    match files.locate path with
    | .ok location =>
      if files.isDirectoryAt location && !options.contains 'r' then (files, false)
      else (files.remove location, true)
    | .error _ => (files, options.contains 'f')

/-- Make directories, with the option `p` also those above them. -/
def mkdir : Utility := fun arguments _ files =>
  let (options, operands) := splitOptions arguments
  forEach files operands fun files path =>
    if options.contains 'p' then
      let (files, result) := files.makeDirectories path
      (files, result matches .ok ())
    else if files.pathExists path || !(files.isDirectory (directoryName path)) then (files, false)
    else
      let (files, result) := files.makeDirectories path
      (files, result matches .ok ())

/-- Create files that are missing. -/
def touch : Utility := fun arguments _ files =>
  forEach files (splitOptions arguments).2 fun files path =>
    if files.pathExists path then (files, true) else attempt files (files.writeBytes path [])

/-- The names in a directory, in order. -/
def namesIn (files : FileTree) (location : Location) : List Text :=
  (files.nodes.filterMap fun entry =>
    if entry.1.length = location.length + 1 ∧ location.isPrefixOf entry.1 then entry.1.getLast?
    else none).mergeSort Text.isUpTo

/-- List the names in directories. -/
def ls : Utility := fun arguments _ files =>
  let (options, operands) := splitOptions arguments
  let operands := if operands = [] then [Path.here] else operands
  operands.foldl (fun reply path =>
    match files.locate path with
    | .error _ => { reply with status := 2 }
    | .ok location =>
      let names :=
        if files.isDirectoryAt location then
          (namesIn files location).filter fun name => options.contains 'a' || name.head? ≠ some '.'
        else [path]
      { reply with
        output := reply.output ++ Utf8.encode (names.flatMap fun name => name ++ ['\n']) })
    { files }

/-- The character of an escape of one letter. -/
def escapedChar? (c : Char) : Option Char :=
  if c = 'a' then some '\x07'
  else if c = 'b' then some '\x08'
  else if c = 'f' then some '\x0c'
  else if c = 'n' then some '\n'
  else if c = 'r' then some '\r'
  else if c = 't' then some '\t'
  else if c = 'v' then some '\x0b'
  else if c = '\\' then some '\\'
  else none

/-- Resolve escapes, and whether `\c` ended the text early. -/
def resolveEscapes : Text → Text × Bool
  | [] => ([], false)
  | '\\' :: c :: rest =>
    if c = 'c' then ([], true)
    else
      let (later, ended) := resolveEscapes rest
      match escapedChar? c with
      | some escaped => (escaped :: later, ended)
      | none => ('\\' :: c :: later, ended)
  | c :: rest =>
    let (later, ended) := resolveEscapes rest
    (c :: later, ended)

/-- Print the arguments as they are. -/
def plainEcho : Utility := fun arguments _ files =>
  match arguments with
  | ['-', 'n'] :: rest => printing files (Text.join [' '] rest)
  | _ => printing files (Text.join [' '] arguments ++ ['\n'])

/-- Print the arguments with their escapes resolved. -/
def shellEcho : Utility := fun arguments _ files =>
  let (operands, ending) : List Text × Text :=
    match arguments with
    | ['-', 'n'] :: rest => (rest, [])
    | _ => (arguments, ['\n'])
  let (text, ended) := resolveEscapes (Text.join [' '] operands)
  printing files (text ++ if ended then [] else ending)

/-- A format with its directives filled from the arguments, and the arguments that are left. -/
def fillFormat : Text → List Text → Text × List Text
  | [], arguments => ([], arguments)
  | '%' :: c :: rest, arguments =>
    if c = '%' then
      let (later, arguments) := fillFormat rest arguments
      ('%' :: later, arguments)
    else
      let argument := arguments.head?.getD (if c = 'd' ∨ c = 'i' then ['0'] else [])
      let shown := if c = 'b' then (resolveEscapes argument).1 else argument
      let (later, arguments) := fillFormat rest arguments.tail
      (shown ++ later, arguments)
  | '\\' :: c :: rest, arguments =>
    let (later, arguments) := fillFormat rest arguments
    match escapedChar? c with
    | some escaped => (escaped :: later, arguments)
    | none => ('\\' :: c :: later, arguments)
  | c :: rest, arguments =>
    let (later, arguments) := fillFormat rest arguments
    (c :: later, arguments)

/-- A format filled again and again until no argument is left. -/
def fillRepeatedly (format : Text) : Nat → List Text → Text
  | 0, _ => []
  | steps + 1, arguments =>
    let (text, left) := fillFormat format arguments
    if left = [] ∨ left.length = arguments.length then text
    else text ++ fillRepeatedly format steps left

/-- Print arguments under a format. -/
def printf : Utility := fun arguments _ files =>
  match arguments with
  | [] => failing files 2
  | format :: operands => printing files (fillRepeatedly format (operands.length + 1) operands)

/-- Compare two integers. -/
def compareIntegers (operator : Text) (left right : Int) : Option Bool :=
  if operator = "-eq".toList then some (left = right)
  else if operator = "-ne".toList then some (left ≠ right)
  else if operator = "-lt".toList then some (left < right)
  else if operator = "-le".toList then some (left ≤ right)
  else if operator = "-gt".toList then some (left > right)
  else if operator = "-ge".toList then some (left ≥ right)
  else none

/-- The answer to a condition on one operand, if it is one. -/
def unaryCondition? (files : FileTree) (operator operand : Text) : Option Bool :=
  if operator = "-e".toList then some (files.pathExists operand)
  else if operator = "-d".toList then some (files.isDirectory operand)
  else if operator = "-f".toList then
    some (files.pathExists operand && !files.isDirectory operand)
  else if operator = "-s".toList then
    some (match files.readBytes operand with
      | .ok content => content ≠ []
      | .error _ => files.isDirectory operand)
  else if operator = "-z".toList then some (operand = [])
  else if operator = "-n".toList then some (operand ≠ [])
  else none

/-- The answer to a comparison, if it is one. -/
def binaryCondition? (left operator right : Text) : Option Bool :=
  if operator = ['='] then some (left = right)
  else if operator = "!=".toList then some (left ≠ right)
  else do compareIntegers operator (← Arithmetic.integer? left) (← Arithmetic.integer? right)

/-- The answer to a condition, if it is one. -/
def condition? (files : FileTree) : List Text → Option Bool
  | [] => some false
  | [word] => some (word ≠ [])
  | [operator, operand] =>
    if operator = ['!'] then some (operand = []) else unaryCondition? files operator operand
  | [first, second, third] =>
    (binaryCondition? first second third).or
      (if first = ['!'] then (unaryCondition? files second third).map (!·) else none)
  | [negation, left, operator, right] =>
    if negation = ['!'] then (binaryCondition? left operator right).map (!·) else none
  | _ => none

/-- Test a condition. -/
def test : Utility := fun arguments _ files =>
  match condition? files arguments with
  | some answer => failing files (if answer then 0 else 1)
  | none => failing files 2

/-- Test a condition in brackets. -/
def bracket : Utility := fun arguments input files =>
  if arguments.getLast? = some [']'] then test arguments.dropLast input files
  else failing files 2

/-- Print the working directory. -/
def pwd : Utility := fun _ _ files =>
  printing files ((files.workingDirectory.flatMap ('/' :: ·)) ++ ['\n'])

/-- The utilities that exist as programs. -/
def programs : List (Text × Utility) :=
  [ ("true".toList, fun _ _ files => { files }),
    ("false".toList, fun _ _ files => failing files 1),
    ("sleep".toList, fun _ _ files => { files }),
    ("echo".toList, plainEcho), ("printf".toList, printf), ("cat".toList, cat),
    ("cp".toList, transfer copyFile), ("mv".toList, transfer moveFile), ("rm".toList, rm),
    ("mkdir".toList, mkdir), ("touch".toList, touch), ("ls".toList, ls),
    ("basename".toList, basename), ("dirname".toList, dirname), ("pwd".toList, pwd),
    ("test".toList, test), ("[".toList, bracket) ]

/-- The program of a name, which may be the path of an installed program. -/
def find? (name : Text) : Option Utility :=
  programs.lookup name

/-- The utilities of the shell itself, which go before programs of the same name. -/
def builtins : List (Text × Utility) :=
  [ (":".toList, fun _ _ files => { files }), ("echo".toList, shellEcho) ]

end Utility

end LiterateMarkdown.Shell
