import LiterateMarkdown.Files.Path
import LiterateMarkdown.Unicode.Alphabetic

/-!
# Path expansion

A path in a configuration may begin with a tilde, which stands for the home directory, and may
mention variables of the environment, each with a value to use when it is not set. A path that
mentions a variable without any value stays as it is.
-/

namespace LiterateMarkdown

/-- What the program is told when it is started. -/
structure Environment where
  bindings : List (Text × Text) := []
  /-- The home directory that the system keeps for the user, when no variable names one. -/
  accountHome : Path := "/root".toList
  deriving DecidableEq, Repr

namespace Environment

/-- The value of a variable. -/
def value? (environment : Environment) (name : Text) : Option Text :=
  List.lookup name environment.bindings

/-- The home directory of the user. -/
def home (environment : Environment) : Path :=
  match environment.value? "HOME".toList with
  | none | some [] => environment.accountHome
  | some home => home

end Environment

namespace Path

/-- The path with the home directory in place of a tilde that is its first segment. -/
def expandTilde (environment : Environment) : Path → Path
  | ['~'] => environment.home
  | '~' :: '/' :: rest => environment.home ++ '/' :: rest
  | path => path

/-- The parts of a text before and after the first occurrence of a colon and a dash. -/
def splitAtDefault? : Text → Option (Text × Text)
  | ':' :: '-' :: rest => some ([], rest)
  | c :: rest => (splitAtDefault? rest).map fun (before, after) => (c :: before, after)
  | [] => none

/-- The value of what stands in braces: a name, or a name and a value to use when it is not set. -/
def bracedValue? (environment : Environment) (content : Text) : Option Text :=
  match splitAtDefault? content with
  | none | some ([], _) => environment.value? content
  | some (name, default) => some ((environment.value? name).getD default)

/-- Whether a character may stand in the name of a variable without braces. -/
def isNameChar (c : Char) : Bool :=
  Unicode.isAlphanumeric c || c = '_'

/-- The text with the values of the variables it mentions, if they all have one. -/
def expandVariables? (environment : Environment) (text : Text) : Option Text :=
  match text with
  | [] => some []
  | '$' :: '\x7b' :: rest =>
    let content := rest.takeWhile (· ≠ '\x7d')
    if content.length = rest.length then
      (expandVariables? environment rest).map (['$', '\x7b'] ++ ·)
    else do
      let value ← bracedValue? environment content
      return value ++ (← expandVariables? environment (rest.drop (content.length + 1)))
  | '$' :: '$' :: rest => (expandVariables? environment rest).map ('$' :: ·)
  | '$' :: rest =>
    let name := rest.takeWhile isNameChar
    if name = [] then (expandVariables? environment rest).map ('$' :: ·)
    else do
      let value ← environment.value? name
      return value ++ (← expandVariables? environment (rest.drop name.length))
  | c :: rest => (expandVariables? environment rest).map (c :: ·)
termination_by text.length
decreasing_by all_goals simp only [List.length_drop, List.length_cons]; omega

/--
The path that is meant by a path in a configuration. A tilde that comes from the value of a variable
stands for itself.
-/
def expand (environment : Environment) (path : Path) : Path :=
  match expandVariables? environment path with
  | none => path
  | some expanded =>
    if path.head? ≠ some '~' ∧ expanded.head? = some '~' then expanded
    else expandTilde environment expanded

end Path

end LiterateMarkdown
