import LiterateMarkdown.Files.Path

/-!
# Command line arguments

What the user asks for. Options that apply to every command may stand before or after its name;
given in both places, the later one counts. An option is given at most once in one place, its value
may follow an equals sign, and one-letter options may be written together. After two dashes nothing
is an option.
-/

namespace LiterateMarkdown

/-- What the program is to do. -/
inductive Command where
  /-- Run the command that brings the pages up to date. -/
  | sync
  /-- Filter one page, to a file or to standard output. -/
  | filter (file : Path) (output : Option Path)
  /-- Filter every page of the site. -/
  | build (skipSync : Bool)
  /-- Write the default configuration. -/
  | initConfig (force : Bool)
  deriving DecidableEq, Repr

/-- What a command line asks for. -/
inductive Request where
  | run (config : Option Path) (command : Command)
  | version
  | help
  deriving DecidableEq, Repr

/-- The commands by their names. -/
inductive CommandName where
  | sync
  | filter
  | build
  | initConfig
  deriving DecidableEq, Repr

/-- The options. -/
inductive OptionName where
  | config
  | verbose
  | version
  | help
  | output
  | skipSync
  | force
  deriving DecidableEq, Repr

namespace CommandName

/-- The command with a name. -/
def ofText? (name : Text) : Option CommandName :=
  [("sync", sync), ("filter", filter), ("build", build), ("init-config", initConfig)].lookup
    (String.ofList name)

/-- The options that may follow the name of a command, or stand before it. -/
def optionsAfter : Option CommandName → List OptionName
  | none => [.config, .verbose, .help, .version]
  | some sync => [.config, .verbose, .help]
  | some filter => [.config, .verbose, .help, .output]
  | some build => [.config, .verbose, .help, .skipSync]
  | some initConfig => [.config, .verbose, .help, .force]

end CommandName

namespace OptionName

/-- The long form of an option, without its dashes. -/
def long : OptionName → String
  | config => "config"
  | verbose => "verbose"
  | version => "version"
  | help => "help"
  | output => "output"
  | skipSync => "skip-sync"
  | force => "force"

/-- The one-letter form of an option, if it has one. -/
def short? : OptionName → Option Char
  | verbose => some 'v'
  | version => some 'V'
  | help => some 'h'
  | output => some 'o'
  | config | skipSync | force => none

/-- Whether an option has a value. -/
def hasValue : OptionName → Bool
  | config | output => true
  | _ => false

end OptionName

/-- What has been read of the arguments in one place, before or after the name of the command. -/
structure ArgumentState where
  place : Option CommandName
  /-- The options given so far, with their values. -/
  given : List (OptionName × Text) := []
  files : List Text := []
  deriving Repr

/-- What the next argument does. -/
inductive ArgumentStep where
  /-- The arguments after it are read from a new state. -/
  | continue (state : ArgumentState)
  /-- The next argument is the value of this option. -/
  | awaitValue (option : OptionName) (state : ArgumentState)
  /-- It answers the whole command line. -/
  | answer (request : Request)

namespace ArgumentState

/-- The value of an option that has been given. -/
def value? (state : ArgumentState) (option : OptionName) : Option Text :=
  List.lookup option state.given

/-- Whether an option has been given. -/
def has (state : ArgumentState) (option : OptionName) : Bool :=
  (state.value? option).isSome

/-- Note an option, which must not have been given in this place, and its value. -/
def note? (state : ArgumentState) (option : OptionName) (value : Text) : Option ArgumentState :=
  if state.has option then none
  else some { state with given := state.given ++ [(option, value)] }

/-- Note an option with a value, which must not be empty. -/
def noteValue? (state : ArgumentState) (option : OptionName) (value : Text) :
    Option ArgumentState :=
  if value = [] then none else state.note? option value

/-- Take an option that has no value. -/
def takeFlag? (state : ArgumentState) : OptionName → Option ArgumentStep
  | .help => some (.answer .help)
  | .version => some (.answer .version)
  | option => (state.note? option []).map .continue

/-- Take an option in its long form, without its dashes. -/
def takeLong? (state : ArgumentState) (argument : Text) : Option ArgumentStep := do
  let name := argument.takeWhile (· ≠ '=')
  let option ← (CommandName.optionsAfter state.place).find? fun option =>
    option.long.toList = name
  match argument.drop name.length with
  | [] => if option.hasValue then return .awaitValue option state else state.takeFlag? option
  | _ :: value =>
    if option.hasValue then return .continue (← state.noteValue? option value) else none

/-- Take one-letter options that are written together, without their dash. -/
def takeShort? (state : ArgumentState) : Text → Option ArgumentStep
  | [] => some (.continue state)
  | letter :: rest => do
    let option ← (CommandName.optionsAfter state.place).find? fun option =>
      option.short? = some letter
    if option.hasValue then
      match rest with
      | [] => return .awaitValue option state
      | '=' :: value => return .continue (← state.noteValue? option value)
      | value => return .continue (← state.noteValue? option value)
    else
      match ← state.takeFlag? option with
      | .continue state => state.takeShort? rest
      | step => return step

/-- Take an argument that is no option: the page to filter. -/
def takeFile? (state : ArgumentState) (argument : Text) : Option ArgumentState :=
  if state.place = some .filter ∧ state.files = [] ∧ argument ≠ [] then
    some { state with files := [argument] }
  else none

/-- The command that has been read. -/
def command? (state : ArgumentState) : Option Command :=
  match state.place with
  | none => none
  | some .sync => some .sync
  | some .filter => state.files.head?.map fun file => .filter file (state.value? .output)
  | some .build => some (.build (state.has .skipSync))
  | some .initConfig => some (.initConfig (state.has .force))

end ArgumentState

/-- Whether an argument is written as an option. -/
def isOptionArgument : Text → Bool
  | '-' :: _ :: _ => true
  | _ => false

/-- What is asked for by the arguments from some point on; nothing if they are not understood. -/
def Request.ofArguments? (config : Option Path) (state : ArgumentState) :
    List Text → Option Request
  | [] => do return .run ((state.value? .config).or config) (← state.command?)
  | argument :: rest =>
    if argument = ['-', '-'] then do
      let state ← rest.foldlM ArgumentState.takeFile? state
      return .run ((state.value? .config).or config) (← state.command?)
    else
      match Text.after? ['-', '-'] argument, argument with
      | some long, _ => do after (← state.takeLong? long) rest
      | none, '-' :: c :: short => do after (← state.takeShort? (c :: short)) rest
      | none, _ =>
        match state.place, CommandName.ofText? argument with
        | none, some name => ofArguments? (state.value? .config) ⟨some name, [], []⟩ rest
        | none, none => if argument = "help".toList then helpOn rest else none
        | some _, _ => do ofArguments? config (← state.takeFile? argument) rest
where
  /-- Go on after an argument. -/
  after (step : ArgumentStep) (rest : List Text) : Option Request :=
    match step, rest with
    | .answer request, _ => some request
    | .continue state, rest => ofArguments? config state rest
    | .awaitValue option state, value :: rest =>
      if isOptionArgument value then none
      else do ofArguments? config (← state.noteValue? option value) rest
    | .awaitValue _ _, [] => none
  /-- Help on a command, or on all of them. -/
  helpOn (rest : List Text) : Option Request :=
    match rest with
    | [] => some .help
    | [name] =>
      if (CommandName.ofText? name).isSome ∨ name = "help".toList then some .help else none
    | _ => none

/-- What a command line asks for; nothing if it is not understood. -/
def Request.ofCommandLine? (arguments : List Text) : Option Request :=
  Request.ofArguments? none ⟨none, [], []⟩ arguments

end LiterateMarkdown
