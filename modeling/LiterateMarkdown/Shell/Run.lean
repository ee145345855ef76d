import LiterateMarkdown.Build.System
import LiterateMarkdown.Shell.Utility

/-!
# Running shell scripts

A script is run command by command in a system of files. Scripts may start the shell again, to a
fixed depth. `Shell.programs` is the shell and the utilities as programs that can be started.
-/

namespace LiterateMarkdown.Shell

/-- The state of a running shell. -/
structure State where
  system : System
  /-- The name of the script, and its arguments after it. -/
  parameters : List Text
  bindings : List (Text × Text) := []
  /-- The exit status of the last command. -/
  status : Nat := 0
  stopOnFailure : Bool := false
  exited : Bool := false

/-- How the shell runs a script in a state. -/
abbrev ScriptRunner := State → Text → State

/-- Where what a command prints goes. -/
inductive Sink where
  | printed
  | discarded
  | file (location : Location)

/-- The input of a command and the sinks of its output and its error messages. -/
structure Streams where
  input : Bytes := []
  output : Sink := .printed
  errors : Sink := .discarded

namespace State

/-- The value of a parameter, nothing if it is not set. -/
def valueOf (state : State) (name : Text) : Text :=
  if name ≠ [] ∧ name.all Char.isDigit then
    (state.parameters[Arithmetic.decimal name]?).getD []
  else if name = ['#'] then Text.ofNat (state.parameters.length - 1)
  else if name = ['?'] then Text.ofNat state.status
  else if name = ['@'] ∨ name = ['*'] then Text.join [' '] state.parameters.tail
  else (state.bindings.lookup name).getD []

/-- Give a variable a value. -/
def assign (state : State) (name value : Text) : State :=
  { state with bindings := (name, value) :: state.bindings }

/-- Leave the shell with an exit status. -/
def exit (state : State) (status : Nat) : State :=
  { state with status := status % 256, exited := true }

/-- The state with an exit status. -/
def withStatus (state : State) (status : Nat) : State :=
  { state with status }

/-- What a script prints, and the system after it. -/
def capture (state : State) (runScript : ScriptRunner) (script : Text) :
    State × Bytes :=
  let before := state.system
  let after := runScript { state with system := { before with printed := [] } } script
  (after, after.system.printed)

end State

/-- The fields made of the parts of a word so far, the last one being open. -/
structure Fields where
  complete : List Text := []
  open? : Option Text := none

namespace Fields

/-- Add text to the open field. -/
def add (fields : Fields) (text : Text) : Fields :=
  { fields with open? := some (fields.open?.getD [] ++ text) }

/-- End the open field. -/
def close (fields : Fields) : Fields :=
  { complete := fields.complete ++ fields.open?.toList }

/-- Add a value, its blanks dividing fields. -/
def addSplit (fields : Fields) (value : Text) : Fields :=
  value.foldl (fun fields c =>
    if c = ' ' ∨ c = '\t' ∨ c = '\n' then fields.close else fields.add [c]) fields

/-- Add a value, which is divided unless it is quoted. -/
def addValue (fields : Fields) (value : Text) (quoted : Bool) : Fields :=
  if quoted then fields.add value else fields.addSplit value

end Fields

/-- The text without the newlines at its end. -/
def dropFinalNewlines (text : Text) : Text :=
  (text.reverse.dropWhile (· = '\n')).reverse

/-- Add the value of one part of a word; nothing if it has none. -/
def expandPart (runScript : ScriptRunner) (state : State) (fields : Fields) :
    WordPart → Option (State × Fields)
  | .literal text _ => some (state, fields.add text)
  | .parameter name quoted => some (state, fields.addValue (state.valueOf name) quoted)
  | .arithmetic expression quoted =>
    (Arithmetic.evaluate state.valueOf expression).map fun value =>
      (state, fields.addValue (Arithmetic.ofInt value) quoted)
  | .substitution script quoted =>
    let (after, printed) := state.capture runScript script
    let value := dropFinalNewlines ((Utf8.decode? printed).getD [])
    some ({ state with
      system := { files := after.system.files, printed := state.system.printed },
      status := after.status }, fields.addValue value quoted)

/-- The fields of a word. -/
def expandWord (runScript : ScriptRunner) (state : State) (word : Word) :
    Option (State × List Text) := do
  let (state, fields) ← word.foldlM (fun (state, fields) part =>
    expandPart runScript state fields part) (state, ({} : Fields))
  return (state, fields.close.complete)

/-- The fields of words, one after the other. -/
def expandWords (runScript : ScriptRunner) (state : State) (words : List Word) :
    Option (State × List Text) :=
  words.foldlM (fun (state, fields) word => do
    let (state, more) ← expandWord runScript state word
    return (state, fields ++ more)) (state, [])

/-- The file that swallows what is written to it. -/
def nullDevice : Path :=
  "/dev/null".toList

/-- Open the target of a redirection. -/
def redirect (files : FileTree) (streams : Streams) (descriptor : Nat) (direction : Direction)
    (target : Text) : Option (FileTree × Streams) :=
  let toSink (sink : Sink) : Streams :=
    if descriptor = 2 then { streams with errors := sink } else { streams with output := sink }
  match direction with
  | .read =>
    if target = nullDevice then some (files, { streams with input := [] })
    else
      match files.readBytes target with
      | .ok input => some (files, { streams with input })
      | .error _ => none
  | .duplicate =>
    if target = ['1'] then some (files, toSink streams.output)
    else if target = ['2'] then some (files, toSink streams.errors)
    else none
  | .write =>
    if target = nullDevice then some (files, toSink .discarded)
    else
      match files.destination target with
      | .ok location => some (files.put location (.file []), toSink (.file location))
      | .error _ => none
  | .append =>
    if target = nullDevice then some (files, toSink .discarded)
    else
      match files.destination target with
      | .ok location =>
        let kept := if (files.at? location).isSome then files else files.put location (.file [])
        some (kept, toSink (.file location))
      | .error _ => none

/-- Open the targets of redirections in order. -/
def openStreams (runScript : ScriptRunner) (state : State) (redirections : List Redirection) :
    Option (State × Streams) :=
  redirections.foldlM (fun (state, streams) redirection => do
    let (state, fields) ← expandWord runScript state redirection.target
    let (files, streams) ← redirect state.system.files streams redirection.descriptor
      redirection.direction (Text.join [' '] fields)
    return ({ state with system := { state.system with files } }, streams)) (state, {})

/-- Bring what a command printed to where it goes. -/
def deliver (system : System) (sink : Sink) (output : Bytes) : System :=
  match sink with
  | .printed => system.print output
  | .discarded => system
  | .file location =>
    match system.files.at? location with
    | some (.file content) =>
      { system with files := system.files.put location (.file (content ++ output)) }
    | _ => system

/-- The name and the value of an assignment. -/
def assignment? (word : Word) : Option (Text × Word) :=
  match word with
  | .literal text false :: rest =>
    match text.dropWhile isNameRest with
    | '=' :: value =>
      let name := text.takeWhile isNameRest
      if name.head?.any isNameStart then some (name, .literal value false :: rest) else none
    | _ => none
  | _ => none

/-- Options of the shell, and whether it is given a script instead of a file. -/
structure Invocation where
  stopOnFailure : Bool := false
  scriptGiven : Bool := false
  operands : List Text := []

/-- Read the arguments with which the shell is started. -/
def Invocation.ofArguments (arguments : List Text) : Invocation :=
  let (options, operands) := Utility.splitOptions arguments
  ⟨options.contains 'e', options.contains 'c', operands⟩

/-- Run the shell as a program. -/
def runShell (runScript : ScriptRunner) (arguments : List Text) (system : System) :
    System × Nat :=
  let invocation := Invocation.ofArguments arguments
  let start (parameters : List Text) (script : Text) : System × Nat :=
    let after := runScript
      { system, parameters, stopOnFailure := invocation.stopOnFailure } script
    (after.system, after.status)
  match invocation.scriptGiven, invocation.operands with
  | true, script :: parameters =>
    start (if parameters = [] then ["sh".toList] else parameters) script
  | true, [] => (system, 2)
  | false, [] => (system, 0)
  | false, path :: parameters =>
    match system.files.readText path with
    | .ok script => start (path :: parameters) script
    | .error _ => (system, 2)

/-- Run a utility with its streams. -/
def runUtility (utility : Utility) (arguments : List Text) (state : State)
    (streams : Streams) : State :=
  let reply := utility arguments streams.input state.system.files
  { state with
    system := deliver { state.system with files := reply.files } streams.output reply.output,
    status := reply.status }

/-- Change the working directory. -/
def changeDirectory (state : State) (path : Path) : State :=
  match state.system.files.inDirectory path with
  | .ok files => { state with system := { state.system with files }, status := 0 }
  | .error _ => state.withStatus 2

/-- Run a command whose words are expanded and whose streams are open. -/
def runFields (runScript : ScriptRunner) (state : State) (streams : Streams) :
    List Text → State
  | [] => state
  | name :: arguments =>
    if name = "exit".toList then
      match arguments with
      | [] => state.exit state.status
      | status :: _ =>
        if status ≠ [] ∧ status.all Char.isDigit then state.exit (Arithmetic.decimal status)
        else state.exit 2
    else if name = "cd".toList then changeDirectory state (arguments.head?.getD [])
    else if name = "set".toList then
      let options := (Utility.splitOptions arguments).1
      { state with
        stopOnFailure := state.stopOnFailure || options.contains 'e', status := 0 }
    else if name = "export".toList then state.withStatus 0
    else if name = "sh".toList then
      let directory := state.system.files.workingDirectory
      let before := state.system.printed
      let (system, status) := runShell runScript arguments { state.system with printed := [] }
      let files := { system.files with workingDirectory := directory }
      { state with
        system := deliver { files, printed := before } streams.output system.printed, status }
    else
      match (Utility.builtins.lookup name).or (Utility.find? name) with
      | some utility => runUtility utility arguments state streams
      | none => state.withStatus 127

/-- Run a command whose assignments are made. -/
def runWords (runScript : ScriptRunner) (state : State) (command : Command) : State :=
  match expandWords runScript state command.words with
  | none => state.exit 2
  | some (state, fields) =>
    match openStreams runScript state command.redirections with
    | none => state.withStatus 2
    | some (state, streams) =>
      runFields runScript (if fields = [] then state.withStatus 0 else state) streams fields

/-- Run a command, making the assignments before its words. -/
def runCommand (runScript : ScriptRunner) (state : State) (redirections : List Redirection) :
    List Word → State
  | [] => runWords runScript state ⟨[], redirections⟩
  | word :: rest =>
    match assignment? word with
    | some (name, value) =>
      match expandWord runScript state value with
      | none => state.exit 2
      | some (state, fields) =>
        runCommand runScript (state.assign name (Text.join [' '] fields)) redirections rest
    | none => runWords runScript state ⟨word :: rest, redirections⟩

/-- Whether a command is run after one with the present exit status. -/
def Condition.holds (condition : Condition) (status : Nat) : Bool :=
  match condition with
  | .always => true
  | .succeeded => status = 0
  | .failed => status ≠ 0

/-- Run the commands of a line. A failure that no condition looks at may end the shell. -/
def runCommands (runScript : ScriptRunner) (state : State) : CommandLine → State
  | [] => state
  | (condition, command) :: rest =>
    if state.exited then state
    else if !condition.holds state.status then runCommands runScript state rest
    else
      let after := runCommand runScript state command.redirections command.words
      let unchecked := rest.head?.all fun next => next.1 = .always
      if after.stopOnFailure && after.status ≠ 0 && unchecked && !after.exited then
        after.exit after.status
      else runCommands runScript after rest

/-- Run a line of a script. A line that cannot be read ends the shell. -/
def runLine (runScript : ScriptRunner) (state : State) (line : Option CommandLine) : State :=
  if state.exited then state
  else
    match line with
    | some commands => runCommands runScript state commands
    | none => state.exit 2

/-- Run a script, in which the shell is started again at most `depth` times over. -/
def runScript (depth : Nat) (state : State) (script : Text) : State :=
  match depth with
  | 0 => state.exit 2
  | depth + 1 => (readScript script).foldl (runLine (runScript depth)) state

/-- How deep scripts may start the shell. -/
def depthLimit : Nat := 64

/-- The name of a program that is started by its name or by its place among the installed ones. -/
def programName? (program : Text) : Option Text :=
  if program.contains '/' then
    (Text.after? "/bin/".toList program).or (Text.after? "/usr/bin/".toList program)
  else some program

/-- Start the shell or a utility. -/
def start (program : Text) (arguments : List Text) (system : System) :
    Option (System × ExitStatus) := do
  let name ← programName? program
  if name = "sh".toList then
    let (system, status) := runShell (runScript depthLimit) arguments system
    return (system, ⟨status⟩)
  else
    let utility ← Utility.find? name
    let reply := utility arguments [] system.files
    return ({ system with files := reply.files }.print reply.output, ⟨reply.status⟩)

/-- The names of scratch directories, one more than there are files. -/
def scratchNames (files : FileTree) : List Text :=
  (List.range (files.nodes.length + 1)).map fun number => ".tmp".toList ++ Text.ofNat number

/-- The shell and its utilities. -/
def programs : Programs where
  start := start
  scratch? files := files.firstFree? ["tmp".toList] (scratchNames files)

end LiterateMarkdown.Shell
