import LiterateMarkdown.Build.System

/-!
# Build tools

A build tool runs a script by writing it to a fresh scratch directory and starting a program on it.
The scratch directory lives as long as the program runs and is removed however it ends.
-/

namespace LiterateMarkdown

/-- A program that runs build scripts. -/
structure BuildTool where
  /-- The program and its first arguments. -/
  command : List Text
  scriptName : Text
  /-- The directory in which the program is started. -/
  workingDirectory : Path
  deriving DecidableEq, Repr

namespace BuildTool

/-- The path of a location. -/
def pathOf (location : Location) : Path :=
  location.flatMap ('/' :: ·)

/-- The script with a newline at its end. -/
def scriptContent (script : Text) : Text :=
  if script.getLast? = some '\n' then script else script ++ ['\n']

/-- Write a script to the scratch directory and start the program on it. -/
def runIn (tool : BuildTool) (programs : Programs) (program : Text) (arguments : List Text)
    (scratch : Location) (script : Text) (system : System) :
    System × Except BuildError (Option ExitStatus) :=
  let path := Path.append (pathOf scratch) tool.scriptName
  match system.files.writeText path (scriptContent script) with
  | .error _ => (system, .error .stage)
  | .ok files =>
    let staged := { system with files }
    match programs.startIn tool.workingDirectory program (arguments ++ [path]) staged with
    | none => (staged, .error (.spawn program))
    | some (after, status) => (after, .ok (some status))

/-- Run a script, removing the scratch directory whatever became of it. -/
def run (tool : BuildTool) (programs : Programs) (system : System) (script : Text) :
    System × Except BuildError (Option ExitStatus) :=
  match tool.command with
  | [] => (system, .error .emptyCommand)
  | program :: arguments =>
    match programs.scratch? system.files with
    | none => (system, .error .stage)
    | some scratch =>
      let prepared := { system with files := system.files.put scratch .directory }
      let (after, outcome) := tool.runIn programs program arguments scratch script prepared
      ({ after with files := after.files.remove scratch }, outcome)

/-- The runner that hands scripts to the tool. -/
def runner (tool : BuildTool) (programs : Programs) : BuildRunner System where
  run := tool.run programs

end BuildTool

end LiterateMarkdown
