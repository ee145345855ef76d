import LiterateMarkdown.Text.Basic

/-!
# Build runners

A page may hold build scripts. A runner is what executes them. It acts on some world of its own, and
a page's text never depends on what a runner answers: scripts are run detached, for their effect on
the world alone.
-/

namespace LiterateMarkdown

/-- How a child program ended. -/
structure ExitStatus where
  code : Nat
  deriving DecidableEq, Repr

/-- Whether the program reports success. -/
def ExitStatus.success (status : ExitStatus) : Bool :=
  status.code = 0

/-- Why a build script was not run. -/
inductive BuildError where
  /-- The command to run is empty. -/
  | emptyCommand
  /-- The script could not be written to the scratch directory. -/
  | stage
  /-- The program could not be started. -/
  | spawn (program : Text)
  /-- The runner gave up for a reason of its own. -/
  | refused
  deriving DecidableEq, Repr

/-- Something that executes build scripts in a world. -/
structure BuildRunner (World : Type) where
  /--
  The world after a script, and how the script ended. There is no exit status when the runner ran
  nothing.
  -/
  run : World → Text → World × Except BuildError (Option ExitStatus)

namespace BuildRunner

variable {World : Type}

/-- The world after a script, whatever became of it. -/
def runDetached (runner : BuildRunner World) (world : World) (script : Text) : World :=
  (runner.run world script).1

/-- The runner that runs nothing. -/
def idle : BuildRunner World where
  run world _ := (world, .ok none)

/-- A runner that also notes each script that it is given, in order. -/
def noting (runner : BuildRunner World) : BuildRunner (List Text × World) where
  run noted script :=
    let (world, outcome) := runner.run noted.2 script
    ((noted.1 ++ [script], world), outcome)

@[simp]
theorem runDetached_idle (world : World) (script : Text) : idle.runDetached world script = world :=
  rfl

@[simp]
theorem runDetached_noting (runner : BuildRunner World) (scripts : List Text) (world : World)
    (script : Text) :
    runner.noting.runDetached (scripts, world) script =
      (scripts ++ [script], runner.runDetached world script) :=
  rfl

end BuildRunner

end LiterateMarkdown
