import LiterateMarkdown.Text.Basic

/-!
# Recorded sessions

A session is a list of commands that were fed to an interpreter, with the output that each of them
gave. Its output file stands beside the session file and is the only one that is read.
-/

namespace LiterateMarkdown

/-- Why the output of a session cannot be read. -/
inductive SessionError where
  /-- The file cannot be opened. -/
  | openFile (path : Text)
  /-- The file does not hold a recorded session. -/
  | malformed
  deriving DecidableEq, Repr

/-- The wording of a session error, up to what the system or the format adds. -/
def SessionError.message : SessionError → Text
  | openFile path => "cannot open session output ".toList ++ path
  | malformed => "malformed session output".toList

/-- How the interpreter of a session is run, and how it prompts. -/
structure Interpreter where
  command : Option Text := none
  firstPrompt : Option Text := none
  changePrompt : Option Text := none
  prompt : Option Text := none
  continuationPrompt : Option Text := none
  deriving DecidableEq, Repr

/-- The type of output that is shown as it is. -/
def plainText : Text :=
  "text/plain".toList

/-- One command of a session. -/
structure SessionCommand where
  command : Text
  outputType : Text := plainText
  output : Option Text := none
  expected : Option Text := none
  deriving DecidableEq, Repr

namespace SessionCommand

/-- The output, unless it is missing or empty. -/
def shownOutput? (command : SessionCommand) : Option Text :=
  command.output.filter (· ≠ [])

/-- Whether the output is plain text. -/
def isPlainText (command : SessionCommand) : Bool :=
  command.outputType = plainText

end SessionCommand

/-- A recorded session. -/
structure Session where
  interpreter : Option Interpreter := none
  commands : List SessionCommand
  deriving DecidableEq, Repr

end LiterateMarkdown
