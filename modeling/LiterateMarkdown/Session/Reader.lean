import LiterateMarkdown.Files.Tree
import LiterateMarkdown.Json.Reader
import LiterateMarkdown.Session.Basic

/-!
# Reading recorded sessions

A session is written as a JSON record with the fields `config` and `commands`. Records are objects
or arrays of their fields; fields of other names are passed over, and a field given twice is an
error.
-/

namespace LiterateMarkdown

namespace Interpreter

/-- The fields of an interpreter. -/
def fieldNames : List Text :=
  ["command".toList, "first_prompt".toList, "change_prompt".toList, "prompt".toList,
    "continuation_prompt".toList]

/-- Read an interpreter, all of whose fields may be missing. -/
def ofJson? (value : JsonValue) : Option Interpreter := do
  match ← (← value.fields? fieldNames).mapM (JsonValue.optional? JsonValue.text?) with
  | [command, firstPrompt, changePrompt, prompt, continuationPrompt] =>
    some ⟨command, firstPrompt, changePrompt, prompt, continuationPrompt⟩
  | _ => none

end Interpreter

namespace SessionCommand

/-- The fields of a command. -/
def fieldNames : List Text :=
  ["command".toList, "output_type".toList, "output".toList, "expected".toList]

/-- Read a command, of which all but its text may be missing. -/
def ofJson? (value : JsonValue) : Option SessionCommand := do
  match ← value.fields? fieldNames with
  | [some command, outputType, output, expected] =>
    return {
      command := ← command.text?
      outputType := ← JsonValue.withDefault? plainText JsonValue.text? outputType
      output := ← JsonValue.optional? JsonValue.text? output
      expected := ← JsonValue.optional? JsonValue.text? expected }
  | _ => none

end SessionCommand

namespace Session

/-- The fields of a session. -/
def fieldNames : List Text :=
  ["config".toList, "commands".toList]

/-- Read a session, of which only the commands are required. -/
def ofJson? (value : JsonValue) : Option Session := do
  match ← value.fields? fieldNames with
  | [interpreter, some commands] =>
    return {
      interpreter := ← JsonValue.optional? Interpreter.ofJson? interpreter
      commands := ← JsonValue.items? SessionCommand.ofJson? commands }
  | _ => none

/-- Read the content of a session's output file. -/
def ofBytes (content : Bytes) : Except SessionError Session :=
  match (JsonValue.ofSymbols? (Utf8.symbols content)).bind ofJson? with
  | some session => .ok session
  | none => .error .malformed

/-- Read a session's output file. A directory can be opened but holds no session. -/
def load (files : FileTree) (path : Path) : Except SessionError Session :=
  match files.readBytes path with
  | .ok content => ofBytes content
  | .error .isADirectory => .error .malformed
  | .error _ => .error (.openFile path)

/-- The output file of a session: the session file with `suffix` in place of its extension. -/
def outputPath (path : Path) (suffix : Text) : Path :=
  Path.withFileName path (Path.fileStem path ++ suffix)

end Session

end LiterateMarkdown
