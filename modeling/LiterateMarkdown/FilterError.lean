import LiterateMarkdown.Document.Block
import LiterateMarkdown.Property.Parser
import LiterateMarkdown.Session.Basic

/-!
# Errors of page filters

Every reason for which a page cannot be filtered, with its wording.
-/

namespace LiterateMarkdown

/-- Why a page cannot be filtered. -/
inductive FilterError where
  /-- The fence on a line carries text that is not a property list. -/
  | properties (line : Nat) (cause : PropertyError)
  /-- A reference leads to no block. -/
  | unknownReference (id : ReferenceId)
  /-- The first block called `name` names no session. -/
  | missingSessionAttribute (name : Text)
  /-- The session that a block names does not exist. -/
  | missingSessionFile (path : Text)
  /-- The session has not been run. -/
  | missingSessionOutput (path : Text)
  /-- The output of a session cannot be read. -/
  | session (cause : SessionError)
  /-- The session was recorded with too few commands. -/
  | missingCommand (path : Text) (index : Nat)
  deriving DecidableEq, Repr

/-- The wording of a filter error. -/
def FilterError.message : FilterError → Text
  | properties line cause => "line ".toList ++ Text.ofNat line ++ ": ".toList ++ cause.message
  | unknownReference id => "no code block registered for ".toList ++ id.toText
  | missingSessionAttribute name =>
    "code block `".toList ++ name ++
      "` has a .repl fragment but no `session` attribute".toList
  | missingSessionFile path => "session file not found: ".toList ++ path
  | missingSessionOutput path =>
    "session output not found: ".toList ++ path ++ " (run the session first)".toList
  | session cause => cause.message
  | missingCommand path index =>
    "session output ".toList ++ path ++ " has no command #".toList ++ Text.ofNat index

end LiterateMarkdown
