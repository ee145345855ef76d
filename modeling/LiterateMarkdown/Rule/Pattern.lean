import LiterateMarkdown.Regex.Parser
import LiterateMarkdown.Rule.Basic

/-!
# Rules by pattern

A rule may say by a pattern which lines it is for. The pattern matches from the beginning of a line,
and the rule is told what its groups matched there.
-/

namespace LiterateMarkdown

/-- A line that a pattern matches. -/
structure LineMatch where
  line : Text
  pattern : Pattern
  captures : Captures

namespace LineMatch

/-- What a group matched, if it took part. -/
def group? (found : LineMatch) (index : Nat) : Option Text :=
  List.lookup index found.captures

/-- What a group with a name matched, if it took part. -/
def named? (found : LineMatch) (name : Text) : Option Text := do
  found.group? (← List.lookup name found.pattern.names)

end LineMatch

namespace Pattern

/-- Match a pattern against a line. -/
def matchLine? (pattern : Pattern) (line : Text) : Option LineMatch :=
  (pattern.regex.search? line).map fun captures => ⟨line, pattern, captures⟩

end Pattern

namespace Rule

variable {State : Type}

/-- A rule for the lines that match a pattern from their beginning, if the text is a pattern. -/
def onPattern? [PatternLibrary] (name pattern : Text)
    (handler : State → LineMatch → State × Verdict) : Option (Rule State) :=
  (Pattern.atStart? pattern).map fun pattern =>
    onLine name pattern.matchLine? fun state _ found => handler state found

end Rule

/-- Patterns that ask for no property and are small are the same with any library. -/
instance : PatternLibrary :=
  .common

end LiterateMarkdown
