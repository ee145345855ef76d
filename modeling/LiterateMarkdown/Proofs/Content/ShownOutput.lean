import LiterateMarkdown.Content.Passes
import LiterateMarkdown.Proofs.Document.Regions
import LiterateMarkdown.Proofs.LineEnding.Fence
import LiterateMarkdown.Proofs.Text.Lines

/-!
# What is shown of a command

A command that gave plain text is shown by a blank line and this text between two fences, and one
that gave anything else by a note of its type. These lines stand after a block as if they had been
written there: with the indentation of the block and with its line ending (`Block.textAfter`). The
item that shows a command is that text (`Replay.renders_outputItem?`).
-/

namespace LiterateMarkdown

namespace ContentFilter

/-- A line with the indentation of a block, which a blank line goes without. -/
def indentLine (indent line : Text) : Text :=
  if line.all Text.isBlank then line else indent ++ line

/-- Plain output between its fences, after a blank line. -/
def fencedOutput (output : Text) : Text :=
  "\n``` \x7b.text .output\x7d\n".toList ++ output ++ "\n```".toList

theorem splitOn_fencedOutput (output : Text) :
    Text.splitOn '\n' (fencedOutput output) =
      [] :: "``` \x7b.text .output\x7d".toList :: Text.splitOn '\n' output ++ [backticks] := by
  have atEnds : fencedOutput output =
      "\n``` \x7b.text .output\x7d".toList ++ '\n' :: (output ++ '\n' :: backticks) := by
    unfold fencedOutput
    simp [backticks]
  rw [atEnds, Text.splitOn_append, Text.splitOn_append]
  rfl

section

variable {indent lineEnding : Text} (indentBlank : indent.all Text.isIndent)

include indentBlank

theorem newline_not_mem_indentLine {line : Text} (oneLine : '\n' ∉ line) :
    '\n' ∉ indentLine indent line := by
  have notIndent : '\n' ∉ indent := fun present =>
    absurd (List.all_eq_true.mp indentBlank _ present) (by decide)
  unfold indentLine
  split <;> simp [notIndent, oneLine]

/-- The lines of a text that is shown after a block are the lines of the text, each by itself. -/
theorem withLineEnding_indentText (ending : lineEnding = [] ∨ lineEnding = ['\r']) (text : Text) :
    withLineEnding lineEnding (indentText indent text) = Text.join ['\n']
      ((Text.splitOn '\n' text).map fun line => indentLine indent line ++ lineEnding) := by
  rcases ending with rfl | rfl
  · simp only [List.append_nil]
    rfl
  · have isCrlf : withLineEnding ['\r'] (indentText indent text) =
        Text.crlfLine (Text.join ['\n'] ((Text.splitOn '\n' text).map (indentLine indent))) := rfl
    have nonempty : (Text.splitOn '\n' text).map (indentLine indent) ≠ [] :=
      mt List.map_eq_nil_iff.mp (Text.splitOn_ne_nil '\n' text)
    rw [isCrlf, Text.crlfLine_join nonempty, List.map_map]
    congr 1
    apply List.map_congr_left
    intro line isLine
    exact Text.crlfLine_of_newline_not_mem
      (newline_not_mem_indentLine indentBlank (Text.not_mem_of_mem_splitOn isLine))

end

end ContentFilter

/-- Lines as they stand after a block, with its indentation and its line ending. -/
def Block.textAfter (block : Block) (lines : List Text) : Text :=
  Text.join ['\n'] (lines.map fun line =>
    ContentFilter.indentLine block.indent line ++ block.lineEnding)

namespace Replay

/-- The lines that show what a command gave. -/
inductive ShownBy (command : SessionCommand) (output : Text) : List Text → Prop where
  | plain (isPlain : command.outputType = "text/plain".toList) :
      ShownBy command output
        ([] :: "``` \x7b.text .output\x7d".toList :: Text.splitOn '\n' output ++ ["```".toList])
  | other (notPlain : command.outputType ≠ "text/plain".toList) :
      ShownBy command output
        ([] :: Text.splitOn '\n'
          ("**unknown MIME type: ".toList ++ command.outputType ++ "**".toList))

/-- The item, if any, that shows what a command gave. -/
inductive Renders (block : Block) (command : SessionCommand) : Option Content → Prop where
  | nothing (silent : command.output = none ∨ command.output = some []) :
      Renders block command none
  | item {output : Text} {lines : List Text} (isOutput : command.output = some output)
      (notEmpty : output ≠ []) (shown : ShownBy command output lines) :
      Renders block command (some (.plainText (block.textAfter lines)))

theorem shownBy_shownOutput (command : SessionCommand) (output : Text) :
    ShownBy command output (Text.splitOn '\n' (ContentFilter.shownOutput command output)) := by
  cases isPlain : command.isPlainText with
  | true =>
    have isFenced : ContentFilter.shownOutput command output =
        ContentFilter.fencedOutput output := if_pos isPlain
    rw [isFenced, ContentFilter.splitOn_fencedOutput]
    exact .plain (of_decide_eq_true isPlain)
  | false =>
    have isNote : ContentFilter.shownOutput command output =
        '\n' :: ("**unknown MIME type: ".toList ++ command.outputType ++ "**".toList) := by
      simp [ContentFilter.shownOutput, isPlain]
    rw [isNote, Text.splitOn, if_pos rfl]
    exact .other (of_decide_eq_false isPlain)

/-- The item that is put after a block shows the command. -/
theorem renders_outputItem? {block : Block} {fence : OpenFence} (fenced : block.IsFencedBy fence)
    (command : SessionCommand) :
    Renders block command (ContentFilter.outputItem? block command) := by
  rcases OpenFence.exists_toLine_of_ofLine? fenced.found with
    ⟨_, _, _, indentBlank, _, _, _, ending⟩
  rw [← fenced.sameIndent] at indentBlank
  rw [← fenced.sameEnding] at ending
  cases isOutput : command.output with
  | none =>
    simp only [ContentFilter.outputItem?, SessionCommand.shownOutput?, isOutput]
    exact .nothing (.inl isOutput)
  | some output =>
    by_cases isEmpty : output = []
    · subst isEmpty
      simp only [ContentFilter.outputItem?, SessionCommand.shownOutput?, isOutput]
      exact .nothing (.inr isOutput)
    · have isShown : command.shownOutput? = some output := by
        simp [SessionCommand.shownOutput?, isOutput, Option.filter, isEmpty]
      simp only [ContentFilter.outputItem?, isShown, Option.map_some,
        ContentFilter.withLineEnding_indentText indentBlank ending]
      exact .item isOutput isEmpty (shownBy_shownOutput command output)

theorem Renders.unique {block : Block} {command : SessionCommand} {left right : Option Content}
    (first : Renders block command left) (second : Renders block command right) : left = right := by
  cases first with
  | nothing silent => cases second <;> simp_all
  | item isOutput notEmpty shown =>
    cases second with
    | nothing silent => simp_all
    | item isOutput' _ shown' =>
      cases isOutput.symm.trans isOutput'
      cases shown <;> cases shown' <;> first | rfl | contradiction

end Replay

end LiterateMarkdown
