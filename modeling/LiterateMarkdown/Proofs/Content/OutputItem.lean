import LiterateMarkdown.Proofs.Content.Replay
import LiterateMarkdown.Proofs.Document.Regions
import LiterateMarkdown.Proofs.LineFilter.Invariant

/-!
# What the reader makes of shown output

Plain output is put on the page between two fences, each of its lines after the indentation of the
block that it belongs to. Read on its own, that text is a blank line and a block of output after it
(`ContentFilter.read_outputText`), as long as no line of the output closes a block. A line that does
so ends the block of output there, whatever its indentation, and the lines after it are read as if
the author of the page had written them (`ContentFilter.isReadAsOutput_outputText_iff`).
-/

namespace LiterateMarkdown

/-- A closed block with the classes of output and as many lines as the output has. -/
structure Block.IsOutput (block : Block) (output : Text) : Prop where
  properties : block.properties = [.className "text".toList, .className "output".toList]
  closed : Fence.isClosing block.closeLine
  sameLength : block.source.length = (Text.splitOn '\n' output).length

/-- A document that is a blank line, a block of output after it, and nothing else. -/
structure Document.ShowsOutput (document : Document) (output blank : Text) (id : ReferenceId)
    (block : Block) : Prop where
  isBlank : blank.all Text.isBlank
  isOutput : block.IsOutput output
  content : document.content = [.plainText blank, .reference id]
  blocks : document.references.entries = [(id, block)]
  notEnded : document.endsWithNewline = false

/-- Whether a text, read as a page, is a blank line and a block of output after it. -/
def Text.IsReadAsOutput (text output : Text) : Prop :=
  ∃ document blank id block, Document.read text = .ok document ∧
    document.ShowsOutput output blank id block

theorem Content.exists_block_of_standsFor {references : References} {blank : Text}
    {id : ReferenceId} {segments : List Segment}
    (each : List.Forall₂ (StandsFor references) [.plainText blank, .reference id] segments) :
    ∃ block, segments = [.line blank, .block block] := by
  rcases List.forall₂_cons_left_iff.mp each with ⟨_, _, isLine, others, rfl⟩
  rcases List.forall₂_cons_left_iff.mp others with ⟨_, _, isBlock, nothing, rfl⟩
  cases isLine
  cases isBlock
  cases nothing
  exact ⟨_, rfl⟩

namespace ContentFilter

/-- The fence that output is shown under. -/
def outputFence (indent lineEnding : Text) : OpenFence where
  indent
  properties := ".text .output".toList
  lineEnding

/-- The block of the given output, as it is read from the second line of a page on. -/
def outputBlock (indent lineEnding output : Text) : Block where
  properties := [.className "text".toList, .className "output".toList]
  indent
  openLine := (outputFence indent lineEnding).toLine [' '] []
  source := (Text.splitOn '\n' output).map fun line => indentLine indent line ++ lineEnding
  closeLine := indent ++ (backticks ++ lineEnding)
  lineEnding
  lineNumber := 2

/-- The text that shows plain output after a block. -/
def outputText (indent lineEnding output : Text) : Text :=
  withLineEnding lineEnding (indentText indent (fencedOutput output))

theorem indentLine_of_not_blank {indent line : Text} (notBlank : line.all Text.isBlank = false) :
    indentLine indent line = indent ++ line := by
  simp [indentLine, notBlank]

/-- The lines of plain output between its fences are those of a block, after a blank line. -/
theorem map_indentLine_fencedOutput (indent lineEnding output : Text) :
    ((Text.splitOn '\n' (fencedOutput output)).map fun line =>
        indentLine indent line ++ lineEnding) =
      lineEnding :: (outputBlock indent lineEnding output).lines := by
  have isOpening : indentLine indent "``` \x7b.text .output\x7d".toList ++ lineEnding =
      (outputFence indent lineEnding).toLine [' '] [] := by
    have isBare : "``` \x7b.text .output\x7d".toList = (outputFence [] []).toLine [' '] [] := by
      decide
    rw [indentLine_of_not_blank (by decide), isBare]
    simp [OpenFence.toLine, outputFence]
  have isClosing : indentLine indent backticks ++ lineEnding =
      indent ++ (backticks ++ lineEnding) := by
    rw [indentLine_of_not_blank (by decide), List.append_assoc]
  rw [splitOn_fencedOutput, List.map_append, List.map_cons, List.map_cons, List.map_singleton,
    isOpening, isClosing]
  rfl

section

variable {indent lineEnding : Text} (indentBlank : indent.all Text.isIndent)
  (ending : lineEnding = [] ∨ lineEnding = ['\r'])

include indentBlank

theorem isClosing_indentLine (line : Text) :
    Fence.isClosing (indentLine indent line) = Fence.isClosing line := by
  unfold indentLine
  split
  · rfl
  · exact Fence.isClosing_append_left indentBlank line

include ending

/-- Neither indentation nor a carriage return keeps a line from closing a block. -/
theorem isClosing_indentLine_append (line : Text) :
    Fence.isClosing (indentLine indent line ++ lineEnding) = Fence.isClosing line := by
  rcases ending with rfl | rfl
  · rw [List.append_nil, isClosing_indentLine indentBlank]
  · rw [Fence.isClosing_append_return, isClosing_indentLine indentBlank]

/-- The text that shows output has the lines of a block of output, and a blank line before them. -/
theorem ofText_outputText (output : Text) :
    Lines.ofText (outputText indent lineEnding output) =
      ⟨lineEnding :: (outputBlock indent lineEnding output).lines, false⟩ := by
  have noNewline : '\n' ∉ lineEnding := by
    rcases ending with rfl | rfl <;> decide
  have oneLine : ∀ line ∈ lineEnding :: (outputBlock indent lineEnding output).lines,
      '\n' ∉ line := by
    rw [← map_indentLine_fencedOutput]
    intro line isLine
    rcases List.mem_map.mp isLine with ⟨piece, isPiece, rfl⟩
    have notPiece := newline_not_mem_indentLine indentBlank (Text.not_mem_of_mem_splitOn isPiece)
    rw [List.mem_append, not_or]
    exact ⟨notPiece, noNewline⟩
  rw [outputText, withLineEnding_indentText indentBlank ending, map_indentLine_fencedOutput]
  have isLast : (lineEnding :: (outputBlock indent lineEnding output).lines).getLast? =
      some (outputBlock indent lineEnding output).closeLine :=
    List.getLast?_eq_some_iff.mpr ⟨lineEnding :: _ :: _, rfl⟩
  exact Lines.ofText_join oneLine isLast (by simp [outputBlock, backticks])

/-- The block of output is a fenced region, unless a line of the output closes a block. -/
theorem outputBlock_isFencedBy {output : Text}
    (noClosing : ∀ line ∈ Text.splitOn '\n' output, Fence.isClosing line = false) :
    (outputBlock indent lineEnding output).IsFencedBy (outputFence indent lineEnding) where
  found := OpenFence.ofLine?_toLine (outputFence indent lineEnding) indentBlank
    (show ([' '] : Text).all Text.isIndent by decide) (show ([] : Text).all Text.isIndent by decide)
    (show '\n' ∉ ".text .output".toList by decide) ending
  parsed := show Property.parse ".text .output".toList =
      .ok [.className "text".toList, .className "output".toList] by decide +kernel
  sameIndent := rfl
  sameEnding := rfl
  noClosing := by
    intro line isLine
    rcases List.mem_map.mp isLine with ⟨shown, isShown, rfl⟩
    rw [isClosing_indentLine_append indentBlank ending]
    exact noClosing shown isShown

theorem isClosing_closeLine (output : Text) :
    Fence.isClosing (outputBlock indent lineEnding output).closeLine :=
  Fence.isClosing_of_bare indentBlank ending

/-- Shown output is read as a blank line and the block of output. -/
theorem read_outputText {output : Text}
    (noClosing : ∀ line ∈ Text.splitOn '\n' output, Fence.isClosing line = false) :
    Document.read (outputText indent lineEnding output) = .ok
      (Document.ofSegments [.line lineEnding, .block (outputBlock indent lineEnding output)]) := by
  have isBlank : OpenRegion.none.next 1 lineEnding = .ok ([.line lineEnding], .none) := by
    rcases ending with rfl | rfl <;> rfl
  have isBlock := OpenRegion.read_lines_of_isFencedBy
    (outputBlock_isFencedBy indentBlank ending noClosing)
    (isClosing_closeLine indentBlank ending output)
  have isCut : Segment.ofPage (outputText indent lineEnding output) =
      .ok [.line lineEnding, .block (outputBlock indent lineEnding output)] := by
    rw [Segment.ofPage, ofText_outputText indentBlank ending,
      OpenRegion.read_of_next isBlank isBlock]
    rfl
  rw [Document.read_eq, isCut, ofText_outputText indentBlank ending]
  rfl

theorem noClosing_of_isReadAsOutput {output : Text}
    (isRead : (outputText indent lineEnding output).IsReadAsOutput output) :
    ∀ line ∈ Text.splitOn '\n' output, Fence.isClosing line = false := by
  rcases isRead with ⟨document, blank, id, block, isRead, shows⟩
  rcases Document.exists_ofPage_of_read isRead with ⟨segments, isCut, rfl⟩
  have each := (Document.shows_ofSegments segments).each
  have content : (Document.ofSegments segments).content = [.plainText blank, .reference id] :=
    shows.content
  rw [content] at each
  rcases Content.exists_block_of_standsFor each with ⟨current, rfl⟩
  have fenced := Segment.isFenced_of_ofPage isCut (.block current) (by simp)
  rcases fenced with ⟨⟨fence, isFenced⟩, _⟩
  -- The block that was read begins on the second line and ends on the last one.
  have sameSource : current.source = (outputBlock indent lineEnding output).source := by
    have sameLines := Segment.lines_of_ofPage isCut
    rw [ofText_outputText indentBlank ending] at sameLines
    simp only [List.flatMap_cons, List.flatMap_nil, List.append_nil, Segment.lines, Block.lines,
      List.cons_append, List.nil_append, List.cons.injEq] at sameLines
    exact (List.append_inj' sameLines.2.2 rfl).1
  intro line isLine
  rw [← isClosing_indentLine_append indentBlank ending]
  apply isFenced.noClosing
  rw [sameSource]
  exact List.mem_map_of_mem isLine

/-- The text that shows output is read as a block of it unless a line of the output closes one. -/
theorem isReadAsOutput_outputText_iff (output : Text) :
    (outputText indent lineEnding output).IsReadAsOutput output ↔
      ∀ line ∈ Text.splitOn '\n' output, Fence.isClosing line = false := by
  refine ⟨noClosing_of_isReadAsOutput indentBlank ending, fun noClosing => ?_⟩
  have isBlank : lineEnding.all Text.isBlank := by
    rcases ending with rfl | rfl <;> decide
  have isOutput : (outputBlock indent lineEnding output).IsOutput output :=
    ⟨rfl, isClosing_closeLine indentBlank ending output, by simp [outputBlock]⟩
  exact ⟨_, _, _, _, read_outputText indentBlank ending noClosing,
    ⟨isBlank, isOutput, rfl, rfl, rfl⟩⟩

end

section

variable {World : Type} {options : ReplOptions} {files : World → FileTree}
  {workspace : Workspace World} {id : ReferenceId} {block : Block} {command : SessionCommand}
  {output : Text}

/-- Plain output of a command is put after the block that shows the command. -/
theorem includeReplOutput_of_plain (registered : workspace.references.get? id = some block)
    (isRepl : Property.hasClass block.properties Fence.replClass)
    (isRecorded : recordedCommand options (files workspace.world) workspace.references id =
      .ok command)
    (isPlain : command.isPlainText) (isOutput : command.output = some output)
    (notEmpty : output ≠ []) :
    includeReplOutput options files (.reference id) workspace =
      .ok [.reference id, .plainText (outputText block.indent block.lineEnding output)]
        workspace := by
  have isShown : command.shownOutput? = some output := by
    simp [SessionCommand.shownOutput?, isOutput, Option.filter, notEmpty]
  have isItem : outputItem? block command =
      some (.plainText (outputText block.indent block.lineEnding output)) := by
    have isFenced : shownOutput command output = fencedOutput output := if_pos isPlain
    rw [outputItem?, isShown, Option.map_some, isFenced, outputText]
  have isFollowing : following options (files workspace.world) workspace.references id =
      .ok (some (.plainText (outputText block.indent block.lineEnding output))) := by
    simp only [following, registered, isRepl, isRecorded, Except.map, isItem, Bool.not_true,
      Bool.false_eq_true, ↓reduceIte]
  rw [includeReplOutput_eq, isFollowing]
  rfl

/--
The plain output of a command is put after the block that shows it in a text that is read as a block
of this output, with one line for each line of it, exactly if none of these lines closes a block.
-/
theorem isReadAsOutput_iff (registered : workspace.references.get? id = some block)
    (indentBlank : block.indent.all Text.isIndent)
    (ending : block.lineEnding = [] ∨ block.lineEnding = ['\r'])
    (isRepl : Property.hasClass block.properties Fence.replClass)
    (isRecorded : recordedCommand options (files workspace.world) workspace.references id =
      .ok command)
    (isPlain : command.isPlainText) (isOutput : command.output = some output)
    (notEmpty : output ≠ []) :
    ∃ text, includeReplOutput options files (.reference id) workspace =
        .ok [.reference id, .plainText text] workspace ∧
      (text.IsReadAsOutput output ↔
        ∀ line ∈ Text.splitOn '\n' output, Fence.isClosing line = false) :=
  ⟨_, includeReplOutput_of_plain registered isRepl isRecorded isPlain isOutput notEmpty,
    isReadAsOutput_outputText_iff indentBlank ending output⟩

end

/-- A block that shows the session `s`. -/
def sessionBlock (indent lineEnding : Text) : Block :=
  ⟨[.className Fence.replClass, .attribute Fence.sessionKey "s".toList], indent, [], [], [],
    lineEnding, 1⟩

/-- A page with one block, and the files of the session `s`, recorded as `record`. -/
def sessionWorkspace (block : Block) (record : Text) : Workspace FileTree where
  references := (References.empty.insert block).1
  world := ⟨[(["s".toList], .file []), (["s.o".toList], .file (Utf8.encode record))], []⟩

/-- Output that begins like a verbatim region, after an indented block with CRLF line endings. -/
theorem isReadAsOutput_iff_tilde :
    ∃ record workspace id text,
      record = ("\x7b\"commands\":[\x7b\"command\":\"\"," ++
        "\"output\":\"~~~markdown\\n\\n``` x\"\x7d]\x7d").toList ∧
      workspace = sessionWorkspace (sessionBlock "\t".toList ['\r']) record ∧
      includeReplOutput ⟨[], ".o".toList⟩ (fun files => files) (.reference id) workspace =
        .ok [.reference id, .plainText text] workspace ∧
      text.IsReadAsOutput "~~~markdown\n\n``` x".toList := by
  generalize isRecord : ("\x7b\"commands\":[\x7b\"command\":\"\"," ++
    "\"output\":\"~~~markdown\\n\\n``` x\"\x7d]\x7d").toList = record
  let workspace := sessionWorkspace (sessionBlock "\t".toList ['\r']) record
  have isRecorded : recordedCommand ⟨[], ".o".toList⟩ workspace.world workspace.references
      ⟨"#anonymous-1".toList, 0⟩ =
        .ok ⟨[], plainText, some "~~~markdown\n\n``` x".toList, none⟩ := by
    subst isRecord
    decide +kernel
  rcases @isReadAsOutput_iff FileTree _ (fun files => files) workspace _
    (sessionBlock "\t".toList ['\r']) _ _ rfl (by decide) (.inr rfl) (by decide) isRecorded
    (by decide) rfl (by decide) with ⟨text, isIncluded, isRead⟩
  exact ⟨record, workspace, _, text, rfl, rfl, isIncluded, isRead.mpr (by decide +kernel)⟩

/-- A line of output that closes a block closes the block of output. -/
theorem not_forall_isReadAsOutput :
    ¬ ∀ (options : ReplOptions) (workspace : Workspace FileTree) (id : ReferenceId) (block : Block)
      (command : SessionCommand) (output : Text), workspace.references.get? id = some block →
        block.indent.all Text.isIndent → block.lineEnding = [] ∨ block.lineEnding = ['\r'] →
        Property.hasClass block.properties Fence.replClass →
        recordedCommand options workspace.world workspace.references id = .ok command →
        command.isPlainText → command.output = some output → output ≠ [] →
        ∃ text, includeReplOutput options (fun files => files) (.reference id) workspace =
          .ok [.reference id, .plainText text] workspace ∧ text.IsReadAsOutput output := by
  intro allShown
  let block := sessionBlock [] []
  let workspace := sessionWorkspace block
    "\x7b\"commands\":[\x7b\"command\":\"\",\"output\":\"```\"\x7d]\x7d".toList
  have registered : workspace.references.get? ⟨"#anonymous-1".toList, 0⟩ = some block := rfl
  have isRecorded : recordedCommand ⟨[], ".o".toList⟩ workspace.world workspace.references
      ⟨"#anonymous-1".toList, 0⟩ = .ok ⟨[], plainText, some "```".toList, none⟩ := by
    decide +kernel
  rcases allShown _ workspace _ block _ _ registered (by decide) (.inl rfl) (by decide) isRecorded
    (by decide) rfl (by decide) with ⟨text, isIncluded, isRead⟩
  have included := @includeReplOutput_of_plain FileTree _ (fun files => files) workspace _ block _ _
    registered (by decide) isRecorded (by decide) rfl (by decide)
  rw [included] at isIncluded
  cases isIncluded
  have closes := noClosing_of_isReadAsOutput (show ([] : Text).all Text.isIndent by decide)
    (.inl rfl) isRead "```".toList (by decide)
  revert closes
  decide

end ContentFilter

end LiterateMarkdown
