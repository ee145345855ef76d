import LiterateMarkdown.Content.Basic
import LiterateMarkdown.LineFilter
import LiterateMarkdown.Session.Reader

/-!
# The passes over a page

Three content filters make up the content chain: fences get their titles, build artifacts are run,
and the recorded output of sessions is put after the blocks that show it.
-/

namespace LiterateMarkdown.ContentFilter

variable {World : Type}

/-- The block with its title, and its opening fence rendered anew. -/
def titledBlock (block : Block) : Block :=
  let (properties, title) := Fence.withTitle block.properties
  { block with
    properties
    openLine := Fence.renderOpening block.indent backticks properties title ++ block.lineEnding }

/-- Give every block a title. -/
def addTitle : ContentFilter World :=
  onBlocks fun id => do
    let block ← findBlock id
    replaceBlock id (titledBlock block)
    return [.reference id]

/-- Run the scripts of build artifacts and take them from the page. -/
def runBuildArtifacts (options : FilterOptions) (runner : BuildRunner World) :
    ContentFilter World :=
  onBlocks fun id => do
    let block ← findBlock id
    if !options.buildArtifacts || !Property.hasClass block.properties Fence.buildArtifactClass then
      return [.reference id]
    replaceBlock id { block with source := [] }
    modify fun workspace =>
      { workspace with world := runner.runDetached workspace.world block.dedentedSource }
    match options.closingFence with
    | .verbatim => return [.reference id]
    | .suppress => return []

/-- Where sessions are looked for, and how their output files are named. -/
structure ReplOptions where
  projectRoot : Path
  outputSuffix : Text
  deriving DecidableEq, Repr

/-- The text with `indent` before each line that is not blank. -/
def indentText (indent text : Text) : Text :=
  Text.join ['\n'] ((Text.splitOn '\n' text).map fun line =>
    if line.all Text.isBlank then line else indent ++ line)

/-- The text with each newline preceded by the line ending, and the line ending after it. -/
def withLineEnding (lineEnding text : Text) : Text :=
  if lineEnding = [] then text
  else Text.replaceChar '\n' (lineEnding ++ ['\n']) text ++ lineEnding

/-- What is shown of a command's output: plain text in a block of its own, or else its type. -/
def shownOutput (command : SessionCommand) (output : Text) : Text :=
  if command.isPlainText then
    "\n``` \x7b.text .output\x7d\n".toList ++ output ++ "\n```".toList
  else "\n**unknown MIME type: ".toList ++ command.outputType ++ "**".toList

/-- The session that the first block called `name` names. -/
def sessionOf? (references : References) (name : Text) : Option Text := do
  let first ← (references.named name).head?
  let block ← references.get? first
  Property.firstValue? block.properties Fence.sessionKey

/-- The command of a recorded session that a block shows. -/
def recordedCommand (options : ReplOptions) (files : FileTree) (references : References)
    (id : ReferenceId) : Except FilterError SessionCommand := do
  let some session := sessionOf? references id.name
    | .error (.missingSessionAttribute id.name)
  let path := Path.append options.projectRoot session
  if !files.pathExists path then .error (.missingSessionFile path)
  else
    let output := Session.outputPath path options.outputSuffix
    if !files.pathExists output then .error (.missingSessionOutput output)
    else
      match Session.load files output with
      | .error cause => .error (.session cause)
      | .ok recorded =>
        match recorded.commands[id.index]? with
        | some command => .ok command
        | none => .error (.missingCommand output id.index)

/-- The item that shows what a command gave, if it gave anything. -/
def outputItem? (block : Block) (command : SessionCommand) : Option Content :=
  command.shownOutput?.map fun output =>
    .plainText (withLineEnding block.lineEnding
      (indentText block.indent (shownOutput command output)))

/-- Put the recorded output of sessions after the blocks that show it. -/
def includeReplOutput (options : ReplOptions) (files : World → FileTree) : ContentFilter World :=
  onBlocks fun id => do
    let block ← findBlock id
    if !Property.hasClass block.properties Fence.replClass then
      return [.reference id]
    let workspace ← get
    match recordedCommand options (files workspace.world) workspace.references id with
    | .error cause => throw cause
    | .ok command => return .reference id :: (outputItem? block command).toList

end LiterateMarkdown.ContentFilter
