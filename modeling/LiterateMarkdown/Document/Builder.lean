import LiterateMarkdown.Document.Basic

/-!
# Reading documents

A page is read line by line. Verbatim regions and plain fences stay text, and so does a block that
is never closed. A builder can be fed line by line, each line changing it in place (`feed`); a line
that fails keeps what it changed until then, which is nothing (`feed_eq`).
-/

namespace LiterateMarkdown

/-- The region that the lines read so far have left open. -/
inductive OpenRegion where
  | none
  | verbatim
  | plainFence
  /-- A block whose closing line is still to come. -/
  | block (block : Block)
  deriving DecidableEq, Repr

/-- A document in the making. -/
structure DocumentBuilder where
  region : OpenRegion := .none
  references : References := .empty
  content : List Content := []
  deriving DecidableEq, Repr

namespace DocumentBuilder

/-- A builder that has read nothing. -/
def empty : DocumentBuilder :=
  {}

/-- Add a line of text to the content. -/
def pushText (builder : DocumentBuilder) (line : Text) : DocumentBuilder :=
  { builder with content := builder.content ++ [.plainText line] }

/-- Register a complete block and refer to it. -/
def pushBlock (builder : DocumentBuilder) (block : Block) : DocumentBuilder :=
  let (references, id) := builder.references.insert block
  ⟨.none, references, builder.content ++ [.reference id]⟩

/-- Read a line that stands outside of any region. -/
def pushOutside (builder : DocumentBuilder) (lineNumber : Nat) (line : Text) :
    Except FilterError DocumentBuilder :=
  if Fence.startsVerbatim line then .ok ({ builder with region := .verbatim }.pushText line)
  else
    match OpenFence.ofLine? line with
    | some fence =>
      match Property.parse fence.properties with
      | .error cause => .error (.properties lineNumber cause)
      | .ok properties =>
        .ok { builder with
          region := .block ⟨properties, fence.indent, line, [], [], fence.lineEnding, lineNumber⟩ }
    | none =>
      if Fence.isFence line then .ok ({ builder with region := .plainFence }.pushText line)
      else .ok (builder.pushText line)

/-- Read the next line. -/
def push (builder : DocumentBuilder) (lineNumber : Nat) (line : Text) :
    Except FilterError DocumentBuilder :=
  match builder.region with
  | .none => builder.pushOutside lineNumber line
  | .verbatim =>
    let region := if Fence.endsVerbatim line then .none else .verbatim
    .ok ({ builder with region }.pushText line)
  | .plainFence =>
    let region := if Fence.isClosing line then .none else .plainFence
    .ok ({ builder with region }.pushText line)
  | .block block =>
    if Fence.isClosing line then .ok (builder.pushBlock { block with closeLine := line })
    else .ok { builder with region := .block { block with source := block.source ++ [line] } }

/-- The lines of a block that was never closed. -/
def openLines : OpenRegion → List Text
  | .block block => block.openLine :: block.source
  | _ => []

/-- The document of the lines read so far, a block that is still open being text. -/
def finish (builder : DocumentBuilder) : Document where
  references := builder.references
  content := builder.content ++ (openLines builder.region).map .plainText

/-- Read lines from the given line number on. -/
def pushLines (builder : DocumentBuilder) (lineNumber : Nat) :
    List Text → Except FilterError DocumentBuilder
  | [] => .ok builder
  | line :: rest => do
    let builder ← builder.push lineNumber line
    builder.pushLines (lineNumber + 1) rest

/-- Leave a region open, changing the builder in place. -/
def setRegion (region : OpenRegion) : EStateM FilterError DocumentBuilder Unit :=
  modify fun builder => { builder with region }

/-- Add a line of text, changing the builder in place. -/
def feedText (line : Text) : EStateM FilterError DocumentBuilder Unit :=
  modify fun builder => builder.pushText line

/-- Read a line that stands outside of any region, changing the builder in place. -/
def feedOutside (lineNumber : Nat) (line : Text) : EStateM FilterError DocumentBuilder Unit := do
  if Fence.startsVerbatim line then
    setRegion .verbatim
    feedText line
  else
    match OpenFence.ofLine? line with
    | some fence =>
      match Property.parse fence.properties with
      | .error cause => throw (.properties lineNumber cause)
      | .ok properties =>
        setRegion (.block ⟨properties, fence.indent, line, [], [], fence.lineEnding, lineNumber⟩)
    | none =>
      if Fence.isFence line then setRegion .plainFence
      feedText line

/-- Read the next line, changing the builder in place. -/
def feed (lineNumber : Nat) (line : Text) : EStateM FilterError DocumentBuilder Unit := do
  match (← get).region with
  | .none => feedOutside lineNumber line
  | .verbatim =>
    if Fence.endsVerbatim line then setRegion .none
    feedText line
  | .plainFence =>
    if Fence.isClosing line then setRegion .none
    feedText line
  | .block block =>
    if Fence.isClosing line then
      modify fun builder => builder.pushBlock { block with closeLine := line }
    else setRegion (.block { block with source := block.source ++ [line] })

/--
Feed lines, each with its number, and go on after those that fail. The result has what became of
each line.
-/
def feedLines (builder : DocumentBuilder) :
    List (Text × Nat) → List (Except FilterError Unit) × DocumentBuilder
  | [] => ([], builder)
  | (line, lineNumber) :: rest =>
    match feed lineNumber line builder with
    | .ok _ builder =>
      let (outcomes, final) := builder.feedLines rest
      (.ok () :: outcomes, final)
    | .error cause builder =>
      let (outcomes, final) := builder.feedLines rest
      (.error cause :: outcomes, final)

theorem feedOutside_eq (builder : DocumentBuilder) (lineNumber : Nat) (line : Text) :
    feedOutside lineNumber line builder =
      match builder.pushOutside lineNumber line with
      | .ok after => .ok () after
      | .error cause => .error cause builder := by
  simp only [feedOutside, pushOutside]
  cases Fence.startsVerbatim line with
  | true => rfl
  | false =>
    simp only [Bool.false_eq_true, ↓reduceIte]
    cases OpenFence.ofLine? line with
    | none => cases Fence.isFence line <;> rfl
    | some fence =>
      simp only
      cases Property.parse fence.properties <;> rfl

/-- A line that fails leaves the builder as it was. -/
theorem feed_eq (builder : DocumentBuilder) (lineNumber : Nat) (line : Text) :
    feed lineNumber line builder =
      match builder.push lineNumber line with
      | .ok after => .ok () after
      | .error cause => .error cause builder := by
  rcases builder with ⟨region, references, content⟩
  cases region with
  | none => exact feedOutside_eq _ lineNumber line
  | verbatim =>
    simp only [feed, push]
    cases Fence.endsVerbatim line <;> rfl
  | plainFence =>
    simp only [feed, push]
    cases Fence.isClosing line <;> rfl
  | block block =>
    simp only [feed, push]
    cases Fence.isClosing line <;> rfl

end DocumentBuilder

namespace Document

/-- Read a page. -/
def read (page : Text) : Except FilterError Document := do
  let lines := Lines.ofText page
  let builder ← DocumentBuilder.empty.pushLines 1 lines.items
  return { builder.finish with endsWithNewline := lines.endsWithNewline }

end Document

end LiterateMarkdown
