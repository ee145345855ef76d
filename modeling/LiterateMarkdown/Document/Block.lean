import LiterateMarkdown.Property.Basic

/-!
# Code blocks

A code block is a fenced region of a page that was opened with a property list. It remembers the
lines it was read from, so a page can be written back exactly.
-/

namespace LiterateMarkdown

/-- A fenced code block with properties. -/
structure Block where
  properties : List Property
  /-- The indentation of the opening fence. -/
  indent : Text
  openLine : Text
  /-- The lines between the fences, as they stand on the page. -/
  source : List Text
  closeLine : Text
  /-- A carriage return, if the opening fence ended in one. -/
  lineEnding : Text
  /-- The number of the opening fence's line, the first line of a page being line 1. -/
  lineNumber : Nat
  deriving DecidableEq, Repr

namespace Block

/-- The lines of the block, fences included. -/
def lines (block : Block) : List Text :=
  block.openLine :: block.source ++ [block.closeLine]

/-- The body without the fence's indentation and without carriage returns. -/
def dedentedSource (block : Block) : Text :=
  Text.join ['\n'] (block.source.map fun line =>
    Text.dropCarriageReturn (Text.dedent block.indent line))

end Block

/-- The name of a block, and how many blocks of that name stand before it. -/
structure ReferenceId where
  name : Text
  index : Nat
  deriving DecidableEq, Repr

/-- The written form of a reference, as in `hello[2]`. -/
def ReferenceId.toText (id : ReferenceId) : Text :=
  id.name ++ '[' :: Text.ofNat id.index ++ [']']

end LiterateMarkdown
