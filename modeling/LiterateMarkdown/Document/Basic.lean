import LiterateMarkdown.Document.References
import LiterateMarkdown.FilterError
import LiterateMarkdown.Text.Lines

/-!
# Documents

A document is a page taken apart: its plain lines, and references to the code blocks that stand
between them. Writing a document puts the lines of the blocks back in their places.
-/

namespace LiterateMarkdown

/-- One item of a page. -/
inductive Content where
  | plainText (text : Text)
  | reference (id : ReferenceId)
  deriving DecidableEq, Repr

/-- A page as plain lines and code blocks. -/
structure Document where
  references : References := .empty
  content : List Content := []
  /-- Whether the page ends in a newline. -/
  endsWithNewline : Bool := false
  deriving DecidableEq, Repr

namespace Content

/-- The lines that an item stands for. -/
def lines (references : References) : Content → Except FilterError (List Text)
  | plainText text => .ok [text]
  | reference id =>
    match references.get? id with
    | some block => .ok block.lines
    | none => .error (.unknownReference id)

end Content

namespace Document

/-- The lines that a list of items stands for. -/
def contentLines (references : References) : List Content → Except FilterError (List Text)
  | [] => .ok []
  | item :: rest => do
    let lines ← item.lines references
    return lines ++ (← contentLines references rest)

/-- Write a document as a page. -/
def render (document : Document) : Except FilterError Text := do
  let lines ← contentLines document.references document.content
  return Lines.toText ⟨lines, document.endsWithNewline⟩

end Document

end LiterateMarkdown
