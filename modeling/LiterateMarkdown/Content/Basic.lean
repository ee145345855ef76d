import LiterateMarkdown.Document.Builder

/-!
# Content filters

A content filter turns one item of a page into any number of items. It may change the registered
blocks and act on the world on its way, and what it did before it failed stays done. Filters chain:
the second one runs over every item that the first one produced.
-/

namespace LiterateMarkdown

/-- What a content filter may change besides the item it is given. -/
structure Workspace (World : Type) where
  references : References
  world : World

/-- What a content filter makes of one item. -/
abbrev ContentFilter (World : Type) :=
  Content → EStateM FilterError (Workspace World) (List Content)

namespace ContentFilter

variable {World : Type}

/-- The filter that keeps every item. -/
def identity : ContentFilter World :=
  fun item => pure [item]

/-- The filter that keeps plain text and treats references with `treat`. -/
def onBlocks (treat : ReferenceId → EStateM FilterError (Workspace World) (List Content)) :
    ContentFilter World
  | .plainText text => pure [.plainText text]
  | .reference id => treat id

/-- Run a filter over every item, in order. -/
def overItems (filter : ContentFilter World) :
    List Content → EStateM FilterError (Workspace World) (List Content)
  | [] => pure []
  | item :: rest => do
    let produced ← filter item
    let later ← overItems filter rest
    return produced ++ later

/-- Run the second filter over every item that the first one produces. -/
def compose (first second : ContentFilter World) : ContentFilter World :=
  fun item => do second.overItems (← first item)

/-- Chain filters, the first one running first. -/
def composeAll (filters : List (ContentFilter World)) : ContentFilter World :=
  filters.foldl compose identity

/-- The block that a reference leads to. -/
def findBlock (id : ReferenceId) : EStateM FilterError (Workspace World) Block := do
  match (← get).references.get? id with
  | some block => return block
  | none => throw (.unknownReference id)

/-- Put a block in place of the one that a reference leads to. -/
def replaceBlock (id : ReferenceId) (block : Block) :
    EStateM FilterError (Workspace World) Unit :=
  modify fun workspace =>
    { workspace with references := workspace.references.modify id fun _ => block }

@[simp]
theorem overItems_nil (filter : ContentFilter World) : filter.overItems [] = pure [] :=
  rfl

end ContentFilter

namespace Document

variable {World : Type}

/--
Run a filter over a document. The content is taken out of the document for the time of the run, so a
filter that fails leaves a document without content.
-/
def apply (filter : ContentFilter World) : EStateM FilterError (Document × World) Unit :=
  fun (document, world) =>
    match filter.overItems document.content ⟨document.references, world⟩ with
    | .ok content workspace =>
      .ok () ({ document with references := workspace.references, content }, workspace.world)
    | .error cause workspace =>
      .error cause
        ({ document with references := workspace.references, content := [] }, workspace.world)

end Document

end LiterateMarkdown
