import LiterateMarkdown.Fence.Line
import LiterateMarkdown.Property.Basic

/-!
# Titles and rendered fences

A fence with properties is shown as an ordinary fence with a language tag, followed by the
properties a reader should see: the first identifier, the further classes and a title. The title is
the one the author gave or else one made of the block's identifier and file.
-/

namespace LiterateMarkdown.Fence

/-- The attribute that names the file a block belongs to. -/
def fileKey : Text := "file".toList

/-- The attribute that holds a block's title. -/
def titleKey : Text := "title".toList

/-- The attribute that names the recorded session of a block. -/
def sessionKey : Text := "session".toList

/-- The class of blocks whose body is a build script. -/
def buildArtifactClass : Text := "build-artifact".toList

/-- The class of blocks that show a recorded session. -/
def replClass : Text := "repl".toList

/-- The title of a block that names more than one identifier or more than one file. -/
def ambiguousTitle : Text := "error: ambiguous code block title".toList

/-- The title made of the identifier and the file of a block. -/
def synthesizedTitle (properties : List Property) : Option Text :=
  match Property.identifiers properties, Property.values properties fileKey with
  | [name], [file] => some ('#' :: name ++ " / file: ".toList ++ file)
  | [name], [] => some ('#' :: name)
  | [], [file] => some ("file: ".toList ++ file)
  | [], [] => none
  | _, _ => some ambiguousTitle

/--
The properties with their title, and the title. A title that the author gave stays as it is; one
that had to be made is appended as an attribute.
-/
def withTitle (properties : List Property) : List Property × Option Text :=
  match Property.firstValue? properties titleKey with
  | some title => (properties, some title)
  | none =>
    match synthesizedTitle properties with
    | some title => (properties ++ [.attribute titleKey title], some title)
    | none => (properties, none)

/-- The properties that a rendered fence shows in braces. -/
def shownProperties (properties : List Property) (title : Option Text) : List Property :=
  (Property.identifiers properties).head?.toList.map .identifier ++
    (Property.classNames properties).tail.map .className ++
    title.toList.map (.attribute titleKey)

/-- The line of an opening fence: the first class is its language tag. -/
def renderOpening (indent fence : Text) (properties : List Property) (title : Option Text) : Text :=
  let tag := (Property.classNames properties).head?.getD []
  match shownProperties properties title with
  | [] => indent ++ fence ++ tag
  | shown =>
    indent ++ fence ++ tag ++ " \x7b".toList ++ Text.join [' '] (shown.map Property.toText) ++
      ['\x7d']

/-- A second request for the title finds the first one's answer. -/
theorem withTitle_withTitle (properties : List Property) :
    withTitle (withTitle properties).1 = withTitle properties := by
  cases given : Property.firstValue? properties titleKey with
  | some title => simp [withTitle, given]
  | none =>
    cases made : synthesizedTitle properties with
    | none => simp [withTitle, given, made]
    | some title =>
      have appended : Property.firstValue? (properties ++ [.attribute titleKey title]) titleKey
          = some title := by
        simp only [Property.firstValue?] at given ⊢
        simp [List.findSome?_append, given, Property.valueOf?]
      simp [withTitle, given, made, appended]

end LiterateMarkdown.Fence
