import LiterateMarkdown.Proofs.Fence.Rendering

/-!
# What a rendered fence shows

A rendered fence has its indentation, three backticks, a language tag and what it shows in braces.
Read as a property list, the braces and what is between them give back the first identifier, the
classes that are not the tag, and the title, whatever characters these hold. The line is an opening
fence with properties again exactly when there is no tag and there are braces
(`showsBlock_renderOpening`).
-/

namespace LiterateMarkdown.Fence

/-- What may follow the language tag: nothing, if nothing is shown, or properties in braces. -/
inductive Shows (shown : List Property) : Text → Prop where
  | nothing : shown = [] → Shows shown []
  | inBraces {inner : Text} : Property.parse ('\x7b' :: inner ++ ['\x7d']) = .ok shown →
      Shows shown (' ' :: '\x7b' :: inner ++ ['\x7d'])

/-- A line that shows a block, with what follows the language tag. -/
structure ShowsBlock (line indent : Text) (properties : List Property) (title : Option Text)
    (after : Text) : Prop where
  line_eq : line = indent ++ backticks ++ (Property.classNames properties).head?.getD [] ++ after
  shows : Shows ((Property.identifiers properties).head?.toList.map .identifier ++
    (Property.classNames properties).tail.map .className ++
    title.toList.map (.attribute titleKey)) after
  opens_iff : (OpenFence.ofLine? line).isSome ↔
    Property.classNames properties = [] ∧ after ≠ []
  opening : ∀ fence, OpenFence.ofLine? line = some fence → fence.indent = indent ∧
    Property.parse fence.properties =
      .ok ((Property.identifiers properties).head?.toList.map .identifier ++
        title.toList.map (.attribute titleKey))

theorem shows_shownText {shown : List Property}
    (writable : ∀ property ∈ shown, property.Writable) : Shows shown (shownText shown) := by
  cases shown with
  | nil => exact .nothing rfl
  | cons property more => exact .inBraces (Property.parse_braces_join_toText _ writable)

/-- A titled line is an opening fence again exactly when it has braces and no tag. -/
theorem opens_titledLine {fence : OpenFence} {properties : List Property}
    (indentBlank : fence.indent.all Text.isIndent) (oneLine : '\n' ∉ fence.properties)
    (ending : fence.lineEnding = [] ∨ fence.lineEnding = ['\r'])
    (read : Property.parse fence.properties = .ok properties) :
    ((OpenFence.ofLine? (titledLine fence properties)).isSome ↔
      Property.classNames properties = [] ∧
        shownText (shownProperties properties (withTitle properties).2) ≠ []) ∧
    ∀ found, OpenFence.ofLine? (titledLine fence properties) = some found →
      found.indent = fence.indent ∧
        Property.parse found.properties =
          .ok ((Property.identifiers properties).head?.toList.map .identifier ++
            (withTitle properties).2.toList.map (.attribute titleKey)) := by
  have writable := Property.writable_of_parse read
  cases isTag : Property.classNames properties with
  | cons tag others =>
    have notOpening := OpenFence.ofLine?_titledLine_of_tag indentBlank writable isTag
    simp [notOpening]
  | nil =>
    cases isTitle : (withTitle properties).2 with
    | none =>
      have notOpening := OpenFence.ofLine?_titledLine_of_no_title indentBlank ending isTag isTitle
      simp [notOpening, shownProperties_of_no_title isTag isTitle, shownText]
    | some title =>
      have opening :=
        OpenFence.ofLine?_titledLine_of_title indentBlank oneLine ending read isTag isTitle
      rw [opening]
      constructor
      · simp [shownText_eq_nil_iff, shownProperties]
      · intro found isFound
        cases isFound
        refine ⟨rfl, ?_⟩
        have readBack := Property.parse_join_toText (shownProperties properties (some title))
          (fun _ shown => writable_of_mem_shownProperties writable shown)
        simpa [shownFence, shownProperties, isTag] using readBack

/--
A fence is rendered as its indentation, three backticks, its tag and its other properties in braces,
which are read back whatever they hold. It makes no difference whether the title has been added to
the list.
-/
theorem showsBlock_renderOpening {text indent : Text} {properties : List Property}
    (read : Property.parse text = .ok properties) (oneLine : '\n' ∉ text)
    (indentBlank : indent.all Text.isIndent) :
    ∀ list ∈ [properties, (withTitle properties).1],
      ∃ after, ShowsBlock (renderOpening indent backticks list (withTitle properties).2) indent
        properties (withTitle properties).2 after := by
  intro list isList
  have writable := Property.writable_of_parse read
  have opens := @opens_titledLine ⟨indent, text, []⟩ properties indentBlank oneLine (.inl rfl) read
  have line : renderOpening indent backticks list (withTitle properties).2 =
      indent ++ backticks ++ (Property.classNames properties).head?.getD [] ++
        shownText (shownProperties properties (withTitle properties).2) := by
    simp only [List.mem_cons, List.not_mem_nil, or_false] at isList
    rcases isList with rfl | rfl <;> simp [renderOpening_eq]
  have isTitled : renderOpening indent backticks list (withTitle properties).2 =
      titledLine ⟨indent, text, []⟩ properties := by
    rw [line, titledLine, renderOpening_eq]
    simp
  refine ⟨shownText (shownProperties properties (withTitle properties).2), line, ?_, ?_, ?_⟩
  · apply shows_shownText
    intro property shown
    exact writable_of_mem_shownProperties writable shown
  · rw [isTitled]
    exact opens.1
  · rw [isTitled]
    exact opens.2

/-- A title with a quote and a brace, on a block without classes. -/
theorem showsBlock_renderOpening_braced :
    ∃ text properties, text = "#a title=\"\\\"\x7d\"".toList ∧
      Property.parse text = .ok properties ∧ '\n' ∉ text ∧ "\t".toList.all Text.isIndent ∧
      ∀ list ∈ [properties, (withTitle properties).1],
        ∃ after, ShowsBlock (renderOpening "\t".toList backticks list (withTitle properties).2)
          "\t".toList properties (withTitle properties).2 after := by
  have read : Property.parse "#a title=\"\\\"\x7d\"".toList =
      .ok [.identifier "a".toList, .attribute "title".toList "\"\x7d".toList] := by
    decide +kernel
  exact ⟨_, _, rfl, read, by decide, by decide,
    showsBlock_renderOpening read (by decide) (by decide)⟩

end LiterateMarkdown.Fence
