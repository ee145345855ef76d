import LiterateMarkdown.Fence.Title
import LiterateMarkdown.Proofs.Fence.LineKind
import LiterateMarkdown.Proofs.Property.WrittenForm
import LiterateMarkdown.Proofs.Text.Lines

/-!
# Rendered fences

A fence that was rendered with its title keeps its form when a page is read again. If the block has
a class, the class is the language tag and the line is no opening fence with properties any more. If
it has none, the line is read back as the properties that it shows, and rendering these gives the
line again. In neither case does the line begin a build artifact (`LineKind.ofLine_titledLine`).
-/

namespace LiterateMarkdown

namespace Fence

/-- The line that stands for an opening fence once its block has a title. -/
def titledLine (fence : OpenFence) (properties : List Property) : Text :=
  renderOpening fence.indent backticks (withTitle properties).1 (withTitle properties).2 ++
    fence.lineEnding

@[simp]
theorem classNames_withTitle (properties : List Property) :
    Property.classNames (withTitle properties).1 = Property.classNames properties := by
  unfold withTitle
  split
  · rfl
  split
  · simp [Property.classNames, Property.className?]
  · rfl

@[simp]
theorem identifiers_withTitle (properties : List Property) :
    Property.identifiers (withTitle properties).1 = Property.identifiers properties := by
  unfold withTitle
  split
  · rfl
  split
  · simp [Property.identifiers, Property.identifier?]
  · rfl

/-- A title is no class. -/
@[simp]
theorem hasClass_withTitle (properties : List Property) (name : Text) :
    Property.hasClass (withTitle properties).1 name = Property.hasClass properties name := by
  rw [Bool.eq_iff_iff, Property.hasClass_iff, Property.hasClass_iff, classNames_withTitle]

/-- A title is the value of no other attribute. -/
theorem firstValue?_withTitle (properties : List Property) {key : Text} (ne : titleKey ≠ key) :
    Property.firstValue? (withTitle properties).1 key = Property.firstValue? properties key := by
  cases given : Property.firstValue? properties titleKey with
  | some title => simp only [withTitle, given]
  | none =>
    cases made : synthesizedTitle properties with
    | none => simp only [withTitle, given, made]
    | some title =>
      simp only [withTitle, given, made]
      simp [Property.firstValue?, List.findSome?_append, Property.valueOf?, ne]

@[simp]
theorem shownProperties_withTitle (properties : List Property) (title : Option Text) :
    shownProperties (withTitle properties).1 title = shownProperties properties title := by
  simp [shownProperties]

/-- What a rendered fence has after its language tag. -/
def shownText : List Property → Text
  | [] => []
  | shown => ' ' :: '\x7b' :: Text.join [' '] (shown.map Property.toText) ++ ['\x7d']

theorem shownText_eq_nil_iff {shown : List Property} : shownText shown = [] ↔ shown = [] := by
  cases shown <;> simp [shownText]

theorem renderOpening_eq (indent fence : Text) (properties : List Property) (title : Option Text) :
    renderOpening indent fence properties title =
      indent ++ fence ++ (Property.classNames properties).head?.getD [] ++
        shownText (shownProperties properties title) := by
  simp only [renderOpening]
  cases shownProperties properties title <;> simp [shownText]

/-- A fence is rendered as its indentation, its backticks, its tag and what it shows in braces. -/
theorem titledLine_eq (fence : OpenFence) (properties : List Property) :
    titledLine fence properties = fence.indent ++ (backticks ++
      ((Property.classNames properties).head?.getD [] ++
        (shownText (shownProperties properties (withTitle properties).2) ++
          fence.lineEnding))) := by
  simp [titledLine, renderOpening_eq]

theorem mem_of_mem_identifiers {properties : List Property} {name : Text}
    (present : name ∈ Property.identifiers properties) : .identifier name ∈ properties := by
  rcases List.mem_filterMap.mp present with ⟨property, isProperty, isName⟩
  cases property <;> simp_all [Property.identifier?]

theorem mem_of_mem_classNames {properties : List Property} {name : Text}
    (present : name ∈ Property.classNames properties) : .className name ∈ properties := by
  rcases List.mem_filterMap.mp present with ⟨property, isProperty, isName⟩
  cases property <;> simp_all [Property.className?]

theorem mem_of_valueOf? {properties : List Property} {property : Property} {key value : Text}
    (present : property ∈ properties) (isValue : Property.valueOf? key property = some value) :
    .attribute key value ∈ properties := by
  cases property <;> simp_all [Property.valueOf?]

theorem mem_of_mem_values {properties : List Property} {key value : Text}
    (present : value ∈ Property.values properties key) : .attribute key value ∈ properties := by
  rcases List.mem_filterMap.mp present with ⟨property, isProperty, isValue⟩
  exact mem_of_valueOf? isProperty isValue

theorem writable_of_mem_shownProperties {properties : List Property} {title : Option Text}
    (writable : ∀ property ∈ properties, property.Writable) {property : Property}
    (shown : property ∈ shownProperties properties title) : property.Writable := by
  simp only [shownProperties, List.mem_append, List.mem_map] at shown
  rcases shown with (⟨name, isName, rfl⟩ | ⟨name, isName, rfl⟩) | ⟨value, _, rfl⟩
  · have isFirst : name ∈ (Property.identifiers properties).head? := by simpa using isName
    exact writable _ (mem_of_mem_identifiers (List.mem_of_mem_head? isFirst))
  · exact writable _ (mem_of_mem_classNames (List.mem_of_mem_tail isName))
  · exact (by decide : Token.isKeyName titleKey)

theorem newline_not_mem_synthesizedTitle {properties : List Property} {title : Text}
    (inName : ∀ name ∈ Property.identifiers properties, '\n' ∉ name)
    (inFile : ∀ file ∈ Property.values properties fileKey, '\n' ∉ file)
    (made : synthesizedTitle properties = some title) : '\n' ∉ title := by
  simp only [synthesizedTitle] at made
  split at made
  · rename_i name file isName isFile
    rw [isName, List.forall_mem_singleton] at inName
    rw [isFile, List.forall_mem_singleton] at inFile
    rw [← Option.some.inj made]
    simp [inName, inFile]
  · rename_i name isName _
    rw [isName, List.forall_mem_singleton] at inName
    rw [← Option.some.inj made]
    simp [inName]
  · rename_i file _ isFile
    rw [isFile, List.forall_mem_singleton] at inFile
    rw [← Option.some.inj made]
    simp [inFile]
  · contradiction
  · rw [← Option.some.inj made]
    decide

/-- A title is written on one line, as the fence is that it belongs to. -/
theorem newline_not_mem_title {text title : Text} {properties : List Property}
    (read : Property.parse text = .ok properties) (oneLine : '\n' ∉ text)
    (isTitle : (withTitle properties).2 = some title) : '\n' ∉ title := by
  have inName : ∀ name ∈ Property.identifiers properties, '\n' ∉ name := by
    intro name present
    have writable := Property.writable_of_parse read _ (mem_of_mem_identifiers present)
    exact Property.newline_not_mem_of_all_isWord writable.2
  have inValue : ∀ key value, .attribute key value ∈ properties → '\n' ∉ value := by
    intro key value present inValue
    exact oneLine (Property.mem_of_mem_value_of_parse read present inValue)
  have inFile : ∀ file ∈ Property.values properties fileKey, '\n' ∉ file := by
    intro file present
    exact inValue fileKey file (mem_of_mem_values present)
  simp only [withTitle] at isTitle
  split at isTitle
  · rename_i given isGiven
    rw [← Option.some.inj isTitle]
    rcases List.exists_of_findSome?_eq_some isGiven with ⟨property, present, isValue⟩
    exact inValue titleKey given (mem_of_valueOf? present isValue)
  split at isTitle
  · rename_i made isMade
    rw [← Option.some.inj isTitle]
    exact newline_not_mem_synthesizedTitle inName inFile isMade
  · contradiction

theorem newline_not_mem_shownText {text : Text} {properties : List Property}
    (read : Property.parse text = .ok properties) (oneLine : '\n' ∉ text) :
    '\n' ∉ Text.join [' ']
      ((shownProperties properties (withTitle properties).2).map Property.toText) := by
  apply Text.not_mem_join (by decide)
  intro piece present
  rcases List.mem_map.mp present with ⟨property, shown, rfl⟩
  have writable := writable_of_mem_shownProperties (Property.writable_of_parse read) shown
  apply Property.newline_not_mem_toText writable
  rintro key value rfl
  simp only [shownProperties, List.mem_append, List.mem_map] at shown
  rcases shown with (⟨_, _, isAttribute⟩ | ⟨_, _, isAttribute⟩) | ⟨title, isTitle, isAttribute⟩
  · cases isAttribute
  · cases isAttribute
  · cases isAttribute
    exact newline_not_mem_title read oneLine (by simpa using isTitle)

/-- A rendered fence is one line. -/
theorem newline_not_mem_titledLine {line : Text} {fence : OpenFence} {properties : List Property}
    (found : OpenFence.ofLine? line = some fence)
    (read : Property.parse fence.properties = .ok properties) :
    '\n' ∉ titledLine fence properties := by
  rcases OpenFence.exists_toLine_of_ofLine? found with
    ⟨_, _, _, indentBlank, _, _, oneLine, ending⟩
  have inIndent : '\n' ∉ fence.indent := by
    intro present
    exact absurd (List.all_eq_true.mp indentBlank _ present) (by decide)
  have inEnding : '\n' ∉ fence.lineEnding := by
    rcases ending with none | carriageReturn
    · simp [none]
    · simp [carriageReturn]
  have inTag : '\n' ∉ (Property.classNames properties).head?.getD [] := by
    cases isTag : (Property.classNames properties).head? with
    | none => simp
    | some tag =>
      have writable := Property.writable_of_parse read _
        (mem_of_mem_classNames (List.mem_of_mem_head? isTag))
      exact Property.newline_not_mem_of_all_isWord writable.2
  have inShown := newline_not_mem_shownText read oneLine
  have inBackticks : '\n' ∉ backticks := by decide
  rw [titledLine_eq]
  simp only [List.mem_append, not_or]
  refine ⟨inIndent, inBackticks, inTag, ?_, inEnding⟩
  cases isShown : shownProperties properties (withTitle properties).2 with
  | nil => simp [shownText]
  | cons first more =>
    rw [isShown] at inShown
    simpa [shownText] using inShown

/-- What a block without classes shows is what is read from its rendered fence. -/
theorem shownProperties_of_title {properties : List Property} (title : Text)
    (classless : Property.classNames properties = []) :
    withTitle (shownProperties properties (some title)) =
        (shownProperties properties (some title), some title) ∧
      Property.classNames (shownProperties properties (some title)) = [] ∧
      shownProperties (shownProperties properties (some title)) (some title) =
        shownProperties properties (some title) := by
  have shown : shownProperties properties (some title) =
      (Property.identifiers properties).head?.toList.map .identifier ++
        [.attribute titleKey title] := by
    simp [shownProperties, classless]
  rw [shown]
  cases (Property.identifiers properties).head? with
  | none => exact ⟨rfl, rfl, rfl⟩
  | some name => exact ⟨rfl, rfl, rfl⟩

/-- A block that has no title shows neither an identifier nor a file. -/
theorem shownProperties_of_no_title {properties : List Property}
    (classless : Property.classNames properties = []) (untitled : (withTitle properties).2 = none) :
    shownProperties properties none = [] := by
  have anonymous : Property.identifiers properties = [] := by
    simp only [withTitle] at untitled
    split at untitled
    · contradiction
    split at untitled
    · contradiction
    · rename_i _ notMade
      simp only [synthesizedTitle] at notMade
      split at notMade <;> simp_all
  simp [shownProperties, anonymous, classless]

/-- The fence that shows a titled block without classes. -/
def shownFence (fence : OpenFence) (shown : List Property) : OpenFence :=
  ⟨fence.indent, Text.join [' '] (shown.map Property.toText), fence.lineEnding⟩

theorem titledLine_eq_toLine (fence : OpenFence) {properties : List Property} {title : Text}
    (classless : Property.classNames properties = [])
    (isTitle : (withTitle properties).2 = some title) :
    titledLine fence properties =
      (shownFence fence (shownProperties properties (some title))).toLine [' '] [] := by
  have nonempty : shownProperties properties (some title) ≠ [] := by simp [shownProperties]
  rcases List.exists_cons_of_ne_nil nonempty with ⟨first, more, isShown⟩
  rw [titledLine_eq, classless, isTitle, isShown]
  simp [shownFence, shownText, OpenFence.toLine]

theorem isFence_titledLine {line : Text} {fence : OpenFence}
    (found : OpenFence.ofLine? line = some fence) (properties : List Property) :
    isFence (titledLine fence properties) := by
  rcases OpenFence.exists_toLine_of_ofLine? found with ⟨_, _, _, indentBlank, _⟩
  rw [titledLine_eq, isFence, after?_backticks_of_indent _ indentBlank]
  rfl

theorem isClosing_of_bare {indent lineEnding : Text} (indentBlank : indent.all Text.isIndent)
    (ending : lineEnding = [] ∨ lineEnding = ['\r']) :
    isClosing (indent ++ (backticks ++ lineEnding)) := by
  rw [isClosing, after?_backticks_of_indent _ indentBlank]
  rcases ending with rfl | rfl
  · decide
  · decide

end Fence

namespace OpenFence

/-- After a language tag no properties are looked for. -/
theorem ofLine?_of_tag {indent tag : Text} (rest : Text) (indentBlank : indent.all Text.isIndent)
    (nonempty : tag ≠ []) (allWord : tag.all Token.isWord) :
    ofLine? (indent ++ (backticks ++ (tag ++ rest))) = none := by
  rcases List.exists_cons_of_ne_nil nonempty with ⟨first, more, rfl⟩
  rw [List.all_cons, Bool.and_eq_true] at allWord
  have notBrace : '\x7b' ≠ first := by
    rintro rfl
    exact absurd allWord.1 (by decide)
  have notIndent : Text.isIndent first = false := by
    cases indents : Text.isIndent first with
    | false => rfl
    | true =>
      have blank := Text.isBlank_of_isIndent indents
      have word := allWord.1
      simp [Token.isWord, blank] at word
  have atBackticks : (backticks ++ (first :: more ++ rest)).dropWhile Text.isIndent =
      backticks ++ (first :: more ++ rest) := rfl
  rw [ofLine?, List.dropWhile_append_of_pos (List.all_eq_true.mp indentBlank), atBackticks,
    Text.after?_append]
  simp [Text.after?, notIndent, notBrace]

section

variable {fence : OpenFence} {properties : List Property}

theorem ofLine?_titledLine_of_tag {tag : Text} {others : List Text}
    (indentBlank : fence.indent.all Text.isIndent)
    (writable : ∀ property ∈ properties, property.Writable)
    (isTag : Property.classNames properties = tag :: others) :
    ofLine? (Fence.titledLine fence properties) = none := by
  have present : tag ∈ Property.classNames properties := by simp [isTag]
  have tagWritable := writable _ (Fence.mem_of_mem_classNames present)
  rw [Fence.titledLine_eq, isTag]
  exact ofLine?_of_tag _ indentBlank tagWritable.1 tagWritable.2

theorem ofLine?_titledLine_of_no_title (indentBlank : fence.indent.all Text.isIndent)
    (ending : fence.lineEnding = [] ∨ fence.lineEnding = ['\r'])
    (classless : Property.classNames properties = [])
    (untitled : (Fence.withTitle properties).2 = none) :
    ofLine? (Fence.titledLine fence properties) = none := by
  rw [Fence.titledLine_eq, classless, untitled,
    Fence.shownProperties_of_no_title classless untitled]
  exact ofLine?_of_isClosing (Fence.isClosing_of_bare indentBlank ending)

theorem ofLine?_titledLine_of_title {title : Text} (indentBlank : fence.indent.all Text.isIndent)
    (oneLine : '\n' ∉ fence.properties)
    (ending : fence.lineEnding = [] ∨ fence.lineEnding = ['\r'])
    (read : Property.parse fence.properties = .ok properties)
    (classless : Property.classNames properties = [])
    (isTitle : (Fence.withTitle properties).2 = some title) :
    ofLine? (Fence.titledLine fence properties) =
      some (Fence.shownFence fence (Fence.shownProperties properties (some title))) := by
  let shown := Fence.shownProperties properties (some title)
  have shownOneLine : '\n' ∉ (Fence.shownFence fence shown).properties := by
    have inShown := Fence.newline_not_mem_shownText read oneLine
    rw [isTitle] at inShown
    exact inShown
  rw [Fence.titledLine_eq_toLine fence classless isTitle]
  exact ofLine?_toLine (Fence.shownFence fence shown) indentBlank
    (show ([' '] : Text).all Text.isIndent by decide)
    (show ([] : Text).all Text.isIndent by decide) shownOneLine ending

end

/--
A rendered fence carries no properties any more, or such as are rendered as the same line and hold
no class.
-/
theorem ofLine?_titledLine {line : Text} {fence : OpenFence} {properties : List Property}
    (found : ofLine? line = some fence)
    (read : Property.parse fence.properties = .ok properties) :
    ofLine? (Fence.titledLine fence properties) = none ∨
      ∃ again shown, ofLine? (Fence.titledLine fence properties) = some again ∧
        Property.parse again.properties = .ok shown ∧
        Fence.titledLine again shown = Fence.titledLine fence properties ∧
        Property.classNames shown = [] := by
  rcases exists_toLine_of_ofLine? found with ⟨_, _, _, indentBlank, _, _, oneLine, ending⟩
  have writable := Property.writable_of_parse read
  cases isTag : Property.classNames properties with
  | cons tag others => exact .inl (ofLine?_titledLine_of_tag indentBlank writable isTag)
  | nil =>
    cases isTitle : (Fence.withTitle properties).2 with
    | none => exact .inl (ofLine?_titledLine_of_no_title indentBlank ending isTag isTitle)
    | some title =>
      right
      let shown := Fence.shownProperties properties (some title)
      rcases Fence.shownProperties_of_title title isTag with ⟨titled, classless, same⟩
      refine ⟨Fence.shownFence fence shown, shown,
        ofLine?_titledLine_of_title indentBlank oneLine ending read isTag isTitle, ?_, ?_,
        classless⟩
      · apply Property.parse_join_toText
        intro property isShown
        exact Fence.writable_of_mem_shownProperties writable isShown
      · rw [Fence.titledLine_eq_toLine fence isTag isTitle,
          Fence.titledLine_eq_toLine _ classless (by rw [titled]), same]
        rfl

end OpenFence

/--
A rendered fence is read back as no opening fence at all, or as one without classes that is rendered
as the same line.
-/
theorem LineKind.ofLine_titledLine {line : Text} {fence : OpenFence} {properties : List Property}
    (found : OpenFence.ofLine? line = some fence)
    (read : Property.parse fence.properties = .ok properties) :
    ofLine (Fence.titledLine fence properties) = ordinary ∨
      ofLine (Fence.titledLine fence properties) = closing ∨
      ∃ again shown, ofLine (Fence.titledLine fence properties) = opening again shown ∧
        Fence.titledLine again shown = Fence.titledLine fence properties ∧
        Property.classNames shown = [] := by
  rcases OpenFence.ofLine?_titledLine found read with
    notOpening | ⟨again, shown, opens, parsed, sameLine, classless⟩
  · rw [ofLine_of_isFence (Fence.isFence_titledLine found properties), notOpening]
    cases Fence.isClosing (Fence.titledLine fence properties) with
    | false => exact .inl rfl
    | true => exact .inr (.inl rfl)
  · right
    right
    exact ⟨again, shown, ofLine_eq_opening_iff.mpr ⟨opens, parsed⟩, sameLine, classless⟩

end LiterateMarkdown
