import LiterateMarkdown.Text.Basic

/-!
# Fence lines

Lines that begin or end a region of a page: fences of three backticks, with or without a property
list in braces, and the tilde fences of verbatim regions. Each kind is recognised from the start of
the line to its end.

An opening fence with properties decomposes in one way only: the properties reach from the first
brace after the backticks to the last closing brace of the line (`OpenFence.ofLine?_toLine`).
-/

namespace LiterateMarkdown

/-- The three backticks of a fence. -/
def backticks : Text :=
  "```".toList

/-- An opening fence that carries a property list. -/
structure OpenFence where
  /-- The spaces and tabs before the backticks. -/
  indent : Text
  /-- What stands between the braces. -/
  properties : Text
  /-- The carriage return that ends the line, if it has one. -/
  lineEnding : Text
  deriving DecidableEq, Repr

namespace OpenFence

/-- The line ending after the closing brace, where only spaces, tabs and it may stand. -/
def lineEnding? (tail : Text) : Option Text :=
  match tail.dropWhile Text.isIndent with
  | [] => some []
  | ['\r'] => some ['\r']
  | _ => none

/-- Recognise an opening fence with properties. -/
def ofLine? (line : Text) : Option OpenFence := do
  let afterFence ← Text.after? backticks (line.dropWhile Text.isIndent)
  let afterBrace ← Text.after? ['\x7b'] (afterFence.dropWhile Text.isIndent)
  let (properties, tail) ← Text.splitAtLast '\x7d' afterBrace
  let lineEnding ← lineEnding? tail
  if '\n' ∈ properties then none
  else some ⟨line.takeWhile Text.isIndent, properties, lineEnding⟩

/-- The line of an opening fence, with the given spaces and tabs inside it. -/
def toLine (fence : OpenFence) (beforeBrace afterBrace : Text) : Text :=
  fence.indent ++ backticks ++ beforeBrace ++ '\x7b' :: fence.properties ++
    '\x7d' :: afterBrace ++ fence.lineEnding

private theorem takeWhile_dropWhile_append_cons {blanks : Text} (c : Char) (rest : Text)
    (allIndent : blanks.all Text.isIndent) (other : Text.isIndent c = false) :
    (blanks ++ c :: rest).takeWhile Text.isIndent = blanks ∧
      (blanks ++ c :: rest).dropWhile Text.isIndent = c :: rest := by
  induction blanks with
  | nil => simp [other]
  | cons first blanks ih =>
    simp only [List.all_cons, Bool.and_eq_true] at allIndent
    simp [allIndent.1, ih allIndent.2]

/-- Recognising a written opening fence gives the fence back. -/
theorem ofLine?_toLine (fence : OpenFence) {beforeBrace afterBrace : Text}
    (indentBlank : fence.indent.all Text.isIndent) (beforeBlank : beforeBrace.all Text.isIndent)
    (afterBlank : afterBrace.all Text.isIndent) (oneLine : '\n' ∉ fence.properties)
    (ending : fence.lineEnding = [] ∨ fence.lineEnding = ['\r']) :
    ofLine? (fence.toLine beforeBrace afterBrace) = some fence := by
  obtain ⟨indent, properties, lineEnding⟩ := fence
  simp only at indentBlank beforeBlank afterBlank oneLine ending
  have first := takeWhile_dropWhile_append_cons '`'
    ("``".toList ++ (beforeBrace ++ '\x7b' :: (properties ++
      '\x7d' :: (afterBrace ++ lineEnding)))) indentBlank (by decide)
  have second := takeWhile_dropWhile_append_cons '\x7b'
    (properties ++ '\x7d' :: (afterBrace ++ lineEnding)) beforeBlank (by decide)
  have line : (⟨indent, properties, lineEnding⟩ : OpenFence).toLine beforeBrace afterBrace
      = indent ++ '`' :: ("``".toList ++ (beforeBrace ++ '\x7b' :: (properties ++
        '\x7d' :: (afterBrace ++ lineEnding)))) := by
    simp [toLine, backticks]
  have fenceStart : Text.after? backticks ('`' :: ("``".toList ++ (beforeBrace ++ '\x7b' ::
      (properties ++ '\x7d' :: (afterBrace ++ lineEnding))))) = some (beforeBrace ++ '\x7b' ::
        (properties ++ '\x7d' :: (afterBrace ++ lineEnding))) := by
    simp [backticks, Text.after?]
  have noBrace : '\x7d' ∉ afterBrace ++ lineEnding := by
    intro present
    rcases List.mem_append.mp present with inBlanks | inEnding
    · have := List.all_eq_true.mp afterBlank _ inBlanks
      revert this
      decide
    · rcases ending with none | carriageReturn <;> simp_all
  have tail : lineEnding? (afterBrace ++ lineEnding) = some lineEnding := by
    have blanksDropped : ∀ rest : Text, (afterBrace ++ rest).dropWhile Text.isIndent
        = rest.dropWhile Text.isIndent := fun rest =>
      List.dropWhile_append_of_pos fun c present => List.all_eq_true.mp afterBlank c present
    rcases ending with none | carriageReturn
    · subst none
      have allDropped : afterBrace.dropWhile Text.isIndent = [] := by
        simpa using blanksDropped []
      simp [lineEnding?, allDropped]
    · subst carriageReturn
      have toReturn : (['\r'] : Text).dropWhile Text.isIndent = ['\r'] := by decide
      simp [lineEnding?, blanksDropped, toReturn]
  simp only [ofLine?, line, first.1, first.2, fenceStart, second.2, bind, Option.bind,
    Text.after?, ↓reduceIte, Text.splitAtLast_append_cons _ _ noBrace, tail]
  simp [oneLine]

end OpenFence

namespace Fence

/-- A line that begins a verbatim region. -/
def startsVerbatim (line : Text) : Bool :=
  match Text.after? "~~~markdown".toList line with
  | some rest => rest.all Text.isBlank
  | none => false

/-- A line that ends a verbatim region. -/
def endsVerbatim (line : Text) : Bool :=
  match Text.after? "~~~".toList line with
  | some rest => rest.all Text.isBlank
  | none => false

/-- A line that begins with backticks, white space before them aside. -/
def isFence (line : Text) : Bool :=
  (Text.after? backticks (line.dropWhile Text.isBlank)).isSome

/-- A line that closes a fenced block: backticks and white space. -/
def isClosing (line : Text) : Bool :=
  match Text.after? backticks (line.dropWhile Text.isBlank) with
  | some rest => rest.all Text.isBlank
  | none => false

theorem isFence_of_isClosing {line : Text} (closes : isClosing line) : isFence line := by
  unfold isClosing at closes
  unfold isFence
  split at closes
  · simp [*]
  · contradiction

end Fence

end LiterateMarkdown
