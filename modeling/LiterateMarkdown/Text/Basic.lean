/-!
# Text

Pages, property lists and configuration files are read character by character, so text is a list of
characters throughout the library. This file holds the operations on text that several parts share:
white space, removing a known beginning or a final carriage return, and joining pieces.
-/

namespace LiterateMarkdown

/-- A piece of text, character by character. -/
abbrev Text := List Char

namespace Text

/-- White space in the sense of the Unicode property `White_Space`. -/
def isBlank (c : Char) : Bool :=
  ('\t' ≤ c && c ≤ '\r') || c = ' ' || c = '\u0085' || c = '\u00a0' || c = '\u1680' ||
    ('\u2000' ≤ c && c ≤ '\u200a') || c = '\u2028' || c = '\u2029' || c = '\u202f' ||
    c = '\u205f' || c = '\u3000'

/-- A space or a tab, the only characters that indent a fence. -/
def isIndent (c : Char) : Bool :=
  c = ' ' || c = '\t'

/-- What follows `start` in the text, if the text begins with it. -/
def after? : (start text : Text) → Option Text
  | [], text => some text
  | _ :: _, [] => none
  | expected :: start, actual :: text => if expected = actual then after? start text else none

/-- The line without `indent`, if it begins with it, and else the line as it is. -/
def dedent (indent line : Text) : Text :=
  (after? indent line).getD line

/-- The line without its final carriage return, if it has one. -/
def dropCarriageReturn (line : Text) : Text :=
  if line.getLast? = some '\r' then line.dropLast else line

/-- The pieces in order, with `separator` between neighbours. -/
def join (separator : Text) : List Text → Text
  | [] => []
  | [piece] => piece
  | piece :: next :: rest => piece ++ separator ++ join separator (next :: rest)

/-- The pieces between the occurrences of `separator`, one more than there are of these. -/
def splitOn (separator : Char) : Text → List Text
  | [] => [[]]
  | c :: rest =>
    if c = separator then [] :: splitOn separator rest
    else
      match splitOn separator rest with
      | [] => [[c]]
      | piece :: more => (c :: piece) :: more

/-- The text with each occurrence of the character `old` replaced by `new`. -/
def replaceChar (old : Char) (new : Text) (text : Text) : Text :=
  text.flatMap fun c => if c = old then new else [c]

/-- What stands before the last occurrence of `c`, and what stands after it. -/
def splitAtLast (c : Char) : Text → Option (Text × Text)
  | [] => none
  | first :: rest =>
    match splitAtLast c rest with
    | some (before, after) => some (first :: before, after)
    | none => if first = c then some ([], rest) else none

/-- The decimal digits of a number. -/
def ofNat (number : Nat) : Text :=
  Nat.toDigits 10 number

/-- The number of bytes that the text takes in UTF-8. -/
def byteLength : Text → Nat
  | [] => 0
  | c :: rest => c.utf8Size + byteLength rest

/-- Whether a text comes before another one, or is the same, in the order of its characters. -/
def isUpTo : Text → Text → Bool
  | [], _ => true
  | _ :: _, [] => false
  | first :: left, second :: right =>
    if first = second then isUpTo left right else first.toNat < second.toNat

theorem after?_eq_some_iff {start text rest : Text} :
    after? start text = some rest ↔ text = start ++ rest := by
  induction start generalizing text with
  | nil => simp [after?]
  | cons expected start ih =>
    cases text with
    | nil => simp [after?]
    | cons actual text =>
      by_cases same : expected = actual
      · simp [after?, same, ih]
      · simp [after?, same, Ne.symm same]

@[simp]
theorem after?_append (start rest : Text) : after? start (start ++ rest) = some rest :=
  after?_eq_some_iff.mpr rfl

@[simp]
theorem dedent_append (indent line : Text) : dedent indent (indent ++ line) = line := by
  simp [dedent]

@[simp]
theorem dropCarriageReturn_append (line : Text) : dropCarriageReturn (line ++ ['\r']) = line := by
  simp [dropCarriageReturn]

theorem splitOn_ne_nil (separator : Char) (text : Text) : splitOn separator text ≠ [] := by
  cases text with
  | nil => simp [splitOn]
  | cons c rest =>
    simp only [splitOn]
    split
    · simp
    · split <;> simp

/-- Joining the pieces of a text gives the text back. -/
@[simp]
theorem join_splitOn (separator : Char) (text : Text) :
    join [separator] (splitOn separator text) = text := by
  induction text with
  | nil => rfl
  | cons c rest ih =>
    obtain ⟨piece, more, pieces⟩ := List.exists_cons_of_ne_nil (splitOn_ne_nil separator rest)
    rw [pieces] at ih
    by_cases isSeparator : c = separator
    · rw [splitOn, if_pos isSeparator, pieces, isSeparator]
      simpa [join] using ih
    · rw [splitOn, if_neg isSeparator, pieces]
      cases more with
      | nil => simpa [join] using ih
      | cons next more => simpa [join] using ih

@[simp]
theorem byteLength_append (first second : Text) :
    byteLength (first ++ second) = byteLength first + byteLength second := by
  induction first with
  | nil => simp [byteLength]
  | cons c first ih => simp [byteLength, ih, Nat.add_assoc]

theorem eq_of_splitAtLast {c : Char} {text before after : Text}
    (found : splitAtLast c text = some (before, after)) : text = before ++ c :: after := by
  induction text generalizing before after with
  | nil => simp [splitAtLast] at found
  | cons first rest ih =>
    simp only [splitAtLast] at found
    split at found
    · rename_i earlier later isSome
      simp only [Option.some.injEq, Prod.mk.injEq] at found
      obtain ⟨rfl, rfl⟩ := found
      simp [ih isSome]
    · split at found
      · simp only [Option.some.injEq, Prod.mk.injEq] at found
        obtain ⟨rfl, rfl⟩ := found
        simp_all
      · simp at found

theorem splitAtLast_append_cons {c : Char} (before after : Text) (absent : c ∉ after) :
    splitAtLast c (before ++ c :: after) = some (before, after) := by
  have none_of_absent : ∀ text : Text, c ∉ text → splitAtLast c text = none := by
    intro text missing
    induction text with
    | nil => rfl
    | cons first rest ih =>
      simp only [List.mem_cons, not_or] at missing
      simp [splitAtLast, ih missing.2, Ne.symm missing.1]
  induction before with
  | nil => simp [splitAtLast, none_of_absent after absent]
  | cons first rest ih => simp [splitAtLast, ih]

end Text

end LiterateMarkdown
