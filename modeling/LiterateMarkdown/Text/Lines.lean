import LiterateMarkdown.Text.Basic

/-!
# Lines of a text

A text is a sequence of lines and the knowledge whether its last line was ended by a newline. A
carriage return stays on its line, so pages with CRLF line endings survive a round trip. Reading a
text as lines and writing them again gives the text back (`toText_ofText`).
-/

namespace LiterateMarkdown

/-- The lines of a text. -/
structure Lines where
  items : List Text
  /-- Whether the text ends in a newline. -/
  endsWithNewline : Bool
  deriving DecidableEq, Repr

namespace Lines

/-- The lines of a text, without the newlines that end them. -/
def split : Text → List Text
  | [] => []
  | c :: rest =>
    if c = '\n' then [] :: split rest
    else
      match split rest with
      | [] => [[c]]
      | line :: more => (c :: line) :: more

/-- Read a text as lines. -/
def ofText (text : Text) : Lines :=
  ⟨split text, text.getLast? = some '\n'⟩

/-- Write lines as a text. -/
def toText (lines : Lines) : Text :=
  Text.join ['\n'] lines.items ++ if lines.endsWithNewline then ['\n'] else []

theorem split_ne_nil_of_ne_nil {text : Text} (nonempty : text ≠ []) : split text ≠ [] := by
  cases text with
  | nil => contradiction
  | cons c rest =>
    simp only [split]
    split
    · simp
    · split <;> simp

/-- Reading a text as lines and writing them again gives the text back. -/
@[simp]
theorem toText_ofText (text : Text) : (ofText text).toText = text := by
  induction text with
  | nil => rfl
  | cons c rest ih =>
    cases rest with
    | nil => by_cases isNewline : c = '\n' <;> simp [ofText, toText, split, Text.join, isNewline]
    | cons d rest =>
      have sameEnd : (ofText (c :: d :: rest)).endsWithNewline
          = (ofText (d :: rest)).endsWithNewline := by simp [ofText]
      obtain ⟨line, more, splitRest⟩ := List.exists_cons_of_ne_nil
        (split_ne_nil_of_ne_nil (List.cons_ne_nil d rest))
      have rejoined : Text.join ['\n'] (split (c :: d :: rest))
          = c :: Text.join ['\n'] (split (d :: rest)) := by
        by_cases isNewline : c = '\n'
        · rw [split, if_pos isNewline, splitRest, isNewline]
          rfl
        · rw [split, if_neg isNewline, splitRest]
          cases more <;> simp [Text.join]
      unfold toText at ih ⊢
      rw [sameEnd, show (ofText (c :: d :: rest)).items = split (c :: d :: rest) from rfl,
        rejoined, List.cons_append]
      exact congrArg (c :: ·) ih

end Lines

end LiterateMarkdown
