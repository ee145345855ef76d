import LiterateMarkdown.Property.Basic
import LiterateMarkdown.Property.Token

/-!
# Reading property lists

A property list is read from its tokens. Braces and white space are skipped, so the text may be
given with or without its braces. An attribute takes its value from the token after the key, white
space between them being allowed.
-/

namespace LiterateMarkdown

/-- Why a text is not a property list. -/
inductive PropertyError where
  /-- `text`, at the byte `offset`, cannot stand where it stands. -/
  | unexpected (text : Text) (offset : Nat)
  /-- No value follows the attribute `key`. -/
  | missingValue (key : Text)
  deriving DecidableEq, Repr

/-- The wording of a property error. -/
def PropertyError.message : PropertyError → Text
  | unexpected text offset =>
    "unexpected `".toList ++ text ++ "` at offset ".toList ++ Text.ofNat offset ++
      " in code block properties".toList
  | missingValue key => "attribute `".toList ++ key ++ "` has no value".toList

namespace Property

/-- What stands between quotes with its escapes resolved. -/
def unescape : Text → Text
  | [] => []
  | ['\\'] => []
  | '\\' :: escaped :: rest => escaped :: unescape rest
  | c :: rest => c :: unescape rest

/-- The value that a token stands for after a key. -/
def tokenValue? (token : Token) : Option Text :=
  match token.kind with
  | some .quoted => some (unescape token.text.tail.dropLast)
  | some .bare | some .identifier | some .className => some token.text
  | _ => none

/-- Read properties from tokens other than white space. -/
def ofTokens : List Token → Except PropertyError (List Property)
  | [] => .ok []
  | token :: rest =>
    match token.kind with
    | some .leftBrace | some .rightBrace => ofTokens rest
    | some .identifier => (ofTokens rest).map (.identifier token.text.tail :: ·)
    | some .className => (ofTokens rest).map (.className token.text.tail :: ·)
    | some .key =>
      match rest with
      | [] => .error (.missingValue token.text.dropLast)
      | value :: rest =>
        match tokenValue? value with
        | some value => (ofTokens rest).map (.attribute token.text.dropLast value :: ·)
        | none => .error (.missingValue token.text.dropLast)
    | _ => .error (.unexpected token.text token.offset)

/-- Read the inside of a fence's braces, or the braces with it. -/
def parse (text : Text) : Except PropertyError (List Property) :=
  ofTokens ((Token.lex text).filter (·.kind ≠ some .whitespace))

@[simp]
theorem unescape_flatMap_escape (value : Text) : unescape (value.flatMap escape) = value := by
  induction value with
  | nil => rfl
  | cons c rest ih =>
    by_cases isBackslash : c = '\\'
    · simp [escape, isBackslash, unescape, ih]
    · by_cases isQuote : c = '"'
      · simp [escape, isQuote, unescape, ih]
      · have plain : escape c = [c] := by simp [escape, isBackslash, isQuote]
        rw [List.flatMap_cons, plain, List.singleton_append, unescape.eq_4, ih]
        · intro isBackslash' _
          exact isBackslash isBackslash'
        · intro _ _ isBackslash'
          exact absurd isBackslash' isBackslash

end Property

end LiterateMarkdown
