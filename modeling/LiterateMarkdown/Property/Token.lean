import LiterateMarkdown.Text.Basic

/-!
# Tokens of a property list

A property list is cut into tokens, longest match first. Every character of the text belongs to
exactly one token, white space and text that fits no kind included, so the texts of the tokens put
together are the text (`flatten_lex`). An offset counts bytes of UTF-8 before the token.
-/

namespace LiterateMarkdown

/-- What a token is. -/
inductive TokenKind where
  /-- Spaces, tabs, carriage returns and newlines. -/
  | whitespace
  /-- `#name` -/
  | identifier
  /-- `.name` -/
  | className
  /-- `key=` -/
  | key
  /-- `"value"`, where a backslash escapes the character after it. -/
  | quoted
  /-- Any other run of word characters. -/
  | bare
  | leftBrace
  | rightBrace
  deriving DecidableEq, Repr

/-- A token, which has no kind when its text fits none. -/
structure Token where
  kind : Option TokenKind
  text : Text
  /-- The number of bytes before the token. -/
  offset : Nat
  deriving DecidableEq, Repr

namespace Token

/-- A character that separates tokens. -/
def isSeparator (c : Char) : Bool :=
  c = ' ' || c = '\t' || c = '\r' || c = '\n'

/-- A character of a name or of an unquoted value. -/
def isWord (c : Char) : Bool :=
  !Text.isBlank c && c ≠ '\x7b' && c ≠ '\x7d' && c ≠ '=' && c ≠ '"'

/-- A letter of the Latin alphabet or an underscore, with which a key begins. -/
def isKeyStart (c : Char) : Bool :=
  c.isAlpha || c = '_'

/-- A letter of the Latin alphabet, a digit, an underscore or a hyphen. -/
def isKeyRest (c : Char) : Bool :=
  c.isAlphanum || c = '_' || c = '-'

/-- Whether the word may stand before `=` as the name of an attribute. -/
def isKeyName : Text → Bool
  | [] => false
  | first :: rest => isKeyStart first && rest.all isKeyRest

/--
The longest beginning of the text that can stand between quotes, and what follows it. A backslash
takes the next character with it, unless that is a newline or missing.
-/
def quotedBody : Text → Text × Text
  | [] => ([], [])
  | '"' :: rest => ([], '"' :: rest)
  | ['\\'] => ([], ['\\'])
  | '\\' :: escaped :: rest =>
    if escaped = '\n' then ([], '\\' :: escaped :: rest)
    else
      let (body, remainder) := quotedBody rest
      ('\\' :: escaped :: body, remainder)
  | c :: rest =>
    let (body, remainder) := quotedBody rest
    (c :: body, remainder)

/-- A first token's kind and text, and the text after it. -/
structure Cut where
  kind : Option TokenKind
  lexeme : Text
  remainder : Text

/-- A sigil with the word after it, or without a kind when no word follows. -/
def cutSigil (kind : TokenKind) (sigil : Char) (rest : Text) : Cut :=
  match rest.takeWhile isWord with
  | [] => ⟨none, [sigil], rest⟩
  | word => ⟨some kind, sigil :: word, rest.dropWhile isWord⟩

/-- A quoted value, or without a kind what could have begun one. -/
def cutQuoted (rest : Text) : Cut :=
  match quotedBody rest with
  | (body, '"' :: remainder) => ⟨some .quoted, '"' :: body ++ ['"'], remainder⟩
  | (body, remainder) => ⟨none, '"' :: body, remainder⟩

/-- A key, if the word is a key's name and `=` follows it, and else a bare word. -/
def cutWord (text : Text) : Cut :=
  let word := text.takeWhile isWord
  match text.dropWhile isWord with
  | '=' :: remainder =>
    if isKeyName word then ⟨some .key, word ++ ['='], remainder⟩
    else ⟨some .bare, word, '=' :: remainder⟩
  | remainder => ⟨some .bare, word, remainder⟩

/-- The longest token at the beginning of the text `first :: rest`. -/
def cut (first : Char) (rest : Text) : Cut :=
  if first = '\x7b' then ⟨some .leftBrace, [first], rest⟩
  else if first = '\x7d' then ⟨some .rightBrace, [first], rest⟩
  else if first = '#' then cutSigil .identifier first rest
  else if first = '.' then cutSigil .className first rest
  else if first = '"' then cutQuoted rest
  else if isSeparator first then
    ⟨some .whitespace, first :: rest.takeWhile isSeparator, rest.dropWhile isSeparator⟩
  else if isWord first then cutWord (first :: rest)
  else ⟨none, [first], rest⟩

theorem quotedBody_append (text : Text) :
    (quotedBody text).1 ++ (quotedBody text).2 = text := by
  fun_induction quotedBody text <;> simp_all

theorem cutSigil_append (kind : TokenKind) (sigil : Char) (rest : Text) :
    (cutSigil kind sigil rest).lexeme ++ (cutSigil kind sigil rest).remainder = sigil :: rest := by
  unfold cutSigil
  split
  · simp
  · simp [List.takeWhile_append_dropWhile]

theorem cutQuoted_append (rest : Text) :
    (cutQuoted rest).lexeme ++ (cutQuoted rest).remainder = '"' :: rest := by
  unfold cutQuoted
  have whole := quotedBody_append rest
  split <;> simp_all

theorem cutWord_append (text : Text) :
    (cutWord text).lexeme ++ (cutWord text).remainder = text := by
  have whole := List.takeWhile_append_dropWhile (p := isWord) (l := text)
  simp only [cutWord]
  split
  · rename_i remainder isEquals
    split <;> simp_all
  · exact whole

theorem cutWord_lexeme_ne_nil {first : Char} (rest : Text) (word : isWord first) :
    (cutWord (first :: rest)).lexeme ≠ [] := by
  simp only [cutWord]
  split
  · split <;> simp [word]
  · simp [word]

/-- The first token and what follows it are the text. -/
theorem cut_append (first : Char) (rest : Text) :
    (cut first rest).lexeme ++ (cut first rest).remainder = first :: rest := by
  unfold cut
  split
  · rfl
  split
  · rfl
  split
  · exact cutSigil_append ..
  split
  · exact cutSigil_append ..
  split
  · rename_i isQuote
    rw [cutQuoted_append, isQuote]
  split
  · simp [List.takeWhile_append_dropWhile]
  split
  · exact cutWord_append ..
  · rfl

/-- A token is never empty. -/
theorem cut_lexeme_ne_nil (first : Char) (rest : Text) : (cut first rest).lexeme ≠ [] := by
  unfold cut
  split
  · simp
  split
  · simp
  split
  · unfold cutSigil
    split <;> simp
  split
  · unfold cutSigil
    split <;> simp
  split
  · unfold cutQuoted
    split <;> simp
  split
  · simp
  split
  · rename_i word
    exact cutWord_lexeme_ne_nil rest word
  · simp

theorem length_cut_remainder_lt (first : Char) (rest : Text) :
    (cut first rest).remainder.length < (first :: rest).length := by
  have whole := congrArg List.length (cut_append first rest)
  have nonempty := List.length_pos_iff.mpr (cut_lexeme_ne_nil first rest)
  simp only [List.length_append] at whole
  omega

/-- The tokens of a text that begins at the byte `offset`. -/
def lexFrom (offset : Nat) (text : Text) : List Token :=
  match text with
  | [] => []
  | first :: rest =>
    let next := cut first rest
    ⟨next.kind, next.lexeme, offset⟩ ::
      lexFrom (offset + Text.byteLength next.lexeme) next.remainder
termination_by text.length
decreasing_by exact length_cut_remainder_lt first rest

/-- The tokens of a text. -/
def lex (text : Text) : List Token :=
  lexFrom 0 text

theorem flatten_lexFrom (offset : Nat) (text : Text) :
    (lexFrom offset text).flatMap (·.text) = text := by
  fun_induction lexFrom offset text with
  | case1 => rfl
  | case2 offset first rest next ih =>
    rw [List.flatMap_cons, ih]
    exact cut_append first rest

/-- The texts of the tokens put together are the text. -/
@[simp]
theorem flatten_lex (text : Text) : (lex text).flatMap (·.text) = text :=
  flatten_lexFrom 0 text

end Token

end LiterateMarkdown
