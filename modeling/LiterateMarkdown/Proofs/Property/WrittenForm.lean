import LiterateMarkdown.Proofs.Property.LongestMatch
import LiterateMarkdown.Property.Parser

/-!
# Written property lists

A property list is written as its properties with spaces between them. Reading the written form
gives the list back (`parse_join_toText`), whatever characters the values of its attributes hold:
the quoted form of a value ends at its own closing quote, and no token runs into the next one.

Conversely, every list that was read can be written (`writable_of_parse`): its names are words, its
keys are names of keys, and its values hold no character that the text did not hold.
-/

namespace LiterateMarkdown

namespace Token

open TokenKind
open scoped Computability

theorem cutSigil_word (kind : TokenKind) (sigil : Char) {name rest : Text} (nonempty : name ≠ [])
    (allWord : name.all isWord) (apart : StartsApart rest) :
    cutSigil kind sigil (name ++ rest) = ⟨some kind, sigil :: name, rest⟩ := by
  rcases List.exists_cons_of_ne_nil nonempty with ⟨c, name, rfl⟩
  simp only [cutSigil, takeWhile_isWord_append allWord apart,
    dropWhile_isWord_append allWord apart]

theorem flatMap_escape_mem_kstar (value : Text) :
    value.flatMap Property.escape ∈ quotedPiece∗ := by
  apply Language.mem_kstar.mpr
  refine ⟨value.map Property.escape, List.flatMap_def .., ?_⟩
  intro piece present
  rcases List.mem_map.mp present with ⟨c, _, rfl⟩
  apply mem_quotedPiece.mpr
  unfold Property.escape
  split
  · rename_i isSpecial
    right
    refine ⟨c, ?_, rfl⟩
    rcases isSpecial with rfl | rfl <;> decide
  · rename_i notSpecial
    rw [not_or] at notSpecial
    left
    exact ⟨c, notSpecial.2, notSpecial.1, rfl⟩

/-- The quoted form of a value ends at the quote after it. -/
theorem cutQuoted_quote (value rest : Text) :
    cutQuoted (value.flatMap Property.escape ++ '"' :: rest) =
      ⟨some .quoted, Property.quote value, rest⟩ := by
  simp [cutQuoted, quotedBody_append_quote (flatMap_escape_mem_kstar value), Property.quote]

/-- The tokens of a text that begins at the byte `offset`, white space aside. -/
def significantFrom (offset : Nat) (text : Text) : List Token :=
  (lexFrom offset text).filter (·.kind ≠ some .whitespace)

theorem accepted_of_mem_significantFrom {offset : Nat} {text : Text} {token : Token}
    (present : token ∈ significantFrom offset text) : token.Accepted :=
  accepted_of_mem_lexFrom (List.mem_filter.mp present).1

theorem significantFrom_cons {first : Char} {rest : Text} {next : Cut} (offset : Nat)
    (isNext : cut first rest = next) (visible : next.kind ≠ some .whitespace) :
    significantFrom offset (first :: rest) =
      ⟨next.kind, next.lexeme, offset⟩ ::
        significantFrom (offset + Text.byteLength next.lexeme) next.remainder := by
  subst isNext
  rw [significantFrom, lexFrom, List.filter_cons_of_pos (by simpa using visible)]
  rfl

theorem significantFrom_key {key : Text} (keyName : isKeyName key) (offset : Nat) (rest : Text) :
    significantFrom offset (key ++ '=' :: rest) =
      ⟨some .key, key ++ ['='], offset⟩ ::
        significantFrom (offset + Text.byteLength (key ++ ['='])) rest := by
  cases key with
  | nil => simp [isKeyName] at keyName
  | cons first more =>
    have isKey : cut first (more ++ '=' :: rest) = ⟨some .key, first :: more ++ ['='], rest⟩ := by
      rw [cut_of_isKeyName keyName]
      exact cutWord_key keyName rest
    exact significantFrom_cons offset isKey (by simp)

theorem significantFrom_of_isSeparator {first : Char} (separator : isSeparator first)
    (offset : Nat) (rest : Text) :
    significantFrom offset (first :: rest) =
      significantFrom (offset + Text.byteLength (first :: rest.takeWhile isSeparator))
        (rest.dropWhile isSeparator) := by
  rw [significantFrom, lexFrom, cut_of_isSeparator separator]
  exact List.filter_cons_of_neg (by simp)

/-- White space only moves the offsets, whether it ends there or goes on. -/
theorem significantFrom_separator {first : Char} (separator : isSeparator first) (offset : Nat)
    (rest : Text) :
    significantFrom offset (first :: rest) =
      significantFrom (offset + Text.byteLength [first]) rest := by
  rw [significantFrom_of_isSeparator separator]
  cases rest with
  | nil => rfl
  | cons c rest =>
    by_cases goesOn : isSeparator c
    · rw [significantFrom_of_isSeparator goesOn, Nat.add_assoc, ← Text.byteLength_append]
      simp [goesOn]
    · simp [goesOn]

theorem cut_sigil {sigil : Char} {kind : TokenKind} {name rest : Text}
    (isSigil : sigil = '#' ∧ kind = .identifier ∨ sigil = '.' ∧ kind = .className)
    (nonempty : name ≠ []) (allWord : name.all isWord) (apart : StartsApart rest) :
    cut sigil (name ++ rest) = ⟨some kind, sigil :: name, rest⟩ := by
  rw [← cutSigil_word kind sigil nonempty allWord apart]
  rcases isSigil with ⟨rfl, rfl⟩ | ⟨rfl, rfl⟩ <;> rfl

end Token

namespace Property

/-- Whether the written form of a property is read as that property. -/
def Writable : Property → Prop
  | .identifier name | .className name => name ≠ [] ∧ name.all Token.isWord
  | .attribute key _ => Token.isKeyName key

/-- What is read from a text that begins at the byte `offset`. -/
def parseFrom (offset : Nat) (text : Text) : Except PropertyError (List Property) :=
  ofTokens (Token.significantFrom offset text)

@[simp]
theorem tokenValue?_quote (value : Text) (offset : Nat) :
    tokenValue? ⟨some .quoted, quote value, offset⟩ = some value := by
  simp [tokenValue?, quote]

theorem parseFrom_nil (offset : Nat) : parseFrom offset [] = .ok [] := by
  rw [parseFrom, Token.significantFrom, Token.lexFrom]
  rfl

/-- A written property at the beginning of a text is read as that property. -/
theorem parseFrom_toText_append {property : Property} {rest : Text} (offset : Nat)
    (writable : property.Writable) (apart : Token.StartsApart rest) :
    ∃ later, parseFrom offset (property.toText ++ rest) =
      (parseFrom later rest).map (property :: ·) := by
  rcases property with name | name | ⟨key, value⟩
  · have isNext := Token.cut_sigil (.inl ⟨rfl, rfl⟩) writable.1 writable.2 apart
    refine ⟨offset + Text.byteLength ('#' :: name), ?_⟩
    rw [toText, List.cons_append, parseFrom, Token.significantFrom_cons offset isNext (by simp)]
    rfl
  · have isNext := Token.cut_sigil (.inr ⟨rfl, rfl⟩) writable.1 writable.2 apart
    refine ⟨offset + Text.byteLength ('.' :: name), ?_⟩
    rw [toText, List.cons_append, parseFrom, Token.significantFrom_cons offset isNext (by simp)]
    rfl
  · have isQuoted : Token.cut '"' (value.flatMap escape ++ '"' :: rest) =
        ⟨some .quoted, quote value, rest⟩ :=
      Token.cutQuoted_quote value rest
    have quoted : quote value ++ rest = '"' :: (value.flatMap escape ++ '"' :: rest) := by
      simp [quote]
    refine ⟨offset + Text.byteLength (key ++ ['=']) + Text.byteLength (quote value), ?_⟩
    rw [toText, List.append_assoc, List.cons_append, parseFrom,
      Token.significantFrom_key writable, quoted, Token.significantFrom_cons _ isQuoted (by simp)]
    simp only [ofTokens, tokenValue?_quote, List.dropLast_concat]
    rfl

theorem parseFrom_join_toText_append (offset : Nat) {properties : List Property} {rest : Text}
    (writable : ∀ property ∈ properties, property.Writable) (apart : Token.StartsApart rest) :
    ∃ later, parseFrom offset (Text.join [' '] (properties.map toText) ++ rest) =
      (parseFrom later rest).map (properties ++ ·) := by
  induction properties generalizing offset with
  | nil =>
    refine ⟨offset, ?_⟩
    rw [List.map_nil, Text.join, List.nil_append]
    cases parseFrom offset rest <;> rfl
  | cons property more ih =>
    rw [List.forall_mem_cons] at writable
    cases more with
    | nil => exact parseFrom_toText_append offset writable.1 apart
    | cons next more =>
      have spaceApart := Token.startsApart_cons
        (Text.join [' '] ((next :: more).map toText) ++ rest)
        (show Token.isWord ' ' = false by decide)
      rcases parseFrom_toText_append offset writable.1 spaceApart with ⟨space, read⟩
      rcases ih (space + Text.byteLength [' ']) writable.2 with ⟨later, readMore⟩
      refine ⟨later, ?_⟩
      have spaced : Text.join [' '] ((property :: next :: more).map toText) ++ rest =
          property.toText ++ ' ' :: (Text.join [' '] ((next :: more).map toText) ++ rest) := by
        simp [Text.join]
      rw [spaced, read, parseFrom, Token.significantFrom_separator rfl, ← parseFrom, readMore]
      cases parseFrom later rest <;> rfl

/-- Reading the written form of a property list gives the list back. -/
theorem parse_join_toText (properties : List Property)
    (writable : ∀ property ∈ properties, property.Writable) :
    parse (Text.join [' '] (properties.map toText)) = .ok properties := by
  have nothing : Token.StartsApart [] := by simp [Token.StartsApart]
  rcases parseFrom_join_toText_append 0 writable nothing with ⟨later, read⟩
  rw [List.append_nil, parseFrom_nil] at read
  exact read.trans (by simp [Except.map])

/-- The braces that a fence writes around its properties are skipped. -/
theorem parse_braces_join_toText (properties : List Property)
    (writable : ∀ property ∈ properties, property.Writable) :
    parse ('\x7b' :: Text.join [' '] (properties.map toText) ++ ['\x7d']) = .ok properties := by
  have apart := Token.startsApart_cons [] (show Token.isWord '\x7d' = false by decide)
  rcases parseFrom_join_toText_append 1 writable apart with ⟨later, read⟩
  have opened : parse ('\x7b' :: (Text.join [' '] (properties.map toText) ++ ['\x7d'])) =
      parseFrom 1 (Text.join [' '] (properties.map toText) ++ ['\x7d']) := by
    have isBrace : ∀ text, Token.cut '\x7b' text = ⟨some .leftBrace, ['\x7b'], text⟩ := fun _ => rfl
    rw [parse, Token.lex, ← Token.significantFrom,
      Token.significantFrom_cons 0 (isBrace _) (by simp)]
    rfl
  have closed : parseFrom later ['\x7d'] = .ok [] := by
    have isBrace : Token.cut '\x7d' [] = ⟨some .rightBrace, ['\x7d'], []⟩ := rfl
    rw [parseFrom, Token.significantFrom_cons later isBrace (by simp)]
    exact parseFrom_nil _
  rw [List.cons_append, opened, read, closed]
  simp [Except.map]

theorem exists_of_map_cons_eq_ok {read : Except PropertyError (List Property)}
    {property : Property} {properties : List Property}
    (mapped : read.map (property :: ·) = .ok properties) :
    ∃ more, read = .ok more ∧ properties = property :: more := by
  cases read with
  | error cause => simp [Except.map] at mapped
  | ok more => exact ⟨more, rfl, by simpa [Except.map] using mapped.symm⟩

/-- Whether each piece that may be read from the tokens has a property. -/
structure GivesOnly (motive : Property → Prop) (tokens : List Token) : Prop where
  onIdentifier : ∀ token ∈ tokens, token.kind = some .identifier →
    motive (.identifier token.text.tail)
  onClassName : ∀ token ∈ tokens, token.kind = some .className →
    motive (.className token.text.tail)
  onAttribute : ∀ key ∈ tokens, key.kind = some .key → ∀ token ∈ tokens,
    ∀ value, tokenValue? token = some value → motive (.attribute key.text.dropLast value)

theorem GivesOnly.tail {motive : Property → Prop} {token : Token} {rest : List Token}
    (gives : GivesOnly motive (token :: rest)) : GivesOnly motive rest := by
  have later : ∀ other ∈ rest, other ∈ token :: rest :=
    fun other present => List.mem_cons_of_mem _ present
  refine ⟨?_, ?_, ?_⟩
  · intro other present
    exact gives.onIdentifier other (later other present)
  · intro other present
    exact gives.onClassName other (later other present)
  · intro key isLater isKey other present
    exact gives.onAttribute key (later key isLater) isKey other (later other present)

theorem forall_mem_of_ofTokens {motive : Property → Prop} {tokens : List Token}
    {properties : List Property} (gives : GivesOnly motive tokens)
    (read : ofTokens tokens = .ok properties) : ∀ property ∈ properties, motive property := by
  fun_induction ofTokens tokens generalizing properties with
  | case1 =>
    have nothing : [] = properties := by simpa using read
    subst nothing
    simp
  | case2 _ _ _ ih | case3 _ _ _ ih => exact ih gives.tail read
  | case4 token rest isIdentifier ih =>
    rcases exists_of_map_cons_eq_ok read with ⟨more, readMore, rfl⟩
    rw [List.forall_mem_cons]
    exact ⟨gives.onIdentifier token (List.mem_cons_self ..) isIdentifier, ih gives.tail readMore⟩
  | case5 token rest isClassName ih =>
    rcases exists_of_map_cons_eq_ok read with ⟨more, readMore, rfl⟩
    rw [List.forall_mem_cons]
    exact ⟨gives.onClassName token (List.mem_cons_self ..) isClassName, ih gives.tail readMore⟩
  | case7 key isKey token rest value isValue ih =>
    rcases exists_of_map_cons_eq_ok read with ⟨more, readMore, rfl⟩
    rw [List.forall_mem_cons]
    have second : token ∈ key :: token :: rest := List.mem_cons_of_mem _ (List.mem_cons_self ..)
    exact ⟨gives.onAttribute key (List.mem_cons_self ..) isKey token second value isValue,
      ih gives.tail.tail readMore⟩
  | case6 | case8 | case9 => simp at read

theorem mem_of_mem_unescape {text : Text} {c : Char} (present : c ∈ unescape text) : c ∈ text := by
  fun_induction unescape text with
  | case1 | case2 => simp at present
  | case3 escaped rest ih =>
    rcases List.mem_cons.mp present with rfl | inRest
    · simp
    · simp [ih inRest]
  | case4 first rest _ _ ih =>
    rcases List.mem_cons.mp present with rfl | inRest
    · simp
    · simp [ih inRest]

theorem mem_text_of_mem_tokenValue? {token : Token} {value : Text}
    (isValue : tokenValue? token = some value) {c : Char} (present : c ∈ value) :
    c ∈ token.text := by
  simp only [tokenValue?] at isValue
  split at isValue
  · have isUnescaped : unescape token.text.tail.dropLast = value := by simpa using isValue
    subst isUnescaped
    exact List.mem_of_mem_tail (List.dropLast_subset _ (mem_of_mem_unescape present))
  all_goals simp_all

/-- Every property that was read from a text can be written. -/
theorem writable_of_parse {text : Text} {properties : List Property}
    (read : parse text = .ok properties) : ∀ property ∈ properties, property.Writable := by
  have accepted : ∀ token ∈ (Token.lex text).filter (·.kind ≠ some .whitespace),
      token.Accepted := by
    intro token present
    exact Token.accepted_of_mem_significantFrom present
  refine forall_mem_of_ofTokens ⟨?_, ?_, ?_⟩ read
  · intro token present isIdentifier
    rcases TokenKind.mem_language_identifier.mp (accepted token present _ isIdentifier) with
      ⟨name, nonempty, allWord, isName⟩
    rw [isName]
    exact ⟨nonempty, allWord⟩
  · intro token present isClassName
    rcases TokenKind.mem_language_className.mp (accepted token present _ isClassName) with
      ⟨name, nonempty, allWord, isName⟩
    rw [isName]
    exact ⟨nonempty, allWord⟩
  · intro key present isKey _ _ _ _
    rcases TokenKind.mem_language_key.mp (accepted key present _ isKey) with ⟨name, keyName, isName⟩
    rw [isName, Writable, List.dropLast_concat]
    exact keyName

/-- The values of attributes hold only characters of the text from which they were read. -/
theorem mem_of_mem_value_of_parse {text : Text} {properties : List Property}
    (read : parse text = .ok properties) {key value : Text}
    (isRead : .attribute key value ∈ properties) {c : Char} (present : c ∈ value) : c ∈ text := by
  have gives : GivesOnly (fun property => ∀ key value, property = .attribute key value →
      ∀ c ∈ value, c ∈ text) ((Token.lex text).filter (·.kind ≠ some .whitespace)) := by
    refine ⟨?_, ?_, ?_⟩
    · intro _ _ _ _ _ isAttribute
      cases isAttribute
    · intro _ _ _ _ _ isAttribute
      cases isAttribute
    · intro _ _ _ token isToken value isValue _ _ isAttribute c inValue
      cases isAttribute
      rw [← Token.flatten_lex text, List.mem_flatMap]
      exact ⟨token, (List.mem_filter.mp isToken).1, mem_text_of_mem_tokenValue? isValue inValue⟩
  exact forall_mem_of_ofTokens gives read _ isRead key value rfl c present

theorem newline_not_mem_of_all_isWord {name : Text} (allWord : name.all Token.isWord) :
    '\n' ∉ name := by
  intro present
  exact Token.ne_newline_of_isWord (List.all_eq_true.mp allWord '\n' present) rfl

/-- A property is written on one line if its value is. -/
theorem newline_not_mem_toText {property : Property} (writable : property.Writable)
    (oneLine : ∀ key value, property = .attribute key value → '\n' ∉ value) :
    '\n' ∉ property.toText := by
  rcases property with name | name | ⟨key, value⟩
  · simp [toText, newline_not_mem_of_all_isWord writable.2]
  · simp [toText, newline_not_mem_of_all_isWord writable.2]
  · have inKey := newline_not_mem_of_all_isWord (Token.all_isWord_of_isKeyName writable)
    have inValue : ∀ c ∈ value, '\n' ∉ escape c := by
      intro c present
      have notNewline : '\n' ≠ c := by
        rintro rfl
        exact oneLine key value rfl present
      simp only [escape]
      split <;> simp [notNewline]
    simpa [toText, quote, inKey] using inValue

end Property

end LiterateMarkdown
