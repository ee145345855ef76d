import LiterateMarkdown.Proofs.Property.Reading

/-!
# Property lists put together

Two texts that can be read may be put together with white space between them. What is read then are
the properties of the one and after them those of the other (`parse_append_of_parse`). Without white
space between them the second text might go on with the name in which the first one ends.

No token reaches over the white space. A word ends there, and a quoted value of a text that can be
read has its closing quote in that text, so the tokens of the first text stay as they are
(`significantFrom_append`). Only white space at the end of the first text goes on after it, and that
gives no property. Nor does the first text end in a key that still waits for its value. The second
text is read as it is read alone, except that its errors tell of places further on
(`parseFrom_eq_mapError`).
-/

namespace LiterateMarkdown

namespace Token

section

variable {text tail : Text}

/-- The text is empty or begins with white space that parts tokens. -/
def StartsWithSpace (text : Text) : Prop :=
  ∀ c ∈ text.head?, isSeparator c

theorem StartsWithSpace.startsApart (spaced : StartsWithSpace tail) : StartsApart tail := by
  intro c isFirst
  exact not_isWord_of_isSeparator (spaced c isFirst)

theorem startsWithSpace_append {separators : Text} (nonempty : separators ≠ [])
    (areSeparators : separators.all isSeparator) (rest : Text) :
    StartsWithSpace (separators ++ rest) := by
  rcases List.exists_cons_of_ne_nil nonempty with ⟨first, more, rfl⟩
  intro c isFirst
  have sameFirst : first = c := by simpa using isFirst
  subst sameFirst
  simp only [List.all_cons, Bool.and_eq_true] at areSeparators
  exact areSeparators.1

theorem takeWhile_isWord_append_tail (apart : StartsApart tail) :
    (text ++ tail).takeWhile isWord = text.takeWhile isWord := by
  induction text with
  | nil => exact takeWhile_isWord_append rfl apart
  | cons c text ih => by_cases word : isWord c <;> simp [word, ih]

theorem dropWhile_isWord_append_tail (apart : StartsApart tail) :
    (text ++ tail).dropWhile isWord = text.dropWhile isWord ++ tail := by
  induction text with
  | nil => exact dropWhile_isWord_append rfl apart
  | cons c text ih => by_cases word : isWord c <;> simp [word, ih]

/-- The same first token, with more text after it. -/
def Cut.followedBy (next : Cut) (tail : Text) : Cut :=
  { next with remainder := next.remainder ++ tail }

theorem cutSigil_followedBy (kind : TokenKind) (sigil : Char) (apart : StartsApart tail) :
    cutSigil kind sigil (text ++ tail) = (cutSigil kind sigil text).followedBy tail := by
  simp only [cutSigil, takeWhile_isWord_append_tail apart, dropWhile_isWord_append_tail apart]
  split <;> rfl

theorem cutWord_followedBy (text : Text) (spaced : StartsWithSpace tail) :
    cutWord (text ++ tail) = (cutWord text).followedBy tail := by
  have apart := spaced.startsApart
  simp only [cutWord, takeWhile_isWord_append_tail apart, dropWhile_isWord_append_tail apart]
  cases text.dropWhile isWord with
  | nil =>
    -- The word ends with the text, and white space does not make a key of it.
    cases tail with
    | nil => rfl
    | cons c tail =>
      have notEquals : c ≠ '=' := by
        rintro rfl
        exact absurd (spaced '=' rfl) (by decide)
      simp [Cut.followedBy, notEquals]
  | cons c remainder =>
    by_cases isEquals : c = '='
    · subst isEquals
      simp only [List.cons_append]
      split <;> rfl
    · simp [Cut.followedBy, isEquals]

theorem cutQuoted_followedBy (closed : (cutQuoted text).kind.isSome) (tail : Text) :
    cutQuoted (text ++ tail) = (cutQuoted text).followedBy tail := by
  rcases isQuoted : quotedBody text with ⟨body, remainder⟩
  have isBody := quotedBody_mem_kstar text
  have whole := quotedBody_append text
  simp only [isQuoted] at isBody whole
  simp only [cutQuoted, isQuoted] at closed ⊢
  split at closed
  · rename_i body remainder isPair
    cases isPair
    rw [← whole, List.append_assoc, List.cons_append, quotedBody_append_quote isBody]
    rfl
  · contradiction

theorem cut_followedBy {first : Char} (notSeparator : isSeparator first = false)
    (classified : (cut first text).kind.isSome) (spaced : StartsWithSpace tail) :
    cut first (text ++ tail) = (cut first text).followedBy tail := by
  have apart := spaced.startsApart
  by_cases isQuote : first = '"'
  · subst isQuote
    exact cutQuoted_followedBy classified tail
  simp only [cut, isQuote, notSeparator, ↓reduceIte, Bool.false_eq_true]
  split
  · rfl
  split
  · rfl
  split
  · exact cutSigil_followedBy .identifier first apart
  split
  · exact cutSigil_followedBy .className first apart
  split
  · exact cutWord_followedBy (first :: text) spaced
  · rfl

theorem cut_kind_ne_whitespace {first : Char} (notSeparator : isSeparator first = false)
    (rest : Text) : (cut first rest).kind ≠ some .whitespace := by
  intro isWhitespace
  have accepted := cut_accepted first rest _ isWhitespace
  rcases TokenKind.mem_language_whitespace.mp accepted with ⟨nonempty, separators⟩
  rcases List.exists_cons_of_ne_nil nonempty with ⟨c, more, isLexeme⟩
  have whole := cut_append first rest
  rw [isLexeme] at separators whole
  rcases List.cons.inj whole with ⟨rfl, _⟩
  simp [notSeparator] at separators

theorem significantFrom_separators {separators : Text} (areSeparators : separators.all isSeparator)
    (offset : Nat) (rest : Text) :
    significantFrom offset (separators ++ rest) =
      significantFrom (offset + Text.byteLength separators) rest := by
  induction separators generalizing offset with
  | nil => rfl
  | cons c separators ih =>
    rw [List.all_cons, Bool.and_eq_true] at areSeparators
    rw [List.cons_append, significantFrom_separator areSeparators.1, ih areSeparators.2,
      Nat.add_assoc, ← Text.byteLength_append, List.singleton_append]

/-- White space after a text whose tokens all have kinds leaves these tokens as they are. -/
theorem significantFrom_append (offset : Nat)
    (classified : ∀ token ∈ lexFrom offset text, token.kind.isSome)
    (spaced : StartsWithSpace tail) :
    significantFrom offset (text ++ tail) =
      significantFrom offset text ++ significantFrom (offset + Text.byteLength text) tail := by
  fun_induction lexFrom offset text with
  | case1 => simp [significantFrom, lexFrom, Text.byteLength]
  | case2 offset first rest next ih =>
    rw [List.forall_mem_cons] at classified
    have whole : first :: rest = next.lexeme ++ next.remainder := (cut_append first rest).symm
    by_cases separator : isSeparator first
    · -- White space at the end of the text may go on after it.
      have areSeparators : next.lexeme.all isSeparator := by
        simp only [next, cut_of_isSeparator separator, List.all_cons, separator, Bool.true_and]
        exact List.all_takeWhile
      rw [whole, List.append_assoc, significantFrom_separators areSeparators,
        significantFrom_separators areSeparators, ih classified.2, Text.byteLength_append,
        Nat.add_assoc]
    · have notSeparator : isSeparator first = false := by simpa using separator
      have isNext : cut first (rest ++ tail) = next.followedBy tail :=
        cut_followedBy notSeparator classified.1 spaced
      have visible := cut_kind_ne_whitespace notSeparator rest
      rw [List.cons_append, significantFrom_cons offset isNext visible,
        significantFrom_cons offset rfl visible, List.cons_append]
      simp only [Cut.followedBy]
      rw [ih classified.2, whole, Text.byteLength_append, Nat.add_assoc]

end

/-- The same token, further on in a text. -/
def moved (distance : Nat) (token : Token) : Token :=
  { token with offset := token.offset + distance }

@[simp]
theorem kind_moved (distance : Nat) (token : Token) : (token.moved distance).kind = token.kind :=
  rfl

@[simp]
theorem text_moved (distance : Nat) (token : Token) : (token.moved distance).text = token.text :=
  rfl

theorem lexFrom_moved (offset distance : Nat) (text : Text) :
    lexFrom (offset + distance) text = (lexFrom offset text).map (moved distance) := by
  fun_induction lexFrom offset text with
  | case1 => simp [lexFrom]
  | case2 offset first rest next ih =>
    rw [lexFrom, Nat.add_right_comm, ih]
    rfl

theorem significantFrom_moved (offset distance : Nat) (text : Text) :
    significantFrom (offset + distance) text =
      (significantFrom offset text).map (moved distance) := by
  simp only [significantFrom, lexFrom_moved, List.filter_map]
  rfl

end Token

/-- The same error, further on in a text. -/
def PropertyError.moved (distance : Nat) : PropertyError → PropertyError
  | unexpected text offset => unexpected text (offset + distance)
  | missingValue key => missingValue key

namespace Property

theorem mapError_map (result : Except PropertyError (List Property))
    (change : List Property → List Property) (distance : Nat) :
    (result.map change).mapError (PropertyError.moved distance) =
      (result.mapError (PropertyError.moved distance)).map change := by
  cases result <;> rfl

@[simp]
theorem tokenValue?_moved (distance : Nat) (token : Token) :
    tokenValue? (token.moved distance) = tokenValue? token :=
  rfl

theorem ofTokens_moved (distance : Nat) (tokens : List Token) :
    ofTokens (tokens.map (Token.moved distance)) =
      (ofTokens tokens).mapError (PropertyError.moved distance) := by
  fun_induction ofTokens tokens with
  | case1 => rfl
  | case2 token rest isKind ih | case3 token rest isKind ih =>
    rw [List.map_cons, ofTokens.eq_def]
    simpa [isKind] using ih
  | case4 token rest isKind ih | case5 token rest isKind ih =>
    rw [List.map_cons, ofTokens.eq_def]
    simp [isKind, ih, mapError_map]
  | case6 token isKind =>
    rw [List.map_cons, ofTokens.eq_def]
    simp [isKind, Except.mapError, PropertyError.moved]
  | case7 token isKind next rest value isValue ih =>
    rw [List.map_cons, ofTokens.eq_def]
    simp [isKind, isValue, ih, mapError_map]
  | case8 token isKind next rest noValue =>
    rw [List.map_cons, ofTokens.eq_def]
    simp [isKind, noValue, Except.mapError, PropertyError.moved]
  | case9 token rest notLeft notRight notIdentifier notClassName notKey =>
    rw [List.map_cons, ofTokens.eq_def]
    cases isKind : token.kind with
    | none => simp [isKind, Except.mapError, PropertyError.moved, Token.moved]
    | some kind => cases kind <;> simp_all [Except.mapError, PropertyError.moved, Token.moved]

/-- Where a text stands shows only in the errors of reading it. -/
theorem parseFrom_eq_mapError (offset : Nat) (text : Text) :
    parseFrom offset text = (parse text).mapError (PropertyError.moved offset) := by
  have moved := Token.significantFrom_moved 0 offset text
  rw [Nat.zero_add] at moved
  rw [parseFrom, moved, ofTokens_moved]
  rfl

theorem parseFrom_separators {separators : Text} (areSeparators : separators.all Token.isSeparator)
    (offset : Nat) (text : Text) :
    parseFrom offset (separators ++ text) =
      parseFrom (offset + Text.byteLength separators) text := by
  rw [parseFrom, Token.significantFrom_separators areSeparators]
  rfl

theorem spells_of_parse {text : Text} {properties : List Property}
    (read : parse text = .ok properties) : Spells (Token.significantFrom 0 text) properties := by
  have reads := reads_parse text
  rwa [read] at reads

/-- What is read from a text stays, and reading goes on with the white space after it. -/
theorem parse_append {text tail : Text} {properties : List Property}
    (read : parse text = .ok properties) (spaced : Token.StartsWithSpace tail) :
    parse (text ++ tail) =
      (parseFrom (Text.byteLength text) tail).map (properties ++ ·) := by
  have spells := spells_of_parse read
  have classified := isSome_of_spells_filter spells
  have sameTokens := Token.significantFrom_append 0 classified spaced
  rw [Nat.zero_add] at sameTokens
  calc parse (text ++ tail)
      = ofTokens (Token.significantFrom 0 (text ++ tail)) := rfl
    _ = ofTokens (Token.significantFrom 0 text ++
          Token.significantFrom (Text.byteLength text) tail) := by rw [sameTokens]
    _ = (parseFrom (Text.byteLength text) tail).map (properties ++ ·) :=
          ofTokens_append_of_spells spells _

/-- With white space between them, two texts are read one after the other. -/
theorem parse_append_of_parse {first separators second : Text} {properties later : List Property}
    (read : parse first = .ok properties) (readLater : parse second = .ok later)
    (nonempty : separators ≠ []) (areSpaces : ∀ c ∈ separators, TokenKind.IsSpace c) :
    parse (first ++ separators ++ second) = .ok (properties ++ later) := by
  have areSeparators : separators.all Token.isSeparator :=
    (TokenKind.mem_language_whitespace.mp (mem_oneOrMore.mpr ⟨nonempty, areSpaces⟩)).2
  have spaced : Token.StartsWithSpace (separators ++ second) :=
    Token.startsWithSpace_append nonempty areSeparators second
  calc parse (first ++ separators ++ second)
      = parse (first ++ (separators ++ second)) := by rw [List.append_assoc]
    _ = (parseFrom (Text.byteLength first) (separators ++ second)).map (properties ++ ·) :=
          parse_append read spaced
    _ = (parseFrom (Text.byteLength first + Text.byteLength separators) second).map
          (properties ++ ·) := by rw [parseFrom_separators areSeparators]
    _ = .ok (properties ++ later) := by
      rw [parseFrom_eq_mapError, readLater]
      rfl

/-- A brace is opened in the one text and closed in the other, and white space is on both sides. -/
theorem parse_append_of_parse_braced :
    parse "\x7b#main title=\"say \\\"hi\\\\\" ".toList =
        .ok [.identifier "main".toList, .attribute "title".toList "say \"hi\\".toList] ∧
      parse "\nfile=.rs .rust\x7d".toList =
        .ok [.attribute "file".toList ".rs".toList, .className "rust".toList] ∧
      "\t\r\n".toList ≠ [] ∧ (∀ c ∈ "\t\r\n".toList, TokenKind.IsSpace c) ∧
      parse ("\x7b#main title=\"say \\\"hi\\\\\" ".toList ++ "\t\r\n".toList ++
          "\nfile=.rs .rust\x7d".toList) =
        .ok [.identifier "main".toList, .attribute "title".toList "say \"hi\\".toList,
          .attribute "file".toList ".rs".toList, .className "rust".toList] := by
  have read : parse "\x7b#main title=\"say \\\"hi\\\\\" ".toList =
      .ok [.identifier "main".toList, .attribute "title".toList "say \"hi\\".toList] := by
    decide +kernel
  have readLater : parse "\nfile=.rs .rust\x7d".toList =
      .ok [.attribute "file".toList ".rs".toList, .className "rust".toList] := by
    decide +kernel
  have areSpaces : ∀ c ∈ "\t\r\n".toList, TokenKind.IsSpace c := by simp [TokenKind.IsSpace]
  have nonempty : "\t\r\n".toList ≠ [] := by simp
  exact ⟨read, readLater, nonempty, areSpaces,
    parse_append_of_parse read readLater nonempty areSpaces⟩

end Property

end LiterateMarkdown
