import LiterateMarkdown.Proofs.Property.TokenLanguage

/-!
# Longest match

A text is cut into tokens that tile it. A token with a kind is the longest beginning of the
remaining text that any pattern accepts, and a token has no kind exactly when the patterns accept no
beginning of what remains (`lex_tiles`). No text is accepted by two patterns, so the kind is never a
matter of choice.

The proof goes by what a pattern accepts at the beginning of a text: the first token of the text
goes on from there (`cut_extends`). From this also follows that a token with a kind does not depend
on where the text ends after it (`lexFrom_of_shorter`).
-/

namespace LiterateMarkdown

open scoped Computability

namespace Token

open TokenKind

/-- What stands between quotes goes on up to the next quote that is not escaped. -/
theorem quotedBody_append_quote {body : Text} (isBody : body ∈ quotedPiece∗) (rest : Text) :
    quotedBody (body ++ '"' :: rest) = (body, '"' :: rest) := by
  rcases Language.mem_kstar.mp isBody with ⟨pieces, rfl, arePieces⟩
  induction pieces with
  | nil => rfl
  | cons piece pieces ih =>
    rw [List.forall_mem_cons] at arePieces
    have others := ih arePieces.2 (Language.join_mem_kstar arePieces.2)
    rcases mem_quotedPiece.mp arePieces.1 with ⟨c, notQuote, notBackslash, rfl⟩ |
      ⟨c, notNewline, rfl⟩
    · rw [List.flatten_cons, List.singleton_append, List.cons_append, quotedBody.eq_5, others]
      · intro isQuote
        exact notQuote isQuote
      · intro isBackslash _
        exact notBackslash isBackslash
      · intro _ _ isBackslash _
        exact notBackslash isBackslash
    · simp [quotedBody, notNewline, others]

theorem quotedBody_mem_kstar (text : Text) : (quotedBody text).1 ∈ quotedPiece∗ := by
  fun_induction quotedBody text with
  | case1 | case2 | case3 | case4 => exact Language.nil_mem_kstar _
  | case5 escaped rest notNewline body remainder isBody ih =>
    rw [isBody] at ih
    exact append_mem_kstar (mem_quotedPiece.mpr (.inr ⟨escaped, notNewline, rfl⟩)) ih
  | case6 c rest notQuote notLast notEscape body remainder isBody ih =>
    rw [isBody] at ih
    refine append_mem_kstar (mem_quotedPiece.mpr (.inl ⟨c, ?_, ?_, rfl⟩)) ih
    · exact notQuote
    · intro isBackslash
      cases rest with
      | nil => exact notLast isBackslash rfl
      | cons escaped rest => exact notEscape escaped rest isBackslash rfl

/-- The text is empty or begins with a character that belongs to no word. -/
def StartsApart (text : Text) : Prop :=
  ∀ c ∈ text.head?, isWord c = false

theorem startsApart_cons {c : Char} (rest : Text) (apart : isWord c = false) :
    StartsApart (c :: rest) := by
  intro first isFirst
  simp only [List.head?_cons, Option.mem_some_iff] at isFirst
  exact isFirst ▸ apart

theorem takeWhile_isWord_append {word rest : Text} (allWord : word.all isWord)
    (apart : StartsApart rest) : (word ++ rest).takeWhile isWord = word := by
  rw [List.takeWhile_append_of_pos (List.all_eq_true.mp allWord)]
  cases rest with
  | nil => simp
  | cons c rest => simp [apart c rfl]

theorem dropWhile_isWord_append {word rest : Text} (allWord : word.all isWord)
    (apart : StartsApart rest) : (word ++ rest).dropWhile isWord = rest := by
  rw [List.dropWhile_append_of_pos (List.all_eq_true.mp allWord)]
  cases rest with
  | nil => rfl
  | cons c rest => simp [apart c rfl]

theorem cutWord_key {key : Text} (keyName : isKeyName key) (rest : Text) :
    cutWord (key ++ '=' :: rest) = ⟨some .key, key ++ ['='], rest⟩ := by
  have allWord := all_isWord_of_isKeyName keyName
  have apart := startsApart_cons rest (show isWord '=' = false by decide)
  simp only [cutWord, takeWhile_isWord_append allWord apart,
    dropWhile_isWord_append allWord apart, keyName, ↓reduceIte]

theorem cut_of_isWord {first : Char} (word : isWord first) (notHash : first ≠ '#')
    (notDot : first ≠ '.') (rest : Text) : cut first rest = cutWord (first :: rest) := by
  have notSeparator := not_isSeparator_of_isWord word
  rcases (Property.isWord_iff first).mp word with ⟨_, notLeft, notRight, _, notQuote⟩
  simp only [cut, notLeft, notRight, notHash, notDot, notQuote, notSeparator, word, ↓reduceIte,
    Bool.false_eq_true]

/-- No key begins with a sigil. -/
theorem cut_of_isKeyName {first : Char} {more : Text} (keyName : isKeyName (first :: more))
    (rest : Text) : cut first rest = cutWord (first :: rest) := by
  have notSigil : isKeyStart '#' = false ∧ isKeyStart '.' = false := by decide
  rw [isKeyName, Bool.and_eq_true] at keyName
  apply cut_of_isWord (isWord_of_isKeyRest (isKeyRest_of_isKeyStart keyName.1))
  · rintro rfl
    simp [notSigil.1] at keyName
  · rintro rfl
    simp [notSigil.2] at keyName

theorem cut_of_isSeparator {first : Char} (separator : isSeparator first) (rest : Text) :
    cut first rest = ⟨some .whitespace, first :: rest.takeWhile isSeparator,
      rest.dropWhile isSeparator⟩ := by
  have cases := separator
  simp only [isSeparator, Bool.or_eq_true, decide_eq_true_eq] at cases
  rcases cases with ((rfl | rfl) | rfl) | rfl <;> rfl

/-- The first token goes on from what a pattern accepts, or it is just that and of the same kind. -/
def Cut.Extends (next : Cut) (kind : TokenKind) (lexeme : Text) : Prop :=
  ∃ longest extra, next.kind = some longest ∧ next.lexeme = lexeme ++ extra ∧
    (extra = [] → longest = kind)

theorem cut_extends_whitespace {first : Char} {more : Text}
    (separators : (first :: more).all isSeparator) (tail : Text) :
    (cut first (more ++ tail)).Extends .whitespace (first :: more) := by
  rw [List.all_cons, Bool.and_eq_true] at separators
  refine ⟨.whitespace, tail.takeWhile isSeparator, ?_, ?_, fun _ => rfl⟩
  · rw [cut_of_isSeparator separators.1]
  · rw [cut_of_isSeparator separators.1,
      List.takeWhile_append_of_pos (List.all_eq_true.mp separators.2)]
    rfl

theorem cutSigil_extends (kind : TokenKind) (sigil : Char) {name : Text} (nonempty : name ≠ [])
    (allWord : name.all isWord) (tail : Text) :
    (cutSigil kind sigil (name ++ tail)).Extends kind (sigil :: name) := by
  have taken : (name ++ tail).takeWhile isWord = name ++ tail.takeWhile isWord :=
    List.takeWhile_append_of_pos (List.all_eq_true.mp allWord)
  simp only [cutSigil, taken]
  split
  · rename_i nothing
    exact absurd (List.append_eq_nil_iff.mp nothing).1 nonempty
  · exact ⟨kind, tail.takeWhile isWord, rfl, rfl, fun _ => rfl⟩

theorem cutQuoted_extends {body : Text} (isBody : body ∈ quotedPiece∗) (tail : Text) :
    (cutQuoted (body ++ '"' :: tail)).Extends .quoted ('"' :: body ++ ['"']) := by
  rw [cutQuoted, quotedBody_append_quote isBody]
  exact ⟨.quoted, [], rfl, by simp, fun _ => rfl⟩

theorem cutWord_extends_key {name : Text} (keyName : isKeyName name) (tail : Text) :
    (cutWord (name ++ '=' :: tail)).Extends .key (name ++ ['=']) := by
  rw [cutWord_key keyName]
  exact ⟨.key, [], rfl, by simp, fun _ => rfl⟩

theorem cutWord_extends {word : Text} (allWord : word.all isWord) (tail : Text) :
    (cutWord (word ++ tail)).Extends .bare word := by
  have taken : (word ++ tail).takeWhile isWord = word ++ tail.takeWhile isWord :=
    List.takeWhile_append_of_pos (List.all_eq_true.mp allWord)
  simp only [cutWord, taken]
  split
  · split
    · exact ⟨.key, tail.takeWhile isWord ++ ['='], rfl, by simp, by simp⟩
    · exact ⟨.bare, tail.takeWhile isWord, rfl, rfl, fun _ => rfl⟩
  · exact ⟨.bare, tail.takeWhile isWord, rfl, rfl, fun _ => rfl⟩

theorem cut_extends {kind : TokenKind} {lexeme : Text} (accepted : lexeme ∈ kind.language)
    {first : Char} {rest tail : Text} (begins : lexeme ++ tail = first :: rest) :
    (cut first rest).Extends kind lexeme := by
  cases kind with
  | whitespace =>
    rcases mem_language_whitespace.mp accepted with ⟨nonempty, separators⟩
    rcases List.exists_cons_of_ne_nil nonempty with ⟨c, more, rfl⟩
    cases begins
    exact cut_extends_whitespace separators tail
  | identifier =>
    rcases mem_language_identifier.mp accepted with ⟨name, nonempty, allWord, rfl⟩
    cases begins
    exact cutSigil_extends .identifier '#' nonempty allWord tail
  | className =>
    rcases mem_language_className.mp accepted with ⟨name, nonempty, allWord, rfl⟩
    cases begins
    exact cutSigil_extends .className '.' nonempty allWord tail
  | key =>
    rcases mem_language_key.mp accepted with ⟨name, keyName, rfl⟩
    cases name with
    | nil => simp [isKeyName] at keyName
    | cons c name =>
      rw [List.append_assoc] at begins
      cases begins
      rw [cut_of_isKeyName keyName]
      exact cutWord_extends_key keyName tail
  | quoted =>
    rcases mem_language_quoted.mp accepted with ⟨body, isBody, rfl⟩
    rw [List.append_assoc] at begins
    cases begins
    exact cutQuoted_extends isBody tail
  | bare =>
    rcases mem_language_bare.mp accepted with ⟨c, more, notHash, notDot, allWord, rfl⟩
    have word : isWord c := List.all_eq_true.mp allWord c (List.mem_cons_self ..)
    cases begins
    rw [cut_of_isWord word notHash notDot]
    exact cutWord_extends allWord tail
  | leftBrace =>
    rw [mem_language_leftBrace.mp accepted] at begins ⊢
    cases begins
    exact ⟨.leftBrace, [], rfl, rfl, fun _ => rfl⟩
  | rightBrace =>
    rw [mem_language_rightBrace.mp accepted] at begins ⊢
    cases begins
    exact ⟨.rightBrace, [], rfl, rfl, fun _ => rfl⟩

/-- A pattern of the kind that the first token has accepts the token. -/
def Cut.Accepted (next : Cut) : Prop :=
  ∀ kind, next.kind = some kind → next.lexeme ∈ kind.language

theorem cut_accepted_of_mem {kind : TokenKind} {lexeme remainder : Text}
    (accepted : lexeme ∈ kind.language) : (⟨some kind, lexeme, remainder⟩ : Cut).Accepted := by
  intro other isOther
  cases isOther
  exact accepted

theorem cutSigil_accepted {kind : TokenKind} {sigil : Char} (rest : Text)
    (accepted : ∀ name : Text, name ≠ [] → name.all isWord → sigil :: name ∈ kind.language) :
    (cutSigil kind sigil rest).Accepted := by
  have allWord : (rest.takeWhile isWord).all isWord := List.all_takeWhile
  unfold cutSigil
  split
  · intro other isOther
    contradiction
  · rename_i nonempty
    exact cut_accepted_of_mem (accepted _ nonempty allWord)

theorem cutQuoted_accepted (rest : Text) : (cutQuoted rest).Accepted := by
  have isBody := quotedBody_mem_kstar rest
  unfold cutQuoted
  split
  · rename_i body remainder isQuoted
    rw [isQuoted] at isBody
    exact cut_accepted_of_mem (mem_language_quoted.mpr ⟨body, isBody, rfl⟩)
  · intro other isOther
    contradiction

theorem cutWord_accepted {first : Char} (word : isWord first) (notHash : first ≠ '#')
    (notDot : first ≠ '.') (rest : Text) : (cutWord (first :: rest)).Accepted := by
  have isBare : (first :: rest).takeWhile isWord ∈ bare.language := by
    have allWord : ((first :: rest).takeWhile isWord).all isWord := List.all_takeWhile
    rw [List.takeWhile_cons_of_pos word] at allWord ⊢
    exact mem_language_bare.mpr ⟨first, _, notHash, notDot, allWord, rfl⟩
  simp only [cutWord]
  split
  · split
    · rename_i keyName
      exact cut_accepted_of_mem (mem_language_key.mpr ⟨_, keyName, rfl⟩)
    · exact cut_accepted_of_mem isBare
  · exact cut_accepted_of_mem isBare

theorem cut_accepted (first : Char) (rest : Text) : (cut first rest).Accepted := by
  unfold cut
  split
  · rename_i isLeft
    exact cut_accepted_of_mem (mem_language_leftBrace.mpr (by rw [isLeft]))
  split
  · rename_i isRight
    exact cut_accepted_of_mem (mem_language_rightBrace.mpr (by rw [isRight]))
  split
  · rename_i isHash
    subst isHash
    apply cutSigil_accepted
    intro name nonempty allWord
    exact mem_language_identifier.mpr ⟨name, nonempty, allWord, rfl⟩
  split
  · rename_i isDot
    subst isDot
    apply cutSigil_accepted
    intro name nonempty allWord
    exact mem_language_className.mpr ⟨name, nonempty, allWord, rfl⟩
  split
  · exact cutQuoted_accepted rest
  split
  · rename_i separator
    apply cut_accepted_of_mem
    apply mem_language_whitespace.mpr
    refine ⟨by simp, ?_⟩
    rw [List.all_cons, Bool.and_eq_true]
    exact ⟨separator, List.all_takeWhile⟩
  split
  · rename_i notHash notDot _ _ word
    exact cutWord_accepted word notHash notDot rest
  · intro other isOther
    contradiction

/-- What a pattern accepts is a single token of that kind. -/
theorem kind_cut_of_mem {kind : TokenKind} {first : Char} {rest : Text}
    (accepted : first :: rest ∈ kind.language) : (cut first rest).kind = some kind := by
  rcases cut_extends accepted (List.append_nil _) with ⟨longest, extra, isKind, isLexeme, same⟩
  have whole := cut_append first rest
  rw [isLexeme, List.append_assoc, List.append_right_eq_self, List.append_eq_nil_iff] at whole
  rw [isKind, same whole.1]

theorem kind_unique {kind other : TokenKind} {lexeme : Text} (accepted : lexeme ∈ kind.language)
    (acceptedToo : lexeme ∈ other.language) : kind = other := by
  rcases List.exists_cons_of_ne_nil (ne_nil_of_mem_language accepted) with ⟨first, rest, rfl⟩
  have isKind := kind_cut_of_mem accepted
  rw [kind_cut_of_mem acceptedToo] at isKind
  exact (Option.some.inj isKind).symm

/-- How a token stands at the beginning of the text that remains. -/
structure IsLongestMatch (token : Token) (remaining : Text) : Prop where
  /-- The token is accepted by the pattern of its kind and by no other one. -/
  accepted_iff : ∀ kind, token.kind = some kind →
    ∀ other : TokenKind, token.text ∈ other.language ↔ other = kind
  /-- No pattern accepts a longer beginning of the text. -/
  longest : token.kind.isSome → ∀ lexeme, lexeme <+: remaining →
    ∀ other : TokenKind, lexeme ∈ other.language → lexeme.length ≤ token.text.length
  /-- The token has no kind exactly when no pattern accepts a beginning of the text. -/
  unclassified_iff : token.kind = none ↔ ∀ lexeme, lexeme <+: remaining → lexeme ≠ [] →
    ∀ other : TokenKind, lexeme ∉ other.language

theorem isLongestMatch_cut (first : Char) (rest : Text) (offset : Nat) :
    IsLongestMatch ⟨(cut first rest).kind, (cut first rest).lexeme, offset⟩ (first :: rest) where
  accepted_iff := by
    intro kind isKind other
    have accepted := cut_accepted first rest kind isKind
    constructor
    · intro acceptedToo
      exact kind_unique acceptedToo accepted
    · rintro rfl
      exact accepted
  longest := by
    rintro _ lexeme ⟨tail, begins⟩ other accepted
    rcases cut_extends accepted begins with ⟨_, extra, _, isLexeme, _⟩
    simp [isLexeme]
  unclassified_iff := by
    constructor
    · rintro unclassified lexeme ⟨tail, begins⟩ _ other accepted
      rcases cut_extends accepted begins with ⟨longest, _, isKind, _, _⟩
      simp [isKind] at unclassified
    · intro none_accepted
      rw [Option.eq_none_iff_forall_ne_some]
      intro kind isKind
      exact none_accepted _ ⟨_, cut_append first rest⟩ (cut_lexeme_ne_nil first rest) kind
        (cut_accepted first rest kind isKind)

/-- The tokens tile the text, and each is the longest match where it stands. -/
structure Tiles (tokens : List Token) (text : Text) : Prop where
  flatten : tokens.flatMap (·.text) = text
  nonempty : ∀ token ∈ tokens, token.text ≠ []
  offset : ∀ before token after, tokens = before ++ token :: after →
    token.offset = Text.byteLength (before.flatMap (·.text))
  isLongestMatch : ∀ before token after, tokens = before ++ token :: after →
    token.IsLongestMatch ((token :: after).flatMap (·.text))

/-- Each token of a text was cut off where it stands. -/
theorem exists_cut_of_lexFrom {offset : Nat} {text : Text} {before after : List Token}
    {token : Token} (isCut : lexFrom offset text = before ++ token :: after) :
    ∃ first rest, (token :: after).flatMap (·.text) = first :: rest ∧
      token = ⟨(cut first rest).kind, (cut first rest).lexeme,
        offset + Text.byteLength (before.flatMap (·.text))⟩ := by
  induction before generalizing offset text with
  | nil =>
    have whole := flatten_lexFrom offset text
    rw [isCut] at whole
    cases text with
    | nil => simp [lexFrom] at isCut
    | cons first rest =>
      rw [lexFrom] at isCut
      rcases List.cons.inj isCut with ⟨isToken, -⟩
      exact ⟨first, rest, whole, isToken.symm⟩
  | cons earlier before ih =>
    cases text with
    | nil => simp [lexFrom] at isCut
    | cons first rest =>
      rw [lexFrom] at isCut
      rcases List.cons.inj isCut with ⟨isEarlier, isLater⟩
      rcases ih isLater with ⟨c, more, remains, isToken⟩
      refine ⟨c, more, remains, ?_⟩
      rw [isToken, ← isEarlier, List.flatMap_cons, Text.byteLength_append, Nat.add_assoc]

theorem text_ne_nil_of_mem_lexFrom {offset : Nat} {text : Text} {token : Token}
    (present : token ∈ lexFrom offset text) : token.text ≠ [] := by
  rcases List.append_of_mem present with ⟨before, after, isSplit⟩
  rcases exists_cut_of_lexFrom isSplit with ⟨first, rest, _, rfl⟩
  exact cut_lexeme_ne_nil first rest

/-- The pattern of the token's kind accepts the token. -/
def Accepted (token : Token) : Prop :=
  ∀ kind, token.kind = some kind → token.text ∈ kind.language

theorem accepted_of_mem_lexFrom {offset : Nat} {text : Text} {token : Token}
    (present : token ∈ lexFrom offset text) : token.Accepted := by
  rcases List.append_of_mem present with ⟨before, after, isSplit⟩
  rcases exists_cut_of_lexFrom isSplit with ⟨first, rest, _, rfl⟩
  exact cut_accepted first rest

/-- The first token of a kind is the longest beginning that a pattern accepts, and nothing else. -/
theorem cut_eq_iff {kind : TokenKind} {first : Char} {rest lexeme remainder : Text} :
    cut first rest = ⟨some kind, lexeme, remainder⟩ ↔
      lexeme ∈ kind.language ∧ lexeme ++ remainder = first :: rest ∧
        ∀ (other : TokenKind) (longer : Text), longer ∈ other.language →
          longer <+: first :: rest → longer.length ≤ lexeme.length := by
  have whole := cut_append first rest
  constructor
  · intro isCut
    have accepted := cut_accepted first rest kind (by rw [isCut])
    rw [isCut] at accepted whole
    refine ⟨accepted, whole, ?_⟩
    rintro other longer acceptedToo ⟨tail, begins⟩
    rcases cut_extends acceptedToo begins with ⟨_, extra, _, isLexeme, _⟩
    rw [isCut] at isLexeme
    subst isLexeme
    simp
  · rintro ⟨accepted, begins, longest⟩
    rcases cut_extends accepted begins with ⟨found, extra, isKind, isLexeme, same⟩
    have nothingMore : extra = [] := by
      have isLongest := longest found _ (cut_accepted first rest found isKind) ⟨_, whole⟩
      rw [isLexeme, List.length_append] at isLongest
      apply List.length_eq_zero_iff.mp
      omega
    rw [nothingMore, List.append_nil] at isLexeme
    rw [same nothingMore] at isKind
    rw [isLexeme, ← begins] at whole
    rw [← isKind, ← isLexeme, ← List.append_cancel_left whole]

theorem lexFrom_longest {kind : TokenKind} {lexeme remainder : Text} (offset : Nat)
    (accepted : lexeme ∈ kind.language)
    (longest : ∀ (other : TokenKind) (longer : Text), longer ∈ other.language →
      longer <+: lexeme ++ remainder → longer.length ≤ lexeme.length) :
    lexFrom offset (lexeme ++ remainder) =
      ⟨some kind, lexeme, offset⟩ :: lexFrom (offset + Text.byteLength lexeme) remainder := by
  rcases List.exists_cons_of_ne_nil (ne_nil_of_mem_language accepted) with ⟨first, more, rfl⟩
  have isCut : cut first (more ++ remainder) = ⟨some kind, first :: more, remainder⟩ :=
    cut_eq_iff.mpr ⟨accepted, rfl, longest⟩
  rw [List.cons_append, lexFrom, isCut]

/-- What a pattern accepts is a single token, where nothing follows it. -/
theorem lexFrom_of_mem {kind : TokenKind} {lexeme : Text} (offset : Nat)
    (accepted : lexeme ∈ kind.language) :
    lexFrom offset lexeme = [⟨some kind, lexeme, offset⟩] := by
  have longest : ∀ (other : TokenKind) (longer : Text), longer ∈ other.language →
      longer <+: lexeme ++ [] → longer.length ≤ lexeme.length := by
    intro other longer _ begins
    simpa using begins.length_le
  have lexed := lexFrom_longest offset accepted longest
  rw [List.append_nil] at lexed
  simpa [lexFrom] using lexed

/-- Tokens with kinds are cut off in the same way when the text ends after them. -/
theorem lexFrom_of_shorter {offset : Nat} {text : Text} {before after : List Token}
    (isSplit : lexFrom offset text = before ++ after)
    (classified : ∀ token ∈ before, token.kind.isSome) :
    lexFrom offset (before.flatMap (·.text)) = before := by
  induction before generalizing offset text with
  | nil => simp [lexFrom]
  | cons token before ih =>
    rw [List.forall_mem_cons] at classified
    cases text with
    | nil => simp [lexFrom] at isSplit
    | cons first rest =>
      rw [lexFrom] at isSplit
      rcases List.cons.inj isSplit with ⟨isToken, isLater⟩
      rcases Option.isSome_iff_exists.mp classified.1 with ⟨kind, isKind⟩
      have remains := congrArg (·.flatMap (·.text)) isLater
      simp only [flatten_lexFrom, List.append_eq, List.flatMap_append] at remains
      have isCut : cut first rest = ⟨some kind, token.text, (cut first rest).remainder⟩ := by
        rw [← isKind, ← isToken]
      rcases cut_eq_iff.mp isCut with ⟨accepted, whole, longest⟩
      rw [List.flatMap_cons, lexFrom_longest offset accepted]
      · rw [isCut] at isToken isLater
        rw [ih isLater classified.2]
        exact congrArg (· :: before) isToken
      · intro other longer acceptedToo begins
        apply longest other longer acceptedToo
        apply begins.trans
        exact ⟨after.flatMap (·.text), by rw [← whole, remains, List.append_assoc]⟩

/-- No text is accepted by two patterns, and every text is tiled by longest matches of them. -/
theorem lex_tiles (text : Text) :
    (∀ kind other : TokenKind, kind ≠ other →
      ∀ lexeme ∈ kind.language, lexeme ∉ other.language) ∧
    Tiles (lex text) text := by
  constructor
  · intro kind other different lexeme accepted acceptedToo
    exact different (kind_unique accepted acceptedToo)
  · refine ⟨flatten_lex text, ?_, ?_, ?_⟩
    · intro token present
      exact text_ne_nil_of_mem_lexFrom present
    · intro before token after isSplit
      rcases exists_cut_of_lexFrom isSplit with ⟨first, rest, _, isToken⟩
      rw [isToken, Nat.zero_add]
    · intro before token after isSplit
      rcases exists_cut_of_lexFrom isSplit with ⟨first, rest, remains, isToken⟩
      rw [remains, isToken]
      exact isLongestMatch_cut first rest _

end Token

end LiterateMarkdown
