import LiterateMarkdown.Proofs.Property.WrittenForm

/-!
# What is read, and where reading breaks off

The tokens of a text that can be read, white space aside, are braces, identifiers, classes and pairs
of a key and a value, and each but the braces gives one property (`Property.Spells`). If a text
cannot be read, the error names the token at which reading breaks off, and what stands before that
token can be read when it stands alone (`Property.accountsFor_parse`).

That the text before the token may be read alone rests on the longest match: tokens with kinds are
cut off in the same way when the text ends after them, and no key that was read lost its value.
-/

namespace LiterateMarkdown

namespace Token

/-- Whether the token can stand after a key. -/
def CanBeValue (token : Token) : Prop :=
  token.kind ∈ [some .quoted, some .bare, some .identifier, some .className]

end Token

namespace Property

/-- The value that a token gives to the key before it. -/
inductive Denotes : Token → Text → Prop where
  | quoted {token : Token} {body : Text} : token.kind = some .quoted →
      token.text = '"' :: body ++ ['"'] → Denotes token (unescape body)
  | unquoted {token : Token} : token.kind ∈ [some .bare, some .identifier, some .className] →
      Denotes token token.text

/-- The properties that tokens other than white space give, one after the other. -/
inductive Spells : List Token → List Property → Prop where
  | nil : Spells [] []
  | brace {token : Token} {rest : List Token} {properties : List Property} :
      token.kind = some .leftBrace ∨ token.kind = some .rightBrace → Spells rest properties →
      Spells (token :: rest) properties
  | identifier {token : Token} {name : Text} {rest : List Token} {properties : List Property} :
      token.kind = some .identifier → token.text = '#' :: name → Spells rest properties →
      Spells (token :: rest) (.identifier name :: properties)
  | className {token : Token} {name : Text} {rest : List Token} {properties : List Property} :
      token.kind = some .className → token.text = '.' :: name → Spells rest properties →
      Spells (token :: rest) (.className name :: properties)
  | pair {token next : Token} {key value : Text} {rest : List Token}
      {properties : List Property} :
      token.kind = some .key → token.text = key ++ ['='] → Denotes next value →
      Spells rest properties →
      Spells (token :: next :: rest) (.attribute key value :: properties)

/-- Why reading breaks off at a token, given the tokens after it. -/
inductive BreaksOff (token : Token) (later : List Token) : PropertyError → Prop where
  | unexpected : token.kind ∈ [none, some .quoted, some .bare] →
      BreaksOff token later (.unexpected token.text token.offset)
  | missingValue {key : Text} : token.kind = some .key → token.text = key ++ ['='] →
      (∀ next ∈ later.head?, ¬ next.CanBeValue) → BreaksOff token later (.missingValue key)

theorem tokenValue?_of_denotes {token : Token} {value : Text} (denotes : Denotes token value) :
    tokenValue? token = some value := by
  cases denotes with
  | quoted isQuoted isText => simp [tokenValue?, isQuoted, isText]
  | unquoted isUnquoted =>
    simp only [List.mem_cons, List.not_mem_nil, or_false] at isUnquoted
    rcases isUnquoted with isKind | isKind | isKind <;> simp [tokenValue?, isKind]

theorem denotes_of_tokenValue? {token : Token} {value : Text} (accepted : token.Accepted)
    (isValue : tokenValue? token = some value) : Denotes token value := by
  unfold tokenValue? at isValue
  split at isValue
  · rename_i isQuoted
    rcases TokenKind.mem_language_quoted.mp (accepted _ isQuoted) with ⟨body, _, isText⟩
    cases isValue
    rw [isText]
    simpa using Denotes.quoted isQuoted isText
  · rename_i isBare
    cases isValue
    exact .unquoted (by simp [isBare])
  · rename_i isIdentifier
    cases isValue
    exact .unquoted (by simp [isIdentifier])
  · rename_i isClassName
    cases isValue
    exact .unquoted (by simp [isClassName])
  · contradiction

theorem not_canBeValue_of_tokenValue? {token : Token} (noValue : tokenValue? token = none) :
    ¬ token.CanBeValue := by
  intro canBeValue
  simp only [Token.CanBeValue, List.mem_cons, List.not_mem_nil, or_false] at canBeValue
  rcases canBeValue with isKind | isKind | isKind | isKind <;> simp [tokenValue?, isKind] at noValue

/-- What tokens spell is read from them, whatever tokens come after them. -/
theorem ofTokens_append_of_spells {tokens : List Token} {properties : List Property}
    (spells : Spells tokens properties) (later : List Token) :
    ofTokens (tokens ++ later) = (ofTokens later).map (properties ++ ·) := by
  induction spells with
  | nil =>
    rw [List.nil_append]
    cases ofTokens later <;> rfl
  | brace isBrace _ ih =>
    rw [List.cons_append, ofTokens.eq_def]
    rcases isBrace with isKind | isKind <;> simp [isKind, ih]
  | identifier isKind isText _ ih | className isKind isText _ ih =>
    rw [List.cons_append, ofTokens.eq_def]
    simp only [isKind, isText, ih]
    cases ofTokens later <;> rfl
  | pair isKind isText denotes _ ih =>
    rw [List.cons_append, List.cons_append, ofTokens.eq_def]
    simp only [isKind, isText, List.dropLast_concat, tokenValue?_of_denotes denotes, ih]
    cases ofTokens later <;> rfl

theorem ofTokens_of_spells {tokens : List Token} {properties : List Property}
    (spells : Spells tokens properties) : ofTokens tokens = .ok properties := by
  have read := ofTokens_append_of_spells spells []
  simpa [ofTokens, Except.map] using read

theorem isSome_of_spells {tokens : List Token} {properties : List Property}
    (spells : Spells tokens properties) : ∀ token ∈ tokens, token.kind.isSome := by
  induction spells with
  | nil => simp
  | brace isBrace _ ih =>
    rw [List.forall_mem_cons]
    refine ⟨?_, ih⟩
    rcases isBrace with isKind | isKind <;> simp [isKind]
  | identifier isKind _ _ ih | className isKind _ _ ih =>
    rw [List.forall_mem_cons]
    exact ⟨by simp [isKind], ih⟩
  | pair isKind _ denotes _ ih =>
    rw [List.forall_mem_cons, List.forall_mem_cons]
    refine ⟨by simp [isKind], ?_, ih⟩
    cases denotes with
    | quoted isQuoted _ => simp [isQuoted]
    | unquoted isUnquoted =>
      simp only [List.mem_cons, List.not_mem_nil, or_false] at isUnquoted
      rcases isUnquoted with isKind | isKind | isKind <;> simp [isKind]

/-- Where tokens spell properties, those between them are white space. -/
theorem isSome_of_spells_filter {tokens : List Token} {properties : List Property}
    (spells : Spells (tokens.filter (·.kind ≠ some .whitespace)) properties) :
    ∀ token ∈ tokens, token.kind.isSome := by
  intro token present
  by_cases isBlank : token.kind = some .whitespace
  · simp [isBlank]
  · apply isSome_of_spells spells
    rw [List.mem_filter]
    exact ⟨present, by simpa using isBlank⟩

/-- The tokens spell what is read, or they spell something up to where reading breaks off. -/
def Reads (tokens : List Token) : Except PropertyError (List Property) → Prop
  | .ok properties => Spells tokens properties
  | .error cause => ∃ before token later properties, tokens = before ++ token :: later ∧
      Spells before properties ∧ BreaksOff token later cause

theorem Reads.append (front : List Token) (change : List Property → List Property)
    {tokens : List Token} {result : Except PropertyError (List Property)}
    (continues : ∀ {before properties}, Spells before properties →
      Spells (front ++ before) (change properties))
    (reads : Reads tokens result) : Reads (front ++ tokens) (result.map change) := by
  cases result with
  | ok properties => exact continues reads
  | error cause =>
    rcases reads with ⟨before, token, later, properties, rfl, spells, breaksOff⟩
    exact ⟨front ++ before, token, later, change properties, by simp, continues spells, breaksOff⟩

theorem Reads.brace {token : Token} {rest : List Token}
    {result : Except PropertyError (List Property)}
    (isBrace : token.kind = some .leftBrace ∨ token.kind = some .rightBrace)
    (reads : Reads rest result) : Reads (token :: rest) result := by
  have skipped := reads.append [token] id (.brace isBrace)
  rwa [Except.map_id] at skipped

theorem reads_of_breaksOff {token : Token} {later : List Token} {cause : PropertyError}
    (breaksOff : BreaksOff token later cause) : Reads (token :: later) (.error cause) :=
  ⟨[], token, later, [], rfl, .nil, breaksOff⟩

theorem reads_ofTokens {tokens : List Token} (accepted : ∀ token ∈ tokens, token.Accepted)
    (visible : ∀ token ∈ tokens, token.kind ≠ some .whitespace) :
    Reads tokens (ofTokens tokens) := by
  fun_induction ofTokens tokens with
  | case1 => exact .nil
  | case2 token rest isKind ih =>
    rw [List.forall_mem_cons] at accepted visible
    exact (ih accepted.2 visible.2).brace (.inl isKind)
  | case3 token rest isKind ih =>
    rw [List.forall_mem_cons] at accepted visible
    exact (ih accepted.2 visible.2).brace (.inr isKind)
  | case4 token rest isKind ih =>
    rw [List.forall_mem_cons] at accepted visible
    rcases TokenKind.mem_language_identifier.mp (accepted.1 _ isKind) with ⟨name, _, _, isText⟩
    rw [isText]
    exact (ih accepted.2 visible.2).append [token] _ (.identifier isKind isText)
  | case5 token rest isKind ih =>
    rw [List.forall_mem_cons] at accepted visible
    rcases TokenKind.mem_language_className.mp (accepted.1 _ isKind) with ⟨name, _, _, isText⟩
    rw [isText]
    exact (ih accepted.2 visible.2).append [token] _ (.className isKind isText)
  | case6 token isKind =>
    rw [List.forall_mem_cons] at accepted
    rcases TokenKind.mem_language_key.mp (accepted.1 _ isKind) with ⟨key, _, isText⟩
    rw [isText, List.dropLast_concat]
    exact reads_of_breaksOff (.missingValue isKind isText (by simp))
  | case7 token isKind next rest value isValue ih =>
    rw [List.forall_mem_cons, List.forall_mem_cons] at accepted visible
    rcases TokenKind.mem_language_key.mp (accepted.1 _ isKind) with ⟨key, _, isText⟩
    have denotes := denotes_of_tokenValue? accepted.2.1 isValue
    rw [isText, List.dropLast_concat]
    exact (ih accepted.2.2 visible.2.2).append [token, next] _ (.pair isKind isText denotes)
  | case8 token isKind next rest noValue =>
    rw [List.forall_mem_cons] at accepted
    rcases TokenKind.mem_language_key.mp (accepted.1 _ isKind) with ⟨key, _, isText⟩
    have cannotBeValue := not_canBeValue_of_tokenValue? noValue
    rw [isText, List.dropLast_concat]
    exact reads_of_breaksOff (.missingValue isKind isText (by simpa using cannotBeValue))
  | case9 token rest _ _ _ _ _ =>
    rw [List.forall_mem_cons] at visible
    have isOther : token.kind ∈ [none, some .quoted, some .bare] := by
      cases isKind : token.kind with
      | none => simp
      | some kind => cases kind <;> simp_all
    exact reads_of_breaksOff (.unexpected isOther)

theorem reads_parse (input : Text) : Reads (Token.significantFrom 0 input) (parse input) := by
  apply reads_ofTokens
  · intro token present
    exact Token.accepted_of_mem_significantFrom present
  · intro token present
    simpa using (List.mem_filter.mp present).2

/-- A token of the text, where what stands before it can be read alone. -/
structure IsReadUpTo (input : Text) (token : Token) (later : List Token) : Prop where
  isToken : ∃ earlier, Token.lex input = earlier ++ token :: later
  isCut : ∃ before after properties, input = before ++ token.text ++ after ∧
    Text.byteLength before = token.offset ∧ parse before = .ok properties

theorem isReadUpTo_of_spells {input : Text} {before later : List Token} {token : Token}
    {properties : List Property}
    (isSplit : Token.significantFrom 0 input = before ++ token :: later)
    (spells : Spells before properties) :
    ∃ rest, rest.filter (·.kind ≠ some .whitespace) = later ∧ IsReadUpTo input token rest := by
  rcases List.filter_eq_append_iff.mp isSplit with ⟨first, second, isLex, isBefore, isLater⟩
  rcases List.filter_eq_cons_iff.mp isLater with ⟨blank, rest, rfl, areBlank, _, isRest⟩
  have isLex' : Token.lexFrom 0 input = (first ++ blank) ++ token :: rest := by
    rw [isLex, List.append_assoc]
  have earlierSpell : (first ++ blank).filter (·.kind ≠ some .whitespace) = before := by
    rw [List.filter_append, isBefore, List.filter_eq_nil_iff.mpr areBlank, List.append_nil]
  have classified : ∀ other ∈ first ++ blank, other.kind.isSome := by
    apply isSome_of_spells_filter
    rwa [earlierSpell]
  refine ⟨rest, isRest, ⟨_, isLex'⟩, (first ++ blank).flatMap (·.text), rest.flatMap (·.text),
    properties, ?_, ?_, ?_⟩
  · have whole := Token.flatten_lexFrom 0 input
    rw [isLex', List.flatMap_append, List.flatMap_cons] at whole
    rw [← whole, List.append_assoc]
  · rcases Token.exists_cut_of_lexFrom isLex' with ⟨_, _, _, isToken⟩
    rw [isToken, Nat.zero_add]
  · have sameTokens := Token.lexFrom_of_shorter isLex' classified
    rw [parse, Token.lex, sameTokens, earlierSpell]
    exact ofTokens_of_spells spells

/-- What a result of reading says of the text. -/
def AccountsFor (input : Text) : Except PropertyError (List Property) → Prop
  | .ok properties => Spells (Token.significantFrom 0 input) properties
  | .error (.unexpected text offset) =>
    text ≠ [] ∧ ∃ kind later, IsReadUpTo input ⟨kind, text, offset⟩ later ∧
      kind ∈ [none, some .quoted, some .bare]
  | .error (.missingValue key) =>
    ∃ offset later, IsReadUpTo input ⟨some .key, key ++ ['='], offset⟩ later ∧
      ∀ next ∈ (later.filter (·.kind ≠ some .whitespace)).head?, ¬ next.CanBeValue

/-- A result accounts for the text, and properties that the text spells are always read from it. -/
theorem accountsFor_parse (input : Text) :
    AccountsFor input (parse input) ∧
      ∀ properties, Spells (Token.significantFrom 0 input) properties →
        parse input = .ok properties := by
  refine ⟨?_, fun _ => ofTokens_of_spells⟩
  have reads := reads_parse input
  cases isRead : parse input with
  | ok properties => rwa [isRead] at reads
  | error cause =>
    rw [isRead] at reads
    rcases reads with ⟨before, token, later, properties, isSplit, spells, breaksOff⟩
    rcases isReadUpTo_of_spells isSplit spells with ⟨rest, rfl, isReadUpTo⟩
    cases breaksOff with
    | unexpected isOther =>
      rcases isReadUpTo.isToken with ⟨earlier, isLex⟩
      have present : token ∈ Token.lex input := by simp [isLex]
      exact ⟨Token.text_ne_nil_of_mem_lexFrom present, token.kind, rest, isReadUpTo, isOther⟩
    | missingValue isKey isText cannotBeValue =>
      rcases token with ⟨_, _, offset⟩
      cases isKey
      cases isText
      exact ⟨offset, rest, isReadUpTo, cannotBeValue⟩

end Property

end LiterateMarkdown
