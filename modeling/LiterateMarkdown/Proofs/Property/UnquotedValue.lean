import LiterateMarkdown.Proofs.Property.RoundTrip

/-!
# Values without quotes

A value that could be a name needs no quotes: whatever token it makes, it is taken as it is written.
The exceptions are a lone `#` and a lone `.`, which begin the name of an identifier or of a class
and so make no token of any kind (`readsUnquoted_iff`).
-/

namespace LiterateMarkdown

namespace Property

/-- Whether an attribute is read without quotes, and as the same that it is read as with them. -/
def ReadsUnquoted (key value : Text) : Prop :=
  parse (key ++ '=' :: value) = .ok [.attribute key value] ∧
    parse (key ++ '=' :: value) = parse (toText (.attribute key value))

theorem parse_key {key : Text} (isKey : IsKey key) (value : Text) :
    parse (key ++ '=' :: value) =
      ofTokens (⟨some .key, key ++ ['='], 0⟩ ::
        Token.significantFrom (Text.byteLength (key ++ ['='])) value) := by
  have keyName := (isKey_iff key).mp isKey
  rw [parse, Token.lex, ← Token.significantFrom, Token.significantFrom_key keyName, Nat.zero_add]

theorem exists_kind_of_isName {value : Text} (isName : IsName value) (notHash : value ≠ ['#'])
    (notDot : value ≠ ['.']) :
    ∃ kind ∈ [TokenKind.identifier, .className, .bare], value ∈ kind.language := by
  rcases (isName_iff value).mp isName with ⟨nonempty, allWord⟩
  rcases List.exists_cons_of_ne_nil nonempty with ⟨first, rest, rfl⟩
  have restWord : rest.all Token.isWord := by
    rw [List.all_cons, Bool.and_eq_true] at allWord
    exact allWord.2
  by_cases isHash : first = '#'
  · subst isHash
    have named : rest ≠ [] := by
      rintro rfl
      exact notHash rfl
    have accepted := TokenKind.mem_language_identifier.mpr ⟨rest, named, restWord, rfl⟩
    exact ⟨.identifier, by simp, accepted⟩
  by_cases isDot : first = '.'
  · subst isDot
    have named : rest ≠ [] := by
      rintro rfl
      exact notDot rfl
    have accepted := TokenKind.mem_language_className.mpr ⟨rest, named, restWord, rfl⟩
    exact ⟨.className, by simp, accepted⟩
  have accepted := TokenKind.mem_language_bare.mpr ⟨first, rest, isHash, isDot, allWord, rfl⟩
  exact ⟨.bare, by simp, accepted⟩

theorem parse_unquoted {key value : Text} {kind : TokenKind} (isKey : IsKey key)
    (isUnquoted : kind ∈ [TokenKind.identifier, .className, .bare])
    (accepted : value ∈ kind.language) :
    parse (key ++ '=' :: value) = .ok [.attribute key value] := by
  simp only [List.mem_cons, List.not_mem_nil, or_false] at isUnquoted
  rw [parse_key isKey, Token.significantFrom, Token.lexFrom_of_mem _ accepted]
  rcases isUnquoted with rfl | rfl | rfl <;> simp [ofTokens, tokenValue?, Except.map]

theorem parse_quoted {key : Text} (isKey : IsKey key) (value : Text) :
    parse (toText (.attribute key value)) = .ok [.attribute key value] := by
  apply parse_join_toText [.attribute key value]
  simpa [Writable] using (isKey_iff key).mp isKey

/-- A sigil without a name is no value, so the key before it has none. -/
theorem parse_lone_sigil {key : Text} {sigil : Char} (isKey : IsKey key)
    (isSigil : sigil = '#' ∨ sigil = '.') :
    parse (key ++ ['=', sigil]) = .error (.missingValue key) := by
  have isAlone : ∀ offset, Token.lexFrom offset [sigil] = [⟨none, [sigil], offset⟩] := by
    intro offset
    rcases isSigil with rfl | rfl <;> simp [Token.lexFrom, Token.cut, Token.cutSigil]
  rw [parse_key isKey, Token.significantFrom, isAlone]
  simp [ofTokens, tokenValue?]

/-- A name is read without quotes as with them, except where it is a sigil alone. -/
theorem readsUnquoted_iff {key value : Text} (isKey : IsKey key) (isName : IsName value) :
    ReadsUnquoted key value ↔ value ≠ ['#'] ∧ value ≠ ['.'] := by
  constructor
  · rintro ⟨read, _⟩
    constructor
    · rintro rfl
      rw [parse_lone_sigil isKey (.inl rfl)] at read
      contradiction
    · rintro rfl
      rw [parse_lone_sigil isKey (.inr rfl)] at read
      contradiction
  · rintro ⟨notHash, notDot⟩
    rcases exists_kind_of_isName isName notHash notDot with ⟨kind, isUnquoted, accepted⟩
    have read := parse_unquoted isKey isUnquoted accepted
    exact ⟨read, by rw [read, parse_quoted isKey]⟩

/-- A value of sigils alone, of which the first has the second for its name. -/
theorem readsUnquoted_iff_sigils :
    IsKey "file".toList ∧ IsName ".#".toList ∧ ReadsUnquoted "file".toList ".#".toList := by
  have isKey : IsKey "file".toList := (isKey_iff _).mpr (by decide)
  have isName : IsName ".#".toList := (isName_iff _).mpr (by decide)
  exact ⟨isKey, isName, (readsUnquoted_iff isKey isName).mpr (by decide)⟩

/-- The directory `.` is no value without quotes. -/
theorem not_forall_readsUnquoted :
    ¬ ∀ key value : Text, IsKey key → IsName value → ReadsUnquoted key value := by
  intro allRead
  have isKey : IsKey "file".toList := (isKey_iff _).mpr (by decide)
  have isName : IsName ['.'] := (isName_iff _).mpr (by decide)
  rcases allRead _ _ isKey isName with ⟨read, _⟩
  rw [parse_lone_sigil isKey (.inr rfl)] at read
  contradiction

end Property

end LiterateMarkdown
