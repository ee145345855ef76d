import LiterateMarkdown.Proofs.Property.Names
import Mathlib.Computability.Language

/-!
# The patterns of tokens

Each kind of token has a pattern, which is given here as the language of the texts that it accepts.
The patterns are told by characters alone. What they say of a whole text is put into the terms in
which a text is cut (`TokenKind.mem_language_key` and its likes).
-/

namespace LiterateMarkdown

open scoped Computability

/-- The texts of a single character of a class. -/
def oneOf (accepted : Char → Prop) : Language Char :=
  {text | ∃ c, accepted c ∧ text = [c]}

/-- The texts of one or more characters of a class. -/
def oneOrMore (accepted : Char → Prop) : Language Char :=
  oneOf accepted * (oneOf accepted)∗

section

variable {accepted : Char → Prop} {text : Text}

theorem mem_oneOf : text ∈ oneOf accepted ↔ ∃ c, accepted c ∧ text = [c] :=
  Iff.rfl

theorem mem_oneOf_mul {rest : Language Char} :
    text ∈ oneOf accepted * rest ↔ ∃ c more, accepted c ∧ more ∈ rest ∧ text = c :: more := by
  rw [Language.mem_mul]
  constructor
  · rintro ⟨_, ⟨c, isAccepted, rfl⟩, more, isMore, rfl⟩
    exact ⟨c, more, isAccepted, isMore, rfl⟩
  · rintro ⟨c, more, isAccepted, isMore, rfl⟩
    exact ⟨[c], ⟨c, isAccepted, rfl⟩, more, isMore, rfl⟩

theorem mem_mul_oneOf {start : Language Char} :
    text ∈ start * oneOf accepted ↔ ∃ more c, more ∈ start ∧ accepted c ∧ text = more ++ [c] := by
  rw [Language.mem_mul]
  constructor
  · rintro ⟨more, isMore, _, ⟨c, isAccepted, rfl⟩, rfl⟩
    exact ⟨more, c, isMore, isAccepted, rfl⟩
  · rintro ⟨more, c, isMore, isAccepted, rfl⟩
    exact ⟨more, isMore, [c], ⟨c, isAccepted, rfl⟩, rfl⟩

theorem append_mem_kstar {pieces : Language Char} {piece : Text} (isPiece : piece ∈ pieces)
    (areMore : text ∈ pieces∗) : piece ++ text ∈ pieces∗ := by
  rcases Language.mem_kstar.mp areMore with ⟨more, rfl, isMore⟩
  apply Language.mem_kstar.mpr
  refine ⟨piece :: more, by simp, ?_⟩
  intro other present
  rcases List.mem_cons.mp present with rfl | later
  · exact isPiece
  · exact isMore other later

theorem mem_kstar_oneOf : text ∈ (oneOf accepted)∗ ↔ ∀ c ∈ text, accepted c := by
  constructor
  · intro isText c present
    rcases Language.mem_kstar.mp isText with ⟨pieces, rfl, arePieces⟩
    rcases List.mem_flatten.mp present with ⟨piece, isPiece, inPiece⟩
    rcases arePieces piece isPiece with ⟨single, isAccepted, rfl⟩
    rw [List.mem_singleton] at inPiece
    exact inPiece ▸ isAccepted
  · intro areAccepted
    induction text with
    | nil => exact Language.nil_mem_kstar _
    | cons c text ih =>
      rw [List.forall_mem_cons] at areAccepted
      exact append_mem_kstar (mem_oneOf.mpr ⟨c, areAccepted.1, rfl⟩) (ih areAccepted.2)

theorem mem_oneOrMore : text ∈ oneOrMore accepted ↔ text ≠ [] ∧ ∀ c ∈ text, accepted c := by
  rw [oneOrMore, mem_oneOf_mul]
  constructor
  · rintro ⟨c, more, isAccepted, areMore, rfl⟩
    refine ⟨by simp, ?_⟩
    rw [List.forall_mem_cons]
    exact ⟨isAccepted, mem_kstar_oneOf.mp areMore⟩
  · rintro ⟨nonempty, areAccepted⟩
    rcases List.exists_cons_of_ne_nil nonempty with ⟨c, more, rfl⟩
    rw [List.forall_mem_cons] at areAccepted
    exact ⟨c, more, areAccepted.1, mem_kstar_oneOf.mpr areAccepted.2, rfl⟩

end

namespace TokenKind

/-- What parts tokens. Other white space, such as a no-break space, belongs to no word either. -/
def IsSpace (c : Char) : Prop :=
  c = ' ' ∨ c = '\t' ∨ c = '\r' ∨ c = '\n'

def IsWordCharacter (c : Char) : Prop :=
  Text.isBlank c = false ∧ c ≠ '\x7b' ∧ c ≠ '\x7d' ∧ c ≠ '=' ∧ c ≠ '"'

/-- A character between quotes, or a backslash with the character after it, which is no newline. -/
def quotedPiece : Language Char :=
  oneOf (fun c => c ≠ '"' ∧ c ≠ '\\') + oneOf (· = '\\') * oneOf (· ≠ '\n')

/-- The texts that the pattern of a kind accepts. -/
def language : TokenKind → Language Char
  | whitespace => oneOrMore IsSpace
  | identifier => oneOf (· = '#') * oneOrMore IsWordCharacter
  | className => oneOf (· = '.') * oneOrMore IsWordCharacter
  | key => oneOf Property.IsKeyStart * (oneOf Property.IsKeyRest)∗ * oneOf (· = '=')
  | quoted => oneOf (· = '"') * quotedPiece∗ * oneOf (· = '"')
  | bare =>
    oneOf (fun c => IsWordCharacter c ∧ c ≠ '#' ∧ c ≠ '.') * (oneOf IsWordCharacter)∗
  | leftBrace => oneOf (· = '\x7b')
  | rightBrace => oneOf (· = '\x7d')

variable {text : Text}

theorem mem_language_whitespace :
    text ∈ whitespace.language ↔ text ≠ [] ∧ text.all Token.isSeparator := by
  simp [language, mem_oneOrMore, IsSpace, Token.isSeparator, or_assoc]

theorem mem_oneOrMore_isWordCharacter :
    text ∈ oneOrMore IsWordCharacter ↔ text ≠ [] ∧ text.all Token.isWord := by
  rw [mem_oneOrMore, ← Property.isName_iff]
  rfl

theorem mem_language_identifier :
    text ∈ identifier.language ↔
      ∃ name, name ≠ [] ∧ name.all Token.isWord ∧ text = '#' :: name := by
  simp [language, mem_oneOf_mul, mem_oneOrMore_isWordCharacter, and_assoc]

theorem mem_language_className :
    text ∈ className.language ↔
      ∃ name, name ≠ [] ∧ name.all Token.isWord ∧ text = '.' :: name := by
  simp [language, mem_oneOf_mul, mem_oneOrMore_isWordCharacter, and_assoc]

theorem mem_language_key :
    text ∈ key.language ↔ ∃ name, Token.isKeyName name ∧ text = name ++ ['='] := by
  simp only [language, mem_mul_oneOf, mem_oneOf_mul, mem_kstar_oneOf]
  constructor
  · rintro ⟨_, _, ⟨first, rest, isStart, areRest, rfl⟩, rfl, rfl⟩
    exact ⟨first :: rest, (Property.isKey_iff _).mp ⟨isStart, areRest⟩, rfl⟩
  · rintro ⟨name, keyName, rfl⟩
    cases name with
    | nil => simp [Token.isKeyName] at keyName
    | cons first rest =>
      rcases (Property.isKey_iff _).mpr keyName with ⟨isStart, areRest⟩
      exact ⟨_, '=', ⟨first, rest, isStart, areRest, rfl⟩, rfl, rfl⟩

theorem mem_language_quoted :
    text ∈ quoted.language ↔ ∃ body ∈ quotedPiece∗, text = '"' :: body ++ ['"'] := by
  simp only [language, mem_mul_oneOf, mem_oneOf_mul]
  constructor
  · rintro ⟨_, _, ⟨_, body, rfl, isBody, rfl⟩, rfl, rfl⟩
    exact ⟨body, isBody, rfl⟩
  · rintro ⟨body, isBody, rfl⟩
    exact ⟨_, _, ⟨_, body, rfl, isBody, rfl⟩, rfl, rfl⟩

theorem mem_language_bare :
    text ∈ bare.language ↔
      ∃ first rest, first ≠ '#' ∧ first ≠ '.' ∧ (first :: rest).all Token.isWord ∧
        text = first :: rest := by
  simp only [language, mem_oneOf_mul, mem_kstar_oneOf, List.all_cons, Bool.and_eq_true,
    List.all_eq_true, Property.isWord_iff]
  constructor
  · rintro ⟨first, rest, ⟨isWord, notHash, notDot⟩, areWord, rfl⟩
    exact ⟨first, rest, notHash, notDot, ⟨isWord, areWord⟩, rfl⟩
  · rintro ⟨first, rest, notHash, notDot, ⟨isWord, areWord⟩, rfl⟩
    exact ⟨first, rest, ⟨isWord, notHash, notDot⟩, areWord, rfl⟩

theorem mem_language_leftBrace : text ∈ leftBrace.language ↔ text = ['\x7b'] := by
  simp [language, mem_oneOf]

theorem mem_language_rightBrace : text ∈ rightBrace.language ↔ text = ['\x7d'] := by
  simp [language, mem_oneOf]

theorem mem_quotedPiece :
    text ∈ quotedPiece ↔
      (∃ c, c ≠ '"' ∧ c ≠ '\\' ∧ text = [c]) ∨ ∃ c, c ≠ '\n' ∧ text = ['\\', c] := by
  rw [quotedPiece, Language.mem_add]
  simp [mem_oneOf_mul, mem_oneOf, and_assoc]

theorem ne_nil_of_mem_language {kind : TokenKind} {lexeme : Text}
    (accepted : lexeme ∈ kind.language) : lexeme ≠ [] := by
  rintro rfl
  cases kind with
  | whitespace => simp [mem_language_whitespace] at accepted
  | identifier => simp [mem_language_identifier] at accepted
  | className => simp [mem_language_className] at accepted
  | key => simp [mem_language_key] at accepted
  | quoted => simp [mem_language_quoted] at accepted
  | bare => simp [mem_language_bare] at accepted
  | leftBrace => simp [mem_language_leftBrace] at accepted
  | rightBrace => simp [mem_language_rightBrace] at accepted

end TokenKind

end LiterateMarkdown
