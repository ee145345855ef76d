import LiterateMarkdown.Property.Token

/-!
# Names and keys

Which texts can stand without quotes as a name, and which can stand before `=` as a key, told by
their characters alone. The tests that tokens are cut with decide just these.
-/

namespace LiterateMarkdown

namespace Property

/-- A name that needs no quotes. -/
def IsName (name : Text) : Prop :=
  name ≠ [] ∧ ∀ c ∈ name,
    Text.isBlank c = false ∧ c ≠ '\x7b' ∧ c ≠ '\x7d' ∧ c ≠ '=' ∧ c ≠ '"'

def IsKeyStart (c : Char) : Prop :=
  ('A' ≤ c ∧ c ≤ 'Z') ∨ ('a' ≤ c ∧ c ≤ 'z') ∨ c = '_'

def IsKeyRest (c : Char) : Prop :=
  IsKeyStart c ∨ ('0' ≤ c ∧ c ≤ '9') ∨ c = '-'

/-- A letter of the Latin alphabet or an underscore, then such characters, digits and hyphens. -/
def IsKey : Text → Prop
  | [] => False
  | first :: rest => IsKeyStart first ∧ ∀ c ∈ rest, IsKeyRest c

theorem isWord_iff (c : Char) :
    Token.isWord c ↔ Text.isBlank c = false ∧ c ≠ '\x7b' ∧ c ≠ '\x7d' ∧ c ≠ '=' ∧ c ≠ '"' := by
  simp [Token.isWord, and_assoc]

theorem isName_iff (name : Text) : IsName name ↔ name ≠ [] ∧ name.all Token.isWord := by
  simp only [IsName, List.all_eq_true, isWord_iff]

theorem isKeyStart_iff (c : Char) : Token.isKeyStart c ↔ IsKeyStart c := by
  have isLetter : c.isAlpha =
      (decide ('A'.val ≤ c.val ∧ c.val ≤ 'Z'.val) || ('a'.val ≤ c.val && c.val ≤ 'z'.val)) := rfl
  simp [Token.isKeyStart, IsKeyStart, isLetter, Char.le_def, or_assoc]

theorem isKeyRest_iff (c : Char) : Token.isKeyRest c ↔ IsKeyRest c := by
  simp only [IsKeyRest, ← isKeyStart_iff]
  simp [Token.isKeyRest, Token.isKeyStart, Char.isAlphanum, Char.isDigit, Char.le_def, or_assoc,
    or_left_comm]

theorem isKey_iff (key : Text) : IsKey key ↔ Token.isKeyName key := by
  cases key with
  | nil => simp [IsKey, Token.isKeyName]
  | cons first rest => simp [IsKey, Token.isKeyName, isKeyStart_iff, isKeyRest_iff]

end Property

namespace Token

theorem toNat_lt_of_isKeyRest {c : Char} (keyRest : isKeyRest c) : c.toNat < 123 := by
  have ranges : isKeyRest c =
      (((decide (65 ≤ c.toNat ∧ c.toNat ≤ 90) ||
          (decide (97 ≤ c.toNat) && decide (c.toNat ≤ 122))) ||
        (decide (48 ≤ c.toNat) && decide (c.toNat ≤ 57))) || decide (c = '_') ||
        decide (c = '-')) := rfl
  rw [ranges] at keyRest
  simp only [Bool.or_eq_true, Bool.and_eq_true, decide_eq_true_eq] at keyRest
  rcases keyRest with (((⟨_, upper⟩ | ⟨_, lower⟩) | ⟨_, digit⟩) | rfl) | rfl
  · omega
  · omega
  · omega
  · decide
  · decide

theorem isWord_of_isKeyRest {c : Char} (keyRest : isKeyRest c) : isWord c := by
  have table : ∀ n < 123, isKeyRest (Char.ofNat n) → isWord (Char.ofNat n) := by decide
  have word := table c.toNat (toNat_lt_of_isKeyRest keyRest)
  rw [Char.ofNat_toNat] at word
  exact word keyRest

theorem isKeyRest_of_isKeyStart {c : Char} (keyStart : isKeyStart c) : isKeyRest c := by
  simp only [isKeyStart, isKeyRest, Char.isAlphanum, Bool.or_eq_true] at keyStart ⊢
  rcases keyStart with letter | underscore
  · exact Or.inl (Or.inl (Or.inl letter))
  · exact Or.inl (Or.inr underscore)

theorem not_isWord_of_isSeparator {c : Char} (separator : isSeparator c) : isWord c = false := by
  simp only [isSeparator, Bool.or_eq_true, decide_eq_true_eq] at separator
  rcases separator with ((rfl | rfl) | rfl) | rfl <;> decide

theorem not_isSeparator_of_isWord {c : Char} (word : isWord c) : isSeparator c = false := by
  cases separator : isSeparator c with
  | false => rfl
  | true =>
    rw [not_isWord_of_isSeparator separator] at word
    contradiction

theorem ne_newline_of_isWord {c : Char} (word : isWord c) : c ≠ '\n' := by
  rintro rfl
  exact absurd word (by decide)

theorem all_isWord_of_isKeyName {key : Text} (keyName : isKeyName key) : key.all isWord := by
  cases key with
  | nil => exact absurd keyName (by decide)
  | cons first rest =>
    simp only [isKeyName, Bool.and_eq_true] at keyName
    rw [List.all_cons, Bool.and_eq_true]
    refine ⟨isWord_of_isKeyRest (isKeyRest_of_isKeyStart keyName.1), ?_⟩
    rw [List.all_eq_true] at keyName ⊢
    intro c present
    exact isWord_of_isKeyRest (keyName.2 c present)

end Token

end LiterateMarkdown
