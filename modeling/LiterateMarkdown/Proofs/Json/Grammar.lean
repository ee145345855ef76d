import LiterateMarkdown.Json.Value

/-!
# The grammar of JSON

Which texts spell a value, apart from how they are read. The rules are those of the grammar that
defines JSON: an element is a value between blanks, and objects and arrays hold elements. A string
spells a text if its escapes of UTF-16 come in pairs where they have to (`Json.SpellsText`); a
string in which they do not is well-formed but holds no text.
-/

namespace LiterateMarkdown

namespace Json

/-- The characters that may stand between the tokens. -/
def blanks : Text :=
  " \t\r\n".toList

def AreBlanks (text : Text) : Prop :=
  ∀ c ∈ text, c ∈ blanks

instance (text : Text) : Decidable (AreBlanks text) :=
  List.decidableBAll (· ∈ blanks) text

/-! ## Numbers -/

def AreDigits (text : Text) : Prop :=
  text ≠ [] ∧ ∀ c ∈ text, c.isDigit = true

/-- The digits before the point, without a needless zero. -/
inductive IsInteger : Text → Prop where
  | zero : IsInteger ['0']
  | digits {first : Char} {rest : Text} (isDigit : first.isDigit = true) (notZero : first ≠ '0')
      (areDigits : ∀ c ∈ rest, c.isDigit = true) : IsInteger (first :: rest)

inductive IsFraction : Text → Prop where
  | missing : IsFraction []
  | digits {digits : Text} (areDigits : AreDigits digits) : IsFraction ('.' :: digits)

inductive IsExponent : Text → Prop where
  | missing : IsExponent []
  | digits {mark : Char} {sign digits : Text} (isMark : mark ∈ ['e', 'E'])
      (isSign : sign ∈ [[], ['+'], ['-']]) (areDigits : AreDigits digits) :
      IsExponent (mark :: (sign ++ digits))

inductive IsNumber : Text → Prop where
  | parts {sign integer fraction exponent : Text} (isSign : sign ∈ [[], ['-']])
      (isInteger : IsInteger integer) (isFraction : IsFraction fraction)
      (isExponent : IsExponent exponent) :
      IsNumber (sign ++ integer ++ fraction ++ exponent)

/-! ## Strings -/

/-- A character that stands for itself in a string. -/
def IsPlain (c : Char) : Prop :=
  ' ' ≤ c ∧ c ≠ '"' ∧ c ≠ '\\'

instance (c : Char) : Decidable (IsPlain c) :=
  inferInstanceAs (Decidable (_ ∧ _ ∧ _))

def ArePlain (text : Text) : Prop :=
  ∀ c ∈ text, IsPlain c

instance (text : Text) : Decidable (ArePlain text) :=
  List.decidableBAll IsPlain text

/-- The escapes of one letter, with the characters that they stand for. -/
def escapes : List (Char × Char) :=
  [('"', '"'), ('\\', '\\'), ('/', '/'), ('b', '\x08'), ('f', '\x0c'), ('n', '\n'), ('r', '\r'),
    ('t', '\t')]

def IsHexDigit (c : Char) (value : Nat) : Prop :=
  "0123456789abcdef".toList[value]? = some c ∨ "0123456789ABCDEF".toList[value]? = some c

/-- Four hexadecimal digits, with the code unit of UTF-16 that they stand for. -/
inductive IsCodeUnit : Text → Nat → Prop where
  | digits {a b c d : Char} {i j k l : Nat} (first : IsHexDigit a i) (second : IsHexDigit b j)
      (third : IsHexDigit c k) (fourth : IsHexDigit d l) :
      IsCodeUnit [a, b, c, d] (((i * 16 + j) * 16 + k) * 16 + l)

/-- What may stand between the quotes of a string. -/
inductive IsString : Text → Prop where
  | nil : IsString []
  | plain {c : Char} {rest : Text} (isPlain : IsPlain c) (more : IsString rest) :
      IsString (c :: rest)
  | escape {letter c : Char} {rest : Text} (isEscape : (letter, c) ∈ escapes)
      (more : IsString rest) : IsString ('\\' :: letter :: rest)
  | codeUnit {digits rest : Text} {value : Nat} (isUnit : IsCodeUnit digits value)
      (more : IsString rest) : IsString ('\\' :: 'u' :: (digits ++ rest))

/-- What stands between the quotes of a string that holds a text. -/
inductive SpellsText : Text → Text → Prop where
  | nil : SpellsText [] []
  | plain {c : Char} {rest content : Text} (isPlain : IsPlain c) (more : SpellsText rest content) :
      SpellsText (c :: rest) (c :: content)
  | escape {letter c : Char} {rest content : Text} (isEscape : (letter, c) ∈ escapes)
      (more : SpellsText rest content) : SpellsText ('\\' :: letter :: rest) (c :: content)
  | codeUnit {digits rest content : Text} {c : Char} (isUnit : IsCodeUnit digits c.toNat)
      (more : SpellsText rest content) :
      SpellsText ('\\' :: 'u' :: (digits ++ rest)) (c :: content)
  | pair {first second rest content : Text} {high low : Nat} {c : Char}
      (isFirst : IsCodeUnit first high) (isSecond : IsCodeUnit second low)
      (isHigh : 0xd800 ≤ high ∧ high < 0xdc00) (isLow : 0xdc00 ≤ low ∧ low < 0xe000)
      (isPair : c.toNat = 0x10000 + (high - 0xd800) * 0x400 + (low - 0xdc00))
      (more : SpellsText rest content) :
      SpellsText ('\\' :: 'u' :: (first ++ '\\' :: 'u' :: (second ++ rest))) (c :: content)

/-- A string, with the text that it holds if it holds one. -/
inductive SpellsString : Text → Option Text → Prop where
  | text {written content : Text} (spells : SpellsText written content) :
      SpellsString ('"' :: (written ++ ['"'])) (some content)
  | noText {written : Text} (isString : IsString written)
      (holdsNone : ∀ content, ¬ SpellsText written content) :
      SpellsString ('"' :: (written ++ ['"'])) none

/-! ## Values -/

mutual

inductive SpellsValue : Text → JsonValue → Prop where
  | null : SpellsValue "null".toList .null
  | true : SpellsValue "true".toList (.boolean .true)
  | false : SpellsValue "false".toList (.boolean .false)
  | number {text : Text} (isNumber : IsNumber text) : SpellsValue text .number
  | string {text : Text} {content : Option Text} (spells : SpellsString text content) :
      SpellsValue text (.string content)
  | emptyArray {between : Text} (areBlanks : AreBlanks between) :
      SpellsValue ('[' :: (between ++ [']'])) (.array [])
  | array {text : Text} {items : List JsonValue} (spell : SpellElements text items) :
      SpellsValue ('[' :: (text ++ [']'])) (.array items)
  | emptyObject {between : Text} (areBlanks : AreBlanks between) :
      SpellsValue ('\x7b' :: (between ++ ['\x7d'])) (.object [])
  | object {text : Text} {members : List (Option Text × JsonValue)}
      (spell : SpellMembers text members) :
      SpellsValue ('\x7b' :: (text ++ ['\x7d'])) (.object members)

/-- A value between blanks. -/
inductive SpellsElement : Text → JsonValue → Prop where
  | between {before text after : Text} {value : JsonValue} (areBefore : AreBlanks before)
      (spells : SpellsValue text value) (areAfter : AreBlanks after) :
      SpellsElement (before ++ text ++ after) value

/-- One or more elements, with commas between them. -/
inductive SpellElements : Text → List JsonValue → Prop where
  | last {text : Text} {item : JsonValue} (spells : SpellsElement text item) :
      SpellElements text [item]
  | more {text rest : Text} {item : JsonValue} {items : List JsonValue}
      (spells : SpellsElement text item) (spell : SpellElements rest items) :
      SpellElements (text ++ ',' :: rest) (item :: items)

/-- A name between blanks, a colon and an element. -/
inductive SpellsMember : Text → Option Text × JsonValue → Prop where
  | named {before text after element : Text} {name : Option Text} {value : JsonValue}
      (areBefore : AreBlanks before) (isName : SpellsString text name)
      (areAfter : AreBlanks after) (spells : SpellsElement element value) :
      SpellsMember (before ++ text ++ after ++ ':' :: element) (name, value)

/-- One or more members, with commas between them. -/
inductive SpellMembers : Text → List (Option Text × JsonValue) → Prop where
  | last {text : Text} {member : Option Text × JsonValue} (spells : SpellsMember text member) :
      SpellMembers text [member]
  | more {text rest : Text} {member : Option Text × JsonValue}
      {members : List (Option Text × JsonValue)} (spells : SpellsMember text member)
      (spell : SpellMembers rest members) :
      SpellMembers (text ++ ',' :: rest) (member :: members)

end

/-- A text of plain characters spells itself between quotes. -/
theorem spellsString_of_arePlain {text : Text} (arePlain : ArePlain text) :
    SpellsString ('"' :: (text ++ ['"'])) (some text) := by
  apply SpellsString.text
  induction text with
  | nil => exact .nil
  | cons c rest ih =>
    rw [ArePlain, List.forall_mem_cons] at arePlain
    exact .plain arePlain.1 (ih arePlain.2)

theorem spellsElement_of_spellsValue {text : Text} {value : JsonValue}
    (spells : SpellsValue text value) : SpellsElement text value := by
  have noBlanks : AreBlanks [] := by decide
  simpa using SpellsElement.between noBlanks spells noBlanks

theorem spellsMember_of_spellsElement (name : Text) {element : Text} {value : JsonValue}
    (arePlain : ArePlain name) (spells : SpellsElement element value) :
    SpellsMember ('"' :: (name ++ ['"']) ++ ':' :: element) (some name, value) := by
  have noBlanks : AreBlanks [] := by decide
  simpa using SpellsMember.named noBlanks (spellsString_of_arePlain arePlain) noBlanks spells

end Json

end LiterateMarkdown
