import LiterateMarkdown.Json.Reader
import LiterateMarkdown.Proofs.Json.Grammar
import LiterateMarkdown.Proofs.Text.Encoding
import Mathlib.Data.List.DropRight

/-!
# Reading JSON

The reader accepts every text of the grammar and gives the value that it spells
(`JsonValue.ofSymbols?_of_spellsElement`). Each reader gets to the end of what it reads, whatever
follows it; only after a number the next symbol must not belong to one. The bound on the steps is
twice the length of the text, since a value takes one step, and so does each item of an array or an
object.
-/

namespace LiterateMarkdown

namespace JsonValue

open Json

variable {text written : Text} {rest : List Symbol}

/-! ## Blanks -/

theorem isLayout_char {c : Char} : isLayout (.char c) = true ↔ c ∈ blanks := by
  simp [isLayout, blanks, or_assoc]

theorem skipLayout_blanks (areBlanks : AreBlanks text) (rest : List Symbol) :
    skipLayout (text.map .char ++ rest) = skipLayout rest := by
  induction text with
  | nil => rfl
  | cons c more ih =>
    rw [AreBlanks, List.forall_mem_cons] at areBlanks
    rw [List.map_cons, List.cons_append, skipLayout,
      List.dropWhile_cons_of_pos (isLayout_char.mpr areBlanks.1), ← skipLayout, ih areBlanks.2]

theorem skipLayout_char {c : Char} (notBlank : c ∉ blanks) (rest : List Symbol) :
    skipLayout (.char c :: rest) = .char c :: rest :=
  List.dropWhile_cons_of_neg fun isLayout => notBlank (isLayout_char.mp isLayout)

theorem skipLayout_skipLayout (input : List Symbol) :
    skipLayout (skipLayout input) = skipLayout input :=
  List.dropWhile_idempotent _ input

/-! ## Numbers -/

/-- What may follow a number. -/
def numberEnds : List Symbol :=
  (blanks ++ [',', ']', '\x7d']).map .char

/-- The next symbol does not go on with a number. -/
def EndsNumber (rest : List Symbol) : Prop :=
  ∀ symbol ∈ rest.head?, symbol ∈ numberEnds

theorem not_isDigit_head (ends : EndsNumber rest) : rest.head?.any isDigit = false := by
  have noDigits : ∀ symbol ∈ numberEnds, isDigit symbol = false := by decide
  cases rest with
  | nil => rfl
  | cons symbol more => exact noDigits symbol (ends symbol rfl)

theorem afterDigits?_of_areDigits (areDigits : AreDigits text)
    (stops : rest.head?.any isDigit = false) :
    afterDigits? (text.map .char ++ rest) = some rest := by
  rcases areDigits with ⟨nonempty, areDigits⟩
  have areAll : ∀ symbol ∈ text.map Symbol.char, isDigit symbol = true := by
    simpa [isDigit] using areDigits
  rcases List.exists_cons_of_ne_nil nonempty with ⟨first, more, rfl⟩
  have starts : (((first :: more).map Symbol.char ++ rest).head?.any isDigit) = true :=
    areAll (.char first) List.mem_cons_self
  rw [afterDigits?, if_pos starts, List.dropWhile_append_of_pos areAll]
  cases rest with
  | nil => rfl
  | cons symbol after => rw [List.dropWhile_cons_of_neg (by simpa using stops)]

theorem afterInteger?_of_isInteger (isInteger : IsInteger text)
    (stops : rest.head?.any isDigit = false) :
    afterInteger? (text.map .char ++ rest) = some rest := by
  cases isInteger with
  | zero => simp [afterInteger?, stops]
  | @digits first more isDigit notZero areDigits =>
    have areAll : AreDigits (first :: more) :=
      ⟨List.cons_ne_nil first more, List.forall_mem_cons.mpr ⟨isDigit, areDigits⟩⟩
    rw [← afterDigits?_of_areDigits areAll stops, afterInteger?]
    rintro _ same
    cases same
    exact notZero rfl

theorem afterFraction?_of_isFraction (isFraction : IsFraction text)
    (stops : rest.head?.any isDigit = false) (noPoint : rest.head? ≠ some (.char '.')) :
    afterFraction? (text.map .char ++ rest) = some rest := by
  cases isFraction with
  | missing =>
    rw [List.map_nil, List.nil_append, afterFraction?]
    rintro _ rfl
    exact noPoint rfl
  | digits areDigits => exact afterDigits?_of_areDigits areDigits stops

theorem afterExponent?_of_isExponent (isExponent : IsExponent text) (ends : EndsNumber rest) :
    afterExponent? (text.map .char ++ rest) = some rest := by
  have stops := not_isDigit_head ends
  cases isExponent with
  | missing =>
    have noMarks : ∀ symbol ∈ numberEnds, symbol ≠ .char 'e' ∧ symbol ≠ .char 'E' := by decide
    rw [List.map_nil, List.nil_append]
    unfold afterExponent?
    split
    · rename_i c more
      have notMark := noMarks (.char c) (ends (.char c) rfl)
      rw [if_neg]
      rintro (rfl | rfl)
      · exact notMark.1 rfl
      · exact notMark.2 rfl
    · rfl
  | @digits mark sign digits isMark isSign areDigits =>
    have afterDigits := afterDigits?_of_areDigits areDigits stops
    simp only [List.mem_cons, List.not_mem_nil, or_false] at isMark isSign
    unfold afterExponent?
    rcases isSign with rfl | rfl | rfl
    · rcases areDigits with ⟨nonempty, areDigits⟩
      rcases List.exists_cons_of_ne_nil nonempty with ⟨first, more, rfl⟩
      rw [List.forall_mem_cons] at areDigits
      simp only [List.nil_append, List.map_cons, List.cons_append, isMark, ↓reduceIte]
      split
      · rename_i same
        cases same
        cases areDigits.1
      · rename_i same
        cases same
        cases areDigits.1
      · exact afterDigits
    · simpa only [List.singleton_append, List.map_cons, List.cons_append, isMark, ↓reduceIte]
    · simpa only [List.singleton_append, List.map_cons, List.cons_append, isMark, ↓reduceIte]

/-- An exponent goes on with neither the digits before it nor a point. -/
theorem head?_exponent (isExponent : IsExponent text) (ends : EndsNumber rest) :
    (text.map Symbol.char ++ rest).head?.any isDigit = false ∧
      (text.map Symbol.char ++ rest).head? ≠ some (.char '.') := by
  cases isExponent with
  | missing =>
    have noPoint : Symbol.char '.' ∉ numberEnds := by decide
    exact ⟨not_isDigit_head ends, fun isPoint => noPoint (ends _ isPoint)⟩
  | @digits mark sign digits isMark isSign areDigits =>
    simp only [List.mem_cons, List.not_mem_nil, or_false] at isMark
    rcases isMark with rfl | rfl
    · exact ⟨rfl, by simp⟩
    · exact ⟨rfl, by simp⟩

theorem head?_fraction (isFraction : IsFraction text) (stops : rest.head?.any isDigit = false) :
    (text.map Symbol.char ++ rest).head?.any isDigit = false := by
  cases isFraction with
  | missing => exact stops
  | digits areDigits => rfl

theorem exists_digit_of_isInteger (isInteger : IsInteger text) :
    ∃ first more, text = first :: more ∧ first.isDigit = true := by
  cases isInteger with
  | zero => exact ⟨'0', [], rfl, rfl⟩
  | digits isDigit => exact ⟨_, _, rfl, isDigit⟩

theorem afterNumber?_of_isNumber (isNumber : IsNumber text) (ends : EndsNumber rest) :
    afterNumber? (text.map .char ++ rest) = some rest := by
  rcases isNumber with
    @⟨sign, integer, fraction, exponent, isSign, isInteger, isFraction, isExponent⟩
  have beforeExponent := head?_exponent isExponent ends
  have afterInteger := afterInteger?_of_isInteger isInteger
    (head?_fraction isFraction beforeExponent.1)
  have afterFraction :=
    afterFraction?_of_isFraction isFraction beforeExponent.1 beforeExponent.2
  have afterExponent := afterExponent?_of_isExponent isExponent ends
  simp only [List.mem_cons, List.not_mem_nil, or_false] at isSign
  simp only [List.map_append, List.append_assoc]
  unfold afterNumber?
  rcases isSign with rfl | rfl
  · rcases exists_digit_of_isInteger isInteger with ⟨first, more, rfl, isDigit⟩
    simp only [List.map_nil, List.nil_append, List.map_cons, List.cons_append] at afterInteger ⊢
    split
    · rename_i same
      cases same
      cases isDigit
    · simp only [afterInteger, Option.bind_some, bind, afterFraction, afterExponent]
  · simp [afterInteger, afterFraction, afterExponent]

/-! ## Strings -/

theorem lt_of_isHexDigit {c : Char} {value : Nat} (isDigit : IsHexDigit c value) : value < 16 := by
  rcases isDigit with isLower | isUpper
  · exact (List.getElem?_eq_some_iff.mp isLower).1
  · exact (List.getElem?_eq_some_iff.mp isUpper).1

theorem hexDigit?_of_isHexDigit {c : Char} {value : Nat} (isDigit : IsHexDigit c value) :
    hexDigit? c = some value := by
  have small := lt_of_isHexDigit isDigit
  have lower : ∀ value < 16,
      ("0123456789abcdef".toList[value]?).bind hexDigit? = some value := by decide
  have upper : ∀ value < 16,
      ("0123456789ABCDEF".toList[value]?).bind hexDigit? = some value := by decide
  rcases isDigit with isLower | isUpper
  · have isValue := lower value small
    rwa [isLower] at isValue
  · have isValue := upper value small
    rwa [isUpper] at isValue

theorem lt_of_isCodeUnit {value : Nat} (isUnit : IsCodeUnit text value) : value < 0x10000 := by
  rcases isUnit with ⟨first, second, third, fourth⟩
  have firstSmall := lt_of_isHexDigit first
  have secondSmall := lt_of_isHexDigit second
  have thirdSmall := lt_of_isHexDigit third
  have fourthSmall := lt_of_isHexDigit fourth
  omega

theorem escaped?_of_mem_escapes {letter c : Char} (isEscape : (letter, c) ∈ escapes) :
    escaped? letter = some c ∧ letter ≠ 'u' := by
  have areEscaped : ∀ entry ∈ escapes, escaped? entry.1 = some entry.2 ∧ entry.1 ≠ 'u' := by decide
  exact areEscaped _ isEscape

/-- The pieces in which a string is read. -/
inductive HasPieces : Text → List StringPiece → Prop where
  | nil : HasPieces [] []
  | plain {c : Char} {rest : Text} {pieces : List StringPiece} (isPlain : IsPlain c)
      (more : HasPieces rest pieces) : HasPieces (c :: rest) (.char c :: pieces)
  | escape {letter c : Char} {rest : Text} {pieces : List StringPiece}
      (isEscape : (letter, c) ∈ escapes) (more : HasPieces rest pieces) :
      HasPieces ('\\' :: letter :: rest) (.char c :: pieces)
  | codeUnit {digits rest : Text} {value : Nat} {pieces : List StringPiece}
      (isUnit : IsCodeUnit digits value) (more : HasPieces rest pieces) :
      HasPieces ('\\' :: 'u' :: (digits ++ rest)) (.codeUnit value :: pieces)

theorem exists_hasPieces (isString : IsString written) : ∃ pieces, HasPieces written pieces := by
  induction isString with
  | nil => exact ⟨[], .nil⟩
  | plain isPlain _ ih =>
    rcases ih with ⟨pieces, hasPieces⟩
    exact ⟨_, .plain isPlain hasPieces⟩
  | escape isEscape _ ih =>
    rcases ih with ⟨pieces, hasPieces⟩
    exact ⟨_, .escape isEscape hasPieces⟩
  | codeUnit isUnit _ ih =>
    rcases ih with ⟨pieces, hasPieces⟩
    exact ⟨_, .codeUnit isUnit hasPieces⟩

theorem stringPieces_of_hasPieces {pieces : List StringPiece} (hasPieces : HasPieces written pieces)
    (rest : List Symbol) :
    stringPieces (written.map .char ++ .char '"' :: rest) = some (pieces, rest) := by
  induction hasPieces with
  | nil => rfl
  | plain isPlain _ ih =>
    rcases isPlain with ⟨notControl, notQuote, notEscape⟩
    -- The last three goals say that the equations for a quote and for escapes do not apply.
    rw [List.map_cons, List.cons_append, stringPieces, if_neg, ih]
    · rfl
    · rintro (isEscape | isControl)
      · exact notEscape isEscape
      · exact absurd isControl (Char.not_lt.mpr notControl)
    · exact notQuote
    · exact fun _ _ _ _ _ _ => notEscape
    · exact fun _ _ _ => notEscape
  | escape isEscape _ ih =>
    rcases escaped?_of_mem_escapes isEscape with ⟨isEscaped, notUnit⟩
    rw [List.map_cons, List.map_cons, List.cons_append, List.cons_append, stringPieces, isEscaped,
      ih]
    · rfl
    · exact fun _ _ _ _ _ _ => notUnit
  | codeUnit isUnit _ ih =>
    rcases isUnit with ⟨first, second, third, fourth⟩
    simp only [List.map_cons, List.nil_append, List.cons_append, stringPieces,
      hexDigit?_of_isHexDigit first, hexDigit?_of_isHexDigit second, hexDigit?_of_isHexDigit third,
      hexDigit?_of_isHexDigit fourth, ih, bind, Option.bind_some, pure]

theorem isHighSurrogate_iff {value : Nat} :
    isHighSurrogate value = true ↔ 0xd800 ≤ value ∧ value < 0xdc00 := by
  rw [isHighSurrogate, Bool.and_eq_true, decide_eq_true_eq, decide_eq_true_eq]

theorem isLowSurrogate_iff {value : Nat} :
    isLowSurrogate value = true ↔ 0xdc00 ≤ value ∧ value < 0xe000 := by
  rw [isLowSurrogate, Bool.and_eq_true, decide_eq_true_eq, decide_eq_true_eq]

/-- A code unit that is no surrogate is a character. -/
theorem toNat_ofNat_of_not_surrogate {value : Nat} (small : value < 0x10000)
    (notHigh : ¬ isHighSurrogate value = true) (notLow : ¬ isLowSurrogate value = true) :
    (Char.ofNat value).toNat = value := by
  rw [isHighSurrogate_iff] at notHigh
  rw [isLowSurrogate_iff] at notLow
  apply Utf8.toNat_ofNat_of_isValidChar
  unfold Nat.isValidChar
  omega

theorem textOfPieces?_char (c : Char) (pieces : List StringPiece) :
    textOfPieces? (.codeUnit c.toNat :: pieces) = (textOfPieces? pieces).map (c :: ·) := by
  have isValid : c.toNat.isValidChar := c.valid
  have notHigh : ¬ isHighSurrogate c.toNat = true := by
    rw [isHighSurrogate_iff]
    unfold Nat.isValidChar at isValid
    omega
  have notLow : ¬ isLowSurrogate c.toNat = true := by
    rw [isLowSurrogate_iff]
    unfold Nat.isValidChar at isValid
    omega
  cases pieces with
  | nil => simp [textOfPieces?, notHigh, notLow]
  | cons piece rest => cases piece <;> simp [textOfPieces?, notHigh, notLow]

/-- A string that is read as a text spells that text. -/
theorem spellsText_of_hasPieces {pieces : List StringPiece} {content : Text}
    (hasPieces : HasPieces written pieces) (isText : textOfPieces? pieces = some content) :
    SpellsText written content := by
  -- The induction is on the pieces, as the text takes two of them at once for a pair of surrogates.
  induction pieces using textOfPieces?.induct generalizing written content with
  | case1 =>
    cases hasPieces
    cases isText
    exact .nil
  | case2 c rest ih =>
    rw [textOfPieces?, Option.map_eq_some_iff] at isText
    rcases isText with ⟨content, isText, rfl⟩
    cases hasPieces with
    | plain isPlain more => exact .plain isPlain (ih more isText)
    | escape isEscape more => exact .escape isEscape (ih more isText)
  | case3 rest => cases hasPieces
  | case4 high low rest isHigh isLow ih =>
    rw [textOfPieces?, if_pos isHigh, if_pos isLow, Option.map_eq_some_iff] at isText
    rcases isText with ⟨content, isText, rfl⟩
    rcases hasPieces with _ | _ | _ | ⟨isFirst, more⟩
    rcases more with _ | _ | _ | ⟨isSecond, more⟩
    rw [isHighSurrogate_iff] at isHigh
    rw [isLowSurrogate_iff] at isLow
    refine .pair isFirst isSecond isHigh isLow (Utf8.toNat_ofNat_of_isValidChar ?_) (ih more isText)
    unfold Nat.isValidChar
    omega
  | case5 high low rest isHigh notLow =>
    rw [textOfPieces?, if_pos isHigh, if_neg notLow] at isText
    cases isText
  | case6 high low rest notHigh isLow =>
    rw [textOfPieces?, if_neg notHigh, if_pos isLow] at isText
    cases isText
  | case7 high low rest notHigh notLow ih =>
    rw [textOfPieces?, if_neg notHigh, if_neg notLow, Option.map_eq_some_iff] at isText
    rcases isText with ⟨content, isText, rfl⟩
    rcases hasPieces with _ | _ | _ | ⟨isUnit, more⟩
    refine .codeUnit ?_ (ih more isText)
    rwa [toNat_ofNat_of_not_surrogate (lt_of_isCodeUnit isUnit) notHigh notLow]
  | case8 value rest notFollowed isSurrogate =>
    rw [textOfPieces?, if_pos isSurrogate] at isText
    · cases isText
    · exact notFollowed
  | case9 value rest notFollowed notSurrogate ih =>
    rw [textOfPieces?, if_neg notSurrogate, Option.map_eq_some_iff] at isText
    · rcases isText with ⟨content, isText, rfl⟩
      rcases hasPieces with _ | _ | _ | ⟨isUnit, more⟩
      rw [Bool.or_eq_true, not_or] at notSurrogate
      refine .codeUnit ?_ (ih more isText)
      rwa [toNat_ofNat_of_not_surrogate (lt_of_isCodeUnit isUnit) notSurrogate.1 notSurrogate.2]
    · exact notFollowed

/-- A string that spells a text is read as that text. -/
theorem exists_pieces_of_spellsText {content : Text} (spells : SpellsText written content) :
    ∃ pieces, HasPieces written pieces ∧ textOfPieces? pieces = some content := by
  induction spells with
  | nil => exact ⟨[], .nil, rfl⟩
  | plain isPlain _ ih =>
    rcases ih with ⟨pieces, hasPieces, isText⟩
    exact ⟨_, .plain isPlain hasPieces, by rw [textOfPieces?, isText, Option.map_some]⟩
  | escape isEscape _ ih =>
    rcases ih with ⟨pieces, hasPieces, isText⟩
    exact ⟨_, .escape isEscape hasPieces, by rw [textOfPieces?, isText, Option.map_some]⟩
  | codeUnit isUnit _ ih =>
    rcases ih with ⟨pieces, hasPieces, isText⟩
    exact ⟨_, .codeUnit isUnit hasPieces, by rw [textOfPieces?_char, isText, Option.map_some]⟩
  | pair isFirst isSecond isHigh isLow isPair _ ih =>
    rcases ih with ⟨pieces, hasPieces, isText⟩
    refine ⟨_, .codeUnit isFirst (.codeUnit isSecond hasPieces), ?_⟩
    rw [textOfPieces?, if_pos (isHighSurrogate_iff.mpr isHigh),
      if_pos (isLowSurrogate_iff.mpr isLow), isText, ← isPair, Char.ofNat_toNat]
    rfl

theorem exists_pieces_of_spellsString {content : Option Text} (spells : SpellsString text content) :
    ∃ written pieces, text = '"' :: (written ++ ['"']) ∧ HasPieces written pieces ∧
      textOfPieces? pieces = content := by
  cases spells with
  | text spells =>
    rcases exists_pieces_of_spellsText spells with ⟨pieces, hasPieces, isText⟩
    exact ⟨_, pieces, rfl, hasPieces, isText⟩
  | noText isString holdsNone =>
    rcases exists_hasPieces isString with ⟨pieces, hasPieces⟩
    refine ⟨_, pieces, rfl, hasPieces, ?_⟩
    rw [Option.eq_none_iff_forall_not_mem]
    exact fun content isText => holdsNone content (spellsText_of_hasPieces hasPieces isText)

/-- A string is read with the text that it holds, if it holds one. -/
theorem readString_of_spellsString {content : Option Text} (spells : SpellsString text content) :
    ∃ written, text = '"' :: written ∧ ∀ rest,
      readString (written.map .char ++ rest) = some (content, rest) := by
  rcases exists_pieces_of_spellsString spells with ⟨written, pieces, rfl, hasPieces, isContent⟩
  refine ⟨_, rfl, fun rest => ?_⟩
  have isRead := stringPieces_of_hasPieces hasPieces rest
  simp only [List.map_append, List.append_assoc, List.map_cons, List.map_nil, List.singleton_append]
  simp only [readString, isRead, bind, Option.bind_some, isContent]
  rfl

/-! ## Values -/

/-- The reader gets to the end of a value, and gives it. -/
def ReadsValue (text : Text) (value : JsonValue) : Prop :=
  ∀ steps rest, 2 * text.length ≤ steps → EndsNumber rest →
    readValue steps (text.map .char ++ rest) = some (value, rest)

/-- The reader gets to the blanks at the end of an element, and gives its value. -/
def ReadsElement (text : Text) (value : JsonValue) : Prop :=
  ∀ steps rest, 2 * text.length ≤ steps → EndsNumber rest →
    ∃ after, AreBlanks after ∧
      readValue steps (text.map .char ++ rest) = some (value, after.map .char ++ rest)

def ReadsItems (text : Text) (items : List JsonValue) : Prop :=
  ∀ steps rest, 2 * text.length + 1 ≤ steps →
    readItems steps (text.map .char ++ .char ']' :: rest) = some (items, rest)

/-- The reader gets to the end of a member, and goes on if a comma follows it. -/
structure ReadsMember (text : Text) (member : Option Text × JsonValue) : Prop where
  last : ∀ steps rest, 2 * text.length ≤ steps →
    readMembers (steps + 1) (text.map .char ++ .char '\x7d' :: rest) = some ([member], rest)
  more : ∀ steps rest, 2 * text.length ≤ steps →
    readMembers (steps + 1) (text.map .char ++ .char ',' :: rest) =
      (readMembers steps rest).map fun (members, rest) => (member :: members, rest)

def ReadsMembers (text : Text) (members : List (Option Text × JsonValue)) : Prop :=
  ∀ steps rest, 2 * text.length + 1 ≤ steps →
    readMembers steps (text.map .char ++ .char '\x7d' :: rest) = some (members, rest)

variable {value : JsonValue} {items : List JsonValue} {members : List (Option Text × JsonValue)}

theorem readValue_skipLayout (steps : Nat) (input : List Symbol) :
    readValue steps (skipLayout input) = readValue steps input := by
  cases steps with
  | zero => rfl
  | succ steps => rw [readValue, readValue, skipLayout_skipLayout]

theorem readItems_skipLayout (steps : Nat) (input : List Symbol) :
    readItems steps (skipLayout input) = readItems steps input := by
  cases steps with
  | zero => rfl
  | succ steps => rw [readItems, readItems, readValue_skipLayout]

theorem readMembers_skipLayout (steps : Nat) (input : List Symbol) :
    readMembers steps (skipLayout input) = readMembers steps input := by
  cases steps with
  | zero => rfl
  | succ steps => rw [readMembers, readMembers, skipLayout_skipLayout]

/-- Reading a value takes a step, which the bound allows. -/
theorem readsValue_of_succ (nonempty : text ≠ [])
    (reads : ∀ steps rest, 2 * text.length ≤ steps + 1 → EndsNumber rest →
      readValue (steps + 1) (text.map .char ++ rest) = some (value, rest)) :
    ReadsValue text value := by
  rintro (_ | steps) rest enough ends
  · have isLong := List.length_pos_of_ne_nil nonempty
    omega
  · exact reads steps rest enough ends

theorem readsValue_string {content : Option Text} (spells : SpellsString text content) :
    ReadsValue text (.string content) := by
  rcases readString_of_spellsString spells with ⟨written, rfl, isRead⟩
  refine readsValue_of_succ (List.cons_ne_nil _ written) fun steps rest _ _ => ?_
  rw [List.map_cons, List.cons_append, readValue, skipLayout_char (by decide)]
  simp only [isRead rest, Option.map_some]

theorem exists_start_of_isNumber (isNumber : IsNumber text) :
    ∃ first more, text = first :: more ∧ (first = '-' ∨ first.isDigit = true) := by
  rcases isNumber with @⟨sign, integer, fraction, exponent, isSign, isInteger, _, _⟩
  rcases exists_digit_of_isInteger isInteger with ⟨first, more, rfl, isDigit⟩
  simp only [List.mem_cons, List.not_mem_nil, or_false] at isSign
  rcases isSign with rfl | rfl
  · exact ⟨first, _, rfl, .inr isDigit⟩
  · exact ⟨'-', _, rfl, .inl rfl⟩

/-- Blanks and what other values begin with. -/
def notStarts : Text :=
  blanks ++ ['"', '[', '\x7b', 'n', 't', 'f', ']']

theorem not_mem_notStarts {c : Char} (isStart : c = '-' ∨ c.isDigit = true) : c ∉ notStarts := by
  have noStarts : (notStarts.all fun c => c != '-' && !c.isDigit) = true := by decide
  intro isOther
  have notStart := List.all_eq_true.mp noStarts c isOther
  rw [Bool.and_eq_true, bne_iff_ne, Bool.not_eq_true'] at notStart
  rcases isStart with rfl | isDigit
  · exact notStart.1 rfl
  · rw [isDigit] at notStart
    cases notStart.2

theorem readsValue_number (isNumber : IsNumber text) : ReadsValue text .number := by
  rcases exists_start_of_isNumber isNumber with ⟨first, more, rfl, isStart⟩
  refine readsValue_of_succ (List.cons_ne_nil first more) fun steps rest _ ends => ?_
  have isRead := afterNumber?_of_isNumber isNumber ends
  have notOther := not_mem_notStarts isStart
  have notBlank : first ∉ blanks := fun isBlank => notOther (List.mem_append_left _ isBlank)
  rw [List.map_cons, List.cons_append] at isRead ⊢
  rw [readValue, skipLayout_char notBlank]
  -- Only the last branch is left: every other one begins with a character that begins no number.
  split
  case h_7 => simp only [isRead, Option.map_some]
  all_goals
    rename_i same
    cases same
    exact absurd (by decide) notOther

theorem readsValue_emptyArray {between : Text} (areBlanks : AreBlanks between) :
    ReadsValue ('[' :: (between ++ [']'])) (.array []) := by
  refine readsValue_of_succ (List.cons_ne_nil _ _) fun steps rest _ _ => ?_
  rw [List.map_cons, List.map_append, List.cons_append, List.append_assoc, readValue,
    skipLayout_char (by decide)]
  simp only [skipLayout_blanks areBlanks]
  rfl

theorem readsValue_emptyObject {between : Text} (areBlanks : AreBlanks between) :
    ReadsValue ('\x7b' :: (between ++ ['\x7d'])) (.object []) := by
  refine readsValue_of_succ (List.cons_ne_nil _ _) fun steps rest _ _ => ?_
  rw [List.map_cons, List.map_append, List.cons_append, List.append_assoc, readValue,
    skipLayout_char (by decide)]
  simp only [skipLayout_blanks areBlanks]
  rfl

/-- A value begins with no blank, and does not close an array. -/
theorem exists_head_of_spellsValue (spells : SpellsValue text value) :
    ∃ first more, text = first :: more ∧ first ∉ blanks ∧ first ≠ ']' := by
  cases spells with
  | number isNumber =>
    rcases exists_start_of_isNumber isNumber with ⟨first, more, rfl, isStart⟩
    have notOther := not_mem_notStarts isStart
    refine ⟨first, more, rfl, fun isBlank => notOther (List.mem_append_left _ isBlank), ?_⟩
    rintro rfl
    exact notOther (by decide)
  | string spells =>
    cases spells with
    | text => exact ⟨_, _, rfl, by decide, by decide⟩
    | noText => exact ⟨_, _, rfl, by decide, by decide⟩
  | _ => exact ⟨_, _, rfl, by decide, by decide⟩

theorem exists_head_of_spellsElement (spells : SpellsElement text value) (rest : List Symbol) :
    ∃ first more, skipLayout (text.map .char ++ rest) = .char first :: more ∧ first ≠ ']' := by
  rcases spells with @⟨before, _, after, _, areBefore, spells, _⟩
  rcases exists_head_of_spellsValue spells with ⟨first, more, rfl, notBlank, notEnd⟩
  refine ⟨first, more.map .char ++ (after.map .char ++ rest), ?_, notEnd⟩
  simp only [List.map_append, List.append_assoc, skipLayout_blanks areBefore, List.map_cons,
    List.cons_append, skipLayout_char notBlank]

theorem exists_head_of_spellElements (spell : SpellElements text items) (rest : List Symbol) :
    ∃ first more, skipLayout (text.map .char ++ rest) = .char first :: more ∧ first ≠ ']' := by
  cases spell with
  | last spells => exact exists_head_of_spellsElement spells rest
  | more spells =>
    rw [List.map_append, List.append_assoc]
    exact exists_head_of_spellsElement spells _

theorem readsValue_array (spell : SpellElements text items) (reads : ReadsItems text items) :
    ReadsValue ('[' :: (text ++ [']'])) (.array items) := by
  refine readsValue_of_succ (List.cons_ne_nil _ _) fun steps rest enough _ => ?_
  simp only [List.length_cons, List.length_append, List.length_nil] at enough
  have isRead := reads steps rest (by omega)
  rcases exists_head_of_spellElements spell (.char ']' :: rest) with ⟨first, more, isHead, notEnd⟩
  rw [← readItems_skipLayout, isHead] at isRead
  rw [List.map_cons, List.map_append, List.cons_append, List.append_assoc, List.map_singleton,
    List.singleton_append, readValue, skipLayout_char (by decide)]
  simp only [isHead]
  split
  · rename_i same
    cases same
    exact absurd rfl notEnd
  · rw [isRead]
    rfl

/-- Members begin with a quote. -/
theorem exists_head_of_spellMembers (spell : SpellMembers text members) (rest : List Symbol) :
    ∃ more, skipLayout (text.map .char ++ rest) = .char '"' :: more := by
  have ofMember : ∀ {text member}, SpellsMember text member → ∀ rest,
      ∃ more, skipLayout (text.map .char ++ rest) = .char '"' :: more := by
    rintro text _ ⟨areBefore, isName, _, _⟩ rest
    rcases readString_of_spellsString isName with ⟨written, rfl, _⟩
    simp only [List.map_append, List.append_assoc, skipLayout_blanks areBefore, List.map_cons,
      List.cons_append, skipLayout_char (by decide : '"' ∉ blanks)]
    exact ⟨_, rfl⟩
  cases spell with
  | last spells => exact ofMember spells rest
  | more spells =>
    rw [List.map_append, List.append_assoc]
    exact ofMember spells _

theorem readsValue_object (spell : SpellMembers text members) (reads : ReadsMembers text members) :
    ReadsValue ('\x7b' :: (text ++ ['\x7d'])) (.object members) := by
  refine readsValue_of_succ (List.cons_ne_nil _ _) fun steps rest enough _ => ?_
  simp only [List.length_cons, List.length_append, List.length_nil] at enough
  have isRead := reads steps rest (by omega)
  rcases exists_head_of_spellMembers spell (.char '\x7d' :: rest) with ⟨more, isHead⟩
  rw [← readMembers_skipLayout, isHead] at isRead
  rw [List.map_cons, List.map_append, List.cons_append, List.append_assoc, List.map_singleton,
    List.singleton_append, readValue, skipLayout_char (by decide)]
  simp only [isHead]
  split
  · rename_i same
    cases same
  · rw [isRead]
    rfl

theorem endsNumber_of_areBlanks (areBlanks : AreBlanks text) (ends : EndsNumber rest) :
    EndsNumber (text.map .char ++ rest) := by
  cases text with
  | nil => exact ends
  | cons c more =>
    rintro _ ⟨⟩
    exact List.mem_map_of_mem (List.mem_append_left _ (areBlanks c List.mem_cons_self))

theorem readsElement {before after : Text} (areBefore : AreBlanks before)
    (areAfter : AreBlanks after) (reads : ReadsValue text value) :
    ReadsElement (before ++ text ++ after) value := by
  intro steps rest enough ends
  simp only [List.length_append] at enough
  refine ⟨after, areAfter, ?_⟩
  rw [← readValue_skipLayout, List.append_assoc, List.map_append, List.append_assoc,
    skipLayout_blanks areBefore, readValue_skipLayout, List.map_append, List.append_assoc]
  exact reads steps _ (by omega) (endsNumber_of_areBlanks areAfter ends)

theorem readsItems_last (reads : ReadsElement text value) : ReadsItems text [value] := by
  rintro (_ | steps) rest enough
  · cases enough
  · have ends : EndsNumber (.char ']' :: rest) := by
      rintro _ ⟨⟩
      decide
    rcases reads steps (.char ']' :: rest) (by omega) ends with ⟨after, areBlanks, isRead⟩
    rw [readItems, isRead]
    simp only [bind, Option.bind_some, skipLayout_blanks areBlanks]
    rfl

theorem readsItems_more {more : Text} (reads : ReadsElement text value)
    (readsMore : ReadsItems more items) : ReadsItems (text ++ ',' :: more) (value :: items) := by
  rintro (_ | steps) rest enough
  · cases enough
  · simp only [List.length_append, List.length_cons] at enough
    have ends : EndsNumber (.char ',' :: (more.map .char ++ .char ']' :: rest)) := by
      rintro _ ⟨⟩
      decide
    rcases reads steps _ (by omega) ends with ⟨after, areBlanks, isRead⟩
    have isReadMore := readsMore steps rest (by omega)
    rw [List.map_append, List.append_assoc, List.map_cons, List.cons_append, readItems, isRead]
    simp only [bind, Option.bind_some, skipLayout_blanks areBlanks]
    rw [skipLayout_char (by decide)]
    simp only [isReadMore, Option.bind_some]

/-- After a member the reader looks for the end of the object or a comma. -/
theorem readMembers_of_spellsMember {before after element blanksAfter : Text} {name : Option Text}
    {steps : Nat} {rest : List Symbol} (areBefore : AreBlanks before)
    (isName : SpellsString text name) (areAfter : AreBlanks after)
    (areBlanks : AreBlanks blanksAfter)
    (isRead : readValue steps (element.map .char ++ rest) =
      some (value, blanksAfter.map .char ++ rest)) :
    readMembers (steps + 1) ((before ++ text ++ after ++ ':' :: element).map .char ++ rest) =
      match skipLayout rest with
      | .char '\x7d' :: rest => some ([(name, value)], rest)
      | .char ',' :: rest =>
        (readMembers steps rest).map fun (members, rest) => ((name, value) :: members, rest)
      | _ => none := by
  rcases readString_of_spellsString isName with ⟨written, rfl, isNameRead⟩
  simp only [List.map_append, List.append_assoc, List.map_cons, List.cons_append]
  rw [readMembers, skipLayout_blanks areBefore, skipLayout_char (by decide)]
  simp only [isNameRead, bind, Option.bind_some, skipLayout_blanks areAfter]
  rw [skipLayout_char (by decide)]
  simp only [isRead, Option.bind_some, skipLayout_blanks areBlanks]
  simp only [Option.map_eq_bind]
  rfl

theorem readsMember {before after element : Text} {name : Option Text}
    (areBefore : AreBlanks before) (isName : SpellsString text name) (areAfter : AreBlanks after)
    (reads : ReadsElement element value) :
    ReadsMember (before ++ text ++ after ++ ':' :: element) (name, value) := by
  constructor
  all_goals
    intro steps rest enough
    simp only [List.length_append, List.length_cons] at enough
  · rcases reads steps (.char '\x7d' :: rest) (by omega) (by rintro _ ⟨⟩; decide) with
      ⟨blanksAfter, areBlanks, isRead⟩
    exact readMembers_of_spellsMember areBefore isName areAfter areBlanks isRead
  · rcases reads steps (.char ',' :: rest) (by omega) (by rintro _ ⟨⟩; decide) with
      ⟨blanksAfter, areBlanks, isRead⟩
    exact readMembers_of_spellsMember areBefore isName areAfter areBlanks isRead

theorem readsMembers_last {member : Option Text × JsonValue} (reads : ReadsMember text member) :
    ReadsMembers text [member] := by
  rintro (_ | steps) rest enough
  · cases enough
  · exact reads.last steps rest (by omega)

theorem readsMembers_more {more : Text} {member : Option Text × JsonValue}
    (reads : ReadsMember text member) (readsMore : ReadsMembers more members) :
    ReadsMembers (text ++ ',' :: more) (member :: members) := by
  rintro (_ | steps) rest enough
  · cases enough
  · simp only [List.length_append, List.length_cons] at enough
    rw [List.map_append, List.append_assoc, List.map_cons, List.cons_append,
      reads.more steps _ (by omega), readsMore steps rest (by omega), Option.map_some]

mutual

theorem readsValue_of_spellsValue {text : Text} {value : JsonValue} :
    SpellsValue text value → ReadsValue text value
  | .null => readsValue_of_succ (by decide) fun _ _ _ _ => rfl
  | .true => readsValue_of_succ (by decide) fun _ _ _ _ => rfl
  | .false => readsValue_of_succ (by decide) fun _ _ _ _ => rfl
  | .number isNumber => readsValue_number isNumber
  | .string spells => readsValue_string spells
  | .emptyArray areBlanks => readsValue_emptyArray areBlanks
  | .array spell => readsValue_array spell (readsItems_of_spellElements spell)
  | .emptyObject areBlanks => readsValue_emptyObject areBlanks
  | .object spell => readsValue_object spell (readsMembers_of_spellMembers spell)

theorem readsElement_of_spellsElement {text : Text} {value : JsonValue} :
    SpellsElement text value → ReadsElement text value
  | .between areBefore spells areAfter =>
    readsElement areBefore areAfter (readsValue_of_spellsValue spells)

theorem readsItems_of_spellElements {text : Text} {items : List JsonValue} :
    SpellElements text items → ReadsItems text items
  | .last spells => readsItems_last (readsElement_of_spellsElement spells)
  | .more spells spell =>
    readsItems_more (readsElement_of_spellsElement spells) (readsItems_of_spellElements spell)

theorem readsMember_of_spellsMember {text : Text} {member : Option Text × JsonValue} :
    SpellsMember text member → ReadsMember text member
  | .named areBefore isName areAfter spells =>
    readsMember areBefore isName areAfter (readsElement_of_spellsElement spells)

theorem readsMembers_of_spellMembers {text : Text} {members : List (Option Text × JsonValue)} :
    SpellMembers text members → ReadsMembers text members
  | .last spells => readsMembers_last (readsMember_of_spellsMember spells)
  | .more spells spell =>
    readsMembers_more (readsMember_of_spellsMember spells) (readsMembers_of_spellMembers spell)

end

/-- A JSON text is read as the value that it spells. -/
theorem ofSymbols?_of_spellsElement (spells : SpellsElement text value) :
    ofSymbols? (text.map .char) = some value := by
  have reads := readsElement_of_spellsElement spells
  rcases reads (2 * text.length + 1) [] (by omega) (by simp [EndsNumber]) with
    ⟨after, areBlanks, isRead⟩
  have isEnd : skipLayout (after.map .char ++ []) = [] := skipLayout_blanks areBlanks []
  rw [List.append_nil] at isRead
  rw [ofSymbols?, List.length_map, isRead, Option.bind_eq_bind, Option.bind_some]
  simp only [isEnd, List.isEmpty_nil, ↓reduceIte]

end JsonValue

end LiterateMarkdown
