import LiterateMarkdown.Text.Utf8

/-!
# Bytes that are text

A character is read off the bytes that it is written with and off no others
(`Utf8.eq_encodeChar_append_of_firstChar?`): fewer bytes would do for a code point below the least
one of its length, and surrogates are no characters. So bytes are read as a text exactly if the text
is written in these bytes (`Utf8.decode?_eq_some_iff`).
-/

namespace LiterateMarkdown

namespace Utf8

theorem of_tailBits?_eq_some {byte : UInt8} {bits : Nat} (isTail : tailBits? byte = some bits) :
    byte.toNat = 0x80 + bits ∧ bits < 0x40 := by
  rw [tailBits?, Option.ite_none_right_eq_some, Option.some.injEq] at isTail
  omega

theorem toNat_ofNat_of_isValidChar {value : Nat} (isValid : value.isValidChar) :
    (Char.ofNat value).toNat = value := by
  rw [Char.ofNat, dif_pos isValid]
  rfl

theorem of_charFrom?_eq_some {least code : Nat} {c : Char}
    (isChar : charFrom? least code = some c) : least ≤ code ∧ c.toNat = code := by
  rw [charFrom?, Option.ite_none_right_eq_some, Option.some.injEq] at isChar
  rcases isChar with ⟨⟨enough, isValid⟩, rfl⟩
  exact ⟨enough, toNat_ofNat_of_isValidChar isValid⟩

/-- A byte is written for the number that it is. -/
theorem ofNat_eq (byte : UInt8) {number : Nat} (same : number = byte.toNat) :
    UInt8.ofNat number = byte := by
  rw [same, UInt8.ofNat_toNat]

/-- A character that is read off bytes is written with them. -/
theorem eq_encodeChar_append_of_firstChar? {first : UInt8} {rest remainder : Bytes} {c : Char}
    (found : firstChar? first rest = some (c, remainder)) :
    first :: rest = encodeChar c ++ remainder := by
  simp only [firstChar?] at found
  split at found
  · rename_i isOne
    rw [Option.some.injEq, Prod.mk.injEq] at found
    rcases found with ⟨rfl, rfl⟩
    have isValid : first.toNat.isValidChar := .inl (by omega)
    have isCode := (of_charFrom?_eq_some (if_pos ⟨Nat.le_refl _, isValid⟩)).2
    rw [encodeChar, isCode, if_pos isOne, ofNat_eq first rfl, List.singleton_append]
  split at found
  · cases found
  split at found
  · split at found
    · rename_i second rest
      simp only [Option.bind_eq_bind, Option.bind_eq_some_iff, Option.pure_def, Option.some.injEq,
        Prod.mk.injEq] at found
      rcases found with ⟨low, isLow, c, isChar, rfl, rfl⟩
      have lowByte := of_tailBits?_eq_some isLow
      rcases of_charFrom?_eq_some isChar with ⟨enough, isCode⟩
      simp only [ofSixes, List.foldl] at enough isCode
      rw [encodeChar, if_neg (by omega), if_pos (by omega), ofNat_eq first (by omega),
        ofNat_eq second (by omega)]
      rfl
    · cases found
  split at found
  · split at found
    · rename_i second third rest
      simp only [Option.bind_eq_bind, Option.bind_eq_some_iff, Option.pure_def, Option.some.injEq,
        Prod.mk.injEq] at found
      rcases found with ⟨middle, isMiddle, low, isLow, c, isChar, rfl, rfl⟩
      have middleByte := of_tailBits?_eq_some isMiddle
      have lowByte := of_tailBits?_eq_some isLow
      rcases of_charFrom?_eq_some isChar with ⟨enough, isCode⟩
      simp only [ofSixes, List.foldl] at enough isCode
      rw [encodeChar, if_neg (by omega), if_neg (by omega), if_pos (by omega),
        ofNat_eq first (by omega), ofNat_eq second (by omega), ofNat_eq third (by omega)]
      rfl
    · cases found
  split at found
  · split at found
    · rename_i second third fourth rest
      simp only [Option.bind_eq_bind, Option.bind_eq_some_iff, Option.pure_def, Option.some.injEq,
        Prod.mk.injEq] at found
      rcases found with ⟨high, isHigh, middle, isMiddle, low, isLow, c, isChar, rfl, rfl⟩
      have highByte := of_tailBits?_eq_some isHigh
      have middleByte := of_tailBits?_eq_some isMiddle
      have lowByte := of_tailBits?_eq_some isLow
      rcases of_charFrom?_eq_some isChar with ⟨enough, isCode⟩
      simp only [ofSixes, List.foldl] at enough isCode
      rw [encodeChar, if_neg (by omega), if_neg (by omega), if_neg (by omega),
        ofNat_eq first (by omega), ofNat_eq second (by omega), ofNat_eq third (by omega),
        ofNat_eq fourth (by omega)]
      rfl
    · cases found
  · cases found

/-- Bytes in which no symbol is stray are those that their characters are written with. -/
theorem eq_encode_of_symbols {bytes : Bytes} {text : Text}
    (areChars : symbols bytes = text.map .char) : bytes = encode text := by
  fun_induction symbols bytes generalizing text with
  | case1 =>
    rw [List.map_eq_nil_iff.mp areChars.symm]
    rfl
  | case2 first rest c remainder found ih =>
    rcases List.map_eq_cons_iff.mp areChars.symm with ⟨same, later, rfl, isChar, areLater⟩
    cases isChar
    rw [eq_encodeChar_append_of_firstChar? found, ih areLater.symm]
    rfl
  | case3 first rest missing ih =>
    rcases List.map_eq_cons_iff.mp areChars.symm with ⟨same, later, _, isStray, _⟩
    cases isStray

theorem eq_map_char_of_mapM {items : List Symbol} {text : Text}
    (areChars : items.mapM Symbol.char? = some text) : items = text.map .char := by
  induction items generalizing text with
  | nil =>
    cases areChars
    rfl
  | cons item rest ih =>
    simp only [List.mapM_cons, Option.bind_eq_bind, Option.bind_eq_some_iff, Option.pure_def,
      Option.some.injEq] at areChars
    rcases areChars with ⟨c, isChar, later, areLater, rfl⟩
    rw [ih areLater]
    cases item with
    | char other =>
      cases isChar
      rfl
    | stray byte => cases isChar

/-- Bytes are read as a text if the text is written in them, and only then. -/
theorem decode?_eq_some_iff {bytes : Bytes} {text : Text} :
    decode? bytes = some text ↔ bytes = encode text := by
  constructor
  · intro isText
    exact eq_encode_of_symbols (eq_map_char_of_mapM isText)
  · rintro rfl
    exact decode?_encode text

end Utf8

end LiterateMarkdown
