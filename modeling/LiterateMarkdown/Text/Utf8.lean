import LiterateMarkdown.Text.Basic

/-!
# UTF-8

Files hold bytes, and text is written to them in UTF-8. Bytes are read as a sequence of symbols,
each a character or a stray byte that belongs to no character, so that a reader may decide for
itself where stray bytes matter. They are text if none of them is stray.
-/

namespace LiterateMarkdown

/-- What a file holds. -/
abbrev Bytes := List UInt8

/-- A character, or a byte that belongs to none. -/
inductive Symbol where
  | char (c : Char)
  | stray (byte : UInt8)
  deriving DecidableEq, Repr

/-- The character, if the symbol is one. -/
def Symbol.char? : Symbol → Option Char
  | char c => some c
  | stray _ => none

namespace Utf8

/-- The bytes of a character. -/
def encodeChar (c : Char) : Bytes :=
  let n := c.toNat
  if n < 0x80 then [.ofNat n]
  else if n < 0x800 then [.ofNat (0xc0 + n / 0x40), .ofNat (0x80 + n % 0x40)]
  else if n < 0x10000 then
    [.ofNat (0xe0 + n / 0x1000), .ofNat (0x80 + n / 0x40 % 0x40), .ofNat (0x80 + n % 0x40)]
  else
    [.ofNat (0xf0 + n / 0x40000), .ofNat (0x80 + n / 0x1000 % 0x40),
      .ofNat (0x80 + n / 0x40 % 0x40), .ofNat (0x80 + n % 0x40)]

/-- The bytes of a text. -/
def encode (text : Text) : Bytes :=
  text.flatMap encodeChar

/-- The six bits that a byte after the first contributes to a character. -/
def tailBits? (byte : UInt8) : Option Nat :=
  if 0x80 ≤ byte.toNat ∧ byte.toNat < 0xc0 then some (byte.toNat - 0x80) else none

/-- The character of a code point that is written with no more bytes than needed. -/
def charFrom? (least code : Nat) : Option Char :=
  if least ≤ code ∧ code.isValidChar then some (.ofNat code) else none

/-- The number whose digits in base 64 are given. -/
def ofSixes (digits : List Nat) : Nat :=
  digits.foldl (fun number digit => number * 0x40 + digit) 0

/-- The first character of a sequence of bytes, and the bytes after it. -/
def firstChar? (first : UInt8) (rest : Bytes) : Option (Char × Bytes) :=
  let lead := first.toNat
  if lead < 0x80 then some (.ofNat lead, rest)
  else if lead < 0xc0 then none
  else if lead < 0xe0 then
    match rest with
    | second :: rest => do
      let low ← tailBits? second
      return (← charFrom? 0x80 (ofSixes [lead - 0xc0, low]), rest)
    | _ => none
  else if lead < 0xf0 then
    match rest with
    | second :: third :: rest => do
      let middle ← tailBits? second
      let low ← tailBits? third
      return (← charFrom? 0x800 (ofSixes [lead - 0xe0, middle, low]), rest)
    | _ => none
  else if lead < 0xf8 then
    match rest with
    | second :: third :: fourth :: rest => do
      let high ← tailBits? second
      let middle ← tailBits? third
      let low ← tailBits? fourth
      return (← charFrom? 0x10000 (ofSixes [lead - 0xf0, high, middle, low]), rest)
    | _ => none
  else none

theorem length_le_of_firstChar? {first : UInt8} {rest remainder : Bytes} {c : Char}
    (found : firstChar? first rest = some (c, remainder)) : remainder.length ≤ rest.length := by
  simp only [firstChar?] at found
  split at found
  · simp_all
  split at found
  · contradiction
  split at found
  · split at found <;> simp [Option.bind_eq_some_iff] at found
    obtain ⟨_, _, _, _, _, rfl⟩ := found
    simp
  split at found
  · split at found <;> simp [Option.bind_eq_some_iff] at found
    obtain ⟨_, _, _, _, _, _, _, rfl⟩ := found
    simp
    omega
  split at found
  · split at found <;> simp [Option.bind_eq_some_iff] at found
    obtain ⟨_, _, _, _, _, _, _, _, _, rfl⟩ := found
    simp
    omega
  · contradiction

/-- Read bytes as symbols. -/
def symbols (bytes : Bytes) : List Symbol :=
  match bytes with
  | [] => []
  | first :: rest =>
    match _found : firstChar? first rest with
    | some (c, remainder) => .char c :: symbols remainder
    | none => .stray first :: symbols rest
termination_by bytes.length
decreasing_by
  · have := length_le_of_firstChar? _found
    simp only [List.length_cons]
    omega
  · simp

/-- The text that the bytes hold, if they are text. -/
def decode? (bytes : Bytes) : Option Text :=
  (symbols bytes).mapM Symbol.char?

private theorem toNat_byte {n : Nat} (small : n < 0x100) : (UInt8.ofNat n).toNat = n := by
  simp [Nat.mod_eq_of_lt small]

theorem tailBits?_ofNat (n : Nat) : tailBits? (.ofNat (0x80 + n % 0x40)) = some (n % 0x40) := by
  have value : (UInt8.ofNat (0x80 + n % 0x40)).toNat = 0x80 + n % 0x40 := toNat_byte (by omega)
  rw [tailBits?, value, if_pos ⟨by omega, by omega⟩, Nat.add_sub_cancel_left]

theorem charFrom?_eq (c : Char) (least code : Nat) (enough : least ≤ c.toNat)
    (same : code = c.toNat) : charFrom? least code = some c := by
  have back : Char.ofNat c.toNat = c := Char.ofNat_toNat c
  rw [charFrom?, same, if_pos ⟨enough, c.valid⟩, back]

theorem firstChar?_encodeChar (c : Char) (rest : Bytes) :
    ∃ first tail, encodeChar c ++ rest = first :: tail ∧
      firstChar? first tail = some (c, rest) := by
  have bound : c.toNat < 0x110000 := by
    rcases c.valid with low | high
    · exact Nat.lt_trans low (by decide)
    · exact high.2
  by_cases one : c.toNat < 0x80
  · have back : Char.ofNat c.toNat = c := Char.ofNat_toNat c
    refine ⟨.ofNat c.toNat, rest, by simp [encodeChar, one], ?_⟩
    simp [firstChar?, toNat_byte (show c.toNat < 0x100 by omega), one, back]
  by_cases two : c.toNat < 0x800
  · refine ⟨.ofNat (0xc0 + c.toNat / 0x40), .ofNat (0x80 + c.toNat % 0x40) :: rest,
      by simp [encodeChar, one, two], ?_⟩
    have lead := toNat_byte (show 0xc0 + c.toNat / 0x40 < 0x100 by omega)
    have whole := charFrom?_eq c 0x80 (ofSixes [0xc0 + c.toNat / 0x40 - 0xc0, c.toNat % 0x40])
      (by omega) (by simp only [ofSixes, List.foldl]; omega)
    simp only [firstChar?, lead, tailBits?_ofNat]
    rw [if_neg (by omega), if_neg (by omega), if_pos (by omega)]
    simp only [bind, Option.bind, pure, whole]
  by_cases three : c.toNat < 0x10000
  · refine ⟨.ofNat (0xe0 + c.toNat / 0x1000), .ofNat (0x80 + c.toNat / 0x40 % 0x40) ::
      .ofNat (0x80 + c.toNat % 0x40) :: rest, by simp [encodeChar, one, two, three], ?_⟩
    have lead := toNat_byte (show 0xe0 + c.toNat / 0x1000 < 0x100 by omega)
    have whole := charFrom?_eq c 0x800
      (ofSixes [0xe0 + c.toNat / 0x1000 - 0xe0, c.toNat / 0x40 % 0x40, c.toNat % 0x40])
      (by omega) (by simp only [ofSixes, List.foldl]; omega)
    simp only [firstChar?, lead, tailBits?_ofNat]
    rw [if_neg (by omega), if_neg (by omega), if_neg (by omega), if_pos (by omega)]
    simp only [bind, Option.bind, pure, whole]
  · refine ⟨.ofNat (0xf0 + c.toNat / 0x40000), .ofNat (0x80 + c.toNat / 0x1000 % 0x40) ::
      .ofNat (0x80 + c.toNat / 0x40 % 0x40) :: .ofNat (0x80 + c.toNat % 0x40) :: rest,
      by simp [encodeChar, one, two, three], ?_⟩
    have lead := toNat_byte (show 0xf0 + c.toNat / 0x40000 < 0x100 by omega)
    have whole := charFrom?_eq c 0x10000
      (ofSixes [0xf0 + c.toNat / 0x40000 - 0xf0, c.toNat / 0x1000 % 0x40, c.toNat / 0x40 % 0x40,
        c.toNat % 0x40])
      (by omega) (by simp only [ofSixes, List.foldl]; omega)
    simp only [firstChar?, lead, tailBits?_ofNat]
    rw [if_neg (by omega), if_neg (by omega), if_neg (by omega), if_neg (by omega),
      if_pos (by omega)]
    simp only [bind, Option.bind, pure, whole]

/-- The symbols of an encoded text are its characters. -/
@[simp]
theorem symbols_encode (text : Text) : symbols (encode text) = text.map .char := by
  induction text with
  | nil => simp [encode, symbols]
  | cons c rest ih =>
    obtain ⟨first, tail, bytes, found⟩ := firstChar?_encodeChar c (encode rest)
    have split : encode (c :: rest) = first :: tail := by
      rw [← bytes]
      rfl
    rw [split, symbols]
    split
    · rename_i c' remainder found'
      rw [found] at found'
      obtain ⟨rfl, rfl⟩ := Prod.mk.inj (Option.some.inj found')
      simp [ih]
    · rename_i missing
      simp [found] at missing

/-- Reading back what was written gives the text back. -/
@[simp]
theorem decode?_encode (text : Text) : decode? (encode text) = some text := by
  rw [decode?, symbols_encode]
  induction text with
  | nil => rfl
  | cons c rest ih => simp [Symbol.char?, ih]

end Utf8

end LiterateMarkdown
