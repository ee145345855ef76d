import LiterateMarkdown.Proofs.Toml.Quoted
import LiterateMarkdown.Toml.Reader
import Mathlib.Data.List.TakeWhile

/-!
# Reading back TOML files

A file is written line by line: an entry with a key and a value, a header, or nothing. Each line is
read as what it says, whatever comes after it. So the file is read as the entries before its first
header, and a section for each header (`TomlReader.ofText?_fileText`). If no key and no header comes
twice, this makes the table of its entries and its sections in order
(`TomlTable.ofSections?_of_distinct`).
-/

namespace LiterateMarkdown

namespace TomlReader

/-! ## Files of lines -/

/-- Text that begins with neither layout nor a comment. -/
def StartsAtOnce (text : Text) : Prop :=
  ∀ c ∈ text.head?, QuoteStyle.isLayout c = false ∧ c ≠ '#'

/-- Text that is read as a value at the end of a line. -/
structure Shows (text : Text) (value : TomlValue) : Prop where
  starts : text ≠ [] ∧ StartsAtOnce text
  noReturn : '\r' ∉ text
  reads : ∀ steps depth rest, text.length < steps → 0 < depth →
    readValue? steps depth (text ++ '\n' :: rest) = some (value, '\n' :: rest)

/-- A key that needs no quotes. -/
def IsBareKey (key : Text) : Prop :=
  key ≠ [] ∧ key.all isBareKey = true

instance : DecidablePred IsBareKey :=
  fun key => inferInstanceAs (Decidable (key ≠ [] ∧ key.all isBareKey = true))

/-- What a line of a file says. -/
inductive Line
  | entry (key text : Text) (value : TomlValue)
  | header (key : Text)
  | blank

namespace Line

/-- The line with the newline at its end. -/
def text : Line → Text
  | entry key text _ => key ++ " = ".toList ++ text ++ ['\n']
  | header key => '[' :: key ++ [']', '\n']
  | blank => ['\n']

/-- A line that says what it does. -/
def IsWritten : Line → Prop
  | entry key text value => IsBareKey key ∧ Shows text value
  | header key => IsBareKey key
  | blank => True

def isBlank : Line → Bool
  | blank => true
  | _ => false

def isHeader : Line → Bool
  | header _ => true
  | _ => false

end Line

/-- The entries before the first header. -/
def leading : List Line → List TomlTable.Entry
  | .entry key _ value :: rest => ⟨[], key, value⟩ :: leading rest
  | .blank :: rest => leading rest
  | _ => []

/-- The headers, each with the entries up to the next one. -/
def sections : List Line → List TomlTable.Section
  | .header key :: rest => ⟨[], key, false, leading rest⟩ :: sections rest
  | _ :: rest => sections rest
  | [] => []

/-- The text of a file. -/
def fileText (lines : List Line) : Text :=
  lines.flatMap Line.text

variable {steps depth : Nat} {key text rest : Text} {value : TomlValue}

/-! ## Layout -/

theorem skipBlanks_of_head? (starts : ∀ c ∈ text.head?, QuoteStyle.isLayout c = false) :
    skipBlanks text = text := by
  cases text with
  | nil => rfl
  | cons c rest =>
    have notLayout := starts c rfl
    simp only [QuoteStyle.isLayout, Bool.or_eq_false_iff, decide_eq_false_iff_not] at notLayout
    rw [skipBlanks, List.dropWhile_cons_of_neg]
    simp [notLayout]

theorem skipLayout?_of_startsAtOnce (starts : StartsAtOnce text) :
    skipLayout? false text = some text := by
  cases text with
  | nil => rfl
  | cons c rest =>
    rcases starts c rfl with ⟨notLayout, notComment⟩
    rw [skipLayout?, if_neg Bool.false_ne_true, if_neg notComment, notLayout,
      if_neg Bool.false_ne_true]

theorem skipLayout?_of_areLayout {layout : Text} (areLayout : layout.all QuoteStyle.isLayout = true)
    (text : Text) : skipLayout? false (layout ++ text) = skipLayout? false text := by
  induction layout with
  | nil => rfl
  | cons c more ih =>
    rw [List.all_cons, Bool.and_eq_true] at areLayout
    have notComment : c ≠ '#' := by
      rintro rfl
      exact Bool.noConfusion areLayout.1
    rw [List.cons_append, skipLayout?, if_neg Bool.false_ne_true, if_neg notComment,
      if_pos areLayout.1, ih areLayout.2]

theorem nextLine?_newline (text : Text) : nextLine? ('\n' :: text) = skipLayout? false text :=
  rfl

/-! ## Values -/

theorem startsAtOnce_mark (style : QuoteStyle) (more : Text) :
    StartsAtOnce (style.mark :: more) := by
  rintro c ⟨⟩
  rcases style.mark_eq with isMark | isMark <;> rw [isMark] <;> decide

/-- A string is read where no quote follows it. -/
theorem readValue?_write (content : Text) (hasSteps : 0 < steps)
    (ends : ∀ style, rest.head? ≠ some (QuoteStyle.mark style)) :
    readValue? steps depth ((QuoteStyle.ofValue content).write content ++ rest) =
      some (.string content, rest) := by
  have isRead := QuoteStyle.readAny?_write_ofValue content ends
  rcases Nat.exists_eq_add_one.mpr hasSteps with ⟨fewer, rfl⟩
  generalize QuoteStyle.ofValue content = style at isRead ⊢
  rcases style.exists_mark_write content with ⟨more, isText⟩
  rw [isText, List.cons_append] at isRead ⊢
  rcases style.mark_eq with isMark | isMark <;> rw [isMark] at isRead ⊢ <;>
    simp [readValue?, isRead]

theorem mark_ne_of_eq {c : Char} (isOther : c = '\n' ∨ c = ',' ∨ c = ']') (style : QuoteStyle) :
    some c ≠ some style.mark := by
  rcases isOther with rfl | rfl | rfl <;> rcases style.mark_eq with isMark | isMark <;>
    rw [isMark] <;> decide

theorem shows_string (content : Text) :
    Shows ((QuoteStyle.ofValue content).write content) (.string content) := by
  refine ⟨?_, QuoteStyle.return_not_mem_write_ofValue content, ?_⟩
  · rcases (QuoteStyle.ofValue content).exists_mark_write content with ⟨more, isText⟩
    rw [isText]
    exact ⟨List.cons_ne_nil _ _, startsAtOnce_mark _ more⟩
  · intro steps depth rest hasSteps _
    exact readValue?_write content (by omega) (mark_ne_of_eq (.inl rfl))

/-- A word that ends with its line. -/
theorem wordOf_append {word : Text} (isWord : (word.all fun c => !endsWord c) = true)
    (rest : Text) : wordOf (word ++ '\n' :: rest) = word := by
  have isTaken : (word ++ '\n' :: rest).takeWhile (fun c => !endsWord c) = word := by
    rw [List.takeWhile_append_of_pos (List.all_eq_true.mp isWord),
      List.takeWhile_cons_of_neg (by decide),
      List.append_nil]
  rw [wordOf, isTaken, List.drop_left]
  rfl

/-- A word without quotes or brackets that is read up to the end of its line. -/
theorem shows_word {c : Char} {more : Text} (starts : QuoteStyle.isLayout c = false ∧ c ≠ '#')
    (notBracket : c ≠ '[' ∧ c ≠ '\x7b') (notQuote : c ≠ '"' ∧ c ≠ '\'')
    (noReturn : '\r' ∉ c :: more)
    (reads : ∀ rest, readWord? (c :: more ++ '\n' :: rest) = some (value, '\n' :: rest)) :
    Shows (c :: more) value := by
  refine ⟨⟨List.cons_ne_nil _ _, ?_⟩, noReturn, ?_⟩
  · rintro first ⟨⟩
    exact starts
  · intro steps depth rest enough _
    rcases Nat.exists_eq_add_one.mpr (Nat.zero_lt_of_lt enough) with ⟨fewer, rfl⟩
    rw [← reads rest, List.cons_append]
    simp [readValue?, notBracket, notQuote]

theorem shows_boolean (value : Bool) :
    Shows (if value then "true" else "false").toList (.boolean value) := by
  cases value with
  | false =>
    have reads : ∀ rest, readWord? ("false".toList ++ '\n' :: rest) =
        some (.boolean false, '\n' :: rest) := by
      intro rest
      rw [readWord?, wordOf_append rfl]
      rfl
    change Shows ('f' :: "alse".toList) _
    exact shows_word (by decide) (by decide) (by decide) (by decide) reads
  | true =>
    have reads : ∀ rest, readWord? ("true".toList ++ '\n' :: rest) =
        some (.boolean true, '\n' :: rest) := by
      intro rest
      rw [readWord?, wordOf_append rfl]
      rfl
    change Shows ('t' :: "rue".toList) _
    exact shows_word (by decide) (by decide) (by decide) (by decide) reads

/-- The strings of an array on lines of their own, up to the closing bracket. -/
def itemLines (contents : List Text) : Text :=
  (contents.flatMap fun content =>
    "    ".toList ++ (QuoteStyle.ofValue content).write content ++ ",\n".toList) ++ [']']

theorem itemLines_cons (content : Text) (more : List Text) :
    itemLines (content :: more) =
      "    ".toList ++ ((QuoteStyle.ofValue content).write content ++
        ',' :: '\n' :: itemLines more) := by
  simp [itemLines]

/-- An item is read up to the comma or the bracket after it. -/
theorem readItems?_item {layout : Text} (areLayout : layout.all QuoteStyle.isLayout = true)
    (content : Text) (hasSteps : 0 < steps) {after : Char} (isAfter : after = ',' ∨ after = ']') :
    readItems? (steps + 1) depth
        (layout ++ ((QuoteStyle.ofValue content).write content ++ after :: rest)) =
      if after = ']' then some ([.string content], rest)
      else
        (readItems? steps depth rest).map fun (items, rest) =>
          (.string content :: items, rest) := by
  have isRead :
      readValue? steps depth ((QuoteStyle.ofValue content).write content ++ after :: rest) =
        some (.string content, after :: rest) := by
    apply readValue?_write content hasSteps
    intro style
    rcases isAfter with rfl | rfl
    · exact mark_ne_of_eq (.inr (.inl rfl)) style
    · exact mark_ne_of_eq (.inr (.inr rfl)) style
  rw [readItems?, skipLayout?_of_areLayout areLayout]
  generalize QuoteStyle.ofValue content = style at isRead ⊢
  rcases style.exists_mark_write content with ⟨more, isText⟩
  rw [isText, List.cons_append] at isRead ⊢
  rw [skipLayout?_of_startsAtOnce (startsAtOnce_mark style _)]
  have skipped : skipLayout? false (after :: rest) = some (after :: rest) := by
    apply skipLayout?_of_startsAtOnce
    rintro c ⟨⟩
    rcases isAfter with rfl | rfl <;> decide
  have notBracket : style.mark ≠ ']' := by
    rcases style.mark_eq with isMark | isMark <;> rw [isMark] <;> decide
  simp only [bind, Option.bind_some]
  split
  · rename_i isBracket
    exact absurd (List.cons.inj isBracket).1 notBracket
  · rw [isRead]
    simp only [Option.bind_some, skipped]
    rcases isAfter with rfl | rfl
    · rw [if_neg (by decide)]
      exact Option.map_eq_bind.symm
    · rfl

theorem readItems?_itemLines {contents : List Text} (enough : contents.length < steps) :
    readItems? steps depth ('\n' :: itemLines contents ++ rest) =
      some (contents.map .string, rest) := by
  induction contents generalizing steps with
  | nil =>
    rcases Nat.exists_eq_add_one.mpr enough with ⟨fewer, rfl⟩
    simp [readItems?, itemLines, skipLayout?, QuoteStyle.isLayout]
  | cons content more ih =>
    rcases Nat.exists_eq_add_one.mpr (Nat.zero_lt_of_lt enough) with ⟨fewer, rfl⟩
    rw [List.length_cons] at enough
    have isWhole : '\n' :: itemLines (content :: more) ++ rest =
        "\n    ".toList ++ ((QuoteStyle.ofValue content).write content ++
          ',' :: ('\n' :: itemLines more ++ rest)) := by
      simp [itemLines_cons]
    rw [isWhole, readItems?_item rfl content (by omega) (.inl rfl), ih (by omega)]
    rfl

theorem length_lt_length_itemLines (contents : List Text) :
    contents.length < (itemLines contents).length := by
  induction contents with
  | nil => exact Nat.one_pos
  | cons content more ih =>
    rw [itemLines_cons]
    simp only [List.length_append, List.length_cons]
    omega

theorem return_not_mem_itemLines (contents : List Text) : '\r' ∉ itemLines contents := by
  induction contents with
  | nil => decide
  | cons content more ih =>
    have noReturn := QuoteStyle.return_not_mem_write_ofValue content
    rw [itemLines_cons]
    simp [noReturn, ih]

theorem startsAtOnce_bracket (rest : Text) : StartsAtOnce ('[' :: rest) := by
  rintro c ⟨⟩
  decide

/-- An array is read if its items are. -/
theorem shows_array {items : List TomlValue} (noReturn : '\r' ∉ text)
    (reads : ∀ steps depth rest, text.length < steps →
      readItems? steps depth (text ++ rest) = some (items, rest)) :
    Shows ('[' :: text) (.array items) := by
  refine ⟨⟨List.cons_ne_nil _ _, startsAtOnce_bracket text⟩, by simp [noReturn], ?_⟩
  intro steps depth rest hasSteps hasDepth
  rw [List.length_cons] at hasSteps
  rcases Nat.exists_eq_add_one.mpr (Nat.zero_lt_of_lt hasSteps) with ⟨fewer, rfl⟩
  have isRead := reads fewer (depth - 1) ('\n' :: rest) (by omega)
  rw [List.cons_append, readValue?]
  simp [Nat.ne_of_gt hasDepth, isRead]

theorem shows_array_nil : Shows "[]".toList (.array []) := by
  change Shows ('[' :: [']']) (.array [])
  apply shows_array (by decide)
  intro steps depth rest hasSteps
  rcases Nat.exists_eq_add_one.mpr (Nat.zero_lt_of_lt hasSteps) with ⟨fewer, rfl⟩
  simp [readItems?, skipLayout?, QuoteStyle.isLayout]

theorem shows_array_singleton (content : Text) :
    Shows ('[' :: (QuoteStyle.ofValue content).write content ++ [']'])
      (.array [.string content]) := by
  have noReturn := QuoteStyle.return_not_mem_write_ofValue content
  rw [List.cons_append]
  apply shows_array (by simp [noReturn])
  intro steps depth rest hasSteps
  rw [List.length_append, List.length_singleton] at hasSteps
  rcases Nat.exists_eq_add_one.mpr (Nat.zero_lt_of_lt hasSteps) with ⟨fewer, rfl⟩
  have isRead := @readItems?_item fewer depth rest [] rfl content (by omega) ']' (.inr rfl)
  rw [List.append_assoc]
  exact isRead

theorem shows_array_itemLines (contents : List Text) :
    Shows ('[' :: '\n' :: itemLines contents) (.array (contents.map .string)) := by
  apply shows_array (by simp [return_not_mem_itemLines])
  intro steps depth rest hasSteps
  have fewItems := length_lt_length_itemLines contents
  rw [List.length_cons] at hasSteps
  exact readItems?_itemLines (by omega)

/-! ## Lines -/

theorem startsAtOnce_bareKey (isKey : IsBareKey key) (rest : Text) :
    StartsAtOnce (key ++ rest) := by
  rcases List.exists_cons_of_ne_nil isKey.1 with ⟨c, more, rfl⟩
  have isBare := List.all_eq_true.mp isKey.2 c List.mem_cons_self
  rintro first ⟨⟩
  constructor
  · cases isLayout : QuoteStyle.isLayout c with
    | false => rfl
    | true =>
      simp only [QuoteStyle.isLayout, Bool.or_eq_true, decide_eq_true_eq] at isLayout
      rcases isLayout with ((rfl | rfl) | rfl) | rfl <;> cases isBare
  · rintro rfl
    cases isBare

theorem readKeyPart?_bareKey (isKey : IsBareKey key)
    (ends : ∀ c ∈ rest.head?, isBareKey c = false) :
    readKeyPart? (key ++ rest) = some (key, rest) := by
  have isPart : (key ++ rest).takeWhile isBareKey = key := by
    rw [List.takeWhile_append_of_pos (List.all_eq_true.mp isKey.2)]
    cases rest with
    | nil => simp
    | cons c more => simp [ends c rfl]
  rcases List.exists_cons_of_ne_nil isKey.1 with ⟨c, more, isCons⟩
  have isBare := List.all_eq_true.mp isKey.2 c (isCons ▸ List.mem_cons_self)
  unfold readKeyPart?
  split
  · rename_i text isQuote
    rw [isCons] at isQuote
    cases isQuote
    cases isBare
  · rename_i text isQuote
    rw [isCons] at isQuote
    cases isQuote
    cases isBare
  · simp [isPart, isKey.1]

/-- A key without quotes or dots is read up to what follows the blanks after it. -/
theorem readKey?_bareKey (isKey : IsBareKey key) (ends : ∀ c ∈ rest.head?, isBareKey c = false)
    (noDot : (skipBlanks rest).head? ≠ some '.') (hasSteps : 0 < steps) :
    readKey? steps (key ++ rest) = some (([], key), skipBlanks rest) := by
  rcases Nat.exists_eq_add_one.mpr hasSteps with ⟨fewer, rfl⟩
  have starts := startsAtOnce_bareKey isKey rest
  rw [readKey?, skipBlanks_of_head? fun c isHead => (starts c isHead).1,
    readKeyPart?_bareKey isKey ends]
  simp only [bind, Option.bind_some]
  split
  · rename_i more isDot
    rw [isDot] at noDot
    exact absurd rfl noDot
  · rfl

theorem readEntry?_text (isKey : IsBareKey key) (shows : Shows text value)
    (enough : text.length + 1 < steps) (hasDepth : 0 < depth) :
    readEntry? steps depth (key ++ " = ".toList ++ text ++ '\n' :: rest) =
      some (⟨[], key, value⟩, '\n' :: rest) := by
  rcases Nat.exists_eq_add_one.mpr (Nat.zero_lt_of_lt enough) with ⟨fewer, rfl⟩
  have isWhole : key ++ " = ".toList ++ text ++ '\n' :: rest =
      key ++ (' ' :: '=' :: ' ' :: (text ++ '\n' :: rest)) := by
    simp
  have isValue : skipBlanks (' ' :: (text ++ '\n' :: rest)) = text ++ '\n' :: rest := by
    change skipBlanks (text ++ '\n' :: rest) = _
    apply skipBlanks_of_head?
    rcases List.exists_cons_of_ne_nil shows.starts.1 with ⟨c, more, isCons⟩
    rw [isCons]
    rintro first ⟨⟩
    exact (shows.starts.2 c (by rw [isCons]; rfl)).1
  have ends : ∀ c ∈ (' ' :: '=' :: ' ' :: (text ++ '\n' :: rest)).head?, isBareKey c = false := by
    rintro c ⟨⟩
    rfl
  have noDot : (skipBlanks (' ' :: '=' :: ' ' :: (text ++ '\n' :: rest))).head? ≠ some '.' := by
    simp [skipBlanks]
  rw [isWhole, readEntry?, readKey?_bareKey isKey ends noDot (by omega)]
  change (readValue? fewer depth (skipBlanks (' ' :: (text ++ '\n' :: rest))) >>= _) = _
  rw [isValue, shows.reads fewer depth rest (by omega) hasDepth]
  rfl

theorem head_ne_of_isBareKey {c other : Char} (isKey : IsBareKey key)
    (notBare : isBareKey other = false) (isHead : c ∈ (key ++ rest).head?) : c ≠ other := by
  rcases List.exists_cons_of_ne_nil isKey.1 with ⟨first, more, rfl⟩
  cases isHead
  rintro rfl
  have isBare := List.all_eq_true.mp isKey.2 c List.mem_cons_self
  rw [notBare] at isBare
  contradiction

theorem readHeader?_text (isKey : IsBareKey key) (hasSteps : 0 < steps) :
    readHeader? steps ('[' :: key ++ [']', '\n'] ++ rest) =
      (skipLayout? false rest).map fun rest => (([], key), false, rest) := by
  have isWhole : '[' :: key ++ [']', '\n'] ++ rest = '[' :: (key ++ ']' :: '\n' :: rest) := by
    simp
  have ends : ∀ c ∈ (']' :: '\n' :: rest).head?, isBareKey c = false := by
    rintro c ⟨⟩
    rfl
  have noDot : (skipBlanks (']' :: '\n' :: rest)).head? ≠ some '.' := by
    simp [skipBlanks]
  rw [isWhole]
  unfold readHeader?
  split
  · rename_i more isDouble
    have notBracket : '[' ≠ '[' := by
      apply @head_ne_of_isBareKey key (']' :: '\n' :: rest) _ _ isKey rfl
      rw [(List.cons.inj isDouble).2]
      rfl
    contradiction
  · rename_i text _ isHeader
    cases isHeader
    rw [readKey?_bareKey isKey ends noDot hasSteps]
    change (skipLayout? false rest >>= _) = _
    exact Option.map_eq_bind.symm
  · rename_i _ notHeader
    exact absurd rfl (notHeader _)

/-! ## Whole files -/

variable {line : Line} {lines : List Line}

theorem startsAtOnce_text (isWritten : line.IsWritten) (notBlank : line.isBlank = false)
    (rest : Text) : StartsAtOnce (line.text ++ rest) := by
  cases line with
  | entry key text value =>
    rw [Line.text, List.append_assoc, List.append_assoc, List.append_assoc]
    exact startsAtOnce_bareKey isWritten.1 _
  | header key => exact startsAtOnce_bracket _
  | blank => contradiction

theorem fileText_cons (line : Line) (lines : List Line) :
    fileText (line :: lines) = line.text ++ fileText lines :=
  List.flatMap_cons

theorem skipLayout?_fileText (areWritten : ∀ line ∈ lines, line.IsWritten) :
    skipLayout? false (fileText lines) = some (fileText (lines.dropWhile Line.isBlank)) := by
  induction lines with
  | nil => rfl
  | cons line rest ih =>
    rw [List.forall_mem_cons] at areWritten
    cases isBlank : line.isBlank with
    | true =>
      rw [List.dropWhile_cons_of_pos isBlank, ← ih areWritten.2, fileText_cons]
      cases line with
      | blank => rfl
      | entry key text value => contradiction
      | header key => contradiction
    | false =>
      rw [List.dropWhile_cons_of_neg (by simp [isBlank]), fileText_cons]
      exact skipLayout?_of_startsAtOnce (startsAtOnce_text areWritten.1 isBlank _)

/-- The entries up to the first header are read one by one. -/
theorem readEntries?_fileText (areWritten : ∀ line ∈ lines, line.IsWritten)
    (enough : (fileText lines).length < steps) :
    readEntries? steps (fileText (lines.dropWhile Line.isBlank)) =
      some (leading lines, fileText (lines.dropWhile fun line => !line.isHeader)) := by
  induction lines generalizing steps with
  | nil =>
    rcases Nat.exists_eq_add_one.mpr enough with ⟨fewer, rfl⟩
    rfl
  | cons line rest ih =>
    rw [List.forall_mem_cons] at areWritten
    rw [fileText_cons, List.length_append] at enough
    rcases Nat.exists_eq_add_one.mpr (Nat.zero_lt_of_lt enough) with ⟨fewer, rfl⟩
    cases line with
    | blank => exact ih areWritten.2 (by omega)
    | header key =>
      change readEntries? (fewer + 1) (fileText (.header key :: rest)) =
        some ([], fileText (.header key :: rest))
      rw [fileText_cons]
      rfl
    | entry key text value =>
      simp only [Line.text, List.length_append, List.length_singleton] at enough
      have isRead := @readEntry?_text fewer maximalDepth key text (fileText rest) value
        areWritten.1.1 areWritten.1.2 (by simp at enough; omega) (by decide)
      have isText : fileText (.entry key text value :: rest) =
          key ++ " = ".toList ++ text ++ '\n' :: fileText rest := by
        simp [fileText_cons, Line.text]
      change readEntries? (fewer + 1) (fileText (.entry key text value :: rest)) = _
      have notEmpty : key ++ " = ".toList ++ text ++ '\n' :: fileText rest ≠ [] := by
        simp
      have notBracket : ∀ more,
          key ++ " = ".toList ++ text ++ '\n' :: fileText rest ≠ '[' :: more := by
        intro more isHeader
        have notBare : '[' ≠ '[' := by
          apply @head_ne_of_isBareKey key (" = ".toList ++ text ++ '\n' :: fileText rest) _ _
            areWritten.1.1 rfl
          rw [← List.append_assoc, ← List.append_assoc, isHeader]
          rfl
        contradiction
      rw [isText, readEntries?, isRead]
      · simp only [bind, Option.bind_some, nextLine?_newline, skipLayout?_fileText areWritten.2]
        rw [ih areWritten.2 (by omega)]
        rfl
      · exact notEmpty
      · exact notBracket

/-- From a header on, the sections are read one by one. -/
theorem readSections?_fileText (areWritten : ∀ line ∈ lines, line.IsWritten)
    (enough : (fileText lines).length < steps) :
    readSections? steps (fileText (lines.dropWhile fun line => !line.isHeader)) =
      some (sections lines) := by
  induction lines generalizing steps with
  | nil =>
    rcases Nat.exists_eq_add_one.mpr enough with ⟨fewer, rfl⟩
    rfl
  | cons line rest ih =>
    rw [List.forall_mem_cons] at areWritten
    rw [fileText_cons, List.length_append] at enough
    rcases Nat.exists_eq_add_one.mpr (Nat.zero_lt_of_lt enough) with ⟨fewer, rfl⟩
    cases line with
    | blank => exact ih areWritten.2 (by omega)
    | entry key text value => exact ih areWritten.2 (by omega)
    | header key =>
      simp only [Line.text, List.length_append, List.length_cons] at enough
      have isText : fileText (.header key :: rest) =
          '[' :: key ++ [']', '\n'] ++ fileText rest := by
        simp [fileText_cons, Line.text]
      change readSections? (fewer + 1) (fileText (.header key :: rest)) = _
      rw [isText, readSections?, if_neg (by simp), readHeader?_text areWritten.1 (by omega),
        skipLayout?_fileText areWritten.2]
      simp only [Option.map_some, bind, Option.bind_some]
      rw [readEntries?_fileText areWritten.2 (by omega)]
      simp only [Option.bind_some]
      rw [ih areWritten.2 (by omega)]
      rfl

theorem returnsEndLines_of_not_mem (noReturn : '\r' ∉ text) : returnsEndLines text = true := by
  fun_induction returnsEndLines text with
  | case1 rest ih => simp at noReturn
  | case2 rest notNewline => simp at noReturn
  | case3 c rest notNewline notReturn ih =>
    rw [List.mem_cons, not_or] at noReturn
    exact ih noReturn.2
  | case4 => rfl

theorem return_not_mem_of_isBareKey (isKey : IsBareKey key) : '\r' ∉ key :=
  fun isReturn => Bool.noConfusion (List.all_eq_true.mp isKey.2 _ isReturn)

theorem return_not_mem_text (isWritten : line.IsWritten) : '\r' ∉ line.text := by
  cases line with
  | entry key text value =>
    simp [Line.text, return_not_mem_of_isBareKey isWritten.1, isWritten.2.noReturn]
  | header key => simp [Line.text, return_not_mem_of_isBareKey isWritten]
  | blank => decide

/-- A file that begins with no mark of the byte order is read from its first character on. -/
theorem after?_mark_fileText (areWritten : ∀ line ∈ lines, line.IsWritten) :
    Text.after? ['\ufeff'] (fileText lines) = none := by
  have noMark : ∀ c ∈ (fileText lines).head?, c ≠ '\ufeff' := by
    cases lines with
    | nil => simp [fileText]
    | cons line rest =>
      rw [List.forall_mem_cons] at areWritten
      rw [fileText_cons]
      cases line with
      | entry key text value =>
        rw [Line.text, List.append_assoc, List.append_assoc, List.append_assoc]
        exact fun c => head_ne_of_isBareKey areWritten.1.1 rfl
      | header key =>
        rintro c ⟨⟩
        decide
      | blank =>
        rintro c ⟨⟩
        decide
  cases isText : fileText lines with
  | nil => rfl
  | cons c rest =>
    rw [isText] at noMark
    rw [Text.after?, if_neg (noMark c rfl).symm]

/-- A file is read as the entries before its first header and a section for each header. -/
theorem ofText?_fileText (areWritten : ∀ line ∈ lines, line.IsWritten) :
    ofText? (fileText lines) = TomlTable.ofSections? (leading lines) (sections lines) := by
  have noReturn : '\r' ∉ fileText lines := by
    intro isReturn
    rcases List.mem_flatMap.mp isReturn with ⟨line, isLine, inLine⟩
    exact return_not_mem_text (areWritten line isLine) inLine
  rw [ofText?, returnsEndLines_of_not_mem noReturn, after?_mark_fileText areWritten]
  change (skipLayout? false (fileText lines) >>= _) = _
  rw [skipLayout?_fileText areWritten]
  simp only [bind, Option.bind_some]
  rw [readEntries?_fileText areWritten (by omega)]
  simp only [Option.bind_some]
  rw [readSections?_fileText areWritten (by omega)]
  rfl

end TomlReader

end LiterateMarkdown
