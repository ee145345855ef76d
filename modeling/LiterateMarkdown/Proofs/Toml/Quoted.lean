import LiterateMarkdown.Toml.Quoted

/-!
# Reading back TOML strings

What is written between quotes is related to the value that it shows character by character
(`QuoteStyle.Shows`): a character shows itself, or an escape shows it. A run of quotes shows itself
only where it cannot be taken for the closing delimiter. Whatever text shows a value is read as this
value, and a value is shown by what is written for it.
-/

namespace LiterateMarkdown

namespace QuoteStyle

variable {style : QuoteStyle} {run : Nat} {value text rest : Text}

/-- How many quotes may follow each other in a string of the style. -/
def limit (style : QuoteStyle) : Nat :=
  if style.multiLine then 2 else 0

/-- An escape that shows a character, whatever comes after it. -/
structure IsEscape (escape : Text) (c : Char) : Prop where
  stands : ∃ more, escape = '\\' :: more
  reads : ∀ rest, escaped? (escape.tail ++ rest) = some (c, escape.tail.length)
  continues : ∀ rest, continuation? (escape.tail ++ rest) = none
  noReturn : '\r' ∉ escape

/-- Text that shows a value after a run of quotes. -/
inductive Shows (style : QuoteStyle) : Nat → Text → Text → Prop
  | nil {run : Nat} : Shows style run [] []
  | quote {run : Nat} {value text : Text} (fits : run < style.limit)
    (shows : Shows style (run + 1) value text) :
    Shows style run (style.mark :: value) (style.mark :: text)
  | plain {run : Nat} {c : Char} {value text : Text} (notMark : c ≠ style.mark)
    (notEscape : style.escapes → c ≠ '\\')
    (isPlain : isPlain c || (style.multiLine && c = '\n')) (shows : Shows style 0 value text) :
    Shows style run (c :: value) (c :: text)
  | escape {run : Nat} {c : Char} {escape value text : Text} (escapes : style.escapes)
    (isEscape : IsEscape escape c) (shows : Shows style 0 value text) :
    Shows style run (c :: value) (escape ++ text)

theorem ne_mark_of_eq {c : Char} (isOther : c = '\\' ∨ c = '\n') (style : QuoteStyle) :
    c ≠ style.mark := by
  rw [mark]
  rcases isOther with rfl | rfl <;> split <;> decide

theorem limit_le_two (style : QuoteStyle) : style.limit ≤ 2 := by
  rw [limit]
  split <;> omega

theorem multiLine_of_lt_limit (fits : run < style.limit) : style.multiLine = true := by
  cases multi : style.multiLine with
  | true => rfl
  | false =>
    rw [limit, multi, if_neg Bool.false_ne_true] at fits
    omega

theorem mark_eq (style : QuoteStyle) : style.mark = '"' ∨ style.mark = '\'' := by
  rw [mark]
  split
  · exact .inl rfl
  · exact .inr rfl

/-! ## Reading -/

/-- As far as no more quotes may follow, what shows a value has no quote at its beginning. -/
theorem Shows.takeWhile_mark (shows : Shows style run value text) (nonempty : value ≠ [])
    (noneFits : style.limit ≤ run) (rest : Text) :
    (text ++ rest).takeWhile (· = style.mark) = [] := by
  cases shows with
  | nil => contradiction
  | quote fits shows => omega
  | plain notMark notEscape isPlain shows => simp [notMark]
  | escape escapes isEscape shows =>
    rcases isEscape.stands with ⟨more, rfl⟩
    simp [ne_mark_of_eq (.inl rfl) style]

/-- After a quote, what shows a value goes on with at most one quote, unless the rest of the value
is quotes that all show themselves. -/
theorem Shows.quotes (shows : Shows style (run + 1) value text) (rest : Text) :
    ((text ++ rest).takeWhile (· = style.mark)).length < 2 ∨
      ∃ count, value = List.replicate count style.mark ∧ text = List.replicate count style.mark ∧
        count ≤ 1 := by
  have atMostTwo := style.limit_le_two
  cases shows with
  | nil => exact .inr ⟨0, rfl, rfl, Nat.zero_le 1⟩
  | @quote _ value text more shows =>
    by_cases last : value = []
    · subst last
      cases shows
      exact .inr ⟨1, rfl, rfl, Nat.le_refl 1⟩
    · left
      simp [shows.takeWhile_mark last (by omega) rest]
  | plain notMark notEscape isPlain shows =>
    left
    simp [notMark]
  | escape escapes isEscape shows =>
    left
    rcases isEscape.stands with ⟨more, rfl⟩
    simp [ne_mark_of_eq (.inl rfl) style]

/-- What shows a value is read as this value, up to the closing delimiter. -/
theorem read?_of_shows (shows : Shows style run value text)
    (ends : rest.head? ≠ some style.mark) :
    read? style (text ++ style.delimiter ++ rest) = some (value, rest) := by
  have noMore : rest.takeWhile (· = style.mark) = [] := by
    cases rest with
    | nil => rfl
    | cons c rest =>
      rw [List.takeWhile_cons_of_neg]
      simpa using ends
  induction shows with
  | nil =>
    rw [delimiter, List.nil_append]
    cases multi : style.multiLine with
    | false => simp [multi, read?]
    | true => simp [multi, read?, List.replicate, noMore]
  | @quote run value text fits shows ih =>
    have multi := multiLine_of_lt_limit fits
    rw [List.append_assoc, List.cons_append, read?, if_pos rfl, if_pos multi, ← List.append_assoc,
      ih]
    rcases shows.quotes (style.delimiter ++ rest) with few | ⟨count, rfl, rfl, atMostOne⟩
    · rw [List.append_assoc, if_pos few]
      rfl
    · rw [delimiter, multi, if_pos rfl]
      rcases Nat.le_one_iff_eq_zero_or_eq_one.mp atMostOne with rfl | rfl
      · simp [List.replicate, noMore]
      · simp [List.replicate, noMore]
  | @plain run c value text notMark notEscape isPlain shows ih =>
    have noEscape : (decide (c = '\\') && style.escapes) = false := by
      cases escapes : style.escapes with
      | false => exact Bool.and_false _
      | true => simp [notEscape escapes]
    have stands : (QuoteStyle.isPlain c || style.multiLine && isPlainOrNewline c) = true := by
      rw [Bool.or_eq_true] at isPlain ⊢
      refine isPlain.imp_right fun isNewline => ?_
      rw [Bool.and_eq_true] at isNewline ⊢
      refine ⟨isNewline.1, ?_⟩
      simp [isPlainOrNewline, of_decide_eq_true isNewline.2]
    rw [List.append_assoc, List.cons_append, read?, if_neg notMark, noEscape,
      if_neg Bool.false_ne_true, if_pos stands, ← List.append_assoc, ih]
    rfl
  | @escape run c escape value text escapes isEscape shows ih =>
    rcases isEscape.stands with ⟨more, rfl⟩
    have isRead := isEscape.reads (text ++ style.delimiter ++ rest)
    have goesOn := isEscape.continues (text ++ style.delimiter ++ rest)
    rw [List.tail_cons] at isRead goesOn
    have isWhole : '\\' :: more ++ text ++ style.delimiter ++ rest =
        '\\' :: (more ++ (text ++ style.delimiter ++ rest)) := by
      simp
    rw [isWhole, read?, if_neg (ne_mark_of_eq (.inl rfl) style), escapes, goesOn, isRead]
    simp only [decide_true, Bool.and_self, ↓reduceIte, ite_self, bind, Option.bind_some,
      List.drop_left, ih]
    rfl

/-! ## Writing -/

theorem isEscape_of_letter {letter c : Char}
    (reads : ∀ rest, escaped? (letter :: rest) = some (c, 1))
    (notLayout : isLayout letter = false) : IsEscape ['\\', letter] c where
  stands := ⟨[letter], rfl⟩
  reads := reads
  continues := by
    intro rest
    simp only [isLayout, Bool.or_eq_false_iff, decide_eq_false_iff_not] at notLayout
    simp [continuation?, notLayout]
  noReturn := by
    simp only [isLayout, Bool.or_eq_false_iff, decide_eq_false_iff_not] at notLayout
    simp [Ne.symm notLayout.1.2]

theorem toNat_lt_of_not_isPlain {c : Char} (notPlain : isPlain c = false) : c.toNat < 128 := by
  simp only [isPlain, Bool.or_eq_false_iff, Bool.and_eq_false_iff, decide_eq_false_iff_not,
    Decidable.not_not] at notPlain
  rcases notPlain.2 with isLow | rfl
  · have isLower : c.toNat < ' '.toNat := Char.not_le.mp isLow
    exact Nat.lt_trans isLower (by decide)
  · decide

/-- The hexadecimal digits of a control character stand for it. -/
theorem hexChar?_controlDigits : ∀ code < 128,
    hexChar? 4 (controlDigits (.ofNat code)) = some (.ofNat code) ∧
      '\r' ∉ controlDigits (.ofNat code) := by
  decide +kernel

theorem isEscape_controlDigits {c : Char} (notPlain : isPlain c = false) :
    IsEscape ('\\' :: 'u' :: controlDigits c) c := by
  have digits := hexChar?_controlDigits c.toNat (toNat_lt_of_not_isPlain notPlain)
  rw [Char.ofNat_toNat] at digits
  refine ⟨⟨_, rfl⟩, ?_, fun rest => rfl, by simpa using digits.2⟩
  intro rest
  have sameDigits : hexChar? 4 (controlDigits c ++ rest) = hexChar? 4 (controlDigits c) := rfl
  rw [List.tail_cons, List.cons_append, escaped?, sameDigits, digits.1]
  rfl

/-- A character other than a quote is shown as it is written between double quotes. -/
theorem shows_escapeChar {multiLine : Bool} {c : Char} (notQuote : c ≠ '"')
    (shows : Shows ⟨true, multiLine⟩ 0 value text) :
    Shows ⟨true, multiLine⟩ run (c :: value) (escapeChar multiLine c ++ text) := by
  unfold escapeChar
  split
  · subst c
    exact .escape rfl (isEscape_of_letter (fun _ => rfl) (by decide)) shows
  split
  · subst c
    exact .escape rfl (isEscape_of_letter (fun _ => rfl) (by decide)) shows
  split
  · subst c
    split
    · rename_i multi
      exact .plain (ne_mark_of_eq (.inr rfl) _) (fun _ => by decide) (by simp [multi]) shows
    · exact .escape rfl (isEscape_of_letter (fun _ => rfl) (by decide)) shows
  split
  · subst c
    exact .escape rfl (isEscape_of_letter (fun _ => rfl) (by decide)) shows
  split
  · subst c
    exact .escape rfl (isEscape_of_letter (fun _ => rfl) (by decide)) shows
  split
  · subst c
    exact .escape rfl (isEscape_of_letter (fun _ => rfl) (by decide)) shows
  rename_i notBackslash
  split
  · rename_i plain
    exact .plain notQuote (fun _ => notBackslash) (by simp [plain]) shows
  · rename_i notPlain
    exact .escape rfl (isEscape_controlDigits (eq_false_of_ne_true notPlain)) shows

/-- Between double quotes every value is shown. -/
theorem shows_escape (multiLine : Bool) (run : Nat) (value : Text) :
    Shows ⟨true, multiLine⟩ run value (escape multiLine run value) := by
  induction value generalizing run with
  | nil => exact .nil
  | cons c rest ih =>
    by_cases isQuote : c = '"'
    · subst isQuote
      rw [escape]
      by_cases fits : run < if multiLine then 2 else 0
      · rw [if_pos fits]
        exact .quote fits (ih (run + 1))
      · rw [if_neg fits]
        exact .escape rfl (isEscape_of_letter (fun _ => rfl) (by decide)) (ih 0)
    · rw [escape]
      · exact shows_escapeChar isQuote (ih 0)
      · exact isQuote

theorem le_longestRun_go (c : Char) (run : Nat) (text : Text) : run ≤ longestRun.go c run text := by
  induction text generalizing run with
  | nil => exact Nat.le_refl run
  | cons first rest ih =>
    rw [longestRun.go]
    split
    · exact Nat.le_trans (Nat.le_succ run) (ih (run + 1))
    · exact Nat.le_max_left _ _

/-- A value that needs no escapes shows itself between single quotes. -/
theorem shows_self {multiLine : Bool}
    (arePlain : ∀ c ∈ value, showsPlainly.isPlainUnder ⟨false, multiLine⟩ c = true)
    (fewQuotes : longestRun.go '\'' run value ≤ limit ⟨false, multiLine⟩) :
    Shows ⟨false, multiLine⟩ run value value := by
  induction value generalizing run with
  | nil => exact .nil
  | cons c rest ih =>
    rw [List.forall_mem_cons] at arePlain
    rw [longestRun.go] at fewQuotes
    by_cases isQuote : c = '\''
    · subst isQuote
      rw [if_pos rfl] at fewQuotes
      have fits : run < limit ⟨false, multiLine⟩ :=
        Nat.lt_of_lt_of_le (Nat.lt_succ_self run) (Nat.le_trans (le_longestRun_go _ _ _) fewQuotes)
      exact .quote fits (ih arePlain.2 fewQuotes)
    · rw [if_neg isQuote] at fewQuotes
      have rest := ih arePlain.2 (Nat.le_trans (Nat.le_max_right _ _) fewQuotes)
      exact .plain isQuote (fun escapes => Bool.noConfusion escapes) arePlain.1 rest

/-- A value between the delimiters of a style. -/
def body (style : QuoteStyle) (value : Text) : Text :=
  if style.escapes then escape style.multiLine 0 value else value

/-- A value is written in a style that shows it. -/
theorem shows_body_ofValue (value : Text) :
    Shows (ofValue value) 0 value ((ofValue value).body value) := by
  rcases isStyle : ofValue value with ⟨_ | _, multiLine⟩
  · have plainly : showsPlainly ⟨false, multiLine⟩ value = true := by
      unfold ofValue at isStyle
      dsimp only at isStyle
      split at isStyle
      · rename_i style found
        rw [← isStyle]
        exact @List.find?_some _ (showsPlainly · value) _ _ found
      · cases isStyle
    rw [showsPlainly, Bool.and_eq_true, Bool.and_eq_true, List.all_eq_true,
      decide_eq_true_eq] at plainly
    exact shows_self plainly.1.1 plainly.2
  · exact shows_escape multiLine 0 value

/-! ## Whole strings -/

/-- What shows a value begins with no carriage return, and with a newline only if the value does. -/
theorem head?_of_shows (shows : Shows style run value text) :
    text.head? ≠ some '\r' ∧ (text.head? = some '\n' → value.head? = some '\n') := by
  cases shows with
  | nil => simp
  | quote fits shows =>
    rw [List.head?_cons, List.head?_cons, mark]
    split <;> simp
  | plain notMark notEscape isPlain shows =>
    refine ⟨?_, fun isNewline => isNewline⟩
    rintro ⟨⟩
    exact absurd isPlain (by simp [QuoteStyle.isPlain])
  | escape escapes isEscape shows =>
    rcases isEscape.stands with ⟨more, rfl⟩
    simp

theorem return_not_mem_of_shows (shows : Shows style run value text) : '\r' ∉ text := by
  induction shows with
  | nil => exact List.not_mem_nil
  | quote fits shows ih =>
    rw [List.mem_cons, not_or]
    refine ⟨?_, ih⟩
    rw [mark]
    split <;> decide
  | plain notMark notEscape isPlain shows ih =>
    rw [List.mem_cons, not_or]
    refine ⟨?_, ih⟩
    rintro rfl
    exact absurd isPlain (by simp [QuoteStyle.isPlain])
  | escape escapes isEscape shows ih =>
    rw [List.mem_append, not_or]
    exact ⟨isEscape.noReturn, ih⟩

theorem write_eq (style : QuoteStyle) (value : Text) :
    style.write value =
      style.delimiter ++ (if style.multiLine && value.contains '\n' then ['\n'] else []) ++
        style.body value ++ style.delimiter :=
  rfl

theorem afterFirstNewline_of_head? (notReturn : text.head? ≠ some '\r')
    (notNewline : text.head? ≠ some '\n') : afterFirstNewline text = text := by
  unfold afterFirstNewline
  split
  · exact absurd rfl notNewline
  · exact absurd rfl notReturn
  · rfl

theorem exists_mark_write (style : QuoteStyle) (value : Text) :
    ∃ more, style.write value = style.mark :: more := by
  rcases style with ⟨escapes, _ | _⟩ <;> exact ⟨_, rfl⟩

/-- The newline that begins a string of several lines is left out. -/
theorem afterFirstNewline_of_shows (shows : Shows style 0 value text) (rest : Text) :
    afterFirstNewline ((if value.contains '\n' then ['\n'] else []) ++ text ++
      style.mark :: rest) = text ++ style.mark :: rest := by
  rcases head?_of_shows shows with ⟨notReturn, newline⟩
  cases hasNewline : value.contains '\n' with
  | true => rfl
  | false =>
    have noNewline : '\n' ∉ value := by simpa using hasNewline
    rw [if_neg Bool.false_ne_true, List.nil_append]
    apply afterFirstNewline_of_head?
    · rw [List.head?_append]
      cases begins : text.head? with
      | none => simp [mark]; split <;> decide
      | some c => simpa [begins] using notReturn
    · rw [List.head?_append]
      cases begins : text.head? with
      | none => simpa using (ne_mark_of_eq (.inr rfl) style).symm
      | some c =>
        rintro ⟨⟩
        exact noNewline (List.mem_of_head? (newline begins))

theorem readAny?_multiLine (escapes : Bool) (text : Text) :
    readAny? (delimiter ⟨escapes, true⟩ ++ text) =
      read? ⟨escapes, true⟩ (afterFirstNewline text) := by
  cases escapes <;> rfl

theorem readAny?_singleLine {escapes : Bool}
    (notTwo : ∀ more, text ≠ mark ⟨escapes, false⟩ :: mark ⟨escapes, false⟩ :: more) :
    readAny? (delimiter ⟨escapes, false⟩ ++ text) = read? ⟨escapes, false⟩ text := by
  cases escapes with
  | false =>
    change readAny? ('\'' :: text) = _
    unfold readAny?
    split <;> simp_all [mark]
  | true =>
    change readAny? ('"' :: text) = _
    unfold readAny?
    split <;> simp_all [mark]

/-- What is written for a value is read as this value, unless a quote follows. -/
theorem readAny?_write (shows : Shows style 0 value (style.body value))
    (ends : rest.head? ≠ some style.mark) :
    readAny? (style.write value ++ rest) = some (value, rest) := by
  have isRead := read?_of_shows shows ends
  rw [write_eq]
  generalize style.body value = text at shows isRead
  rcases style with ⟨escapes, multiLine⟩
  cases multiLine with
  | false =>
    rw [Bool.false_and, if_neg Bool.false_ne_true, List.append_nil, List.append_assoc,
      List.append_assoc, readAny?_singleLine, ← List.append_assoc, isRead]
    intro more startsWithTwo
    by_cases isEmpty : value = []
    · subst isEmpty
      cases shows
      cases rest with
      | nil => simp [delimiter] at startsWithTwo
      | cons c rest =>
        simp only [delimiter, Bool.false_eq_true, ↓reduceIte, List.replicate_one, List.nil_append,
          List.cons_append, List.cons.injEq, true_and] at startsWithTwo
        exact ends (congrArg some startsWithTwo.1)
    · have noQuote := shows.takeWhile_mark isEmpty (Nat.le_refl 0)
        (delimiter ⟨escapes, false⟩ ++ rest)
      rw [startsWithTwo] at noQuote
      simp at noQuote
  | true =>
    have delimits : delimiter ⟨escapes, true⟩ ++ rest =
        mark ⟨escapes, true⟩ :: (List.replicate 2 (mark ⟨escapes, true⟩) ++ rest) :=
      rfl
    rw [Bool.true_and, List.append_assoc, List.append_assoc, List.append_assoc,
      readAny?_multiLine, ← List.append_assoc, delimits, afterFirstNewline_of_shows shows,
      ← delimits, ← List.append_assoc, isRead]

/-- A value is read back from how it is written. -/
theorem readAny?_write_ofValue (value : Text) (ends : ∀ style, rest.head? ≠ some (mark style)) :
    readAny? ((ofValue value).write value ++ rest) = some (value, rest) :=
  readAny?_write (shows_body_ofValue value) (ends _)

theorem return_not_mem_write_ofValue (value : Text) :
    '\r' ∉ (ofValue value).write value := by
  have noReturn := return_not_mem_of_shows (shows_body_ofValue value)
  have notMark : '\r' ≠ (ofValue value).mark := by
    rw [mark]
    split <;> decide
  have notDelimiter : '\r' ∉ (ofValue value).delimiter := by
    rw [delimiter]
    exact fun isMark => notMark (List.mem_replicate.mp isMark).2
  rw [write_eq]
  simp only [List.mem_append, not_or]
  refine ⟨⟨⟨notDelimiter, ?_⟩, noReturn⟩, notDelimiter⟩
  split <;> simp

end QuoteStyle

end LiterateMarkdown
