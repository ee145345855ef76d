import LiterateMarkdown.Text.Lines

/-!
# Lines of joined texts

Splitting a text that was joined from pieces gives the pieces back. Reading its lines gives them
back but for the end: a final blank line without a newline leaves no line behind, and a newline
after no line at all makes a blank line. Other lines that hold no newline are given back, and every
text is (`toText_ofText_and_ofText_toText_iff`).
-/

namespace LiterateMarkdown

namespace Text

theorem not_mem_join {c : Char} {separator : Text} {pieces : List Text}
    (notSeparator : c ∉ separator) (notPiece : ∀ piece ∈ pieces, c ∉ piece) :
    c ∉ join separator pieces := by
  induction pieces with
  | nil => simp [join]
  | cons piece more ih =>
    rw [List.forall_mem_cons] at notPiece
    cases more with
    | nil => exact notPiece.1
    | cons next more =>
      simp only [join, List.mem_append, not_or]
      exact ⟨⟨notPiece.1, notSeparator⟩, ih notPiece.2⟩

theorem splitOn_of_not_mem {separator : Char} {piece : Text} (absent : separator ∉ piece) :
    splitOn separator piece = [piece] := by
  induction piece with
  | nil => rfl
  | cons c rest ih =>
    rw [List.mem_cons, not_or] at absent
    simp [splitOn, Ne.symm absent.1, ih absent.2]

theorem splitOn_append (separator : Char) (first second : Text) :
    splitOn separator (first ++ separator :: second) =
      splitOn separator first ++ splitOn separator second := by
  induction first with
  | nil => simp [splitOn]
  | cons c rest ih =>
    by_cases isSeparator : c = separator
    · simp [splitOn, isSeparator, ih]
    · rcases List.exists_cons_of_ne_nil (splitOn_ne_nil separator rest) with ⟨piece, more, pieces⟩
      simp [splitOn, isSeparator, ih, pieces]

theorem splitOn_append_cons {separator : Char} {piece : Text} (absent : separator ∉ piece)
    (rest : Text) : splitOn separator (piece ++ separator :: rest) =
      piece :: splitOn separator rest := by
  rw [splitOn_append, splitOn_of_not_mem absent, List.singleton_append]

theorem not_mem_of_mem_splitOn {separator : Char} {text piece : Text}
    (isPiece : piece ∈ splitOn separator text) : separator ∉ piece := by
  fun_induction splitOn separator text generalizing piece with
  | case1 => simp_all
  | case2 rest ih =>
    rcases List.mem_cons.mp isPiece with rfl | isLater
    · simp
    · exact ih isLater
  | case3 c rest notSeparator nothing ih => exact absurd nothing (splitOn_ne_nil separator rest)
  | case4 c rest notSeparator first more pieces ih =>
    rcases List.mem_cons.mp isPiece with rfl | isLater
    · rw [List.mem_cons, not_or]
      exact ⟨Ne.symm notSeparator, ih (by simp [pieces])⟩
    · exact ih (by simp [pieces, isLater])

/-- The pieces of a joined text are the pieces that were joined. -/
theorem splitOn_join {separator : Char} {pieces : List Text} (nonempty : pieces ≠ [])
    (absent : ∀ piece ∈ pieces, separator ∉ piece) :
    splitOn separator (join [separator] pieces) = pieces := by
  induction pieces with
  | nil => contradiction
  | cons piece rest ih =>
    have pieceAbsent := absent piece List.mem_cons_self
    cases rest with
    | nil => exact splitOn_of_not_mem pieceAbsent
    | cons next more =>
      have restAbsent : ∀ piece ∈ next :: more, separator ∉ piece :=
        fun piece isMem => absent piece (List.mem_cons_of_mem _ isMem)
      rw [join, List.append_assoc, List.singleton_append, splitOn_append_cons pieceAbsent,
        ih (List.cons_ne_nil _ _) restAbsent]

theorem exists_join_append_singleton (separator : Text) (earlier : List Text) (last : Text) :
    ∃ start, join separator (earlier ++ [last]) = start ++ last := by
  induction earlier with
  | nil => exact ⟨[], rfl⟩
  | cons piece more ih =>
    rcases ih with ⟨start, isJoined⟩
    rcases List.exists_cons_of_ne_nil (List.append_ne_nil_of_right_ne_nil more
      (List.cons_ne_nil last [])) with ⟨next, rest, isMore⟩
    rw [isMore] at isJoined
    exact ⟨piece ++ separator ++ start, by simp [isMore, join, isJoined]⟩

theorem mem_of_mem_dropCarriageReturn {c : Char} {line : Text}
    (isMem : c ∈ dropCarriageReturn line) : c ∈ line := by
  unfold dropCarriageReturn at isMem
  split at isMem
  · exact List.dropLast_subset line isMem
  · exact isMem

theorem mem_of_mem_dedent {c : Char} {indent line : Text} (isMem : c ∈ dedent indent line) :
    c ∈ line := by
  unfold dedent at isMem
  cases begins : after? indent line with
  | none => simpa [begins] using isMem
  | some rest =>
    rw [after?_eq_some_iff.mp begins]
    rw [begins] at isMem
    exact List.mem_append_right indent isMem

end Text

namespace Lines

theorem newline_not_mem_of_mem_split {text line : Text} (present : line ∈ split text) :
    '\n' ∉ line := by
  fun_induction split text generalizing line with
  | case1 => simp at present
  | case2 rest ih =>
    rcases List.mem_cons.mp present with rfl | later
    · simp
    · exact ih later
  | case3 c rest notNewline nothing ih =>
    have isLine : line = [c] := by simpa using present
    rw [isLine, List.mem_singleton]
    exact Ne.symm notNewline
  | case4 c rest notNewline first more splitRest ih =>
    rcases List.mem_cons.mp present with rfl | later
    · rw [List.mem_cons, not_or]
      exact ⟨Ne.symm notNewline, ih (by simp [splitRest])⟩
    · exact ih (by simp [splitRest, later])

theorem mem_of_mem_split {c : Char} {text line : Text} (isLine : line ∈ split text)
    (present : c ∈ line) : c ∈ text := by
  fun_induction split text generalizing line with
  | case1 => contradiction
  | case2 rest ih =>
    rcases List.mem_cons.mp isLine with rfl | isLater
    · contradiction
    · exact List.mem_cons_of_mem _ (ih isLater present)
  | case3 first rest notNewline nothing ih =>
    rw [List.mem_singleton.mp isLine, List.mem_singleton] at present
    rw [present]
    exact List.mem_cons_self
  | case4 first rest notNewline begun more splitRest ih =>
    rcases List.mem_cons.mp isLine with rfl | isLater
    · rcases List.mem_cons.mp present with rfl | inBegun
      · exact List.mem_cons_self
      · exact List.mem_cons_of_mem _ (ih (by simp [splitRest]) inBegun)
    · exact List.mem_cons_of_mem _ (ih (by simp [splitRest, isLater]) present)

theorem split_append_newline {line : Text} (rest : Text) (oneLine : '\n' ∉ line) :
    split (line ++ '\n' :: rest) = line :: split rest := by
  induction line with
  | nil => simp [split]
  | cons c line ih =>
    rw [List.mem_cons, not_or] at oneLine
    simp [split, Ne.symm oneLine.1, ih oneLine.2]

theorem split_of_newline_not_mem {line : Text} (oneLine : '\n' ∉ line) (nonempty : line ≠ []) :
    split line = [line] := by
  induction line with
  | nil => contradiction
  | cons c line ih =>
    rw [List.mem_cons, not_or] at oneLine
    cases line with
    | nil => simp [split, Ne.symm oneLine.1]
    | cons d line =>
      rw [split, if_neg (Ne.symm oneLine.1), ih oneLine.2 (List.cons_ne_nil d line)]

/-- Lines that all end in a newline are read back as they are. -/
theorem split_join_append_newline {items : List Text} (oneLine : ∀ line ∈ items, '\n' ∉ line)
    (nonempty : items ≠ []) : split (Text.join ['\n'] items ++ ['\n']) = items := by
  induction items with
  | nil => contradiction
  | cons line more ih =>
    rw [List.forall_mem_cons] at oneLine
    cases more with
    | nil =>
      rw [Text.join, split_append_newline [] oneLine.1]
      rfl
    | cons next more =>
      rw [Text.join, List.append_assoc, List.append_assoc, List.singleton_append,
        split_append_newline _ oneLine.1, ih oneLine.2 (List.cons_ne_nil next more)]

/-- Without a newline at the end, a final blank line cannot be told from no line. -/
theorem split_join {items : List Text} (oneLine : ∀ line ∈ items, '\n' ∉ line) :
    split (Text.join ['\n'] items) =
      if items.getLast? = some [] then items.dropLast else items := by
  induction items with
  | nil => rfl
  | cons line more ih =>
    rw [List.forall_mem_cons] at oneLine
    cases more with
    | nil =>
      by_cases blank : line = []
      · simp [Text.join, split, blank]
      · simp [Text.join, split_of_newline_not_mem oneLine.1 blank, blank]
    | cons next more =>
      rw [Text.join, List.append_assoc, List.singleton_append, split_append_newline _ oneLine.1,
        ih oneLine.2, List.getLast?_cons_cons]
      split <;> simp

/-- Joined lines are read back as they are, if the last of them is not empty. -/
theorem ofText_join {lines : List Text} (oneLine : ∀ line ∈ lines, '\n' ∉ line) {last : Text}
    (isLast : lines.getLast? = some last) (nonempty : last ≠ []) :
    ofText (Text.join ['\n'] lines) = ⟨lines, false⟩ := by
  have isSplit := split_join oneLine
  rw [isLast, if_neg (by simpa using nonempty)] at isSplit
  have noNewline : (Text.join ['\n'] lines).getLast? ≠ some '\n' := by
    rcases List.getLast?_eq_some_iff.mp isLast with ⟨earlier, rfl⟩
    rcases Text.exists_join_append_singleton ['\n'] earlier last with ⟨start, isJoined⟩
    cases isEnd : last.getLast? with
    | none => exact absurd (List.getLast?_eq_none_iff.mp isEnd) nonempty
    | some c =>
      rw [isJoined, List.getLast?_append, isEnd, Option.some_or, Ne, Option.some.injEq]
      rintro rfl
      exact oneLine last (by simp) (List.mem_of_getLast? isEnd)
  simp only [ofText, isSplit, noNewline, decide_false]

/-- Up to a newline a text is read by itself. -/
theorem split_append {first : Text} (ended : first = [] ∨ first.getLast? = some '\n')
    (second : Text) : split (first ++ second) = split first ++ split second := by
  induction first with
  | nil => rfl
  | cons c rest ih =>
    have restEnded : c = '\n' ∨ rest ≠ [] := by
      cases rest with
      | nil => simpa using ended
      | cons d more => simp
    have ih := ih (by cases rest <;> simp_all)
    by_cases isNewline : c = '\n'
    · simp [split, isNewline, ih]
    · have nonempty := restEnded.resolve_left isNewline
      rcases List.exists_cons_of_ne_nil (split_ne_nil_of_ne_nil nonempty) with
        ⟨line, more, isSplit⟩
      simp [split, isNewline, ih, isSplit]

theorem getLast?_split_ne_nil {text : Text} (unended : text.getLast? ≠ some '\n') :
    (split text).getLast? ≠ some [] := by
  induction text with
  | nil => simp [split]
  | cons c rest ih =>
    cases rest with
    | nil =>
      have notNewline : c ≠ '\n' := by simpa using unended
      simp [split, notNewline]
    | cons d more =>
      rcases List.exists_cons_of_ne_nil (split_ne_nil_of_ne_nil (List.cons_ne_nil d more)) with
        ⟨line, later, isSplit⟩
      have ih := ih (by simpa using unended)
      rw [isSplit] at ih
      rw [split, isSplit]
      split
      · simpa using ih
      · cases later with
        | nil => simp
        | cons next later => simpa using ih

/-- Lines that some text is read as. -/
structure Readable (lines : Lines) : Prop where
  oneLine : ∀ line ∈ lines.items, '\n' ∉ line
  ended : lines.endsWithNewline → lines.items ≠ []
  unended : lines.endsWithNewline = false → lines.items.getLast? ≠ some []

theorem readable_ofText (text : Text) : (ofText text).Readable where
  oneLine _ isLine := newline_not_mem_of_mem_split isLine
  ended ended := by
    apply split_ne_nil_of_ne_nil
    rintro rfl
    contradiction
  unended unended := getLast?_split_ne_nil (by simpa [ofText] using unended)

/-- Readable lines are read back from their text as they are. -/
theorem ofText_toText {lines : Lines} (readable : lines.Readable) :
    ofText lines.toText = lines := by
  rcases lines with ⟨items, endsWithNewline⟩
  rcases readable with ⟨oneLine, ended, unended⟩
  cases endsWithNewline with
  | true =>
    have whole := split_join_append_newline oneLine (ended rfl)
    simp [ofText, toText, whole]
  | false =>
    simp only [toText, Bool.false_eq_true, ↓reduceIte, List.append_nil]
    cases isLast : items.getLast? with
    | none =>
      rw [List.getLast?_eq_none_iff.mp isLast]
      rfl
    | some last =>
      apply ofText_join oneLine isLast
      rintro rfl
      exact unended rfl isLast

theorem readable_iff (lines : Lines) :
    lines.Readable ↔
      (∀ line ∈ lines.items, '\n' ∉ line) ∧
        (lines.endsWithNewline = true ∧ lines.items ≠ [] ∨
          lines.endsWithNewline = false ∧
            (lines.items = [] ∨ ∃ last ∈ lines.items.getLast?, last ≠ [])) := by
  constructor
  · intro readable
    refine ⟨readable.oneLine, ?_⟩
    cases ends : lines.endsWithNewline with
    | true => exact Or.inl ⟨rfl, readable.ended ends⟩
    | false =>
      refine Or.inr ⟨rfl, ?_⟩
      cases isLast : lines.items.getLast? with
      | none => exact Or.inl (List.getLast?_eq_none_iff.mp isLast)
      | some last =>
        refine Or.inr ⟨last, rfl, ?_⟩
        rintro rfl
        exact readable.unended ends isLast
  · rintro ⟨oneLine, ⟨ended, nonempty⟩ | ⟨unended, endsWell⟩⟩
    · refine ⟨oneLine, fun _ => nonempty, ?_⟩
      intro unended
      rw [ended] at unended
      contradiction
    · refine ⟨oneLine, ?_, ?_⟩
      · intro ended
        rw [unended] at ended
        contradiction
      · rintro - isBlank
        rcases endsWell with nothing | ⟨last, isLast, notBlank⟩
        · rw [nothing] at isBlank
          contradiction
        · rw [isBlank, Option.mem_some] at isLast
          exact notBlank isLast.symm

/--
Reading lines and writing them are inverse to each other. Every text is given back by the lines that
it is read as. Lines are given back by their text exactly if none of them holds a newline, and there
is a line for the newline at the end or, without one, the last line is not blank.
-/
theorem toText_ofText_and_ofText_toText_iff :
    (∀ text, (ofText text).toText = text) ∧
      ∀ items endsWithNewline,
        ofText (toText ⟨items, endsWithNewline⟩) = ⟨items, endsWithNewline⟩ ↔
          (∀ line ∈ items, '\n' ∉ line) ∧
            (endsWithNewline = true ∧ items ≠ [] ∨
              endsWithNewline = false ∧ (items = [] ∨ ∃ last ∈ items.getLast?, last ≠ [])) := by
  refine ⟨toText_ofText, ?_⟩
  intro items endsWithNewline
  rw [← readable_iff ⟨items, endsWithNewline⟩]
  constructor
  · intro isRead
    rw [← isRead]
    exact readable_ofText _
  · exact ofText_toText

theorem items_ofText_toText (lines : Lines) (oneLine : ∀ line ∈ lines.items, '\n' ∉ line) :
    (ofText lines.toText).items = [[]] ∨ (ofText lines.toText).items <+: lines.items := by
  rcases lines with ⟨items, endsWithNewline⟩
  cases endsWithNewline with
  | true =>
    by_cases nothing : items = []
    · left
      rw [nothing]
      rfl
    · right
      have whole := split_join_append_newline oneLine nothing
      simp only [ofText, toText, ↓reduceIte, whole]
      exact List.prefix_rfl
  | false =>
    right
    simp only [ofText, toText, Bool.false_eq_true, ↓reduceIte, List.append_nil]
    rw [split_join oneLine]
    split
    · exact List.dropLast_prefix items
    · exact List.prefix_rfl

end Lines

end LiterateMarkdown
