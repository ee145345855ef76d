import LiterateMarkdown.Proofs.Fence.Rendering

/-!
# Fences on lines that end in a carriage return

A page with CRLF line endings has the lines of the page with plain ones, each with a carriage return
at its end (`Lines.ofText_toCrlf`). Every kind of line is what it was without it, and a fence with
properties has the carriage return for its line ending (`LineKind.ofLine_append_return`).
-/

namespace LiterateMarkdown

namespace Text

/-- The text with a carriage return before each newline. -/
def toCrlf (text : Text) : Text :=
  replaceChar '\n' ['\r', '\n'] text

/-- What stands on a page with CRLF line endings in place of lines of a page with plain ones. -/
def crlfLine (line : Text) : Text :=
  toCrlf line ++ ['\r']

/-- Whether a text holds no character of a line ending. -/
def Unbroken (line : Text) : Prop :=
  '\n' ∉ line ∧ '\r' ∉ line

theorem toCrlf_append (first second : Text) :
    toCrlf (first ++ second) = toCrlf first ++ toCrlf second :=
  List.flatMap_append

theorem toCrlf_of_newline_not_mem {text : Text} (oneLine : '\n' ∉ text) : toCrlf text = text := by
  induction text with
  | nil => rfl
  | cons c rest ih =>
    rw [List.mem_cons, not_or] at oneLine
    have isKept : toCrlf (c :: rest) = c :: toCrlf rest := by
      simp [toCrlf, replaceChar, Ne.symm oneLine.1]
    rw [isKept, ih oneLine.2]

theorem crlfLine_of_newline_not_mem {line : Text} (oneLine : '\n' ∉ line) :
    crlfLine line = line ++ ['\r'] := by
  rw [crlfLine, toCrlf_of_newline_not_mem oneLine]

theorem newline_not_mem_crlfLine {line : Text} (oneLine : '\n' ∉ line) : '\n' ∉ crlfLine line := by
  simp [crlfLine_of_newline_not_mem oneLine, oneLine]

theorem join_map_crlfLine {items : List Text} (nonempty : items ≠ []) :
    join ['\n'] (items.map crlfLine) ++ ['\n'] = toCrlf (join ['\n'] items ++ ['\n']) := by
  have atNewline : toCrlf ['\n'] = ['\r', '\n'] := rfl
  induction items with
  | nil => contradiction
  | cons line more ih =>
    cases more with
    | nil => simp [join, toCrlf_append, crlfLine, atNewline]
    | cons next more =>
      have joined := ih (List.cons_ne_nil next more)
      simp only [List.map_cons, join, List.append_assoc, toCrlf_append] at joined ⊢
      rw [joined]
      simp [crlfLine, atNewline]

/-- The lines of a joined text that gets carriage returns get one each. -/
theorem crlfLine_join {items : List Text} (nonempty : items ≠ []) :
    crlfLine (join ['\n'] items) = join ['\n'] (items.map crlfLine) := by
  have joined := join_map_crlfLine nonempty
  have atNewline : toCrlf ['\n'] = ['\r'] ++ ['\n'] := rfl
  rw [toCrlf_append, atNewline, ← List.append_assoc, List.append_left_inj] at joined
  exact joined.symm

theorem after?_append_singleton {start : Text} {c : Char} (absent : c ∉ start) (line : Text) :
    after? start (line ++ [c]) = (after? start line).map (· ++ [c]) := by
  induction start generalizing line with
  | nil => rfl
  | cons expected start ih =>
    rw [List.mem_cons, not_or] at absent
    cases line with
    | nil => simp [after?, Ne.symm absent.1]
    | cons actual line =>
      by_cases same : expected = actual
      · simp [after?, same, ih absent.2]
      · simp [after?, same]

/-- A carriage return at the end of a line is not what keeps it from being dedented. -/
theorem dropCarriageReturn_dedent_append {indent line : Text} (noReturn : '\r' ∉ indent)
    (unbroken : '\r' ∉ line) :
    dropCarriageReturn (dedent indent (line ++ ['\r'])) =
      dropCarriageReturn (dedent indent line) := by
  have isDropped : dropCarriageReturn (dedent indent line) = dedent indent line := by
    rw [dropCarriageReturn, if_neg]
    intro isLast
    exact unbroken (mem_of_mem_dedent (List.mem_of_getLast? isLast))
  have isDedented : dedent indent (line ++ ['\r']) = dedent indent line ++ ['\r'] := by
    rw [dedent, dedent, after?_append_singleton noReturn]
    cases after? indent line <;> rfl
  rw [isDropped, isDedented, dropCarriageReturn_append]

end Text

namespace Lines

theorem toText_map_crlfLine {items : List Text} (nonempty : items ≠ []) :
    toText ⟨items.map Text.crlfLine, true⟩ = Text.toCrlf (toText ⟨items, true⟩) :=
  Text.join_map_crlfLine nonempty

/-- A page with CRLF line endings has the lines of the page with plain ones. -/
theorem ofText_toCrlf {page : Text} (ended : page = [] ∨ page.getLast? = some '\n') :
    ofText (Text.toCrlf page) =
      ⟨(ofText page).items.map Text.crlfLine, (ofText page).endsWithNewline⟩ := by
  rcases ended with rfl | ended
  · rfl
  have nonempty : split page ≠ [] := by
    apply split_ne_nil_of_ne_nil
    rintro rfl
    contradiction
  have oneLine : ∀ line ∈ (split page).map Text.crlfLine, '\n' ∉ line := by
    intro line present
    rcases List.mem_map.mp present with ⟨other, isOther, rfl⟩
    exact Text.newline_not_mem_crlfLine (newline_not_mem_of_mem_split isOther)
  have readable : Readable ⟨(split page).map Text.crlfLine, true⟩ :=
    ⟨oneLine, fun _ => mt List.map_eq_nil_iff.mp nonempty, by simp⟩
  have written : toText ⟨split page, true⟩ = page := by
    simpa only [ofText, ended, decide_true] using toText_ofText page
  calc ofText (Text.toCrlf page)
      = ofText (toText ⟨(split page).map Text.crlfLine, true⟩) := by
        rw [toText_map_crlfLine nonempty, written]
    _ = ⟨(split page).map Text.crlfLine, true⟩ := ofText_toText readable
    _ = _ := by simp only [ofText, ended, decide_true]

end Lines

namespace Fence

theorem after?_backticks_append_return (line : Text) :
    Text.after? backticks ((line ++ ['\r']).dropWhile Text.isBlank) =
      (Text.after? backticks (line.dropWhile Text.isBlank)).map (· ++ ['\r']) := by
  have isBlank : ['\r'].dropWhile Text.isBlank = [] := by decide
  rw [List.dropWhile_append, isBlank]
  split
  · rename_i allBlank
    rw [List.isEmpty_iff.mp allBlank]
    rfl
  · exact Text.after?_append_singleton (by decide) _

theorem all_isBlank_append_return (rest : Text) :
    (rest ++ ['\r']).all Text.isBlank = rest.all Text.isBlank := by
  have isBlank : Text.isBlank '\r' := by decide
  simp [isBlank]

theorem isFence_append_return (line : Text) : isFence (line ++ ['\r']) = isFence line := by
  rw [isFence, isFence, after?_backticks_append_return]
  simp

theorem isClosing_append_return (line : Text) : isClosing (line ++ ['\r']) = isClosing line := by
  rw [isClosing, isClosing, after?_backticks_append_return]
  cases Text.after? backticks (line.dropWhile Text.isBlank) with
  | none => rfl
  | some rest => exact all_isBlank_append_return rest

theorem startsVerbatim_append_return (line : Text) :
    startsVerbatim (line ++ ['\r']) = startsVerbatim line := by
  rw [startsVerbatim, startsVerbatim, Text.after?_append_singleton (by decide)]
  cases Text.after? "~~~markdown".toList line with
  | none => rfl
  | some rest => exact all_isBlank_append_return rest

theorem endsVerbatim_append_return (line : Text) :
    endsVerbatim (line ++ ['\r']) = endsVerbatim line := by
  rw [endsVerbatim, endsVerbatim, Text.after?_append_singleton (by decide)]
  cases Text.after? "~~~".toList line with
  | none => rfl
  | some rest => exact all_isBlank_append_return rest

end Fence

namespace OpenFence

/-- The fence on a line that ends in a carriage return. -/
def withReturn (fence : OpenFence) : OpenFence :=
  { fence with lineEnding := ['\r'] }

theorem return_not_mem_indent {line : Text} {fence : OpenFence}
    (found : ofLine? line = some fence) : '\r' ∉ fence.indent := by
  rcases exists_toLine_of_ofLine? found with ⟨_, _, _, indentBlank, _⟩
  intro present
  exact absurd (List.all_eq_true.mp indentBlank _ present) (by decide)

theorem lineEnding_eq_nil {line : Text} {fence : OpenFence} (noReturn : '\r' ∉ line)
    (found : ofLine? line = some fence) : fence.lineEnding = [] := by
  rcases exists_toLine_of_ofLine? found with ⟨_, _, rfl, _, _, _, _, none | isReturn⟩
  · exact none
  · simp [toLine, isReturn] at noReturn

theorem toLine_withReturn {fence : OpenFence} (noEnding : fence.lineEnding = [])
    (beforeBrace afterBrace : Text) :
    fence.withReturn.toLine beforeBrace afterBrace =
      fence.toLine beforeBrace afterBrace ++ ['\r'] := by
  simp [toLine, withReturn, noEnding]

/-- The carriage return becomes the line ending of the fence. -/
theorem ofLine?_append_return {line : Text} (noReturn : '\r' ∉ line) :
    ofLine? (line ++ ['\r']) = (ofLine? line).map withReturn := by
  cases found : ofLine? line with
  | some fence =>
    have noEnding := lineEnding_eq_nil noReturn found
    rcases exists_toLine_of_ofLine? found with
      ⟨beforeBrace, afterBrace, rfl, indentBlank, beforeBlank, afterBlank, oneLine, _⟩
    rw [← toLine_withReturn noEnding]
    exact ofLine?_toLine fence.withReturn indentBlank beforeBlank afterBlank oneLine (.inr rfl)
  | none =>
    rw [Option.map_none, Option.eq_none_iff_forall_ne_some]
    intro fence foundReturn
    rcases exists_toLine_of_ofLine? foundReturn with
      ⟨beforeBrace, afterBrace, isLine, indentBlank, beforeBlank, afterBlank, oneLine, ending⟩
    rcases ending with noEnding | isReturn
    · have isLast : ('\x7d' :: afterBrace).getLast? = some '\r' := by
        have sameLast := congrArg List.getLast? isLine
        rw [toLine, noEnding, List.append_nil, List.getLast?_append, List.getLast?_append]
          at sameLast
        simpa using sameLast.symm
      rcases List.mem_cons.mp (List.mem_of_getLast? isLast) with isBrace | present
      · exact absurd isBrace (by decide)
      · exact absurd (List.all_eq_true.mp afterBlank _ present) (by decide)
    · let bare : OpenFence := { fence with lineEnding := [] }
      have sameFence : fence = bare.withReturn := by
        simp [bare, withReturn, ← isReturn]
      rw [sameFence, toLine_withReturn rfl, List.append_left_inj] at isLine
      have foundBare := ofLine?_toLine bare indentBlank beforeBlank afterBlank oneLine (.inl rfl)
      rw [← isLine, found] at foundBare
      contradiction

end OpenFence

namespace LineKind

/-- What a line becomes that ends in a carriage return. -/
def withReturn : LineKind → LineKind
  | opening fence properties => opening fence.withReturn properties
  | kind => kind

theorem ofLine_append_return {line : Text} (noReturn : '\r' ∉ line) :
    ofLine (line ++ ['\r']) = (ofLine line).withReturn := by
  simp only [ofLine, Fence.startsVerbatim_append_return, Fence.endsVerbatim_append_return,
    Fence.isClosing_append_return, OpenFence.ofLine?_append_return noReturn]
  split
  · rfl
  split
  · rfl
  split
  · rfl
  cases OpenFence.ofLine? line with
  | none => rfl
  | some fence =>
    have sameProperties : fence.withReturn.properties = fence.properties := rfl
    simp only [Option.map_some, sameProperties]
    cases Property.parse fence.properties <;> rfl

end LineKind

/-- A rendered fence keeps the carriage return of the fence that it stands for. -/
theorem Fence.titledLine_withReturn {line : Text} {fence : OpenFence} {properties : List Property}
    (noReturn : '\r' ∉ line) (found : OpenFence.ofLine? line = some fence)
    (parsed : Property.parse fence.properties = .ok properties) :
    titledLine fence.withReturn properties = Text.crlfLine (titledLine fence properties) := by
  rw [Text.crlfLine_of_newline_not_mem (newline_not_mem_titledLine found parsed), titledLine,
    titledLine, OpenFence.lineEnding_eq_nil noReturn found, List.append_nil]
  rfl

end LiterateMarkdown
