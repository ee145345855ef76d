import LiterateMarkdown.Fence.Line
import LiterateMarkdown.Property.Parser

/-!
# Kinds of lines

The lines that begin or end a region of a page exclude each other: no line is a tilde fence and a
fence of backticks, and no closing fence carries properties. A line is therefore of one kind,
whatever the order in which it is compared with the four forms.
-/

namespace LiterateMarkdown

theorem Text.isBlank_of_isIndent {c : Char} (indents : isIndent c) : isBlank c := by
  simp only [isIndent, Bool.or_eq_true, decide_eq_true_eq] at indents
  rcases indents with rfl | rfl <;> decide

namespace OpenFence

theorem exists_blanks_of_lineEnding? {tail lineEnding : Text}
    (found : lineEnding? tail = some lineEnding) :
    ∃ blanks : Text, blanks.all Text.isIndent ∧ tail = blanks ++ lineEnding ∧
      (lineEnding = [] ∨ lineEnding = ['\r']) := by
  refine ⟨tail.takeWhile Text.isIndent, List.all_takeWhile, ?_⟩
  have whole := List.takeWhile_append_dropWhile (p := Text.isIndent) (l := tail)
  unfold lineEnding? at found
  split at found
  · rename_i nothing
    have noEnding : [] = lineEnding := by simpa using found
    subst noEnding
    rw [nothing] at whole
    exact ⟨whole.symm, .inl rfl⟩
  · rename_i carriageReturn
    have isReturn : ['\r'] = lineEnding := by simpa using found
    subst isReturn
    rw [carriageReturn] at whole
    exact ⟨whole.symm, .inr rfl⟩
  · simp at found

/-- A line that is recognised as an opening fence is the written form of that fence. -/
theorem exists_toLine_of_ofLine? {line : Text} {fence : OpenFence}
    (found : ofLine? line = some fence) :
    ∃ beforeBrace afterBrace : Text, line = fence.toLine beforeBrace afterBrace ∧
      fence.indent.all Text.isIndent ∧ beforeBrace.all Text.isIndent ∧
      afterBrace.all Text.isIndent ∧ '\n' ∉ fence.properties ∧
      (fence.lineEnding = [] ∨ fence.lineEnding = ['\r']) := by
  simp only [ofLine?, bind, Option.bind_eq_some_iff] at found
  rcases found with ⟨afterFence, isFence, afterBrace, isBrace, ⟨properties, tail⟩, isLast,
    lineEnding, isEnding, found⟩
  split at found
  · simp at found
  · rename_i oneLine
    have isFound := Option.some.inj found
    subst isFound
    simp only at isEnding
    rcases exists_blanks_of_lineEnding? isEnding with ⟨blanks, areBlank, isTail, ending⟩
    refine ⟨afterFence.takeWhile Text.isIndent, blanks, ?_, List.all_takeWhile,
      List.all_takeWhile, areBlank, oneLine, ending⟩
    have fenceLine := List.takeWhile_append_dropWhile (p := Text.isIndent) (l := line)
    have braceLine := List.takeWhile_append_dropWhile (p := Text.isIndent) (l := afterFence)
    rw [Text.after?_eq_some_iff.mp isFence] at fenceLine
    rw [Text.after?_eq_some_iff.mp isBrace, Text.eq_of_splitAtLast isLast, isTail] at braceLine
    calc line
        = line.takeWhile Text.isIndent ++ (backticks ++ afterFence) := fenceLine.symm
      _ = line.takeWhile Text.isIndent ++ (backticks ++ (afterFence.takeWhile Text.isIndent ++
            (['\x7b'] ++ (properties ++ '\x7d' :: (blanks ++ lineEnding))))) :=
          congrArg (fun rest => line.takeWhile Text.isIndent ++ (backticks ++ rest)) braceLine.symm
      _ = _ := by simp [toLine]

end OpenFence

namespace Fence

theorem after?_backticks_of_indent {indent : Text} (rest : Text)
    (indentBlank : indent.all Text.isIndent) :
    Text.after? backticks ((indent ++ (backticks ++ rest)).dropWhile Text.isBlank) = some rest := by
  have blank : ∀ c ∈ indent, Text.isBlank c := fun c present =>
    Text.isBlank_of_isIndent (List.all_eq_true.mp indentBlank c present)
  have atBackticks : (backticks ++ rest).dropWhile Text.isBlank = backticks ++ rest := rfl
  rw [List.dropWhile_append_of_pos blank, atBackticks, Text.after?_append]

/-- An opening fence with properties begins with backticks. -/
theorem isFence_of_ofLine? {line : Text} {fence : OpenFence}
    (found : OpenFence.ofLine? line = some fence) : isFence line := by
  rcases OpenFence.exists_toLine_of_ofLine? found with
    ⟨beforeBrace, afterBrace, rfl, indentBlank, _⟩
  simp [OpenFence.toLine, isFence, after?_backticks_of_indent _ indentBlank]

/-- A fence with properties closes no block. -/
theorem not_isClosing_of_ofLine? {line : Text} {fence : OpenFence}
    (found : OpenFence.ofLine? line = some fence) : isClosing line = false := by
  rcases OpenFence.exists_toLine_of_ofLine? found with
    ⟨beforeBrace, afterBrace, rfl, indentBlank, _⟩
  have brace : Text.isBlank '\x7b' = false := by decide
  simp [OpenFence.toLine, isClosing, after?_backticks_of_indent _ indentBlank, brace]

theorem not_isFence_of_tilde (rest : Text) : isFence ('~' :: rest) = false :=
  rfl

/-- A line that begins a verbatim region is no fence of backticks. -/
theorem not_isFence_of_startsVerbatim {line : Text} (starts : startsVerbatim line) :
    isFence line = false := by
  unfold startsVerbatim at starts
  split at starts
  · rename_i rest begins
    rw [Text.after?_eq_some_iff.mp begins]
    exact not_isFence_of_tilde _
  · contradiction

theorem not_startsVerbatim_of_isFence {line : Text} (fence : isFence line) :
    startsVerbatim line = false := by
  rw [Bool.eq_false_iff]
  intro starts
  rw [not_isFence_of_startsVerbatim starts] at fence
  contradiction

/-- A line that ends a verbatim region is no fence of backticks. -/
theorem not_isFence_of_endsVerbatim {line : Text} (ends : endsVerbatim line) :
    isFence line = false := by
  unfold endsVerbatim at ends
  split at ends
  · rename_i rest begins
    rw [Text.after?_eq_some_iff.mp begins]
    exact not_isFence_of_tilde _
  · contradiction

theorem not_endsVerbatim_of_startsVerbatim {line : Text} (starts : startsVerbatim line) :
    endsVerbatim line = false := by
  unfold startsVerbatim at starts
  split at starts
  · rename_i rest begins
    rw [Text.after?_eq_some_iff.mp begins]
    rfl
  · contradiction

end Fence

theorem OpenFence.ofLine?_of_isClosing {line : Text} (closes : Fence.isClosing line) :
    ofLine? line = none := by
  rw [Option.eq_none_iff_forall_ne_some]
  intro fence found
  rw [Fence.not_isClosing_of_ofLine? found] at closes
  contradiction

/-- What a line is to a reader that goes through a page line by line. -/
inductive LineKind where
  /-- A verbatim region begins. -/
  | verbatimStart
  /-- A verbatim region ends. -/
  | verbatimEnd
  /-- A fence that carries a list of properties. -/
  | opening (fence : OpenFence) (properties : List Property)
  /-- A fence that carries nothing. -/
  | closing
  | ordinary
  deriving DecidableEq, Repr

namespace LineKind

/-- The kind of a line. A fence whose properties cannot be read is an ordinary line. -/
def ofLine (line : Text) : LineKind :=
  if Fence.startsVerbatim line then verbatimStart
  else if Fence.endsVerbatim line then verbatimEnd
  else if Fence.isClosing line then closing
  else
    match OpenFence.ofLine? line with
    | none => ordinary
    | some fence =>
      match Property.parse fence.properties with
      | .ok properties => opening fence properties
      | .error _ => ordinary

theorem ofLine_eq_verbatimStart_iff {line : Text} :
    ofLine line = verbatimStart ↔ Fence.startsVerbatim line := by
  unfold ofLine
  split <;> rename_i starts
  · simpa using starts
  · simp only [starts]
    repeat' split
    all_goals simp

theorem ofLine_eq_verbatimEnd_iff {line : Text} :
    ofLine line = verbatimEnd ↔ Fence.endsVerbatim line := by
  unfold ofLine
  split
  · rename_i starts
    simp [Fence.not_endsVerbatim_of_startsVerbatim starts]
  split <;> rename_i ends
  · simpa using ends
  · simp only [ends]
    repeat' split
    all_goals simp

theorem ofLine_of_isFence {line : Text} (isFence : Fence.isFence line) :
    ofLine line =
      if Fence.isClosing line then closing
      else
        match OpenFence.ofLine? line with
        | none => ordinary
        | some fence =>
          match Property.parse fence.properties with
          | .ok properties => opening fence properties
          | .error _ => ordinary := by
  have notStart := Bool.eq_false_iff.mp (Fence.not_startsVerbatim_of_isFence isFence)
  have notEnd : ¬ Fence.endsVerbatim line := by
    intro ends
    rw [Fence.not_isFence_of_endsVerbatim ends] at isFence
    contradiction
  rw [ofLine, if_neg notStart, if_neg notEnd]

theorem ofLine_eq_closing_iff {line : Text} :
    ofLine line = closing ↔ Fence.isClosing line := by
  constructor
  · intro isClosing
    unfold ofLine at isClosing
    repeat' split at isClosing
    all_goals simp_all
  · intro closes
    rw [ofLine_of_isFence (Fence.isFence_of_isClosing closes), if_pos closes]

theorem ofLine_eq_opening_iff {line : Text} {fence : OpenFence} {properties : List Property} :
    ofLine line = opening fence properties ↔
      OpenFence.ofLine? line = some fence ∧ Property.parse fence.properties = .ok properties := by
  constructor
  · intro opens
    unfold ofLine at opens
    repeat' split at opens
    all_goals simp_all
  · rintro ⟨found, read⟩
    rw [ofLine_of_isFence (Fence.isFence_of_ofLine? found), Fence.not_isClosing_of_ofLine? found]
    simp [found, read]

theorem endsVerbatim_eq_false {line : Text} (ne : ofLine line ≠ verbatimEnd) :
    Fence.endsVerbatim line = false := by
  rw [Bool.eq_false_iff]
  exact fun ends => ne (ofLine_eq_verbatimEnd_iff.mpr ends)

theorem isClosing_eq_false {line : Text} (ne : ofLine line ≠ closing) :
    Fence.isClosing line = false := by
  rw [Bool.eq_false_iff]
  exact fun closes => ne (ofLine_eq_closing_iff.mpr closes)

theorem startsVerbatim_eq_false {line : Text} (ne : ofLine line ≠ verbatimStart) :
    Fence.startsVerbatim line = false := by
  rw [Bool.eq_false_iff]
  exact fun starts => ne (ofLine_eq_verbatimStart_iff.mpr starts)

theorem ofLine_of_not_isFence {line : Text} (noFence : Fence.isFence line = false)
    (notStart : Fence.startsVerbatim line = false) (notEnd : Fence.endsVerbatim line = false) :
    ofLine line = ordinary := by
  have notClosing : Fence.isClosing line = false := by
    rw [Bool.eq_false_iff] at noFence ⊢
    exact fun closes => noFence (Fence.isFence_of_isClosing closes)
  have notOpening : OpenFence.ofLine? line = none := by
    rw [Bool.eq_false_iff] at noFence
    rw [Option.eq_none_iff_forall_ne_some]
    exact fun fence found => noFence (Fence.isFence_of_ofLine? found)
  simp [ofLine, notStart, notEnd, notClosing, notOpening]

end LineKind

end LiterateMarkdown
