import LiterateMarkdown.Proofs.Fence.LineKind
import LiterateMarkdown.Proofs.Regex.Matching
import LiterateMarkdown.Proofs.Rule.Anchoring

/-!
# Fence lines as patterns

The four kinds of fence lines can be given by patterns that match from the beginning of a line. The
recognisers are what these patterns match.
-/

namespace LiterateMarkdown

theorem Text.after?_of_head? {first c : Char} {start text : Text} (begins : text.head? = some c)
    (differs : first ≠ c) : after? (first :: start) text = none := by
  rcases List.head?_eq_some_iff.mp begins with ⟨rest, rfl⟩
  rw [after?, if_neg differs]

namespace Pattern

/-- What a pattern matches from the beginning of a line on. -/
def matchStart? (pattern line : Text) : Option LineMatch :=
  atStart? pattern >>= fun pattern => pattern.matchLine? line

end Pattern

namespace MatchPlace

variable {place : MatchPlace} {taken rest : Text}

/-- Note what a group matched. -/
def note (place : MatchPlace) (index : Nat) (text : Text) : MatchPlace :=
  { place with captures := (index, text) :: place.captures }

@[simp]
theorem rest_note (place : MatchPlace) (index : Nat) (text : Text) :
    (place.note index text).rest = place.rest :=
  rfl

@[simp]
theorem captures_note (place : MatchPlace) (index : Nat) (text : Text) :
    (place.note index text).captures = (index, text) :: place.captures :=
  rfl

theorem skip_note (place : MatchPlace) (index : Nat) (text taken : Text) :
    (place.note index text).skip taken = (place.skip taken).note index text :=
  rfl

theorem noteGroup_skip (parts : place.rest = taken ++ rest) (index : Nat) :
    (place.skip taken).noteGroup index place = (place.skip taken).note index taken := by
  rw [noteGroup, textUpTo_skip parts, note]

end MatchPlace

namespace Fence

open Regex

/-- The pattern of the lines that begin a verbatim region. -/
def verbatimStartPattern : Text :=
  "~~~markdown\\s*$".toList

/-- The pattern of the lines that end a verbatim region. -/
def verbatimEndPattern : Text :=
  "~~~\\s*$".toList

/-- The pattern of opening fences with properties. -/
def openingPattern : Text :=
  "(?P<indent>[ \\t]*)(?P<fence>```)[ \\t]*\\\x7b(?P<properties>.*)\\\x7d[ \\t]*(?P<eol>\\r?)$".toList

/-- The pattern of closing fences. -/
def closingPattern : Text :=
  "(?P<indent>\\s*)```\\s*$".toList

/-! ## What the patterns stand for -/

/-- White space up to the end of the line. -/
def blanksToEnd : Regex :=
  .concat (run .blank) (.anchor .textEnd)

/-- A space or a tab. -/
def indentChars : CharClass :=
  .union (.union .nothing (.single ' ')) (.single '\t')

/-- A carriage return or nothing up to the end of the line. -/
def returnToEnd : Regex :=
  .concat (.capture 4 (.repetition 0 (some 1) true (.one (.single '\r')))) (.anchor .textEnd)

/-- Spaces and tabs before the end of the line. -/
def endingToEnd : Regex :=
  .concat (run indentChars) returnToEnd

/-- Properties up to the last brace of the line. -/
def propertiesToEnd : Regex :=
  .concat (.capture 3 (run (.complement (.single '\n')))) (literal ['\x7d'] endingToEnd)

/-- Properties in braces behind spaces and tabs. -/
def bracesToEnd : Regex :=
  .concat (run indentChars) (literal ['\x7b'] propertiesToEnd)

/-- Backticks before properties in braces. -/
def backticksToEnd : Regex :=
  .concat (.capture 2 (literal "``".toList (.one (.single '\x60')))) bracesToEnd

/-- An opening fence with properties. -/
def openingRegex : Regex :=
  .concat (.capture 1 (run indentChars)) backticksToEnd

/-- The groups of an opening fence. -/
def openingGroups : List (Text × Nat) :=
  [("indent".toList, 1), ("fence".toList, 2), ("properties".toList, 3), ("eol".toList, 4)]

theorem atStart?_verbatimStartPattern :
    Pattern.atStart? verbatimStartPattern =
      some ⟨(literal "~~~markdown".toList blanksToEnd).atTextStart, []⟩ := by
  decide +kernel

theorem atStart?_verbatimEndPattern :
    Pattern.atStart? verbatimEndPattern =
      some ⟨(literal "~~~".toList blanksToEnd).atTextStart, []⟩ := by
  decide +kernel

theorem atStart?_openingPattern :
    Pattern.atStart? openingPattern = some ⟨openingRegex.atTextStart, openingGroups⟩ := by
  decide +kernel

theorem atStart?_closingPattern :
    Pattern.atStart? closingPattern =
      some ⟨Regex.atTextStart (.concat (.capture 1 (run .blank)) (literal backticks blanksToEnd)),
        [("indent".toList, 1)]⟩ := by
  decide +kernel

/-! ## What the parts match -/

/-- The properties behind a brace and the line ending, if only the end of the line comes after the
last brace. -/
def propertiesAndEnding? (text : Text) : Option (Text × Text) :=
  (Text.splitAtLast '\x7d' text).bind fun (properties, tail) =>
    (OpenFence.lineEnding? tail).bind fun ending =>
      if '\n' ∈ properties then none else some (properties, ending)

/-- The properties behind the backticks and the line ending. -/
def inBraces? (text : Text) : Option (Text × Text) :=
  (Text.after? ['\x7b'] (text.dropWhile Text.isIndent)).bind propertiesAndEnding?

theorem ofLine?_eq (line : Text) :
    OpenFence.ofLine? line =
      ((Text.after? backticks (line.dropWhile Text.isIndent)).bind inBraces?).map
        fun (properties, ending) => ⟨line.takeWhile Text.isIndent, properties, ending⟩ := by
  rw [OpenFence.ofLine?]
  cases Text.after? backticks (line.dropWhile Text.isIndent) with
  | none => rfl
  | some afterFence =>
    simp only [bind, Option.bind_some, inBraces?]
    cases Text.after? ['\x7b'] (afterFence.dropWhile Text.isIndent) with
    | none => rfl
    | some afterBrace =>
      simp only [Option.bind_some, propertiesAndEnding?]
      cases Text.splitAtLast '\x7d' afterBrace with
      | none => rfl
      | some found =>
        simp only [Option.bind_some]
        cases OpenFence.lineEnding? found.2 with
        | none => rfl
        | some ending =>
          simp only [Option.bind_some]
          split <;> rfl

section Match

variable {Answer : Type} {next : Continuation Answer} {place : MatchPlace}

theorem matchFrom_textEnd :
    matchFrom (.anchor .textEnd) next place = if place.rest = [] then next place else none := by
  simp only [matchFrom, Anchor.holds]
  cases place.rest <;> simp

theorem matchFrom_blanksToEnd :
    matchFrom blanksToEnd next place =
      if place.rest.all Text.isBlank then next (place.skip place.rest) else none := by
  have parts := (List.takeWhile_append_dropWhile (p := Text.isBlank) (l := place.rest)).symm
  have isRun : matchFrom blanksToEnd next place =
      matchFrom (.anchor .textEnd) next (place.skip (place.rest.takeWhile Text.isBlank)) := by
    apply matchFrom_run_of_declines fun _ => rfl
    intro later c begins _
    rw [matchFrom_textEnd, if_neg]
    intro ended
    rw [ended] at begins
    contradiction
  rw [isRun, matchFrom_textEnd, MatchPlace.rest_skip parts]
  by_cases areBlank : place.rest.all Text.isBlank = true
  · have isWhole : place.rest.takeWhile Text.isBlank = place.rest :=
      List.takeWhile_eq_self_iff.mpr (List.all_eq_true.mp areBlank)
    rw [if_pos areBlank, isWhole, if_pos]
    exact List.dropWhile_eq_nil_iff.mpr (List.all_eq_true.mp areBlank)
  · rw [if_neg areBlank, if_neg]
    rw [List.dropWhile_eq_nil_iff, ← List.all_eq_true]
    exact areBlank

theorem contains_indentChars (c : Char) : indentChars.contains c = Text.isIndent c := by
  simp [indentChars, CharClass.contains, Text.isIndent]

/-- A carriage return at the end of a line is noted in group 4, and so is its absence. -/
theorem matchFrom_returnToEnd :
    matchFrom returnToEnd next place =
      if place.rest = [] ∨ place.rest = ['\r'] then
        next ((place.skip place.rest).note 4 place.rest)
      else none := by
  change prefer (matchFrom (.one (.single '\r')) fun later =>
      matchFrom (.anchor .textEnd) next (later.noteGroup 4 place))
    (fun later => matchFrom (.anchor .textEnd) next (later.noteGroup 4 place)) place = _
  have noted : ∀ taken rest, place.rest = taken ++ rest →
      matchFrom (.anchor .textEnd) next ((place.skip taken).noteGroup 4 place) =
        if rest = [] then next ((place.skip taken).note 4 taken) else none := by
    intro taken rest parts
    rw [MatchPlace.noteGroup_skip parts, matchFrom_textEnd, MatchPlace.rest_note,
      MatchPlace.rest_skip parts]
  have ends := noted [] place.rest rfl
  rw [MatchPlace.skip_nil] at ends
  rw [prefer_eq, ends]
  cases begins : place.rest with
  | nil =>
    rw [matchFrom_one_nil begins]
    rfl
  | cons c rest =>
    rw [matchFrom_one_cons begins, noted [c] rest begins, CharClass.contains_single]
    by_cases isReturn : c = '\r'
    · subst isReturn
      by_cases isLast : rest = []
      · simp [isLast]
      · simp [isLast]
    · simp [isReturn]

/-- The end of a line behind spaces and tabs is noted in group 4. -/
theorem matchFrom_endingToEnd :
    matchFrom endingToEnd next place =
      (OpenFence.lineEnding? place.rest).bind fun ending =>
        next ((place.skip place.rest).note 4 ending) := by
  have parts := (List.takeWhile_append_dropWhile (p := Text.isIndent) (l := place.rest)).symm
  have isRun : matchFrom endingToEnd next place =
      matchFrom returnToEnd next (place.skip (place.rest.takeWhile Text.isIndent)) := by
    apply matchFrom_run_of_declines contains_indentChars
    intro later c begins indents
    rw [matchFrom_returnToEnd, if_neg]
    rintro (ended | ended)
    · simp [ended] at begins
    · rw [ended] at begins
      cases begins
      contradiction
  rw [isRun, matchFrom_returnToEnd, MatchPlace.rest_skip parts, MatchPlace.skip_skip, ← parts,
    OpenFence.lineEnding?]
  split
  · rename_i isEnd
    rcases isEnd with isEnd | isEnd <;> simp [isEnd]
  · rename_i noEnd
    split
    · rename_i isEnd
      exact absurd (.inl isEnd) noEnd
    · rename_i isEnd
      exact absurd (.inr isEnd) noEnd
    · rfl

theorem brace_not_mem_of_lineEnding? {tail ending : Text}
    (isEnding : OpenFence.lineEnding? tail = some ending) : '\x7d' ∉ tail := by
  rcases OpenFence.exists_blanks_of_lineEnding? isEnding with ⟨blanks, areBlank, rfl, isEnd⟩
  rw [List.mem_append, not_or]
  constructor
  · intro isMember
    have indents := List.all_eq_true.mp areBlank _ isMember
    contradiction
  · rcases isEnd with rfl | rfl <;> decide

/-- The properties reach to the last brace and are noted in group 3. -/
theorem matchFrom_propertiesToEnd :
    matchFrom propertiesToEnd next place =
      (propertiesAndEnding? place.rest).bind fun (properties, ending) =>
        next (((place.skip place.rest).note 3 properties).note 4 ending) := by
  have afterRun : ∀ taken rest, place.rest = taken ++ rest →
      matchFrom (literal ['\x7d'] endingToEnd) next ((place.skip taken).noteGroup 3 place) =
        (Text.after? ['\x7d'] rest).bind fun tail =>
          (OpenFence.lineEnding? tail).bind fun ending =>
            next (((place.skip place.rest).note 3 taken).note 4 ending) := by
    intro taken rest parts
    rw [MatchPlace.noteGroup_skip parts, matchFrom_literal, matchFrom_endingToEnd,
      MatchPlace.rest_note, MatchPlace.rest_skip parts]
    cases begins : Text.after? ['\x7d'] rest with
    | none => rfl
    | some tail =>
      have isTail := Text.after?_eq_some_iff.mp begins
      have tailParts : place.rest = (taken ++ ['\x7d']) ++ tail := by
        rw [parts, isTail, List.append_assoc]
      simp only [Option.isSome_some, ↓reduceIte, Option.bind_some, MatchPlace.skip_note,
        MatchPlace.skip_skip, MatchPlace.rest_note, MatchPlace.rest_skip tailParts, ← tailParts]
  -- A run that stops before another brace than the last one is not followed by the end of the line.
  have fails : ∀ taken rest, place.rest = taken ++ rest →
      (∀ tail, Text.splitAtLast '\x7d' place.rest ≠ some (taken, tail)) →
      matchFrom (literal ['\x7d'] endingToEnd) next ((place.skip taken).noteGroup 3 place) =
        none := by
    intro taken rest parts notLast
    rw [afterRun taken rest parts, Option.bind_eq_none_iff]
    intro tail begins
    rw [Option.bind_eq_none_iff]
    intro ending isEnding
    apply absurd _ (notLast tail)
    rw [parts, Text.after?_eq_some_iff.mp begins]
    exact Text.splitAtLast_append_cons taken tail (brace_not_mem_of_lineEnding? isEnding)
  change matchFrom (run _) (fun later =>
    matchFrom (literal ['\x7d'] endingToEnd) next (later.noteGroup 3 place)) place = _
  rw [propertiesAndEnding?]
  cases isLast : Text.splitAtLast '\x7d' place.rest with
  | none =>
    apply matchFrom_run_eq_none
    intro taken rest parts _
    apply fails taken rest parts
    simp [isLast]
  | some found =>
    obtain ⟨properties, tail⟩ := found
    have parts := Text.eq_of_splitAtLast isLast
    by_cases broken : '\n' ∈ properties
    · simp only [Option.bind_some, if_pos broken, Option.bind_fun_none, Option.bind_none]
      apply matchFrom_run_eq_none
      intro taken rest takenParts areMembers
      apply fails taken rest takenParts
      rw [isLast]
      rintro otherTail ⟨⟩
      have isMember := List.all_eq_true.mp areMembers _ broken
      contradiction
    · simp only [Option.bind_some, if_neg broken, Option.bind_assoc]
      rw [matchFrom_run_of_unique parts]
      · rw [afterRun _ _ parts]
        rfl
      · rw [List.all_eq_true]
        intro c isMember
        have isOther : c ≠ '\n' := fun isNewline => broken (isNewline ▸ isMember)
        simp [CharClass.contains, isOther]
      · intro other after otherParts _ differs
        apply fails other after otherParts
        rw [isLast]
        rintro otherTail ⟨⟩
        exact differs rfl

theorem matchFrom_bracesToEnd :
    matchFrom bracesToEnd next place =
      (inBraces? place.rest).bind fun (properties, ending) =>
        next (((place.skip place.rest).note 3 properties).note 4 ending) := by
  have parts := (List.takeWhile_append_dropWhile (p := Text.isIndent) (l := place.rest)).symm
  have isRun : matchFrom bracesToEnd next place =
      matchFrom (literal ['\x7b'] propertiesToEnd) next
        (place.skip (place.rest.takeWhile Text.isIndent)) := by
    apply matchFrom_run_of_declines contains_indentChars
    intro later c begins indents
    rw [matchFrom_literal, Text.after?_of_head? begins]
    · rfl
    · rintro rfl
      contradiction
  rw [isRun, matchFrom_literal, matchFrom_propertiesToEnd, inBraces?, MatchPlace.rest_skip parts]
  cases begins : Text.after? ['\x7b'] (place.rest.dropWhile Text.isIndent) with
  | none => rfl
  | some afterBrace =>
    have whole : place.rest =
        (place.rest.takeWhile Text.isIndent ++ ['\x7b']) ++ afterBrace := by
      rw [List.append_assoc, ← Text.after?_eq_some_iff.mp begins, ← parts]
    simp only [Option.isSome_some, ↓reduceIte, Option.bind_some, MatchPlace.skip_skip,
      MatchPlace.rest_skip whole, ← whole]

theorem matchFrom_backticksToEnd :
    matchFrom backticksToEnd next place =
      ((Text.after? backticks place.rest).bind inBraces?).bind fun (properties, ending) =>
        next ((((place.skip place.rest).note 2 backticks).note 3 properties).note 4 ending) := by
  change matchFrom (literal backticks .empty) (fun later =>
    matchFrom bracesToEnd next (later.noteGroup 2 place)) place = _
  rw [matchFrom_literal]
  cases begins : Text.after? backticks place.rest with
  | none => rfl
  | some rest =>
    have parts := Text.after?_eq_some_iff.mp begins
    simp only [Option.isSome_some, ↓reduceIte, Option.bind_some, matchFrom,
      MatchPlace.noteGroup_skip parts, matchFrom_bracesToEnd, MatchPlace.skip_note,
      MatchPlace.skip_skip, MatchPlace.rest_note, MatchPlace.rest_skip parts, ← parts]

/-- An opening fence is matched just where it is recognised, with its parts in the groups. -/
theorem matchAt?_openingRegex (line : Text) :
    openingRegex.matchAt? { before := none, rest := line } =
      (OpenFence.ofLine? line).map fun fence =>
        [(0, line), (4, fence.lineEnding), (3, fence.properties), (2, backticks),
          (1, fence.indent)] := by
  generalize isStart : ({ before := none, rest := line } : MatchPlace) = start
  have startRest : line = start.rest := isStart ▸ rfl
  have startCaptures : start.captures = [] := isStart ▸ rfl
  subst startRest
  have parts := (List.takeWhile_append_dropWhile (p := Text.isIndent) (l := start.rest)).symm
  have whole : start.rest = start.rest ++ [] := (List.append_nil start.rest).symm
  have isRun : openingRegex.matchAt? start =
      matchFrom backticksToEnd (fun later => some (later.noteGroup 0 start).captures)
        ((start.skip (start.rest.takeWhile Text.isIndent)).note 1
          (start.rest.takeWhile Text.isIndent)) := by
    rw [← MatchPlace.noteGroup_skip parts]
    apply matchFrom_run_of_declines contains_indentChars
    intro later c begins indents
    have noFence : Text.after? backticks later.rest = none := by
      refine @Text.after?_of_head? '\x60' _ "``".toList _ begins ?_
      rintro rfl
      contradiction
    rw [matchFrom_backticksToEnd]
    exact congrArg (fun found => (Option.bind found inBraces?).bind _) noFence
  rw [isRun, matchFrom_backticksToEnd, ofLine?_eq, MatchPlace.rest_note, MatchPlace.rest_skip parts,
    MatchPlace.skip_note, MatchPlace.skip_skip, ← parts]
  cases (Text.after? backticks (start.rest.dropWhile Text.isIndent)).bind inBraces? with
  | none => rfl
  | some found =>
    simp [MatchPlace.noteGroup, MatchPlace.textUpTo, MatchPlace.rest_skip whole, startCaptures]

/-- White space behind a literal text is matched up to the end of the line. -/
theorem matchFrom_literal_blanksToEnd (text : Text) :
    matchFrom (literal text blanksToEnd) next place =
      if (Text.after? text place.rest).any fun rest => rest.all Text.isBlank then
        next (place.skip place.rest)
      else none := by
  rw [matchFrom_literal, matchFrom_blanksToEnd]
  cases begins : Text.after? text place.rest with
  | none => rfl
  | some rest =>
    have parts := Text.after?_eq_some_iff.mp begins
    simp only [Option.isSome_some, ↓reduceIte, Option.any_some, MatchPlace.skip_skip,
      MatchPlace.rest_skip parts, ← parts]

end Match

/-! ## The recognisers as patterns -/

theorem matchStart?_of_atStart? {pattern : Text} {body : Regex} {names : List (Text × Nat)}
    (accepted : Pattern.atStart? pattern = some ⟨body.atTextStart, names⟩) (line : Text) :
    Pattern.matchStart? pattern line =
      (body.matchAt? { before := none, rest := line }).map fun captures =>
        ⟨line, ⟨body.atTextStart, names⟩, captures⟩ := by
  rw [Pattern.matchStart?, accepted, ← search?_atTextStart]
  rfl

theorem isSome_matchAt?_literal_blanksToEnd (text line : Text) :
    ((literal text blanksToEnd).matchAt? { before := none, rest := line }).isSome =
      (Text.after? text line).any fun rest => rest.all Text.isBlank := by
  rw [matchAt?, matchFrom_literal_blanksToEnd]
  cases Text.after? text line with
  | none => rfl
  | some rest => cases areBlank : rest.all Text.isBlank <;> simp [areBlank]

theorem isSome_matchStart?_verbatimStartPattern (line : Text) :
    (Pattern.matchStart? verbatimStartPattern line).isSome = startsVerbatim line := by
  rw [matchStart?_of_atStart? atStart?_verbatimStartPattern, Option.isSome_map,
    isSome_matchAt?_literal_blanksToEnd, startsVerbatim]
  cases Text.after? "~~~markdown".toList line <;> rfl

theorem isSome_matchStart?_verbatimEndPattern (line : Text) :
    (Pattern.matchStart? verbatimEndPattern line).isSome = endsVerbatim line := by
  rw [matchStart?_of_atStart? atStart?_verbatimEndPattern, Option.isSome_map,
    isSome_matchAt?_literal_blanksToEnd, endsVerbatim]
  cases Text.after? "~~~".toList line <;> rfl

theorem isSome_matchStart?_closingPattern (line : Text) :
    (Pattern.matchStart? closingPattern line).isSome = isClosing line := by
  rw [matchStart?_of_atStart? atStart?_closingPattern, Option.isSome_map]
  generalize isStart : ({ before := none, rest := line } : MatchPlace) = start
  have startRest : line = start.rest := isStart ▸ rfl
  subst startRest
  have parts := (List.takeWhile_append_dropWhile (p := Text.isBlank) (l := start.rest)).symm
  have isRun : matchAt? (.concat (.capture 1 (run .blank)) (literal backticks blanksToEnd)) start =
      matchFrom (literal backticks blanksToEnd)
        (fun later => some (later.noteGroup 0 start).captures)
        ((start.skip (start.rest.takeWhile Text.isBlank)).note 1
          (start.rest.takeWhile Text.isBlank)) := by
    rw [← MatchPlace.noteGroup_skip parts]
    apply matchFrom_run_of_declines fun _ => rfl
    intro later c begins blank
    have noFence : Text.after? backticks later.rest = none := by
      refine @Text.after?_of_head? '\x60' _ "``".toList _ begins ?_
      rintro rfl
      contradiction
    rw [matchFrom_literal_blanksToEnd]
    exact if_neg (by simp [MatchPlace.noteGroup, noFence])
  rw [isRun, matchFrom_literal_blanksToEnd, MatchPlace.rest_note, MatchPlace.rest_skip parts,
    isClosing]
  cases Text.after? backticks (start.rest.dropWhile Text.isBlank) with
  | none => rfl
  | some rest => cases areBlank : rest.all Text.isBlank <;> simp [areBlank]

end Fence

/-- The opening fence whose parts the groups of a match name. -/
def OpenFence.ofMatch (found : LineMatch) : OpenFence where
  indent := (found.named? "indent".toList).getD []
  properties := (found.named? "properties".toList).getD []
  lineEnding := (found.named? "eol".toList).getD []

namespace Fence

/-- What the pattern of opening fences matches is the fence that is recognised. -/
theorem matchStart?_openingPattern_eq (line : Text) :
    Pattern.matchStart? openingPattern line =
      (OpenFence.ofLine? line).map fun fence =>
        ⟨line, ⟨openingRegex.atTextStart, openingGroups⟩,
          [(0, line), (4, fence.lineEnding), (3, fence.properties), (2, backticks),
            (1, fence.indent)]⟩ := by
  rw [matchStart?_of_atStart? atStart?_openingPattern, matchAt?_openingRegex, Option.map_map]
  rfl

end Fence

end LiterateMarkdown
