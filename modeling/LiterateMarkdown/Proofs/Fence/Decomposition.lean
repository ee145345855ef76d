import LiterateMarkdown.Proofs.Fence.Pattern
import Mathlib.Data.List.Basic

/-!
# The parts of an opening fence

An opening fence with properties can be cut into its parts in one way only, whatever braces, blanks
and carriage returns its properties hold: they reach from the first brace behind the backticks to
the last brace of the line. The pattern of opening fences matches the lines that can be cut into
such parts, and its groups are these parts (`Fence.matchStart?_openingPattern`).
-/

namespace LiterateMarkdown

/-- The parts of a line that is an opening fence with properties. -/
structure FenceParts where
  indent : Text
  beforeBrace : Text
  properties : Text
  afterBrace : Text
  lineEnding : Text

namespace FenceParts

/-- The parts make up a line, and those around the backticks and the braces are spaces and tabs. -/
structure Cuts (parts : FenceParts) (line : Text) : Prop where
  whole : line = parts.indent ++ backticks ++ parts.beforeBrace ++ '\x7b' :: parts.properties ++
    '\x7d' :: parts.afterBrace ++ parts.lineEnding
  indent : parts.indent.all Text.isIndent
  beforeBrace : parts.beforeBrace.all Text.isIndent
  afterBrace : parts.afterBrace.all Text.isIndent
  lineEnding : parts.lineEnding = [] ∨ parts.lineEnding = ['\r']

/-- The fence that is made of the parts. -/
def fence (parts : FenceParts) : OpenFence :=
  ⟨parts.indent, parts.properties, parts.lineEnding⟩

namespace Cuts

variable {parts other : FenceParts} {line : Text}

theorem ofLine? (cuts : parts.Cuts line) (oneLine : '\n' ∉ line) :
    OpenFence.ofLine? line = some parts.fence := by
  have onOneLine : '\n' ∉ parts.fence.properties := by
    intro isMember
    apply oneLine
    rw [cuts.whole]
    simp only [List.mem_append, List.mem_cons]
    exact .inl (.inl (.inr (.inr isMember)))
  have read := OpenFence.ofLine?_toLine parts.fence cuts.indent cuts.beforeBrace cuts.afterBrace
    onOneLine cuts.lineEnding
  rw [← read, cuts.whole]
  rfl

theorem of_ofLine? {fence : OpenFence} (found : OpenFence.ofLine? line = some fence) :
    ∃ parts : FenceParts, parts.Cuts line ∧ parts.fence = fence := by
  rcases OpenFence.exists_toLine_of_ofLine? found with
    ⟨beforeBrace, afterBrace, whole, indent, before, after, _, ending⟩
  exact ⟨⟨fence.indent, beforeBrace, fence.properties, afterBrace, fence.lineEnding⟩,
    ⟨whole, indent, before, after, ending⟩, rfl⟩

/-- Spaces and tabs before another character are all that there are. -/
theorem takeWhile_isIndent {blanks rest : Text} {c : Char} (areBlank : blanks.all Text.isIndent)
    (other : Text.isIndent c = false) : (blanks ++ c :: rest).takeWhile Text.isIndent = blanks := by
  rw [List.takeWhile_append_of_pos (List.all_eq_true.mp areBlank), List.takeWhile_cons_of_neg,
    List.append_nil]
  rw [other]
  exact Bool.false_ne_true

theorem unique (cuts : parts.Cuts line) (cutsToo : other.Cuts line) (oneLine : '\n' ∉ line) :
    other = parts := by
  have same := (cutsToo.ofLine? oneLine).symm.trans (cuts.ofLine? oneLine)
  obtain ⟨indent, beforeBrace, properties, afterBrace, lineEnding⟩ := parts
  obtain ⟨otherIndent, otherBefore, otherProperties, otherAfter, otherEnding⟩ := other
  cases same
  have wholes := cuts.whole.symm.trans cutsToo.whole
  simp only [List.append_assoc, List.append_cancel_left_eq, List.cons_append] at wholes
  have sameBefore : beforeBrace = otherBefore := by
    have taken := congrArg (List.takeWhile Text.isIndent) wholes
    rwa [takeWhile_isIndent cuts.beforeBrace rfl, takeWhile_isIndent cutsToo.beforeBrace rfl]
      at taken
  subst sameBefore
  simp only [List.append_cancel_left_eq, List.cons.injEq, true_and, List.append_cancel_right_eq]
    at wholes
  rw [wholes]

theorem indent_eq (cuts : parts.Cuts line) : parts.indent = line.takeWhile Text.isIndent := by
  rw [cuts.whole]
  simp only [List.append_assoc, backticks]
  exact (takeWhile_isIndent cuts.indent rfl).symm

/-- No brace opens before the properties. -/
theorem brace_not_mem_before (cuts : parts.Cuts line) :
    '\x7b' ∉ parts.indent ++ backticks ++ parts.beforeBrace := by
  simp only [List.mem_append, not_or]
  refine ⟨⟨?_, by decide⟩, ?_⟩
  · exact fun isMember => Bool.false_ne_true (List.all_eq_true.mp cuts.indent _ isMember)
  · exact fun isMember => Bool.false_ne_true (List.all_eq_true.mp cuts.beforeBrace _ isMember)

/-- No brace closes after the properties. -/
theorem brace_not_mem_after (cuts : parts.Cuts line) :
    '\x7d' ∉ parts.afterBrace ++ parts.lineEnding := by
  rw [List.mem_append, not_or]
  constructor
  · exact fun isMember => Bool.false_ne_true (List.all_eq_true.mp cuts.afterBrace _ isMember)
  · rcases cuts.lineEnding with isNone | isReturn
    · simp [isNone]
    · simp [isReturn]

theorem lineEnding_eq (cuts : parts.Cuts line) :
    parts.lineEnding = if line.getLast? = some '\r' then ['\r'] else [] := by
  rcases cuts.lineEnding with isNone | isReturn
  · rw [isNone, if_neg]
    intro isLast
    rw [cuts.whole, isNone, List.append_nil, List.getLast?_append_cons] at isLast
    rcases List.mem_cons.mp (List.mem_of_getLast? isLast) with isBrace | isAfter
    · contradiction
    · exact Bool.false_ne_true (List.all_eq_true.mp cuts.afterBrace _ isAfter)
  · rw [isReturn, if_pos]
    rw [cuts.whole, isReturn]
    exact List.getLast?_concat

end Cuts

end FenceParts

namespace Fence

open FenceParts

/--
A line is matched by the pattern of opening fences just if it can be cut into the parts of one. It
is recognised as a fence then, and the groups of the match are these parts, which are the only ones:
the leading spaces and tabs, what stands between the first opening and the last closing brace, and
the final carriage return if there is one.
-/
theorem matchStart?_openingPattern {line : Text} (oneLine : '\n' ∉ line) :
    ((Pattern.matchStart? openingPattern line).isSome ↔ ∃ parts : FenceParts, parts.Cuts line) ∧
      ∀ found ∈ Pattern.matchStart? openingPattern line, ∃ parts : FenceParts, parts.Cuts line ∧
        OpenFence.ofLine? line = some parts.fence ∧
        found.named? "indent".toList = some parts.indent ∧
        found.named? "fence".toList = some backticks ∧
        found.named? "properties".toList = some parts.properties ∧
        found.named? "eol".toList = some parts.lineEnding ∧
        parts.indent = line.takeWhile Text.isIndent ∧
        '\x7b' ∉ parts.indent ++ backticks ++ parts.beforeBrace ∧
        '\x7d' ∉ parts.afterBrace ++ parts.lineEnding ∧
        parts.lineEnding = (if line.getLast? = some '\r' then ['\r'] else []) ∧
        ∀ other : FenceParts, other.Cuts line → other = parts := by
  rw [matchStart?_openingPattern_eq]
  constructor
  · rw [Option.isSome_map, Option.isSome_iff_exists]
    constructor
    · rintro ⟨fence, found⟩
      rcases Cuts.of_ofLine? found with ⟨parts, cuts, _⟩
      exact ⟨parts, cuts⟩
    · rintro ⟨parts, cuts⟩
      exact ⟨parts.fence, cuts.ofLine? oneLine⟩
  · intro found isFound
    rcases Option.map_eq_some_iff.mp isFound with ⟨fence, isFence, rfl⟩
    rcases Cuts.of_ofLine? isFence with ⟨parts, cuts, rfl⟩
    exact ⟨parts, cuts, isFence, rfl, rfl, rfl, rfl, cuts.indent_eq, cuts.brace_not_mem_before,
      cuts.brace_not_mem_after, cuts.lineEnding_eq,
      fun other cutsToo => cuts.unique cutsToo oneLine⟩

/-- The parts of a fence with braces among its properties and blanks around them. -/
def nestedParts : FenceParts where
  indent := " \t".toList
  beforeBrace := "\t".toList
  properties := "#a \x7b.b\x7d \x7d \r".toList
  afterBrace := "  ".toList
  lineEnding := "\r".toList

theorem matchStart?_openingPattern_nested :
    '\n' ∉ " \t```\t\x7b#a \x7b.b\x7d \x7d \r\x7d  \r".toList ∧
      ∃ found ∈ Pattern.matchStart? openingPattern
          " \t```\t\x7b#a \x7b.b\x7d \x7d \r\x7d  \r".toList,
        found.named? "properties".toList = some "#a \x7b.b\x7d \x7d \r".toList ∧
        found.named? "eol".toList = some ['\r'] := by
  have oneLine : '\n' ∉ " \t```\t\x7b#a \x7b.b\x7d \x7d \r\x7d  \r".toList := by decide
  have cuts : nestedParts.Cuts " \t```\t\x7b#a \x7b.b\x7d \x7d \r\x7d  \r".toList :=
    ⟨by decide, by decide, by decide, by decide, by decide⟩
  have matched := matchStart?_openingPattern oneLine
  rcases Option.isSome_iff_exists.mp (matched.1.mpr ⟨nestedParts, cuts⟩) with ⟨found, isFound⟩
  rcases matched.2 found isFound with
    ⟨parts, _, _, _, _, properties, ending, _, _, _, _, unique⟩
  rw [← unique nestedParts cuts] at properties ending
  exact ⟨oneLine, found, isFound, properties, ending⟩

end Fence

end LiterateMarkdown
