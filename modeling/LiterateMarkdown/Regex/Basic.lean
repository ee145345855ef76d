import LiterateMarkdown.Regex.CharClass

/-!
# Regular expressions

Regular expressions with captures, and what they match. Among the ways to match at one place, the
first one in the order of preference counts: the earlier alternative, and more or fewer repetitions
as the repetition says. In a repetition without upper bound each iteration takes a character, unless
it is the first one or required, so every search ends.
-/

namespace LiterateMarkdown

/-- A condition on a place in a text. -/
inductive Anchor where
  | textStart
  | textEnd
  /-- The beginning of a line, where carriage returns may end lines too. -/
  | lineStart (crlf : Bool)
  | lineEnd (crlf : Bool)
  /-- A place between a character of a word and another one or none, or not such a place. -/
  | wordBoundary (negated ascii : Bool)
  | wordStart (ascii : Bool)
  | wordEnd (ascii : Bool)
  /-- A place not after a character of a word. -/
  | wordStartHalf (ascii : Bool)
  /-- A place not before a character of a word. -/
  | wordEndHalf (ascii : Bool)
  deriving DecidableEq, Repr

namespace Anchor

/-- Whether a neighbour of a place belongs to a word. -/
def inWord (ascii : Bool) (neighbour : Option Char) : Bool :=
  neighbour.any fun c => (if ascii then CharClass.asciiWord else CharClass.word).contains c

/-- Whether the condition holds between a character and the one after it. -/
def holds (before after : Option Char) : Anchor → Bool
  | textStart => before.isNone
  | textEnd => after.isNone
  | lineStart crlf =>
    before.isNone || before = some '\n' ||
      (crlf && before = some '\r' && after ≠ some '\n')
  | lineEnd crlf =>
    after.isNone || (crlf && after = some '\r') ||
      (after = some '\n' && !(crlf && before = some '\r'))
  | wordBoundary negated ascii => (inWord ascii before != inWord ascii after) != negated
  | wordStart ascii => !inWord ascii before && inWord ascii after
  | wordEnd ascii => inWord ascii before && !inWord ascii after
  | wordStartHalf ascii => !inWord ascii before
  | wordEndHalf ascii => !inWord ascii after

end Anchor

/-- A regular expression. -/
inductive Regex where
  | empty
  /-- One character of a class. -/
  | one (chars : CharClass)
  | anchor (condition : Anchor)
  | concat (first second : Regex)
  /-- The first of two ways is preferred. -/
  | alternation (first second : Regex)
  /-- Between `least` and `most` repetitions; greedy ones prefer more of them. -/
  | repetition (least : Nat) (most : Option Nat) (greedy : Bool) (body : Regex)
  | capture (index : Nat) (body : Regex)
  deriving DecidableEq, Repr

/-- The texts of the groups that took part in a match, the latest first. -/
abbrev Captures := List (Nat × Text)

/-- A place in a text, on the way of matching it. -/
structure MatchPlace where
  before : Option Char
  rest : Text
  captures : Captures := []
  deriving DecidableEq, Repr

namespace MatchPlace

/-- What stands between a place and a later one. -/
def textUpTo (place later : MatchPlace) : Text :=
  place.rest.take (place.rest.length - later.rest.length)

/-- Whether a place is after another one. -/
def isAfter (later place : MatchPlace) : Bool :=
  later.rest.length < place.rest.length

/-- Note the text of a group that ends here. -/
def noteGroup (later : MatchPlace) (index : Nat) (start : MatchPlace) : MatchPlace :=
  { later with captures := (index, start.textUpTo later) :: later.captures }

end MatchPlace

namespace Regex

variable {Answer : Type}

/-- What remains to be done from a place on; it may fail. -/
abbrev Continuation (Answer : Type) := MatchPlace → Option Answer

/-- Take the first of two ways that succeeds. -/
def prefer (first second : Continuation Answer) : Continuation Answer := fun place =>
  match first place with
  | some answer => some answer
  | none => second place

/-- Prefer going on with a repetition if it is greedy, and ending it if not. -/
def preferMore (greedy : Bool) (more next : Continuation Answer) : Continuation Answer :=
  if greedy then prefer more next else prefer next more

/-- Match a body a number of times. -/
def exactly (body : Continuation Answer → Continuation Answer) (next : Continuation Answer) :
    (count : Nat) → Continuation Answer
  | 0 => next
  | count + 1 => body (exactly body next count)

/-- Match a body at most a number of times. -/
def atMost (greedy : Bool) (body : Continuation Answer → Continuation Answer)
    (next : Continuation Answer) : (count : Nat) → Continuation Answer
  | 0 => next
  | count + 1 => preferMore greedy (body (atMost greedy body next count)) next

/--
Go on after an iteration, or repeat the body while each further iteration takes a character. The
number of steps bounds these iterations; as many as characters are left are enough.
-/
def repeatOrEnd (greedy : Bool) (body : Continuation Answer → Continuation Answer)
    (next : Continuation Answer) : (steps : Nat) → Continuation Answer
  | 0 => next
  | steps + 1 =>
    preferMore greedy
      (fun place =>
        body
          (fun later =>
            if later.isAfter place then repeatOrEnd greedy body next steps later else none)
          place)
      next

/-- Match a body once or more. If the first iteration takes no character, it is the only one. -/
def oneOrMore (greedy : Bool) (body : Continuation Answer → Continuation Answer)
    (next : Continuation Answer) : Continuation Answer := fun place =>
  body
    (fun later =>
      if later.isAfter place then repeatOrEnd greedy body next place.rest.length later
      else next later)
    place

/-- Match from a place on, and go on with what remains to be done. -/
def matchFrom : Regex → Continuation Answer → Continuation Answer
  | empty, next => next
  | one chars, next => fun place =>
    match place.rest with
    | [] => none
    | c :: rest =>
      if chars.contains c then next { place with before := some c, rest } else none
  | anchor condition, next => fun place =>
    if condition.holds place.before place.rest.head? then next place else none
  | concat first second, next => matchFrom first (matchFrom second next)
  | alternation first second, next => prefer (matchFrom first next) (matchFrom second next)
  | repetition least (some most) greedy body, next =>
    exactly (matchFrom body) (atMost greedy (matchFrom body) next (most - least)) least
  | repetition 0 none greedy body, next =>
    preferMore greedy (oneOrMore greedy (matchFrom body) next) next
  | repetition (least + 1) none greedy body, next =>
    exactly (matchFrom body) (oneOrMore greedy (matchFrom body) next) least
  | capture index body, next => fun place =>
    matchFrom body (fun later => next (later.noteGroup index place)) place

/-- The captures of the preferred match that begins at a place; group 0 is the whole match. -/
def matchAt? (regex : Regex) (place : MatchPlace) : Option Captures :=
  regex.matchFrom (fun later => some (later.noteGroup 0 place).captures) place

/-- The captures of the first match in a text, where `before` stands before the text. -/
def searchFrom? (regex : Regex) (before : Option Char) (text : Text) : Option Captures :=
  match regex.matchAt? { before, rest := text } with
  | some captures => some captures
  | none =>
    match text with
    | [] => none
    | c :: rest => regex.searchFrom? (some c) rest

/-- The captures of the first match in a text. -/
def search? (regex : Regex) (text : Text) : Option Captures :=
  regex.searchFrom? none text

end Regex

end LiterateMarkdown
