import LiterateMarkdown.Proofs.Session.Layout

/-!
# What a record file holds

A file that holds a JSON text holds a session if the value of the text gives the fields of one: as
an object, each under its name, or as an array, in their order (`JsonValue.IsRecord`). What is read
from the file is the session that it holds, and a file that holds none is refused
(`Session.ofBytes_eq_ok_iff`, `Session.ofBytes_eq_error_iff`). A text that spells a session, in
whatever layout, holds it (`Session.isRecordedIn_of_spellsElement`).
-/

namespace LiterateMarkdown

namespace JsonValue

/-- A record with the given fields, of which the last ones may be left out of an array. -/
inductive IsRecord (names : List Text) (given : List (Option JsonValue)) : JsonValue → Prop where
  | object {members : List (Option Text × JsonValue)}
      (areTexts : ∀ member ∈ members, member.1.isSome = true)
      (each : List.Forall₂ (fun name field =>
        (members.filter fun member => member.1 = some name).map Prod.snd = Option.toList field)
          names given) :
      IsRecord names given (.object members)
  | array {items : List JsonValue} {leftOut : Nat}
      (areFirst : given = items.map some ++ List.replicate leftOut none)
      (sameLength : given.length = names.length) : IsRecord names given (.array items)

theorem membersNamed_eq_map (members : List (Option Text × JsonValue)) (name : Text) :
    membersNamed members name =
      (members.filter fun member => member.1 = some name).map Prod.snd := by
  induction members with
  | nil => rfl
  | cons member rest ih =>
    rw [membersNamed] at ih ⊢
    by_cases isNamed : member.1 = some name <;> simp [isNamed, ih]

/-- The fields that are read are those of the record. -/
theorem fields?_eq_some_iff {value : JsonValue} {names : List Text}
    {given : List (Option JsonValue)} :
    value.fields? names = some given ↔ IsRecord names given value := by
  cases value with
  | object members =>
    rw [fields?_object_eq_some_iff]
    simp only [membersNamed_eq_map]
    constructor
    · rintro ⟨areTexts, each⟩
      exact .object areTexts each
    · rintro ⟨areTexts, each⟩
      exact ⟨areTexts, each⟩
  | array items =>
    simp only [fields?, Option.ite_none_right_eq_some, Option.some.injEq]
    constructor
    · rintro ⟨within, rfl⟩
      exact .array rfl (by simp [within])
    · rintro (_ | @⟨_, leftOut, rfl, sameLength⟩)
      rw [List.length_append, List.length_map, List.length_replicate] at sameLength
      have isRest : names.length - items.length = leftOut := by omega
      exact ⟨by omega, by rw [isRest]⟩
  | null | boolean | number | string =>
    simp only [fields?, reduceCtorEq, false_iff]
    rintro ⟨⟩

section Fields

variable {Value : Type} {spells : Value → JsonValue → Prop} {read : JsonValue → Option Value}
  (reads : ∀ value json, read json = some value ↔ spells value json)
include reads

theorem optional?_eq_some_iff (refusesNull : read .null = none) {value : Option Value}
    {field : Option JsonValue} :
    optional? read field = some value ↔ SpellsOptional spells value field := by
  constructor
  · intro isRead
    unfold optional? at isRead
    split at isRead
    · cases isRead
      exact .leftOut
    · cases isRead
      exact .null
    · rcases Option.map_eq_some_iff.mp isRead with ⟨given, valueRead, isGiven⟩
      cases isGiven
      exact .given ((reads _ _).mp valueRead)
  · exact optional?_of_spellsOptional (fun value json => (reads value json).mpr) refusesNull

theorem withDefault?_eq_some_iff {default value : Value} {field : Option JsonValue} :
    withDefault? default read field = some value ↔
      SpellsWithDefault default spells value field := by
  constructor
  · intro isRead
    cases field with
    | none =>
      cases isRead
      exact .leftOut
    | some json => exact .given ((reads _ _).mp isRead)
  · exact withDefault?_of_spellsWithDefault fun value json => (reads value json).mpr

theorem items?_eq_some_iff {json : JsonValue} {values : List Value} :
    items? read json = some values ↔
      ∃ items, json = .array items ∧ List.Forall₂ spells values items := by
  have mapM_iff : ∀ items, items.mapM read = some values ↔ List.Forall₂ spells values items := by
    intro items
    simp only [mapM_eq_some_iff, reads]
    exact ⟨List.Forall₂.flip, List.Forall₂.flip⟩
  cases json <;> simp [items?, mapM_iff]

end Fields

theorem text?_eq_some_iff (text : Text) (value : JsonValue) :
    text? value = some text ↔ SpellsString text value := by
  cases value <;> simp [text?, SpellsString]

theorem optional?_text?_eq_some_iff {text : Option Text} {field : Option JsonValue} :
    optional? text? field = some text ↔ SpellsOptional SpellsString text field :=
  optional?_eq_some_iff text?_eq_some_iff rfl

end JsonValue

open JsonValue

namespace Interpreter

/-- A value whose fields are those of an interpreter. -/
def IsHeldBy (interpreter : Interpreter) (value : JsonValue) : Prop :=
  ∃ given,
    List.Forall₂ (SpellsOptional SpellsString)
      [interpreter.command, interpreter.firstPrompt, interpreter.changePrompt, interpreter.prompt,
        interpreter.continuationPrompt] given ∧
    IsRecord ["command".toList, "first_prompt".toList, "change_prompt".toList, "prompt".toList,
      "continuation_prompt".toList] given value

theorem ofJson?_eq_some_iff (interpreter : Interpreter) (value : JsonValue) :
    ofJson? value = some interpreter ↔ interpreter.IsHeldBy value := by
  constructor
  · intro isRead
    rw [ofJson?, Option.bind_eq_bind, Option.bind_eq_some_iff] at isRead
    rcases isRead with ⟨given, areFields, isRead⟩
    rw [Option.bind_eq_bind, Option.bind_eq_some_iff] at isRead
    rcases isRead with ⟨values, areRead, isRead⟩
    split at isRead
    · cases isRead
      refine ⟨given, ?_, fields?_eq_some_iff.mp areFields⟩
      exact (mapM_eq_some_iff.mp areRead).flip.imp fun _ _ => optional?_text?_eq_some_iff.mp
    · cases isRead
  · rintro ⟨given, areHeld, isRecord⟩
    have areFields : value.fields? fieldNames = some given := fields?_eq_some_iff.mpr isRecord
    have areRead := mapM_eq_some_iff.mpr
      (areHeld.imp fun _ _ => optional?_text?_eq_some_iff.mpr).flip
    simp only [ofJson?, areFields, areRead, bind, Option.bind_some]

end Interpreter

namespace SessionCommand

/-- A value whose fields are those of a command. -/
def IsHeldBy (command : SessionCommand) (value : JsonValue) : Prop :=
  ∃ outputType output expected,
    SpellsWithDefault "text/plain".toList SpellsString command.outputType outputType ∧
    SpellsOptional SpellsString command.output output ∧
    SpellsOptional SpellsString command.expected expected ∧
    IsRecord ["command".toList, "output_type".toList, "output".toList, "expected".toList]
      [some (.string (some command.command)), outputType, output, expected] value

theorem ofJson?_eq_some_iff (command : SessionCommand) (value : JsonValue) :
    ofJson? value = some command ↔ command.IsHeldBy value := by
  have typeRead := @withDefault?_eq_some_iff _ SpellsString text? text?_eq_some_iff plainText
  constructor
  · intro isRead
    rw [ofJson?, Option.bind_eq_bind, Option.bind_eq_some_iff] at isRead
    rcases isRead with ⟨given, areFields, isRead⟩
    split at isRead
    · simp only [Option.bind_eq_bind, Option.bind_eq_some_iff, Option.pure_def, Option.some.injEq]
        at isRead
      rcases isRead with ⟨text, textRead, _, isType, _, isOutput, _, isExpected, rfl⟩
      rw [text?_eq_some_iff, SpellsString] at textRead
      subst textRead
      rw [optional?_text?_eq_some_iff] at isOutput isExpected
      exact ⟨_, _, _, typeRead.mp isType, isOutput, isExpected, fields?_eq_some_iff.mp areFields⟩
    · cases isRead
  · rintro ⟨outputType, output, expected, isType, isOutput, isExpected, isRecord⟩
    have areFields : value.fields? fieldNames =
        some [some (.string (some command.command)), outputType, output, expected] :=
      fields?_eq_some_iff.mpr isRecord
    rw [← optional?_text?_eq_some_iff] at isOutput isExpected
    simp only [ofJson?, areFields, text?, typeRead.mpr isType, isOutput, isExpected, bind,
      Option.bind_some, pure]

end SessionCommand

namespace Session

/-- A value whose fields are those of a session. -/
def IsHeldBy (session : Session) (value : JsonValue) : Prop :=
  ∃ interpreter items,
    SpellsOptional Interpreter.IsHeldBy session.interpreter interpreter ∧
    List.Forall₂ SessionCommand.IsHeldBy session.commands items ∧
    IsRecord ["config".toList, "commands".toList] [interpreter, some (.array items)] value

theorem ofJson?_eq_some_iff (session : Session) (value : JsonValue) :
    ofJson? value = some session ↔ session.IsHeldBy value := by
  have interpreterRead := @optional?_eq_some_iff _ Interpreter.IsHeldBy Interpreter.ofJson?
    Interpreter.ofJson?_eq_some_iff rfl
  have commandsRead := @items?_eq_some_iff _ SessionCommand.IsHeldBy SessionCommand.ofJson?
    SessionCommand.ofJson?_eq_some_iff
  constructor
  · intro isRead
    rcases of_ofJson?_eq_some isRead with
      ⟨interpreter, commands, areFields, isInterpreter, areCommands⟩
    rcases commandsRead.mp areCommands with ⟨items, rfl, areHeld⟩
    exact ⟨interpreter, items, interpreterRead.mp isInterpreter, areHeld,
      fields?_eq_some_iff.mp areFields⟩
  · rintro ⟨interpreter, items, isInterpreter, areHeld, isRecord⟩
    have areFields : value.fields? fieldNames = some [interpreter, some (.array items)] :=
      fields?_eq_some_iff.mpr isRecord
    have areCommands := commandsRead.mpr ⟨items, rfl, areHeld⟩
    simp only [ofJson?, areFields, interpreterRead.mpr isInterpreter, areCommands, bind,
      Option.bind_some, pure]

/-- The content of a file that holds a session. -/
def IsRecordedIn (session : Session) (content : Bytes) : Prop :=
  ∃ value, JsonValue.ofSymbols? (Utf8.symbols content) = some value ∧ session.IsHeldBy value

theorem ofBytes_eq_ok_iff {content : Bytes} {session : Session} :
    ofBytes content = .ok session ↔ session.IsRecordedIn content := by
  have isRead : session.IsRecordedIn content ↔
      (JsonValue.ofSymbols? (Utf8.symbols content)).bind ofJson? = some session := by
    simp only [IsRecordedIn, ← ofJson?_eq_some_iff, Option.bind_eq_some_iff]
  rw [isRead, ofBytes]
  cases (JsonValue.ofSymbols? (Utf8.symbols content)).bind ofJson? <;> simp

/-- A file holds one session at most. -/
theorem IsRecordedIn.unique {content : Bytes} {left right : Session}
    (first : left.IsRecordedIn content) (second : right.IsRecordedIn content) : left = right := by
  rw [← ofBytes_eq_ok_iff] at first second
  exact Except.ok.inj (first.symm.trans second)

/-- A file that holds no session is malformed, whatever else it holds. -/
theorem ofBytes_eq_error_iff {content : Bytes} {cause : SessionError} :
    ofBytes content = .error cause ↔
      cause = .malformed ∧ ∀ session : Session, ¬ session.IsRecordedIn content := by
  simp only [← ofBytes_eq_ok_iff, ofBytes]
  cases (JsonValue.ofSymbols? (Utf8.symbols content)).bind ofJson? <;> simp [eq_comm]

/-- Whatever the layout of a text that spells a session, its bytes record that session. -/
theorem isRecordedIn_of_spellsElement {text : Text} {value : JsonValue} {session : Session}
    (spells : Json.SpellsElement text value) (isSpelled : session.IsSpelledBy value) :
    session.IsRecordedIn (Utf8.encode text) := by
  refine ⟨value, ?_, (ofJson?_eq_some_iff session value).mp ?_⟩
  · rw [Utf8.symbols_encode, ofSymbols?_of_spellsElement spells]
  · exact ofJson?_of_isSpelledBy session value isSpelled

end Session

end LiterateMarkdown
