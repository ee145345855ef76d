import LiterateMarkdown.Proofs.Json.Reading
import LiterateMarkdown.Session.Reader
import Mathlib.Data.List.Forall2

/-!
# The layout of session files

A session can be written in many ways: the fields of a record stand in any order and among others
that nobody asks for, and those that have a default may be left out. A record that gives its fields
in such a way is read as these fields (`JsonValue.fields?_of_spellsRecord`), and one that gives a
field twice is refused (`JsonValue.fields?_of_repeatsName`). So all the texts that spell a session
are read as that session (`Session.ofBytes_of_spellsElement`).
-/

namespace LiterateMarkdown

theorem mapM_eq_some_iff {Item Value : Type} {read : Item → Option Value} {items : List Item}
    {values : List Value} :
    items.mapM read = some values ↔
      List.Forall₂ (fun item value => read item = some value) items values := by
  induction items generalizing values with
  | nil => simp [eq_comm]
  | cons item rest ih =>
    simp only [List.mapM_cons, Option.bind_eq_bind, Option.bind_eq_some_iff, ih,
      List.forall₂_cons_left_iff, Option.pure_def, Option.some.injEq]
    constructor
    · rintro ⟨value, isRead, values, areRead, rfl⟩
      exact ⟨value, values, isRead, areRead, rfl⟩
    · rintro ⟨value, values, isRead, areRead, rfl⟩
      exact ⟨value, isRead, values, areRead, rfl⟩

theorem exists_of_mem_of_forall₂ {Item Value : Type} {related : Item → Value → Prop}
    {items : List Item} {values : List Value} (areRelated : List.Forall₂ related items values)
    {item : Item} (isItem : item ∈ items) : ∃ value, related item value := by
  induction areRelated with
  | nil => cases isItem
  | cons isRelated _ ih =>
    rcases List.mem_cons.mp isItem with rfl | isLater
    · exact ⟨_, isRelated⟩
    · exact ih isLater

namespace JsonValue

/-! ## Records -/

variable {names : List Text} {given : List (Option JsonValue)}
  {members : List (Option Text × JsonValue)}

/-- An object gives each field as often as there is a value for it. -/
theorem fields?_object_eq_some_iff :
    (object members).fields? names = some given ↔
      (∀ member ∈ members, member.1.isSome = true) ∧
        List.Forall₂ (fun name value => membersNamed members name = Option.toList value)
          names given := by
  rw [fields?, ← List.all_eq_true]
  split
  · rename_i areTexts
    rw [and_iff_right areTexts, mapM_eq_some_iff]
    constructor
    · apply List.Forall₂.imp
      intro name value isRead
      split at isRead
      · rename_i isNone
        cases isRead
        exact isNone
      · rename_i isOne
        cases isRead
        exact isOne
      · cases isRead
    · apply List.Forall₂.imp
      rintro name (_ | value) isNamed
      · rw [isNamed]
        rfl
      · rw [isNamed]
        rfl
  · rename_i notTexts
    simp only [reduceCtorEq, notTexts, false_and]

/-- The members that give fields, without those that are left out. -/
def givenMembers (names : List Text) (given : List (Option JsonValue)) :
    List (Option Text × JsonValue) :=
  (names.zip given).filterMap fun field => field.2.map fun value => (some field.1, value)

/-- An object that gives fields in any order, and has members of other names besides. -/
inductive SpellsRecord (names : List Text) (given : List (Option JsonValue)) :
    JsonValue → Prop where
  | object {members further : List (Option Text × JsonValue)}
      (inAnyOrder : members.Perm (givenMembers names given ++ further))
      (areUnknown : ∀ member ∈ further, ∃ name, member.1 = some name ∧ name ∉ names) :
      SpellsRecord names given (.object members)

theorem givenMembers_cons (name : Text) (value : Option JsonValue) (rest : List Text)
    (more : List (Option JsonValue)) :
    givenMembers (name :: rest) (value :: more) =
      (value.toList.map fun value => (some name, value)) ++ givenMembers rest more := by
  cases value <;> rfl

theorem membersNamed_append (earlier later : List (Option Text × JsonValue)) (name : Text) :
    membersNamed (earlier ++ later) name = membersNamed earlier name ++ membersNamed later name :=
  List.filterMap_append

theorem membersNamed_map (name other : Text) (value : Option JsonValue) :
    membersNamed (value.toList.map fun value => (some name, value)) other =
      if name = other then value.toList else [] := by
  cases value with
  | none => simp [membersNamed]
  | some value => by_cases same : name = other <;> simp [membersNamed, same]

theorem membersNamed_eq_nil {name : Text} (notNamed : ∀ member ∈ members, member.1 ≠ some name) :
    membersNamed members name = [] := by
  rw [membersNamed, List.filterMap_eq_nil_iff]
  intro member isMember
  rw [if_neg (notNamed member isMember)]

theorem exists_of_mem_givenMembers {member : Option Text × JsonValue}
    (isGiven : member ∈ givenMembers names given) : ∃ name ∈ names, member.1 = some name := by
  rcases List.mem_filterMap.mp isGiven with ⟨field, isField, isMember⟩
  rcases Option.map_eq_some_iff.mp isMember with ⟨value, _, rfl⟩
  exact ⟨field.1, (List.of_mem_zip isField).1, rfl⟩

/-- The members that give fields give none of them twice. -/
theorem membersNamed_givenMembers (distinct : names.Nodup) :
    ∀ field ∈ names.zip given,
      membersNamed (givenMembers names given) field.1 = field.2.toList := by
  induction names generalizing given with
  | nil => simp
  | cons name rest ih =>
    rcases given with _ | ⟨value, more⟩
    · simp
    rw [List.nodup_cons] at distinct
    rw [List.zip_cons_cons, List.forall_mem_cons, givenMembers_cons]
    simp only [membersNamed_append, membersNamed_map, ↓reduceIte]
    constructor
    · have notLater : membersNamed (givenMembers rest more) name = [] := by
        apply membersNamed_eq_nil
        intro member isGiven isName
        rcases exists_of_mem_givenMembers isGiven with ⟨other, isOther, isSame⟩
        rw [isName] at isSame
        cases isSame
        exact distinct.1 isOther
      rw [notLater, List.append_nil]
    · intro field isField
      have notFirst : name ≠ field.1 := by
        rintro rfl
        exact distinct.1 (List.of_mem_zip isField).1
      rw [if_neg notFirst, List.nil_append, ih distinct.2 field isField]

/-- A list in the order of one that has no two items is that list. -/
theorem eq_toList_of_perm {Item : Type} {items : List Item} {item : Option Item}
    (perm : items.Perm item.toList) : items = item.toList := by
  cases item with
  | none => exact List.perm_nil.mp perm
  | some item => exact List.perm_singleton.mp perm

/-- A record that gives fields is read as these fields, in whatever order it gives them. -/
theorem fields?_of_spellsRecord {value : JsonValue} (distinct : names.Nodup)
    (sameLength : names.length = given.length) (spells : SpellsRecord names given value) :
    value.fields? names = some given := by
  rcases spells with @⟨members, further, inAnyOrder, areUnknown⟩
  rw [fields?_object_eq_some_iff, List.forall₂_iff_zip]
  refine ⟨?_, sameLength, ?_⟩
  · intro member isMember
    rcases List.mem_append.mp (inAnyOrder.mem_iff.mp isMember) with isGiven | isFurther
    · rcases exists_of_mem_givenMembers isGiven with ⟨name, _, isName⟩
      rw [isName]
      rfl
    · rcases areUnknown member isFurther with ⟨name, isName, _⟩
      rw [isName]
      rfl
  -- Further members have other names, so only the order of those that give fields could count.
  · intro name field isField
    have notFurther : membersNamed further name = [] := by
      apply membersNamed_eq_nil
      intro member isFurther isName
      rcases areUnknown member isFurther with ⟨other, isOther, isUnknown⟩
      rw [isName] at isOther
      cases isOther
      exact isUnknown (List.of_mem_zip isField).1
    have reordered : (membersNamed members name).Perm
        (membersNamed (givenMembers names given ++ further) name) := inAnyOrder.filterMap _
    rw [membersNamed_append, notFurther, List.append_nil,
      membersNamed_givenMembers distinct _ isField] at reordered
    exact eq_toList_of_perm reordered

/-- Two of the members have the same one of some names. -/
def RepeatsName (names : List Text) (members : List (Option Text × JsonValue)) : Prop :=
  ∃ name ∈ names, ∃ first second, [(some name, first), (some name, second)].Sublist members

/-- A record that gives a field twice is refused. -/
theorem fields?_of_repeatsName (repeats : RepeatsName names members) :
    (object members).fields? names = none := by
  rcases repeats with ⟨name, isName, first, second, within⟩
  rw [Option.eq_none_iff_forall_not_mem]
  intro given isGiven
  have areGiven := (fields?_object_eq_some_iff.mp isGiven).2
  have twice : [first, second].Sublist (membersNamed members name) := by
    have isSublist := within.filterMap fun member =>
      if member.1 = some name then some member.2 else none
    simp only [List.filterMap_cons, ↓reduceIte, List.filterMap_nil] at isSublist
    exact isSublist
  rcases exists_of_mem_of_forall₂ areGiven isName with ⟨field, once⟩
  rw [once] at twice
  have tooMany := twice.length_le
  cases field <;> simp at tooMany

/-- A field is what the member of its name gives. -/
theorem eq_some_of_mem_members (areFields : (object members).fields? names = some given)
    {name : Text} {field : Option JsonValue} (isField : (name, field) ∈ names.zip given)
    {value : JsonValue} (isMember : (some name, value) ∈ members) : field = some value := by
  have isGiven := List.forall₂_zip (fields?_object_eq_some_iff.mp areFields).2 isField
  have isNamed : value ∈ membersNamed members name :=
    List.mem_filterMap.mpr ⟨_, isMember, if_pos rfl⟩
  rw [isGiven] at isNamed
  exact Option.mem_toList.mp isNamed

/-! ## Fields -/

/-- A field that is null or left out, or else spelled. -/
inductive SpellsOptional {Value : Type} (spells : Value → JsonValue → Prop) :
    Option Value → Option JsonValue → Prop where
  | leftOut : SpellsOptional spells none none
  | null : SpellsOptional spells none (some .null)
  | given {value : Value} {json : JsonValue} (isSpelled : spells value json) :
      SpellsOptional spells (some value) (some json)

/-- A field that may be left out where it has its default. -/
inductive SpellsWithDefault {Value : Type} (default : Value) (spells : Value → JsonValue → Prop) :
    Value → Option JsonValue → Prop where
  | leftOut : SpellsWithDefault default spells default none
  | given {value : Value} {json : JsonValue} (isSpelled : spells value json) :
      SpellsWithDefault default spells value (some json)

section Fields

variable {Value : Type} {spells : Value → JsonValue → Prop} {read : JsonValue → Option Value}
  (reads : ∀ value json, spells value json → read json = some value)
include reads

theorem optional?_of_spellsOptional (refusesNull : read .null = none) {value : Option Value}
    {field : Option JsonValue} (isSpelled : SpellsOptional spells value field) :
    optional? read field = some value := by
  cases isSpelled with
  | leftOut => rfl
  | null => rfl
  | given isSpelled =>
    have isRead := reads _ _ isSpelled
    unfold optional?
    split
    · rename_i isMissing
      cases isMissing
    · rename_i isNull
      cases isNull
      rw [refusesNull] at isRead
      cases isRead
    · rename_i same
      cases same
      rw [isRead, Option.map_some]

theorem withDefault?_of_spellsWithDefault {default value : Value} {field : Option JsonValue}
    (isSpelled : SpellsWithDefault default spells value field) :
    withDefault? default read field = some value := by
  cases isSpelled with
  | leftOut => rfl
  | given isSpelled => exact reads _ _ isSpelled

end Fields

/-- A string that is a text. -/
def SpellsString (text : Text) (value : JsonValue) : Prop :=
  value = string (some text)

theorem text?_of_spellsString (text : Text) (value : JsonValue)
    (isSpelled : SpellsString text value) : text? value = some text := by
  rw [isSpelled]
  rfl

end JsonValue

open JsonValue

namespace Interpreter

/-- A value spells an interpreter, in one of the ways in which its fields may be laid out. -/
def IsSpelledBy (interpreter : Interpreter) (value : JsonValue) : Prop :=
  ∃ given,
    List.Forall₂ (SpellsOptional SpellsString)
      [interpreter.command, interpreter.firstPrompt, interpreter.changePrompt, interpreter.prompt,
        interpreter.continuationPrompt] given ∧
    SpellsRecord fieldNames given value

theorem ofJson?_of_isSpelledBy (interpreter : Interpreter) (value : JsonValue)
    (isSpelled : interpreter.IsSpelledBy value) : ofJson? value = some interpreter := by
  rcases isSpelled with ⟨given, areSpelled, isRecord⟩
  have areFields := fields?_of_spellsRecord (by decide) areSpelled.length_eq isRecord
  have areRead : given.mapM (optional? text?) =
      some [interpreter.command, interpreter.firstPrompt, interpreter.changePrompt,
        interpreter.prompt, interpreter.continuationPrompt] := by
    rw [mapM_eq_some_iff]
    apply List.Forall₂.flip
    exact areSpelled.imp fun _ _ => optional?_of_spellsOptional text?_of_spellsString rfl
  simp only [ofJson?, areFields, areRead, bind, Option.bind_some]

theorem ofJson?_of_repeatsName {members : List (Option Text × JsonValue)}
    (repeats : RepeatsName fieldNames members) : ofJson? (.object members) = none := by
  rw [ofJson?, fields?_of_repeatsName repeats]
  rfl

end Interpreter

namespace SessionCommand

/-- A value spells a command, in one of the ways in which its fields may be laid out. -/
def IsSpelledBy (command : SessionCommand) (value : JsonValue) : Prop :=
  ∃ outputType output expected,
    SpellsWithDefault plainText SpellsString command.outputType outputType ∧
    SpellsOptional SpellsString command.output output ∧
    SpellsOptional SpellsString command.expected expected ∧
    SpellsRecord fieldNames
      [some (.string (some command.command)), outputType, output, expected] value

theorem ofJson?_of_isSpelledBy (command : SessionCommand) (value : JsonValue)
    (isSpelled : command.IsSpelledBy value) : ofJson? value = some command := by
  rcases isSpelled with ⟨outputType, output, expected, isType, isOutput, isExpected, isRecord⟩
  have areFields := fields?_of_spellsRecord (by decide) rfl isRecord
  have typeRead := withDefault?_of_spellsWithDefault text?_of_spellsString isType
  have outputRead := optional?_of_spellsOptional text?_of_spellsString rfl isOutput
  have expectedRead := optional?_of_spellsOptional text?_of_spellsString rfl isExpected
  simp only [ofJson?, areFields, text?, typeRead, outputRead, expectedRead, bind, Option.bind_some,
    pure]

theorem ofJson?_of_repeatsName {members : List (Option Text × JsonValue)}
    (repeats : RepeatsName fieldNames members) : ofJson? (.object members) = none := by
  rw [ofJson?, fields?_of_repeatsName repeats]
  rfl

end SessionCommand

namespace Session

/-- A value spells a session, in one of the ways in which its fields may be laid out. -/
def IsSpelledBy (session : Session) (value : JsonValue) : Prop :=
  ∃ interpreter items,
    SpellsOptional Interpreter.IsSpelledBy session.interpreter interpreter ∧
    List.Forall₂ SessionCommand.IsSpelledBy session.commands items ∧
    SpellsRecord fieldNames [interpreter, some (.array items)] value

theorem ofJson?_of_isSpelledBy (session : Session) (value : JsonValue)
    (isSpelled : session.IsSpelledBy value) : ofJson? value = some session := by
  rcases isSpelled with ⟨interpreter, items, isInterpreter, areCommands, isRecord⟩
  have areFields := fields?_of_spellsRecord (by decide) rfl isRecord
  have interpreterRead :=
    optional?_of_spellsOptional Interpreter.ofJson?_of_isSpelledBy rfl isInterpreter
  have commandsRead : items.mapM SessionCommand.ofJson? = some session.commands := by
    rw [mapM_eq_some_iff]
    apply List.Forall₂.flip
    exact areCommands.imp SessionCommand.ofJson?_of_isSpelledBy
  simp only [ofJson?, areFields, interpreterRead, items?, commandsRead, bind, Option.bind_some,
    pure]

/-- A session gives a field twice, or its interpreter or one of its commands does. -/
inductive RepeatsField : JsonValue → Prop where
  | session {members : List (Option Text × JsonValue)} (repeats : RepeatsName fieldNames members) :
      RepeatsField (.object members)
  | interpreter {members inner : List (Option Text × JsonValue)}
      (isField : (some "config".toList, .object inner) ∈ members)
      (repeats : RepeatsName Interpreter.fieldNames inner) : RepeatsField (.object members)
  | command {members inner : List (Option Text × JsonValue)} {items : List JsonValue}
      (isField : (some "commands".toList, .array items) ∈ members) (isItem : .object inner ∈ items)
      (repeats : RepeatsName SessionCommand.fieldNames inner) : RepeatsField (.object members)

/-- A session that is read has its fields, and they are read. -/
theorem of_ofJson?_eq_some {value : JsonValue} {session : Session}
    (isRead : ofJson? value = some session) :
    ∃ interpreter commands, value.fields? fieldNames = some [interpreter, some commands] ∧
      optional? Interpreter.ofJson? interpreter = some session.interpreter ∧
      items? SessionCommand.ofJson? commands = some session.commands := by
  rw [ofJson?, Option.bind_eq_bind, Option.bind_eq_some_iff] at isRead
  rcases isRead with ⟨given, areFields, isRead⟩
  split at isRead
  · rename_i interpreter commands
    simp only [Option.bind_eq_bind, Option.bind_eq_some_iff, Option.pure_def, Option.some.injEq]
      at isRead
    rcases isRead with ⟨_, interpreterRead, _, commandsRead, rfl⟩
    exact ⟨interpreter, commands, areFields, interpreterRead, commandsRead⟩
  · cases isRead

theorem ofJson?_of_repeatsField {value : JsonValue} (repeats : RepeatsField value) :
    ofJson? value = none := by
  rw [Option.eq_none_iff_forall_not_mem]
  intro session isRead
  rcases of_ofJson?_eq_some isRead with
    ⟨interpreter, commands, areFields, interpreterRead, commandsRead⟩
  cases repeats with
  | session repeats =>
    rw [fields?_of_repeatsName repeats] at areFields
    cases areFields
  | interpreter isField repeats =>
    cases eq_some_of_mem_members areFields List.mem_cons_self isField
    rw [optional?, Interpreter.ofJson?_of_repeatsName repeats] at interpreterRead
    · cases interpreterRead
    · rintro ⟨⟩
  | command isField isItem repeats =>
    cases eq_some_of_mem_members areFields (List.mem_cons_of_mem _ List.mem_cons_self) isField
    rcases exists_of_mem_of_forall₂ (mapM_eq_some_iff.mp commandsRead) isItem with
      ⟨command, itemRead⟩
    rw [SessionCommand.ofJson?_of_repeatsName repeats] at itemRead
    cases itemRead

/--
A JSON text that spells a session is read as this session, however its fields are laid out. A text
in which a field of the session or of a part of it occurs twice is refused.
-/
theorem ofBytes_of_spellsElement {text : Text} {value : JsonValue}
    (spells : Json.SpellsElement text value) :
    (∀ session : Session, session.IsSpelledBy value → ofBytes (Utf8.encode text) = .ok session) ∧
      (RepeatsField value → ofBytes (Utf8.encode text) = .error .malformed) := by
  have isRead := ofSymbols?_of_spellsElement spells
  constructor
  · intro session isSpelled
    simp only [ofBytes, Utf8.symbols_encode, isRead, Option.bind_some,
      ofJson?_of_isSpelledBy session value isSpelled]
  · intro repeats
    simp only [ofBytes, Utf8.symbols_encode, isRead, Option.bind_some,
      ofJson?_of_repeatsField repeats]

/-- A command among fields that are null or not known, with an escape and a blank at the end. -/
def sampleText : Text :=
  ("\x7b\"x\":[null],\"commands\":[\x7b\"output\":null,\"command\":\"\\u0061\"\x7d]\x7d\n").toList

def sampleValue : JsonValue :=
  .object
    [ (some "x".toList, .array [.null]),
      (some "commands".toList,
        .array [.object
          [(some "output".toList, .null), (some "command".toList, .string (some "a".toList))]]) ]

def sampleSession : Session :=
  ⟨none, [⟨"a".toList, plainText, none, none⟩]⟩

theorem spellsElement_sampleText : Json.SpellsElement sampleText sampleValue := by
  have isNull := Json.spellsElement_of_spellsValue .null
  have isUnit : Json.IsCodeUnit "0061".toList 'a'.toNat :=
    @Json.IsCodeUnit.digits '0' '0' '6' '1' 0 0 6 1 (.inl rfl) (.inl rfl) (.inl rfl) (.inl rfl)
  have isCommand := Json.spellsElement_of_spellsValue (.string (.text (.codeUnit isUnit .nil)))
  have isItem := Json.spellsElement_of_spellsValue (.object
    (.more (Json.spellsMember_of_spellsElement "output".toList (by decide) isNull)
      (.last (Json.spellsMember_of_spellsElement "command".toList (by decide) isCommand))))
  have isObject : Json.SpellsValue _ sampleValue := .object
    (.more (Json.spellsMember_of_spellsElement "x".toList (by decide)
        (Json.spellsElement_of_spellsValue (.array (.last isNull))))
      (.last (Json.spellsMember_of_spellsElement "commands".toList (by decide)
        (Json.spellsElement_of_spellsValue (.array (.last isItem))))))
  have spells := @Json.SpellsElement.between [] _ "\n".toList _ (by decide) isObject (by decide)
  refine Eq.mp (congrArg (Json.SpellsElement · sampleValue) ?_) spells
  decide +kernel

theorem isSpelledBy_sampleValue : sampleSession.IsSpelledBy sampleValue := by
  have isCommand : SessionCommand.IsSpelledBy ⟨"a".toList, plainText, none, none⟩
      (.object
        [(some "output".toList, .null), (some "command".toList, .string (some "a".toList))]) :=
    ⟨none, some .null, none, .leftOut, .null, .leftOut,
      @SpellsRecord.object _ _ _ [] (.swap _ _ []) (by simp)⟩
  refine ⟨none, _, .leftOut, .cons isCommand .nil,
    @SpellsRecord.object _ _ _ [(some "x".toList, .array [.null])] (.swap _ _ []) ?_⟩
  rw [List.forall_mem_singleton]
  exact ⟨"x".toList, rfl, by decide⟩

/-- A command that is given its text and then null for it. -/
def repeatedText : Text :=
  "\x7b\"commands\":[\x7b\"command\":\"a\",\"command\":null\x7d]\x7d".toList

def repeatedValue : JsonValue :=
  .object [(some "commands".toList, .array [.object
    [(some "command".toList, .string (some "a".toList)), (some "command".toList, .null)]])]

theorem spellsElement_repeatedText : Json.SpellsElement repeatedText repeatedValue := by
  have isText := Json.spellsElement_of_spellsValue
    (.string (Json.spellsString_of_arePlain (by decide : Json.ArePlain "a".toList)))
  have isItem := Json.spellsElement_of_spellsValue (.object
    (.more (Json.spellsMember_of_spellsElement "command".toList (by decide) isText)
      (.last (Json.spellsMember_of_spellsElement "command".toList (by decide)
        (Json.spellsElement_of_spellsValue .null)))))
  have isObject : Json.SpellsValue _ repeatedValue := .object
    (.last (Json.spellsMember_of_spellsElement "commands".toList (by decide)
      (Json.spellsElement_of_spellsValue (.array (.last isItem)))))
  have spells := Json.spellsElement_of_spellsValue isObject
  refine Eq.mp (congrArg (Json.SpellsElement · repeatedValue) ?_) spells
  decide +kernel

theorem ofBytes_of_spellsElement_sample :
    (Json.SpellsElement sampleText sampleValue ∧ sampleSession.IsSpelledBy sampleValue ∧
        ofBytes (Utf8.encode sampleText) = .ok sampleSession) ∧
      Json.SpellsElement repeatedText repeatedValue ∧ RepeatsField repeatedValue ∧
        ofBytes (Utf8.encode repeatedText) = .error .malformed := by
  have repeats : RepeatsField repeatedValue :=
    .command List.mem_cons_self List.mem_cons_self
      ⟨"command".toList, by decide, _, _, .refl _⟩
  exact ⟨⟨spellsElement_sampleText, isSpelledBy_sampleValue,
      (ofBytes_of_spellsElement spellsElement_sampleText).1 sampleSession isSpelledBy_sampleValue⟩,
    spellsElement_repeatedText, repeats,
    (ofBytes_of_spellsElement spellsElement_repeatedText).2 repeats⟩

end Session

end LiterateMarkdown
