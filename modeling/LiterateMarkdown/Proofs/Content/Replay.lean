import LiterateMarkdown.Proofs.Content.Chain
import LiterateMarkdown.Proofs.Content.ShownOutput
import LiterateMarkdown.Proofs.Session.Recording

/-!
# Replaying sessions

The blocks of one name replay one session, each of them showing the next command. Which command that
is can be told from the page alone: the name of a block and its number among the blocks of that name
follow from the blocks before it (`Block.namedFrom`), and the session stands on the first block of
the name. The pass over a document that was read finds exactly these (`Document.replays_of_read`).
-/

namespace LiterateMarkdown

/-- Blocks with the names they go by, in order, `made` names having been made up before them. -/
def Block.namedFrom (made : Nat) : List Block → List (Text × Block)
  | [] => []
  | block :: rest =>
    match (Property.identifiers block.properties).head?,
        Property.firstValue? block.properties Fence.fileKey with
    | some identifier, _ => (identifier, block) :: namedFrom made rest
    | none, some file => (file, block) :: namedFrom made rest
    | none, none =>
      ("#anonymous-".toList ++ Text.ofNat (made + 1), block) :: namedFrom (made + 1) rest

/-- The block, if the segment is one. -/
def Segment.block? : Segment → Option Block
  | .line _ => none
  | .block current => some current

/-- The blocks of a page with the names they go by, in order. -/
def Segment.namedBlocks (segments : List Segment) : List (Text × Block) :=
  Block.namedFrom 0 (segments.filterMap block?)

/-- Items with what comes after each reference among them. -/
def Content.interleave : List Content → List (Option Content) → List Content
  | .reference id :: rest, following :: later =>
    .reference id :: following.toList ++ interleave rest later
  | item :: rest, followings => item :: interleave rest followings
  | [], _ => []

namespace Replay

/-- How many blocks called `name` stand before the given place. -/
def numberAt (blocks : List (Text × Block)) (place : Nat) (name : Text) : Nat :=
  (blocks.take place).countP fun entry => entry.1 = name

/-- The session that the first block called `name` names. -/
def sessionNamed? (blocks : List (Text × Block)) (name : Text) : Option Text :=
  (blocks.find? fun entry => entry.1 = name).bind fun entry =>
    Property.firstValue? entry.2.properties Fence.sessionKey

/-- The file that a session is named by. -/
def sessionPath (options : ContentFilter.ReplOptions) (session : Text) : Path :=
  Path.append options.projectRoot session

/-- The file that a session is recorded in: beside its own, with the suffix in place of the
extension. -/
def recordPath (options : ContentFilter.ReplOptions) (session : Text) : Path :=
  Path.withFileName (sessionPath options session)
    (Path.fileStem (sessionPath options session) ++ options.outputSuffix)

variable (options : ContentFilter.ReplOptions) (files : FileTree)

/-- What looking for the record of a session gives. -/
inductive Opens (session : Text) : Except FilterError Session → Prop where
  | noFile (isMissing : ∀ place, files.locate (sessionPath options session) ≠ .ok place) :
      Opens session (.error (.missingSessionFile (sessionPath options session)))
  | noRecord {place : Location} (isFile : files.locate (sessionPath options session) = .ok place)
      (isMissing : ∀ other, files.locate (recordPath options session) ≠ .ok other) :
      Opens session (.error (.missingSessionOutput (recordPath options session)))
  | closed {place other : Location}
      (isFile : files.locate (sessionPath options session) = .ok place)
      (isRecord : files.locate (recordPath options session) = .ok other)
      (isGone : files.at? other = none) :
      Opens session (.error (.session (.openFile (recordPath options session))))
  | directory {place other : Location}
      (isFile : files.locate (sessionPath options session) = .ok place)
      (isRecord : files.locate (recordPath options session) = .ok other)
      (isDirectory : files.at? other = some .directory) :
      Opens session (.error (.session .malformed))
  | malformed {place other : Location} {content : Bytes}
      (isFile : files.locate (sessionPath options session) = .ok place)
      (isRecord : files.locate (recordPath options session) = .ok other)
      (holds : files.at? other = some (.file content))
      (noSession : ∀ recorded : Session, ¬ recorded.IsRecordedIn content) :
      Opens session (.error (.session .malformed))
  | record {place other : Location} {content : Bytes} {recorded : Session}
      (isFile : files.locate (sessionPath options session) = .ok place)
      (isRecord : files.locate (recordPath options session) = .ok other)
      (holds : files.at? other = some (.file content))
      (isRecorded : recorded.IsRecordedIn content) : Opens session (.ok recorded)

/-- What asking for a command gives, the blocks called `name` naming a session or none. -/
inductive Answers (name : Text) (number : Nat) :
    Option Text → Except FilterError SessionCommand → Prop where
  | noSession : Answers name number none (.error (.missingSessionAttribute name))
  | noRecord {session : Text} {cause : FilterError}
      (opens : Opens options files session (.error cause)) :
      Answers name number (some session) (.error cause)
  | noCommand {session : Text} {recorded : Session}
      (opens : Opens options files session (.ok recorded))
      (tooFew : recorded.commands.length ≤ number) :
      Answers name number (some session)
        (.error (.missingCommand (recordPath options session) number))
  | command {session : Text} {recorded : Session} {command : SessionCommand}
      (opens : Opens options files session (.ok recorded))
      (isCommand : recorded.commands[number]? = some command) :
      Answers name number (some session) (.ok command)

/-- What comes after the block at a place of the page: an item, nothing, or an error. -/
inductive Follows (blocks : List (Text × Block)) (place : Nat) :
    Except FilterError (Option Content) → Prop where
  | keeps {name : Text} {block : Block} (isPlaced : blocks[place]? = some (name, block))
      (noRepl : Property.hasClass block.properties Fence.replClass = false) :
      Follows blocks place (.ok none)
  | fails {name : Text} {block : Block} {cause : FilterError}
      (isPlaced : blocks[place]? = some (name, block))
      (isRepl : Property.hasClass block.properties Fence.replClass)
      (answers : Answers options files name (numberAt blocks place name)
        (sessionNamed? blocks name) (.error cause)) :
      Follows blocks place (.error cause)
  | shows {name : Text} {block : Block} {command : SessionCommand} {following : Option Content}
      (isPlaced : blocks[place]? = some (name, block))
      (isRepl : Property.hasClass block.properties Fence.replClass)
      (answers : Answers options files name (numberAt blocks place name)
        (sessionNamed? blocks name) (.ok command))
      (renders : Renders block command following) :
      Follows blocks place (.ok following)

end Replay

/-- What becomes of a document when the output of sessions is put after its blocks. -/
inductive Document.Replays {World : Type} (options : ContentFilter.ReplOptions)
    (files : World → FileTree) (document : Document) (world : World)
    (blocks : List (Text × Block)) :
    EStateM.Result FilterError (Document × World) Unit → Prop where
  | shows (followings : List (Option Content)) (sameLength : followings.length = blocks.length)
      (each : ∀ place following, followings[place]? = some following →
        Replay.Follows options (files world) blocks place (.ok following)) :
      Replays options files document world blocks
        (.ok () ({ document with content := Content.interleave document.content followings },
          world))
  | fails {place : Nat} {cause : FilterError}
      (fails : Replay.Follows options (files world) blocks place (.error cause))
      (isFirst : ∀ before < place, ∀ other,
        ¬ Replay.Follows options (files world) blocks before (.error other)) :
      Replays options files document world blocks
        (.error cause ({ document with content := [] }, world))

namespace References

/-- The blocks with the names they are registered under. -/
def namedBlocks (references : References) : List (Text × Block) :=
  references.entries.map fun entry => (entry.1.name, entry.2)

theorem namedBlocks_insertNamed {references : References} (inStep : references.InStep)
    (name : Text) (block : Block) :
    (references.insertNamed name block).1.namedBlocks =
      references.namedBlocks ++ [(name, block)] := by
  rw [namedBlocks, entries_insertNamed inStep, List.map_append]
  rfl

theorem namedBlocks_insert {references : References} (inStep : references.InStep) (block : Block)
    (rest : List Block) :
    (references.insert block).1.namedBlocks ++
        Block.namedFrom (references.insert block).1.anonymous rest =
      references.namedBlocks ++ Block.namedFrom references.anonymous (block :: rest) := by
  have ofGiven : ∀ name, givenName? block = some name →
      (references.insert block).1.namedBlocks ++
          Block.namedFrom (references.insert block).1.anonymous rest =
        references.namedBlocks ++ (name, block) :: Block.namedFrom references.anonymous rest := by
    intro name given
    simp only [insert, given, namedBlocks_insertNamed inStep, List.append_assoc]
    rfl
  rw [Block.namedFrom]
  split
  · rename_i identifier isIdentifier
    exact ofGiven identifier (by simp [givenName?, isIdentifier])
  · rename_i file noIdentifier isFile
    exact ofGiven file (by simp [givenName?, noIdentifier, isFile])
  · rename_i noIdentifier noFile
    have given : givenName? block = none := by simp [givenName?, noIdentifier, noFile]
    have isNext := namedBlocks_insertNamed (inStep.withAnonymous (references.anonymous + 1))
      (anonymousName references.anonymous) block
    simp only [insert, given, isNext, List.append_assoc]
    rfl

end References

/-- The blocks that are added are registered under the names they go by. -/
theorem DocumentBuilder.namedBlocks_addAll {builder : DocumentBuilder}
    (inStep : builder.references.InStep) (segments : List Segment) :
    (builder.addAll segments).references.namedBlocks =
      builder.references.namedBlocks ++
        Block.namedFrom builder.references.anonymous (segments.filterMap Segment.block?) := by
  induction segments generalizing builder with
  | nil => simp [addAll, Block.namedFrom]
  | cons segment rest ih =>
    cases segment with
    | line text =>
      have added := @ih (builder.add (.line text)) inStep
      exact added
    | block block =>
      have added := @ih (builder.add (.block block)) (References.inStep_insert inStep block)
      have registered := References.namedBlocks_insert inStep block
        (rest.filterMap Segment.block?)
      exact added.trans registered

theorem Document.namedBlocks_ofSegments (segments : List Segment) :
    (ofSegments segments).references.namedBlocks = Segment.namedBlocks segments :=
  @DocumentBuilder.namedBlocks_addAll .empty References.inStep_empty segments

/-- The blocks that go by names are those of the page. -/
theorem Block.map_snd_namedFrom (made : Nat) (blocks : List Block) :
    (namedFrom made blocks).map Prod.snd = blocks := by
  induction blocks generalizing made with
  | nil => rfl
  | cons block rest ih =>
    rw [namedFrom]
    split <;> rw [List.map_cons, ih]

namespace References

/-- The first reference of a name leads to the first block of that name. -/
theorem sessionOf?_eq {references : References} (inStep : references.InStep) (name : Text) :
    ContentFilter.sessionOf? references name =
      Replay.sessionNamed? references.namedBlocks name := by
  have sameFirst : references.namedBlocks.find? (fun entry => entry.1 = name) =
      (references.entries.find? fun entry => entry.1.name = name).map fun entry =>
        (entry.1.name, entry.2) := by
    rw [namedBlocks, List.find?_map]
    rfl
  have isHead : (references.named name).head? =
      (references.entries.find? fun entry => entry.1.name = name).map Prod.fst := by
    rw [inStep.indexed, keys, List.filter_map, List.head?_map, ← List.head?_filter]
    rfl
  rw [Replay.sessionNamed?, sameFirst, ContentFilter.sessionOf?, isHead]
  cases isFirst : references.entries.find? fun entry => entry.1.name = name with
  | none => rfl
  | some first =>
    have registered := get?_of_mem_entries inStep (List.mem_of_find?_eq_some isFirst)
    simp only [Option.map_some, bind, Option.bind_some, registered]

end References

namespace Replay

variable {options : ContentFilter.ReplOptions} {files : FileTree}

theorem opens_load {session : Text} {place other : Location}
    (isFile : files.locate (sessionPath options session) = .ok place)
    (isRecord : files.locate (recordPath options session) = .ok other) :
    Opens options files session
      ((Session.load files (recordPath options session)).mapError .session) := by
  rw [Session.load, FileTree.readBytes, isRecord]
  simp only [bind, Except.bind]
  cases holds : files.at? other with
  | none => exact .closed isFile isRecord holds
  | some node =>
    cases node with
    | directory => exact .directory isFile isRecord holds
    | file content =>
      cases isRead : Session.ofBytes content with
      | error cause =>
        rcases Session.ofBytes_eq_error_iff.mp isRead with ⟨rfl, noSession⟩
        simp only [isRead]
        exact .malformed isFile isRecord holds noSession
      | ok recorded =>
        simp only [isRead]
        exact .record isFile isRecord holds (Session.ofBytes_eq_ok_iff.mp isRead)

/-- What the pass is answered is what the session named by the first block of the name holds. -/
theorem answers_recordedCommand (options : ContentFilter.ReplOptions) (files : FileTree)
    (references : References) (id : ReferenceId) :
    Answers options files id.name id.index (ContentFilter.sessionOf? references id.name)
      (ContentFilter.recordedCommand options files references id) := by
  simp only [ContentFilter.recordedCommand]
  cases ContentFilter.sessionOf? references id.name with
  | none => exact .noSession
  | some session =>
    have isPath : Path.append options.projectRoot session = sessionPath options session := rfl
    have isOutput : Session.outputPath (sessionPath options session) options.outputSuffix =
        recordPath options session := rfl
    simp only [isPath, isOutput, FileTree.pathExists]
    cases isFile : files.locate (sessionPath options session) with
    | error => exact .noRecord (.noFile (by simp [isFile]))
    | ok place =>
      cases isRecord : files.locate (recordPath options session) with
      | error => exact .noRecord (.noRecord isFile (by simp [isRecord]))
      | ok other =>
        have opens := opens_load isFile isRecord
        cases loads : Session.load files (recordPath options session) with
        | error cause =>
          rw [loads] at opens
          exact .noRecord opens
        | ok recorded =>
          rw [loads] at opens
          cases isCommand : recorded.commands[id.index]? with
          | none =>
            simp only [isCommand]
            exact .noCommand opens (List.getElem?_eq_none_iff.mp isCommand)
          | some command =>
            simp only [isCommand]
            exact .command opens isCommand

theorem Opens.unique {session : Text} {left right : Except FilterError Session}
    (first : Opens options files session left) (second : Opens options files session right) :
    left = right := by
  cases first with
  | noFile | noRecord | closed | directory | malformed => cases second <;> simp_all
  | record _ isRecord holds isRecorded =>
    cases second with
    | noFile | noRecord | closed | directory | malformed => simp_all
    | record _ sameRecord sameHolds again =>
      cases isRecord.symm.trans sameRecord
      cases holds.symm.trans sameHolds
      rw [isRecorded.unique again]

theorem Answers.unique {name : Text} {number : Nat} {session : Option Text}
    {left right : Except FilterError SessionCommand}
    (first : Answers options files name number session left)
    (second : Answers options files name number session right) : left = right := by
  cases first with
  | noSession =>
    cases second
    rfl
  | noRecord opens | noCommand opens | command opens =>
    cases second with
    | noRecord again | noCommand again | command again =>
      have same := opens.unique again
      grind

/-- What comes after a block is one thing, so a block that has an error shows nothing. -/
theorem Follows.unique {blocks : List (Text × Block)} {place : Nat}
    {left right : Except FilterError (Option Content)}
    (first : Follows options files blocks place left)
    (second : Follows options files blocks place right) : left = right := by
  cases first with
  | keeps isPlaced noRepl =>
    cases second <;> simp_all
  | fails isPlaced isRepl answers =>
    cases second with
    | keeps => simp_all
    | fails samePlaced _ again =>
      cases isPlaced.symm.trans samePlaced
      cases answers.unique again
      rfl
    | shows samePlaced _ again =>
      cases isPlaced.symm.trans samePlaced
      cases answers.unique again
  | shows isPlaced isRepl answers renders =>
    cases second with
    | keeps => simp_all
    | fails samePlaced _ again =>
      cases isPlaced.symm.trans samePlaced
      cases answers.unique again
    | shows samePlaced _ again renderedAgain =>
      cases isPlaced.symm.trans samePlaced
      cases answers.unique again
      rw [renders.unique renderedAgain]

end Replay

namespace ContentFilter

variable {World : Type} (options : ReplOptions)

/-- What the pass puts after a reference. -/
def following (files : FileTree) (references : References) (id : ReferenceId) :
    Except FilterError (Option Content) :=
  match references.get? id with
  | none => .error (.unknownReference id)
  | some block =>
    if !Property.hasClass block.properties Fence.replClass then .ok none
    else (recordedCommand options files references id).map (outputItem? block)

theorem includeReplOutput_eq (files : World → FileTree) (id : ReferenceId)
    (workspace : Workspace World) :
    includeReplOutput options files (.reference id) workspace =
      match following options (files workspace.world) workspace.references id with
      | .ok item? => .ok (.reference id :: item?.toList) workspace
      | .error cause => .error cause workspace := by
  have isState : (get : EStateM FilterError (Workspace World) (Workspace World)) workspace =
      .ok workspace workspace := rfl
  simp only [includeReplOutput, onBlocks, following]
  cases registered : workspace.references.get? id with
  | none =>
    simp only [bind, EStateM.bind, findBlock_of_missing registered]
  | some block =>
    rw [bind_of_ok (findBlock_of_registered registered)]
    cases isRepl : Property.hasClass block.properties Fence.replClass with
    | false =>
      simp only [isRepl, Bool.not_false, ↓reduceIte]
      rfl
    | true =>
      simp only [isRepl, Bool.not_true, Bool.false_eq_true, ↓reduceIte, bind_of_ok isState]
      cases recordedCommand options (files workspace.world) workspace.references id <;> rfl

theorem overItems_includeReplOutput (files : World → FileTree) (content : List Content)
    (workspace : Workspace World) :
    (includeReplOutput options files).overItems content workspace =
      match (content.filterMap Content.reference?).mapM
        (following options (files workspace.world) workspace.references) with
      | .ok followings => .ok (Content.interleave content followings) workspace
      | .error cause => .error cause workspace := by
  induction content with
  | nil => rfl
  | cons item rest ih =>
    simp only [overItems, bind, EStateM.bind]
    cases item with
    | plainText text =>
      have isKept : includeReplOutput options files (.plainText text) workspace =
        .ok [.plainText text] workspace := rfl
      simp only [isKept, ih, List.filterMap_cons, Content.reference?]
      cases (rest.filterMap Content.reference?).mapM
        (following options (files workspace.world) workspace.references) <;> rfl
    | reference id =>
      simp only [includeReplOutput_eq, List.filterMap_cons, Content.reference?, List.mapM_cons,
        bind, Except.bind]
      cases following options (files workspace.world) workspace.references id with
      | error cause => rfl
      | ok item? =>
        simp only [ih]
        cases (rest.filterMap Content.reference?).mapM
          (following options (files workspace.world) workspace.references) <;> rfl

end ContentFilter

/-- A run over a list succeeds at every place, or fails at the first one that fails. -/
theorem Replay.mapM_cases {α β ε : Type} (step : α → Except ε β) (items : List α) :
    (∃ results, items.mapM step = .ok results ∧ results.length = items.length ∧
      ∀ (place : Nat) (item : α) (result : β), items[place]? = some item →
        results[place]? = some result → step item = .ok result) ∨
    ∃ (place : Nat) (item : α) (cause : ε), items.mapM step = .error cause ∧
      items[place]? = some item ∧ step item = .error cause ∧
      ∀ before < place, ∃ earlier result, items[before]? = some earlier ∧
        step earlier = .ok result := by
  induction items with
  | nil => exact .inl ⟨[], rfl, rfl, by simp⟩
  | cons first rest ih =>
    cases isFirst : step first with
    | error cause =>
      refine .inr ⟨0, first, cause, ?_, rfl, isFirst, by simp⟩
      simp [List.mapM_cons, isFirst, bind, Except.bind]
    | ok result =>
      rcases ih with ⟨results, isRest, sameLength, each⟩ |
        ⟨place, item, cause, isRest, isItem, fails, earlier⟩
      · refine .inl ⟨result :: results, ?_, by simp [sameLength], ?_⟩
        · simp [List.mapM_cons, isFirst, isRest, bind, Except.bind, pure, Except.pure]
        · intro place item other isItem isOther
          cases place with
          | zero => simp_all
          | succ place => exact each place item other isItem isOther
      · refine .inr ⟨place + 1, item, cause, ?_, isItem, fails, ?_⟩
        · simp [List.mapM_cons, isFirst, isRest, bind, Except.bind]
        · intro before isBefore
          cases before with
          | zero => exact ⟨first, result, rfl, isFirst⟩
          | succ before => exact earlier before (Nat.lt_of_succ_lt_succ isBefore)

/-- What the pass puts after a reference is what follows the block at its place. -/
theorem Replay.follows_following (options : ContentFilter.ReplOptions) (files : FileTree)
    {references : References} (inStep : references.InStep)
    (fenced : ∀ entry ∈ references.entries, ∃ fence, entry.2.IsFencedBy fence)
    {place : Nat} {id : ReferenceId} (isKey : references.keys[place]? = some id) :
    Follows options files references.namedBlocks place
      (ContentFilter.following options files references id) := by
  rw [References.keys, List.getElem?_map, Option.map_eq_some_iff] at isKey
  rcases isKey with ⟨⟨id, block⟩, isEntry, rfl⟩
  have registered := References.get?_of_mem_entries inStep (List.mem_of_getElem? isEntry)
  have isPlaced : references.namedBlocks[place]? = some (id.name, block) := by
    simp [References.namedBlocks, isEntry]
  have isNumber : id.index = numberAt references.namedBlocks place id.name := by
    have isKey : references.keys[place]? = some id := by
      simp [References.keys, isEntry]
    rw [References.index_eq_countP inStep isKey]
    simp [numberAt, References.namedBlocks, References.keys, ← List.map_take, List.countP_map,
      Function.comp_def]
  simp only [ContentFilter.following, registered]
  have answers := answers_recordedCommand options files references id
  rw [isNumber, References.sessionOf?_eq inStep] at answers
  cases isRepl : Property.hasClass block.properties Fence.replClass with
  | false => exact .keeps isPlaced isRepl
  | true =>
    cases given : ContentFilter.recordedCommand options files references id with
    | error cause =>
      rw [given] at answers
      exact .fails isPlaced isRepl answers
    | ok command =>
      rw [given] at answers
      rcases fenced _ (List.mem_of_getElem? isEntry) with ⟨fence, isFenced⟩
      exact .shows isPlaced isRepl answers (renders_outputItem? isFenced command)

namespace Document

variable {World : Type}

theorem replays_of_inStep (options : ContentFilter.ReplOptions) (files : World → FileTree)
    (world : World) {document : Document} (inStep : document.references.InStep)
    (fenced : ∀ entry ∈ document.references.entries, ∃ fence, entry.2.IsFencedBy fence)
    (references : document.content.filterMap Content.reference? = document.references.keys) :
    document.Replays options files world document.references.namedBlocks
      (apply (ContentFilter.includeReplOutput options files) (document, world)) := by
  have follows := @Replay.follows_following options (files world) _ inStep fenced
  have isRun := ContentFilter.overItems_includeReplOutput options files document.content
    ⟨document.references, world⟩
  rw [references] at isRun
  rcases Replay.mapM_cases (ContentFilter.following options (files world) document.references)
      document.references.keys with
    ⟨followings, isFollowing, sameLength, each⟩ | ⟨place, id, cause, isFollowing, isKey, fails, oks⟩
  · rw [isFollowing] at isRun
    simp only [apply, isRun]
    refine .shows followings ?_ ?_
    · rw [sameLength]
      simp [References.keys, References.namedBlocks]
    · intro place following isPlaced
      have inRange : place < document.references.keys.length := by
        rw [← sameLength]
        exact (List.getElem?_eq_some_iff.mp isPlaced).1
      have isKey := List.getElem?_eq_getElem inRange
      have follow := follows isKey
      rwa [each place _ following isKey isPlaced] at follow
  · rw [isFollowing] at isRun
    simp only [apply, isRun]
    apply Document.Replays.fails
    · have follow := follows isKey
      rwa [fails] at follow
    · intro before isBefore other isOther
      rcases oks before isBefore with ⟨earlier, following, isEarlier, isOk⟩
      have follow := follows isEarlier
      rw [isOk] at follow
      cases follow.unique isOther

theorem fenced_ofSegments {page : Text} {segments : List Segment}
    (isCut : Segment.ofPage page = .ok segments) :
    ∀ entry ∈ (ofSegments segments).references.entries, ∃ fence, entry.2.IsFencedBy fence := by
  have sameBlocks : (ofSegments segments).references.entries.map Prod.snd =
      segments.filterMap Segment.block? := by
    have named := congrArg (List.map Prod.snd) (namedBlocks_ofSegments segments)
    rw [References.namedBlocks, List.map_map, Segment.namedBlocks, Block.map_snd_namedFrom] at named
    exact named
  intro entry isEntry
  have isBlock : entry.2 ∈ segments.filterMap Segment.block? := by
    rw [← sameBlocks]
    exact List.mem_map_of_mem isEntry
  rcases List.mem_filterMap.mp isBlock with ⟨_ | block, isSegment, isShown⟩
  · cases isShown
  · cases isShown
    exact (Segment.isFenced_of_ofPage isCut _ isSegment).1

/--
Putting the output of sessions after the blocks of a page shows at each block the command that its
name and its place on the page call for, or fails with the first error in the order of the page.
-/
theorem replays_of_read (options : ContentFilter.ReplOptions) (files : World → FileTree)
    (world : World) {page : Text} {document : Document} (isRead : read page = .ok document) :
    ∃ segments, Segment.ofPage page = .ok segments ∧ document.Shows segments ∧
      document.Replays options files world (Segment.namedBlocks segments)
        (apply (ContentFilter.includeReplOutput options files) (document, world)) := by
  rcases exists_ofPage_of_read isRead with ⟨segments, isCut, rfl⟩
  rcases shows_ofSegments segments with ⟨inStep, each, references⟩
  refine ⟨segments, isCut, ⟨inStep, each, references⟩, ?_⟩
  rw [← namedBlocks_ofSegments]
  apply replays_of_inStep options files world
  · exact inStep
  · exact fenced_ofSegments isCut
  · exact references

end Document

namespace Replay

/-- A page with two names that replay sessions, the first of them going on to its third command. -/
def samplePage : Text :=
  ("``` \x7b.repl #a session=s.x\x7d\n```\n``` \x7b.repl file=b session=t\x7d\n```\n" ++
    "``` \x7b#a\x7d\n```\n  ``` \x7b.repl #a\x7d\r\n  ```\nend").toList

/-- The files of the sessions on the page, each with its record beside it. -/
def sampleFiles : FileTree where
  nodes :=
    [(["s.x".toList], .file []), (["t".toList], .file []),
      (["s.o".toList], .file (Utf8.encode
        ("\x7b\"commands\":[\x7b\"command\":\"\",\"output\":\"one\"\x7d," ++
          "\x7b\"command\":\"\"\x7d," ++
          "\x7b\"command\":\"\",\"output\":\"three\\n\\n3\"\x7d]\x7d").toList)),
      (["t.o".toList], .file (Utf8.encode
        ("\x7b\"commands\":[\x7b\"command\":\"\",\"output_type\":\"image/png\"," ++
          "\"output\":\"two\"\x7d]\x7d").toList))]

/-- What stands on the page with the output of its sessions. -/
def sampleContent : List Content :=
  [.reference ⟨"a".toList, 0⟩, .plainText "\n``` \x7b.text .output\x7d\none\n```".toList,
    .reference ⟨"b".toList, 0⟩, .plainText "\n**unknown MIME type: image/png**".toList,
    .reference ⟨"a".toList, 1⟩, .reference ⟨"a".toList, 2⟩,
    .plainText "\r\n  ``` \x7b.text .output\x7d\r\n  three\r\n\r\n  3\r\n  ```\r".toList,
    .plainText "end".toList]

end Replay

open Replay in
/-- Each block shows the command that is its own, and nothing if that gave nothing. -/
theorem Document.replays_of_read_interleaved :
    ∃ document segments after,
      read samplePage = .ok document ∧ Segment.ofPage samplePage = .ok segments ∧
      document.Replays ⟨[], ".o".toList⟩ (fun files => files) sampleFiles
        (Segment.namedBlocks segments)
        (apply (ContentFilter.includeReplOutput ⟨[], ".o".toList⟩ fun files => files)
          (document, sampleFiles)) ∧
      apply (ContentFilter.includeReplOutput ⟨[], ".o".toList⟩ fun files => files)
        (document, sampleFiles) = .ok () (after, sampleFiles) ∧
      after.content = sampleContent := by
  have isShown : (read samplePage).toOption.bind (fun document =>
      match apply (ContentFilter.includeReplOutput ⟨[], ".o".toList⟩ fun files => files)
        (document, sampleFiles) with
      | .ok _ (after, left) => some (after.content, left)
      | .error _ _ => none) = some (sampleContent, sampleFiles) := by
    decide +kernel
  cases isRead : read samplePage with
  | error cause =>
    rw [isRead] at isShown
    cases isShown
  | ok document =>
    rw [isRead] at isShown
    rcases replays_of_read ⟨[], ".o".toList⟩ (fun files => files) sampleFiles isRead with
      ⟨segments, isCut, _, replays⟩
    simp only [Except.toOption, Option.bind_some] at isShown
    split at isShown
    · rename_i after left isApplied
      rw [Option.some.injEq, Prod.mk.injEq] at isShown
      rcases isShown with ⟨content, rfl⟩
      exact ⟨document, segments, after, rfl, isCut, replays, isApplied, content⟩
    · cases isShown

end LiterateMarkdown
