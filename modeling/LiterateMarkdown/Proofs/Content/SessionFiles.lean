import LiterateMarkdown.Proofs.Content.Replay

/-!
# The files of sessions

What a block shows of a session depends on the session that its name names, and on what stands at
two paths: at that of the session, and at that of its record. A runner may change any other file
(`BuildRunner.Keeps`). The passes that run before change blocks and never a session
(`ContentFilter.sessionOf?_setBlock`), so they change nothing that is read later
(`ContentFilter.following_congr`).
-/

namespace LiterateMarkdown

/-- Whether the same stands at a path in two trees. -/
structure FileTree.SameAt (left right : FileTree) (path : Path) : Prop where
  sameExistence : left.pathExists path = right.pathExists path
  sameContent : left.readBytes path = right.readBytes path

namespace FileTree.SameAt

variable {left between right : FileTree} {path : Path}

theorem refl (tree : FileTree) (path : Path) : tree.SameAt tree path :=
  ⟨rfl, rfl⟩

theorem symm (same : left.SameAt right path) : right.SameAt left path :=
  ⟨same.sameExistence.symm, same.sameContent.symm⟩

theorem trans (first : left.SameAt between path) (second : between.SameAt right path) :
    left.SameAt right path :=
  ⟨first.sameExistence.trans second.sameExistence, first.sameContent.trans second.sameContent⟩

end FileTree.SameAt

/-- A runner that leaves what stands at the given paths. -/
def BuildRunner.Keeps {World : Type} (runner : BuildRunner World) (files : World → FileTree)
    (paths : List Path) : Prop :=
  ∀ world script, ∀ path ∈ paths,
    (files (runner.runDetached world script)).SameAt (files world) path

namespace BuildRunner.Keeps

variable {World : Type} {runner : BuildRunner World} {files : World → FileTree} {paths : List Path}

theorem noting (keeps : runner.Keeps files paths) :
    runner.noting.Keeps (fun noted => files noted.2) paths :=
  fun noted script => keeps noted.2 script

theorem runScripts (keeps : runner.Keeps files paths) (world : World) (scripts : List Text) :
    ∀ path ∈ paths,
      (files (LineFilter.runScripts runner world scripts)).SameAt (files world) path := by
  intro path isPath
  induction scripts generalizing world with
  | nil => exact .refl (files world) path
  | cons script rest ih =>
    exact (ih (runner.runDetached world script)).trans (keeps world script path isPath)

end BuildRunner.Keeps

/-- The files that the session of a block is kept in, if the block names one. -/
def Block.sessionFiles (options : ContentFilter.ReplOptions) (block : Block) : List Path :=
  match Property.firstValue? block.properties Fence.sessionKey with
  | none => []
  | some session => [Replay.sessionPath options session, Replay.recordPath options session]

/-- The files that the sessions of a document are kept in. -/
def Document.sessionFiles (options : ContentFilter.ReplOptions) (document : Document) : List Path :=
  document.references.entries.flatMap fun entry => entry.2.sessionFiles options

/-- Blocks whose sessions are kept in the given files. -/
def References.SessionsIn (options : ContentFilter.ReplOptions) (paths : List Path)
    (references : References) : Prop :=
  ∀ name session, ContentFilter.sessionOf? references name = some session →
    Replay.sessionPath options session ∈ paths ∧ Replay.recordPath options session ∈ paths

theorem Document.sessionsIn_sessionFiles (options : ContentFilter.ReplOptions)
    (document : Document) :
    document.references.SessionsIn options (document.sessionFiles options) := by
  intro name session isNamed
  simp only [ContentFilter.sessionOf?, bind, Option.bind_eq_some_iff] at isNamed
  rcases isNamed with ⟨first, _, block, registered, isSession⟩
  have isEntry := References.mem_entries_of_get? registered
  have areFiles : block.sessionFiles options =
      [Replay.sessionPath options session, Replay.recordPath options session] := by
    simp only [Block.sessionFiles, isSession]
  constructor
  · exact List.mem_flatMap.mpr ⟨(first, block), isEntry, by simp [areFiles]⟩
  · exact List.mem_flatMap.mpr ⟨(first, block), isEntry, by simp [areFiles]⟩

namespace ContentFilter

variable {World : Type}

@[simp]
theorem session_titledBlock (block : Block) :
    Property.firstValue? (titledBlock block).properties Fence.sessionKey =
      Property.firstValue? block.properties Fence.sessionKey :=
  Fence.firstValue?_withTitle block.properties (by decide)

/-- A block in place of one with the same session changes the session of no name. -/
theorem sessionOf?_setBlock {workspace : Workspace World} {id : ReferenceId} {before after : Block}
    (registered : workspace.references.get? id = some before)
    (sameSession : Property.firstValue? after.properties Fence.sessionKey =
      Property.firstValue? before.properties Fence.sessionKey) (name : Text) :
    sessionOf? (workspace.setBlock id after).references name =
      sessionOf? workspace.references name := by
  have sameNamed : (workspace.setBlock id after).references.named name =
      workspace.references.named name :=
    References.named_modify workspace.references id _ name
  simp only [sessionOf?, sameNamed]
  cases (workspace.references.named name).head? with
  | none => rfl
  | some first =>
    by_cases same : first = id
    · subst same
      simp only [bind, Option.bind, registered, Workspace.get?_setBlock_self registered after,
        sameSession]
    · simp only [bind, Option.bind, Workspace.get?_setBlock_of_ne workspace same after]

/-- A recorded command is found by the session and by what stands at its files. -/
theorem recordedCommand_congr {options : ReplOptions} {files other : FileTree}
    {references after : References} {paths : List Path}
    (within : references.SessionsIn options paths)
    (sameFiles : ∀ path ∈ paths, files.SameAt other path) {id : ReferenceId}
    (sameSession : sessionOf? after id.name = sessionOf? references id.name) :
    recordedCommand options other after id = recordedCommand options files references id := by
  simp only [recordedCommand, sameSession]
  cases isNamed : sessionOf? references id.name with
  | none => rfl
  | some session =>
    rcases within id.name session isNamed with ⟨isFile, isRecord⟩
    have sameFile := sameFiles _ isFile
    have sameRecord := sameFiles _ isRecord
    have isPath : Path.append options.projectRoot session =
        Replay.sessionPath options session := rfl
    have isOutput : Session.outputPath (Replay.sessionPath options session)
        options.outputSuffix = Replay.recordPath options session := rfl
    simp only [isPath, isOutput, Session.load, sameFile.sameExistence, sameRecord.sameExistence,
      sameRecord.sameContent]

/-- What is put after a reference depends on its block, its session and the session's files. -/
theorem following_congr {options : ReplOptions} {files other : FileTree}
    {references after : References} {paths : List Path}
    (within : references.SessionsIn options paths)
    (sameFiles : ∀ path ∈ paths, files.SameAt other path) {id : ReferenceId}
    (sameBlock : after.get? id = references.get? id)
    (sameSession : sessionOf? after id.name = sessionOf? references id.name) :
    following options other after id = following options files references id := by
  simp only [following, sameBlock, recordedCommand_congr within sameFiles sameSession]

end ContentFilter

end LiterateMarkdown
