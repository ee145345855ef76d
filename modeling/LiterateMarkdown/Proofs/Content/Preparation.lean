import LiterateMarkdown.Proofs.Content.SessionFiles

/-!
# Preparing blocks

The passes that come before the sessions are shown each keep or drop an item, change no block but
that of the item, and act on the world through scripts alone (`ContentFilter.Prepares`). They find
all blocks that are registered, so they never fail on a document that was read. What they leave of a
workspace still serves for the items that come later (`Workspace.Serves.touches`).
-/

namespace LiterateMarkdown

/-- Whether all references among items lead to blocks. -/
def References.Registers (references : References) (content : List Content) : Prop :=
  ∀ id ∈ content.filterMap Content.reference?, (references.get? id).isSome

theorem References.Registers.sublist {references : References} {content items : List Content}
    (registers : references.Registers content) (sublist : items.Sublist content) :
    references.Registers items := by
  intro id isMem
  exact registers id ((sublist.filterMap Content.reference?).subset isMem)

/-- Items all of whose references lead to blocks can be written. -/
theorem Document.exists_contentLines_of_registers {references : References} {content : List Content}
    (registers : references.Registers content) :
    ∃ lines, contentLines references content = .ok lines := by
  induction content with
  | nil => exact ⟨[], rfl⟩
  | cons item rest ih =>
    rcases ih (registers.sublist (List.sublist_cons_self item rest)) with ⟨later, isRest⟩
    cases item with
    | plainText text => exact ⟨_, contentLines_cons rfl isRest⟩
    | reference id =>
      rcases Option.isSome_iff_exists.mp (registers id List.mem_cons_self) with ⟨block, isBlock⟩
      exact ⟨_, contentLines_cons (lines_of_standsFor (.block isBlock)) isRest⟩

namespace Workspace

variable {World : Type} {runner : BuildRunner World}

/-- What is left of a workspace when blocks `ids` are changed, yet no session, and scripts run. -/
structure Touches (runner : BuildRunner World) (ids : List ReferenceId)
    (before after : Workspace World) : Prop where
  others : ∀ id, id ∉ ids → after.references.get? id = before.references.get? id
  stillRegistered : ∀ id,
    (after.references.get? id).isSome = (before.references.get? id).isSome
  sameSessions : ∀ name, ContentFilter.sessionOf? after.references name =
    ContentFilter.sessionOf? before.references name
  ran : ∃ scripts, after.world = LineFilter.runScripts runner before.world scripts

namespace Touches

variable {ids : List ReferenceId} {before between after : Workspace World}

theorem refl (ids : List ReferenceId) (workspace : Workspace World) :
    Touches runner ids workspace workspace :=
  ⟨fun _ _ => rfl, fun _ => rfl, fun _ => rfl, [], rfl⟩

theorem trans (first : Touches runner ids before between)
    (second : Touches runner ids between after) : Touches runner ids before after where
  others id notMem := (second.others id notMem).trans (first.others id notMem)
  stillRegistered id := (second.stillRegistered id).trans (first.stillRegistered id)
  sameSessions name := (second.sameSessions name).trans (first.sameSessions name)
  ran := by
    rcases first.ran with ⟨scripts, isBetween⟩
    rcases second.ran with ⟨later, isAfter⟩
    refine ⟨scripts ++ later, ?_⟩
    rw [isAfter, isBetween, LineFilter.runScripts_append]

theorem mono {more : List ReferenceId} (touches : Touches runner ids before after)
    (subset : ids ⊆ more) : Touches runner more before after where
  others id notMem := touches.others id fun isMem => notMem (subset isMem)
  stillRegistered := touches.stillRegistered
  sameSessions := touches.sameSessions
  ran := touches.ran

theorem setBlock {workspace : Workspace World} {id : ReferenceId} {old new : Block}
    (registered : workspace.references.get? id = some old)
    (sameSession : Property.firstValue? new.properties Fence.sessionKey =
      Property.firstValue? old.properties Fence.sessionKey) :
    Touches runner [id] workspace (workspace.setBlock id new) where
  others other notMem :=
    workspace.get?_setBlock_of_ne (fun same => notMem (List.mem_singleton.mpr same)) new
  stillRegistered other := by
    by_cases same : other = id
    · rw [same, get?_setBlock_self registered, registered]
      rfl
    · rw [workspace.get?_setBlock_of_ne same]
  sameSessions := ContentFilter.sessionOf?_setBlock registered sameSession
  ran := ⟨[], rfl⟩

theorem runScript (ids : List ReferenceId) (workspace : Workspace World) (script : Text) :
    Touches runner ids workspace
      { workspace with world := runner.runDetached workspace.world script } :=
  ⟨fun _ _ => rfl, fun _ => rfl, fun _ => rfl, [script], rfl⟩

theorem registers {content : List Content} (touches : Touches runner ids before after)
    (registers : before.references.Registers content) : after.references.Registers content := by
  intro id isMem
  rw [touches.stillRegistered]
  exact registers id isMem

end Touches

/-- A workspace for items, the sessions being kept in files. -/
structure Serves (workspace : Workspace World) (options : ContentFilter.ReplOptions)
    (paths : List Path) (content : List Content) : Prop where
  distinct : (content.filterMap Content.reference?).Nodup
  registers : workspace.references.Registers content
  sessionsIn : workspace.references.SessionsIn options paths

namespace Serves

variable {options : ContentFilter.ReplOptions} {paths : List Path} {content rest : List Content}
  {item : Content} {workspace : Workspace World}

theorem sublist {items : List Content} (serves : workspace.Serves options paths content)
    (sublist : items.Sublist content) : workspace.Serves options paths items where
  distinct := serves.distinct.sublist (sublist.filterMap Content.reference?)
  registers := serves.registers.sublist sublist
  sessionsIn := serves.sessionsIn

theorem head (serves : workspace.Serves options paths (item :: rest)) :
    workspace.Serves options paths [item] :=
  serves.sublist (List.singleton_sublist.mpr List.mem_cons_self)

theorem tail (serves : workspace.Serves options paths (item :: rest)) :
    workspace.Serves options paths rest :=
  serves.sublist (List.sublist_cons_self item rest)

theorem touches {ids : List ReferenceId} {after : Workspace World}
    (serves : workspace.Serves options paths content)
    (touches : Touches runner ids workspace after) : after.Serves options paths content where
  distinct := serves.distinct
  registers := touches.registers serves.registers
  sessionsIn := by
    intro name session isNamed
    rw [touches.sameSessions] at isNamed
    exact serves.sessionsIn name session isNamed

theorem not_mem_tail {id : ReferenceId}
    (serves : workspace.Serves options paths (.reference id :: rest)) :
    id ∉ rest.filterMap Content.reference? :=
  (List.nodup_cons.mp serves.distinct).1

end Serves

end Workspace

namespace ContentFilter

open Workspace (Touches)

variable {World : Type} {runner : BuildRunner World}

/-- A filter that keeps or drops each item, touching no block but that of the item. -/
def Prepares (runner : BuildRunner World) (filter : ContentFilter World) : Prop :=
  ∀ item workspace, workspace.references.Registers [item] →
    ∃ items after, filter item workspace = .ok items after ∧ items.Sublist [item] ∧
      Touches runner ([item].filterMap Content.reference?) workspace after

namespace Prepares

variable {filter : ContentFilter World} {content items : List Content}
  {workspace after : Workspace World}

theorem overItems (prepares : Prepares runner filter)
    (registers : workspace.references.Registers content) :
    ∃ items after, filter.overItems content workspace = .ok items after ∧
      items.Sublist content ∧
      Touches runner (content.filterMap Content.reference?) workspace after := by
  induction content generalizing workspace with
  | nil => exact ⟨[], workspace, rfl, .slnil, .refl _ _⟩
  | cons item rest ih =>
    have isHead : [item].Sublist (item :: rest) := List.singleton_sublist.mpr List.mem_cons_self
    have isTail : rest.Sublist (item :: rest) := List.sublist_cons_self item rest
    rcases prepares item workspace (registers.sublist isHead) with
      ⟨items, between, isItem, sublist, touches⟩
    rcases ih (touches.registers (registers.sublist isTail)) with
      ⟨later, after, isLater, laterSublist, touchesLater⟩
    have headIds := (isHead.filterMap Content.reference?).subset
    have tailIds := (isTail.filterMap Content.reference?).subset
    refine ⟨items ++ later, after, ?_, ?_, ?_⟩
    · rw [ContentFilter.overItems, bind_of_ok isItem, bind_of_ok isLater]
      rfl
    · exact sublist.append laterSublist
    · exact (touches.mono headIds).trans (touchesLater.mono tailIds)

theorem of_overItems (prepares : Prepares runner filter)
    (registers : workspace.references.Registers content)
    (isRun : filter.overItems content workspace = .ok items after) :
    items.Sublist content ∧
      Touches runner (content.filterMap Content.reference?) workspace after := by
  rcases prepares.overItems registers with ⟨_, _, isSame, sublist, touches⟩
  rw [isRun] at isSame
  cases isSame
  exact ⟨sublist, touches⟩

theorem of_item (prepares : Prepares runner filter) {item : Content}
    (registers : workspace.references.Registers [item])
    (isRun : filter item workspace = .ok items after) :
    items.Sublist [item] ∧
      Touches runner ([item].filterMap Content.reference?) workspace after := by
  apply prepares.of_overItems registers
  rw [overItems_singleton, isRun]

theorem compose {next : ContentFilter World} (prepares : Prepares runner filter)
    (nextPrepares : Prepares runner next) : Prepares runner (compose filter next) := by
  intro item workspace registers
  rcases prepares item workspace registers with ⟨items, between, isFirst, sublist, touches⟩
  rcases nextPrepares.overItems (touches.registers (registers.sublist sublist)) with
    ⟨left, after, isSecond, laterSublist, touchesLater⟩
  have fewer := (sublist.filterMap Content.reference?).subset
  refine ⟨left, after, ?_, laterSublist.trans sublist, touches.trans (touchesLater.mono fewer)⟩
  rw [compose_of_ok isFirst, isSecond]

end Prepares

theorem prepares_addTitle (runner : BuildRunner World) : Prepares runner addTitle := by
  intro item workspace registers
  cases item with
  | plainText text => exact ⟨_, _, rfl, .refl _, .refl _ _⟩
  | reference id =>
    rcases Option.isSome_iff_exists.mp (registers id List.mem_cons_self) with ⟨block, isBlock⟩
    refine ⟨_, _, addTitle_reference isBlock, .refl _, ?_⟩
    exact .setBlock isBlock (session_titledBlock block)

theorem prepares_runBuildArtifacts (options : FilterOptions) (runner : BuildRunner World) :
    Prepares runner (runBuildArtifacts options runner) := by
  intro item workspace registers
  cases item with
  | plainText text => exact ⟨_, _, rfl, .refl _, .refl _ _⟩
  | reference id =>
    rcases Option.isSome_iff_exists.mp (registers id List.mem_cons_self) with ⟨block, isBlock⟩
    cases isScript : block.isScript options with
    | false =>
      exact ⟨_, _, runBuildArtifacts_reference runner isBlock isScript, .refl _, .refl _ _⟩
    | true =>
      refine ⟨_, _, runBuildArtifacts_script runner isBlock isScript, ?_, ?_⟩
      · cases options.closingFence with
        | verbatim => exact .refl _
        | suppress => exact List.nil_sublist _
      · have emptied : Touches runner [id] workspace
            (workspace.setBlock id { block with source := [] }) := .setBlock isBlock rfl
        exact emptied.trans (.runScript [id] _ block.dedentedSource)

end ContentFilter

end LiterateMarkdown
