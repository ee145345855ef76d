import LiterateMarkdown.Proofs.Content.Composition
import LiterateMarkdown.Proofs.Content.Preparation

/-!
# One run of a chain for many runs of its filters

A chain takes each item through all of its filters before it turns to the next item. Running the
filters over the whole document one after the other gives the same, since a filter may wait on the
items that it is given until the one before it has treated the rest (`ContentFilter.CanWait`):

* a script is run as well when the blocks after it have their titles;
* the output of a session is the same when the scripts after it were run, since nothing that is done
  to later blocks changes a session, and the runner leaves the files of sessions alone.

Only a session that cannot be shown makes a difference. The chain stops there, and the passes have
run the later scripts by then (`Document.apply_composeAll_passes`).
-/

namespace LiterateMarkdown

namespace References

/-- Changes of different blocks commute. -/
theorem modify_comm (references : References) {id other : ReferenceId} (ne : other ≠ id)
    (change otherChange : Block → Block) :
    (references.modify id change).modify other otherChange =
      (references.modify other otherChange).modify id change := by
  simp only [modify, List.map_map, mk.injEq, and_true]
  apply List.map_congr_left
  intro entry _
  by_cases isId : entry.1 = id
  · simp [isId, ne.symm]
  · by_cases isOther : entry.1 = other <;> simp [isId, isOther, ne]

end References

namespace Workspace

variable {World : Type}

theorem setBlock_comm (workspace : Workspace World) {id other : ReferenceId} (ne : other ≠ id)
    (block otherBlock : Block) :
    (workspace.setBlock id block).setBlock other otherBlock =
      (workspace.setBlock other otherBlock).setBlock id block := by
  simp only [setBlock, References.modify_comm workspace.references ne]

end Workspace

namespace ContentFilter

open Workspace (Touches)

variable {World : Type} {runner : BuildRunner World}

/-- Results of two runs, the first of which may stop before scripts that the second one runs. -/
inductive StopsBefore {α : Type} (runner : BuildRunner World) :
    EStateM.Result FilterError (Workspace World) α →
      EStateM.Result FilterError (Workspace World) α → Prop where
  | ok (value : α) (after : Workspace World) :
      StopsBefore runner (.ok value after) (.ok value after)
  | error (cause : FilterError) {stopped after : Workspace World} {scripts : List Text}
      (ran : after.world = LineFilter.runScripts runner stopped.world scripts) :
      StopsBefore runner (.error cause stopped) (.error cause after)

namespace StopsBefore

variable {α β : Type}

theorem refl (result : EStateM.Result FilterError (Workspace World) α) :
    StopsBefore runner result result := by
  cases result with
  | ok value after => exact .ok value after
  | error cause after =>
    have noScript : after.world = LineFilter.runScripts runner after.world [] := rfl
    exact .error cause noScript

theorem trans {first second third : EStateM.Result FilterError (Workspace World) α}
    (stops : StopsBefore runner first second) (stopsLater : StopsBefore runner second third) :
    StopsBefore runner first third := by
  cases stops with
  | ok value after => exact stopsLater
  | error cause ran =>
    cases stopsLater with
    | error _ ranLater =>
      rw [ran, ← LineFilter.runScripts_append] at ranLater
      exact .error cause ranLater

theorem bind {action other : EStateM FilterError (Workspace World) α}
    {next nextOther : α → EStateM FilterError (Workspace World) β} {workspace : Workspace World}
    (stops : StopsBefore runner (action workspace) (other workspace))
    (nextStops : ∀ value after, action workspace = .ok value after →
      StopsBefore runner (next value after) (nextOther value after)) :
    StopsBefore runner ((action >>= next) workspace) ((other >>= nextOther) workspace) := by
  simp only [Bind.bind, EStateM.bind]
  generalize action workspace = result at stops nextStops
  generalize other workspace = otherResult at stops
  cases stops with
  | ok value after => exact nextStops value after rfl
  | error cause ran => exact .error cause ran

end StopsBefore

/-- Run a filter over items, and then the one before it over the rest. -/
def atOnce (first second : ContentFilter World) (items rest : List Content) :
    EStateM FilterError (Workspace World) (List Content × List Content) := do
  let done ← second.overItems items
  let later ← first.overItems rest
  return (done, later)

/-- Run a filter over items once the one before it was run over the rest. -/
def afterRest (first second : ContentFilter World) (items rest : List Content) :
    EStateM FilterError (Workspace World) (List Content × List Content) := do
  let later ← first.overItems rest
  let done ← second.overItems items
  return (done, later)

/-- Whether a filter can wait on items until the one before it has treated the rest. -/
def CanWait (runner : BuildRunner World) (first second : ContentFilter World)
    (items rest : List Content) (workspace : Workspace World) : Prop :=
  StopsBefore runner (atOnce first second items rest workspace)
    (afterRest first second items rest workspace)

/-- If the second of two filters can always wait, then one run does for two. -/
theorem overItems_compose {options : ReplOptions} {paths : List Path}
    {first second : ContentFilter World} (prepares : Prepares runner first)
    (waits : ∀ item rest items (workspace : Workspace World),
      workspace.Serves options paths (item :: rest) → items.Sublist [item] →
        CanWait runner first second items rest workspace)
    (leaves : ∀ items done (workspace after : Workspace World),
      workspace.Serves options paths items → second.overItems items workspace = .ok done after →
        Touches runner (items.filterMap Content.reference?) workspace after)
    {content : List Content} {workspace : Workspace World}
    (serves : workspace.Serves options paths content) :
    StopsBefore runner ((compose first second).overItems content workspace)
      ((first.overItems content >>= second.overItems) workspace) := by
  induction content generalizing workspace with
  | nil => exact .refl _
  | cons item rest ih =>
    have together : (compose first second).overItems (item :: rest) = do
        let items ← first item
        let done ← second.overItems items
        let more ← (compose first second).overItems rest
        return done ++ more := by
      simp only [overItems, compose, bind_assoc]
    have apart : first.overItems (item :: rest) >>= second.overItems = do
        let items ← first item
        let both ← afterRest first second items rest
        let more ← second.overItems both.2
        return both.1 ++ more := by
      simp only [overItems, overItems_append, afterRest, bind_assoc, pure_bind]
    rw [together, apart]
    apply StopsBefore.bind (.refl _)
    intro items between isFirst
    rcases prepares.of_item serves.head.registers isFirst with ⟨sublist, touches⟩
    have servesBetween := serves.touches touches
    have restApart : (do
          let done ← second.overItems items
          let more ← first.overItems rest >>= second.overItems
          return done ++ more) = (do
          let both ← atOnce first second items rest
          let more ← second.overItems both.2
          return both.1 ++ more) := by
      simp only [atOnce, bind_assoc, pure_bind]
    have restLater : StopsBefore runner
        ((do
          let done ← second.overItems items
          let more ← (compose first second).overItems rest
          return done ++ more) between)
        ((do
          let done ← second.overItems items
          let more ← first.overItems rest >>= second.overItems
          return done ++ more) between) := by
      apply StopsBefore.bind (.refl _)
      intro done after isSecond
      have touchesItems := leaves items done between after (servesBetween.head.sublist sublist)
        isSecond
      apply StopsBefore.bind (ih (servesBetween.touches touchesItems).tail)
      intro more last _
      exact .refl _
    rw [restApart] at restLater
    apply restLater.trans
    apply StopsBefore.bind (waits item rest items between servesBetween sublist)
    intro both after _
    exact .refl _

theorem canWait_of_pure {first second : ContentFilter World} {items rest done : List Content}
    (isPure : second.overItems items = pure done) (workspace : Workspace World) :
    CanWait runner first second items rest workspace := by
  simp only [CanWait, atOnce, afterRest, isPure, pure_bind]
  exact .refl _

/-- Titling items goes on alike when another block is changed and the world is another one. -/
theorem overItems_addTitle {content : List Content} {workspace : Workspace World}
    {id : ReferenceId} (registers : workspace.references.Registers content)
    (notMem : id ∉ content.filterMap Content.reference?) :
    ∃ after, addTitle.overItems content workspace = .ok content after ∧
      after.world = workspace.world ∧
      after.references.get? id = workspace.references.get? id ∧
      ∀ (block : Block) (world : World),
        addTitle.overItems content { workspace.setBlock id block with world } =
          .ok content { after.setBlock id block with world } := by
  induction content generalizing workspace with
  | nil => exact ⟨workspace, rfl, rfl, rfl, fun _ _ => rfl⟩
  | cons item rest ih =>
    have restRegisters := registers.sublist (List.sublist_cons_self item rest)
    cases item with
    | plainText text =>
      rcases ih restRegisters notMem with ⟨after, isRun, sameWorld, sameBlock, isOther⟩
      have isKept : ∀ start : Workspace World,
          addTitle (.plainText text) start = .ok [.plainText text] start := by
        intro start
        rfl
      refine ⟨after, ?_, sameWorld, sameBlock, ?_⟩
      · rw [overItems, bind_of_ok (isKept _), bind_of_ok isRun]
        rfl
      · intro block world
        rw [overItems, bind_of_ok (isKept _), bind_of_ok (isOther block world)]
        rfl
    | reference other =>
      have ne : id ≠ other := List.ne_of_not_mem_cons notMem
      have notLater : id ∉ rest.filterMap Content.reference? := List.not_mem_of_not_mem_cons notMem
      rcases Option.isSome_iff_exists.mp (registers other List.mem_cons_self) with
        ⟨before, isBefore⟩
      have touches : Touches BuildRunner.idle [other] workspace
          (workspace.setBlock other (titledBlock before)) :=
        .setBlock isBefore (session_titledBlock before)
      rcases ih (touches.registers restRegisters) notLater with
        ⟨after, isRun, sameWorld, sameBlock, isOther⟩
      refine ⟨after, ?_, sameWorld, ?_, ?_⟩
      · rw [overItems, bind_of_ok (addTitle_reference isBefore), bind_of_ok isRun]
        rfl
      · rw [sameBlock, workspace.get?_setBlock_of_ne ne]
      · intro block world
        have stillBefore : ({ workspace.setBlock id block with world } :
            Workspace World).references.get? other = some before :=
          (workspace.get?_setBlock_of_ne ne.symm block).trans isBefore
        have sameStart : ({ workspace.setBlock id block with world } :
            Workspace World).setBlock other (titledBlock before) =
              { (workspace.setBlock other (titledBlock before)).setBlock id block with world } := by
          rw [← workspace.setBlock_comm ne.symm]
          rfl
        rw [overItems, bind_of_ok (addTitle_reference stillBefore), sameStart,
          bind_of_ok (isOther block world)]
        rfl

/-- A script is run as well when the blocks after it have their titles. -/
theorem canWait_runBuildArtifacts (options : FilterOptions) {replOptions : ReplOptions}
    {paths : List Path} {item : Content} {rest items : List Content} {workspace : Workspace World}
    (serves : workspace.Serves replOptions paths (item :: rest)) (sublist : items.Sublist [item]) :
    CanWait runner addTitle (runBuildArtifacts options runner) items rest workspace := by
  rcases List.sublist_singleton.mp sublist with rfl | rfl
  · exact canWait_of_pure rfl workspace
  cases item with
  | plainText text => exact canWait_of_pure rfl workspace
  | reference id =>
    rcases Option.isSome_iff_exists.mp (serves.registers id List.mem_cons_self) with
      ⟨block, isBlock⟩
    rcases overItems_addTitle serves.tail.registers serves.not_mem_tail with
      ⟨after, isTitled, sameWorld, sameBlock, isOther⟩
    have stillBlock := sameBlock.trans isBlock
    have overOne := overItems_singleton (runBuildArtifacts options runner) (.reference id)
    cases isScript : block.isScript options with
    | false =>
      have first := (overOne workspace).trans (runBuildArtifacts_reference runner isBlock isScript)
      have later := (overOne after).trans (runBuildArtifacts_reference runner stillBlock isScript)
      rw [CanWait, atOnce, afterRest, bind_of_ok first, bind_of_ok isTitled, bind_of_ok isTitled,
        bind_of_ok later]
      exact .refl _
    | true =>
      have first := (overOne workspace).trans (runBuildArtifacts_script runner isBlock isScript)
      have later := (overOne after).trans (runBuildArtifacts_script runner stillBlock isScript)
      rw [sameWorld] at later
      rw [CanWait, atOnce, afterRest, bind_of_ok first, bind_of_ok (isOther _ _),
        bind_of_ok isTitled, bind_of_ok later]
      exact .refl _

/-- A session is shown alike when the rest was prepared, or fails for the same cause. -/
theorem canWait_includeReplOutput {options : ReplOptions} {files : World → FileTree}
    {paths : List Path} (keeps : runner.Keeps files paths) {filter : ContentFilter World}
    (prepares : Prepares runner filter) {item : Content} {rest items : List Content}
    {workspace : Workspace World} (serves : workspace.Serves options paths (item :: rest))
    (sublist : items.Sublist [item]) :
    CanWait runner filter (includeReplOutput options files) items rest workspace := by
  rcases List.sublist_singleton.mp sublist with rfl | rfl
  · exact canWait_of_pure rfl workspace
  cases item with
  | plainText text => exact canWait_of_pure rfl workspace
  | reference id =>
    rcases prepares.overItems serves.tail.registers with ⟨later, after, isLater, _, touches⟩
    rcases touches.ran with ⟨scripts, ran⟩
    have sameFiles : ∀ path ∈ paths, (files workspace.world).SameAt (files after.world) path := by
      intro path isPath
      rw [ran]
      exact (keeps.runScripts workspace.world scripts path isPath).symm
    have sameFollowing := following_congr serves.sessionsIn sameFiles
      (touches.others id serves.not_mem_tail) (touches.sameSessions id.name)
    have overOne := overItems_singleton (includeReplOutput options files) (.reference id)
    have first := (overOne workspace).trans (includeReplOutput_eq options files id workspace)
    have second := (overOne after).trans (includeReplOutput_eq options files id after)
    rw [sameFollowing] at second
    cases isFollowing : following options (files workspace.world) workspace.references id with
    | ok item? =>
      simp only [isFollowing] at first second
      rw [CanWait, atOnce, afterRest, bind_of_ok first, bind_of_ok isLater, bind_of_ok isLater,
        bind_of_ok second]
      exact .refl _
    | error cause =>
      simp only [isFollowing] at first second
      -- The scripts of the rest are run only if the filter waits.
      have stopped : StopsBefore runner
          (.error cause workspace : EStateM.Result _ _ (List Content × List Content))
          (.error cause after) := .error cause ran
      rw [CanWait, atOnce, afterRest, bind_of_ok isLater]
      simpa only [bind, EStateM.bind, first, second] using stopped

/-- What is put after a reference is text. -/
theorem reference?_of_following {options : ReplOptions} {files : FileTree}
    {references : References} {id : ReferenceId} {item : Content}
    (isFollowing : following options files references id = .ok (some item)) :
    item.reference? = none := by
  simp only [following] at isFollowing
  cases registered : references.get? id with
  | none =>
    rw [registered] at isFollowing
    contradiction
  | some block =>
    simp only [registered] at isFollowing
    split at isFollowing
    · cases isFollowing
    cases isCommand : recordedCommand options files references id with
    | error cause =>
      rw [isCommand] at isFollowing
      contradiction
    | ok command =>
      rw [isCommand] at isFollowing
      have isItem := Except.ok.inj isFollowing
      rcases Option.map_eq_some_iff.mp isItem with ⟨output, _, rfl⟩
      rfl

/-- Sessions are read: nothing is changed, and no reference is added or taken. -/
theorem of_overItems_includeReplOutput {options : ReplOptions} {files : World → FileTree}
    {content items : List Content} {workspace after : Workspace World}
    (isRun : (includeReplOutput options files).overItems content workspace = .ok items after) :
    after = workspace ∧
      items.filterMap Content.reference? = content.filterMap Content.reference? := by
  induction content generalizing items workspace with
  | nil =>
    cases isRun
    exact ⟨rfl, rfl⟩
  | cons item rest ih =>
    rcases exists_of_overItems_cons isRun with ⟨produced, between, later, isItem, isRest, rfl⟩
    rcases ih isRest with ⟨rfl, sameRest⟩
    cases item with
    | plainText text =>
      cases isItem
      exact ⟨rfl, sameRest⟩
    | reference id =>
      rw [includeReplOutput_eq] at isItem
      cases isFollowing : following options (files workspace.world) workspace.references id with
      | error cause =>
        rw [isFollowing] at isItem
        contradiction
      | ok item? =>
        rw [isFollowing] at isItem
        cases isItem
        refine ⟨rfl, ?_⟩
        rw [List.filterMap_append, sameRest]
        cases item? with
        | none => rfl
        | some item =>
          have noReference := reference?_of_following isFollowing
          simp only [Option.toList_some, List.filterMap_cons, List.filterMap_nil, noReference]
          rfl

/-- The passes that make up the content chain. -/
def passes (options : FilterOptions) (replOptions : ReplOptions) (runner : BuildRunner World)
    (files : World → FileTree) : List (ContentFilter World) :=
  [addTitle, runBuildArtifacts options runner, includeReplOutput replOptions files]

section

variable (options : FilterOptions) {replOptions : ReplOptions} {files : World → FileTree}
  {paths : List Path} {content : List Content} {workspace : Workspace World}

theorem inTurn_passes :
    inTurn (passes options replOptions runner files) content =
      (addTitle.overItems content >>= (runBuildArtifacts options runner).overItems) >>=
        (includeReplOutput replOptions files).overItems := by
  simp only [inTurn, passes, List.foldlM_cons, List.foldlM_nil, bind_pure, bind_assoc]

/-- Titles are given and scripts are run block by block, or one after the other. -/
theorem overItems_compose_addTitle (serves : workspace.Serves replOptions paths content) :
    StopsBefore runner
      ((compose addTitle (runBuildArtifacts options runner)).overItems content workspace)
      ((addTitle.overItems content >>= (runBuildArtifacts options runner).overItems)
        workspace) := by
  apply overItems_compose (prepares_addTitle runner) _ _ serves
  · intro item rest items workspace serves sublist
    exact canWait_runBuildArtifacts options serves sublist
  · intro items done workspace after serves isBuilt
    exact ((prepares_runBuildArtifacts options runner).of_overItems serves.registers isBuilt).2

/-- One run of the chain does for one run of each pass. -/
theorem overItems_composeAll_passes (keeps : runner.Keeps files paths)
    (serves : workspace.Serves replOptions paths content) :
    StopsBefore runner
      ((composeAll (passes options replOptions runner files)).overItems content workspace)
      (inTurn (passes options replOptions runner files) content workspace) := by
  let prepare : ContentFilter World := compose addTitle (runBuildArtifacts options runner)
  have isChain : composeAll (passes options replOptions runner files) =
      compose prepare (includeReplOutput replOptions files) := by
    simp only [composeAll, passes, List.foldl_cons, List.foldl_nil, compose_identity, prepare]
  have prepares : Prepares runner prepare :=
    (prepares_addTitle runner).compose (prepares_runBuildArtifacts options runner)
  have showsLater : StopsBefore runner
      ((compose prepare (includeReplOutput replOptions files)).overItems content workspace)
      ((prepare.overItems content >>= (includeReplOutput replOptions files).overItems)
        workspace) := by
    apply overItems_compose prepares _ _ serves
    · intro item rest items workspace serves sublist
      exact canWait_includeReplOutput keeps prepares serves sublist
    · intro items done workspace after _ isShown
      rcases of_overItems_includeReplOutput isShown with ⟨rfl, _⟩
      exact .refl _ after
  rw [isChain, inTurn_passes]
  apply showsLater.trans
  apply StopsBefore.bind (overItems_compose_addTitle options serves)
  intro items after _
  exact .refl _

theorem registers_of_inTurn_passes {items : List Content} {after : Workspace World}
    (serves : workspace.Serves replOptions paths content)
    (isRun : inTurn (passes options replOptions runner files) content workspace =
      .ok items after) :
    after.references.Registers items := by
  rcases (prepares_addTitle runner).overItems serves.registers with
    ⟨titled, between, isTitled, titledSublist, touches⟩
  have servesTitled := (serves.touches touches).sublist titledSublist
  rcases (prepares_runBuildArtifacts options runner).overItems servesTitled.registers with
    ⟨kept, last, isBuilt, keptSublist, touchesLater⟩
  have servesKept := (servesTitled.touches touchesLater).sublist keptSublist
  rw [inTurn_passes, bind_assoc, bind_of_ok isTitled, bind_of_ok isBuilt] at isRun
  rcases of_overItems_includeReplOutput isRun with ⟨rfl, sameReferences⟩
  rw [References.Registers, sameReferences]
  exact servesKept.registers

end

end ContentFilter

namespace Document

variable {World : Type}

/--
Two runs over a document that end alike: with one document, which can be written, after the same
scripts, or for the same cause, the first run being handed only the first ones of the scripts.
-/
inductive EndsAlike : EStateM.Result FilterError (Document × List Text × World) Unit →
    EStateM.Result FilterError (Document × List Text × World) Unit → Prop where
  | ok {after : Document} {text : Text} (noted : List Text × World)
      (isWritten : after.render = .ok text) :
      EndsAlike (.ok () (after, noted)) (.ok () (after, noted))
  | error (cause : FilterError) {left right : Document} {noted others : List Text × World}
      (isFirst : noted.1 <+: others.1) :
      EndsAlike (.error cause (left, noted)) (.error cause (right, others))

/--
Running the chain over a page gives what running its passes one after the other gives, whatever the
runner does besides the files of sessions.
-/
theorem apply_composeAll_passes (options : FilterOptions) (replOptions : ContentFilter.ReplOptions)
    (runner : BuildRunner World) (files : World → FileTree) (world : World) {page : Text}
    {document : Document} (isRead : read page = .ok document)
    (keeps : runner.Keeps files (document.sessionFiles replOptions)) :
    EndsAlike
      (apply (ContentFilter.composeAll (ContentFilter.passes options replOptions runner.noting
        fun noted => files noted.2)) (document, [], world))
      ((ContentFilter.passes options replOptions runner.noting fun noted => files noted.2).forM
        apply (document, [], world)) := by
  let start : Workspace (List Text × World) := ⟨document.references, [], world⟩
  have serves : start.Serves replOptions (document.sessionFiles replOptions) document.content := by
    have sessionsIn := document.sessionsIn_sessionFiles replOptions
    rcases exists_ofPage_of_read isRead with ⟨segments, _, rfl⟩
    have shows := shows_ofSegments segments
    exact ⟨shows.nodup_references, fun id => shows.mem_references_iff.mp, sessionsIn⟩
  have stops := ContentFilter.overItems_composeAll_passes options keeps.noting serves
  rw [apply_eq, forM_apply]
  cases isRun : ContentFilter.inTurn (ContentFilter.passes options replOptions runner.noting
      fun noted => files noted.2) document.content start with
  | ok items after =>
    rw [isRun] at stops
    have registers := ContentFilter.registers_of_inTurn_passes options serves isRun
    rcases exists_contentLines_of_registers registers with ⟨lines, areLines⟩
    generalize ContentFilter.overItems _ document.content _ = fused at stops ⊢
    cases stops
    apply EndsAlike.ok
    · simp only [render, areLines, bind, Except.bind]
      rfl
  | error cause after =>
    rw [isRun] at stops
    generalize ContentFilter.overItems _ document.content _ = fused at stops ⊢
    cases stops with
    | @error _ stopped _ scripts ran =>
      rcases stopped with ⟨references, noted, stoppedWorld⟩
      apply EndsAlike.error
      rw [ran, LineFilter.runScripts_noting]
      exact List.prefix_append noted scripts

/-- A runner that refuses its scripts, and a session that ends before the second one. -/
theorem apply_composeAll_passes_missing :
    ∃ page record tree runner document,
      page = ("``` \x7b.build-artifact\x7d\nall:\n```\n``` \x7b.repl #a session=s\x7d\n" ++
        "```\n``` \x7b.repl #a\x7d\n```\n``` \x7b.build-artifact\x7d\nend:\n```\n").toList ∧
      record = "\x7b\"commands\":[\x7b\"command\":\"\",\"output\":\"1\"\x7d]\x7d".toList ∧
      tree = (⟨[(["s".toList], .file []), (["s.o".toList], .file (Utf8.encode record))], []⟩ :
        FileTree) ∧
      runner = (⟨fun world _ => ((world.1 + 1, world.2), .error .refused)⟩ :
        BuildRunner (Nat × FileTree)) ∧
      read page = .ok document ∧
      EndsAlike
        (apply (ContentFilter.composeAll (ContentFilter.passes ⟨true, .suppress⟩ ⟨[], ".o".toList⟩
          runner.noting fun noted => noted.2.2)) (document, [], (0, tree)))
        ((ContentFilter.passes ⟨true, .suppress⟩ ⟨[], ".o".toList⟩ runner.noting
          fun noted => noted.2.2).forM apply (document, [], (0, tree))) := by
  generalize isPage : ("``` \x7b.build-artifact\x7d\nall:\n```\n``` \x7b.repl #a session=s\x7d\n" ++
    "```\n``` \x7b.repl #a\x7d\n```\n``` \x7b.build-artifact\x7d\nend:\n```\n").toList = page
  have readable : (read page).isOk := by
    subst isPage
    decide +kernel
  cases isRead : read page with
  | error cause =>
    rw [isRead] at readable
    contradiction
  | ok document =>
    let runner : BuildRunner (Nat × FileTree) :=
      ⟨fun world _ => ((world.1 + 1, world.2), .error .refused)⟩
    have keeps : runner.Keeps Prod.snd (document.sessionFiles ⟨[], ".o".toList⟩) :=
      fun world _ path _ => .refl world.2 path
    refine ⟨page, _, _, runner, document, rfl, rfl, rfl, rfl, isRead, ?_⟩
    exact apply_composeAll_passes ⟨true, .suppress⟩ ⟨[], ".o".toList⟩ runner Prod.snd (0, _) isRead
      keeps

end Document

end LiterateMarkdown
