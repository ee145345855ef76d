import LiterateMarkdown.Proofs.Content.SessionFiles

/-!
# Build outcomes

What a runner answers to a script, and what it does besides, never shows on the page. Two runners on
worlds of their own are handed the same scripts and leave the same page or the same error, as long
as neither changes a file that a session of the page is kept in (`Site.filterPageWith_outcome`).

Line by line this is so because the runner's world takes no part in a run. The passes of the content
chain keep the two workspaces in agreement (`Workspace.Agree`): the blocks and the scripts so far
are the same, and so is what stands at the files of sessions.
-/

namespace LiterateMarkdown

namespace ContentFilter

variable {World Other : Type} {related : Workspace World → Workspace Other → Prop}

/-- Results that are the same up to their workspaces, which are related. -/
inductive SameUpTo (related : Workspace World → Workspace Other → Prop) :
    EStateM.Result FilterError (Workspace World) (List Content) →
      EStateM.Result FilterError (Workspace Other) (List Content) → Prop where
  | ok (items : List Content) {left : Workspace World} {right : Workspace Other}
      (isRelated : related left right) : SameUpTo related (.ok items left) (.ok items right)
  | error (cause : FilterError) {left : Workspace World} {right : Workspace Other}
      (isRelated : related left right) : SameUpTo related (.error cause left) (.error cause right)

/-- Filters that do the same to items in related workspaces. -/
def Simulates (related : Workspace World → Workspace Other → Prop) (filter : ContentFilter World)
    (other : ContentFilter Other) : Prop :=
  ∀ item left right, related left right →
    SameUpTo related (filter item left) (other item right)

theorem SameUpTo.bind {action : EStateM FilterError (Workspace World) (List Content)}
    {other : EStateM FilterError (Workspace Other) (List Content)}
    {next : List Content → EStateM FilterError (Workspace World) (List Content)}
    {nextOther : List Content → EStateM FilterError (Workspace Other) (List Content)}
    {left : Workspace World} {right : Workspace Other}
    (same : SameUpTo related (action left) (other right))
    (nextSame : ∀ items leftAfter rightAfter, related leftAfter rightAfter →
      SameUpTo related (next items leftAfter) (nextOther items rightAfter)) :
    SameUpTo related ((action >>= next) left) ((other >>= nextOther) right) := by
  simp only [Bind.bind, EStateM.bind]
  generalize action left = result at same
  generalize other right = otherResult at same
  cases same with
  | ok items isRelated => exact nextSame items _ _ isRelated
  | error cause isRelated => exact .error cause isRelated

namespace Simulates

variable {filter : ContentFilter World} {other : ContentFilter Other}

theorem overItems (simulates : Simulates related filter other) (content : List Content)
    {left : Workspace World} {right : Workspace Other} (isRelated : related left right) :
    SameUpTo related (filter.overItems content left) (other.overItems content right) := by
  induction content generalizing left right with
  | nil => exact .ok [] isRelated
  | cons item rest ih =>
    apply SameUpTo.bind (simulates item left right isRelated)
    intro produced leftBetween rightBetween betweenRelated
    apply SameUpTo.bind (ih betweenRelated)
    intro later leftAfter rightAfter afterRelated
    exact .ok (produced ++ later) afterRelated

theorem identity : Simulates related ContentFilter.identity ContentFilter.identity := by
  intro item left right isRelated
  exact .ok [item] isRelated

theorem compose {next : ContentFilter World} {nextOther : ContentFilter Other}
    (simulates : Simulates related filter other)
    (nextSimulates : Simulates related next nextOther) :
    Simulates related (filter.compose next) (other.compose nextOther) := by
  intro item left right isRelated
  apply SameUpTo.bind (simulates item left right isRelated)
  intro items leftAfter rightAfter afterRelated
  exact nextSimulates.overItems items afterRelated

theorem composeAll {filters : List (ContentFilter World)} {others : List (ContentFilter Other)}
    (each : List.Forall₂ (Simulates related) filters others) :
    Simulates related (ContentFilter.composeAll filters) (ContentFilter.composeAll others) := by
  have fromFirst : ∀ (first : ContentFilter World) (firstOther : ContentFilter Other),
      Simulates related first firstOther →
        Simulates related (filters.foldl ContentFilter.compose first)
          (others.foldl ContentFilter.compose firstOther) := by
    induction each with
    | nil => exact fun first firstOther simulates => simulates
    | cons next _ ih =>
      intro first firstOther simulates
      exact ih _ _ (simulates.compose next)
  exact fromFirst _ _ identity

/-- Filters that find the same blocks and treat them alike. -/
theorem onBlocks
    {treat : ReferenceId → Block → EStateM FilterError (Workspace World) (List Content)}
    {treatOther : ReferenceId → Block → EStateM FilterError (Workspace Other) (List Content)}
    (sameReferences : ∀ left right, related left right → left.references = right.references)
    (treatSame : ∀ id block left right, related left right →
      left.references.get? id = some block → right.references.get? id = some block →
        SameUpTo related (treat id block left) (treatOther id block right)) :
    Simulates related (ContentFilter.onBlocks fun id => findBlock id >>= treat id)
      (ContentFilter.onBlocks fun id => findBlock id >>= treatOther id) := by
  intro item left right isRelated
  have same := sameReferences left right isRelated
  cases item with
  | plainText text => exact .ok [.plainText text] isRelated
  | reference id =>
    simp only [ContentFilter.onBlocks]
    cases registered : left.references.get? id with
    | none =>
      have missing : right.references.get? id = none := same ▸ registered
      simp only [Bind.bind, EStateM.bind, findBlock_of_missing registered,
        findBlock_of_missing missing]
      exact .error _ isRelated
    | some block =>
      have alsoRegistered : right.references.get? id = some block := same ▸ registered
      rw [bind_of_ok (findBlock_of_registered registered),
        bind_of_ok (findBlock_of_registered alsoRegistered)]
      exact treatSame id block left right isRelated registered alsoRegistered

end Simulates

end ContentFilter

/-- Workspaces with the same blocks, in which the same scripts were run, and whose worlds hold the
same at the files of all sessions. -/
structure Workspace.Agree {World Other : Type} (options : ContentFilter.ReplOptions)
    (paths : List Path) (files : World → FileTree) (otherFiles : Other → FileTree)
    (left : Workspace (List Text × World)) (right : Workspace (List Text × Other)) : Prop where
  sameReferences : left.references = right.references
  sameScripts : left.world.1 = right.world.1
  sameFiles : ∀ path ∈ paths, (files left.world.2).SameAt (otherFiles right.world.2) path
  sessionsIn : left.references.SessionsIn options paths

namespace Workspace.Agree

variable {World Other : Type} {options : ContentFilter.ReplOptions} {paths : List Path}
  {files : World → FileTree} {otherFiles : Other → FileTree}
  {left : Workspace (List Text × World)} {right : Workspace (List Text × Other)}

theorem setBlock (agree : Agree options paths files otherFiles left right) {id : ReferenceId}
    {before after : Block} (registered : left.references.get? id = some before)
    (sameSession : Property.firstValue? after.properties Fence.sessionKey =
      Property.firstValue? before.properties Fence.sessionKey) :
    Agree options paths files otherFiles (left.setBlock id after) (right.setBlock id after) where
  sameReferences := by
    simp only [Workspace.setBlock, agree.sameReferences]
  sameScripts := agree.sameScripts
  sameFiles := agree.sameFiles
  sessionsIn := by
    intro name session isNamed
    rw [ContentFilter.sessionOf?_setBlock registered sameSession] at isNamed
    exact agree.sessionsIn name session isNamed

theorem runScript (agree : Agree options paths files otherFiles left right)
    {runner : BuildRunner World} {other : BuildRunner Other} (keeps : runner.Keeps files paths)
    (otherKeeps : other.Keeps otherFiles paths) (script : Text) :
    Agree options paths files otherFiles
      { left with world := runner.noting.runDetached left.world script }
      { right with world := other.noting.runDetached right.world script } where
  sameReferences := agree.sameReferences
  sameScripts := congrArg (· ++ [script]) agree.sameScripts
  sameFiles := by
    intro path isPath
    have isKept := keeps left.world.2 script path isPath
    have otherKept := otherKeeps right.world.2 script path isPath
    exact (isKept.trans (agree.sameFiles path isPath)).trans otherKept.symm
  sessionsIn := agree.sessionsIn

end Workspace.Agree

namespace ContentFilter

open Workspace (Agree)

variable {World Other : Type} {options : ReplOptions} {paths : List Path}
  {files : World → FileTree} {otherFiles : Other → FileTree}

theorem simulates_addTitle :
    Simulates (Agree options paths files otherFiles) addTitle addTitle := by
  apply Simulates.onBlocks
  · intro left right agree
    exact agree.sameReferences
  · intro id block left right agree registered _
    exact .ok [.reference id] (agree.setBlock registered (session_titledBlock block))

theorem simulates_runBuildArtifacts (filterOptions : FilterOptions) {runner : BuildRunner World}
    {other : BuildRunner Other} (keeps : runner.Keeps files paths)
    (otherKeeps : other.Keeps otherFiles paths) :
    Simulates (Agree options paths files otherFiles)
      (runBuildArtifacts filterOptions runner.noting)
      (runBuildArtifacts filterOptions other.noting) := by
  apply Simulates.onBlocks
  · intro left right agree
    exact agree.sameReferences
  · intro id block left right agree registered _
    simp only [not_isScript_eq]
    cases block.isScript filterOptions with
    | false => exact .ok [.reference id] agree
    | true =>
      have emptied : Agree options paths files otherFiles
          (left.setBlock id { block with source := [] })
          (right.setBlock id { block with source := [] }) :=
        agree.setBlock registered rfl
      -- Whatever the runners answer, both blocks are empty now.
      have ran := emptied.runScript keeps otherKeeps block.dedentedSource
      cases filterOptions.closingFence with
      | verbatim => exact .ok [.reference id] ran
      | suppress => exact .ok [] ran

theorem simulates_includeReplOutput :
    Simulates (Agree options paths files otherFiles)
      (includeReplOutput options fun noted => files noted.2)
      (includeReplOutput options fun noted => otherFiles noted.2) := by
  intro item left right agree
  cases item with
  | plainText text => exact .ok [.plainText text] agree
  | reference id =>
    have sameBlock : right.references.get? id = left.references.get? id := by
      rw [agree.sameReferences]
    have sameSession :
        sessionOf? right.references id.name = sessionOf? left.references id.name := by
      rw [agree.sameReferences]
    rw [includeReplOutput_eq, includeReplOutput_eq,
      following_congr agree.sessionsIn agree.sameFiles sameBlock sameSession]
    cases following options (files left.world.2) left.references id with
    | ok item? => exact .ok _ agree
    | error cause => exact .error cause agree

end ContentFilter

namespace Site

variable {World Other : Type}

/-- The files that the sessions of a page are kept in. -/
def sessionFiles (config : Config) (page : Text) : List Path :=
  match Document.read page with
  | .error _ => []
  | .ok document => document.sessionFiles ⟨config.projectRoot, config.repl.outputSuffix⟩

variable (config : Config) {runner : BuildRunner World} {other : BuildRunner Other}
  {files : World → FileTree} {otherFiles : Other → FileTree}

theorem simulates_chain {paths : List Path} (keeps : runner.Keeps files paths)
    (otherKeeps : other.Keeps otherFiles paths) :
    ContentFilter.Simulates
      (Workspace.Agree ⟨config.projectRoot, config.repl.outputSuffix⟩ paths files otherFiles)
      (chain config runner.noting fun noted => files noted.2)
      (chain config other.noting fun noted => otherFiles noted.2) := by
  apply ContentFilter.Simulates.composeAll
  apply List.Forall₂.cons ContentFilter.simulates_addTitle
  apply List.Forall₂.cons (ContentFilter.simulates_runBuildArtifacts _ keeps otherKeeps)
  apply List.Forall₂.cons ContentFilter.simulates_includeReplOutput
  exact .nil

theorem filterByBlocks_outcome {world : World} {start : Other} {page : Text}
    (sameFiles : ∀ path ∈ sessionFiles config page, (files world).SameAt (otherFiles start) path)
    (keeps : runner.Keeps files (sessionFiles config page))
    (otherKeeps : other.Keeps otherFiles (sessionFiles config page)) :
    ∃ scripts after otherAfter result,
      filterByBlocks config runner.noting (fun noted => files noted.2) ([], world) page =
        ((scripts, after), result) ∧
      filterByBlocks config other.noting (fun noted => otherFiles noted.2) ([], start) page =
        ((scripts, otherAfter), result) := by
  cases isRead : Document.read page with
  | error cause =>
    refine ⟨[], world, start, .error cause, ?_, ?_⟩
    · simp only [filterByBlocks, isRead]
    · simp only [filterByBlocks, isRead]
  | ok document =>
    have areFiles : sessionFiles config page =
        document.sessionFiles ⟨config.projectRoot, config.repl.outputSuffix⟩ := by
      simp only [sessionFiles, isRead]
    rw [areFiles] at sameFiles keeps otherKeeps
    have agree : Workspace.Agree ⟨config.projectRoot, config.repl.outputSuffix⟩
        (document.sessionFiles _) files otherFiles ⟨document.references, [], world⟩
        ⟨document.references, [], start⟩ :=
      ⟨rfl, rfl, sameFiles, document.sessionsIn_sessionFiles _⟩
    have same := (simulates_chain config keeps otherKeeps).overItems document.content agree
    simp only [chain] at same
    simp only [filterByBlocks, isRead, Document.apply]
    generalize ContentFilter.overItems _ document.content
      (⟨document.references, [], world⟩ : Workspace (List Text × World)) = result at same ⊢
    generalize ContentFilter.overItems _ document.content
      (⟨document.references, [], start⟩ : Workspace (List Text × Other)) = otherResult at same ⊢
    cases same with
    | @ok items left right agreeAfter =>
      rcases left with ⟨references, scripts, after⟩
      rcases right with ⟨_, _, otherAfter⟩
      rcases agreeAfter with ⟨rfl, rfl, _, _⟩
      exact ⟨scripts, after, otherAfter, _, rfl, rfl⟩
    | @error cause left right agreeAfter =>
      rcases left with ⟨references, scripts, after⟩
      rcases right with ⟨_, _, otherAfter⟩
      rcases agreeAfter with ⟨rfl, rfl, _, _⟩
      exact ⟨scripts, after, otherAfter, .error cause, rfl, rfl⟩

theorem filterByLines_outcome (runner : BuildRunner World) (other : BuildRunner Other)
    (world : World) (start : Other) (page : Text) :
    ∃ scripts after otherAfter text,
      filterByLines config runner.noting ([], world) page = ((scripts, after), text) ∧
      filterByLines config other.noting ([], start) page = ((scripts, otherAfter), text) := by
  simp only [filterByLines, LineFilter.run_eq, LineFilter.State.initial,
    LineFilter.runScripts_noting, List.nil_append]
  exact ⟨_, _, _, _, rfl, rfl⟩

/--
Two runners are handed the same scripts and leave the same page or the same error, whatever their
worlds and their answers are, if they change no file of the page's sessions.
-/
theorem filterPageWith_outcome (config : Config) (runner : BuildRunner World)
    (other : BuildRunner Other) (files : World → FileTree) (otherFiles : Other → FileTree)
    (world : World) (start : Other) (page : Text)
    (sameFiles : ∀ path ∈ sessionFiles config page, (files world).SameAt (otherFiles start) path)
    (keeps : runner.Keeps files (sessionFiles config page))
    (otherKeeps : other.Keeps otherFiles (sessionFiles config page)) :
    ∃ scripts after otherAfter result,
      filterPageWith config runner.noting (fun noted => files noted.2) ([], world) page =
        ((scripts, after), result) ∧
      filterPageWith config other.noting (fun noted => otherFiles noted.2) ([], start) page =
        ((scripts, otherAfter), result) := by
  simp only [filterPageWith]
  cases config.repl.enabled with
  | true => exact filterByBlocks_outcome config sameFiles keeps otherKeeps
  | false =>
    rcases filterByLines_outcome config runner other world start page with
      ⟨scripts, after, otherAfter, text, isFiltered, otherFiltered⟩
    refine ⟨scripts, after, otherAfter, .ok text, ?_, ?_⟩
    · simp only [isFiltered, Bool.false_eq_true, ↓reduceIte]
    · simp only [otherFiltered, Bool.false_eq_true, ↓reduceIte]

/-- A runner that runs nothing, and one that counts its scripts and refuses each of them. -/
theorem filterPageWith_outcome_refused :
    ∃ config record tree page text,
      config = ({ build := ⟨true, [], [], .verbatim⟩, repl := ⟨true, ".o".toList⟩ } : Config) ∧
      record = "\x7b\"commands\":[\x7b\"command\":\"\",\"output\":\"1\"\x7d]\x7d".toList ∧
      tree = (⟨[(["s".toList], .file []), (["s.o".toList], .file (Utf8.encode record))], []⟩ :
        FileTree) ∧
      page = ("``` \x7b.build-artifact\x7d\nall:\n```\n``` \x7b.repl #a session=s\x7d\n" ++
        "```\n``` \x7b.build-artifact\x7d\nend:\n```").toList ∧
      text = ("```build-artifact\n```\n```repl \x7b#a title=\"#a\"\x7d\n```\n" ++
        "\n``` \x7b.text .output\x7d\n1\n```\n```build-artifact\n```").toList ∧
      filterPageWith config BuildRunner.idle.noting (fun _ => tree) ([], ()) page =
        ((["all:".toList, "end:".toList], ()), .ok text) ∧
      ∃ after, filterPageWith config
          (BuildRunner.noting ⟨fun world _ => ((world.1 + 1, world.2), .error .refused)⟩)
          (fun noted => noted.2.2) ([], (0, tree)) page =
        ((["all:".toList, "end:".toList], (after : Nat × FileTree)), .ok text) := by
  generalize isConfig : ({ build := ⟨true, [], [], .verbatim⟩, repl := ⟨true, ".o".toList⟩ } :
    Config) = config
  generalize isRecord :
    "\x7b\"commands\":[\x7b\"command\":\"\",\"output\":\"1\"\x7d]\x7d".toList = record
  generalize isTree : (⟨[(["s".toList], .file []), (["s.o".toList], .file (Utf8.encode record))],
    []⟩ : FileTree) = tree
  generalize isPage : ("``` \x7b.build-artifact\x7d\nall:\n```\n``` \x7b.repl #a session=s\x7d\n" ++
    "```\n``` \x7b.build-artifact\x7d\nend:\n```").toList = page
  generalize isText : ("```build-artifact\n```\n```repl \x7b#a title=\"#a\"\x7d\n```\n" ++
    "\n``` \x7b.text .output\x7d\n1\n```\n```build-artifact\n```").toList = text
  have isFiltered : filterPageWith config BuildRunner.idle.noting (fun _ => tree) ([], ()) page =
      ((["all:".toList, "end:".toList], ()), .ok text) := by
    subst isConfig isTree isRecord isPage isText
    decide +kernel
  let refusing : BuildRunner (Nat × FileTree) :=
    ⟨fun world _ => ((world.1 + 1, world.2), .error .refused)⟩
  rcases filterPageWith_outcome config .idle refusing (fun _ => tree) Prod.snd () (0, tree) page
      (fun path _ => .refl tree path) (fun _ _ path _ => .refl tree path)
      (fun world _ path _ => .refl world.2 path) with
    ⟨scripts, after, otherAfter, result, isIdle, isRefusing⟩
  rw [isFiltered] at isIdle
  cases isIdle
  exact ⟨config, record, tree, page, text, rfl, rfl, isTree.symm, rfl, rfl, isFiltered, otherAfter,
    isRefusing⟩

end Site

end LiterateMarkdown
