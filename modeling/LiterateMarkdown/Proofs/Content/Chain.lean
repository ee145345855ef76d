import LiterateMarkdown.Proofs.Document.Regions
import LiterateMarkdown.Proofs.Fence.Rendering
import LiterateMarkdown.Proofs.LineFilter.Scan
import LiterateMarkdown.Site.Hooks

/-!
# The content chain over a document

Each pass does one thing to the block that an item refers to, and leaves all others alone. So the
chain can be followed item by item: what it makes of a segment depends on that segment only
(`Segment.shown`, `Segment.scripts`), as long as no block shows a recorded session.
-/

namespace LiterateMarkdown

/-- Whether the block's body is a script that is to be run. -/
def Block.isScript (options : FilterOptions) (block : Block) : Bool :=
  options.buildArtifacts && Property.hasClass block.properties Fence.buildArtifactClass

@[simp]
theorem Block.isScript_with_closeLine (options : FilterOptions) (block : Block) (closeLine : Text) :
    { block with closeLine }.isScript options = block.isScript options :=
  rfl

@[simp]
theorem Block.isScript_with_source (options : FilterOptions) (block : Block) (source : List Text) :
    { block with source }.isScript options = block.isScript options :=
  rfl

/-- The lines that are left of a segment. -/
def Segment.shown (options : FilterOptions) : Segment → List Text
  | .line text => [text]
  | .block current =>
    let titled := ContentFilter.titledBlock current
    if current.isScript options then
      LineFilter.fenceLines options.closingFence titled.openLine ++
        LineFilter.fenceLines options.closingFence titled.closeLine
    else titled.lines

@[simp]
theorem Segment.flatMap_shown_map_line (options : FilterOptions) (texts : List Text) :
    (texts.map line).flatMap (shown options) = texts := by
  simp [List.flatMap_map, shown]

/-- The scripts that a segment holds. -/
def Segment.scripts (options : FilterOptions) : Segment → List Text
  | .line _ => []
  | .block current => if current.isScript options then [current.dedentedSource] else []

/-- Whether the segment shows a recorded session. -/
def Segment.showsSession : Segment → Bool
  | .line _ => false
  | .block current => Property.hasClass current.properties Fence.replClass

namespace Workspace

variable {World : Type}

/-- Put a block in place of the one that a reference leads to. -/
def setBlock (workspace : Workspace World) (id : ReferenceId) (block : Block) : Workspace World :=
  { workspace with references := workspace.references.modify id fun _ => block }

theorem get?_setBlock_self {workspace : Workspace World} {id : ReferenceId} {before : Block}
    (registered : workspace.references.get? id = some before) (block : Block) :
    (workspace.setBlock id block).references.get? id = some block := by
  simp only [setBlock, References.get?_modify_self, registered, Option.map_some]

theorem get?_setBlock_of_ne (workspace : Workspace World) {id other : ReferenceId} (ne : other ≠ id)
    (block : Block) :
    (workspace.setBlock id block).references.get? other = workspace.references.get? other :=
  References.get?_modify_of_ne workspace.references ne _

end Workspace

/-- Items stand for the same segments as long as the blocks they refer to stay as they are. -/
theorem Content.standsFor_of_agrees {before after : References} {content : List Content}
    {segments : List Segment}
    (each : List.Forall₂ (Content.StandsFor before) content segments)
    (agrees : ∀ id ∈ content.filterMap Content.reference?, after.get? id = before.get? id) :
    List.Forall₂ (Content.StandsFor after) content segments := by
  induction each with
  | nil => exact .nil
  | cons stands _ ih =>
    cases stands with
    | line text => exact .cons (.line text) (ih agrees)
    | @block id block registered =>
      have agreesRest := fun other isMem => agrees other (List.mem_cons_of_mem id isMem)
      exact .cons (.block ((agrees id List.mem_cons_self).trans registered)) (ih agreesRest)

namespace ContentFilter

variable {World : Type} {workspace : Workspace World} {id : ReferenceId} {block : Block}

theorem openLine_titledBlock {fence : OpenFence} (fenced : block.IsFencedBy fence) :
    (titledBlock block).openLine = Fence.titledLine fence block.properties := by
  rw [Fence.titledLine, ← fenced.sameIndent, ← fenced.sameEnding]
  rfl

@[simp]
theorem hasClass_titledBlock (block : Block) (name : Text) :
    Property.hasClass (titledBlock block).properties name =
      Property.hasClass block.properties name :=
  Fence.hasClass_withTitle block.properties name

@[simp]
theorem isScript_titledBlock (options : FilterOptions) (block : Block) :
    (titledBlock block).isScript options = block.isScript options := by
  simp only [Block.isScript, hasClass_titledBlock]

theorem overItems_singleton (filter : ContentFilter World) (item : Content)
    (workspace : Workspace World) : filter.overItems [item] workspace = filter item workspace := by
  simp [overItems]

theorem bind_of_ok {α β : Type} {action : EStateM FilterError (Workspace World) α} {value : α}
    {after : Workspace World} (done : action workspace = .ok value after)
    (next : α → EStateM FilterError (Workspace World) β) :
    (action >>= next) workspace = next value after := by
  simp only [bind, EStateM.bind, done]

theorem exists_of_bind_eq_ok {α β : Type} {action : EStateM FilterError (Workspace World) α}
    {next : α → EStateM FilterError (Workspace World) β} {value : β} {after : Workspace World}
    (done : (action >>= next) workspace = .ok value after) :
    ∃ first between, action workspace = .ok first between ∧
      next first between = .ok value after := by
  simp only [bind, EStateM.bind] at done
  cases isFirst : action workspace with
  | error cause stopped =>
    rw [isFirst] at done
    contradiction
  | ok first between =>
    rw [isFirst] at done
    exact ⟨first, between, rfl, done⟩

theorem findBlock_of_registered (registered : workspace.references.get? id = some block) :
    findBlock id workspace = .ok block workspace := by
  have isState : (get : EStateM FilterError (Workspace World) (Workspace World)) workspace =
      .ok workspace workspace := rfl
  rw [findBlock, bind_of_ok isState]
  simp only [registered]
  rfl

theorem findBlock_of_missing (missing : workspace.references.get? id = none) :
    findBlock id workspace = .error (.unknownReference id) workspace := by
  have isState : (get : EStateM FilterError (Workspace World) (Workspace World)) workspace =
      .ok workspace workspace := rfl
  rw [findBlock, bind_of_ok isState]
  simp only [missing]
  rfl

theorem addTitle_reference (registered : workspace.references.get? id = some block) :
    addTitle (.reference id) workspace =
      .ok [.reference id] (workspace.setBlock id (titledBlock block)) := by
  rw [addTitle, onBlocks, bind_of_ok (findBlock_of_registered registered)]
  rfl

/-- The test by which the pass leaves a block alone. -/
theorem not_isScript_eq (options : FilterOptions) (block : Block) :
    (!options.buildArtifacts || !Property.hasClass block.properties Fence.buildArtifactClass) =
      !block.isScript options :=
  (Bool.not_and ..).symm

theorem runBuildArtifacts_reference {options : FilterOptions} (runner : BuildRunner World)
    (registered : workspace.references.get? id = some block)
    (notScript : block.isScript options = false) :
    runBuildArtifacts options runner (.reference id) workspace = .ok [.reference id] workspace := by
  rw [runBuildArtifacts, onBlocks, bind_of_ok (findBlock_of_registered registered)]
  simp only [not_isScript_eq, notScript, Bool.not_false, ↓reduceIte]
  rfl

/-- The items that are left of a reference to a script. -/
def keptReference (closingFence : ClosingFence) (id : ReferenceId) : List Content :=
  match closingFence with
  | .verbatim => [.reference id]
  | .suppress => []

theorem runBuildArtifacts_script {options : FilterOptions} (runner : BuildRunner World)
    (registered : workspace.references.get? id = some block) (isScript : block.isScript options) :
    runBuildArtifacts options runner (.reference id) workspace =
      .ok (keptReference options.closingFence id)
        { workspace.setBlock id { block with source := [] } with
          world := runner.runDetached workspace.world block.dedentedSource } := by
  rw [runBuildArtifacts, onBlocks, bind_of_ok (findBlock_of_registered registered)]
  simp only [not_isScript_eq, isScript, Bool.not_true, Bool.false_eq_true, ↓reduceIte]
  cases options.closingFence <;> rfl

theorem includeReplOutput_reference (options : ReplOptions) (files : World → FileTree)
    (registered : workspace.references.get? id = some block)
    (noSession : Property.hasClass block.properties Fence.replClass = false) :
    includeReplOutput options files (.reference id) workspace = .ok [.reference id] workspace := by
  rw [includeReplOutput, onBlocks, bind_of_ok (findBlock_of_registered registered)]
  simp only [noSession, Bool.not_false, ↓reduceIte]
  rfl

theorem compose_of_ok {first : ContentFilter World} {item : Content} {items : List Content}
    {after : Workspace World} (done : first item workspace = .ok items after)
    (second : ContentFilter World) :
    compose first second item workspace = second.overItems items after :=
  bind_of_ok done _

end ContentFilter

/--
What a filter makes of items that refer to the blocks `ids`: it changes no other block, and whatever
becomes of the other blocks, `items` are what is left of them and stand for `lines`.
-/
structure Leaves (before after : References) (ids : List ReferenceId) (items : List Content)
    (lines : List Text) : Prop where
  others : ∀ id, id ∉ ids → after.get? id = before.get? id
  shown : ∀ later : References, (∀ id ∈ ids, later.get? id = after.get? id) →
    Document.contentLines later items = .ok lines

namespace Leaves

theorem nil (references : References) : Leaves references references [] [] [] where
  others _ _ := rfl
  shown _ _ := rfl

theorem block {before after : References} {id : ReferenceId} {block : Block}
    (others : ∀ other, other ≠ id → after.get? other = before.get? other)
    (registered : after.get? id = some block) :
    Leaves before after [id] [.reference id] block.lines where
  others other notMem := others other fun same => notMem (List.mem_singleton.mpr same)
  shown later agrees := by
    have stillThere : later.get? id = some block :=
      (agrees id List.mem_cons_self).trans registered
    have itemLines := Document.lines_of_standsFor (.block stillThere)
    have noRest : Document.contentLines later [] = .ok [] := rfl
    have allLines := Document.contentLines_cons itemLines noRest
    rwa [List.append_nil] at allLines

theorem nothing {before after : References} {id : ReferenceId}
    (others : ∀ other, other ≠ id → after.get? other = before.get? other) :
    Leaves before after [id] [] [] where
  others other notMem := others other fun same => notMem (List.mem_singleton.mpr same)
  shown _ _ := rfl

theorem append {before between after : References} {ids laterIds : List ReferenceId}
    {items laterItems : List Content} {lines laterLines : List Text}
    (first : Leaves before between ids items lines)
    (second : Leaves between after laterIds laterItems laterLines)
    (distinct : ids.Disjoint laterIds) :
    Leaves before after (ids ++ laterIds) (items ++ laterItems) (lines ++ laterLines) where
  others id notMem := by
    rw [List.mem_append, not_or] at notMem
    rw [second.others id notMem.2, first.others id notMem.1]
  shown later agrees := by
    have firstLines : Document.contentLines later items = .ok lines := by
      refine first.shown later fun id isMem => ?_
      rw [agrees id (List.mem_append_left laterIds isMem), second.others id (distinct isMem)]
    have secondLines : Document.contentLines later laterItems = .ok laterLines :=
      second.shown later fun id isMem => agrees id (List.mem_append_right ids isMem)
    exact Document.contentLines_append firstLines secondLines

end Leaves

namespace Site

variable {World : Type} (config : Config) (runner : BuildRunner World) (files : World → FileTree)

/-- What the content chain makes of an item. -/
def chain : ContentFilter World :=
  ContentFilter.composeAll (contentChain config runner files)

theorem chain_plainText (text : Text) (workspace : Workspace World) :
    chain config runner files (.plainText text) workspace = .ok [.plainText text] workspace :=
  rfl

theorem chain_of_ok {id : ReferenceId} {workspace titled built : Workspace World}
    {items : List Content}
    (isTitled : ContentFilter.addTitle (.reference id) workspace = .ok [.reference id] titled)
    (isBuilt : ContentFilter.runBuildArtifacts config.build.filterOptions runner (.reference id)
      titled = .ok items built)
    (noOutput : (ContentFilter.includeReplOutput ⟨config.projectRoot, config.repl.outputSuffix⟩
      files).overItems items built = .ok items built) :
    chain config runner files (.reference id) workspace = .ok items built := by
  have afterTitle : ContentFilter.compose ContentFilter.identity ContentFilter.addTitle
      (.reference id) workspace = .ok [.reference id] titled := by
    rw [ContentFilter.compose_of_ok rfl, ContentFilter.overItems_singleton, isTitled]
  have afterBuild : ContentFilter.compose
      (ContentFilter.compose ContentFilter.identity ContentFilter.addTitle)
      (ContentFilter.runBuildArtifacts config.build.filterOptions runner) (.reference id)
      workspace = .ok items built := by
    rw [ContentFilter.compose_of_ok afterTitle, ContentFilter.overItems_singleton, isBuilt]
  exact (ContentFilter.compose_of_ok afterBuild _).trans noOutput

/-- The chain leaves what a segment shows and hands over its scripts. -/
def Treats (item : Content) (segment : Segment) (workspace : Workspace World) : Prop :=
  ∃ items after, chain config runner files item workspace = .ok items after ∧
    after.world = LineFilter.runScripts runner workspace.world
      (segment.scripts config.build.filterOptions) ∧
    Leaves workspace.references after.references item.reference?.toList items
      (segment.shown config.build.filterOptions)

theorem treats_line (text : Text) (workspace : Workspace World) :
    Treats config runner files (.plainText text) (.line text) workspace := by
  have isKept := chain_plainText config runner files text workspace
  refine ⟨[.plainText text], workspace, isKept, rfl, ?_⟩
  exact { others := fun _ _ => rfl, shown := fun _ _ => rfl }

theorem treats_block {id : ReferenceId} {block : Block} {workspace : Workspace World}
    (registered : workspace.references.get? id = some block)
    (noSession : Property.hasClass block.properties Fence.replClass = false)
    (notScript : block.isScript config.build.filterOptions = false) :
    Treats config runner files (.reference id) (.block block) workspace := by
  have isTitled := ContentFilter.addTitle_reference registered
  have titled := Workspace.get?_setBlock_self registered (ContentFilter.titledBlock block)
  have isBuilt := ContentFilter.runBuildArtifacts_reference runner titled
    ((ContentFilter.isScript_titledBlock _ block).trans notScript)
  refine ⟨_, _, chain_of_ok config runner files isTitled isBuilt ?_, ?_, ?_⟩
  · exact (ContentFilter.overItems_singleton _ _ _).trans
      (ContentFilter.includeReplOutput_reference _ files titled
        ((ContentFilter.hasClass_titledBlock block _).trans noSession))
  · simp only [Segment.scripts, notScript, Bool.false_eq_true, ↓reduceIte]
    rfl
  · simp only [Segment.shown, notScript, Bool.false_eq_true, ↓reduceIte]
    exact Leaves.block (fun other ne => workspace.get?_setBlock_of_ne ne _) titled

theorem treats_script {id : ReferenceId} {block : Block} {workspace : Workspace World}
    (registered : workspace.references.get? id = some block)
    (noSession : Property.hasClass block.properties Fence.replClass = false)
    (isScript : block.isScript config.build.filterOptions) :
    Treats config runner files (.reference id) (.block block) workspace := by
  have isTitled := ContentFilter.addTitle_reference registered
  have titled := Workspace.get?_setBlock_self registered (ContentFilter.titledBlock block)
  have isBuilt := ContentFilter.runBuildArtifacts_script runner titled
    ((ContentFilter.isScript_titledBlock _ block).trans isScript)
  let emptied : Block := { ContentFilter.titledBlock block with source := [] }
  have registeredEmptied := Workspace.get?_setBlock_self titled emptied
  have others : ∀ other, other ≠ id →
      ((workspace.setBlock id (ContentFilter.titledBlock block)).setBlock id
        emptied).references.get? other = workspace.references.get? other := by
    intro other ne
    rw [Workspace.get?_setBlock_of_ne _ ne, Workspace.get?_setBlock_of_ne _ ne]
  have oneScript : (Segment.block block).scripts config.build.filterOptions =
      [(ContentFilter.titledBlock block).dedentedSource] := by
    simp only [Segment.scripts, isScript, ↓reduceIte]
    rfl
  have shown : (Segment.block block).shown config.build.filterOptions =
      LineFilter.fenceLines config.build.filterOptions.closingFence emptied.openLine ++
        LineFilter.fenceLines config.build.filterOptions.closingFence emptied.closeLine := by
    simp only [Segment.shown, isScript, ↓reduceIte]
    rfl
  cases fences : config.build.filterOptions.closingFence with
  | verbatim =>
    rw [fences] at isBuilt shown
    refine ⟨_, _, chain_of_ok config runner files isTitled isBuilt ?_, ?_, ?_⟩
    · exact (ContentFilter.overItems_singleton _ _ _).trans
        (ContentFilter.includeReplOutput_reference _ files registeredEmptied
          ((ContentFilter.hasClass_titledBlock block _).trans noSession))
    · rw [oneScript]
      rfl
    · rw [shown]
      exact Leaves.block others registeredEmptied
  | suppress =>
    rw [fences] at isBuilt shown
    refine ⟨_, _, chain_of_ok config runner files isTitled isBuilt ?_, ?_, ?_⟩
    · rfl
    · rw [oneScript]
      rfl
    · rw [shown]
      exact Leaves.nothing others

/-- The chain treats each item on its own. -/
theorem treats_of_standsFor {item : Content} {segment : Segment} {workspace : Workspace World}
    (stands : item.StandsFor workspace.references segment)
    (noSession : segment.showsSession = false) :
    Treats config runner files item segment workspace := by
  cases stands with
  | line text => exact treats_line config runner files text workspace
  | @block id block registered =>
    cases isScript : block.isScript config.build.filterOptions with
    | false => exact treats_block config runner files registered noSession isScript
    | true => exact treats_script config runner files registered noSession isScript

/-- The chain over items leaves what their segments show and hands over their scripts, in order. -/
theorem overItems_chain {content : List Content} {segments : List Segment}
    {workspace : Workspace World}
    (each : List.Forall₂ (Content.StandsFor workspace.references) content segments)
    (distinct : (content.filterMap Content.reference?).Nodup)
    (noSession : ∀ segment ∈ segments, segment.showsSession = false) :
    ∃ items after,
      (chain config runner files).overItems content workspace = .ok items after ∧
      after.world = LineFilter.runScripts runner workspace.world
        (segments.flatMap (Segment.scripts config.build.filterOptions)) ∧
      Leaves workspace.references after.references (content.filterMap Content.reference?) items
        (segments.flatMap (Segment.shown config.build.filterOptions)) := by
  induction content generalizing segments workspace with
  | nil =>
    cases each
    exact ⟨[], workspace, rfl, rfl, Leaves.nil _⟩
  | cons item rest ih =>
    cases each with
    | @cons _ segment _ later stands standLater =>
      have ids : (item :: rest).filterMap Content.reference? =
          item.reference?.toList ++ rest.filterMap Content.reference? := by
        cases item <;> rfl
      rw [ids] at distinct ⊢
      rcases List.nodup_append'.mp distinct with ⟨_, restDistinct, disjoint⟩
      have itemNoSession := noSession segment List.mem_cons_self
      have laterNoSession : ∀ segment ∈ later, segment.showsSession = false :=
        fun segment isLater => noSession segment (List.mem_cons_of_mem _ isLater)
      rcases treats_of_standsFor config runner files stands itemNoSession with
        ⟨items, between, isItem, itemWorld, itemLeaves⟩
      -- The first item changes no block that a later item refers to.
      have standBetween := Content.standsFor_of_agrees standLater fun id isMem =>
        itemLeaves.others id fun isItems => disjoint isItems isMem
      rcases ih standBetween restDistinct laterNoSession with
        ⟨laterItems, after, isLater, laterWorld, laterLeaves⟩
      refine ⟨items ++ laterItems, after, ?_, ?_, ?_⟩
      · rw [ContentFilter.overItems, ContentFilter.bind_of_ok isItem,
          ContentFilter.bind_of_ok isLater]
        rfl
      · rw [laterWorld, itemWorld, List.flatMap_cons, LineFilter.runScripts_append]
      · rw [List.flatMap_cons]
        exact itemLeaves.append laterLeaves disjoint

theorem noSession_of_standsFor {references : References} {content : List Content}
    {segments : List Segment}
    (each : List.Forall₂ (Content.StandsFor references) content segments)
    (noSession : ∀ id block, references.get? id = some block →
      Property.hasClass block.properties Fence.replClass = false) :
    ∀ segment ∈ segments, segment.showsSession = false := by
  induction each with
  | nil => exact fun _ isMem => absurd isMem List.not_mem_nil
  | cons stands _ ih =>
    refine List.forall_mem_cons.mpr ⟨?_, ih⟩
    cases stands with
    | line text => rfl
    | block registered => exact noSession _ _ registered

/-- Filtering by blocks writes what is left of each segment of the page. -/
theorem filterByBlocks_eq (world : World) {page : Text} {document : Document}
    {segments : List Segment} (isRead : Document.read page = .ok document)
    (shows : document.Shows segments)
    (noSession : ∀ segment ∈ segments, segment.showsSession = false) :
    filterByBlocks config runner files world page =
      (LineFilter.runScripts runner world
          (segments.flatMap (Segment.scripts config.build.filterOptions)),
        .ok (Lines.toText ⟨segments.flatMap (Segment.shown config.build.filterOptions),
          document.endsWithNewline⟩)) := by
  have distinct := shows.nodup_references
  let workspace : Workspace World := ⟨document.references, world⟩
  have each : List.Forall₂ (Content.StandsFor workspace.references) document.content segments :=
    shows.each
  rcases overItems_chain config runner files each distinct noSession with
    ⟨items, after, isRun, afterWorld, leaves⟩
  have lines := leaves.shown after.references fun _ _ => rfl
  have isApplied : Document.apply (chain config runner files) (document, world) =
      .ok () ({ document with references := after.references, content := items },
        after.world) := by
    rw [Document.apply, isRun]
  simp only [filterByBlocks, isRead]
  rw [show ContentFilter.composeAll (contentChain config runner files) =
    chain config runner files from rfl, isApplied, afterWorld]
  simp only [Document.render, lines, bind, Except.bind, pure, Except.pure]
  rfl

end Site

end LiterateMarkdown
