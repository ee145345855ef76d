import LiterateMarkdown.Proofs.Content.Chain
import LiterateMarkdown.Proofs.LineEnding.Document

/-!
# The content chain on pages with CRLF line endings

Each pass does to the document of a page with CRLF line endings what it does to that of the page
with plain ones (`ContentFilter.IsTransparent`). It needs of the blocks that they were read of a
page without carriage returns, and that their fences are rendered on one line (`Block.IsPlain`); no
pass takes this from a block.
-/

namespace LiterateMarkdown

/-- A block of a page without carriage returns. -/
structure Block.IsPlain (block : Block) : Prop where
  noEnding : block.lineEnding = []
  noIndent : '\r' ∉ block.indent
  unbroken : ∀ line ∈ block.source, line.Unbroken
  titleOneLine : '\n' ∉ (ContentFilter.titledBlock block).openLine

namespace Block.IsPlain

open ContentFilter (titledBlock)

variable {block : Block}

theorem titled (plain : block.IsPlain) : (titledBlock block).IsPlain where
  noEnding := plain.noEnding
  noIndent := plain.noIndent
  unbroken := plain.unbroken
  titleOneLine := by
    have sameLine : (titledBlock (titledBlock block)).openLine = (titledBlock block).openLine := by
      simp only [titledBlock, Fence.withTitle_withTitle]
    rw [sameLine]
    exact plain.titleOneLine

theorem emptied (plain : block.IsPlain) : { block with source := [] }.IsPlain where
  noEnding := plain.noEnding
  noIndent := plain.noIndent
  unbroken := by simp
  titleOneLine := plain.titleOneLine

theorem titledBlock_toCrlf (plain : block.IsPlain) :
    titledBlock block.toCrlf = (titledBlock block).toCrlf := by
  have oneLine := plain.titleOneLine
  simp only [titledBlock, plain.noEnding, List.append_nil] at oneLine
  simp [titledBlock, toCrlf, withReturns, plain.noEnding, Text.crlfLine_of_newline_not_mem oneLine]

/-- The script in a block is the same, whatever the line endings of the page. -/
theorem dedentedSource_toCrlf (plain : block.IsPlain) :
    block.toCrlf.dedentedSource = block.dedentedSource := by
  simp only [dedentedSource, toCrlf, withReturns, List.map_map]
  congr 1
  apply List.map_congr_left
  intro line isLine
  have unbroken := plain.unbroken line isLine
  rw [Function.comp_apply, Text.crlfLine_of_newline_not_mem unbroken.1]
  exact Text.dropCarriageReturn_dedent_append plain.noIndent unbroken.2

/-- What is shown of a command's output ends its lines as the page does. -/
theorem outputItem?_toCrlf (plain : block.IsPlain) (command : SessionCommand) :
    ContentFilter.outputItem? block.toCrlf command =
      (ContentFilter.outputItem? block command).map Content.toCrlf := by
  have atEnd : block.toCrlf.lineEnding = ['\r'] := rfl
  have sameIndent : block.toCrlf.indent = block.indent := rfl
  simp only [ContentFilter.outputItem?, atEnd, sameIndent, plain.noEnding]
  cases command.shownOutput? with
  | none => rfl
  | some output => rfl

end Block.IsPlain

namespace Workspace

variable {World : Type}

/-- The workspace for a page with CRLF line endings. -/
def toCrlf (workspace : Workspace World) : Workspace World :=
  { workspace with references := workspace.references.toCrlf }

/-- Whether all blocks are those of a page without carriage returns. -/
def IsPlain (workspace : Workspace World) : Prop :=
  ∀ id block, workspace.references.get? id = some block → block.IsPlain

theorem setBlock_toCrlf (workspace : Workspace World) (id : ReferenceId) (block : Block) :
    workspace.toCrlf.setBlock id block.toCrlf = (workspace.setBlock id block).toCrlf := by
  simp only [setBlock, toCrlf, References.modify_toCrlf]

theorem IsPlain.setBlock {workspace : Workspace World} (plain : workspace.IsPlain)
    {id : ReferenceId} {before block : Block}
    (registered : workspace.references.get? id = some before) (blockPlain : block.IsPlain) :
    (workspace.setBlock id block).IsPlain := by
  intro other found isFound
  by_cases same : other = id
  · rw [same, get?_setBlock_self registered] at isFound
    cases isFound
    exact blockPlain
  · rw [get?_setBlock_of_ne workspace same] at isFound
    exact plain other found isFound

end Workspace

namespace ContentFilter

variable {World : Type}

/-- What a filter makes of an item, and of the same item of a page with CRLF line endings. -/
inductive Alike : EStateM.Result FilterError (Workspace World) (List Content) →
    EStateM.Result FilterError (Workspace World) (List Content) → Prop where
  | ok {items : List Content} {after : Workspace World} (plain : after.IsPlain) :
      Alike (.ok items after) (.ok (items.map Content.toCrlf) after.toCrlf)
  | error (cause : FilterError) (after : Workspace World) :
      Alike (.error cause after) (.error cause after.toCrlf)

/-- A filter that does the same to pages with CRLF line endings. -/
def IsTransparent (filter : ContentFilter World) : Prop :=
  ∀ item (workspace : Workspace World), workspace.IsPlain →
    Alike (filter item workspace) (filter item.toCrlf workspace.toCrlf)

theorem Alike.bind {action other : EStateM FilterError (Workspace World) (List Content)}
    {next nextOther : List Content → EStateM FilterError (Workspace World) (List Content)}
    {workspace : Workspace World} (alike : Alike (action workspace) (other workspace.toCrlf))
    (nextAlike : ∀ items (after : Workspace World), after.IsPlain →
      Alike (next items after) (nextOther (items.map Content.toCrlf) after.toCrlf)) :
    Alike ((action >>= next) workspace) ((other >>= nextOther) workspace.toCrlf) := by
  simp only [Bind.bind, EStateM.bind]
  generalize action workspace = result at alike
  generalize other workspace.toCrlf = otherResult at alike
  cases alike with
  | ok plain => exact nextAlike _ _ plain
  | error cause after => exact .error cause after

theorem IsTransparent.overItems {filter : ContentFilter World} (transparent : filter.IsTransparent)
    (content : List Content) {workspace : Workspace World} (plain : workspace.IsPlain) :
    Alike (filter.overItems content workspace)
      (filter.overItems (content.map Content.toCrlf) workspace.toCrlf) := by
  induction content generalizing workspace with
  | nil => exact .ok plain
  | cons item rest ih =>
    apply Alike.bind (transparent item workspace plain)
    intro produced between betweenPlain
    apply Alike.bind (ih betweenPlain)
    intro later after afterPlain
    rw [← List.map_append]
    exact .ok afterPlain

theorem isTransparent_identity : (identity : ContentFilter World).IsTransparent := by
  intro item workspace plain
  exact .ok plain

theorem IsTransparent.compose {first second : ContentFilter World}
    (firstTransparent : first.IsTransparent) (secondTransparent : second.IsTransparent) :
    (compose first second).IsTransparent := by
  intro item workspace plain
  apply Alike.bind (firstTransparent item workspace plain)
  intro items after afterPlain
  exact secondTransparent.overItems items afterPlain

theorem isTransparent_composeAll {filters : List (ContentFilter World)}
    (transparent : ∀ filter ∈ filters, filter.IsTransparent) :
    (composeAll filters).IsTransparent := by
  have fromFirst : ∀ (rest : List (ContentFilter World)) (first : ContentFilter World),
      first.IsTransparent → (∀ filter ∈ rest, filter.IsTransparent) →
        (rest.foldl compose first).IsTransparent := by
    intro rest
    induction rest with
    | nil => exact fun first isFirst _ => isFirst
    | cons second rest ih =>
      intro first isFirst isRest
      rw [List.forall_mem_cons] at isRest
      exact ih _ (isFirst.compose isRest.1) isRest.2
  exact fromFirst filters identity isTransparent_identity transparent

/-- A filter that treats each block that is registered. -/
theorem isTransparent_onBlocks
    {treat : ReferenceId → Block → EStateM FilterError (Workspace World) (List Content)}
    (treatAlike : ∀ id block (workspace : Workspace World), workspace.IsPlain →
      workspace.references.get? id = some block →
        Alike (treat id block workspace) (treat id block.toCrlf workspace.toCrlf)) :
    (onBlocks fun id => findBlock id >>= treat id).IsTransparent := by
  intro item workspace plain
  cases item with
  | plainText text => exact .ok plain
  | reference id =>
    simp only [onBlocks, Content.toCrlf]
    cases registered : workspace.references.get? id with
    | none =>
      have missing : workspace.toCrlf.references.get? id = none := by
        simp [Workspace.toCrlf, registered]
      simp only [Bind.bind, EStateM.bind, findBlock_of_missing registered,
        findBlock_of_missing missing]
      exact .error _ workspace
    | some block =>
      have registeredCrlf : workspace.toCrlf.references.get? id = some block.toCrlf := by
        simp [Workspace.toCrlf, registered]
      rw [bind_of_ok (findBlock_of_registered registered),
        bind_of_ok (findBlock_of_registered registeredCrlf)]
      exact treatAlike id block workspace plain registered

theorem isTransparent_addTitle : (addTitle : ContentFilter World).IsTransparent := by
  apply isTransparent_onBlocks
  intro id block workspace plain registered
  have blockPlain := plain id block registered
  have done : ∀ (start : Workspace World) (titled : Block),
      (do replaceBlock id titled; return [.reference id] :
        EStateM FilterError (Workspace World) (List Content)) start =
          .ok [.reference id] (start.setBlock id titled) := by
    intro start titled
    rfl
  rw [done, done, blockPlain.titledBlock_toCrlf, Workspace.setBlock_toCrlf]
  exact .ok (plain.setBlock registered blockPlain.titled)

theorem isTransparent_runBuildArtifacts (options : FilterOptions) (runner : BuildRunner World) :
    (runBuildArtifacts options runner).IsTransparent := by
  apply isTransparent_onBlocks
  intro id block workspace plain registered
  have blockPlain := plain id block registered
  have sameProperties : block.toCrlf.properties = block.properties := rfl
  simp only [sameProperties, blockPlain.dedentedSource_toCrlf, not_isScript_eq]
  cases block.isScript options with
  | false => exact .ok plain
  | true =>
    let emptied : Block := { block with source := [] }
    let ran (start : Workspace World) (left : Block) : Workspace World :=
      { start.setBlock id left with
        world := runner.runDetached workspace.world block.dedentedSource }
    have sameRun : ran workspace.toCrlf emptied.toCrlf = (ran workspace emptied).toCrlf := by
      simp only [ran, Workspace.setBlock_toCrlf]
      rfl
    have ranPlain : (ran workspace emptied).IsPlain :=
      plain.setBlock registered blockPlain.emptied
    cases options.closingFence with
    | verbatim =>
      change Alike (.ok [.reference id] (ran workspace emptied))
        (.ok [.reference id] (ran workspace.toCrlf emptied.toCrlf))
      rw [sameRun]
      exact .ok ranPlain
    | suppress =>
      change Alike (.ok [] (ran workspace emptied)) (.ok [] (ran workspace.toCrlf emptied.toCrlf))
      rw [sameRun]
      exact .ok ranPlain

theorem recordedCommand_toCrlf (options : ReplOptions) (files : FileTree)
    (references : References) (id : ReferenceId) :
    recordedCommand options files references.toCrlf id =
      recordedCommand options files references id := by
  have sameSession : sessionOf? references.toCrlf id.name = sessionOf? references id.name := by
    simp only [sessionOf?, References.named_toCrlf, References.get?_toCrlf]
    cases (references.named id.name).head? with
    | none => rfl
    | some first =>
      simp only [Option.bind_some, Option.bind_eq_bind]
      cases references.get? first <;> rfl
  simp only [recordedCommand, sameSession]

theorem isTransparent_includeReplOutput (options : ReplOptions) (files : World → FileTree) :
    (includeReplOutput options files).IsTransparent := by
  apply isTransparent_onBlocks
  intro id block workspace plain registered
  have sameProperties : block.toCrlf.properties = block.properties := rfl
  have shownAlike := (plain id block registered).outputItem?_toCrlf
  have isState : ∀ start : Workspace World,
      (get : EStateM FilterError (Workspace World) (Workspace World)) start = .ok start start := by
    intro start
    rfl
  have sameCommand := recordedCommand_toCrlf options (files workspace.world) workspace.references id
  simp only [sameProperties]
  cases Property.hasClass block.properties Fence.replClass with
  | false => exact .ok plain
  | true =>
    simp only [Bool.not_true, Bool.false_eq_true, ↓reduceIte, bind_of_ok (isState _)]
    simp only [Workspace.toCrlf, sameCommand]
    cases recordedCommand options (files workspace.world) workspace.references id with
    | error cause => exact .error cause workspace
    | ok command =>
      simp only [shownAlike]
      cases outputItem? block command with
      | none => exact .ok plain
      | some item => exact .ok plain

end ContentFilter

end LiterateMarkdown
