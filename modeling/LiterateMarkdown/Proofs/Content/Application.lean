import LiterateMarkdown.Proofs.Content.Fusion

/-!
# Applying filters to documents

A filter that is applied to a document stops at the first item that it fails on
(`ContentFilter.StopsOn`). The document is left without content then: what the filter gave for the
items before that one is lost, and so are the items after it, so a document keeps its content only
where the filter does not fail (`Document.keepsContent_iff`).

However the passes are composed, and however often they are applied, they find every block that they
are referred to: reading a page registers them, and no pass takes a block away or makes up a
reference (`ContentFilter.Retains`). So what becomes of a page can always be written
(`Document.knownReferences_of_derivedFrom`).
-/

namespace LiterateMarkdown

namespace ContentFilter

variable {World : Type} {filter : ContentFilter World} {item : Content}
  {content items rest : List Content} {workspace after stopped : Workspace World}
  {cause : FilterError}

/-- A filter that treats the items before one of them, and fails on this one. -/
inductive StopsOn (filter : ContentFilter World) :
    List Content → Workspace World → FilterError → Workspace World → Prop where
  | here {item : Content} {rest : List Content} {workspace stopped : Workspace World}
      {cause : FilterError} (fails : filter item workspace = .error cause stopped) :
      StopsOn filter (item :: rest) workspace cause stopped
  | later {item : Content} {rest produced : List Content}
      {workspace between stopped : Workspace World} {cause : FilterError}
      (treated : filter item workspace = .ok produced between)
      (stops : StopsOn filter rest between cause stopped) :
      StopsOn filter (item :: rest) workspace cause stopped

theorem bind_of_error {α β : Type} {action : EStateM FilterError (Workspace World) α}
    (fails : action workspace = .error cause stopped)
    (next : α → EStateM FilterError (Workspace World) β) :
    (action >>= next) workspace = .error cause stopped := by
  simp only [bind, EStateM.bind, fails]

theorem overItems_of_stopsOn (stops : filter.StopsOn content workspace cause stopped) :
    filter.overItems content workspace = .error cause stopped := by
  induction stops with
  | here fails => exact bind_of_error fails _
  | later treated _ ih =>
    rw [overItems, bind_of_ok treated]
    exact bind_of_error ih _

theorem stopsOn_of_overItems (fails : filter.overItems content workspace = .error cause stopped) :
    filter.StopsOn content workspace cause stopped := by
  induction content generalizing workspace with
  | nil => contradiction
  | cons item rest ih =>
    rw [overItems] at fails
    cases isItem : filter item workspace with
    | error other left =>
      rw [bind_of_error isItem] at fails
      cases fails
      exact .here isItem
    | ok produced between =>
      rw [bind_of_ok isItem] at fails
      cases isRest : filter.overItems rest between with
      | error other left =>
        rw [bind_of_error isRest] at fails
        cases fails
        exact .later isItem (ih isRest)
      | ok later last =>
        rw [bind_of_ok isRest] at fails
        contradiction

end ContentFilter

namespace Document

variable {World : Type}

/-- An application that fails leaves no content, and the blocks as they were where it stopped. -/
theorem apply_eq_error_iff {filter : ContentFilter World} {document left : Document}
    {world last : World} {cause : FilterError} :
    apply filter (document, world) = .error cause (left, last) ↔
      ∃ stopped, filter.StopsOn document.content ⟨document.references, world⟩ cause stopped ∧
        left = { document with references := stopped.references, content := [] } ∧
        last = stopped.world := by
  rw [apply_eq]
  constructor
  · intro fails
    cases isRun : filter.overItems document.content ⟨document.references, world⟩ with
    | ok content workspace =>
      rw [isRun] at fails
      contradiction
    | error other stopped =>
      rw [isRun] at fails
      cases fails
      exact ⟨stopped, ContentFilter.stopsOn_of_overItems isRun, rfl, rfl⟩
  · rintro ⟨stopped, stops, rfl, rfl⟩
    rw [ContentFilter.overItems_of_stopsOn stops]
    rfl

/-- Whether a document has the content that it had where a filter fails on it. -/
def KeepsContent (filter : ContentFilter World) (document : Document) (world : World) : Prop :=
  ∀ cause left last, apply filter (document, world) = .error cause (left, last) →
    left.content = document.content

/-- A document keeps its content exactly if the filter does not fail. -/
theorem keepsContent_iff (filter : ContentFilter World) (document : Document) (world : World) :
    KeepsContent filter document world ↔
      ∀ cause stopped,
        ¬ filter.StopsOn document.content ⟨document.references, world⟩ cause stopped := by
  constructor
  · intro keeps cause stopped stops
    have noContent : [] = document.content :=
      keeps cause _ _ (apply_eq_error_iff.mpr ⟨stopped, stops, rfl, rfl⟩)
    rw [← noContent] at stops
    contradiction
  · intro treatsAll cause left last fails
    rcases apply_eq_error_iff.mp fails with ⟨stopped, stops, _⟩
    exact absurd stops (treatsAll cause stopped)

/-- A page loses its content to a block that names no session. -/
theorem not_forall_keepsContent :
    (∃ document id,
      read "a\n``` \x7b.repl\x7d\n```".toList = .ok document ∧
      document.content = [.plainText "a".toList, .reference id] ∧
      apply (ContentFilter.includeReplOutput ⟨[], ".o".toList⟩ fun tree => tree)
          (document, (⟨[], []⟩ : FileTree)) =
        .error (.missingSessionAttribute id.name) ({ document with content := [] }, ⟨[], []⟩)) ∧
      ¬ ∀ (World : Type) (filter : ContentFilter World) (document : Document) (world : World),
        KeepsContent filter document world := by
  let id : ReferenceId := ⟨"#anonymous-1".toList, 0⟩
  let block : Block :=
    ⟨[.className "repl".toList], [], "``` \x7b.repl\x7d".toList, [], "```".toList, [], 2⟩
  let document : Document :=
    { references := ⟨[(id, block)], [(id.name, [id])], 1⟩
      content := [.plainText "a".toList, .reference id] }
  let replay : ContentFilter FileTree :=
    ContentFilter.includeReplOutput ⟨[], ".o".toList⟩ fun tree => tree
  have isRead : read "a\n``` \x7b.repl\x7d\n```".toList = .ok document := by decide +kernel
  have noSession : ContentFilter.following ⟨[], ".o".toList⟩ ⟨[], []⟩ document.references id =
      .error (.missingSessionAttribute id.name) := by decide +kernel
  have fails := ContentFilter.includeReplOutput_eq ⟨[], ".o".toList⟩
    (fun tree : FileTree => tree) id ⟨document.references, ⟨[], []⟩⟩
  rw [noSession] at fails
  have isApplied : apply replay (document, ⟨[], []⟩) =
      .error (.missingSessionAttribute id.name) ({ document with content := [] }, ⟨[], []⟩) :=
    apply_eq_error_iff.mpr ⟨_, .later rfl (.here fails), rfl, rfl⟩
  refine ⟨⟨document, id, isRead, rfl, isApplied⟩, ?_⟩
  intro keepsAll
  have keeps := keepsAll FileTree replay document ⟨[], []⟩ _ _ _ isApplied
  contradiction

end Document

namespace References.Registers

variable {before after : References} {content items : List Content}

theorem append (registers : before.Registers content) (more : before.Registers items) :
    before.Registers (content ++ items) := by
  intro id isMem
  rw [List.filterMap_append] at isMem
  rcases List.mem_append.mp isMem with isFirst | isLater
  · exact registers id isFirst
  · exact more id isLater

theorem mono (registers : before.Registers content)
    (still : ∀ id, (before.get? id).isSome → (after.get? id).isSome) : after.Registers content := by
  intro id isMem
  exact still id (registers id isMem)

end References.Registers

namespace ContentFilter

variable {World : Type} {filter : ContentFilter World} {content items : List Content}
  {workspace after : Workspace World}

/-- A run that takes no block away, refers to blocks alone, and fails for none that is missing. -/
inductive Settles (before : Workspace World) :
    EStateM.Result FilterError (Workspace World) (List Content) → Prop where
  | ok {items : List Content} {after : Workspace World}
      (registers : after.references.Registers items)
      (still : ∀ id, (before.references.get? id).isSome → (after.references.get? id).isSome) :
      Settles before (.ok items after)
  | error {cause : FilterError} {stopped : Workspace World}
      (known : ∀ id, cause ≠ .unknownReference id) : Settles before (.error cause stopped)

theorem Settles.bind {action : EStateM FilterError (Workspace World) (List Content)}
    {next : List Content → EStateM FilterError (Workspace World) (List Content)}
    (settles : Settles workspace (action workspace))
    (nextSettles : ∀ items after, after.references.Registers items →
      (∀ id, (workspace.references.get? id).isSome → (after.references.get? id).isSome) →
        Settles after (next items after)) :
    Settles workspace ((action >>= next) workspace) := by
  simp only [Bind.bind, EStateM.bind]
  generalize action workspace = result at settles
  cases settles with
  | error known => exact .error known
  | @ok items between registers still =>
    have isNext := nextSettles items between registers still
    change Settles workspace (next items between)
    generalize next items between = final at isNext ⊢
    cases isNext with
    | error known => exact .error known
    | ok registersLast stillLast =>
      exact .ok registersLast fun id isSome => stillLast id (still id isSome)

/-- Whether a filter that is given references to blocks leaves references to blocks. -/
def Retains (filter : ContentFilter World) : Prop :=
  ∀ item workspace, workspace.references.Registers [item] →
    Settles workspace (filter item workspace)

namespace Retains

theorem overItems (retains : filter.Retains)
    (registers : workspace.references.Registers content) :
    Settles workspace (filter.overItems content workspace) := by
  induction content generalizing workspace with
  | nil => exact .ok registers fun _ isSome => isSome
  | cons item rest ih =>
    have isHead : [item].Sublist (item :: rest) := List.singleton_sublist.mpr List.mem_cons_self
    have isTail : rest.Sublist (item :: rest) := List.sublist_cons_self item rest
    apply Settles.bind (retains item workspace (registers.sublist isHead))
    intro produced between registersProduced still
    apply Settles.bind (ih ((registers.sublist isTail).mono still))
    intro later last registersLater stillLater
    exact .ok ((registersProduced.mono stillLater).append registersLater) fun _ isSome => isSome

theorem compose {next : ContentFilter World} (retains : filter.Retains)
    (nextRetains : next.Retains) : (ContentFilter.compose filter next).Retains := by
  intro item workspace registers
  apply Settles.bind (retains item workspace registers)
  intro items between registersItems _
  exact nextRetains.overItems registersItems

end Retains

theorem retains_identity : (identity : ContentFilter World).Retains := by
  intro item workspace registers
  exact .ok registers fun _ isSome => isSome

theorem retains_composeAll {filters : List (ContentFilter World)}
    (each : ∀ filter ∈ filters, filter.Retains) : (composeAll filters).Retains := by
  have fromStart : ∀ start : ContentFilter World, start.Retains →
      (filters.foldl compose start).Retains := by
    induction filters with
    | nil => exact fun _ startRetains => startRetains
    | cons filter rest ih =>
      rw [List.forall_mem_cons] at each
      intro start startRetains
      exact ih each.2 _ (startRetains.compose each.1)
  exact fromStart identity retains_identity

theorem retains_of_prepares {runner : BuildRunner World} (prepares : Prepares runner filter) :
    filter.Retains := by
  intro item workspace registers
  rcases prepares item workspace registers with ⟨items, after, isRun, sublist, touches⟩
  rw [isRun]
  apply Settles.ok
  · exact touches.registers (registers.sublist sublist)
  · intro id isSome
    rwa [touches.stillRegistered]

theorem ne_unknownReference_of_answers {options : ReplOptions} {files : FileTree} {name : Text}
    {number : Nat} {session? : Option Text} {cause : FilterError}
    (answers : Replay.Answers options files name number session? (.error cause))
    (id : ReferenceId) : cause ≠ .unknownReference id := by
  rintro rfl
  cases answers with
  | noRecord opens => cases opens

theorem retains_includeReplOutput (options : ReplOptions) (files : World → FileTree) :
    (includeReplOutput options files).Retains := by
  intro item workspace registers
  cases item with
  | plainText text => exact .ok registers fun _ isSome => isSome
  | reference id =>
    rcases Option.isSome_iff_exists.mp (registers id List.mem_cons_self) with ⟨block, isBlock⟩
    have answers := Replay.answers_recordedCommand options (files workspace.world)
      workspace.references id
    rw [includeReplOutput_eq]
    cases isFollowing : following options (files workspace.world) workspace.references id with
    | ok item? =>
      refine .ok ?_ fun _ isSome => isSome
      cases item? with
      | none => exact registers
      | some item =>
        have noReference := reference?_of_following isFollowing
        have noMore : workspace.references.Registers [item] := by
          simp [References.Registers, noReference]
        exact registers.append noMore
    | error cause =>
      apply Settles.error
      simp only [following, isBlock] at isFollowing
      split at isFollowing
      · contradiction
      cases isCommand : recordedCommand options (files workspace.world) workspace.references id with
      | ok command =>
        rw [isCommand] at isFollowing
        contradiction
      | error other =>
        rw [isCommand] at isFollowing answers
        cases isFollowing
        exact ne_unknownReference_of_answers answers

/-- The filters that are composed of passes, which find the files of sessions in a world. -/
inductive IsBuilt (files : World → FileTree) : ContentFilter World → Prop where
  | identity : IsBuilt files identity
  | addTitle : IsBuilt files addTitle
  | runBuildArtifacts (options : FilterOptions) (runner : BuildRunner World) :
      IsBuilt files (runBuildArtifacts options runner)
  | includeReplOutput (options : ReplOptions) : IsBuilt files (includeReplOutput options files)
  | compose {first second : ContentFilter World} (isFirst : IsBuilt files first)
      (isSecond : IsBuilt files second) : IsBuilt files (compose first second)
  | composeAll {filters : List (ContentFilter World)}
      (each : ∀ filter ∈ filters, IsBuilt files filter) : IsBuilt files (composeAll filters)

theorem IsBuilt.retains {files : World → FileTree} (built : IsBuilt files filter) :
    filter.Retains := by
  induction built with
  | identity => exact retains_identity
  | addTitle => exact retains_of_prepares (prepares_addTitle .idle)
  | runBuildArtifacts options runner =>
    exact retains_of_prepares (prepares_runBuildArtifacts options runner)
  | includeReplOutput options => exact retains_includeReplOutput options files
  | compose _ _ firstRetains secondRetains => exact firstRetains.compose secondRetains
  | composeAll _ each => exact retains_composeAll each

end ContentFilter

namespace Document

/-- The documents that a page becomes when filters are applied to it, one after the other. -/
inductive DerivedFrom (page : Text) : Document → Prop where
  | read {document : Document} (isRead : Document.read page = .ok document) :
      DerivedFrom page document
  | apply {World : Type} {files : World → FileTree} {filter : ContentFilter World}
      {document after : Document} {world last : World} (derived : DerivedFrom page document)
      (built : filter.IsBuilt files)
      (isApplied : Document.apply filter (document, world) = .ok () (after, last)) :
      DerivedFrom page after

theorem registers_of_apply {World : Type} {filter : ContentFilter World} {document after : Document}
    {world last : World} (retains : filter.Retains)
    (registers : document.references.Registers document.content)
    (isApplied : apply filter (document, world) = .ok () (after, last)) :
    after.references.Registers after.content := by
  have settles : ContentFilter.Settles ⟨document.references, world⟩
      (filter.overItems document.content ⟨document.references, world⟩) :=
    retains.overItems registers
  rw [apply_eq] at isApplied
  generalize filter.overItems document.content ⟨document.references, world⟩ = result
    at settles isApplied
  cases settles with
  | error known => contradiction
  | ok registersItems still =>
    cases isApplied
    exact registersItems

theorem registers_of_derivedFrom {page : Text} {document : Document}
    (derived : DerivedFrom page document) : document.references.Registers document.content := by
  induction derived with
  | read isRead =>
    rcases shows_of_read isRead with ⟨segments, final, _, shows, _⟩
    intro id isMem
    exact shows.mem_references_iff.mp isMem
  | apply _ built isApplied registers => exact registers_of_apply built.retains registers isApplied

/-- What becomes of a page can be written, and no filter misses a block of it. -/
theorem knownReferences_of_derivedFrom {page : Text} {document : Document}
    (derived : DerivedFrom page document) :
    (∃ text, document.render = .ok text) ∧
      ∀ {World : Type} {files : World → FileTree} {filter : ContentFilter World} (world : World),
        filter.IsBuilt files → ∀ id left,
          apply filter (document, world) ≠ .error (.unknownReference id) left := by
  have registers := registers_of_derivedFrom derived
  constructor
  · rcases exists_contentLines_of_registers registers with ⟨lines, areLines⟩
    exact ⟨_, by rw [render, areLines]; rfl⟩
  · rintro World files filter world built id ⟨left, last⟩ fails
    rcases apply_eq_error_iff.mp fails with ⟨stopped, stops, _⟩
    have settles : ContentFilter.Settles ⟨document.references, world⟩
        (filter.overItems document.content ⟨document.references, world⟩) :=
      built.retains.overItems registers
    rw [ContentFilter.overItems_of_stopsOn stops] at settles
    cases settles with
    | error known => exact known id rfl

/-- A page from which a block was taken, before a pass fails on the session of another one. -/
theorem knownReferences_of_derivedFrom_suppressed :
    ∃ page document after filter last,
      page = "``` \x7b.build-artifact\x7d\nall:\n```\n``` \x7b.repl #a\x7d\n1\n```\n".toList ∧
      read page = .ok document ∧
      filter = ContentFilter.compose
        (ContentFilter.composeAll [ContentFilter.addTitle,
          ContentFilter.runBuildArtifacts ⟨true, .suppress⟩ .idle]) ContentFilter.identity ∧
      apply filter (document, (⟨[], []⟩ : FileTree)) = .ok () (after, last) ∧
      after.content = [.reference ⟨"a".toList, 0⟩] ∧
      (∃ text, after.render = .ok text) ∧
      ∀ id left, apply (ContentFilter.includeReplOutput ⟨[], ".o".toList⟩ fun tree => tree)
        (after, last) ≠ .error (.unknownReference id) left := by
  generalize isPage :
    "``` \x7b.build-artifact\x7d\nall:\n```\n``` \x7b.repl #a\x7d\n1\n```\n".toList = page
  generalize isFilter : ContentFilter.compose
    (ContentFilter.composeAll ([ContentFilter.addTitle, ContentFilter.runBuildArtifacts
      ⟨true, .suppress⟩ .idle] : List (ContentFilter FileTree))) ContentFilter.identity = filter
  have isLeft : ((read page).toOption.bind fun document =>
      contentAfter? (apply filter (document, ⟨[], []⟩))) = some [.reference ⟨"a".toList, 0⟩] := by
    subst isPage isFilter
    decide +kernel
  have built : filter.IsBuilt fun tree => tree := by
    rw [← isFilter]
    refine .compose (.composeAll ?_) .identity
    simp [ContentFilter.IsBuilt.addTitle, ContentFilter.IsBuilt.runBuildArtifacts]
  cases isRead : read page with
  | error cause =>
    rw [isRead] at isLeft
    contradiction
  | ok document =>
    have isKept : contentAfter? (apply filter (document, ⟨[], []⟩)) =
        some [.reference ⟨"a".toList, 0⟩] := by
      rwa [isRead] at isLeft
    cases isApplied : apply filter (document, ⟨[], []⟩) with
    | error cause left =>
      rw [isApplied] at isKept
      contradiction
    | ok _ left =>
      rcases left with ⟨after, last⟩
      rw [isApplied] at isKept
      have known := knownReferences_of_derivedFrom (.apply (.read isRead) built isApplied)
      exact ⟨page, document, after, filter, last, rfl, isRead, rfl, isApplied,
        Option.some.inj isKept, known.1, known.2 last (.includeReplOutput _)⟩

end Document

end LiterateMarkdown
