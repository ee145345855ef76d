import LiterateMarkdown.Proofs.Content.Chain

/-!
# Composing filters

The filter that keeps every item is a unit of composition: what is composed with it gives the same
items or fails for the same cause, and leaves the same workspace. How more than two filters are
grouped shows in the order in which they run, and so in the cause of a failure. Filters that look at
nothing but their item (`ContentFilter.DependsOnItem`) succeed in every grouping or in none, and
then with the same items (`ContentFilter.lawful_compose`). The proof reads such a filter as a
partial function from items to lists of items (`Gives`), of which it gathers the values along a list
(`gather`): a list may be gathered in parts, and in two stages.
-/

namespace LiterateMarkdown

namespace ContentFilter

variable {World : Type} {workspace : Workspace World}

theorem exists_of_overItems_cons {filter : ContentFilter World} {item : Content}
    {rest items : List Content} {workspace after : Workspace World}
    (isRun : filter.overItems (item :: rest) workspace = .ok items after) :
    ∃ produced between later, filter item workspace = .ok produced between ∧
      filter.overItems rest between = .ok later after ∧ items = produced ++ later := by
  rcases exists_of_bind_eq_ok isRun with ⟨produced, between, isItem, isLater⟩
  rcases exists_of_bind_eq_ok isLater with ⟨later, last, isRest, isDone⟩
  cases isDone
  exact ⟨produced, between, later, isItem, isRest, rfl⟩

theorem overItems_append (filter : ContentFilter World) (earlier later : List Content) :
    filter.overItems (earlier ++ later) = do
      let done ← filter.overItems earlier
      let more ← filter.overItems later
      return done ++ more := by
  induction earlier with
  | nil => simp [overItems]
  | cons item rest ih =>
    simp only [List.cons_append, overItems, ih, bind_assoc, pure_bind, List.append_assoc]

theorem overItems_identity (content : List Content) :
    (identity : ContentFilter World).overItems content = pure content := by
  induction content with
  | nil => rfl
  | cons item rest ih => simp only [overItems, identity, ih, pure_bind, List.singleton_append]

theorem compose_identity (filter : ContentFilter World) : compose identity filter = filter := by
  funext item workspace
  rw [compose_of_ok rfl, overItems_singleton]

theorem identity_compose (filter : ContentFilter World) : compose filter identity = filter := by
  funext item
  simp only [compose, overItems_identity, bind_pure]

/-- What a run gives, if it succeeds. -/
def produced? {State α : Type} : EStateM.Result FilterError State α → Option α
  | .ok value _ => some value
  | .error _ _ => none

theorem produced?_bind {α β : Type} {next : α → EStateM FilterError (Workspace World) β}
    {give : α → Option β} (gives : ∀ value after, produced? (next value after) = give value)
    (action : EStateM FilterError (Workspace World) α) (workspace : Workspace World) :
    produced? ((action >>= next) workspace) = (produced? (action workspace)).bind give := by
  simp only [bind, EStateM.bind]
  cases action workspace with
  | ok value after => exact gives value after
  | error cause stopped => rfl

/--
Whether a filter succeeds on an item, and what it gives then, depends on the item only. Filters that
neither read nor change the workspace are such filters.
-/
def DependsOnItem (filter : ContentFilter World) : Prop :=
  ∀ item (workspace other : Workspace World),
    produced? (filter item workspace) = produced? (filter item other)

/-- Whether a filter gives what a partial function says. -/
def Gives (filter : ContentFilter World) (give : Content → Option (List Content)) : Prop :=
  ∀ item workspace, produced? (filter item workspace) = give item

theorem DependsOnItem.gives {filter : ContentFilter World} (depends : filter.DependsOnItem)
    (workspace : Workspace World) :
    filter.Gives fun item => produced? (filter item workspace) := by
  intro item other
  exact depends item other workspace

/-- The values of a partial function along a list, joined. -/
def gather (give : Content → Option (List Content)) : List Content → Option (List Content)
  | [] => some []
  | item :: rest => do
    let produced ← give item
    let later ← gather give rest
    return produced ++ later

theorem gather_append (give : Content → Option (List Content)) (earlier later : List Content) :
    gather give (earlier ++ later) = do
      let done ← gather give earlier
      let more ← gather give later
      return done ++ more := by
  induction earlier with
  | nil => cases isLater : gather give later <;> simp [gather, isLater]
  | cons item rest ih =>
    simp only [List.cons_append, gather, ih, bind_assoc, pure_bind, List.append_assoc]

/-- Gathering in two stages, item by item or list by list. -/
theorem gather_bind (first second : Content → Option (List Content)) (content : List Content) :
    gather (fun item => (first item).bind (gather second)) content =
      (gather first content).bind (gather second) := by
  induction content with
  | nil => rfl
  | cons item rest ih =>
    simp only [gather, ih, bind, pure, Option.bind_assoc]
    cases first item with
    | none => rfl
    | some produced =>
      simp only [Option.bind_some, gather_append, bind, pure]
      -- The first stage on the rest and the second one on what is there come in either order.
      cases gather second produced <;> cases gather first rest <;> rfl

namespace Gives

variable {first second filter : ContentFilter World}
  {give giveFirst giveSecond : Content → Option (List Content)}

theorem overItems (gives : filter.Gives give) (content : List Content)
    (workspace : Workspace World) :
    produced? (filter.overItems content workspace) = gather give content := by
  induction content generalizing workspace with
  | nil => rfl
  | cons item rest ih =>
    have isJoined : ∀ (produced later : List Content) (last : Workspace World),
        produced? ((pure (produced ++ later) :
          EStateM FilterError (Workspace World) (List Content)) last) =
            some (produced ++ later) := fun _ _ _ => rfl
    have isRest : ∀ (produced : List Content) (after : Workspace World),
        produced? ((do return produced ++ (← filter.overItems rest) :
          EStateM FilterError (Workspace World) (List Content)) after) =
            (gather give rest).bind fun later => some (produced ++ later) := by
      intro produced after
      rw [produced?_bind (isJoined produced), ih]
    rw [ContentFilter.overItems, produced?_bind isRest, gives]
    rfl

theorem compose (givesFirst : first.Gives giveFirst) (givesSecond : second.Gives giveSecond) :
    (ContentFilter.compose first second).Gives fun item =>
      (giveFirst item).bind (gather giveSecond) := by
  intro item workspace
  rw [ContentFilter.compose, produced?_bind givesSecond.overItems, givesFirst]

end Gives

/-- Groupings of filters that look at nothing but their item agree. -/
theorem produced?_compose_assoc {first second third : ContentFilter World}
    (firstDepends : first.DependsOnItem) (secondDepends : second.DependsOnItem)
    (thirdDepends : third.DependsOnItem) (item : Content) (workspace : Workspace World) :
    produced? (compose (compose first second) third item workspace) =
      produced? (compose first (compose second third) item workspace) := by
  let giveSecond : Content → Option (List Content) := fun item => produced? (second item workspace)
  let giveThird : Content → Option (List Content) := fun item => produced? (third item workspace)
  have givesFirst := firstDepends.gives workspace
  have givesSecond : second.Gives giveSecond := secondDepends.gives workspace
  have givesThird : third.Gives giveThird := thirdDepends.gives workspace
  calc produced? (compose (compose first second) third item workspace)
      = ((produced? (first item workspace)).bind (gather giveSecond)).bind (gather giveThird) :=
        (givesFirst.compose givesSecond).compose givesThird item workspace
    _ = (produced? (first item workspace)).bind fun items =>
          (gather giveSecond items).bind (gather giveThird) := Option.bind_assoc _ _ _
    _ = (produced? (first item workspace)).bind
          (gather fun other => (giveSecond other).bind (gather giveThird)) := by
        simp only [gather_bind]
    _ = produced? (compose first (compose second third) item workspace) :=
        (givesFirst.compose (givesSecond.compose givesThird) item workspace).symm

theorem produced?_overItems_compose {first second : ContentFilter World}
    (firstDepends : first.DependsOnItem) (secondDepends : second.DependsOnItem)
    (content : List Content) (workspace : Workspace World) :
    produced? ((compose first second).overItems content workspace) =
      produced? ((first.overItems content >>= second.overItems) workspace) := by
  have givesFirst := firstDepends.gives workspace
  have givesSecond := secondDepends.gives workspace
  rw [(givesFirst.compose givesSecond).overItems, produced?_bind givesSecond.overItems,
    givesFirst.overItems, gather_bind]

/-- Run filters over all items, one after the other. -/
def inTurn (filters : List (ContentFilter World)) (content : List Content) :
    EStateM FilterError (Workspace World) (List Content) :=
  filters.foldlM (fun content filter => filter.overItems content) content

end ContentFilter

namespace Document

variable {World : Type}

/-- What becomes of a document over whose items filters were run. -/
def afterRun (document : Document) :
    EStateM.Result FilterError (Workspace World) (List Content) →
      EStateM.Result FilterError (Document × World) Unit
  | .ok content workspace =>
    .ok () ({ document with references := workspace.references, content }, workspace.world)
  | .error cause workspace =>
    .error cause
      ({ document with references := workspace.references, content := [] }, workspace.world)

theorem apply_eq (filter : ContentFilter World) (document : Document) (world : World) :
    apply filter (document, world) =
      document.afterRun (filter.overItems document.content ⟨document.references, world⟩) := by
  simp only [apply]
  cases filter.overItems document.content ⟨document.references, world⟩ <;> rfl

theorem forM_apply (filters : List (ContentFilter World)) (document : Document) (world : World) :
    filters.forM apply (document, world) =
      document.afterRun
        (ContentFilter.inTurn filters document.content ⟨document.references, world⟩) := by
  induction filters generalizing document world with
  | nil => rfl
  | cons filter rest ih =>
    have isCons : (filter :: rest).forM apply =
        (apply filter >>= fun _ => rest.forM apply :
          EStateM FilterError (Document × World) Unit) := rfl
    rw [isCons]
    simp only [ContentFilter.inTurn, List.foldlM_cons, bind, EStateM.bind, apply_eq]
    cases filter.overItems document.content ⟨document.references, world⟩ with
    | ok content workspace =>
      have isRest := ih { document with references := workspace.references, content }
        workspace.world
      exact isRest
    | error cause workspace => rfl

/-- The content of the document that a run leaves, if it succeeds. -/
def contentAfter? : EStateM.Result FilterError (Document × World) Unit → Option (List Content)
  | .ok _ (document, _) => some document.content
  | .error _ _ => none

theorem contentAfter?_afterRun (document : Document)
    (result : EStateM.Result FilterError (Workspace World) (List Content)) :
    contentAfter? (document.afterRun result) = ContentFilter.produced? result := by
  cases result <;> rfl

theorem contentAfter?_apply_compose {first second : ContentFilter World}
    (firstDepends : first.DependsOnItem) (secondDepends : second.DependsOnItem)
    (document : Document) (world : World) :
    contentAfter? (apply (ContentFilter.compose first second) (document, world)) =
      contentAfter? ([first, second].forM apply (document, world)) := by
  rw [apply_eq, forM_apply, contentAfter?_afterRun, contentAfter?_afterRun,
    ContentFilter.produced?_overItems_compose firstDepends secondDepends]
  simp only [ContentFilter.inTurn, List.foldlM_cons, List.foldlM_nil, bind_pure]

end Document

namespace ContentFilter

/-- The laws of composition, up to the causes of failures where filters are grouped anew. -/
structure LawfulCompose (World : Type) : Prop where
  identity_left : ∀ filter : ContentFilter World, compose identity filter = filter
  identity_right : ∀ filter : ContentFilter World, compose filter identity = filter
  assoc : ∀ first second third : ContentFilter World,
    first.DependsOnItem → second.DependsOnItem → third.DependsOnItem → ∀ item workspace,
      produced? (compose (compose first second) third item workspace) =
        produced? (compose first (compose second third) item workspace)
  inTurn : ∀ first second : ContentFilter World, first.DependsOnItem → second.DependsOnItem →
    ∀ (document : Document) (world : World),
      Document.contentAfter? (Document.apply (compose first second) (document, world)) =
        Document.contentAfter? ([first, second].forM Document.apply (document, world))

theorem lawful_compose (World : Type) : LawfulCompose World where
  identity_left := compose_identity
  identity_right := identity_compose
  assoc _ _ _ firstDepends secondDepends thirdDepends :=
    produced?_compose_assoc firstDepends secondDepends thirdDepends
  inTurn _ _ firstDepends secondDepends :=
    Document.contentAfter?_apply_compose firstDepends secondDepends

/-- Grouped in two ways, filters that refuse different texts fail for different causes. -/
theorem lawful_compose_refusals :
    ∃ numbers noSecond noFirst : ContentFilter Unit,
      numbers.DependsOnItem ∧ noSecond.DependsOnItem ∧ noFirst.DependsOnItem ∧
      (∀ workspace,
        compose (compose numbers noSecond) noFirst (.plainText "a".toList) workspace =
          .error (.missingSessionAttribute "a2".toList) workspace ∧
        compose numbers (compose noSecond noFirst) (.plainText "a".toList) workspace =
          .error (.missingSessionAttribute "a1".toList) workspace) ∧
      (∀ item workspace,
        produced? (compose (compose numbers noSecond) noFirst item workspace) =
          produced? (compose numbers (compose noSecond noFirst) item workspace)) ∧
      ∀ document,
        Document.contentAfter? (Document.apply (compose numbers noSecond) (document, ())) =
          Document.contentAfter? ([numbers, noSecond].forM Document.apply (document, ())) := by
  let numbers : ContentFilter Unit := fun item =>
    if item = .plainText "a".toList then pure [.plainText "a1".toList, .plainText "a2".toList]
    else pure [item]
  let no (refused : Text) : ContentFilter Unit := fun item =>
    if item = .plainText refused then throw (.missingSessionAttribute refused) else pure [item]
  have numbersDepends : numbers.DependsOnItem := by
    intro item workspace other
    by_cases isNumbered : item = .plainText "a".toList <;>
      simp only [numbers, isNumbered, ↓reduceIte] <;> rfl
  have noDepends : ∀ refused, (no refused).DependsOnItem := by
    intro refused item workspace other
    by_cases isRefused : item = .plainText refused <;> simp only [no, isRefused, ↓reduceIte] <;> rfl
  have laws := lawful_compose Unit
  refine ⟨numbers, no "a2".toList, no "a1".toList, numbersDepends, noDepends _, noDepends _, ?_,
    ?_, ?_⟩
  · exact fun workspace => ⟨rfl, rfl⟩
  · exact laws.assoc _ _ _ numbersDepends (noDepends _) (noDepends _)
  · exact fun document => laws.inTurn _ _ numbersDepends (noDepends _) document ()

end ContentFilter

end LiterateMarkdown
