import LiterateMarkdown.Proofs.LineEnding.Content
import LiterateMarkdown.Proofs.LineEnding.LineFilter

/-!
# Filtering pages with CRLF line endings

A page with CRLF line endings is filtered like the page with plain ones: the result is the same up
to its line endings, an error is the same error, and the runner is handed the same scripts in the
same order (`Site.filterPageWith_toCrlf`). The lines that are left of the page correspond one by one
(`Site.filteredLines_toCrlf`). Writing them brings in the newline at the end of the page, which is
there even if no line is left that could end in a carriage return.
-/

namespace LiterateMarkdown

/-- The blocks of a page without carriage returns. -/
theorem Document.isPlain_of_read {World : Type} {page : Text} {document : Document}
    (noReturn : '\r' ∉ page) (isRead : read page = .ok document) (world : World) :
    Workspace.IsPlain ⟨document.references, world⟩ := by
  rcases exists_ofPage_of_read isRead with ⟨segments, isCut, rfl⟩
  intro id block registered
  have isSegment := (shows_ofSegments segments).mem_segments registered
  rcases Segment.isFenced_of_ofPage isCut _ isSegment with ⟨⟨fence, fenced⟩, _⟩
  have unbroken : ∀ line ∈ block.lines, line.Unbroken := by
    intro line isLine
    apply Lines.unbroken_of_mem_ofText noReturn
    rw [← Segment.lines_of_ofPage isCut]
    exact List.mem_flatMap.mpr ⟨.block block, isSegment, isLine⟩
  simp only [Block.lines, List.cons_append, List.forall_mem_cons, List.forall_mem_append]
    at unbroken
  refine ⟨?_, ?_, unbroken.2.1, ?_⟩
  · rw [fenced.sameEnding]
    exact OpenFence.lineEnding_eq_nil unbroken.1.2 fenced.found
  · rw [fenced.sameIndent]
    exact OpenFence.return_not_mem_indent fenced.found
  · rw [ContentFilter.openLine_titledBlock fenced]
    exact Fence.newline_not_mem_titledLine fenced.found fenced.parsed

namespace Site

variable {World : Type} (config : Config) (runner : BuildRunner World) (files : World → FileTree)

/-- The lines that are left of a page that is filtered. -/
def filteredLines (world : World) (page : Text) : World × Except FilterError (List Text) :=
  if config.repl.enabled then
    match Document.read page with
    | .error cause => (world, .error cause)
    | .ok document =>
      match Document.apply (chain config runner files) (document, world) with
      | .error cause (_, world) => (world, .error cause)
      | .ok _ (document, world) =>
        (world, Document.contentLines document.references document.content)
  else
    let (state, lines) := Rule.applyLines (LineFilter.rules config.build.filterOptions runner)
      .exclusive (.initial world) (Lines.ofText page).items
    (state.world, .ok lines)

/-- Filtering a page is writing the lines that are left of it. -/
theorem filterPageWith_eq (world : World) (page : Text) :
    filterPageWith config runner files world page =
      ((filteredLines config runner files world page).1,
        (filteredLines config runner files world page).2.map fun lines =>
          Lines.toText ⟨lines, (Lines.ofText page).endsWithNewline⟩) := by
  simp only [filterPageWith, filteredLines]
  cases config.repl.enabled with
  | false => rfl
  | true =>
    simp only [filterByBlocks, ↓reduceIte]
    rw [show ContentFilter.composeAll (contentChain config runner files) =
      chain config runner files from rfl]
    cases isRead : Document.read page with
    | error cause => rfl
    | ok document =>
      rcases Document.exists_ofPage_of_read isRead with ⟨segments, _, rfl⟩
      simp only [Document.apply]
      cases (chain config runner files).overItems _ _ with
      | error cause after => rfl
      | ok content after =>
        simp only [Document.render, bind, Except.bind]
        cases Document.contentLines after.references content <;> rfl

theorem isTransparent_chain : (chain config runner files).IsTransparent := by
  apply ContentFilter.isTransparent_composeAll
  intro filter isFilter
  simp only [contentChain, List.mem_cons, List.not_mem_nil, or_false] at isFilter
  rcases isFilter with rfl | rfl | rfl
  · exact ContentFilter.isTransparent_addTitle
  · exact ContentFilter.isTransparent_runBuildArtifacts _ runner
  · exact ContentFilter.isTransparent_includeReplOutput _ files

/-- What is left of a page with CRLF line endings are the same lines. -/
theorem filteredLines_toCrlf (world : World) {page : Text} (noReturn : '\r' ∉ page)
    (ended : page = [] ∨ page.getLast? = some '\n') :
    filteredLines config runner files world (Text.toCrlf page) =
      ((filteredLines config runner files world page).1,
        (filteredLines config runner files world page).2.map (List.map Text.crlfLine)) := by
  simp only [filteredLines]
  cases config.repl.enabled with
  | false =>
    have unbroken : ∀ line ∈ (Lines.ofText page).items, line.Unbroken := by
      intro line isLine
      exact Lines.unbroken_of_mem_ofText noReturn isLine
    let start : LineFilter.State World := .initial world
    have noIndent : '\r' ∉ start.scan.scriptIndent := List.not_mem_nil
    have isRun := LineFilter.advance_map_crlfLine config.build.filterOptions unbroken noIndent
    simp only [LineFilter.applyLines_rules, LineFilter.Progress.run, Lines.ofText_toCrlf ended]
    rw [isRun]
    rfl
  | true =>
    simp only [↓reduceIte, Document.read_toCrlf noReturn ended]
    cases isRead : Document.read page with
    | error cause => rfl
    | ok document =>
      have plain := Document.isPlain_of_read noReturn isRead world
      have alike := (isTransparent_chain config runner files).overItems document.content plain
      have sameStart : Workspace.toCrlf ⟨document.references, world⟩ =
          ⟨document.references.toCrlf, world⟩ := rfl
      rw [sameStart] at alike
      simp only [Except.map, Document.apply, Document.toCrlf]
      generalize (chain config runner files).overItems document.content _ = result at alike ⊢
      generalize (chain config runner files).overItems (document.content.map _) _ = other at alike ⊢
      cases alike with
      | ok afterPlain => exact congrArg _ (Document.contentLines_toCrlf _ _)
      | error cause after => rfl

/-- Whether no line is left of a page that has lines. -/
def ErasesAll (world : World) (page : Text) : Prop :=
  page ≠ [] ∧ (filteredLines config runner files world page).2 = .ok []

theorem filteredLines_nil (world : World) :
    filteredLines config runner files world [] = (world, .ok []) := by
  simp only [filteredLines]
  cases config.repl.enabled <;> rfl

/--
A page with CRLF line endings is filtered like the page with plain ones, and the runner is handed
the same scripts. Of a page that is erased as a whole a newline is left, which stays as it is.
-/
theorem filterPageWith_toCrlf (config : Config) (runner : BuildRunner World)
    (files : List Text × World → FileTree) (world : World) {page : Text} (noReturn : '\r' ∉ page)
    (ended : page = [] ∨ page.getLast? = some '\n')
    (remains : ¬ ErasesAll config runner.noting files ([], world) page) :
    ∃ scripts after result,
      filterPageWith config runner.noting files ([], world) page = ((scripts, after), result) ∧
      filterPageWith config runner.noting files ([], world) (Text.toCrlf page) =
        ((scripts, after), result.map Text.toCrlf) := by
  have sameLines := filteredLines_toCrlf config runner.noting files ([], world) noReturn ended
  rcases isLeft : filteredLines config runner.noting files ([], world) page with
    ⟨⟨scripts, after⟩, left⟩
  rw [isLeft] at sameLines
  refine ⟨scripts, after,
    left.map fun lines => Lines.toText ⟨lines, (Lines.ofText page).endsWithNewline⟩, ?_, ?_⟩
  · rw [filterPageWith_eq, isLeft]
  rw [filterPageWith_eq, sameLines, Lines.ofText_toCrlf ended]
  cases left with
  | error cause => rfl
  | ok lines =>
    have isWritten : Lines.toText ⟨lines.map Text.crlfLine, (Lines.ofText page).endsWithNewline⟩ =
        Text.toCrlf (Lines.toText ⟨lines, (Lines.ofText page).endsWithNewline⟩) := by
      rcases ended with rfl | ended
      · rw [filteredLines_nil] at isLeft
        cases isLeft
        rfl
      · have nonempty : lines ≠ [] := by
          rintro rfl
          apply remains
          refine ⟨?_, congrArg Prod.snd isLeft⟩
          rintro rfl
          contradiction
        have stillEnded : (Lines.ofText page).endsWithNewline = true := by
          simp [Lines.ofText, ended]
        rw [stillEnded]
        exact Lines.toText_map_crlfLine nonempty
    simp only [Except.map, isWritten]

/-- A page with a script, a titled block and a block that shows a session. -/
theorem filterPageWith_toCrlf_session :
    ∃ config record tree page text,
      config = ({ build := ⟨true, [], [], .verbatim⟩, repl := ⟨true, ".o".toList⟩ } : Config) ∧
      record = "\x7b\"commands\":[\x7b\"command\":\"\",\"output\":\"1\\n2\"\x7d]\x7d".toList ∧
      tree = (⟨[(["s".toList], .file []), (["s.o".toList], .file (Utf8.encode record))], []⟩ :
        FileTree) ∧
      page = ("  ``` \x7b.build-artifact\x7d\n  all:\n  ```\n" ++
        "``` \x7b.repl #a session=s\x7d\n```\n").toList ∧
      text = ("  ```build-artifact\n  ```\n```repl \x7b#a title=\"#a\"\x7d\n```\n" ++
        "\n``` \x7b.text .output\x7d\n1\n2\n```\n").toList ∧
      filterPageWith config BuildRunner.idle.noting (fun _ => tree) ([], ()) page =
        ((["all:".toList], ()), .ok text) ∧
      filterPageWith config BuildRunner.idle.noting (fun _ => tree) ([], ()) (Text.toCrlf page) =
        ((["all:".toList], ()), .ok (Text.toCrlf text)) := by
  generalize isConfig : ({ build := ⟨true, [], [], .verbatim⟩, repl := ⟨true, ".o".toList⟩ } :
    Config) = config
  generalize isRecord :
    "\x7b\"commands\":[\x7b\"command\":\"\",\"output\":\"1\\n2\"\x7d]\x7d".toList = record
  generalize isTree : (⟨[(["s".toList], .file []), (["s.o".toList], .file (Utf8.encode record))],
    []⟩ : FileTree) = tree
  generalize isPage : ("  ``` \x7b.build-artifact\x7d\n  all:\n  ```\n" ++
    "``` \x7b.repl #a session=s\x7d\n```\n").toList = page
  generalize isText : ("  ```build-artifact\n  ```\n```repl \x7b#a title=\"#a\"\x7d\n```\n" ++
    "\n``` \x7b.text .output\x7d\n1\n2\n```\n").toList = text
  have isFiltered : filterPageWith config BuildRunner.idle.noting (fun _ => tree) ([], ()) page =
      ((["all:".toList], ()), .ok text) := by
    subst isConfig isTree isRecord isPage isText
    decide +kernel
  have noReturn : '\r' ∉ page := by
    subst isPage
    decide +kernel
  have ended : page.getLast? = some '\n' := by
    subst isPage
    decide +kernel
  have remains : ¬ ErasesAll config BuildRunner.idle.noting (fun _ => tree) ([], ()) page := by
    rintro ⟨_, erased⟩
    rw [filterPageWith_eq, erased] at isFiltered
    have isShort := Except.ok.inj (congrArg Prod.snd isFiltered)
    have atMost : text.length ≤ 1 := by
      rw [← isShort]
      cases (Lines.ofText page).endsWithNewline <;> decide
    subst isText
    revert atMost
    decide +kernel
  rcases filterPageWith_toCrlf config .idle (fun _ => tree) () noReturn (.inr ended) remains with
    ⟨scripts, after, result, isPlain, isCrlf⟩
  rw [isFiltered] at isPlain
  cases isPlain
  exact ⟨config, record, tree, page, text, rfl, rfl, isTree.symm, rfl, rfl, isFiltered, isCrlf⟩

end Site

end LiterateMarkdown
