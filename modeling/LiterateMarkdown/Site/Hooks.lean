import LiterateMarkdown.Build.Tool
import LiterateMarkdown.Config.Basic
import LiterateMarkdown.Content.Passes

/-!
# Filtering the pages of a site

A site generator calls on two functions. Before a build, the sync command brings the pages up to
date. Then each page is filtered: by the content chain when recorded sessions are to be shown, and
else line by line. Build scripts are run by the configured tool, and their outcome never shows on
the page.
-/

namespace LiterateMarkdown

/-- Why the sync command did not succeed. -/
inductive SyncError where
  /-- The command is empty. -/
  | emptyCommand
  /-- The program could not be started. -/
  | spawn (program : Text)
  /-- The command reports a failure. -/
  | failed (command : Text) (status : ExitStatus)
  deriving DecidableEq, Repr

/-- The wording of a sync error, up to what the system adds. -/
def SyncError.message : SyncError → Text
  | emptyCommand => "no sync command configured".toList
  | spawn program => "failed to run `".toList ++ program ++ "`".toList
  | failed command status =>
    "`".toList ++ command ++ "` exited with exit status: ".toList ++ Text.ofNat status.code

namespace Site

/-- Bring the pages up to date. -/
def sync (programs : Programs) (config : Config) (system : System) :
    System × Except SyncError Unit :=
  if !config.sync.enabled then (system, .ok ())
  else
    match config.sync.command with
    | [] => (system, .error .emptyCommand)
    | program :: arguments =>
      match programs.startIn config.projectRoot program arguments system with
      | none => (system, .error (.spawn program))
      | some (system, status) =>
        if status.success then (system, .ok ())
        else (system, .error (.failed (Text.join [' '] config.sync.command) status))

variable {World : Type}

/-- The filters that make up the content chain. -/
def contentChain (config : Config) (runner : BuildRunner World) (files : World → FileTree) :
    List (ContentFilter World) :=
  [ ContentFilter.addTitle,
    ContentFilter.runBuildArtifacts config.build.filterOptions runner,
    ContentFilter.includeReplOutput ⟨config.projectRoot, config.repl.outputSuffix⟩ files ]

/-- Filter a page by the content chain. -/
def filterByBlocks (config : Config) (runner : BuildRunner World) (files : World → FileTree)
    (world : World) (page : Text) : World × Except FilterError Text :=
  match Document.read page with
  | .error cause => (world, .error cause)
  | .ok document =>
    let chain := ContentFilter.composeAll (contentChain config runner files)
    match Document.apply chain (document, world) with
    | .error cause (_, world) => (world, .error cause)
    | .ok _ (document, world) => (world, document.render)

/-- Filter a page line by line. -/
def filterByLines (config : Config) (runner : BuildRunner World) (world : World) (page : Text) :
    World × Text :=
  let (state, filtered) :=
    LineFilter.run config.build.filterOptions runner (.initial world) page
  (state.world, filtered)

/-- Filter a page, running its build scripts with `runner`. -/
def filterPageWith (config : Config) (runner : BuildRunner World) (files : World → FileTree)
    (world : World) (page : Text) : World × Except FilterError Text :=
  if config.repl.enabled then filterByBlocks config runner files world page
  else
    let (world, filtered) := filterByLines config runner world page
    (world, .ok filtered)

/-- The runner that a configuration asks for. -/
def configuredRunner (programs : Programs) (config : Config) : BuildRunner System :=
  if config.build.enabled then
    BuildTool.runner ⟨config.build.command, config.build.scriptName, config.projectRoot⟩ programs
  else .idle

/-- Filter a page, running its build scripts with the configured tool. -/
def filterPage (programs : Programs) (config : Config) (system : System) (page : Text) :
    System × Except FilterError Text :=
  filterPageWith config (configuredRunner programs config) System.files system page

end Site

end LiterateMarkdown
