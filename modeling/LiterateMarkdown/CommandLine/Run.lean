import LiterateMarkdown.CommandLine.Arguments
import LiterateMarkdown.Config.Files
import LiterateMarkdown.Site.Hooks
import LiterateMarkdown.Site.Pages

/-!
# Running a command line

A command line acts on the system and ends in one of three ways: it is done, it was not understood,
or it failed. The first failure ends a command; what was done before it stays done.
-/

namespace LiterateMarkdown

/-- Why a command fails. -/
inductive CommandError where
  | config (cause : ConfigError)
  | sync (cause : SyncError)
  /-- The page to filter cannot be read. -/
  | read (file : Path) (cause : FileError)
  /-- The page to filter is not named relative to the site. -/
  | pagePath (file : Path)
  /-- The pages of the site cannot be listed. -/
  | index (docs : Path) (cause : PageError)
  | filter (path : Path) (cause : FilterError)
  /-- The filtered page cannot be written. -/
  | write (file : Path) (cause : FileError)
  | page (cause : PageError)
  /-- There is a configuration already. -/
  | configExists (path : Path)
  /-- The configuration cannot be saved. -/
  | save (cause : FileError)
  deriving DecidableEq, Repr

/-- What the system says about a failed operation on files. -/
def FileError.message : FileError → Text
  | notFound => "No such file or directory (os error 2)".toList
  | notADirectory => "Not a directory (os error 20)".toList
  | isADirectory => "Is a directory (os error 21)".toList
  | alreadyExists => "File exists (os error 17)".toList
  | notText => "stream did not contain valid UTF-8".toList

/-- The wording of the outermost error, up to what its cause adds. -/
def CommandError.message : CommandError → Text
  | config cause => cause.message
  | sync _ => "sync failed".toList
  | read file _ => "failed to read ".toList ++ file
  | pagePath file => "invalid page path ".toList ++ file
  | index docs _ => "failed to index ".toList ++ docs
  | filter path _ => "failed to filter ".toList ++ path
  | write file _ => "failed to write ".toList ++ file
  | page cause => cause.message
  | configExists path => path ++ " already exists, pass --force to overwrite it".toList
  | save cause => cause.message

/-- How a command line ends. -/
inductive Ending where
  | done
  | notUnderstood
  | failed (cause : CommandError)
  deriving DecidableEq, Repr

/-- The exit code of the program. -/
def Ending.exitCode : Ending → Nat
  | done => 0
  | failed _ => 1
  | notUnderstood => 2

namespace CommandLine

/-- An action on the system. What it did before it failed stays done. -/
abbrev Action := EStateM CommandError System

/-- The name and the version of the program. -/
def versionLine : Text :=
  "markdown-entangled 0.3.0\n".toList

/-- What the program says about itself. -/
def helpText : Text :=
  ("Render literate Markdown pages for a static site\n\n" ++
    "Usage: markdown-entangled [OPTIONS] <COMMAND>\n").toList

/-- Do something that may fail before it changes anything. -/
def check {Cause Value : Type} (wrap : Cause → CommandError) :
    Except Cause Value → Action Value
  | .ok value => pure value
  | .error cause => throw (wrap cause)

/-- Do something that changes the files, and may fail after that. -/
def onFiles {Cause : Type} (wrap : Cause → CommandError)
    (change : FileTree → FileTree × Except Cause Unit) : Action Unit := do
  let (files, result) := change (← get).files
  modify fun system => { system with files }
  check wrap result

/-- Do something that changes the system, and may fail after that. -/
def onSystem {Cause Value : Type} (wrap : Cause → CommandError)
    (change : System → System × Except Cause Value) : Action Value := do
  let (system, result) := change (← get)
  set system
  check wrap result

/-- Load the configuration, or take the default one if there is none. -/
def loadConfig (environment : Environment) (path : Path) : Action Config := do
  return (← check .config (Config.load environment (← get).files path)).getD {}

/-- Run the command that brings the pages up to date. -/
def sync (programs : Programs) (config : Config) : Action Unit :=
  onSystem .sync (Site.sync programs config)

/-- Filter one page. -/
def filterFile (programs : Programs) (config : Config) (file : Path) (output : Option Path) :
    Action Unit := do
  let page ← check (.read file) ((← get).files.readText file)
  let docs := config.docsPath
  if Path.isAbsolute file && !Path.isWithin docs file then throw (.pagePath file)
  if (← get).files.isDirectory docs then
    let _ ← check (.index docs) (Pages.scanPages (← get).files docs)
  let filtered ←
    onSystem (.filter file) fun system => Site.filterPage programs config system page
  match output with
  | some output =>
    onFiles (.write output) fun files =>
      match files.writeText output filtered with
      | .ok files => (files, .ok ())
      | .error cause => (files, .error cause)
  | none => modify fun system => system.print (Utf8.encode filtered)

/-- Filter one page of the site into the directory of filtered pages. -/
def filterSitePage (programs : Programs) (config : Config) (path : Path) : Action Unit := do
  let page ← check .page (Pages.read (← get).files config.docsPath path)
  let filtered ←
    onSystem (.filter path) fun system => Site.filterPage programs config system page
  onFiles .page fun files => Pages.write files config.sitePath path filtered

/-- Filter every page of the site. -/
def buildSite (programs : Programs) (config : Config) (skipSync : Bool) : Action Unit := do
  if !skipSync then sync programs config
  let docs := config.docsPath
  check .page (Pages.validate (← get).files docs)
  let pages ← check .page (Pages.scanPages (← get).files docs)
  pages.forM (filterSitePage programs config)

/-- Write the default configuration. -/
def initConfig (path : Path) (force : Bool) : Action Unit := do
  if (← get).files.pathExists path && !force then throw (.configExists path)
  onFiles .save fun files => Config.save files path {}

/-- Carry out a command. -/
def carryOut (programs : Programs) (environment : Environment) (configPath : Path) :
    Command → Action Unit
  | .sync => do sync programs (← loadConfig environment configPath)
  | .filter file output => do
    filterFile programs (← loadConfig environment configPath) file output
  | .build skipSync => do buildSite programs (← loadConfig environment configPath) skipSync
  | .initConfig force => initConfig configPath force

/-- Run a command line. -/
def run (programs : Programs) (environment : Environment) (arguments : List Text)
    (system : System) : System × Ending :=
  match Request.ofCommandLine? arguments with
  | none => (system, .notUnderstood)
  | some .version => (system.print (Utf8.encode versionLine), .done)
  | some .help => (system.print (Utf8.encode helpText), .done)
  | some (.run config command) =>
    let configPath := config.getD (Config.defaultPath environment)
    match carryOut programs environment configPath command system with
    | .ok _ system => (system, .done)
    | .error cause system => (system, .failed cause)

end CommandLine

end LiterateMarkdown
