import LiterateMarkdown.Files.Path
import LiterateMarkdown.LineFilter

/-!
# Configuration

What a site says about its directories, its build scripts, its recorded sessions and the command
that brings its pages up to date. Every setting has a default.
-/

namespace LiterateMarkdown

/-- How build scripts are run. -/
structure BuildConfig where
  enabled : Bool := false
  /-- The program and its first arguments; the path of the script comes after them. -/
  command : List Text := ["make".toList, "-f".toList]
  /-- The file name under which a script is handed to the program. -/
  scriptName : Text := "Makefile".toList
  closingFence : ClosingFence := .verbatim
  deriving DecidableEq, Repr

/-- How recorded sessions are shown. -/
structure ReplConfig where
  enabled : Bool := false
  /-- What an output file has in place of the extension of its session file. -/
  outputSuffix : Text := ".out.json".toList
  deriving DecidableEq, Repr

/-- How the pages are brought up to date before a build. -/
structure SyncConfig where
  enabled : Bool := true
  command : List Text := ["entangled".toList, "sync".toList]
  deriving DecidableEq, Repr

/-- The configuration of a site. -/
structure Config where
  /-- The directory in which sessions are looked for and commands are run. -/
  projectRoot : Path := ".".toList
  docsDir : Path := "docs".toList
  siteDir : Path := "site".toList
  build : BuildConfig := {}
  repl : ReplConfig := {}
  sync : SyncConfig := {}
  deriving DecidableEq, Repr

namespace Config

/-- A path of the site as seen from where the program runs. -/
def resolve (config : Config) (path : Path) : Path :=
  Path.append config.projectRoot path

/-- The directory of the pages to filter. -/
def docsPath (config : Config) : Path :=
  config.resolve config.docsDir

/-- The directory of the filtered pages. -/
def sitePath (config : Config) : Path :=
  config.resolve config.siteDir

end Config

namespace BuildConfig

/-- What the line filter does with build scripts. -/
def filterOptions (config : BuildConfig) : FilterOptions :=
  ⟨config.enabled, config.closingFence⟩

end BuildConfig

end LiterateMarkdown
