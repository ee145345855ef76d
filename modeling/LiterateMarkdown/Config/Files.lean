import LiterateMarkdown.Config.Writer
import LiterateMarkdown.Files.Expansion
import LiterateMarkdown.Files.Tree

/-!
# Configuration files

Loading a configuration from a file and saving it to one. The paths of a loaded configuration are
expanded; those of a saved one are written as they are.
-/

namespace LiterateMarkdown

/-- Why a configuration cannot be loaded. -/
inductive ConfigError where
  | unreadable (path : Path)
  | malformed (path : Path)
  deriving DecidableEq, Repr

/-- The wording of a configuration error, up to what the cause adds. -/
def ConfigError.message : ConfigError → Text
  | unreadable path => "Failed to read config file at ".toList ++ path
  | malformed path => "Failed to parse config file at ".toList ++ path

namespace Config

/-- Where the configuration is looked for if nothing else is said. -/
def defaultPath (environment : Environment) : Path :=
  Path.append (Path.expandTilde environment "~/.config/markdown-entangled".toList)
    "config.toml".toList

/-- The configuration with its paths expanded. -/
def expandPaths (environment : Environment) (config : Config) : Config :=
  { config with
    projectRoot := Path.expand environment config.projectRoot
    docsDir := Path.expand environment config.docsDir
    siteDir := Path.expand environment config.siteDir }

/-- Load the configuration in a file, if there is one. -/
def load (environment : Environment) (files : FileTree) (path : Path) :
    Except ConfigError (Option Config) :=
  if !files.pathExists path then .ok none
  else
    match files.readText path with
    | .error _ => .error (.unreadable path)
    | .ok text =>
      match ofText? text with
      | none => .error (.malformed path)
      | some config => .ok (some (config.expandPaths environment))

/-- Save a configuration to a file, and make the directories that are missing for it. -/
def save (files : FileTree) (path : Path) (config : Config) : FileTree × Except FileError Unit :=
  match files.makeDirectories (Path.parent path) with
  | (files, .error cause) => (files, .error cause)
  | (files, .ok ()) =>
    match files.writeText path config.toText with
    | .error cause => (files, .error cause)
    | .ok files => (files, .ok ())

end Config

end LiterateMarkdown
