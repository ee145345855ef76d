import LiterateMarkdown.Config.Reader

/-!
# Writing a configuration

Every setting is written, in a fixed order, and each group under a header of its own.
-/

namespace LiterateMarkdown

namespace Config

/-- A setting on a line of its own. -/
def settingLine (name : String) (value : Text) : Text :=
  name.toList ++ " = ".toList ++ value ++ ['\n']

/-- A truth value as it is written. -/
def writeBoolean (value : Bool) : Text :=
  (if value then "true" else "false").toList

/-- A string as it is written. -/
def writeText (value : Text) : Text :=
  (QuoteStyle.ofValue value).write value

/-- A list of strings as it is written: each on a line of its own if there is more than one. -/
def writeTexts (values : List Text) : Text :=
  match values with
  | [] => "[]".toList
  | [value] => '[' :: writeText value ++ [']']
  | _ =>
    "[\n".toList ++
      (values.flatMap fun value => "    ".toList ++ writeText value ++ ",\n".toList) ++ [']']

/-- Write a configuration. -/
def toText (config : Config) : Text :=
  settingLine "project_root" (writeText config.projectRoot) ++
  settingLine "docs_dir" (writeText config.docsDir) ++
  settingLine "site_dir" (writeText config.siteDir) ++
  "\n[build]\n".toList ++
  settingLine "enabled" (writeBoolean config.build.enabled) ++
  settingLine "command" (writeTexts config.build.command) ++
  settingLine "script_name" (writeText config.build.scriptName) ++
  settingLine "closing_fence" (writeText config.build.closingFence.toText) ++
  "\n[repl]\n".toList ++
  settingLine "enabled" (writeBoolean config.repl.enabled) ++
  settingLine "output_suffix" (writeText config.repl.outputSuffix) ++
  "\n[sync]\n".toList ++
  settingLine "enabled" (writeBoolean config.sync.enabled) ++
  settingLine "command" (writeTexts config.sync.command)

end Config

end LiterateMarkdown
