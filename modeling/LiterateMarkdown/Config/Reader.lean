import LiterateMarkdown.Config.Basic
import LiterateMarkdown.Toml.Reader

/-!
# Reading a configuration

A configuration is a TOML table. Settings that are missing have their default values, and keys that
are no settings are ignored. A group of settings may also be written as an array, in order.
-/

namespace LiterateMarkdown

namespace TomlValue

/-- The text of a string. -/
def text? : TomlValue → Option Text
  | string text => some text
  | _ => none

/-- The truth value of a boolean. -/
def boolean? : TomlValue → Option Bool
  | boolean value => some value
  | _ => none

/-- The texts of an array of strings. -/
def texts? : TomlValue → Option (List Text)
  | array items => items.mapM text?
  | _ => none

/-- The values of the named settings of a group, as far as they are there. -/
def settings? (names : List Text) : TomlValue → Option (List (Option TomlValue))
  | table _ entries => some (names.map (List.lookup · entries))
  | array items => some (names.mapIdx fun index _ => items[index]?)
  | tables items =>
    some (names.mapIdx fun index _ => items[index]?.map fun entries => table .header entries)
  | _ => none

/-- A setting that may be missing. -/
def withDefault? {Value : Type} (default : Value) (read : TomlValue → Option Value) :
    Option TomlValue → Option Value
  | none => some default
  | some value => read value

end TomlValue

namespace ClosingFence

/-- The name of a policy. -/
def toText : ClosingFence → Text
  | verbatim => "verbatim".toList
  | suppress => "suppress".toList

/-- The policy with a name. -/
def ofText? (name : Text) : Option ClosingFence :=
  [verbatim, suppress].find? fun policy => policy.toText = name

/-- A policy is given by its name, or by a table whose only key is its name and has no content. -/
def ofToml? : TomlValue → Option ClosingFence
  | .string name => ofText? name
  | .table _ [(name, .table _ [])] => ofText? name
  | .table _ [(name, .array [])] => ofText? name
  | _ => none

end ClosingFence

namespace BuildConfig

/-- Read the settings of build scripts. -/
def ofToml? (value : TomlValue) : Option BuildConfig := do
  let default : BuildConfig := {}
  let names := ["enabled", "command", "script_name", "closing_fence"].map String.toList
  match ← value.settings? names with
  | [enabled, command, scriptName, closingFence] =>
    return {
      enabled := ← TomlValue.withDefault? default.enabled TomlValue.boolean? enabled
      command := ← TomlValue.withDefault? default.command TomlValue.texts? command
      scriptName := ← TomlValue.withDefault? default.scriptName TomlValue.text? scriptName
      closingFence :=
        ← TomlValue.withDefault? default.closingFence ClosingFence.ofToml? closingFence }
  | _ => none

end BuildConfig

namespace ReplConfig

/-- Read the settings of recorded sessions. -/
def ofToml? (value : TomlValue) : Option ReplConfig := do
  let default : ReplConfig := {}
  match ← value.settings? ["enabled".toList, "output_suffix".toList] with
  | [enabled, outputSuffix] =>
    return {
      enabled := ← TomlValue.withDefault? default.enabled TomlValue.boolean? enabled
      outputSuffix := ← TomlValue.withDefault? default.outputSuffix TomlValue.text? outputSuffix }
  | _ => none

end ReplConfig

namespace SyncConfig

/-- Read the settings of the command that brings the pages up to date. -/
def ofToml? (value : TomlValue) : Option SyncConfig := do
  let default : SyncConfig := {}
  match ← value.settings? ["enabled".toList, "command".toList] with
  | [enabled, command] =>
    return {
      enabled := ← TomlValue.withDefault? default.enabled TomlValue.boolean? enabled
      command := ← TomlValue.withDefault? default.command TomlValue.texts? command }
  | _ => none

end SyncConfig

namespace Config

/-- Read a configuration from the table of a whole file. -/
def ofTable? (table : TomlTable) : Option Config := do
  let default : Config := {}
  let setting {Value : Type} (name : String) (value : Value)
      (read : TomlValue → Option Value) : Option Value :=
    TomlValue.withDefault? value read (table.get? name.toList)
  return {
    projectRoot := ← setting "project_root" default.projectRoot TomlValue.text?
    docsDir := ← setting "docs_dir" default.docsDir TomlValue.text?
    siteDir := ← setting "site_dir" default.siteDir TomlValue.text?
    build := ← setting "build" default.build BuildConfig.ofToml?
    repl := ← setting "repl" default.repl ReplConfig.ofToml?
    sync := ← setting "sync" default.sync SyncConfig.ofToml? }

/-- Read a configuration from the text of a file. -/
def ofText? (text : Text) : Option Config :=
  TomlReader.ofText? text >>= ofTable?

end Config

end LiterateMarkdown
