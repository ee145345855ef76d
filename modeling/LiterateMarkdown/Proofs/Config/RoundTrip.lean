import LiterateMarkdown.Config.Files
import LiterateMarkdown.Proofs.Files.Writing
import LiterateMarkdown.Proofs.Toml.Lines
import LiterateMarkdown.Proofs.Toml.Table

/-!
# Loading saved configurations

A saved configuration consists of settings and headers, each a part of the file that can be left out
(`Config.textOf`). Whatever settings and whole groups are left out, the rest of the file is read as
the configuration in which these settings have their defaults (`Config.ofText?_textOf`). The paths
stay as they are written unless they are to be expanded.
-/

namespace LiterateMarkdown

namespace Config

/-! ## The parts of a configuration file -/

/-- The groups of settings that stand under headers. -/
inductive Group
  | build | repl | sync
  deriving DecidableEq

/-- The settings of a configuration. -/
inductive Setting
  | projectRoot | docsDir | siteDir
  | buildEnabled | buildCommand | scriptName | closingFence
  | replEnabled | outputSuffix
  | syncEnabled | syncCommand
  deriving DecidableEq

/-- A part of a configuration file that can be left out; a gap is the empty line before a header. -/
inductive Part
  | setting (setting : Setting)
  | gap (group : Group)
  | header (group : Group)
  deriving DecidableEq

namespace Group

def name : Group → Text
  | build => "build".toList
  | repl => "repl".toList
  | sync => "sync".toList

/-- The settings under the header, in the order in which they are written. -/
def settings : Group → List Setting
  | build => [.buildEnabled, .buildCommand, .scriptName, .closingFence]
  | repl => [.replEnabled, .outputSuffix]
  | sync => [.syncEnabled, .syncCommand]

end Group

namespace Setting

def name : Setting → Text
  | projectRoot => "project_root".toList
  | docsDir => "docs_dir".toList
  | siteDir => "site_dir".toList
  | buildEnabled | replEnabled | syncEnabled => "enabled".toList
  | buildCommand | syncCommand => "command".toList
  | scriptName => "script_name".toList
  | closingFence => "closing_fence".toList
  | outputSuffix => "output_suffix".toList

end Setting

/-- The settings before the first header. -/
def ownSettings : List Setting :=
  [.projectRoot, .docsDir, .siteDir]

def groups : List Group :=
  [.build, .repl, .sync]

/-- The parts of a group. -/
def groupParts (group : Group) : List Part :=
  .gap group :: .header group :: group.settings.map .setting

/-- The parts of a configuration file in order. -/
def parts : List Part :=
  ownSettings.map .setting ++
    groups.flatMap groupParts

/-- The value of a setting as it is written. -/
def valueText (config : Config) : Setting → Text
  | .projectRoot => writeText config.projectRoot
  | .docsDir => writeText config.docsDir
  | .siteDir => writeText config.siteDir
  | .buildEnabled => writeBoolean config.build.enabled
  | .buildCommand => writeTexts config.build.command
  | .scriptName => writeText config.build.scriptName
  | .closingFence => writeText config.build.closingFence.toText
  | .replEnabled => writeBoolean config.repl.enabled
  | .outputSuffix => writeText config.repl.outputSuffix
  | .syncEnabled => writeBoolean config.sync.enabled
  | .syncCommand => writeTexts config.sync.command

/-- A part as it is written. -/
def partText (config : Config) : Part → Text
  | .setting setting => setting.name ++ " = ".toList ++ config.valueText setting ++ ['\n']
  | .gap _ => ['\n']
  | .header group => '[' :: group.name ++ [']', '\n']

/-- The text of a configuration file with some of its parts. -/
def textOf (config : Config) (keeps : Part → Bool) : Text :=
  (parts.filter keeps).flatMap config.partText

/-- With all its parts, the text is what is saved. -/
theorem toText_eq (config : Config) : config.toText = config.textOf fun _ => true := by
  calc
    _ = config.partText (.setting .projectRoot) ++ config.partText (.setting .docsDir) ++
        config.partText (.setting .siteDir) ++
        (config.partText (.gap .build) ++ config.partText (.header .build)) ++
        config.partText (.setting .buildEnabled) ++ config.partText (.setting .buildCommand) ++
        config.partText (.setting .scriptName) ++ config.partText (.setting .closingFence) ++
        (config.partText (.gap .repl) ++ config.partText (.header .repl)) ++
        config.partText (.setting .replEnabled) ++ config.partText (.setting .outputSuffix) ++
        (config.partText (.gap .sync) ++ config.partText (.header .sync)) ++
        config.partText (.setting .syncEnabled) ++ config.partText (.setting .syncCommand) := rfl
    _ = config.textOf fun _ => true := by
      simp only [textOf, parts, ownSettings, groups, groupParts, Group.settings, List.filter_true,
        List.map_cons, List.map_nil, List.flatMap_cons, List.flatMap_nil, List.append_assoc,
        List.cons_append, List.nil_append, List.append_nil]

/-- Groups are left out as a whole: no setting is kept without the header that it stands under. -/
def KeepsHeaders (keeps : Part → Bool) : Prop :=
  ∀ group, ∀ setting ∈ group.settings, keeps (.setting setting) → keeps (.header group)

/-- The configuration in which the settings that are not kept have their defaults. -/
def keeping (config : Config) (keeps : Part → Bool) : Config :=
  let default : Config := {}
  let choose {Value : Type} (setting : Setting) (value default : Value) : Value :=
    if keeps (.setting setting) then value else default
  { projectRoot := choose .projectRoot config.projectRoot default.projectRoot
    docsDir := choose .docsDir config.docsDir default.docsDir
    siteDir := choose .siteDir config.siteDir default.siteDir
    build :=
      { enabled := choose .buildEnabled config.build.enabled default.build.enabled
        command := choose .buildCommand config.build.command default.build.command
        scriptName := choose .scriptName config.build.scriptName default.build.scriptName
        closingFence := choose .closingFence config.build.closingFence default.build.closingFence }
    repl :=
      { enabled := choose .replEnabled config.repl.enabled default.repl.enabled
        outputSuffix := choose .outputSuffix config.repl.outputSuffix default.repl.outputSuffix }
    sync :=
      { enabled := choose .syncEnabled config.sync.enabled default.sync.enabled
        command := choose .syncCommand config.sync.command default.sync.command } }

/-! ## Reading the file -/

/-- The value of a setting as it is read. -/
def value (config : Config) : Setting → TomlValue
  | .projectRoot => .string config.projectRoot
  | .docsDir => .string config.docsDir
  | .siteDir => .string config.siteDir
  | .buildEnabled => .boolean config.build.enabled
  | .buildCommand => .array (config.build.command.map .string)
  | .scriptName => .string config.build.scriptName
  | .closingFence => .string config.build.closingFence.toText
  | .replEnabled => .boolean config.repl.enabled
  | .outputSuffix => .string config.repl.outputSuffix
  | .syncEnabled => .boolean config.sync.enabled
  | .syncCommand => .array (config.sync.command.map .string)

/-- What a part says. -/
def line (config : Config) : Part → TomlReader.Line
  | .setting setting => .entry setting.name (config.valueText setting) (config.value setting)
  | .gap _ => .blank
  | .header group => .header group.name

theorem shows_writeTexts (values : List Text) :
    TomlReader.Shows (writeTexts values) (.array (values.map .string)) := by
  unfold writeTexts
  split
  · exact TomlReader.shows_array_nil
  · exact TomlReader.shows_array_singleton _
  · exact TomlReader.shows_array_itemLines values

theorem shows_valueText (config : Config) (setting : Setting) :
    TomlReader.Shows (config.valueText setting) (config.value setting) := by
  cases setting with
  | buildEnabled | replEnabled | syncEnabled => exact TomlReader.shows_boolean _
  | buildCommand | syncCommand => exact shows_writeTexts _
  | projectRoot | docsDir | siteDir | scriptName | closingFence | outputSuffix =>
    exact TomlReader.shows_string _

theorem isWritten_line (config : Config) (part : Part) : (config.line part).IsWritten := by
  cases part with
  | setting setting =>
    refine ⟨?_, shows_valueText config setting⟩
    cases setting <;> decide
  | gap group => trivial
  | header group =>
    change TomlReader.IsBareKey group.name
    cases group <;> decide

theorem text_line (config : Config) (part : Part) :
    (config.line part).text = config.partText part := by
  cases part <;> rfl

theorem textOf_eq (config : Config) (keeps : Part → Bool) :
    config.textOf keeps = TomlReader.fileText ((parts.filter keeps).map config.line) := by
  rw [textOf, TomlReader.fileText, List.flatMap_map]
  simp only [text_line]

variable {config : Config} {keeps : Part → Bool}

/-- The entries of the settings that are kept. -/
def keptEntries (config : Config) (keeps : Part → Bool) (settings : List Setting) :
    List TomlTable.Entry :=
  (settings.filter fun setting => keeps (.setting setting)).map fun setting =>
    ⟨[], setting.name, config.value setting⟩

/-- The lines of the parts that are kept. -/
def keptLines (config : Config) (keeps : Part → Bool) (parts : List Part) : List TomlReader.Line :=
  (parts.filter keeps).map config.line

theorem keptLines_append (config : Config) (keeps : Part → Bool) (first second : List Part) :
    config.keptLines keeps (first ++ second) =
      config.keptLines keeps first ++ config.keptLines keeps second := by
  simp [keptLines]

theorem leading_settings (config : Config) (keeps : Part → Bool) (settings : List Setting)
    (rest : List TomlReader.Line) :
    TomlReader.leading (config.keptLines keeps (settings.map .setting) ++ rest) =
      config.keptEntries keeps settings ++ TomlReader.leading rest := by
  induction settings with
  | nil => rfl
  | cons setting more ih =>
    unfold keptLines keptEntries at ih ⊢
    cases kept : keeps (.setting setting) with
    | true => simpa [kept, line, TomlReader.leading] using ih
    | false => simpa [kept] using ih

theorem sections_settings (config : Config) (keeps : Part → Bool) (settings : List Setting)
    (rest : List TomlReader.Line) :
    TomlReader.sections (config.keptLines keeps (settings.map .setting) ++ rest) =
      TomlReader.sections rest := by
  induction settings with
  | nil => rfl
  | cons setting more ih =>
    unfold keptLines at ih ⊢
    cases kept : keeps (.setting setting) with
    | true => simpa [kept, line, TomlReader.sections] using ih
    | false => simpa [kept] using ih

/-- The lines of a group: with its header, or at most a gap. -/
theorem keptLines_groupParts (keepsHeaders : KeepsHeaders keeps) (group : Group) :
    config.keptLines keeps (groupParts group) =
      (if keeps (.gap group) then [.blank] else []) ++
        if keeps (.header group) then
          .header group.name :: config.keptLines keeps (group.settings.map .setting)
        else [] := by
  unfold keptLines groupParts
  cases isKept : keeps (.header group) with
  | true => cases gap : keeps (.gap group) <;> simp [isKept, gap, line]
  | false =>
    have noneKept : (group.settings.map Part.setting).filter keeps = [] := by
      rw [List.filter_eq_nil_iff]
      intro part isPart kept
      rcases List.mem_map.mp isPart with ⟨setting, isSetting, rfl⟩
      have headerKept := keepsHeaders group setting isSetting kept
      rw [isKept] at headerKept
      contradiction
    cases gap : keeps (.gap group) <;> simp [isKept, gap, noneKept, line]

/-- A group as a section. -/
def groupSection (config : Config) (keeps : Part → Bool) (group : Group) : TomlTable.Section :=
  ⟨[], group.name, false, config.keptEntries keeps group.settings⟩

/-- Groups begin with their headers, and each header that is kept begins a section. -/
theorem leading_sections_groups (keepsHeaders : KeepsHeaders keeps) (groups : List Group) :
    TomlReader.leading (config.keptLines keeps (groups.flatMap groupParts)) = [] ∧
      TomlReader.sections (config.keptLines keeps (groups.flatMap groupParts)) =
        (groups.filter fun group => keeps (.header group)).map (config.groupSection keeps) := by
  induction groups with
  | nil => exact ⟨rfl, rfl⟩
  | cons group more ih =>
    rw [List.flatMap_cons, keptLines_append, keptLines_groupParts keepsHeaders, List.append_assoc]
    have skipsGap : ∀ rest : List TomlReader.Line,
        TomlReader.leading ((if keeps (.gap group) then [.blank] else []) ++ rest) =
            TomlReader.leading rest ∧
          TomlReader.sections ((if keeps (.gap group) then [.blank] else []) ++ rest) =
            TomlReader.sections rest := by
      intro rest
      split <;> exact ⟨rfl, rfl⟩
    rw [(skipsGap _).1, (skipsGap _).2]
    cases isKept : keeps (.header group) with
    | false => simpa [isKept] using ih
    | true =>
      rw [if_pos rfl, List.cons_append]
      refine ⟨rfl, ?_⟩
      rw [TomlReader.sections, sections_settings, leading_settings, ih.1, ih.2, List.append_nil]
      simp [isKept, groupSection]

/-- What a table of a whole file holds: settings of its own and groups. -/
abbrev Item := Setting ⊕ Group

namespace Item

def name : Item → Text :=
  Sum.elim Setting.name Group.name

/-- What the file says of the item, where some parts are left out. -/
def value (config : Config) (keeps : Part → Bool) : Item → TomlValue :=
  Sum.elim config.value fun group =>
    .table .header (TomlTable.ofEntries (config.keptEntries keeps group.settings))

def isKept (keeps : Part → Bool) : Item → Bool :=
  Sum.elim (fun setting => keeps (.setting setting)) fun group => keeps (.header group)

end Item

/-- The items of a configuration file in order. -/
def items : List Item :=
  ownSettings.map .inl ++ groups.map .inr

theorem ofEntries_keptEntries (config : Config) (keeps : Part → Bool) (settings : List Setting) :
    TomlTable.ofEntries (config.keptEntries keeps settings) =
      (settings.filter fun setting => keeps (.setting setting)).map fun setting =>
        (setting.name, config.value setting) := by
  simp [TomlTable.ofEntries, keptEntries]

theorem path_keptEntries {settings : List Setting} :
    ∀ entry ∈ config.keptEntries keeps settings, entry.path = [] := by
  intro entry isEntry
  rcases List.mem_map.mp isEntry with ⟨setting, _, rfl⟩
  rfl

theorem keys_keptEntries (config : Config) (keeps : Part → Bool) (settings : List Setting) :
    ((config.keptEntries keeps settings).map TomlTable.Entry.key).Sublist
      (settings.map Setting.name) := by
  rw [keptEntries, List.map_map]
  exact List.filter_sublist.map Setting.name

/-- The table of a file in which some settings and groups are left out. -/
theorem ofText?_textOf_eq (config : Config) (keepsHeaders : KeepsHeaders keeps) :
    TomlReader.ofText? (config.textOf keeps) =
      some ((items.filter (Item.isKept keeps)).map fun item =>
        (item.name, item.value config keeps)) := by
  have areWritten : ∀ line ∈ config.keptLines keeps parts, line.IsWritten := by
    intro line isLine
    rcases List.mem_map.mp isLine with ⟨part, _, rfl⟩
    exact isWritten_line config part
  rcases leading_sections_groups keepsHeaders groups with ⟨noEntries, areSections⟩
  rw [textOf_eq]
  change TomlReader.ofText? (TomlReader.fileText (config.keptLines keeps parts)) = _
  rw [TomlReader.ofText?_fileText areWritten, parts, keptLines_append, leading_settings,
    sections_settings, noEntries, areSections, List.append_nil,
    TomlTable.ofSections?_of_distinct]
  · rw [ofEntries_keptEntries]
    simp [items, Item.isKept, Item.name, Item.value, List.filter_map, Function.comp_def,
      TomlTable.Section.pair, groupSection]
  · exact path_keptEntries
  · intro part isPart
    rcases List.mem_map.mp isPart with ⟨group, _, rfl⟩
    refine ⟨rfl, rfl, path_keptEntries, ?_⟩
    apply (keys_keptEntries config keeps group.settings).nodup
    cases group <;> decide
  · have someGroups : (((groups.filter fun group => keeps (.header group)).map
        (config.groupSection keeps)).map TomlTable.Section.key).Sublist
          (groups.map Group.name) := by
      rw [List.map_map]
      exact List.filter_sublist.map Group.name
    apply ((keys_keptEntries config keeps ownSettings).append someGroups).nodup
    decide

/-! ## Defaults -/

/-- A value that can be read is read if it is kept, and otherwise the default stands for it. -/
theorem withDefault?_kept {Value : Type} {default content : Value} {read : TomlValue → Option Value}
    {value : TomlValue} (isRead : read value = some content) (kept : Bool) :
    TomlValue.withDefault? default read (if kept then some value else none) =
      some (if kept then content else default) := by
  cases kept with
  | true => exact isRead
  | false => rfl

theorem texts?_strings (texts : List Text) :
    TomlValue.texts? (.array (texts.map .string)) = some texts := by
  induction texts with
  | nil => rfl
  | cons text rest ih =>
    simp only [TomlValue.texts?, List.map_cons, List.mapM_cons] at ih ⊢
    rw [ih]
    rfl

theorem ofToml?_toText (policy : ClosingFence) :
    ClosingFence.ofToml? (.string policy.toText) = some policy := by
  cases policy <;> decide

/-- The settings of a group as they are found in its table. -/
theorem settings?_group (config : Config) (keeps : Part → Bool) (group : Group) :
    (Item.value config keeps (.inr group)).settings? (group.settings.map Setting.name) =
      some (group.settings.map fun setting =>
        if keeps (.setting setting) then some (config.value setting) else none) := by
  have distinct : (group.settings.map Setting.name).Nodup := by
    cases group <;> decide
  change some ((group.settings.map Setting.name).map _) = _
  rw [List.map_map]
  congr 1
  apply List.map_congr_left
  intro setting isSetting
  rw [ofEntries_keptEntries]
  exact TomlTable.get?_map_filter distinct config.value _ isSetting

theorem ofToml?_build (config : Config) (keeps : Part → Bool) :
    BuildConfig.ofToml? (Item.value config keeps (.inr .build)) =
      some (config.keeping keeps).build := by
  have found := settings?_group config keeps .build
  change TomlValue.settings? (["enabled", "command", "script_name", "closing_fence"].map
    String.toList) _ = _ at found
  have enabled : TomlValue.boolean? (config.value .buildEnabled) = some config.build.enabled := rfl
  have command : TomlValue.texts? (config.value .buildCommand) = some config.build.command :=
    texts?_strings _
  have scriptName : TomlValue.text? (config.value .scriptName) = some config.build.scriptName := rfl
  have closingFence : ClosingFence.ofToml? (config.value .closingFence) =
      some config.build.closingFence :=
    ofToml?_toText _
  unfold BuildConfig.ofToml?
  dsimp only
  rw [found]
  simp only [Group.settings, List.map_cons, List.map_nil, bind, Option.bind_some]
  rw [withDefault?_kept enabled, withDefault?_kept command, withDefault?_kept scriptName,
    withDefault?_kept closingFence]
  rfl

theorem ofToml?_repl (config : Config) (keeps : Part → Bool) :
    ReplConfig.ofToml? (Item.value config keeps (.inr .repl)) =
      some (config.keeping keeps).repl := by
  have found := settings?_group config keeps .repl
  change TomlValue.settings? ["enabled".toList, "output_suffix".toList] _ = _ at found
  have enabled : TomlValue.boolean? (config.value .replEnabled) = some config.repl.enabled := rfl
  have outputSuffix : TomlValue.text? (config.value .outputSuffix) =
      some config.repl.outputSuffix :=
    rfl
  unfold ReplConfig.ofToml?
  dsimp only
  rw [found]
  simp only [Group.settings, List.map_cons, List.map_nil, bind, Option.bind_some]
  rw [withDefault?_kept enabled, withDefault?_kept outputSuffix]
  rfl

theorem ofToml?_sync (config : Config) (keeps : Part → Bool) :
    SyncConfig.ofToml? (Item.value config keeps (.inr .sync)) =
      some (config.keeping keeps).sync := by
  have found := settings?_group config keeps .sync
  change TomlValue.settings? ["enabled".toList, "command".toList] _ = _ at found
  have enabled : TomlValue.boolean? (config.value .syncEnabled) = some config.sync.enabled := rfl
  have command : TomlValue.texts? (config.value .syncCommand) = some config.sync.command :=
    texts?_strings _
  unfold SyncConfig.ofToml?
  dsimp only
  rw [found]
  simp only [Group.settings, List.map_cons, List.map_nil, bind, Option.bind_some]
  rw [withDefault?_kept enabled, withDefault?_kept command]
  rfl

/-- A group that is left out has the defaults of all its settings. -/
theorem keeping_of_leftOut (keepsHeaders : KeepsHeaders keeps) (config : Config) :
    (keeps (.header .build) = false → (config.keeping keeps).build = {}) ∧
      (keeps (.header .repl) = false → (config.keeping keeps).repl = {}) ∧
        (keeps (.header .sync) = false → (config.keeping keeps).sync = {}) := by
  have notKept : ∀ group, keeps (.header group) = false → ∀ setting ∈ group.settings,
      keeps (.setting setting) = false := by
    intro group leftOut setting isSetting
    apply eq_false_of_ne_true
    intro isKept
    have headerKept := keepsHeaders group setting isSetting isKept
    rw [leftOut] at headerKept
    contradiction
  refine ⟨fun leftOut => ?_, fun leftOut => ?_, fun leftOut => ?_⟩
  · have settings := notKept .build leftOut
    simp only [Group.settings, List.forall_mem_cons] at settings
    rcases settings with ⟨enabled, command, scriptName, closingFence, _⟩
    unfold keeping
    dsimp only
    rw [enabled, command, scriptName, closingFence]
    rfl
  · have settings := notKept .repl leftOut
    simp only [Group.settings, List.forall_mem_cons] at settings
    rcases settings with ⟨enabled, outputSuffix, _⟩
    unfold keeping
    dsimp only
    rw [enabled, outputSuffix]
    rfl
  · have settings := notKept .sync leftOut
    simp only [Group.settings, List.forall_mem_cons] at settings
    rcases settings with ⟨enabled, command, _⟩
    unfold keeping
    dsimp only
    rw [enabled, command]
    rfl

/-- A group is read from its table, or has its defaults if it is left out. -/
theorem withDefault?_group {Value : Type} {default content : Value}
    {read : TomlValue → Option Value} {value : TomlValue} {kept : Bool}
    (isRead : read value = some content) (leftOut : kept = false → content = default) :
    TomlValue.withDefault? default read (if kept then some value else none) = some content := by
  rw [withDefault?_kept isRead]
  cases kept with
  | true => rfl
  | false => rw [if_neg Bool.false_ne_true, leftOut rfl]

/-- What is left of a file is read with defaults for what is missing. -/
theorem ofText?_textOf (config : Config) (keepsHeaders : KeepsHeaders keeps) :
    ofText? (config.textOf keeps) = some (config.keeping keeps) := by
  have distinct : (items.map Item.name).Nodup := by decide
  have found : ∀ item ∈ items, TomlTable.get? ((items.filter (Item.isKept keeps)).map fun item =>
      (item.name, item.value config keeps)) item.name =
        if item.isKept keeps then some (item.value config keeps) else none :=
    fun item => TomlTable.get?_map_filter distinct _ _
  rw [ofText?, ofText?_textOf_eq config keepsHeaders]
  change ofTable? _ = _
  generalize (items.filter (Item.isKept keeps)).map (fun item =>
    (item.name, item.value config keeps)) = table at found
  have projectRoot : TomlTable.get? table "project_root".toList =
      if keeps (.setting .projectRoot) then some (config.value .projectRoot) else none :=
    found (.inl .projectRoot) (by simp [items, ownSettings])
  have docsDir : TomlTable.get? table "docs_dir".toList =
      if keeps (.setting .docsDir) then some (config.value .docsDir) else none :=
    found (.inl .docsDir) (by simp [items, ownSettings])
  have siteDir : TomlTable.get? table "site_dir".toList =
      if keeps (.setting .siteDir) then some (config.value .siteDir) else none :=
    found (.inl .siteDir) (by simp [items, ownSettings])
  have build : TomlTable.get? table "build".toList =
      if keeps (.header .build) then some (Item.value config keeps (.inr .build)) else none :=
    found (.inr .build) (by simp [items, groups])
  have repl : TomlTable.get? table "repl".toList =
      if keeps (.header .repl) then some (Item.value config keeps (.inr .repl)) else none :=
    found (.inr .repl) (by simp [items, groups])
  have sync : TomlTable.get? table "sync".toList =
      if keeps (.header .sync) then some (Item.value config keeps (.inr .sync)) else none :=
    found (.inr .sync) (by simp [items, groups])
  have isRoot : TomlValue.text? (config.value .projectRoot) = some config.projectRoot := rfl
  have isDocs : TomlValue.text? (config.value .docsDir) = some config.docsDir := rfl
  have isSite : TomlValue.text? (config.value .siteDir) = some config.siteDir := rfl
  rcases keeping_of_leftOut keepsHeaders config with ⟨noBuild, noRepl, noSync⟩
  unfold ofTable?
  dsimp only
  rw [projectRoot, docsDir, siteDir, build, repl, sync, withDefault?_kept isRoot,
    withDefault?_kept isDocs, withDefault?_kept isSite,
    withDefault?_group (ofToml?_build config keeps) noBuild,
    withDefault?_group (ofToml?_repl config keeps) noRepl,
    withDefault?_group (ofToml?_sync config keeps) noSync]
  rfl

end Config

/-! ## Paths that are not expanded -/

namespace Path

/-- A path that mentions no variable and does not begin with a tilde. -/
def IsLiteral (path : Path) : Prop :=
  '$' ∉ path ∧ path.head? ≠ some '~'

instance : DecidablePred IsLiteral :=
  fun path => inferInstanceAs (Decidable ('$' ∉ path ∧ path.head? ≠ some '~'))

theorem expandVariables?_of_not_mem (environment : Environment) {path : Path}
    (noVariable : '$' ∉ path) : expandVariables? environment path = some path := by
  induction path with
  | nil => rw [expandVariables?]
  | cons c rest ih =>
    rw [List.mem_cons, not_or] at noVariable
    rw [expandVariables?, ih noVariable.2]
    · rfl
    · rintro rest rfl
      exact absurd rfl noVariable.1
    · rintro rest rfl
      exact absurd rfl noVariable.1
    · rintro rfl
      exact absurd rfl noVariable.1

theorem expand_of_isLiteral {path : Path} (isLiteral : IsLiteral path) (environment : Environment) :
    expand environment path = path := by
  have noTilde : expandTilde environment path = path := by
    unfold expandTilde
    split
    · exact absurd rfl isLiteral.2
    · exact absurd rfl isLiteral.2
    · rfl
  rw [expand, expandVariables?_of_not_mem environment isLiteral.1]
  simp only [noTilde, ite_self]

end Path

namespace Config

variable {config : Config} {keeps : Part → Bool}

/-- The paths of a configuration are literal. -/
structure HasLiteralPaths (config : Config) : Prop where
  projectRoot : Path.IsLiteral config.projectRoot
  docsDir : Path.IsLiteral config.docsDir
  siteDir : Path.IsLiteral config.siteDir

theorem HasLiteralPaths.keeping (literal : config.HasLiteralPaths) (keeps : Part → Bool) :
    (config.keeping keeps).HasLiteralPaths := by
  have chosen : ∀ {path default : Path} (kept : Bool), Path.IsLiteral path →
      Path.IsLiteral default → Path.IsLiteral (if kept then path else default) := by
    intro path default kept isLiteral isLiteralDefault
    cases kept with
    | true => exact isLiteral
    | false => exact isLiteralDefault
  exact ⟨chosen _ literal.projectRoot (by decide), chosen _ literal.docsDir (by decide),
    chosen _ literal.siteDir (by decide)⟩

theorem expandPaths_of_literal (literal : config.HasLiteralPaths) (environment : Environment) :
    config.expandPaths environment = config := by
  rw [expandPaths, Path.expand_of_isLiteral literal.projectRoot,
    Path.expand_of_isLiteral literal.docsDir, Path.expand_of_isLiteral literal.siteDir]

/-- A file with what is left of a configuration is loaded with defaults for what is missing. -/
theorem load_of_writeText (literal : config.HasLiteralPaths) (keepsHeaders : KeepsHeaders keeps)
    {files after : FileTree} {path : Path}
    (written : files.writeText path (config.textOf keeps) = .ok after) (environment : Environment) :
    load environment after path = .ok (some (config.keeping keeps)) := by
  rw [load, FileTree.pathExists_of_writeText written, FileTree.readText_of_writeText written]
  simp only [ofText?_textOf config keepsHeaders,
    expandPaths_of_literal (literal.keeping keeps) environment]
  rfl

/-- A configuration is saved by writing all its parts. -/
theorem exists_writeText_of_save {files after : FileTree} {path : Path}
    (saved : save files path config = (after, .ok ())) :
    ∃ prepared : FileTree, prepared.writeText path (config.textOf fun _ => true) = .ok after := by
  unfold save at saved
  split at saved
  · cases saved
  · rename_i prepared made
    refine ⟨prepared, ?_⟩
    rw [← toText_eq]
    cases written : prepared.writeText path config.toText with
    | error cause =>
      rw [written] at saved
      cases saved
    | ok files =>
      rw [written] at saved
      cases saved
      rfl

/--
A saved configuration with literal paths is loaded as it was saved. If settings or whole groups are
left out of the file, it is loaded as the configuration in which exactly these settings have their
defaults.
-/
theorem load_of_save {files after : FileTree} {path : Path}
    (saved : save files path config = (after, .ok ())) (literal : config.HasLiteralPaths)
    (environment : Environment) :
    after.readText path = .ok (config.textOf fun _ => true) ∧
      load environment after path = .ok (some config) ∧
      ∀ keeps, KeepsHeaders keeps →
        ∃ edited, after.writeText path (config.textOf keeps) = .ok edited ∧
          load environment edited path = .ok (some (config.keeping keeps)) := by
  rcases exists_writeText_of_save saved with ⟨prepared, written⟩
  refine ⟨FileTree.readText_of_writeText written, ?_, ?_⟩
  · exact load_of_writeText literal (fun _ _ _ _ => rfl) written environment
  · intro keeps keepsHeaders
    rcases FileTree.exists_writeText_of_writeText written (config.textOf keeps) with
      ⟨edited, rewritten⟩
    exact ⟨edited, rewritten, load_of_writeText literal keepsHeaders rewritten environment⟩

/-- A configuration with texts that need every style of quotes. -/
def sampleConfig : Config where
  projectRoot := "a 'b' \x5c".toList
  docsDir := "".toList
  siteDir := "'\"~".toList
  build :=
    { enabled := true
      command := []
      scriptName := "\r\n\x7f\x1b".toList
      closingFence := .suppress }
  repl := { outputSuffix := "\n\"\"\"'''".toList }
  sync := { enabled := false, command := ["\t\"".toList, "'".toList] }

/-- A configuration is saved in a new directory, and a setting and a group are taken out of its
file. -/
theorem load_of_save_sample :
    ∃ after : FileTree, save {} "conf/site.toml".toList sampleConfig = (after, .ok ()) ∧
      sampleConfig.HasLiteralPaths ∧
      load {} after "conf/site.toml".toList = .ok (some sampleConfig) ∧
      KeepsHeaders (fun part => part ≠ .setting .docsDir ∧ part ∉ groupParts .build) ∧
      ∃ edited, after.writeText "conf/site.toml".toList (sampleConfig.textOf fun part =>
          part ≠ .setting .docsDir ∧ part ∉ groupParts .build) = .ok edited ∧
        load {} edited "conf/site.toml".toList =
          .ok (some { sampleConfig with docsDir := "docs".toList, build := {} }) := by
  have succeeds : (save {} "conf/site.toml".toList sampleConfig).2 = .ok () := by
    decide +kernel
  have saved := Prod.ext (Eq.refl (save {} "conf/site.toml".toList sampleConfig).1) succeeds
  have literal : sampleConfig.HasLiteralPaths := ⟨by decide, by decide, by decide⟩
  have keepsHeaders : KeepsHeaders fun part =>
      part ≠ .setting .docsDir ∧ part ∉ groupParts .build := by
    intro group
    cases group <;> decide
  rcases load_of_save saved literal {} with ⟨_, loaded, reduced⟩
  exact ⟨_, saved, literal, loaded, keepsHeaders, reduced _ keepsHeaders⟩

end Config

end LiterateMarkdown
