import LiterateMarkdown.Build.Tool
import LiterateMarkdown.Proofs.Files.Writing

/-!
# Staging build scripts

A build tool writes each script below a fresh scratch directory, starts its program on it, and
removes the scratch directory however the program ends. If the script lies in the scratch directory,
nothing but what the program changed is different afterwards (`BuildTool.KeepsToScratch`).

The name of the script is a path, though, and an absolute one replaces that of the scratch
directory. Where a scratch directory is made and how it is named is not for the tool to say; all
that is known is that nothing stood there (`Programs.MakesFreshScratch`). So a call keeps to its
scratch directory exactly if the name of the script leads into every directory from which it can be
written (`BuildTool.keepsToScratch_iff`), as relative names without segments that lead upwards do.
-/

namespace LiterateMarkdown

variable {files : FileTree} {scratch location : Location} {tool : BuildTool} {programs : Programs}
  {system : System} {script : Text}

namespace BuildTool

/-! ## Scratch directories -/

/-- A location at which a scratch directory can be made. -/
structure IsScratch (files : FileTree) (scratch : Location) : Prop where
  missing : files.at? scratch = none
  areNames : ∀ name ∈ scratch, Path.IsName name
  within : files.isDirectoryAt scratch.dropLast = true

theorem isScratch_of_firstFree? {directory : Location} {names : List Text}
    (areNames : ∀ name ∈ directory ++ names, Path.IsName name)
    (fresh : files.firstFree? directory names = some scratch) : IsScratch files scratch := by
  unfold FileTree.firstFree? at fresh
  split at fresh
  · rename_i isDirectory
    have isFree := List.find?_some fresh
    rcases List.mem_map.mp (List.mem_of_find?_eq_some fresh) with ⟨name, isListed, rfl⟩
    rw [List.forall_mem_append] at areNames
    refine ⟨Option.isNone_iff_eq_none.mp isFree, ?_, ?_⟩
    · rw [List.forall_mem_append, List.forall_mem_singleton]
      exact ⟨areNames.1, areNames.2 name isListed⟩
    · rwa [List.dropLast_concat]
  · cases fresh

namespace IsScratch

theorem notRoot (isScratch : IsScratch files scratch) : scratch ≠ [] := by
  rintro rfl
  cases isScratch.missing

/-- Nothing stands below a location that is free. -/
theorem missing_of_isPrefix (isScratch : IsScratch files scratch) (isTree : files.IsTree)
    (below : scratch <+: location) : files.at? location = none := by
  rcases below with ⟨more, rfl⟩
  cases stands : files.at? (scratch ++ more) with
  | none => rfl
  | some node =>
    rcases isTree.exists_at?_of_append stands with ⟨holder, isHolder⟩
    rw [isScratch.missing] at isHolder
    cases isHolder

theorem isTree_put (isScratch : IsScratch files scratch) (isTree : files.IsTree) :
    (files.put scratch .directory).IsTree :=
  isTree.put isScratch.notRoot isScratch.areNames isScratch.within fun _ => rfl

/-- Without the scratch directory nothing stands below it, as before. -/
theorem at?_remove_of_isPrefix (isScratch : IsScratch files scratch) (isTree : files.IsTree)
    (later : FileTree) (below : scratch <+: location) :
    (later.remove scratch).at? location = files.at? location := by
  have notRoot : location ≠ [] := by
    rintro rfl
    exact isScratch.notRoot (List.prefix_nil.mp below)
  rw [FileTree.at?_remove_of_isPrefix later notRoot below,
    isScratch.missing_of_isPrefix isTree below]

theorem at?_remove (isScratch : IsScratch files scratch) (isTree : files.IsTree) {later : FileTree}
    (same : ∀ location, ¬ scratch <+: location → later.at? location = files.at? location)
    (location : Location) : (later.remove scratch).at? location = files.at? location := by
  by_cases below : scratch <+: location
  · exact isScratch.at?_remove_of_isPrefix isTree later below
  · rw [FileTree.at?_remove_of_not_isPrefix later below, same location below]

end IsScratch

end BuildTool

/-- Scratch directories are made where nothing stands. -/
def Programs.MakesFreshScratch (programs : Programs) : Prop :=
  ∀ files scratch, programs.scratch? files = some scratch → BuildTool.IsScratch files scratch

namespace BuildTool

/-! ## Where the name of a script leads -/

/-- Where the name of the script begins: at the scratch directory, unless it is absolute. -/
def start (tool : BuildTool) (scratch : Location) : Location :=
  if Path.isAbsolute tool.scriptName then [] else scratch

/-- Where the name of the script leads from a scratch directory, if nothing is in the way. -/
def target (tool : BuildTool) (scratch : Location) : Location :=
  (tool.start scratch).resolve (Path.segments tool.scriptName)

/-- A script can be written from a scratch directory: its name leads through directories to the name
of a file, and not to a directory. -/
structure CanStage (tool : BuildTool) (files : FileTree) (scratch : Location) : Prop where
  through : ∃ directories name, Path.segments tool.scriptName = directories ++ [name] ∧
    Path.IsName name ∧ ∀ passed ∈ (tool.start scratch).passed directories,
      (files.put scratch .directory).isDirectoryAt passed = true
  notDirectory : (files.put scratch .directory).isDirectoryAt (tool.target scratch) = false

theorem segments_pathOf_append {names : Location} (areNames : ∀ name ∈ names, Path.IsName name)
    (start path : Path) :
    Path.segments (start ++ pathOf names ++ '/' :: path) =
      Path.segments start ++ names ++ Path.segments path := by
  induction names generalizing start with
  | nil =>
    rw [pathOf, List.flatMap_nil, List.append_nil, List.append_nil]
    exact Text.splitOn_append '/' start path
  | cons name rest ih =>
    rw [List.forall_mem_cons] at areNames
    have isWhole : start ++ pathOf (name :: rest) ++ '/' :: path =
        start ++ '/' :: (name ++ pathOf rest ++ '/' :: path) := by
      simp [pathOf]
    have single : Path.segments name = [name] := Text.splitOn_of_not_mem areNames.1.2.2
    rw [isWhole, Path.segments, Text.splitOn_append]
    change Path.segments start ++ Path.segments _ = _
    rw [ih areNames.2, single]
    simp

theorem append_pathOf {names : Location} (notRoot : names ≠ [])
    (areNames : ∀ name ∈ names, Path.IsName name) {path : Path}
    (relative : Path.isAbsolute path = false) :
    Path.append (pathOf names) path = pathOf names ++ '/' :: path := by
  rcases List.eq_nil_or_concat' names with isRoot | ⟨holder, name, rfl⟩
  · contradiction
  have isName := areNames name (by simp)
  rcases List.eq_nil_or_concat' name with isEmpty | ⟨start, c, rfl⟩
  · rw [isEmpty] at isName
    exact Bool.noConfusion isName.1
  have noSlash : c ≠ '/' := by
    rintro rfl
    exact isName.2.2 (by simp)
  have isLast : ('/' :: (start ++ [c])).getLast? = some c := by
    rw [← List.cons_append, List.getLast?_concat]
  simp [Path.append, relative, pathOf, isLast, noSlash]

/-- A relative name is added to the names of the scratch directory. -/
theorem segments_append_pathOf (isScratch : IsScratch files scratch)
    (relative : Path.isAbsolute tool.scriptName = false) :
    Path.segments (Path.append (pathOf scratch) tool.scriptName) =
      ([] :: scratch) ++ Path.segments tool.scriptName := by
  rw [append_pathOf isScratch.notRoot isScratch.areNames relative]
  have parts := segments_pathOf_append isScratch.areNames [] tool.scriptName
  rwa [List.nil_append] at parts

theorem isAbsolute_append_pathOf (isScratch : IsScratch files scratch) :
    Path.isAbsolute (Path.append (pathOf scratch) tool.scriptName) = true := by
  cases absolute : Path.isAbsolute tool.scriptName with
  | true => simp [Path.append, absolute]
  | false =>
    rw [append_pathOf isScratch.notRoot isScratch.areNames absolute]
    cases scratch <;> rfl

theorem resolve_scratch (isScratch : IsScratch files scratch) :
    Location.resolve [] ([] :: scratch) = scratch := by
  change Location.resolve [] scratch = scratch
  rw [Location.resolve_of_areNames [] isScratch.areNames, List.nil_append]

/-- The script is written where its name leads. -/
theorem place_append_pathOf (isScratch : IsScratch files scratch) (tool : BuildTool)
    (tree : FileTree) :
    tree.place (Path.append (pathOf scratch) tool.scriptName) = tool.target scratch := by
  rw [FileTree.place, FileTree.startOf, isAbsolute_append_pathOf isScratch, if_pos rfl, target,
    start]
  cases absolute : Path.isAbsolute tool.scriptName with
  | true => rw [Path.append, absolute, Bool.true_or, if_pos rfl, if_pos rfl]
  | false =>
    rw [segments_append_pathOf isScratch absolute, Location.resolve_append,
      resolve_scratch isScratch]
    rfl

/-- All that is above a scratch directory is there, and so is the directory. -/
theorem isDirectoryAt_of_passed (isScratch : IsScratch files scratch) (isTree : files.IsTree)
    (isPassed : location ∈ Location.passed [] ([] :: scratch)) :
    (files.put scratch .directory).isDirectoryAt location = true := by
  have isMade := FileTree.at?_put_self files isScratch.notRoot .directory
  rw [Location.passed, List.mem_cons] at isPassed
  rcases isPassed with rfl | isPassed
  · exact decide_eq_true rfl
  · rcases (Location.mem_passed_of_areNames isScratch.areNames).mp isPassed with
      ⟨some, ⟨more, rfl⟩, rfl⟩
    by_cases isWhole : more = []
    · rw [isWhole, List.append_nil] at isMade ⊢
      exact FileTree.isDirectoryAt_iff.mpr isMade
    · exact (isScratch.isTree_put isTree).isDirectoryAt_of_append isWhole isMade

/-- A script is written where its name leads, if it can be. -/
theorem destination_eq_ok_iff_canStage (isScratch : IsScratch files scratch) (isTree : files.IsTree)
    (tool : BuildTool) :
    (files.put scratch .directory).destination (Path.append (pathOf scratch) tool.scriptName) =
        .ok location ↔
      tool.CanStage files scratch ∧ tool.target scratch = location := by
  rw [FileTree.destination_eq_ok_iff (isScratch.isTree_put isTree), place_append_pathOf isScratch,
    FileTree.startOf, isAbsolute_append_pathOf isScratch, if_pos rfl]
  cases absolute : Path.isAbsolute tool.scriptName with
  | true =>
    have isName : Path.append (pathOf scratch) tool.scriptName = tool.scriptName := by
      simp [Path.append, absolute]
    have atRoot : tool.start scratch = [] := by rw [start, absolute, if_pos rfl]
    rw [isName]
    constructor
    · rintro ⟨through, notDirectory, rfl⟩
      exact ⟨⟨atRoot.symm ▸ through, notDirectory⟩, rfl⟩
    · rintro ⟨⟨through, notDirectory⟩, rfl⟩
      exact ⟨atRoot ▸ through, notDirectory, rfl⟩
  | false =>
    have atScratch : tool.start scratch = scratch := by
      rw [start, absolute, if_neg Bool.false_ne_true]
    rw [segments_append_pathOf isScratch absolute]
    constructor
    · rintro ⟨⟨directories, name, parts, isName, areDirectories⟩, notDirectory, rfl⟩
      rcases List.eq_nil_or_concat' (Path.segments tool.scriptName) with
        isNil | ⟨more, last, isConcat⟩
      · exact absurd isNil (Path.segments_ne_nil tool.scriptName)
      rw [isConcat, ← List.append_assoc] at parts
      rcases List.append_inj' parts rfl with ⟨rfl, isLast⟩
      cases isLast
      refine ⟨⟨⟨more, name, isConcat, isName, ?_⟩, notDirectory⟩, rfl⟩
      intro passed isPassed
      apply areDirectories
      rw [Location.mem_passed_append, resolve_scratch isScratch]
      exact .inr (atScratch ▸ isPassed)
    · rintro ⟨⟨⟨directories, name, parts, isName, areDirectories⟩, notDirectory⟩, rfl⟩
      refine ⟨⟨[] :: scratch ++ directories, name, by rw [parts, List.append_assoc], isName, ?_⟩,
        notDirectory, rfl⟩
      intro passed isPassed
      rw [Location.mem_passed_append, resolve_scratch isScratch] at isPassed
      rcases isPassed with isAbove | isPassed
      · exact isDirectoryAt_of_passed isScratch isTree isAbove
      · exact areDirectories passed (atScratch.symm ▸ isPassed)

/-- Segments that do not lead upwards lead below where they begin. -/
theorem isPrefix_resolve {segments : List Text} (notAbove : Path.above ∉ segments) :
    location <+: location.resolve segments := by
  induction segments generalizing location with
  | nil => exact List.prefix_refl location
  | cons segment rest ih =>
    rw [List.mem_cons, not_or] at notAbove
    have step : location <+: location.enter segment := by
      rw [Location.enter, if_neg (Ne.symm notAbove.1)]
      split
      · exact List.prefix_refl location
      · exact List.prefix_append location [segment]
    exact step.trans (ih notAbove.2)

theorem isPrefix_target (relative : Path.isAbsolute tool.scriptName = false)
    (notAbove : Path.above ∉ Path.segments tool.scriptName) (scratch : Location) :
    scratch <+: tool.target scratch := by
  rw [target, start, relative]
  exact isPrefix_resolve notAbove

/-! ## Calls -/

/-- A script that was written for a program to be started on it. -/
structure Staged where
  scratch : Location
  /-- Where the script was written. -/
  place : Location
  program : Text
  arguments : List Text
  /-- The system in which the program is started. -/
  system : System

/-- What the tool prepares before it starts its program, if it gets that far. -/
def stage? (tool : BuildTool) (programs : Programs) (system : System) (script : Text) :
    Option Staged :=
  match tool.command with
  | [] => none
  | program :: arguments =>
    match programs.scratch? system.files with
    | none => none
    | some scratch =>
      let prepared := system.files.put scratch .directory
      let path := Path.append (pathOf scratch) tool.scriptName
      match prepared.destination path with
      | .error _ => none
      | .ok place =>
        let files := prepared.put place (.file (Utf8.encode (scriptContent script)))
        some ⟨scratch, place, program, arguments ++ [path], { system with files }⟩

/-- The program of the tool as it is started on a script. -/
def Staged.start (staged : Staged) (tool : BuildTool) (programs : Programs) :
    Option (System × ExitStatus) :=
  programs.startIn tool.workingDirectory staged.program staged.arguments staged.system

/--
A call that keeps to its scratch directory: the script is written below a location at which nothing
stood, and whatever is different at a location after the call, the program changed and left it so.
-/
structure KeepsToScratch (tool : BuildTool) (programs : Programs) (system : System)
    (script : Text) : Prop where
  writesInside : ∀ staged, tool.stage? programs system script = some staged →
    system.files.at? staged.scratch = none ∧ staged.place ≠ staged.scratch ∧
      staged.scratch <+: staged.place
  frame : ∀ location,
    (tool.run programs system script).1.files.at? location ≠ system.files.at? location →
      ∃ staged left status, tool.stage? programs system script = some staged ∧
        staged.start tool programs = some (left, status) ∧
        left.files.at? location ≠ staged.system.files.at? location ∧
        (tool.run programs system script).1.files.at? location = left.files.at? location
  sameStart : (tool.run programs system script).1.files.workingDirectory =
    system.files.workingDirectory

theorem run_of_stage? {staged : Staged}
    (isStaged : tool.stage? programs system script = some staged) :
    tool.run programs system script =
      match staged.start tool programs with
      | none =>
        ({ staged.system with files := staged.system.files.remove staged.scratch },
          .error (.spawn staged.program))
      | some (left, status) =>
        ({ left with files := left.files.remove staged.scratch }, .ok (some status)) := by
  unfold stage? at isStaged
  unfold run
  cases isCommand : tool.command with
  | nil => simp [isCommand] at isStaged
  | cons program arguments =>
    cases fresh : programs.scratch? system.files with
    | none => simp [isCommand, fresh] at isStaged
    | some scratch =>
      simp only [isCommand, fresh] at isStaged ⊢
      split at isStaged
      · cases isStaged
      · rename_i place found
        cases isStaged
        simp only [runIn, FileTree.writeText, FileTree.writeBytes, found, bind, Except.bind, pure,
          Except.pure, Staged.start]
        cases programs.startIn tool.workingDirectory program _ _ <;> rfl

/-- Where nothing was staged, nothing was written or run. -/
theorem run_of_stage?_eq_none (noneStaged : tool.stage? programs system script = none) :
    (tool.run programs system script).1 = system ∨
      ∃ scratch, programs.scratch? system.files = some scratch ∧
        (tool.run programs system script).1 =
          { system with files := (system.files.put scratch .directory).remove scratch } := by
  unfold stage? at noneStaged
  unfold run
  cases isCommand : tool.command with
  | nil => exact .inl rfl
  | cons program arguments =>
    cases fresh : programs.scratch? system.files with
    | none => exact .inl rfl
    | some scratch =>
      right
      refine ⟨scratch, rfl, ?_⟩
      simp only [isCommand, fresh] at noneStaged
      split at noneStaged
      · rename_i found
        simp only [runIn, FileTree.writeText, FileTree.writeBytes, found, bind, Except.bind]
      · cases noneStaged

theorem of_stage? {staged : Staged} (isStaged : tool.stage? programs system script = some staged) :
    programs.scratch? system.files = some staged.scratch ∧
      (system.files.put staged.scratch .directory).destination
        (Path.append (pathOf staged.scratch) tool.scriptName) = .ok staged.place ∧
      staged.system.files = (system.files.put staged.scratch .directory).put staged.place
        (.file (Utf8.encode (scriptContent script))) := by
  unfold stage? at isStaged
  split at isStaged
  · cases isStaged
  split at isStaged
  · cases isStaged
  rename_i scratch fresh
  simp only at isStaged
  split at isStaged
  · cases isStaged
  · rename_i place found
    cases isStaged
    exact ⟨fresh, found, rfl⟩

theorem isScratch_of_stage? (isFresh : programs.MakesFreshScratch) {staged : Staged}
    (isStaged : tool.stage? programs system script = some staged) :
    IsScratch system.files staged.scratch :=
  isFresh _ _ (of_stage? isStaged).1

theorem canStage_of_stage? (isFresh : programs.MakesFreshScratch) (isTree : system.files.IsTree)
    {staged : Staged} (isStaged : tool.stage? programs system script = some staged) :
    tool.CanStage system.files staged.scratch ∧ tool.target staged.scratch = staged.place :=
  (destination_eq_ok_iff_canStage (isScratch_of_stage? isFresh isStaged) isTree tool).mp
    (of_stage? isStaged).2.1

theorem startIn_workingDirectory {directory : Path} {program : Text} {arguments : List Text}
    {left : System} {status : ExitStatus}
    (started : programs.startIn directory program arguments system = some (left, status)) :
    left.files.workingDirectory = system.files.workingDirectory := by
  unfold Programs.startIn at started
  split at started
  · cases started
  · rcases Option.map_eq_some_iff.mp started with ⟨⟨after, status⟩, _, isLeft⟩
    cases isLeft
    rfl

theorem place_ne_scratch (isFresh : programs.MakesFreshScratch) (isTree : system.files.IsTree)
    {staged : Staged} (isStaged : tool.stage? programs system script = some staged) :
    staged.place ≠ staged.scratch := by
  have isScratch := isScratch_of_stage? isFresh isStaged
  rcases canStage_of_stage? isFresh isTree isStaged with ⟨canStage, isPlace⟩
  intro same
  have notDirectory := canStage.notDirectory
  rw [isPlace, same, FileTree.isDirectoryAt, FileTree.at?_put_self _ isScratch.notRoot]
    at notDirectory
  contradiction

/-- Without the staged script and the scratch directory, a system is as it was. -/
theorem at?_of_not_isPrefix {location : Location} {staged : Staged}
    (isStaged : tool.stage? programs system script = some staged)
    (inside : staged.scratch <+: staged.place) (apart : ¬ staged.scratch <+: location) :
    staged.system.files.at? location = system.files.at? location := by
  have notPlace : location ≠ staged.place := by
    rintro rfl
    exact apart inside
  have notScratch : location ≠ staged.scratch := by
    rintro rfl
    exact apart (List.prefix_refl staged.scratch)
  rw [(of_stage? isStaged).2.2, FileTree.at?_put_of_ne _ notPlace,
    FileTree.at?_put_of_ne _ notScratch]

/-- A call whose script leads into the scratch directory keeps to it. -/
theorem keepsToScratch_of_target (isFresh : programs.MakesFreshScratch)
    (isTree : system.files.IsTree)
    (leadsInside : ∀ staged, tool.stage? programs system script = some staged →
      staged.scratch <+: tool.target staged.scratch) :
    tool.KeepsToScratch programs system script := by
  cases isStaged : tool.stage? programs system script with
  | none =>
    rcases run_of_stage?_eq_none isStaged with unchanged | ⟨scratch, fresh, removed⟩
    · refine ⟨by simp [isStaged], ?_, by rw [unchanged]⟩
      intro location differs
      rw [unchanged] at differs
      contradiction
    · refine ⟨by simp [isStaged], ?_, by simp [removed]⟩
      intro location differs
      apply absurd _ differs
      rw [removed]
      apply (isFresh _ _ fresh).at?_remove isTree
      intro place apart
      apply FileTree.at?_put_of_ne
      rintro rfl
      exact apart (List.prefix_refl place)
  | some staged =>
    have isScratch := isScratch_of_stage? isFresh isStaged
    have inside : staged.scratch <+: staged.place := by
      rw [← (canStage_of_stage? isFresh isTree isStaged).2]
      exact leadsInside staged isStaged
    have startsThere : staged.system.files.workingDirectory = system.files.workingDirectory := by
      simp [(of_stage? isStaged).2.2]
    have isRun := run_of_stage? isStaged
    refine ⟨?_, ?_, ?_⟩
    · rintro other isOther
      cases isStaged.symm.trans isOther
      exact ⟨isScratch.missing, place_ne_scratch isFresh isTree isStaged, inside⟩
    · intro location differs
      rw [isRun] at differs ⊢
      cases started : staged.start tool programs with
      | none =>
        rw [started] at differs
        apply absurd _ differs
        exact isScratch.at?_remove isTree (fun _ => at?_of_not_isPrefix isStaged inside) location
      | some result =>
        rcases result with ⟨left, status⟩
        rw [started] at differs
        simp only at differs ⊢
        by_cases below : staged.scratch <+: location
        · exact absurd (isScratch.at?_remove_of_isPrefix isTree left.files below) differs
        · rw [FileTree.at?_remove_of_not_isPrefix _ below] at differs ⊢
          refine ⟨staged, left, status, isStaged, started, ?_, rfl⟩
          rw [at?_of_not_isPrefix isStaged inside below]
          exact differs
    · rw [isRun]
      cases started : staged.start tool programs with
      | none => exact startsThere
      | some result => exact (startIn_workingDirectory started).trans startsThere

/-- Nothing can be started, and one scratch directory can be made, in one state of the files. -/
def onlyScratch (files : FileTree) (scratch : Location) : Programs where
  start _ _ _ := none
  scratch? other := if other = files then some scratch else none

theorem makesFreshScratch_onlyScratch (isScratch : IsScratch files scratch) :
    (onlyScratch files scratch).MakesFreshScratch := by
  intro other location fresh
  simp only [onlyScratch, Option.ite_none_right_eq_some] at fresh
  rcases fresh with ⟨rfl, made⟩
  cases made
  exact isScratch

/-- From each scratch directory from which it can be written, a script is written. -/
theorem exists_stage?_of_canStage (isScratch : IsScratch system.files scratch)
    (isTree : system.files.IsTree) (hasProgram : tool.command ≠ [])
    (canStage : tool.CanStage system.files scratch) (script : Text) :
    ∃ staged, tool.stage? (onlyScratch system.files scratch) system script = some staged ∧
      staged.scratch = scratch := by
  have written := (destination_eq_ok_iff_canStage isScratch isTree tool).mpr ⟨canStage, rfl⟩
  cases isCommand : tool.command with
  | nil => contradiction
  | cons program arguments =>
    simp only [stage?, isCommand, onlyScratch, ↓reduceIte, written]
    exact ⟨_, rfl, rfl⟩

/-- A call keeps to its scratch directory, whatever this is, whatever the program does and whatever
the script, exactly if the name of the script leads into each directory from which it can be
written. -/
theorem keepsToScratch_iff (isTree : system.files.IsTree) (tool : BuildTool) :
    (∀ programs script, programs.MakesFreshScratch → tool.KeepsToScratch programs system script) ↔
      (tool.command ≠ [] → ∀ scratch, IsScratch system.files scratch →
        tool.CanStage system.files scratch → scratch <+: tool.target scratch) := by
  constructor
  · intro keeps hasProgram scratch isScratch canStage
    have isFresh := makesFreshScratch_onlyScratch isScratch
    rcases exists_stage?_of_canStage isScratch isTree hasProgram canStage [] with
      ⟨staged, isStaged, rfl⟩
    have inside := ((keeps _ [] isFresh).writesInside staged isStaged).2.2
    rwa [← (canStage_of_stage? isFresh isTree isStaged).2] at inside
  · intro leadsInside programs script isFresh
    apply keepsToScratch_of_target isFresh isTree
    intro staged isStaged
    have hasProgram : tool.command ≠ [] := by
      intro isEmpty
      simp [stage?, isEmpty] at isStaged
    exact leadsInside hasProgram _ (isScratch_of_stage? isFresh isStaged)
      (canStage_of_stage? isFresh isTree isStaged).1

/-- A call keeps to its scratch directory if the name of the script is relative and leads nowhere
upwards. -/
theorem keepsToScratch_of_relative (isFresh : programs.MakesFreshScratch)
    (isTree : system.files.IsTree) (relative : Path.isAbsolute tool.scriptName = false)
    (notAbove : Path.above ∉ Path.segments tool.scriptName) (script : Text) :
    tool.KeepsToScratch programs system script :=
  keepsToScratch_of_target isFresh isTree fun staged _ =>
    isPrefix_target relative notAbove staged.scratch

/-- A system with a directory for scratch directories and one to work in. -/
def sampleSystem : System where
  files :=
    { nodes := [(["tmp".toList], .directory), (["site".toList], .directory)]
      workingDirectory := ["site".toList] }

theorem isTree_sampleSystem : sampleSystem.files.IsTree where
  distinct := by decide
  areNames := by decide
  within := by decide
  startsInDirectory := by decide

/-- Nothing can be started, and scratch directories have one name. -/
def samplePrograms : Programs where
  start _ _ _ := none
  scratch? files := files.firstFree? ["tmp".toList] [".tmpa1B2c3".toList]

theorem makesFreshScratch_samplePrograms : samplePrograms.MakesFreshScratch := by
  intro files scratch fresh
  exact isScratch_of_firstFree? (by decide) fresh

/-- The plain name of a script leads into every scratch directory, where the script is written. -/
theorem keepsToScratch_iff_plain :
    sampleSystem.files.IsTree ∧ samplePrograms.MakesFreshScratch ∧
      (BuildTool.stage? ⟨["make".toList], "./build.mk".toList, ".".toList⟩ samplePrograms
        sampleSystem "all:".toList).isSome = true ∧
      ∀ programs script, programs.MakesFreshScratch →
        BuildTool.KeepsToScratch ⟨["make".toList], "./build.mk".toList, ".".toList⟩ programs
          sampleSystem script := by
  refine ⟨isTree_sampleSystem, makesFreshScratch_samplePrograms, by decide +kernel, ?_⟩
  apply (keepsToScratch_iff isTree_sampleSystem _).mpr
  intro _ scratch _ _
  exact isPrefix_target (by decide +kernel) (by decide +kernel) scratch

/-- A script with an absolute name stays where it was written, even if no program was started. -/
theorem not_forall_keepsToScratch :
    ¬ ∀ (tool : BuildTool) (programs : Programs) (system : System) (script : Text),
      programs.MakesFreshScratch → system.files.IsTree →
        tool.KeepsToScratch programs system script := by
  intro allKeep
  have keeps := allKeep ⟨["make".toList], "/tmp/leak.mk".toList, ".".toList⟩ samplePrograms
    sampleSystem "all:".toList makesFreshScratch_samplePrograms isTree_sampleSystem
  have differs : (BuildTool.run ⟨["make".toList], "/tmp/leak.mk".toList, ".".toList⟩
      samplePrograms sampleSystem "all:".toList).1.files.at? ["tmp".toList, "leak.mk".toList] ≠
      sampleSystem.files.at? ["tmp".toList, "leak.mk".toList] := by
    decide +kernel
  rcases keeps.frame _ differs with ⟨staged, left, status, _, started, _⟩
  unfold Staged.start Programs.startIn at started
  split at started <;> cases started

end BuildTool

end LiterateMarkdown
