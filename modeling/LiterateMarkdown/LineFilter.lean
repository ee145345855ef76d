import LiterateMarkdown.Build.Runner
import LiterateMarkdown.Fence.Title
import LiterateMarkdown.Property.Parser
import LiterateMarkdown.Rule.Basic

/-!
# The line filter

Five rules rewrite the fences of a page line by line, the first one that applies to a line deciding
it. Tilde fences open and close verbatim regions, in which the other rules decline every line.
Outside of them an opening fence with properties is rendered with its title. The body of a build
artifact is taken from the page and handed to a runner at its closing fence, and the fences around
it stay or vanish with it as the options say.

The scan goes on from one page to the next, so each page of a site takes a filter of its own.
-/

namespace LiterateMarkdown

/-- What happens to the fences around a build script. -/
inductive ClosingFence where
  /-- Both fences stay. -/
  | verbatim
  /-- The whole block leaves the page. -/
  | suppress
  deriving DecidableEq, Repr

/-- Whether build scripts are run, and what is left of them on the page. -/
structure FilterOptions where
  buildArtifacts : Bool := false
  closingFence : ClosingFence := .verbatim
  deriving DecidableEq, Repr

namespace LineFilter

/-- Where a scan stands. -/
structure Scan where
  /-- Inside a verbatim region. -/
  ignoring : Bool := false
  /-- Inside a build artifact. -/
  collecting : Bool := false
  /-- The lines of the script so far. -/
  scriptLines : List Text := []
  /-- The indentation of the last build artifact's fence. -/
  scriptIndent : Text := []
  /-- The properties of the last build artifact. -/
  scriptProperties : List Property := []
  deriving DecidableEq, Repr

/-- A scan, and the world in which its scripts are run. -/
structure State (World : Type) where
  scan : Scan
  world : World

variable {World : Type}

/-- A scan that has seen nothing yet. -/
def State.initial (world : World) : State World :=
  ⟨{}, world⟩

/-- A verbatim region begins. -/
def startIgnore (state : State World) (_line : Text) : State World × Verdict :=
  ({ state with scan.ignoring := true }, .passThrough)

/-- A verbatim region ends. -/
def stopIgnore (state : State World) (_line : Text) : State World × Verdict :=
  ({ state with scan.ignoring := false }, .passThrough)

/-- A fence with properties is rendered with its title, and a build artifact begins its script. -/
def openCodeBlock (options : FilterOptions) (state : State World) (_line : Text)
    (fence : OpenFence) : State World × Verdict :=
  if state.scan.ignoring then (state, .noMatch)
  else
    match Property.parse fence.properties with
    | .error _ => (state, .noMatch)
    | .ok properties =>
      let (properties, title) := Fence.withTitle properties
      let line := Fence.renderOpening fence.indent backticks properties title ++ fence.lineEnding
      if options.buildArtifacts && Property.hasClass properties Fence.buildArtifactClass then
        let scan := { state.scan with
          collecting := true, scriptLines := [], scriptIndent := fence.indent,
          scriptProperties := properties }
        match options.closingFence with
        | .verbatim => ({ state with scan }, .replace [line])
        | .suppress => ({ state with scan }, .erase)
      else (state, .replace [line])

/-- The closing fence of a build artifact hands its script to the runner. -/
def closeCodeBlock (options : FilterOptions) (runner : BuildRunner World) (state : State World)
    (_line : Text) : State World × Verdict :=
  if state.scan.ignoring || !state.scan.collecting then (state, .noMatch)
  else
    let script := Text.join ['\n'] state.scan.scriptLines
    let scan := { state.scan with collecting := false, scriptLines := [] }
    let world := runner.runDetached state.world script
    match options.closingFence with
    | .verbatim => (⟨scan, world⟩, .passThrough)
    | .suppress => (⟨scan, world⟩, .erase)

/-- A line of a build artifact goes to the script. -/
def addLineToScript (state : State World) (line : Text) : State World × Verdict :=
  if state.scan.ignoring || !state.scan.collecting then (state, .noMatch)
  else
    let taken := Text.dropCarriageReturn (Text.dedent state.scan.scriptIndent line)
    ({ state with scan.scriptLines := state.scan.scriptLines ++ [taken] }, .erase)

/-- The rules of the filter, in the order in which they are tried. -/
def rules (options : FilterOptions) (runner : BuildRunner World) : List (Rule (State World)) :=
  [ .onLines "start_ignore".toList Fence.startsVerbatim startIgnore,
    .onLines "stop_ignore".toList Fence.endsVerbatim stopIgnore,
    .onLine "open_code_block".toList OpenFence.ofLine? (openCodeBlock options),
    .onLines "close_code_block".toList Fence.isClosing (closeCodeBlock options runner),
    .always "add_line_to_script".toList addLineToScript ]

/-- Filter a page, going on from where the scan stands. -/
def run (options : FilterOptions) (runner : BuildRunner World) (state : State World)
    (page : Text) : State World × Text :=
  Rule.run (rules options runner) .exclusive state page

end LineFilter

end LiterateMarkdown
