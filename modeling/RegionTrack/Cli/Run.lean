import RegionTrack.Cli.Parse
import RegionTrack.Track.Properties

/-!
# Running the tracker tool

A command runs on a track built from the options, in this order: the metadata file is read and
applied, the rate and the time scale are set, and the data file is loaded. The command then
prints one pretty JSON value and a newline, and the tool ends with status 0:

* `box`: the frame, the rectangle at the frame, and the rectangle and adjustment values there
* `props`: the property sheet at the frame
* `range`: the rectangles of the frames `[start, end)`
* `meta`: the track metadata

A failure ends the tool with status 1 and prints `Error: ` with what was being done, then the
causes under `Caused by:`, indented, and numbered when there are several. Help and the version
go to standard output with status 0; a refused command line to standard error with status 2.

Files are read through a function that says what reading a path gave (`FileRead`), so that
the same run works on a real file system and on a table of files (`readIn`).
-/

namespace RegionTrack.Cli

/-- What the tool printed and its exit status. -/
structure Outcome where
  status : Nat
  stdout : String
  stderr : String

/-- A failure while running: what was being done, then its causes, outermost first. -/
structure Fault where
  chain : List String

namespace Fault

/-- A cause under `Caused by:`, indented; continuation lines line up with the first. -/
def cause (number : Option Nat) (text : String) : String :=
  let (first, more) := match number with
    | some n =>
      let s := toString n
      (spaces (5 - s.length) ++ s ++ ": ", spaces 7)
    | none => (spaces 4, spaces 4)
  first ++ ("\n" ++ more).intercalate (text.splitOn "\n")

/-- The text of a failure. -/
def render (f : Fault) : String :=
  match f.chain with
  | [] => "Error: \n"
  | [m] => "Error: " ++ m ++ "\n"
  | m :: causes =>
    let numbered := causes.length > 1
    let lines := causes.zipIdx.map fun (c, i) => cause (if numbered then some i else none) c
    "Error: " ++ m ++ "\n\nCaused by:" ++ String.join (lines.map ("\n" ++ ·)) ++ "\n"

end Fault

/-- The failure of loading tracker data from `path`: a file that could not be opened also
names the system's cause. -/
def loadFault (path : String) (e : TrackError) : Fault :=
  let context := "load tracker data '" ++ path ++ "'"
  match e with
  | .unopenable _ cause => ⟨[context, e.message, cause.message]⟩
  | _ => ⟨[context, e.message]⟩

section

variable {m : Type → Type} [Monad m]

/-- Runs `step` on the value of an option that was given; without it the track is kept. -/
def optionally {α : Type} (o : Option α) (t : Track) (step : α → ExceptT Fault m Track) :
    ExceptT Fault m Track :=
  match o with
  | none => pure t
  | some a => step a

/-- A change of the track's setup, its refusal being a failure of the tool. -/
def setupStep (x : Except TrackError Track) : ExceptT Fault m Track :=
  match x with
  | .ok t => pure t
  | .error e => throw ⟨[e.message]⟩

/-- Reads the metadata file `path` with `read` and applies its text to an empty track. -/
def metadataTrack (read : String → m FileRead) (path : String) : ExceptT Fault m Track := do
  match (← (read path : m FileRead)).text? with
  | .error why => throw ⟨["read track metadata '" ++ path ++ "'", why]⟩
  | .ok text =>
    match Track.patchText {} text with
    | (t, .ok ()) => pure t
    | (_, .error e) => throw ⟨["apply track metadata '" ++ path ++ "'", e.message]⟩

/-- Loads the data file `path`, read with `read`, into the track. -/
def loadTrack (read : String → m FileRead) (fmt : DataFormat) (t : Track) (path : String) :
    ExceptT Fault m Track := do
  match t.load path (← (read path : m FileRead)) fmt with
  | (t, .ok _) => pure t
  | (_, .error e) => throw (loadFault path e)

/-- Builds the track the options describe, reading files with `read`: the metadata, then the
rate, the time scale and the data, each when given. -/
def buildTrack (read : String → m FileRead) (inv : Invocation) :
    ExceptT Fault m Track := do
  let t ← optionally inv.metadata {} (metadataTrack read)
  let t ← optionally inv.fps t fun r => setupStep (t.setRate r.num r.den)
  let t ← optionally inv.timeScale t fun x => setupStep (t.setScale x)
  optionally inv.data t (loadTrack read inv.format t)

end

/-- The rectangle and adjustment values at a frame, by short name. -/
def valuesJson (t : Track) (f : Nat) : Json.Value :=
  .obj ((t.rectValues f).map fun (k, x) => (k, .ofFloat x))

/-- What a command prints for a track. -/
def Command.output (t : Track) : Command → Except Fault Json.Value
  | .box f => .ok (.obj [("frame", .ofNat f), ("box", (t.rectAt f).toJson), ("values", valuesJson t f)])
  | .props f => .ok (t.propertiesJson f)
  | .range start stop _ =>
    match FrameSpan.make start stop with
    | .ok span => .ok (.array ((t.rects span).map Rect.toJson))
    | .error e => .error ⟨[e.message]⟩
  | .metadata => .ok t.toJson

/-- What stopping before a command prints. -/
def Stop.outcome : Stop → Outcome
  | .help text => ⟨0, text, ""⟩
  | .version => ⟨0, versionText, ""⟩
  | .bare text => ⟨2, "", text⟩
  | .failure f => ⟨2, "", f.render⟩

/-- The outcome of a fault or of a printed value. -/
def finish : Except Fault Json.Value → Outcome
  | .ok v => ⟨0, v.render ++ "\n", ""⟩
  | .error f => ⟨1, "", f.render⟩

/-- Runs the tool on its arguments (without its own name), reading files with `read`. -/
def run {m : Type → Type} [Monad m] (read : String → m FileRead) (args : List String) :
    m Outcome :=
  match parseArgs args with
  | .error stop => pure stop.outcome
  | .ok inv => do
    match ← (buildTrack read inv).run with
    | .error f => pure (finish (.error f))
    | .ok t => pure (finish (inv.command.output t))

end RegionTrack.Cli
