import RegionTrack.Observation

/-!
# The command line of the tracker tool

The tool is called as `wavyte-track [OPTIONS] <COMMAND>`. The options name the data a track is
built from and apply to every command; they may be given before or after the command:

* `--data <DATA>`: tracker data to load the samples from
* `--format <FORMAT>`: the format of that data, `jsonl` (the default) or `frames`
* `--meta <META>`: track metadata applied first
* `--fps <FPS>`: the rate the data was recorded at
* `--time-scale <TIME_SCALE>`: the time scale of queries
* `--log-json`: a switch for the form of the log

The commands are `box --frame <FRAME>`, `props --frame <FRAME>`,
`range --start <START> --end <END> [--parallel]`, `meta`, and `help [COMMAND]...`. Every command
takes `-h`/`--help`; the tool itself also takes `-V`/`--version`.

This module describes that command line as data: options (`ArgSpec`) and commands
(`CommandSpec`), with the texts their help shows and the order it shows them in.
-/

namespace RegionTrack.Cli

/-- The name of the tool. -/
def toolName : String := "wavyte-track"

/-- The version of the tool. -/
def toolVersion : String := "0.1.0"

/-- The options of the command line. -/
inductive ArgId where
  | data
  | format
  | metadata
  | fps
  | timeScale
  | logJson
  | frame
  | start
  | stop
  | parallel
  | help
  | version
deriving DecidableEq, Repr, Inhabited

/-- How the value of an option is read. -/
inductive ValueKind where
  /-- A non-empty path. -/
  | path
  /-- One of the option's choices. -/
  | choice
  /-- A frame rate. -/
  | rate
  /-- A float literal. -/
  | float
  /-- An unsigned 64-bit integer. -/
  | count
deriving DecidableEq, Repr, Inhabited

/-- What an option does. -/
inductive Action where
  /-- Takes one value, called `name` in usage lines. -/
  | value (name : String) (kind : ValueKind)
  /-- A switch. -/
  | flag
  /-- Shows help. -/
  | help
  /-- Shows the version. -/
  | version
deriving DecidableEq, Repr, Inhabited

/-- An option. -/
structure ArgSpec where
  id : ArgId
  long : String
  short : Option Char := none
  action : Action
  /-- The help line. -/
  help : String := ""
  /-- The help text of the long help, when it differs. -/
  longHelp : Option String := none
  required : Bool := false
  /-- Options are listed by this number, then by name. -/
  order : Nat := 999
  default : Option String := none
  /-- The accepted values with their help, for an option with a choice. -/
  choices : List (String × String) := []
deriving Inhabited

namespace ArgSpec

/-- Whether the option takes a value. -/
def takesValue (a : ArgSpec) : Bool :=
  match a.action with
  | .value _ _ => true
  | _ => false

/-- The option as usage lines and messages show it: `--data <DATA>`, `--log-json`. -/
def display (a : ArgSpec) : String :=
  "--" ++ a.long ++
    match a.action with
    | .value name _ => " <" ++ name ++ ">"
    | _ => ""

/-- The names of the choices. -/
def choiceNames (a : ArgSpec) : List String := a.choices.map (·.1)

end ArgSpec

/-- A command. -/
structure CommandSpec where
  name : String
  /-- The command as usage lines show it. -/
  path : String
  about : Option String := none
  /-- The options, in the order the command knows them. -/
  args : List ArgSpec
  /-- The names of the subcommands. -/
  subcommands : List String := []
  /-- A subcommand must be given. -/
  needsSubcommand : Bool := false
  /-- The operands, as usage shows them, and their help. -/
  operands : Option (String × String) := none
  /-- The command takes `--help`. -/
  helpFlag : Bool := true
  /-- The sets of options declared together, each in its order; the usage line shown for a value
  given to a switch names a set as one alternative once one of its options was given. -/
  groups : List (List ArgId) := []
deriving Inhabited

namespace CommandSpec

/-- The option with a long name. -/
def findLong (c : CommandSpec) (name : String) : Option ArgSpec := c.args.find? (·.long = name)

/-- The option with a short name. -/
def findShort (c : CommandSpec) (ch : Char) : Option ArgSpec := c.args.find? (·.short = some ch)

/-- The option with an id. -/
def find (c : CommandSpec) (id : ArgId) : Option ArgSpec := c.args.find? (·.id = id)

/-- Whether the option `id` is required. -/
def isRequired (c : CommandSpec) (id : ArgId) : Bool := (c.find id).any (·.required)

/-- The required options, in order. -/
def requiredArgs (c : CommandSpec) : List ArgSpec := c.args.filter (·.required)

/-- Whether `--help` gives more than `-h`: some option lists choices with their help. -/
def hasLongHelp (c : CommandSpec) : Bool := c.args.any fun a => !a.choices.isEmpty

end CommandSpec

/-- `-h`, `--help`. -/
def helpArg : ArgSpec :=
  { id := .help, long := "help", short := some 'h', action := .help,
    help := "Print help (see more with '--help')",
    longHelp := some "Print help (see a summary with '-h')" }

/-- `-V`, `--version`. -/
def versionArg : ArgSpec :=
  { id := .version, long := "version", short := some 'V', action := .version,
    help := "Print version" }

/-- The options every command takes. -/
def sourceArgs : List ArgSpec :=
  [{ id := .data, long := "data", action := .value "DATA" .path, order := 0,
      help := "Tracker output to load samples from" },
    { id := .format, long := "format", action := .value "FORMAT" .choice, order := 1,
      help := "Format of `--data`", default := some "jsonl",
      choices := [("jsonl", "One `\x7bframe, cx, cy, width, height, angle\x7d` object per line"),
        ("frames", "`\x7b\"frames\": [...]\x7d` document with corner boxes")] },
    { id := .metadata, long := "meta", action := .value "META" .path, order := 2,
      help := "Track metadata JSON (rates, visibility, curves) applied before `--fps`/`--time-scale`" },
    { id := .fps, long := "fps", action := .value "FPS" .rate, order := 3,
      help := "Rate the samples were recorded at, e.g. `30` or `30000/1001`" },
    { id := .timeScale, long := "time-scale", action := .value "TIME_SCALE" .float, order := 4,
      help := "Query time scale" },
    { id := .logJson, long := "log-json", action := .flag, order := 5,
      help := "Emit logs as JSON lines on stderr" }]

/-- The tool itself. -/
def rootCommand : CommandSpec :=
  { name := toolName, path := toolName, args := sourceArgs ++ [helpArg, versionArg],
    subcommands := ["box", "props", "range", "meta", "help"], needsSubcommand := true,
    groups := [[.data, .format, .metadata, .fps, .timeScale]] }

/-- `--frame <FRAME>`. -/
def frameArg : ArgSpec :=
  { id := .frame, long := "frame", action := .value "FRAME" .count, required := true, order := 0 }

/-- A command of the tool, with its own options first. -/
def toolCommand (name about : String) (own : List ArgSpec) : CommandSpec :=
  { name := name, path := toolName ++ " " ++ name, about := some about,
    args := own ++ sourceArgs ++ [helpArg],
    groups := if own.isEmpty then [] else [own.map (·.id)] }

/-- The command `help`. -/
def helpCommand : CommandSpec :=
  { name := "help", path := toolName ++ " help",
    about := some "Print this message or the help of the given subcommand(s)", args := [],
    operands := some ("[COMMAND]...", "Print help for the subcommand(s)"), helpFlag := false }

/-- The subcommand called `name`. -/
def subcommand? : String → Option CommandSpec
  | "box" => some (toolCommand "box" "Print the box and adjustment values at one frame" [frameArg])
  | "props" => some (toolCommand "props" "Print the property sheet at one frame" [frameArg])
  | "range" => some (toolCommand "range" "Print every box in `[start, end)`"
      [{ id := .start, long := "start", action := .value "START" .count, required := true,
          order := 0 },
        { id := .stop, long := "end", action := .value "END" .count, required := true,
          order := 1 },
        { id := .parallel, long := "parallel", action := .flag, order := 2,
          help := "Evaluate frames on the rayon pool" }])
  | "meta" => some (toolCommand "meta" "Print the track metadata JSON" [])
  | "help" => some helpCommand
  | _ => none

end RegionTrack.Cli
