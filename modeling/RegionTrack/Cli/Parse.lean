import RegionTrack.Cli.Failure
import RegionTrack.Decimal.Nearest

/-!
# Reading the command line

The arguments are read left to right, first for the tool and then, from the subcommand's name
on, for the subcommand; an option of either may be given at either level, and a value given
after the subcommand's name wins.

* `--name=value` and `--name value` give an option its value; `-h` and `-V` are the short
  switches. The argument after an option that needs a value is that value (even when it is a
  subcommand's name), unless it starts with `-`.
* `--` ends the options: what follows can be neither an option nor a subcommand.
* A value given as a separate argument is read when the next option is met, or when the
  arguments end; a value attached with `=` is read at once. So an unknown option reported
  right after a bad separate value wins over it.
* `-h`, `--help`, `-V` and `--version` stop the reading at once and show help or the version
  (`-h` the short help, `--help` the long one).
* `help [COMMAND]...` shows the long help of the named command.
* Without any argument the short help is shown, as a refusal.

The result is an `Invocation`, or a `Stop`: help, the version, or a `Failure`.
-/

namespace RegionTrack.Cli

/-- A value given to an option. -/
inductive ArgValue where
  | text (s : String)
  | format (f : DataFormat)
  | rate (r : FrameRate)
  | float (x : Float)
  | count (n : Nat)
  | present
deriving Inhabited

/-- Why the tool stops before it runs a command. -/
inductive Stop where
  /-- Help was asked for. -/
  | help (text : String)
  /-- The version was asked for. -/
  | version
  /-- Nothing was given: short help, as a refusal. -/
  | bare (text : String)
  /-- The command line was refused. -/
  | failure (f : Failure)

/-- The commands. -/
inductive Command where
  | box (frame : Nat)
  | props (frame : Nat)
  | range (start stop : Nat) (parallel : Bool)
  | metadata

/-- What the command line asks for. -/
structure Invocation where
  data : Option String
  format : DataFormat
  metadata : Option String
  fps : Option FrameRate
  timeScale : Option Float
  logJson : Bool
  command : Command

/-- Reads the value `v` of option `a`. -/
def readValue (a : ArgSpec) (kind : ValueKind) (v : String) : Except Failure ArgValue :=
  match kind with
  | .path => if v.isEmpty then .error (.valueRequired a) else .ok (.text v)
  | .choice =>
    match DataFormat.ofName? v with
    | some f => if a.choiceNames.contains v then .ok (.format f) else .error (.notAChoice a v)
    | none => .error (.notAChoice a v)
  | .rate =>
    match FrameRate.parse v with
    | .ok r => .ok (.rate r)
    | .error e => .error (.badValue a v e.message)
  | .float =>
    match Decimal.readFloat v with
    | .ok x => .ok (.float x)
    | .error e => .error (.badValue a v e.message)
  | .count =>
    match parseUnsigned maxU64 v.toList with
    | .ok n => .ok (.count n)
    | .error e => .error (.badValue a v e.message)

/-- The reading of one command's arguments so far. -/
structure ReadState where
  /-- The options given, in the order they were first given. -/
  given : List (ArgId × ArgValue) := []
  /-- The option whose separate value is still to be read, and that value once given. -/
  pending : Option (ArgSpec × Option String) := none
  /-- `--` was given. -/
  escaped : Bool := false

namespace ReadState

/-- Whether option `id` was given. -/
def has (st : ReadState) (id : ArgId) : Bool := st.given.any (·.1 = id)

/-- The next argument is the value of the pending option. -/
def awaitsValue (st : ReadState) : Bool :=
  match st.pending with
  | some (_, none) => true
  | _ => false

/-- The options given, in the order they were first given. -/
def givenIds (st : ReadState) : List ArgId := st.given.map (·.1)

/-- The options given that are not required, for usage lines. -/
def optional (st : ReadState) (c : CommandSpec) : List ArgId :=
  st.givenIds.filter fun id => !c.isRequired id

/-- The option sets of `c` that hold an option given, in the order they were first met. -/
def givenSets (st : ReadState) (c : CommandSpec) : List (List ArgId) :=
  st.givenIds.foldl (fun acc id => acc ++ c.groups.filter fun g => g.contains id && !acc.contains g)
    []

end ReadState

/-- Takes option `a` with `values`, the pending value having been read. `long` tells whether
it was named by its long name, which decides between short and long help. -/
def take (c : CommandSpec) (long : Bool) (st : ReadState) (a : ArgSpec) (values : List String) :
    Except Stop ReadState :=
  match a.action with
  | .value _ kind =>
    match values with
    | [] => .error (.failure (.valueRequired a))
    | v :: _ =>
      if st.has a.id then .error (.failure (.givenTwice a c.usage))
      else
        match readValue a kind v with
        | .ok x => .ok { st with given := st.given ++ [(a.id, x)] }
        | .error f => .error (.failure f)
  | .flag =>
    if st.has a.id then .error (.failure (.givenTwice a c.usage))
    else .ok { st with given := st.given ++ [(a.id, .present)] }
  | .help => .error (.help (helpText c long))
  | .version => .error .version

/-- Reads the pending value, if there is one. -/
def settle (c : CommandSpec) (st : ReadState) : Except Stop ReadState :=
  match st.pending with
  | none => .ok st
  | some (a, v) => take c false { st with pending := none } a v.toList

/-- The state after reading the pending value when its failure is not reported: an option
with a value counts as given (a second one removes the first), one without a value does
not. -/
def settleQuietly (st : ReadState) : ReadState :=
  match st.pending with
  | none => st
  | some (_, none) => { st with pending := none }
  | some (a, some v) =>
    if st.has a.id then { st with pending := none, given := st.given.filter (·.1 != a.id) }
    else { st with pending := none, given := st.given ++ [(a.id, .text v)] }

/-- Takes option `a`, first reading the pending value. -/
def react (c : CommandSpec) (long : Bool) (st : ReadState) (a : ArgSpec) (values : List String) :
    Except Stop ReadState := do
  take c long (← settle c st) a values

/-- The refusal of an unknown long option `--name`, with a similar option of this command or,
failing that, of a subcommand named later in `rest`. -/
def unknownLong (c : CommandSpec) (st : ReadState) (name : String) (rest : List String) :
    Failure :=
  match (similarNames name (c.args.map (·.long))).getLast? with
  | some best =>
    let extra := match c.findLong best with
      | some a => if st.has a.id then [] else [a.id]
      | none => []
    Failure.unknownArgument ("--" ++ name) [Failure.similarTip "argument" ["--" ++ best]]
      (c.usageWith (st.givenIds ++ extra))
  | none =>
    let offers := c.subcommands.filterMap fun s => do
      let sc ← subcommand? s
      let best ← (similarNames name (sc.args.map (·.long))).getLast?
      let pos ← rest.idxOf? s
      return (pos, s, best)
    let first := offers.foldl (fun acc o => match acc with
      | some b => if o.1 < b.1 then some o else some b
      | none => some o) none
    let tips := match first with
      | some (_, s, best) => ["'" ++ s ++ " --" ++ best ++ "' exists"]
      | none => []
    Failure.unknownArgument ("--" ++ name) tips (c.usageWith st.givenIds)

/-- Reads `--body`, where `rest` are the arguments after it. -/
def readLong (c : CommandSpec) (st : ReadState) (body : String) (rest : List String) :
    Except Stop ReadState :=
  let (name, value) := match body.splitOn "=" with
    | [n] => (n, none)
    | n :: vs => (n, some ("=".intercalate vs))
    | [] => (body, none)
  match c.findLong name with
  | some a =>
    if a.takesValue then
      match value with
      | some v => react c true st a [v]
      | none => do
        let st ← settle c st
        return { st with pending := some (a, none) }
    else
      match value with
      | some v =>
        .error (.failure (.valueForSwitch a v
          (c.usageNaming (st.optional c ++ [a.id]) (st.givenSets c))))
      | none => react c true st a []
  | none => .error (.failure (unknownLong c (settleQuietly st) name rest))

/-- Reads the short switches `-chars`. -/
def readShort (c : CommandSpec) (st : ReadState) : List Char → Except Stop ReadState
  | [] => .ok st
  | ch :: more =>
    match c.findShort ch with
    | some a =>
      if a.takesValue then
        let v := String.ofList (match more with
          | '=' :: r => r
          | r => r)
        if more.isEmpty then do
          let st ← settle c st
          return { st with pending := some (a, none) }
        else react c false st a [v]
      else do
        let st ← react c false st a []
        readShort c st more
    | none => .error (.failure (.unknownArgument ("-" ++ String.ofList [ch]) [] c.usage))

/-- The refusal of an argument that is neither an option nor a value. -/
def strayArgument (c : CommandSpec) (st : ReadState) (arg : String) : Failure :=
  if st.escaped && c.subcommands.contains arg then .escapedSubcommand arg c.usage
  else if c.subcommands.isEmpty then .unknownArgument arg [] c.usage
  else
    match similarNames arg c.subcommands with
    | [] => .unrecognizedSubcommand c arg
    | similar => .invalidSubcommand arg similar c.usage

/-- `help` followed by `names`: the long help of the command they name. -/
def helpFor (names : List String) : Stop :=
  match names with
  | [] => .help (helpText rootCommand true)
  | name :: more =>
    match (if rootCommand.subcommands.contains name then subcommand? name else none) with
    | none => .failure (.unrecognizedSubcommand rootCommand name)
    | some sc =>
      match more with
      | [] => .help (helpText sc true)
      | n :: _ => .failure (.unrecognizedSubcommand sc n)

/-- How reading one command's arguments ended. -/
inductive LevelEnd where
  /-- The arguments ended. -/
  | finished (st : ReadState)
  /-- The subcommand `name` starts, with `rest` its arguments. -/
  | enter (st : ReadState) (name : String) (rest : List String)

/-- Reads the arguments of command `c`. -/
def readLevel (c : CommandSpec) : ReadState → List String → Except Stop LevelEnd
  | st, [] => .ok (.finished st)
  | st, arg :: rest =>
    if st.escaped then .error (.failure (strayArgument c (settleQuietly st) arg))
    else if !st.awaitsValue && c.subcommands.contains arg then
      if arg = "help" then .error (helpFor rest) else .ok (.enter st arg rest)
    else if arg = "--" then readLevel c { st with escaped := true } rest
    else if arg.startsWith "--" then do
      readLevel c (← readLong c st (arg.drop 2).toString rest) rest
    else if arg.startsWith "-" && arg != "-" then do
      readLevel c (← readShort c st (arg.drop 1).toString.toList) rest
    else if st.awaitsValue then
      readLevel c { st with pending := st.pending.map fun (a, _) => (a, some arg) } rest
    else .error (.failure (strayArgument c (settleQuietly st) arg))

/-- Ends a subcommand's reading: the pending value is read and the required options checked. -/
def finishLevel (c : CommandSpec) (st : ReadState) : Except Stop ReadState := do
  let st ← settle c st
  let missing := c.requiredArgs.filter fun a => !st.has a.id
  if missing.isEmpty then return st
  else
    throw (.failure (.missingRequired missing
      (c.usageWith (st.given.map (·.1) ++ missing.map (·.id)))))

/-- The value of option `id`: given to the subcommand, else given to the tool. -/
def valueOf (top sub : ReadState) (id : ArgId) : Option ArgValue :=
  match sub.given.lookup id with
  | some v => some v
  | none => top.given.lookup id

/-- The invocation of subcommand `name` from the options given. -/
def invocation (top sub : ReadState) (name : String) : Invocation :=
  let get := valueOf top sub
  let text := fun id => match get id with
    | some (.text s) => some s
    | _ => none
  let count := fun id => match get id with
    | some (.count n) => n
    | _ => 0
  { data := text .data
    format := match get .format with
      | some (.format f) => f
      | _ => .lines
    metadata := text .metadata
    fps := match get .fps with
      | some (.rate r) => some r
      | _ => none
    timeScale := match get .timeScale with
      | some (.float x) => some x
      | _ => none
    logJson := (get .logJson).isSome
    command := match name with
      | "box" => .box (count .frame)
      | "props" => .props (count .frame)
      | "range" => .range (count .start) (count .stop) (get .parallel).isSome
      | _ => .metadata }

/-- Reads a command line (without the tool's own name). -/
def parseArgs (args : List String) : Except Stop Invocation := do
  match ← readLevel rootCommand {} args with
  | .finished st =>
    let st ← settle rootCommand st
    if st.given.isEmpty then throw (.bare (helpText rootCommand false))
    else throw (.failure (.missingSubcommand rootCommand))
  | .enter st name rest =>
    let sc := (subcommand? name).getD helpCommand
    let sub ← match ← readLevel sc {} rest with
      | .finished s => finishLevel sc s
      | .enter s _ _ => finishLevel sc s
    let st ← settle rootCommand st
    return invocation st sub name

end RegionTrack.Cli
