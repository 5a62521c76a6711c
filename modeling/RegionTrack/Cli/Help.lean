import RegionTrack.Cli.Spec

/-!
# Usage lines and help texts

A usage line names the command, `[OPTIONS]` when it has options that are neither required nor
the help and version switches, its required options, its operands, and `<COMMAND>` when a
subcommand is required. A usage line for a message may instead name the options that were
used (when there are any): the required options first, then those, each once. It may also name
sets of options declared together, as `<a|b|…>` after the options, and then leaves out the
options of those sets.

The help text of a command is its description, its usage line, and sections for its
subcommands, its operands and its options. Short help (`-h`) puts each option on one line with
its help aligned in a column two spaces after the longest option, and the default and the
choices after the help. Long help (`--help`, for a command with options whose choices have
help) puts each help on its own line indented by ten spaces, an empty line between options,
the choices as a list with their help under the help, and the default last.

Options are listed by their order number, then by name (the short name first, lower case
before upper case); subcommands in the order they are declared, `help` last.
-/

namespace RegionTrack.Cli

/-- `n` spaces. -/
def spaces (n : Nat) : String := String.ofList (List.replicate n ' ')

/-- The list without repeated entries, first occurrences kept. -/
def dedupKeep (xs : List String) : List String :=
  xs.foldl (fun acc x => if acc.contains x then acc else acc ++ [x]) []

namespace CommandSpec

/-- The usage line. -/
def usage (c : CommandSpec) : String :=
  let options := c.args.any fun a =>
    !a.required && a.action != .help && a.action != .version
  c.path ++ (if options then " [OPTIONS]" else "") ++
    String.join (c.requiredArgs.map fun a => " " ++ a.display) ++
    (match c.operands with
      | some (op, _) => " " ++ op
      | none => "") ++
    (if c.needsSubcommand then " <COMMAND>" else "")

/-- The usage line naming the options `used` and the option sets `sets`; the usual one when
nothing is named. -/
def usageNaming (c : CommandSpec) (used : List ArgId) (sets : List (List ArgId)) : String :=
  if used.isEmpty && sets.isEmpty then c.usage
  else
    let displays (ids : List ArgId) := ids.filterMap fun id => (c.find id).map (·.display)
    let named := displays ((c.requiredArgs.map (·.id) ++ used).filter
      fun id => !sets.any (·.contains id))
    let alternatives := sets.map fun g => "<" ++ "|".intercalate (displays g) ++ ">"
    c.path ++ String.join ((dedupKeep named ++ dedupKeep alternatives).map (" " ++ ·)) ++
      (if c.needsSubcommand then " <COMMAND>" else "")

/-- The usage line naming the options `used`; the usual one when none were. -/
def usageWith (c : CommandSpec) (used : List ArgId) : String :=
  c.usageNaming used []

end CommandSpec

namespace ArgSpec

/-- The sort key of an option in help. -/
def sortKey (a : ArgSpec) : String :=
  match a.short with
  | some c => String.ofList [c.toLower, if c.isLower then '0' else '1']
  | none => a.long

/-- `a` is listed before or with `b`. -/
def listedBefore (a b : ArgSpec) : Bool :=
  a.order < b.order || (a.order = b.order && decide (a.sortKey ≤ b.sortKey))

/-- The switches of an option: `-h, --help` or `    --data <DATA>`. -/
def switches (a : ArgSpec) : String :=
  (match a.short with
    | some c => "-" ++ String.ofList [c] ++ ", "
    | none => "    ") ++ a.display

/-- The default and the choices, as short help shows them after the help. -/
def shortNotes (a : ArgSpec) : String :=
  let notes := (match a.default with
      | some d => ["[default: " ++ d ++ "]"]
      | none => []) ++
    (if a.choices.isEmpty then [] else ["[possible values: " ++ ", ".intercalate a.choiceNames ++ "]"])
  " ".intercalate notes

/-- The help of an option in short help. -/
def shortText (a : ArgSpec) : String :=
  let notes := a.shortNotes
  if notes.isEmpty then a.help else if a.help.isEmpty then notes else a.help ++ " " ++ notes

/-- An option's line in short help, its help in the column after `width`. -/
def shortLine (a : ArgSpec) (width : Nat) : String :=
  "  " ++ a.switches ++ spaces (width + 2 - (a.display.length + 4)) ++ a.shortText

/-- The help of an option in long help. -/
def longText (a : ArgSpec) : String := a.longHelp.getD a.help

/-- An option's entry in long help: the help, then the choices as a list with their help, then
the default after an empty line; every line is indented, the empty line before the default
included. -/
def longEntry (a : ArgSpec) : String :=
  let indent := spaces 10
  let text := a.longText
  let choices :=
    if a.choices.isEmpty then ""
    else
      let width := (a.choiceNames.map String.length).foldl max 0
      (if text.isEmpty then "" else "\n\n" ++ indent) ++ "Possible values:" ++
        String.join (a.choices.map fun (n, h) =>
          "\n" ++ indent ++ "- " ++ n ++ ": " ++ spaces (width - n.length) ++ h)
  let default := match a.default with
    | some d =>
      (if text.isEmpty && choices.isEmpty then "" else "\n" ++ indent ++ "\n" ++ indent) ++
        "[default: " ++ d ++ "]"
    | none => ""
  "  " ++ a.switches ++ "\n" ++ indent ++ ("\n" ++ indent).intercalate (text.splitOn "\n") ++
    choices ++ default

end ArgSpec

namespace CommandSpec

/-- The options in the order help lists them. -/
def listed (c : CommandSpec) : List ArgSpec := c.args.mergeSort ArgSpec.listedBefore

/-- The options section. -/
def optionsSection (c : CommandSpec) (long : Bool) : String :=
  let args := c.listed
  if long then "\n\n".intercalate (args.map ArgSpec.longEntry)
  else
    let width := (args.map fun a => a.display.length + 4).foldl max 2
    "\n".intercalate (args.map (·.shortLine width))

/-- The subcommands section. -/
def commandsSection (c : CommandSpec) (about : String → String) : String :=
  let width := (c.subcommands.map String.length).foldl max 2
  "\n".intercalate (c.subcommands.map fun n => "  " ++ n ++ spaces (width + 2 - n.length) ++ about n)

end CommandSpec

/-- The description of a subcommand. -/
def aboutOf (name : String) : String := ((subcommand? name).bind (·.about)).getD ""

/-- Drops trailing white space. -/
def trimEnd (s : String) : String :=
  String.ofList ((s.toList.reverse.dropWhile Char.isWhitespace).reverse)

/-- The help text of a command; long help when asked for and the command has it. -/
def helpText (c : CommandSpec) (long : Bool) : String :=
  let long := long && c.hasLongHelp
  let sections :=
    (if c.subcommands.isEmpty then [] else ["Commands:\n" ++ c.commandsSection aboutOf]) ++
    (match c.operands with
      | some (op, h) => ["Arguments:\n  " ++ op ++ "  " ++ h]
      | none => []) ++
    (if c.args.isEmpty then [] else ["Options:\n" ++ c.optionsSection long])
  let head := match c.about with
    | some a => a ++ "\n\n"
    | none => ""
  trimEnd (head ++ "Usage: " ++ c.usage ++ "\n\n" ++ "\n\n".intercalate sections) ++ "\n"

/-- The version text. -/
def versionText : String := toolName ++ " " ++ toolVersion ++ "\n"

end RegionTrack.Cli
