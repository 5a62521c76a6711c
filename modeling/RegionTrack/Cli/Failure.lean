import RegionTrack.Cli.Help
import RegionTrack.Cli.Similar

/-!
# Usage errors

A command line the tool cannot read is refused with a message on standard error and status 2:

```text
error: <what is wrong>

  tip: <a suggestion>

Usage: <usage line>

For more information, try '--help'.
```

The suggestions and the usage line are present only for some errors; the last line is left out
for a command without `--help`. A refused value names the option as usage shows it; a value
that is not one of an option's choices lists the choices and suggests the most similar one.
-/

namespace RegionTrack.Cli

/-- A refused command line. -/
structure Failure where
  message : String
  tips : List String := []
  usage : Option String := none
  tryHelp : Bool := true

namespace Failure

/-- The text of the refusal. -/
def render (f : Failure) : String :=
  "error: " ++ f.message ++
    (if f.tips.isEmpty then "" else "\n" ++ String.join (f.tips.map ("\n  tip: " ++ ·))) ++
    (match f.usage with
      | some u => "\n\nUsage: " ++ u
      | none => "") ++
    (if f.tryHelp then "\n\nFor more information, try '--help'.\n" else "\n")

/-- The list of accepted values after a message. -/
def valuesList (label : String) (values : List String) : String :=
  if values.isEmpty then "" else "\n  [" ++ label ++ ": " ++ ", ".intercalate values ++ "]"

/-- A tip naming one or more similar names. -/
def similarTip (what : String) (names : List String) : String :=
  match names with
  | [n] => "a similar " ++ what ++ " exists: '" ++ n ++ "'"
  | _ => "some similar " ++ what ++ "s exist: " ++ ", ".intercalate (names.map fun n => "'" ++ n ++ "'")

/-- An argument the command does not know. -/
def unknownArgument (arg : String) (tips : List String) (usage : String) : Failure :=
  { message := "unexpected argument '" ++ arg ++ "' found", tips := tips, usage := some usage }

/-- A subcommand name that is not one, with similar names. -/
def invalidSubcommand (name : String) (similar : List String) (usage : String) : Failure :=
  { message := "unrecognized subcommand '" ++ name ++ "'",
    tips := [similarTip "subcommand" similar], usage := some usage }

/-- A subcommand name that is not one of `c`. -/
def unrecognizedSubcommand (c : CommandSpec) (name : String) : Failure :=
  { message := "unrecognized subcommand '" ++ name ++ "'", usage := some c.usage,
    tryHelp := c.helpFlag }

/-- A subcommand name given after `--`. -/
def escapedSubcommand (name : String) (usage : String) : Failure :=
  { message := "unexpected argument '" ++ name ++ "' found",
    tips := ["subcommand '" ++ name ++ "' exists; to use it, remove the '--' before it"],
    usage := some usage }

/-- An option given without its value (or with an empty one where that is refused). -/
def valueRequired (a : ArgSpec) : Failure :=
  { message := "a value is required for '" ++ a.display ++ "' but none was supplied" ++
      valuesList "possible values" a.choiceNames }

/-- A value that is not one of the option's choices. -/
def notAChoice (a : ArgSpec) (v : String) : Failure :=
  if v.isEmpty then valueRequired a
  else
    { message := "invalid value '" ++ v ++ "' for '" ++ a.display ++ "'" ++
        valuesList "possible values" a.choiceNames,
      tips := match (similarNames v a.choiceNames).getLast? with
        | some s => [similarTip "value" [s]]
        | none => [] }

/-- A value the option's reader refused, and why. -/
def badValue (a : ArgSpec) (v reason : String) : Failure :=
  { message := "invalid value '" ++ v ++ "' for '" ++ a.display ++ "': " ++ reason }

/-- A value attached to a switch. -/
def valueForSwitch (a : ArgSpec) (v : String) (usage : String) : Failure :=
  { message := "unexpected value '" ++ v ++ "' for '" ++ a.display ++ "' found; no more were expected",
    usage := some usage }

/-- An option given twice. -/
def givenTwice (a : ArgSpec) (usage : String) : Failure :=
  { message := "the argument '" ++ a.display ++ "' cannot be used multiple times",
    usage := some usage }

/-- Required options that were not given. -/
def missingRequired (missing : List ArgSpec) (usage : String) : Failure :=
  { message := "the following required arguments were not provided:" ++
      String.join (missing.map fun a => "\n  " ++ a.display),
    usage := some usage }

/-- No subcommand where one is required. -/
def missingSubcommand (c : CommandSpec) : Failure :=
  { message := "'" ++ c.name ++ "' requires a subcommand but one was not provided" ++
      valuesList "subcommands" c.subcommands,
    usage := some c.usage }

end Failure

end RegionTrack.Cli
