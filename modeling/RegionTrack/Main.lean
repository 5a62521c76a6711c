import RegionTrack.Cli.Run

/-!
# The tracker tool

Runs the tool on the process's arguments against the file system, prints what it prints, and
exits with its status.
-/

/-- The error number a failure of the runtime carries, if it carries one. -/
def errorNumber? : IO.Error → Option UInt32
  | .alreadyExists _ c _ | .otherError c _ | .resourceBusy c _ | .resourceVanished c _
  | .unsupportedOperation c _ | .hardwareFault c _ | .unsatisfiedConstraints c _
  | .illegalOperation c _ | .protocolError c _ | .timeExpired c _ | .interrupted _ c _
  | .noFileOrDirectory _ c _ | .invalidArgument _ c _ | .permissionDenied _ c _
  | .resourceExhausted _ c _ | .inappropriateType _ c _ | .noSuchThing _ c _ => some c
  | _ => none

/-- What a failure with error number `code` (which the runtime may hand over negated) says of a
read: the errors of reading an opened file, or a refusal to open it. -/
def refusalOf (code : UInt32) : RegionTrack.FileRead :=
  let n := (if code < 0x80000000 then code else 0 - code).toNat
  match RegionTrack.OsError.ofCode? n with
  | some e => if e = .isADirectory || e = .inputOutput then .unreadable e else .unopenable e
  | none => .unopenable .notFound

/-- What reading a file gave: its bytes, or the system's refusal by its error number. -/
def readFileBytes (path : String) : IO RegionTrack.FileRead := do
  try
    return .content (← IO.FS.readBinFile path).toList
  catch e =>
    return refusalOf ((errorNumber? e).getD 2)

/-- The tool's entry point. -/
def main (args : List String) : IO UInt32 := do
  let outcome ← RegionTrack.Cli.run readFileBytes args
  IO.print outcome.stdout
  IO.eprint outcome.stderr
  return outcome.status.toUInt32
