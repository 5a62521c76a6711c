import RegionTrack.Json.Error

/-!
# Errors of the tracking library

Every failure of the library is one constructor of `TrackError`, named for its cause. The text
a user sees is made in one place, `TrackError.message`: a prefix given by the error's kind, then
the cause in words. Kinds group causes the way callers tell them apart: a refused argument or
state, unreadable JSON, a missing file, and undecodable tracker data.
-/

namespace RegionTrack

/-- Why text is not a decimal integer of the wanted range. -/
inductive IntegerError where
  /-- The text is empty. -/
  | empty
  /-- A character that is not a digit was met first. -/
  | invalidDigit
  /-- The value grew past the range first. -/
  | overflow
deriving Repr, DecidableEq

/-- The text of an integer error. -/
def IntegerError.message : IntegerError → String
  | .empty => "cannot parse integer from empty string"
  | .invalidDigit => "invalid digit found in string"
  | .overflow => "number too large to fit in target type"

/-- Floats in messages: the shortest digits, always positional, whole values without a point,
ties away from the value's floor. -/
def messageFormat : Decimal.Format where
  positional _ := true
  pointZero := false
  exponentPlus := false
  tie := .up
  nan := "NaN"
  infinity := "inf"

/-- Why track metadata was refused. -/
inductive MetadataError where
  /-- The text is not JSON. -/
  | unreadable (e : Json.Error)
  /-- The JSON is not an object. -/
  | notAnObject
  /-- The member `key` has the wrong shape. -/
  | badMember (key : String) (e : Json.Error)

/-- The kinds of errors. -/
inductive ErrorKind where
  | invalidJson
  | invalidState
  | io
  | decode
  | serialization
  | other
deriving Repr, DecidableEq

/-- A failure of the tracking library. -/
inductive TrackError where
  /-- A frame rate with denominator 0. -/
  | zeroDenominator
  /-- A frame rate with numerator 0. -/
  | zeroNumerator
  /-- A term of a frame rate text is not an unsigned 32-bit integer. -/
  | badRateTerm (numerator : Bool) (text : String) (cause : IntegerError)
  /-- A time scale that is not finite or not positive. -/
  | badTimeScale (value : Float)
  /-- A frame range that ends before it starts. -/
  | reversedRange
  /-- Track metadata that was refused. -/
  | badMetadata (cause : MetadataError)
  /-- A box patch that was refused. -/
  | badPatch (e : Json.Error)
  /-- A file that could not be opened. -/
  | unopenable (path : String) (cause : OsError)
  /-- A record of JSON lines that could not be decoded. -/
  | badRecord (e : Json.Error)
  /-- A tracker document that could not be decoded. -/
  | badDocument (e : Json.Error)

/-- The kind of an error. -/
def TrackError.kind : TrackError → ErrorKind
  | .zeroDenominator | .zeroNumerator | .badRateTerm .. | .badTimeScale _ | .reversedRange =>
    .invalidState
  | .badMetadata _ | .badPatch _ => .invalidJson
  | .unopenable .. => .io
  | .badRecord _ | .badDocument _ => .decode

/-- The cause in words, without the kind's prefix. -/
def TrackError.detail : TrackError → String
  | .zeroDenominator => "Fps den must be > 0"
  | .zeroNumerator => "Fps num must be > 0"
  | .badRateTerm numerator text cause =>
    "bad fps " ++ (if numerator then "numerator" else "denominator") ++ " '" ++ text ++ "': " ++
      cause.message
  | .badTimeScale x => "time scale must be finite and > 0, got " ++ messageFormat.render x
  | .reversedRange => "FrameRange start must be <= end"
  | .badMetadata (.unreadable e) => "track metadata: " ++ e.message
  | .badMetadata .notAnObject => "track metadata must be a JSON object"
  | .badMetadata (.badMember key e) => key ++ ": " ++ e.message
  | .badPatch e => "bbox: " ++ e.message
  | .unopenable _ cause => cause.message
  | .badRecord e => "jsonl record at line " ++ toString e.line ++ ": " ++ e.message
  | .badDocument e => "tracker document: " ++ e.message

/-- The text of an error. -/
def TrackError.message (e : TrackError) : String :=
  match e with
  | .unopenable path _ => "io error on '" ++ path ++ "': " ++ e.detail
  | _ =>
    match e.kind with
    | .invalidJson => "invalid json: " ++ e.detail
    | .invalidState => "invalid state: " ++ e.detail
    | .decode => "decode error: " ++ e.detail
    | .serialization => "serialization error: " ++ e.detail
    | .io | .other => e.detail

end RegionTrack
