import RegionTrack.Rect
import RegionTrack.FrameRate

/-!
# Observations and tracker data formats

An observation is a rectangle seen at a frame. Tracker data comes in two formats:

* `lines`: one JSON record per observation, `{"frame", "cx", "cy", "width", "height", "angle"}`
  (or the six fields as an array; `angle` may be left out), one after another with any blanks
  between them. Records are read one at a time, and reading stops at the first record that
  cannot be read, which ends the data with its error.
* `frames`: one JSON document `{"frames": [...], "last_updated": ...}` whose frames are
  `{"id", "rotation", "bounding_box": {"x1", "y1", "x2", "y2"}}`. The document is read whole:
  either it fails as a whole, or its frames become observations in order, except those with a
  negative corner, which mark frames where the tracker lost the region.

Observations are written as lines: each record compact, fields in the order above, then a
newline; a field that is not finite is written null.
-/

namespace RegionTrack

/-- A rectangle observed at a frame. -/
structure Observation where
  frame : Nat
  rect : Rect
deriving Inhabited

namespace Observation

/-- The float of a read field (read fields of this shape are always numbers). -/
def floatOf : Json.Value → Float
  | .number n => n.toFloat
  | _ => 0.0

/-- The natural of a read field. -/
def natOf : Json.Value → Nat
  | .number (.unsigned n) => n
  | _ => 0

/-- A field holding any number, as a float. -/
def floatField (name : String) (default : Option Json.Value := none) : Json.Field :=
  { name := name, shape := Json.Shape.float.map fun x => .number (.float x), default := default }

/-- A field holding an unsigned 64-bit integer. -/
def frameField (name : String) : Json.Field :=
  { name := name, shape := (Json.Shape.unsigned "u64" maxU64).map .ofNat }

/-- The shape of a record of the `lines` format. -/
def shape : Json.Shape Observation :=
  (Json.Shape.record "BoxRecord"
    [frameField "frame", floatField "cx", floatField "cy", floatField "width",
      floatField "height", floatField "angle" (some (.number (.float 0.0)))]).map fun
    | [f, cx, cy, w, h, a] => ⟨natOf f, ⟨floatOf cx, floatOf cy, floatOf w, floatOf h, floatOf a⟩⟩
    | _ => default

/-- The compact record of an observation, fields in order. -/
def line (o : Observation) : String :=
  let num := fun (x : Float) => (Json.Number.float x).text
  "\x7b\"frame\":" ++ toString o.frame ++ ",\"cx\":" ++ num o.rect.cx ++ ",\"cy\":" ++
    num o.rect.cy ++ ",\"width\":" ++ num o.rect.width ++ ",\"height\":" ++ num o.rect.height ++
    ",\"angle\":" ++ num o.rect.angle ++ "\x7d"

end Observation

/-- Observations written in the `lines` format: a record and a newline each. -/
def writeLines (os : List Observation) : String :=
  String.join (os.map fun o => o.line ++ "\n")

/-- Reads records of the `lines` format until the input ends or a record fails; a failure is
the last item. -/
def readRecords : Nat → Json.Reader (List (Except Json.Error Observation))
  | 0 => pure []
  | fuel + 1 => do
    match ← Json.Reader.skipBlanks with
    | none => return []
    | some _ =>
      let r ← tryCatch (Except.ok <$> Observation.shape.read) (fun e => pure (Except.error e))
      match r with
      | .error e => return [.error e]
      | .ok o => return .ok o :: (← readRecords fuel)

/-- The observations of `lines` data, up to and including the first failure. -/
def readLines (bytes : List UInt8) : List (Except TrackError Observation) :=
  let items := match Json.Reader.run (readRecords (bytes.length + 1)) .stream bytes with
    | .ok items => items
    | .error e => [.error e]
  items.map fun
    | .ok o => .ok o
    | .error e => .error (.badRecord e)

/-- A frame of a tracker document: its id, rotation and corners. -/
structure TrackedFrame where
  id : Nat
  rotation : Float
  x1 : Float
  y1 : Float
  x2 : Float
  y2 : Float

namespace TrackedFrame

/-- The shape of the corner box of a frame. -/
def cornersShape : Json.Shape (List Json.Value) :=
  .record "CornerBox" ([ "x1", "y1", "x2", "y2"].map fun n => Observation.floatField n)

/-- The fields of a frame: its id, a rotation that defaults to `0.0`, and its corner box. -/
def fields : List Json.Field :=
  [Observation.frameField "id", Observation.floatField "rotation" (some (.number (.float 0.0))),
    { name := "bounding_box", shape := cornersShape.map .array }]

/-- The frame of the values of its fields. -/
def ofFields : List Json.Value → TrackedFrame
  | [i, r, .array [x1, y1, x2, y2]] =>
    ⟨Observation.natOf i, Observation.floatOf r, Observation.floatOf x1, Observation.floatOf y1,
      Observation.floatOf x2, Observation.floatOf y2⟩
  | _ => ⟨0, 0.0, 0.0, 0.0, 0.0, 0.0⟩

/-- The shape of a frame. -/
def shape : Json.Shape TrackedFrame :=
  (Json.Shape.record "TrackerFrame" fields).map ofFields

/-- A frame as a JSON array of its six numbers, in field order. -/
def toValue (f : TrackedFrame) : Json.Value :=
  .array [.ofNat f.id, .number (.float f.rotation), .number (.float f.x1),
    .number (.float f.y1), .number (.float f.x2), .number (.float f.y2)]

/-- The frame of a JSON array of six numbers. -/
def ofValue : Json.Value → TrackedFrame
  | .array [i, r, x1, y1, x2, y2] =>
    ⟨Observation.natOf i, Observation.floatOf r, Observation.floatOf x1, Observation.floatOf y1,
      Observation.floatOf x2, Observation.floatOf y2⟩
  | _ => ⟨0, 0.0, 0.0, 0.0, 0.0, 0.0⟩

/-- The observation of a frame, unless a corner is negative. -/
def observation? (f : TrackedFrame) : Option Observation :=
  if f.x1 < 0.0 || f.y1 < 0.0 || f.x2 < 0.0 || f.y2 < 0.0 then none
  else some ⟨f.id, Rect.ofCorners f.x1 f.y1 f.x2 f.y2 f.rotation⟩

end TrackedFrame

/-- The shape of a tracker document: its frames (its time stamp is read and not kept). -/
def documentShape : Json.Shape (List TrackedFrame) :=
  (Json.Shape.record "TrackerDocument"
    [{ name := "frames",
        shape := (Json.Shape.seq TrackedFrame.shape).map fun fs => .array (fs.map (·.toValue)) },
      { name := "last_updated", shape := (Json.Shape.option Json.Shape.any).map fun _ => .null,
        default := some .null }]).map fun
    | [.array frames, _] => frames.map TrackedFrame.ofValue
    | _ => []

/-- The frames of a tracker document, read whole. -/
def readFrames (bytes : List UInt8) : Except Json.Error (List TrackedFrame) :=
  Json.Reader.run (Json.Reader.document documentShape.read) .stream bytes

/-- The observations of a tracker document, or its single failure. -/
def readDocument (bytes : List UInt8) : List (Except TrackError Observation) :=
  match readFrames bytes with
  | .ok frames => frames.filterMap fun f => (f.observation?).map .ok
  | .error e => [.error (.badDocument e)]

/-- The formats of tracker data. -/
inductive DataFormat where
  | lines
  | frames
deriving Repr, DecidableEq, Inhabited

namespace DataFormat

/-- The name of a format. -/
def name : DataFormat → String
  | .lines => "jsonl"
  | .frames => "frames"

/-- The format with a name. -/
def ofName? : String → Option DataFormat
  | "jsonl" => some .lines
  | "frames" => some .frames
  | _ => none

/-- The observations of data in this format, up to and including the first failure. -/
def decode : DataFormat → List UInt8 → List (Except TrackError Observation)
  | .lines, bytes => readLines bytes
  | .frames, bytes => readDocument bytes

/-- The failure of decoding a stream in this format that could not be read at all: the first
record fails, with no position. -/
def streamFailure (fmt : DataFormat) (e : OsError) : TrackError :=
  match fmt with
  | .lines => .badRecord ⟨.stream e, none⟩
  | .frames => .badDocument ⟨.stream e, none⟩

end DataFormat

end RegionTrack
