import RegionTrack.Track
import RegionTrack.Json.Write

/-!
# Track metadata

The metadata of a track is a JSON object with its identity, recorded rate, time scale,
visibility, data path and the keyframes of its five adjustment curves; the samples are not part
of it, they live in the tracker data file.

Metadata is applied member by member in a fixed order: `box_id`, `base_fps`, `time_scale`,
`visible`, `data_path`, then the curves. A member that is absent or null keeps the current
value, other members are ignored, and the first member that is refused stops the update with
every member before it applied. A refused shape is an `invalidJson` error naming the member; a
zero rate term or a bad time scale is refused as when set directly. A `base_fps` member may
give either term alone; the other keeps its current value.

## Main definitions

* `Track.toJson`, `Track.render`: the metadata object, and its pretty text
* `Track.patch`, `Track.patchText`: metadata applied to a track
-/

namespace RegionTrack

namespace Keyframe

/-- A keyframe as a JSON object. -/
def toJson (k : Keyframe) : Json.Value :=
  .obj [("frame", .ofNat k.frame), ("value", .ofFloat k.value),
    ("interpolation", .string k.easing.name)]

/-- The shape of a keyframe: frame, value and an easing that defaults to `bezier`. -/
def shape : Json.Shape Keyframe :=
  (Json.Shape.record "CurvePoint"
    [Observation.frameField "frame", Observation.floatField "value",
      { name := "interpolation",
        shape := (Json.Shape.enumeration "Interpolation" Easing.names).map .string,
        default := some (.string "bezier") }]).map fun
    | [f, v, .string e] =>
      ⟨Observation.natOf f, Observation.floatOf v, (Easing.ofName? e).getD .bezier⟩
    | _ => ⟨0, 0.0, .bezier⟩

end Keyframe

/-- The members of track metadata, in the order they are applied. -/
inductive MetadataKey where
  | boxId
  | baseFps
  | timeScale
  | visible
  | dataPath
  | curve (ch : Channel)

namespace MetadataKey

/-- Every member, in the order they are applied. -/
def all : List MetadataKey :=
  [.boxId, .baseFps, .timeScale, .visible, .dataPath] ++ Channel.all.map .curve

/-- The name of a member. -/
def name : MetadataKey → String
  | .boxId => "box_id"
  | .baseFps => "base_fps"
  | .timeScale => "time_scale"
  | .visible => "visible"
  | .dataPath => "data_path"
  | .curve ch => ch.name

end MetadataKey

/-- A rate term of a `base_fps` member: an unsigned 32-bit integer, or null. -/
def rateTermField (name : String) : Json.Field :=
  { name := name, optional := true,
    shape := (Json.Shape.option (Json.Shape.unsigned "u32" maxU32)).map fun
      | some n => .ofNat n
      | none => .null }

/-- The shape of a `base_fps` member: either term may be missing or null. -/
def ratePatchShape : Json.Shape (Option Nat × Option Nat) :=
  (Json.Shape.record "FpsPatch" [rateTermField "num", rateTermField "den"]).map fun
    | [n, d] =>
      let term : Json.Value → Option Nat := fun
        | .number (.unsigned k) => some k
        | _ => none
      (term n, term d)
    | _ => (none, none)

namespace Track

/-- The metadata object. -/
def toJson (t : Track) : Json.Value :=
  .obj ([("box_id", .string t.id),
      ("base_fps", .obj [("num", .ofNat t.rate.num), ("den", .ofNat t.rate.den)]),
      ("time_scale", .ofFloat t.scale.value), ("visible", .bool t.visible),
      ("data_path", match t.dataPath with
        | some p => .string p
        | none => .null)] ++
    Channel.all.map fun ch => (ch.name, .array ((t.adjustments.curve ch).keys.map Keyframe.toJson)))

/-- The metadata as pretty text. -/
def render (t : Track) : String := t.toJson.render

/-- Reads a member of shape `s`, naming the member in the error. -/
def readMember {α : Type} (key : MetadataKey) (s : Json.Shape α) (v : Json.Value) :
    Except TrackError α :=
  match s.ofValue v with
  | .ok x => .ok x
  | .error e => .error (.badMetadata (.badMember key.name e))

/-- Applies one member. -/
def applyMember (t : Track) (key : MetadataKey) (v : Json.Value) : Except TrackError Track :=
  match key with
  | .boxId => do return { t with id := ← readMember key (Json.Shape.string "a string") v }
  | .baseFps => do
    let (num, den) ← readMember key ratePatchShape v
    t.setRate (num.getD t.rate.num) (den.getD t.rate.den)
  | .timeScale => do t.setScale (← readMember key Json.Shape.float v)
  | .visible => do return { t with visible := ← readMember key Json.Shape.bool v }
  | .dataPath => do
    return { t with dataPath := some (← readMember key (Json.Shape.string "path string") v) }
  | .curve ch => do
    let ks ← readMember key (Json.Shape.seq Keyframe.shape) v
    let c := (t.adjustments.curve ch).setKeys ks
    return { t with adjustments := t.adjustments.setCurve ch c }

/-- Applies the members of `members` under `keys`, in order, until one is refused. Gives the
track with the members before it applied, and the refusal if there is one. -/
def applyMembers (t : Track) (members : List (String × Json.Value)) :
    List MetadataKey → Track × Except TrackError Unit
  | [] => (t, .ok ())
  | key :: rest =>
    match members.lookup key.name with
    | none | some .null => applyMembers t members rest
    | some v =>
      match t.applyMember key v with
      | .ok t' => applyMembers t' members rest
      | .error e => (t, .error e)

/-- Applies metadata; a value that is not an object is refused whole. -/
def patch (t : Track) (v : Json.Value) : Track × Except TrackError Unit :=
  match v with
  | .object members => t.applyMembers members MetadataKey.all
  | _ => (t, .error (.badMetadata .notAnObject))

/-- Applies metadata given as text; text that is not JSON is refused whole. -/
def patchText (t : Track) (text : String) : Track × Except TrackError Unit :=
  match Json.Value.parse text with
  | .ok v => t.patch v
  | .error e => (t, .error (.badMetadata (.unreadable e)))

end Track

end RegionTrack
