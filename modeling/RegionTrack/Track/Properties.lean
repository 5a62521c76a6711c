import RegionTrack.Track.Metadata

/-!
# Property sheets

A property sheet describes a track at one frame for a generic editor: one property per key,
each with a display name, its current value, a kind, a description, a range, whether it is
read-only, and for a curve whether a keyframe sits on the frame, the easing of the closest
keyframe, and all keyframes. A flag property lists its two choices.

The corners `x1`, `y1`, `x2`, `y2` are those of the rectangle at the frame, and `-1` when that
rectangle is `Rect.unset` (as it is for a track without samples). The curve properties give
the curve's value at the frame.

## Main definitions

* `Property`, `Track.properties`, `Track.propertiesJson`: the sheet at a frame
* `Track.rectValues`: the rectangle and adjustment values at a frame, by short names
-/

namespace RegionTrack

/-- The kinds of property values. -/
inductive PropertyKind where
  | float
  | bool
  | string
deriving Repr, DecidableEq

/-- The name of a kind. -/
def PropertyKind.name : PropertyKind → String
  | .float => "float"
  | .bool => "bool"
  | .string => "string"

/-- A value an editor offers for a property. -/
structure Choice where
  name : String
  value : Json.Value
  selected : Bool

/-- A property as seen at one frame. -/
structure Property where
  name : String
  value : Json.Value
  kind : PropertyKind
  description : String
  min : Float
  max : Float
  readonly : Bool
  /-- A keyframe sits on the frame. -/
  keyframe : Bool := false
  /-- The easing of the closest keyframe, for a curve with keyframes. -/
  easing : Option Easing := none
  keyframes : List Keyframe := []
  choices : List Choice := []

namespace Property

/-- A choice as a JSON object. -/
def choiceJson (c : Choice) : Json.Value :=
  .obj [("name", .string c.name), ("value", c.value), ("selected", .bool c.selected)]

/-- A property as a JSON object. -/
def toJson (p : Property) : Json.Value :=
  .obj [("name", .string p.name), ("value", p.value), ("type", .string p.kind.name),
    ("description", .string p.description), ("min", .ofFloat p.min), ("max", .ofFloat p.max),
    ("readonly", .bool p.readonly), ("keyframe", .bool p.keyframe),
    ("interpolation", match p.easing with
      | some e => .string e.name
      | none => .null),
    ("keyframe_points", .array (p.keyframes.map Keyframe.toJson)),
    ("choices", .array (p.choices.map choiceJson))]

/-- The property of an adjustment curve at frame `f`. -/
def ofCurve (name description : String) (c : Curve) (min max : Float) (f : Nat) : Property :=
  { name := name, value := .ofFloat (c.eval f), kind := .float, description := description,
    min := min, max := max, readonly := false, keyframe := c.contains f,
    easing := (c.closest? f).map (·.easing), keyframes := c.keys }

/-- The read-only property of a corner coordinate. -/
def corner (name description : String) (value : Float) : Property :=
  { name := name, value := .ofFloat value, kind := .float, description := description,
    min := 0.0, max := 1.0, readonly := true }

end Property

/-- The display name, description and range of each adjustment curve. -/
def Channel.describe : Channel → String × String × Float × Float
  | .deltaX => ("Displacement X-axis", "Horizontal offset added to the box center", -1.0, 1.0)
  | .deltaY => ("Displacement Y-axis", "Vertical offset added to the box center", -1.0, 1.0)
  | .scaleX => ("Scale (Width)", "Multiplier applied to the box width", 0.0, 10.0)
  | .scaleY => ("Scale (Height)", "Multiplier applied to the box height", 0.0, 10.0)
  | .rotation => ("Rotation", "Degrees added to the box angle, clockwise", 0.0, 360.0)

namespace Track

/-- The property sheet at frame `f`, by key. -/
def properties (t : Track) (f : Nat) : List (String × Property) :=
  let r := t.rectAt f
  let edge := fun (x : Float) => if r.isUnset then -1.0 else x
  let visible : Property :=
    { name := "Visible", value := .bool t.visible, kind := .bool,
      description := "Whether the tracked region is shown", min := 0.0, max := 1.0,
      readonly := false,
      choices := [⟨"Yes", .bool true, t.visible⟩, ⟨"No", .bool false, !t.visible⟩] }
  let boxId : Property :=
    { name := "Box ID", value := .string t.id, kind := .string,
      description := "Identifier of the tracked region", min := -1.0, max := -1.0,
      readonly := true }
  [("box_id", boxId), ("visible", visible),
    ("x1", .corner "X1" "Left edge" (edge r.left)),
    ("y1", .corner "Y1" "Top edge" (edge r.top)),
    ("x2", .corner "X2" "Right edge" (edge r.right)),
    ("y2", .corner "Y2" "Bottom edge" (edge r.bottom))] ++
  Channel.all.map fun ch =>
    let (name, description, lo, hi) := ch.describe
    (ch.name, Property.ofCurve name description (t.adjustments.curve ch) lo hi f)

/-- The property sheet at frame `f` as a JSON object. -/
def propertiesJson (t : Track) (f : Nat) : Json.Value :=
  .obj ((t.properties f).map fun (k, p) => (k, p.toJson))

/-- The rectangle at frame `f` and the adjustment values there, by short name. -/
def rectValues (t : Track) (f : Nat) : List (String × Float) :=
  let r := t.rectAt f
  let a := t.adjustments.values f
  [("cx", r.cx), ("cy", r.cy), ("w", r.width), ("h", r.height), ("ang", r.angle),
    ("sx", a.scaleX), ("sy", a.scaleY), ("dx", a.deltaX), ("dy", a.deltaY), ("r", a.rotation)]

end Track

end RegionTrack
