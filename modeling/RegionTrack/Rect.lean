import RegionTrack.Json.Shape
import RegionTrack.Error

/-!
# Rotated rectangles

A tracked region is a rectangle given by its center, its width and height, and an angle in
degrees. The rectangle of all `-1` stands for "no region".

Its JSON form is an object with the members `cx`, `cy`, `width`, `height` and `angle`; a field
that is not finite is written as null. A patch is JSON in the same form, or an array of the
five fields in that order, in which every field may be null or absent: a patch replaces
exactly the fields it gives a number, and is refused as a whole, changing nothing, when any
field is not a number or null.
-/

namespace RegionTrack

/-- A rotated rectangle: center, size, and angle in degrees. -/
structure Rect where
  cx : Float
  cy : Float
  width : Float
  height : Float
  angle : Float
deriving Inhabited

namespace Rect

/-- The rectangle that stands for "no region". -/
def unset : Rect := ⟨-1.0, -1.0, -1.0, -1.0, -1.0⟩

/-- Field-wise float equality (so a NaN field is unequal to everything). -/
def beq (a b : Rect) : Bool :=
  a.cx == b.cx && a.cy == b.cy && a.width == b.width && a.height == b.height && a.angle == b.angle

/-- Whether a rectangle equals the "no region" rectangle. -/
def isUnset (r : Rect) : Bool := r.beq unset

/-- The rectangle spanned by two corners, at an angle. -/
def ofCorners (x1 y1 x2 y2 angle : Float) : Rect :=
  let width := x2 - x1
  let height := y2 - y1
  ⟨x1 + width / 2.0, y1 + height / 2.0, width, height, angle⟩

/-- The left edge before rotation. -/
def left (r : Rect) : Float := r.cx - r.width / 2.0

/-- The top edge before rotation. -/
def top (r : Rect) : Float := r.cy - r.height / 2.0

/-- The right edge before rotation. -/
def right (r : Rect) : Float := r.cx + r.width / 2.0

/-- The bottom edge before rotation. -/
def bottom (r : Rect) : Float := r.cy + r.height / 2.0

/-- The rectangle a fraction of the way from `a` to `b`: each field moves by
`fraction × (b - a)`. -/
def mix (a b : Rect) (fraction : Float) : Rect :=
  let lerp := fun (x y : Float) => x + fraction * (y - x)
  ⟨lerp a.cx b.cx, lerp a.cy b.cy, lerp a.width b.width, lerp a.height b.height,
    lerp a.angle b.angle⟩

/-- The rectangle at time `target` between `left` at `t1` and `right` at `t2`; when the two
times coincide, `left`. -/
def between (t1 t2 : Float) (left right : Rect) (target : Float) : Rect :=
  let span := t2 - t1
  if span == 0.0 then left else mix left right ((target - t1) / span)

/-- The JSON form of a rectangle. -/
def toJson (r : Rect) : Json.Value :=
  .obj [("cx", .ofFloat r.cx), ("cy", .ofFloat r.cy), ("width", .ofFloat r.width),
    ("height", .ofFloat r.height), ("angle", .ofFloat r.angle)]

/-- The names of the fields, in order. -/
def fieldNames : List String := ["cx", "cy", "width", "height", "angle"]

/-- The shape of a patch: five optional numbers. -/
def patchShape : Json.Shape (List Json.Value) :=
  .record "BBoxPatch" (fieldNames.map fun n =>
    { name := n, shape := (Json.Shape.option .float).map fun
        | some x => .number (.float x)
        | none => .null
      optional := true })

/-- A field replaced by a patch value, if the value is a number. -/
def patchField (old : Float) : Json.Value → Float
  | .number n => n.toFloat
  | _ => old

/-- Applies read patch values, in field order. -/
def applyPatch (r : Rect) : List Json.Value → Rect
  | [cx, cy, w, h, a] =>
    ⟨patchField r.cx cx, patchField r.cy cy, patchField r.width w, patchField r.height h,
      patchField r.angle a⟩
  | _ => r

/-- Patches a rectangle with a JSON value. -/
def patch (r : Rect) (v : Json.Value) : Except TrackError Rect :=
  match patchShape.ofValue v with
  | .ok fields => .ok (r.applyPatch fields)
  | .error e => .error (.badPatch e)

/-- Patches a rectangle with JSON text. -/
def patchText (r : Rect) (text : String) : Except TrackError Rect :=
  match Json.Value.parse text with
  | .ok v => r.patch v
  | .error e => .error (.badPatch e)

end Rect

end RegionTrack
