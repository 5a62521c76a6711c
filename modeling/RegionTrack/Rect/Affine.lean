import RegionTrack.Rect

/-!
# The placement of a rectangle as an affine map

A rectangle places the unit square: the map moves the square's center to the origin, scales it
to the rectangle's size, rotates it by the angle, and moves it to the rectangle's center. The
corners of the rectangle are the images of the unit square's corners, in the order top left,
top right, bottom right, bottom left.

An affine map `[a, b, c, d, e, f]` sends `(x, y)` to `(a·x + c·y + e, b·x + d·y + f)`; maps are
composed left to right as matrices, each product computed in that fixed order of operations.
-/

namespace RegionTrack

/-- An affine map of the plane: `(x, y) ↦ (a·x + c·y + e, b·x + d·y + f)`. -/
structure Affine where
  a : Float
  b : Float
  c : Float
  d : Float
  e : Float
  f : Float

namespace Affine

/-- The map that first applies `q`, then `p`. -/
def comp (p q : Affine) : Affine :=
  ⟨p.a * q.a + p.c * q.b, p.b * q.a + p.d * q.b, p.a * q.c + p.c * q.d, p.b * q.c + p.d * q.d,
    p.a * q.e + p.c * q.f + p.e, p.b * q.e + p.d * q.f + p.f⟩

/-- The image of a point. -/
def apply (p : Affine) (x y : Float) : Float × Float :=
  (p.a * x + p.c * y + p.e, p.b * x + p.d * y + p.f)

/-- A translation. -/
def translate (x y : Float) : Affine := ⟨1.0, 0.0, 0.0, 1.0, x, y⟩

/-- A rotation by `theta` radians. -/
def rotate (theta : Float) : Affine :=
  let s := Float.sin theta
  let c := Float.cos theta
  ⟨c, s, -s, c, 0.0, 0.0⟩

/-- A scaling along the axes. -/
def scale (sx sy : Float) : Affine := ⟨sx, 0.0, 0.0, sy, 0.0, 0.0⟩

/-- The coefficients in order. -/
def coefficients (p : Affine) : List Float := [p.a, p.b, p.c, p.d, p.e, p.f]

end Affine

/-- Radians per degree. -/
def radiansPerDegree : Float := 3.141592653589793 / 180.0

namespace Rect

/-- The map that places the unit square onto the rectangle. -/
def placement (r : Rect) : Affine :=
  ((Affine.translate r.cx r.cy).comp (Affine.rotate (r.angle * radiansPerDegree))).comp
    (Affine.scale r.width r.height) |>.comp (Affine.translate (-0.5) (-0.5))

/-- The corners: top left, top right, bottom right, bottom left. -/
def corners (r : Rect) : List (Float × Float) :=
  let p := r.placement
  [p.apply 0.0 0.0, p.apply 1.0 0.0, p.apply 1.0 1.0, p.apply 0.0 1.0]

end Rect

end RegionTrack
