/-!
# Easing of a segment

A curve segment is eased by the mode of the keyframe that ends it: the fraction `t ∈ [0, 1]`
of the way through the segment becomes the fraction of the value change reached. `linear` is
the identity, `constant` holds the start value (0) to the end, and `bezier` follows the cubic
Bézier ease with control points `(0.5, 0)` and `(0.5, 1)`.

The Bézier ease is solved, not looked up: for the abscissa `x` it finds a curve parameter `u`
with `bx(u) = x` by eight Newton steps (each clamped to `[0, 1]`, stopping early on a flat
slope), then by up to eight bisection steps that stop once `bx(u)` is within `1e-9` of `x`,
and returns `by(u)`. The solver is written once over any `EaseScalar`: floats run it, and exact
rationals state what it computes.
-/

namespace RegionTrack

/-- The arithmetic the easing solver runs on. -/
class EaseScalar (α : Type) extends Add α, Sub α, Mul α, Div α, OfScientific α, LT α, LE α where
  /-- The absolute value. -/
  abs : α → α
  decLt : DecidableRel (α := α) (· < ·)
  decLe : DecidableRel (α := α) (· ≤ ·)

instance EaseScalar.decidableLt {α : Type} [EaseScalar α] : DecidableRel (α := α) (· < ·) :=
  EaseScalar.decLt

instance EaseScalar.decidableLe {α : Type} [EaseScalar α] : DecidableRel (α := α) (· ≤ ·) :=
  EaseScalar.decLe

instance : EaseScalar Float where
  abs := Float.abs
  decLt := Float.decLt
  decLe := Float.decLe

namespace Bezier

variable {α : Type} [EaseScalar α]

/-- A coordinate of the cubic Bézier with end points 0 and 1 and inner control coordinates
`a1`, `a2`, at parameter `t`. -/
def sample (a1 a2 t : α) : α :=
  let omt := 1.0 - t
  3.0 * omt * omt * t * a1 + 3.0 * omt * t * t * a2 + t * t * t

/-- The derivative of `sample` in `t`. -/
def slope (a1 a2 t : α) : α :=
  let omt := 1.0 - t
  3.0 * omt * omt * a1 + 6.0 * omt * t * (a2 - a1) + 3.0 * t * t * (1.0 - a2)

/-- Clamps to `[0, 1]`, first from below, then from above; a value unordered with both bounds
is kept. -/
def clampUnit (t : α) : α :=
  let t := if t < 0.0 then 0.0 else t
  if 1.0 < t then 1.0 else t

/-- Newton steps toward `bx(t) = x`, at most `n` of them; a slope below `1e-7` in absolute value
stops them. -/
def newton (x1 x2 x : α) : Nat → α → α
  | 0, t => t
  | n + 1, t =>
    let xt := sample x1 x2 t - x
    let d := slope x1 x2 t
    if EaseScalar.abs d < 1e-7 then t
    else newton x1 x2 x n (clampUnit (t - xt / d))

/-- Bisection steps on `[lo, hi]` from `t`, at most `n` of them; they stop once `bx(t)` is within
`1e-9` of `x`. -/
def bisect (x1 x2 x : α) : Nat → α → α → α → α
  | 0, _, _, t => t
  | n + 1, lo, hi, t =>
    let xt := sample x1 x2 t
    if EaseScalar.abs (xt - x) < 1e-9 then t
    else if xt < x then bisect x1 x2 x n t hi (0.5 * (t + hi))
    else bisect x1 x2 x n lo t (0.5 * (lo + t))

/-- The curve parameter found for the abscissa `x`. -/
def solve (x1 x2 x : α) : α :=
  bisect x1 x2 x 8 0.0 1.0 (newton x1 x2 x 8 x)

/-- The cubic Bézier ease with control points `(x1, y1)` and `(x2, y2)` at abscissa `x`: 0 up
to 0, 1 from 1 on, and `by` at the solved parameter in between. -/
def ease (x x1 y1 x2 y2 : α) : α :=
  if x ≤ 0.0 then 0.0
  else if 1.0 ≤ x then 1.0
  else sample y1 y2 (solve x1 x2 x)

end Bezier

/-- How a segment is eased. -/
inductive Easing where
  | bezier
  | linear
  | constant
deriving Repr, DecidableEq, Inhabited

namespace Easing

/-- The names of the modes, in declaration order. -/
def names : List String := ["bezier", "linear", "constant"]

/-- The name of a mode. -/
def name : Easing → String
  | .bezier => "bezier"
  | .linear => "linear"
  | .constant => "constant"

/-- The mode with a name. -/
def ofName? : String → Option Easing
  | "bezier" => some .bezier
  | "linear" => some .linear
  | "constant" => some .constant
  | _ => none

/-- The eased fraction for the segment fraction `t`, which is first clamped to `[0, 1]`. -/
def apply {α : Type} [EaseScalar α] (e : Easing) (t : α) : α :=
  let t := Bezier.clampUnit t
  match e with
  | .bezier => Bezier.ease t 0.5 0.0 0.5 1.0
  | .linear => t
  | .constant => 0.0

end Easing

end RegionTrack
