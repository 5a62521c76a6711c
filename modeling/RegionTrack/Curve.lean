import RegionTrack.Easing
import RegionTrack.Keyed

/-!
# Keyframed curves

A curve is a scalar over frames: a default value, and keyframes at distinct frames kept in
increasing frame order. Adding a keyframe on a frame that has one replaces it.

Evaluated at a frame `f`, a curve without keyframes gives its default; before the first
keyframe it holds the first value, from the last keyframe on it holds the last value, on a
keyframe it gives that keyframe's value, and strictly between consecutive keyframes `a` and
`b` it goes from `a`'s value toward `b`'s by `b`'s easing of the fraction
`(f - a.frame) / (b.frame - a.frame)`.
-/

namespace RegionTrack

/-- A value pinned at a frame, with the easing of the segment that ends at it. -/
structure Keyframe where
  frame : Nat
  value : Float
  easing : Easing := .bezier
deriving Inhabited

/-- A keyframed scalar. -/
structure Curve where
  /-- The value of a curve without keyframes. -/
  default : Float
  /-- Keyframes in strictly increasing frame order. -/
  keys : List Keyframe
  sorted : Keyed.Sorted (·.frame) keys

namespace Curve

/-- A curve with no keyframes. -/
def empty (default : Float) : Curve := ⟨default, [], Keyed.sorted_nil⟩

instance : Inhabited Curve := ⟨empty 0.0⟩

/-- Adds a keyframe, replacing one on the same frame. -/
def add (c : Curve) (k : Keyframe) : Curve :=
  ⟨c.default, Keyed.insert (·.frame) k c.keys, Keyed.sorted_insert k c.sorted⟩

/-- Whether a keyframe sits on frame `f`. -/
def contains (c : Curve) (f : Nat) : Bool := c.keys.any (·.frame = f)

/-- Removes the keyframe on frame `f`; says whether there was one. -/
def remove (c : Curve) (f : Nat) : Bool × Curve :=
  (c.contains f, ⟨c.default, Keyed.erase (·.frame) f c.keys, Keyed.sorted_erase f c.sorted⟩)

/-- Removes every keyframe. -/
def clear (c : Curve) : Curve := empty c.default

/-- Replaces the keyframes by `ks`, added in order (of two on one frame the later wins). -/
def setKeys (c : Curve) (ks : List Keyframe) : Curve :=
  ks.foldl add c.clear

/-- The number of keyframes. -/
def size (c : Curve) : Nat := c.keys.length

/-- The first keyframe at or after frame `f`, else the last keyframe. -/
def closest? (c : Curve) (f : Nat) : Option Keyframe :=
  (c.keys.find? (f ≤ ·.frame)).or c.keys.getLast?

/-- The value strictly between keyframes `a` and `b` at frame `f`. -/
def between (a b : Keyframe) (f : Nat) : Float :=
  let t := Float.ofNat (f - a.frame) / Float.ofNat (b.frame - a.frame)
  a.value + (b.value - a.value) * b.easing.apply t

/-- The value at frame `f ≥ a.frame`, where `a` is a keyframe and `rest` the keyframes after it. -/
def valueFrom (f : Nat) (a : Keyframe) : List Keyframe → Float
  | [] => a.value
  | b :: rest =>
    if f < b.frame then (if a.frame = f then a.value else between a b f)
    else valueFrom f b rest

/-- The value of the curve at frame `f`. -/
def eval (c : Curve) (f : Nat) : Float :=
  match c.keys with
  | [] => c.default
  | k :: rest => if f < k.frame then k.value else valueFrom f k rest

end Curve

end RegionTrack
