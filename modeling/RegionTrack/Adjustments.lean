import RegionTrack.Curve
import RegionTrack.Rect

/-!
# Adjustments of a tracked rectangle

Five keyframed curves adjust the tracked rectangle at each frame of a clip: two offsets added
to the center, two factors multiplied into the size, and an angle in degrees added to the
rotation. Without keyframes they are the identity: offsets 0, factors 1, rotation 0.
-/

namespace RegionTrack

/-- The adjustment at one frame. -/
structure Adjustment where
  deltaX : Float
  deltaY : Float
  scaleX : Float
  scaleY : Float
  rotation : Float

namespace Adjustment

/-- The adjustment that changes nothing. -/
def identity : Adjustment := ⟨0.0, 0.0, 1.0, 1.0, 0.0⟩

/-- The rectangle adjusted: moved, scaled and turned. -/
def apply (a : Adjustment) (r : Rect) : Rect :=
  ⟨r.cx + a.deltaX, r.cy + a.deltaY, r.width * a.scaleX, r.height * a.scaleY,
    r.angle + a.rotation⟩

end Adjustment

/-- The five adjustment curves. -/
inductive Channel where
  | deltaX
  | deltaY
  | scaleX
  | scaleY
  | rotation
deriving Repr, DecidableEq, Inhabited

namespace Channel

/-- The channels in their fixed order. -/
def all : List Channel := [.deltaX, .deltaY, .scaleX, .scaleY, .rotation]

/-- The name of a channel. -/
def name : Channel → String
  | .deltaX => "delta_x"
  | .deltaY => "delta_y"
  | .scaleX => "scale_x"
  | .scaleY => "scale_y"
  | .rotation => "rotation"

/-- The channel with a name. -/
def ofName? (s : String) : Option Channel := all.find? (·.name = s)

end Channel

/-- The five adjustment curves of a track. -/
structure Adjustments where
  deltaX : Curve
  deltaY : Curve
  scaleX : Curve
  scaleY : Curve
  rotation : Curve
deriving Inhabited

namespace Adjustments

/-- Curves without keyframes whose defaults are the identity. -/
def initial : Adjustments :=
  ⟨.empty 0.0, .empty 0.0, .empty 1.0, .empty 1.0, .empty 0.0⟩

/-- The curve of a channel. -/
def curve (adj : Adjustments) : Channel → Curve
  | .deltaX => adj.deltaX
  | .deltaY => adj.deltaY
  | .scaleX => adj.scaleX
  | .scaleY => adj.scaleY
  | .rotation => adj.rotation

/-- Replaces the curve of a channel. -/
def setCurve (adj : Adjustments) (ch : Channel) (c : Curve) : Adjustments :=
  match ch with
  | .deltaX => { adj with deltaX := c }
  | .deltaY => { adj with deltaY := c }
  | .scaleX => { adj with scaleX := c }
  | .scaleY => { adj with scaleY := c }
  | .rotation => { adj with rotation := c }

/-- The adjustment at frame `f`: each curve evaluated there. -/
def values (adj : Adjustments) (f : Nat) : Adjustment :=
  ⟨adj.deltaX.eval f, adj.deltaY.eval f, adj.scaleX.eval f, adj.scaleY.eval f,
    adj.rotation.eval f⟩

/-- A rectangle adjusted for frame `f`. -/
def apply (adj : Adjustments) (r : Rect) (f : Nat) : Rect := (adj.values f).apply r

end Adjustments

end RegionTrack
