import RegionTrack.FrameRate

/-!
# Time scales, frame times and time keys

A time scale stretches the time of a clip: frame `n` of a clip at rate `r` and scale `s` is
read at `r.secondsAt n × s` seconds of the recorded data. A scale must be finite and positive;
the type `TimeScale` carries that, so every scale in the library is usable.

Recorded times are keyed by `TimeKey`: the time plus `0.0` (which makes `-0.0` and `0.0` one
key), ordered by the total order on floats. That order ranks the bit patterns: negative values
(sign bit set) below positive ones, each side by magnitude, so a NaN with the sign bit clear
is above `+∞`. Two keys are equal exactly when their bits are.
-/

namespace RegionTrack

/-- Whether a float is a usable time scale: finite and above zero. -/
def TimeScale.Valid (x : Float) : Prop := x.isFinite = true ∧ ¬ x ≤ 0.0

instance TimeScale.decidableValid (x : Float) : Decidable (TimeScale.Valid x) :=
  inferInstanceAs (Decidable (_ ∧ _))

/-- A finite positive time scale. -/
structure TimeScale where
  value : Float
  valid : TimeScale.Valid value

namespace TimeScale

/-- The scale 1. -/
def one : TimeScale := ⟨1.0, by decide⟩

/-- The scale `x`, refused unless it is finite and positive. -/
def make (x : Float) : Except TrackError TimeScale :=
  if h : Valid x then .ok ⟨x, h⟩ else .error (.badTimeScale x)

end TimeScale

/-- The recorded time at which frame `n` of a clip is read, for a rate and a time scale. -/
def frameTime (r : FrameRate) (s : TimeScale) (n : Nat) : Float :=
  r.secondsAt n * s.value

/-- The frame time for a rate `num / den` and a scale that are checked first, the rate before
the scale. -/
def frameTime? (num den n : Nat) (scale : Float) : Except TrackError Float := do
  let r ← FrameRate.make num den
  let s ← TimeScale.make scale
  return frameTime r s n

/-- The frame position, as a float, of a recorded time, for a rate `num / den` and a scale
that are checked first. -/
def framePosition? (num den : Nat) (time scale : Float) : Except TrackError Float := do
  let r ← FrameRate.make num den
  let s ← TimeScale.make scale
  return time / s.value * r.perSecond

/-- A time used as a key: `0.0` added, so that there is one zero. -/
structure TimeKey where
  secs : Float

namespace TimeKey

/-- The key of a time. -/
def ofTime (t : Float) : TimeKey := ⟨t + 0.0⟩

/-- The rank of a float in the total order: a natural below `2^64`. -/
def rank (x : Float) : Nat :=
  let b := x.toBits.toNat
  if b < Nat.pow 2 63 then b + Nat.pow 2 63 else Nat.pow 2 64 - 1 - b

/-- Compares two keys in the total order. -/
def compare (a b : TimeKey) : Ordering := Ord.compare (rank a.secs) (rank b.secs)

end TimeKey

end RegionTrack
