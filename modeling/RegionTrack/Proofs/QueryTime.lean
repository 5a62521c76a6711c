import RegionTrack.Proofs.FrameQuery
import RegionTrack.Proofs.FloatRange

/-!
# Query times are checked, non-negative and never NaN

A rate and a time scale can only be built by the checks that refuse a zero term and a scale
that is not finite and positive (`FrameRate.make`, `TimeScale.make`), and a track holds one of
each whatever was done to it, failed calls included. So the checked frame time at the track's
own rate and scale, which runs those checks again, always succeeds and gives the query time a
frame reads, and the base rectangle never takes its failure branch: a frame finds no rectangle
exactly when the track has no samples.

The query time `f × (den / num) × scale` is computed in floats. With the terms of the rate in
the 32-bit range of recorded data, `den / num` is a normal float, neither zero nor infinite
(`Unpacked.ratio_isNormal`), so no product in it is `0 × ∞`: the query time has the sign `+`
and is not NaN, for every frame.

## Main results

* `Track.frameTimeAt_self`: the checked frame time at the track's own scale is the query time
* `Track.sign?_queryTime`: the query time of every frame is `+0`, positive or `+∞`
* `Track.queryTime_checked_nonneg`: the whole contract
-/

namespace RegionTrack

open Float.Model Float.Model.UnpackedFloat

/-- A rate passes the check it was built by. -/
theorem FrameRate.make_self (r : FrameRate) : FrameRate.make r.num r.den = .ok r := by
  rw [FrameRate.make, dif_neg (Nat.pos_iff_ne_zero.1 r.den_pos),
    dif_neg (Nat.pos_iff_ne_zero.1 r.num_pos)]

/-- A time scale passes the check it was built by. -/
theorem TimeScale.make_self (s : TimeScale) : TimeScale.make s.value = .ok s := by
  rw [TimeScale.make, dif_pos s.valid]

theorem TimeScale.isPosFinite (s : TimeScale) : Unpacked.IsPosFinite s.value.toModel.unpack :=
  Unpacked.isPosFinite_of_valid s.valid.1 s.valid.2

namespace Track

/-- The checked frame time at the track's own rate and scale is the query time. -/
theorem frameTimeAt_self (t : Track) (f : Nat) :
    t.frameTimeAt f t.scale.value = .ok (t.queryTime f) := by
  rw [frameTimeAt, frameTime?, FrameRate.make_self, TimeScale.make_self]
  rfl

/-- With the rate's terms below `2 ^ 53`, the query time of every frame is `+0`, a positive
float or `+∞`: the frame is `+0`, positive or `+∞`, the frame duration is a normal float and
the scale a positive finite one, and each product keeps the sign. -/
theorem sign?_queryTime (t : Track) (f : Nat) (hnum : t.rate.num < 2 ^ 53)
    (hden : t.rate.den < 2 ^ 53) :
    Unpacked.sign? (t.queryTime f).toModel.unpack = some .positive := by
  have hratio := Unpacked.ratio_isNormal t.rate.den_pos hden t.rate.num_pos hnum
  have hframe : Unpacked.sign? (Float.ofNat f * (Float.ofNat t.rate.den /
      Float.ofNat t.rate.num)).toModel.unpack = some .positive :=
    Unpacked.sign?_float_mul (Unpacked.sign?_float_ofNat f) hratio.isPosFinite
  rw [queryTime_eq]
  exact Unpacked.sign?_float_mul hframe t.scale.isPosFinite

theorem baseRect?_eq_none_iff (t : Track) (f : Nat) :
    t.baseRect? f = none ↔ t.samples.isEmpty = true := by
  rw [baseRect?, Bracket.resolve_eq_none_iff, Timeline.bracket_eq_empty_iff,
    Timeline.toList_eq_nil_iff]

/-- **Query times are checked, non-negative and never NaN.** Every track's rate and time scale
pass the checks they are built by, so the checked frame time at the track's own scale succeeds
with the query time, the base rectangle never takes its failure branch, and a frame finds no
rectangle exactly when the track has no samples. With the rate's terms in the 32-bit range of
recorded data, the query time of every frame is at least `0.0` and not NaN. -/
theorem queryTime_checked_nonneg (t : Track) (f : Nat) (hnum : t.rate.num ≤ maxU32)
    (hden : t.rate.den ≤ maxU32) :
    FrameRate.make t.rate.num t.rate.den = .ok t.rate ∧
      TimeScale.make t.scale.value = .ok t.scale ∧
      t.frameTimeAt f t.scale.value = .ok (t.queryTime f) ∧
      0.0 ≤ t.queryTime f ∧ (t.queryTime f).isNaN = false ∧
      t.baseRect? f =
        (match t.frameTimeAt f t.scale.value with
          | .ok target => (t.samples.bracket target).resolve target
          | .error _ => none) ∧
      (t.baseRect? f = none ↔ t.samples.isEmpty = true) := by
  have hmax : maxU32 < 2 ^ 53 := by decide
  have hsign := sign?_queryTime t f (by omega) (by omega)
  refine ⟨FrameRate.make_self t.rate, TimeScale.make_self t.scale, frameTimeAt_self t f,
    Unpacked.zero_le_of_sign? hsign, Unpacked.isNaN_of_sign? hsign, ?_,
    baseRect?_eq_none_iff t f⟩
  rw [frameTimeAt_self]
  rfl

/-- The contract at a track recorded at `30000 / 1001` frames per second and played at half
speed, with one sample, at its frame 7. -/
theorem queryTime_checked_nonneg_sampled :
    let t : Track := ({ rate := ⟨30000, 1001, by decide, by decide⟩, scale := ⟨0.5, by decide⟩ } :
      Track).addRect 12 ⟨0.5, 0.5, 0.25, 0.25, 0.0⟩
    t.rate.num ≤ maxU32 ∧ t.rate.den ≤ maxU32 ∧
      (FrameRate.make t.rate.num t.rate.den = .ok t.rate ∧
        TimeScale.make t.scale.value = .ok t.scale ∧
        t.frameTimeAt 7 t.scale.value = .ok (t.queryTime 7) ∧
        0.0 ≤ t.queryTime 7 ∧ (t.queryTime 7).isNaN = false ∧
        t.baseRect? 7 =
          (match t.frameTimeAt 7 t.scale.value with
            | .ok target => (t.samples.bracket target).resolve target
            | .error _ => none) ∧
        (t.baseRect? 7 = none ↔ t.samples.isEmpty = true)) :=
  ⟨by decide, by decide, queryTime_checked_nonneg _ 7 (by decide) (by decide)⟩

end Track

end RegionTrack
