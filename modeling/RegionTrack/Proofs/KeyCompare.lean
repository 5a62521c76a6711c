import RegionTrack.Proofs.TimeKey
import RegionTrack.Proofs.TimeOrder

/-!
# Comparing time keys

Keys are compared by the ranks of their floats (`TimeKey.compare`). This module shows that the
comparison is a total order whose equality is equality of keys, that on the keys of times that are
not NaN it is the numeric order of the times (so `-0.0` and `0.0` compare equal), and that a key
holding NaN is above every other key, `+∞` included.

Lean's floats have a single NaN, the canonical pattern with the sign bit clear
(`FloatBits.toBits_of_isNaN`): the total order puts it above the pattern of `+∞`, whose rank bounds
every float that is not NaN (`FloatBits.rank_le_of_not_isNaN`).

## Main results

* `TimeKey.compare_eq_eq_iff`: keys compare equal exactly when they are equal
* the `Std.TransCmp` and `Std.LawfulEqCmp` instances of `TimeKey.compare`
* `TimeKey.compare_ofTime_eq_lt_iff`: on the keys of times, the order is that of the times
* `TimeKey.compare_total_numeric`: the whole contract of the comparison
-/

namespace RegionTrack

open Float.Model Float.Model.UnpackedFloat

namespace FloatBits

/-- A float that is not NaN lies below the exponent field of all ones, where only `±∞` sit. -/
theorem magnitude_le_infinity {u : UnpackedFloat} (hc : Canonical u) (hn : u.isNaN = false) :
    magnitude u ≤ 2047 * 2 ^ 52 := by
  cases u with
  | zero s => simp [magnitude]
  | infinity s => simp [magnitude]
  | finite s m e h =>
    have := hc.2.2.2
    simp only [magnitude]
    omega
  | notANumber => simp [UnpackedFloat.isNaN] at hn

/-- Every NaN is the canonical NaN: exponent field all ones, the top mantissa bit, sign bit
clear. A valid pattern is the packing of its unpacked form, here the packing of NaN. -/
theorem toBits_of_isNaN {x : Float} (h : x.isNaN = true) : x.toBits.toNat = 0x7FF8000000000000 := by
  rcases x with ⟨⟨bits, hv⟩⟩
  have hu : unpack Format.binary64 bits.toBitVec = .notANumber := by
    revert h
    show (unpack Format.binary64 bits.toBitVec).isNaN = true → _
    generalize unpack Format.binary64 bits.toBitVec = u
    cases u <;> simp [UnpackedFloat.isNaN]
  have hbits : bits.toBitVec = packedNaN Format.binary64 := by
    rw [← pack_unpack hv, hu]
    rfl
  show bits.toBitVec.toNat = _
  rw [hbits]
  decide

/-- The rank of NaN: the largest of any float. -/
theorem rank_of_isNaN {x : Float} (h : x.isNaN = true) :
    TimeKey.rank x = 2 ^ 63 + 0x7FF8000000000000 := by
  simp only [TimeKey.rank, Nat.pow_eq, toBits_of_isNaN h]
  decide

/-- A float that is not NaN ranks at most as `+∞` does. -/
theorem rank_le_of_not_isNaN {x : Float} (h : x.isNaN = false) :
    TimeKey.rank x ≤ 2 ^ 63 + 2047 * 2 ^ 52 := by
  have hmag := magnitude_le_infinity (canonical_unpack h) h
  rw [rank_eq_orderRank h, orderRank]
  split <;> omega

end FloatBits

namespace TimeKey

variable {a b : TimeKey}

theorem compare_eq_eq_iff : a.compare b = .eq ↔ a = b := by
  rw [TimeKey.compare, Nat.compare_eq_eq, rank_eq_iff]
  constructor
  · intro h
    cases a
    cases b
    cases h
    rfl
  · rintro rfl
    rfl

theorem compare_eq_lt_iff : a.compare b = .lt ↔ rank a.secs < rank b.secs := Nat.compare_eq_lt

theorem isLE_compare_iff : (a.compare b).isLE ↔ rank a.secs ≤ rank b.secs := Nat.isLE_compare

instance : Std.TransCmp TimeKey.compare where
  eq_swap := (Nat.compare_swap _ _).symm
  isLE_trans hab hbc :=
    isLE_compare_iff.2 (Nat.le_trans (isLE_compare_iff.1 hab) (isLE_compare_iff.1 hbc))

instance : Std.LawfulEqCmp TimeKey.compare where
  compare_self := compare_eq_eq_iff.2 rfl
  eq_of_compare := compare_eq_eq_iff.1

/-- Of any two keys one is at most the other. -/
theorem isLE_compare_total (a b : TimeKey) : (a.compare b).isLE ∨ (b.compare a).isLE := by
  rcases Nat.le_total (rank a.secs) (rank b.secs) with h | h
  · exact .inl (isLE_compare_iff.2 h)
  · exact .inr (isLE_compare_iff.2 h)

variable {s t : Float}

/-- On the keys of times that are not NaN, the order of keys is the order of the times. -/
theorem compare_ofTime_eq_lt_iff (hs : s.isNaN = false) (ht : t.isNaN = false) :
    (ofTime s).compare (ofTime t) = .lt ↔ s < t := by
  rw [compare_eq_lt_iff, show rank (ofTime t).secs = Timeline.rankOf t from rfl,
    rank_lt_rankOf_iff s t hs ht,
    FloatBits.lt_iff_compare, FloatBits.lt_iff_compare, compare_ofTime_left]

/-- On the keys of times that are not NaN, keys are equal exactly when the times are equal as
numbers. -/
theorem compare_ofTime_eq_eq_iff (hs : s.isNaN = false) (ht : t.isNaN = false) :
    (ofTime s).compare (ofTime t) = .eq ↔ (s == t) = true := by
  rw [compare_eq_eq_iff, ← ofTime_eq_iff_beq hs ht]
  constructor
  · intro h
    rw [h]
  · intro h
    rw [ofTime, ofTime, show s + 0.0 = t + 0.0 from h]

theorem compare_ofTime_eq_gt_iff (hs : s.isNaN = false) (ht : t.isNaN = false) :
    (ofTime s).compare (ofTime t) = .gt ↔ t < s := by
  rw [Std.OrientedCmp.gt_iff_lt]
  exact compare_ofTime_eq_lt_iff ht hs

/-- A key holding NaN is above every key that does not. -/
theorem compare_of_isNaN {k j : TimeKey} (hk : k.secs.isNaN = true) (hj : j.secs.isNaN = false) :
    j.compare k = .lt := by
  have hnan := FloatBits.rank_of_isNaN hk
  have hle := FloatBits.rank_le_of_not_isNaN hj
  rw [compare_eq_lt_iff, hnan]
  omega

/-- **Comparing time keys.** The comparison of keys is a total order (reflexive, antisymmetric,
transitive and total) that says `eq` exactly of equal keys. On the keys of times that are not NaN
it says `lt`, `eq` or `gt` exactly as the first time is below, equal to (with `-0.0 = 0.0`) or
above the second. A key holding NaN, whose sign bit is clear, is above every other key, `+∞`
included. -/
theorem compare_total_numeric :
    (∀ a : TimeKey, a.compare a = .eq) ∧
    (∀ a b : TimeKey, (a.compare b).isLE → (b.compare a).isLE → a = b) ∧
    (∀ a b c : TimeKey, (a.compare b).isLE → (b.compare c).isLE → (a.compare c).isLE) ∧
    (∀ a b : TimeKey, (a.compare b).isLE ∨ (b.compare a).isLE) ∧
    (∀ a b : TimeKey, a.compare b = .eq ↔ a = b) ∧
    (∀ s t : Float, s.isNaN = false → t.isNaN = false →
      ((ofTime s).compare (ofTime t) = .lt ↔ s < t) ∧
      ((ofTime s).compare (ofTime t) = .eq ↔ (s == t) = true) ∧
      ((ofTime s).compare (ofTime t) = .gt ↔ t < s)) ∧
    (∀ k j : TimeKey, k.secs.isNaN = true → j.secs.isNaN = false →
      j.compare k = .lt ∧ k.compare j = .gt) := by
  refine ⟨fun _ => Std.ReflCmp.compare_self, fun _ _ hab hba => ?antisymm,
    fun _ _ _ => Std.TransCmp.isLE_trans, isLE_compare_total, fun _ _ => compare_eq_eq_iff,
    fun s t hs ht => ⟨compare_ofTime_eq_lt_iff hs ht, compare_ofTime_eq_eq_iff hs ht,
      compare_ofTime_eq_gt_iff hs ht⟩, fun k j hk hj => ?nan⟩
  case antisymm => exact Std.LawfulEqCmp.eq_of_compare (Std.OrientedCmp.isLE_antisymm hab hba)
  case nan =>
    have hlt := compare_of_isNaN hk hj
    exact ⟨hlt, Std.OrientedCmp.gt_of_lt hlt⟩

end TimeKey

end RegionTrack
