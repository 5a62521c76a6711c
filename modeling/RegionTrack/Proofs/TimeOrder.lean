import RegionTrack.Proofs.FloatRange

/-!
# The order of time keys is the order of times

Keys are ranked by the total order on floats: the rank of a bit pattern puts the patterns with
the sign bit set below the others, each side ordered by magnitude. This module shows that away
from NaN the rank order is the IEEE order `<` of the floats, except that the total order puts
`-0.0` just below `+0.0` where IEEE makes them equal (`FloatBits.rank_lt_iff_lt`). No key is
`-0.0`, since a key is a time plus `0.0`, so between keys, and between a key and the key of a
time, the rank order is the numeric order (`TimeKey.rank_lt_rankOf_iff`,
`TimeKey.rankOf_lt_rank_iff`).

The proof reads a bit pattern the way the IEEE model unpacks it: below the sign bit, the
exponent field and the mantissa field form one number, the magnitude, that the unpacked float
determines (`FloatBits.magnitude`). Comparing exponents first and mantissas second is comparing
magnitudes (`FloatBits.compare_then_eq`).

## Main definitions

* `FloatBits.magnitude`: the bits of an unpacked float below its sign bit
* `FloatBits.Canonical`: the unpacked floats that come from a bit pattern
* `FloatBits.orderRank`: the rank of an unpacked float in the total order

## Main results

* `FloatBits.unpack_fields`: what unpacking a bit pattern gives, in magnitude and sign
* `FloatBits.compare_eq_lt_iff`: the IEEE order of canonical unpacked floats
* `FloatBits.rank_lt_iff_lt`: the total order is the IEEE order, zeros apart
* `TimeKey.rank_lt_rankOf_iff`, `TimeKey.rankOf_lt_rank_iff`: a key below or above the key of a
  time is a float below or above the time
-/

namespace RegionTrack

open Float.Model Float.Model.UnpackedFloat

namespace FloatBits

/-- The bits below the sign bit of the pattern an unpacked float packs to: the exponent field
times `2 ^ 52` plus the mantissa field. -/
def magnitude : UnpackedFloat → Nat
  | .zero _ => 0
  | .finite _ m e _ => (e + 1074).toNat * 2 ^ 52 + m
  | .infinity _ => 2047 * 2 ^ 52
  | .notANumber => 0

/-- A finite unpacked float as unpacking produces it: a subnormal mantissa at the least exponent
or a normal mantissa of 53 bits, below the magnitude of infinity. -/
def Canonical : UnpackedFloat → Prop
  | .finite _ m e _ => -1074 ≤ e ∧ m < 2 ^ 53 ∧ (-1074 < e → 2 ^ 52 ≤ m) ∧
      (e + 1074).toNat * 2 ^ 52 + m < 2047 * 2 ^ 52
  | _ => True

/-- The rank of an unpacked float in the total order: negative values count down from just
below `2 ^ 63`, the others up from `2 ^ 63`. -/
def orderRank (u : UnpackedFloat) : Nat :=
  match Unpacked.sign? u with
  | some .negative => 2 ^ 63 - 1 - magnitude u
  | _ => 2 ^ 63 + magnitude u

theorem magnitude_lt {u : UnpackedFloat} (hc : Canonical u) : magnitude u < 2 ^ 63 := by
  cases u with
  | finite s m e h =>
    have := hc.2.2.2
    simp only [magnitude]
    omega
  | _ => simp [magnitude]

/-! ## Unpacking a bit pattern -/

theorem toNat_unpackExponent (b : BitVec 64) :
    (@unpackExponent Format.binary64 b).toNat = b.toNat / 2 ^ 52 % 2 ^ 11 := by
  simp [unpackExponent, Format.binary64, Nat.shiftRight_eq_div_pow]

theorem toNat_unpackMantissa (b : BitVec 64) :
    (@unpackMantissa Format.binary64 b).toNat = b.toNat % 2 ^ 52 := by
  simp [unpackMantissa, Format.binary64]

theorem ofBitVec_unpackSign (b : BitVec 64) :
    Sign.ofBitVec (@unpackSign Format.binary64 b) =
      if b.toNat < 2 ^ 63 then .positive else .negative := by
  have hlt := b.isLt
  have hs : (@unpackSign Format.binary64 b).toNat = b.toNat / 2 ^ 63 := by
    simp [unpackSign, Format.binary64, Nat.shiftRight_eq_div_pow]
    omega
  simp only [Sign.ofBitVec]
  by_cases h : b.toNat < 2 ^ 63
  · rw [if_pos (BitVec.eq_of_toNat_eq (by simp [hs]; omega)), if_pos h]
  · rw [if_neg fun h0 => by simp [← BitVec.toNat_inj, hs] at h0; omega, if_neg h]

/-- Unpacking a bit pattern that is not NaN gives a canonical float whose magnitude is the
pattern below its sign bit and whose sign is its sign bit. -/
theorem unpack_fields (b : BitVec 64) (hn : (unpack Format.binary64 b).isNaN = false) :
    Canonical (unpack Format.binary64 b) ∧ magnitude (unpack Format.binary64 b) = b.toNat % 2 ^ 63 ∧
      Unpacked.sign? (unpack Format.binary64 b) =
        some (if b.toNat < 2 ^ 63 then .positive else .negative) := by
  have hE := toNat_unpackExponent b
  have hM := toNat_unpackMantissa b
  have hS := ofBitVec_unpackSign b
  have hlt := b.isLt
  revert hn
  simp only [UnpackedFloat.unpack]
  split
  next hinf =>
    have h1 := congrArg BitVec.toNat hinf
    simp [Format.binary64] at h1
    split
    next hz =>
      have h2 := congrArg BitVec.toNat hz
      simp [Format.binary64] at h2
      intro _
      refine ⟨trivial, ?_, by simp [Unpacked.sign?, hS]⟩
      simp only [magnitude]
      omega
    next => simp [UnpackedFloat.isNaN]
  next hinf =>
    split
    next hsub =>
      have h1 := congrArg BitVec.toNat hsub
      simp [Format.binary64] at h1
      intro _
      split
      next hz =>
        have h2 := congrArg BitVec.toNat hz
        simp [Format.binary64] at h2
        refine ⟨trivial, ?_, by simp [Unpacked.sign?, hS]⟩
        simp only [magnitude]
        omega
      next hz =>
        have h2 : (@unpackMantissa Format.binary64 b).toNat ≠ 0 :=
          fun h => hz (BitVec.eq_of_toNat_eq h)
        refine ⟨?_, ?_, by simp [Unpacked.sign?, hS]⟩
        · simp only [Canonical, Format.binary64, Format.exponentBias]
          omega
        · simp only [magnitude, Format.binary64, Format.exponentBias]
          omega
    next hsub =>
      have h1 : (@unpackExponent Format.binary64 b).toNat ≠ 0 :=
        fun h => hsub (BitVec.eq_of_toNat_eq h)
      have h2 : (@unpackExponent Format.binary64 b).toNat ≠ 2047 :=
        fun h => hinf (BitVec.eq_of_toNat_eq (by simpa using h))
      intro _
      refine ⟨?_, ?_, by simp [Unpacked.sign?, hS]⟩
      · simp only [Canonical, toNat_implicit_append, Format.binary64, Format.exponentBias]
        omega
      · simp only [magnitude, toNat_implicit_append, Format.binary64, Format.exponentBias]
        omega

/-! ## Comparing unpacked floats -/

theorem compare_eq_of_iff {a b c d : Nat} (hlt : a < b ↔ c < d) (heq : a = b ↔ c = d) :
    compare a b = compare c d := by
  rcases Nat.lt_trichotomy a b with h | h | h
  · rw [Nat.compare_eq_lt.2 h, Nat.compare_eq_lt.2 (hlt.1 h)]
  · rw [Nat.compare_eq_eq.2 h, Nat.compare_eq_eq.2 (heq.1 h)]
  · have hcd : ¬ c < d := fun h' => Nat.lt_asymm h (hlt.2 h')
    have hne : c ≠ d := fun h' => Nat.ne_of_gt h (heq.2 h')
    rw [Nat.compare_eq_gt.2 h, Nat.compare_eq_gt.2 (by omega)]

/-- Exponent first, then mantissa: on canonical finite floats this is the order of
magnitudes, since at a larger, normal exponent the mantissa outweighs any at the smaller one. -/
theorem compare_then_eq {m₁ m₂ : Nat} {e₁ e₂ : Int} {h₁ : 0 < m₁} {h₂ : 0 < m₂} {s₁ s₂ : Sign}
    (c₁ : Canonical (.finite s₁ m₁ e₁ h₁)) (c₂ : Canonical (.finite s₂ m₂ e₂ h₂)) :
    (compare e₁ e₂).then (compare m₁ m₂) =
      compare (magnitude (.finite s₁ m₁ e₁ h₁)) (magnitude (.finite s₂ m₂ e₂ h₂)) := by
  obtain ⟨hl₁, hm₁, hn₁, -⟩ := c₁
  obtain ⟨hl₂, hm₂, hn₂, -⟩ := c₂
  simp only [magnitude]
  rcases Int.lt_trichotomy e₁ e₂ with he | rfl | he
  · have hn := hn₂ (by omega)
    rw [Int.compare_eq_lt.2 he, Ordering.lt_then, eq_comm, Nat.compare_eq_lt]
    omega
  · rw [Int.compare_eq_eq.2 rfl, Ordering.eq_then]
    exact compare_eq_of_iff (by omega) (by omega)
  · have hn := hn₁ (by omega)
    rw [Int.compare_eq_gt.2 he, Ordering.gt_then, eq_comm, Nat.compare_eq_gt]
    omega

/-- On canonical floats that are not NaN, IEEE `<` is the order of ranks, except between two
zeros, which IEEE makes equal. -/
theorem compare_eq_lt_iff {u v : UnpackedFloat} (cu : Canonical u) (cv : Canonical v)
    (hu : u.isNaN = false) (hv : v.isNaN = false) :
    u.compare v = some .lt ↔ orderRank u < orderRank v ∧ ¬ (TimeKey.IsZero u ∧ TimeKey.IsZero v) := by
  have bu := magnitude_lt cu
  have bv := magnitude_lt cv
  cases u with
  | notANumber => simp [UnpackedFloat.isNaN] at hu
  | zero s₁ =>
    cases v with
    | notANumber => simp [UnpackedFloat.isNaN] at hv
    | finite s₂ m₂ e₂ h₂ =>
      cases s₁ <;> cases s₂ <;>
        simp [UnpackedFloat.compare, orderRank, TimeKey.IsZero, Unpacked.sign?, magnitude] <;> omega
    | _ => cases s₁ <;> rename_i s₂ <;> cases s₂ <;>
        simp [UnpackedFloat.compare, orderRank, TimeKey.IsZero, Unpacked.sign?, magnitude]
  | infinity s₁ =>
    cases v with
    | notANumber => simp [UnpackedFloat.isNaN] at hv
    | finite s₂ m₂ e₂ h₂ =>
      have hb := cv.2.2.2
      cases s₁ <;> cases s₂ <;>
        simp [UnpackedFloat.compare, orderRank, TimeKey.IsZero, Unpacked.sign?, magnitude] <;> omega
    | _ => cases s₁ <;> rename_i s₂ <;> cases s₂ <;>
        simp [UnpackedFloat.compare, orderRank, TimeKey.IsZero, Unpacked.sign?, magnitude] <;> rfl
  | finite s₁ m₁ e₁ h₁ =>
    cases v with
    | notANumber => simp [UnpackedFloat.isNaN] at hv
    | finite s₂ m₂ e₂ h₂ =>
      have hc := compare_then_eq cu cv
      have hp : magnitude (.finite s₁ m₁ e₁ h₁) ≠ 0 := by simp only [magnitude]; omega
      cases s₁ <;> cases s₂ <;>
        simp [UnpackedFloat.compare, orderRank, TimeKey.IsZero, Unpacked.sign?, hc,
          Nat.compare_eq_gt, Nat.compare_eq_lt] <;> omega
    | _ =>
      have hb := cu.2.2.2
      cases s₁ <;> rename_i s₂ <;> cases s₂ <;>
        simp [UnpackedFloat.compare, orderRank, TimeKey.IsZero, Unpacked.sign?, magnitude] <;> omega

/-! ## Floats -/

theorem lt_iff_compare {x y : Float} :
    x < y ↔ x.toModel.unpack.compare y.toModel.unpack = some .lt := by
  show decide (x.toModel.unpack.lt y.toModel.unpack = true) = true ↔ _
  rw [decide_eq_true_iff, UnpackedFloat.lt, beq_iff_eq]

theorem canonical_unpack {x : Float} (hn : x.isNaN = false) : Canonical x.toModel.unpack :=
  (unpack_fields x.toBits.toBitVec hn).1

/-- The rank of a float that is not NaN is the rank of its unpacked form. -/
theorem rank_eq_orderRank {x : Float} (hn : x.isNaN = false) :
    TimeKey.rank x = orderRank x.toModel.unpack := by
  obtain ⟨-, hmag, hsign⟩ := unpack_fields x.toBits.toBitVec hn
  have hlt : x.toBits.toNat < 2 ^ 64 := x.toBits.toNat_lt_size
  change TimeKey.rank x = orderRank (unpack Format.binary64 x.toBits.toBitVec)
  rw [orderRank, hsign, hmag]
  simp only [TimeKey.rank, Nat.pow_eq, UInt64.toNat_toBitVec]
  split <;> simp <;> omega

/-- **Away from NaN, the total order is the IEEE order**, but for `-0.0`, which the total order
puts below `+0.0`: of two floats that are not NaN, the first not `-0.0`, the first has the
smaller rank exactly when it is the smaller float. -/
theorem rank_lt_iff_lt {x y : Float} (hx : x.isNaN = false) (hy : y.isNaN = false)
    (hx0 : x.toModel.unpack ≠ .zero .negative) : TimeKey.rank x < TimeKey.rank y ↔ x < y := by
  rw [lt_iff_compare, compare_eq_lt_iff (canonical_unpack hx) (canonical_unpack hy) hx hy,
    rank_eq_orderRank hx, rank_eq_orderRank hy]
  by_cases hz : TimeKey.IsZero x.toModel.unpack ∧ TimeKey.IsZero y.toModel.unpack
  · obtain ⟨hxz, hyz⟩ := hz
    generalize x.toModel.unpack = u at hxz hx0
    generalize y.toModel.unpack = v at hyz
    cases u with
    | zero s => cases v with
      | zero s' => cases s <;> cases s' <;> simp_all [orderRank, Unpacked.sign?, magnitude]
      | _ => exact absurd hyz id
    | _ => exact absurd hxz id
  · simp [hz]

end FloatBits

namespace TimeKey

/-- IEEE comparison does not see the sign of a zero. -/
theorem compare_zero_left (s s' : Sign) (v : UnpackedFloat) :
    (UnpackedFloat.zero s).compare v = (UnpackedFloat.zero s').compare v := by
  cases v with
  | infinity s₂ => cases s₂ <;> rfl
  | finite s₂ m e h => cases s₂ <;> rfl
  | _ => rfl

theorem compare_zero_right (s s' : Sign) (u : UnpackedFloat) :
    u.compare (UnpackedFloat.zero s) = u.compare (UnpackedFloat.zero s') := by
  cases u with
  | infinity s₁ => cases s₁ <;> rfl
  | finite s₁ m e h => cases s₁ <;> rfl
  | _ => rfl

/-- The key of a time is the time itself, or `+0.0` for a zero. -/
theorem unpack_ofTime (t : Float) :
    (¬ IsZero t.toModel.unpack ∧ (ofTime t).secs.toModel.unpack = t.toModel.unpack) ∨
      (IsZero t.toModel.unpack ∧ (ofTime t).secs.toModel.unpack = .zero .positive) := by
  by_cases ht : IsZero t.toModel.unpack
  · exact .inr ⟨ht, by rw [show (ofTime t).secs = 0.0 from add_zero_of_isZero t ht]; rfl⟩
  · exact .inl ⟨ht, by rw [show (ofTime t).secs = t from add_zero_eq_self t ht]⟩

/-- No key is `-0.0`. -/
theorem ofTime_ne_negZero (t : Float) : (ofTime t).secs.toModel.unpack ≠ .zero .negative := by
  rcases unpack_ofTime t with ⟨ht, h⟩ | ⟨-, h⟩
  · rw [h]
    intro hz
    exact ht (hz ▸ trivial)
  · rw [h]
    exact fun h => by cases h

theorem isNaN_ofTime (t : Float) : (ofTime t).secs.isNaN = t.isNaN := by
  show (ofTime t).secs.toModel.unpack.isNaN = t.toModel.unpack.isNaN
  rcases unpack_ofTime t with ⟨-, h⟩ | ⟨ht, h⟩
  · rw [h]
  · rw [h]
    generalize t.toModel.unpack = u at ht
    cases u with
    | zero s => rfl
    | _ => exact absurd ht id

/-- Comparing with the key of a time is comparing with the time. -/
theorem compare_ofTime_right (u : UnpackedFloat) (t : Float) :
    u.compare (ofTime t).secs.toModel.unpack = u.compare t.toModel.unpack := by
  rcases unpack_ofTime t with ⟨-, h⟩ | ⟨ht, h⟩
  · rw [h]
  · rw [h]
    generalize t.toModel.unpack = v at ht
    cases v with
    | zero s => exact compare_zero_right _ _ u
    | _ => exact absurd ht id

theorem compare_ofTime_left (t : Float) (v : UnpackedFloat) :
    (ofTime t).secs.toModel.unpack.compare v = t.toModel.unpack.compare v := by
  rcases unpack_ofTime t with ⟨-, h⟩ | ⟨ht, h⟩
  · rw [h]
  · rw [h]
    generalize t.toModel.unpack = u at ht
    cases u with
    | zero s => exact compare_zero_left _ _ v
    | _ => exact absurd ht id

/-- A key, not NaN, is below the key of a time that is not NaN exactly when it is below the
time. -/
theorem rank_lt_rankOf_iff (s t : Float) (hs : s.isNaN = false) (ht : t.isNaN = false) :
    rank (ofTime s).secs < Timeline.rankOf t ↔ (ofTime s).secs < t := by
  rw [Timeline.rankOf, FloatBits.rank_lt_iff_lt (by rw [isNaN_ofTime, hs]) (by rw [isNaN_ofTime, ht])
    (ofTime_ne_negZero s), FloatBits.lt_iff_compare, FloatBits.lt_iff_compare,
    compare_ofTime_right]

/-- A key, not NaN, is above the key of a time that is not NaN exactly when it is above the
time. -/
theorem rankOf_lt_rank_iff (s t : Float) (hs : s.isNaN = false) (ht : t.isNaN = false) :
    Timeline.rankOf t < rank (ofTime s).secs ↔ t < (ofTime s).secs := by
  rw [Timeline.rankOf, FloatBits.rank_lt_iff_lt (by rw [isNaN_ofTime, ht]) (by rw [isNaN_ofTime, hs])
    (ofTime_ne_negZero t), FloatBits.lt_iff_compare, FloatBits.lt_iff_compare,
    compare_ofTime_left]

end TimeKey

end RegionTrack
