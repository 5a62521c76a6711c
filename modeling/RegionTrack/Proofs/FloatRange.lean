import RegionTrack.Proofs.TimeKey

/-!
# Signs and ranges of the float operations of a frame time

The time of clip frame `f` is `f × (den / num) × scale`, computed in floats. This module proves
what that computation needs from Lean's IEEE model of floats, in which every operation unpacks
its arguments (into a sign with a mantissa and an exponent, a signed zero or infinity, or NaN),
computes an unpacked result and packs it.

* Packing keeps the sign of every float but NaN and makes no NaN (`sign?_unpack_pack`): an
  overflow gives an infinity and an underflow a zero, with the sign they were given. Rounding,
  the conversion of a natural number and a product with a positive finite factor all keep the
  sign `+`, so they never give NaN or a negative float.
* Rounding a mantissa of at least 53 bits whose exponent is in the normal range gives a normal
  float with a 53-bit mantissa and one of two exponents (`roundWithAccuracy_isNormal`), and
  such a float is unpacked as it was packed (`unpack_pack_of_normal`). Hence a positive integer
  below `2 ^ 53` is a normal float, and so is the quotient of two of them (`ratio_isNormal`):
  neither zero nor infinite, which is what rules out `0 × ∞` in a frame time.

## Main definitions

* `Unpacked.sign?`: the sign of an unpacked float that is not NaN
* `Unpacked.IsPosFinite`: a positive float that is neither zero nor infinite
* `Unpacked.IsNormal lo hi`: a positive normal float with exponent between `lo` and `hi`

## Main results

* `Unpacked.sign?_unpack_pack`: packing keeps the sign and makes no NaN
* `Unpacked.roundWithAccuracy_isNormal`: rounding in the normal range
* `Unpacked.sign?_float_ofNat`, `Unpacked.sign?_float_mul`: signs of conversions and products
* `Unpacked.ratio_isNormal`: the quotient of two integers below `2 ^ 53`
-/

namespace RegionTrack

open Float.Model Float.Model.UnpackedFloat

namespace Unpacked

/-- The sign of an unpacked float that is not NaN. -/
def sign? : UnpackedFloat → Option Sign
  | .notANumber => none
  | .zero s | .infinity s | .finite s .. => some s

/-- A positive float that is neither zero nor infinite. -/
def IsPosFinite (u : UnpackedFloat) : Prop := ∃ m e h, u = .finite .positive m e h

/-- A positive normal `binary64` float, its mantissa of exactly 53 bits, with exponent between
`lo` and `hi`. -/
def IsNormal (lo hi : Int) (u : UnpackedFloat) : Prop :=
  ∃ m e h, u = .finite .positive m e h ∧ 2 ^ 52 ≤ m ∧ m < 2 ^ 53 ∧ lo ≤ e ∧ e ≤ hi

theorem IsNormal.mono {lo hi lo' hi' : Int} {u : UnpackedFloat} (h : IsNormal lo hi u)
    (hlo : lo' ≤ lo) (hhi : hi ≤ hi') : IsNormal lo' hi' u := by
  obtain ⟨m, e, hm, rfl, h1, h2, h3, h4⟩ := h
  exact ⟨m, e, hm, rfl, h1, h2, by omega, by omega⟩

theorem IsNormal.isPosFinite {lo hi : Int} {u : UnpackedFloat} (h : IsNormal lo hi u) :
    IsPosFinite u := by
  obtain ⟨m, e, hm, rfl, -⟩ := h
  exact ⟨m, e, hm, rfl⟩

theorem minExponent_binary64 : Format.binary64.minExponent = -1074 := by decide

theorem mantissaBits_binary64 : Format.binary64.mantissaBits = 53 := rfl

/-! ### Packing -/

/-- A biased exponent below `2 ^ 11 - 1` is not the all-ones field of infinities and NaN. -/
theorem exponentField_ne_allOnes {k : Nat} (hk : k + 1 < 2 ^ 11) : BitVec.ofNat 11 k ≠ -1#11 := by
  intro h
  have := congrArg BitVec.toNat h
  simp at this
  omega

/-- A positive biased exponent is not the zero field of zeros and subnormals. -/
theorem exponentField_ne_zero {k : Nat} (h0 : 0 < k) (hk : k < 2 ^ 11) :
    BitVec.ofNat 11 k ≠ 0#11 := by
  intro h
  have := congrArg BitVec.toNat h
  simp at this
  omega

theorem unpackSign_packComponents (s : Sign) (E : BitVec 11) (M : BitVec 52) :
    unpackSign (packComponents Format.binary64 s E M) = s.toBitVec := by
  apply BitVec.eq_of_getLsbD_eq
  intro i hi
  have hi0 : i = 0 := by omega
  subst hi0
  simp only [unpackSign, packComponents, BitVec.getLsbD_cast, BitVec.getLsbD_extractLsb,
    BitVec.getLsbD_append]
  cases s <;> rfl

theorem ofBitVec_toBitVec (s : Sign) : Sign.ofBitVec s.toBitVec = s := by cases s <;> rfl

/-- A pattern whose exponent field is not all ones is a zero or a finite float, with the sign
it was packed with. -/
theorem sign?_unpack_packComponents {s : Sign} {E : BitVec 11} {M : BitVec 52}
    (hE : E ≠ -1#11) :
    sign? (unpack Format.binary64 (packComponents Format.binary64 s E M)) = some s := by
  simp only [UnpackedFloat.unpack, unpackExponent_packComponents, unpackMantissa_packComponents,
    unpackSign_packComponents, ofBitVec_toBitVec, if_neg hE]
  split
  · split <;> rfl
  · rfl

/-- **Packing keeps the sign and makes no NaN**: an overflow packs the infinity of the sign, and
any other float has its biased exponent below all ones. -/
theorem sign?_unpack_pack (u : UnpackedFloat) :
    sign? (unpack Format.binary64 (pack Format.binary64 u)) = sign? u := by
  cases u with
  | notANumber => rfl
  | zero s => cases s <;> rfl
  | infinity s => cases s <;> rfl
  | finite s m e h =>
    simp only [UnpackedFloat.pack]
    split
    · cases s <;> rfl
    split
    next hov _ =>
      exact sign?_unpack_packComponents (exponentField_ne_allOnes (by omega))
    · exact sign?_unpack_packComponents (by decide)

/-- A normal float whose exponent is in range is unpacked as it was packed: its biased exponent
`e + 1075` is neither all zeros nor all ones, and the implicit bit comes back on top of the
stored 52. -/
theorem unpack_pack_of_normal {m : Nat} {e : Int} {h : 0 < m} (s : Sign) (hm1 : 2 ^ 52 ≤ m)
    (hm2 : m < 2 ^ 53) (he1 : -1074 ≤ e) (he2 : e ≤ 971) :
    unpack Format.binary64 (pack Format.binary64 (.finite s m e h)) = .finite s m e h := by
  have hlog : m.log2 = 52 := (Nat.log2_eq_iff (by omega)).2 ⟨hm1, hm2⟩
  have hbias := FloatBits.exponentBias_binary64
  have hE : (BitVec.ofNat 11 (e + 1023 + 52).toNat).toNat = (e + 1075).toNat := by
    rw [BitVec.toNat_ofNat]
    omega
  have hne1 := exponentField_ne_allOnes (k := (e + 1023 + 52).toNat) (by omega)
  have hne0 := exponentField_ne_zero (k := (e + 1023 + 52).toNat) (by omega) (by omega)
  simp only [UnpackedFloat.pack, Format.mantissaBits, hbias, hlog, Nat.cast_ofNat]
  rw [if_neg (by simp; omega), if_pos (by simp)]
  simp only [UnpackedFloat.unpack, unpackExponent_packComponents, unpackMantissa_packComponents,
    unpackSign_packComponents, ofBitVec_toBitVec, hbias, Nat.cast_ofNat]
  rw [if_neg hne1, if_neg hne0]
  simp only [UnpackedFloat.finite.injEq, true_and]
  constructor
  · rw [FloatBits.toNat_implicit_append, BitVec.toNat_ofNat]
    omega
  · rw [hE]
    omega

theorem IsNormal.unpack_pack {lo hi : Int} {u : UnpackedFloat} (h : IsNormal lo hi u)
    (hlo : -1074 ≤ lo) (hhi : hi ≤ 971) :
    unpack Format.binary64 (pack Format.binary64 u) = u := by
  obtain ⟨m, e, hm, rfl, h1, h2, h3, h4⟩ := h
  exact unpack_pack_of_normal _ h1 h2 (by omega) (by omega)

/-! ### Rounding -/

theorem mantissa_shiftRight (em : ExtendedMantissa) (k : Nat) :
    (em >>> k).mantissa = em.mantissa / 2 ^ k := by
  induction k with
  | zero => simp; rfl
  | succ k ih =>
    show (ExtendedMantissa.shiftRightOne (em >>> k)).mantissa = _
    rw [ExtendedMantissa.shiftRightOne, ih, Nat.div_div_eq_div_mul, Nat.pow_succ]

theorem mantissa_ofMantissaAndAccuracy (m : Nat) (acc : Accuracy) :
    (ExtendedMantissa.ofMantissaAndAccuracy m acc).mantissa = m := by
  unfold ExtendedMantissa.ofMantissaAndAccuracy
  split <;> rfl

/-- Rounding to nearest adds at most one to the mantissa: below, at and above the half unit it
is kept, made even, or rounded up. -/
theorem roundedMantissa_bounds (em : ExtendedMantissa) :
    em.mantissa ≤ em.roundedMantissa ∧ em.roundedMantissa ≤ em.mantissa + 1 := by
  rw [ExtendedMantissa.roundedMantissa]
  cases em.accuracy with
  | exact => exact ⟨Nat.le_refl _, Nat.le_succ _⟩
  | inexact o =>
    cases o <;> simp only [Accuracy.roundToNearestEven] <;> omega

/-- Dropping all but the top 53 bits of a mantissa of at least 53 bits leaves 53 bits. -/
theorem div_pow_log2_bounds {r : Nat} (hr : 2 ^ 52 ≤ r) :
    2 ^ 52 ≤ r / 2 ^ (r.log2 - 52) ∧ r / 2 ^ (r.log2 - 52) < 2 ^ 53 := by
  have hr0 : r ≠ 0 := by omega
  have hL : 52 ≤ r.log2 := (Nat.le_log2 hr0).2 hr
  have hlo : 2 ^ r.log2 ≤ r := Nat.log2_self_le hr0
  have hhi : r < 2 ^ (r.log2 + 1) := Nat.lt_log2_self
  have hsplit : ∀ j, 2 ^ (r.log2 + j) = 2 ^ (52 + j) * 2 ^ (r.log2 - 52) := by
    intro j
    rw [← Nat.pow_add]
    congr 1
    omega
  constructor
  · rw [Nat.le_div_iff_mul_le (Nat.two_pow_pos _)]
    have := hsplit 0
    simp only [Nat.add_zero] at this
    omega
  · rw [Nat.div_lt_iff_lt_mul (Nat.two_pow_pos _)]
    have := hsplit 1
    omega

/-- In the normal range, shifting to the target exponent keeps the top 53 bits. -/
theorem shiftToTargetExponent_eq {m : Nat} {e : Int} (acc : Accuracy) (hL : 52 ≤ m.log2)
    (hT : -1074 ≤ (m.log2 : Int) + e - 52) :
    shiftToTargetExponent Format.binary64 m e acc =
      (ExtendedMantissa.ofMantissaAndAccuracy m acc >>> (m.log2 - 52), m.log2 + e - 52) := by
  have hk : ((max ((m.log2 : Int) + 1 + e - 53) (-1074)) - e).toNat = m.log2 - 52 := by omega
  simp only [shiftToTargetExponent, shiftToExponent, Format.targetExponent, totalExponent,
    minExponent_binary64, mantissaBits_binary64, Nat.cast_ofNat, hk]
  congr 1
  omega

/-- **Rounding in the normal range.** A mantissa of at least 53 bits whose leading bit is in the
normal range rounds to a normal float; its exponent is the one the leading bit gives, or one
more when rounding up carries into a new bit. The first shift keeps the top 53 bits and rounding
adds at most one, so the result has 53 bits, or 54 when it reached `2 ^ 53`. -/
theorem roundWithAccuracy_isNormal {m : Nat} {e : Int} (acc : Accuracy) (hm : 2 ^ 52 ≤ m)
    (hT : -1074 ≤ (m.log2 : Int) + e - 52) :
    IsNormal ((m.log2 : Int) + e - 52) ((m.log2 : Int) + e - 51)
      (roundWithAccuracy Format.binary64 .positive m e acc) := by
  have hL : 52 ≤ m.log2 := (Nat.le_log2 (by omega)).2 hm
  have hq := div_pow_log2_bounds hm
  have hround := roundedMantissa_bounds
    (ExtendedMantissa.ofMantissaAndAccuracy m acc >>> (m.log2 - 52))
  rw [mantissa_shiftRight, mantissa_ofMantissaAndAccuracy] at hround
  generalize hr :
    (ExtendedMantissa.ofMantissaAndAccuracy m acc >>> (m.log2 - 52)).roundedMantissa = r
    at hround
  have hr0 : r ≠ 0 := by omega
  have hrL : 52 ≤ r.log2 := (Nat.le_log2 hr0).2 (by omega)
  have hrH : r.log2 < 54 := (Nat.log2_lt hr0).2 (by omega)
  have hfin := div_pow_log2_bounds (r := r) (by omega)
  rw [roundWithAccuracy, shiftToTargetExponent_eq acc hL hT]
  dsimp only
  rw [hr, shiftToTargetExponent_eq .exact hrL (by omega)]
  dsimp only
  rw [mantissa_shiftRight, mantissa_ofMantissaAndAccuracy]
  split
  next h0 => omega
  next h0 => exact ⟨_, _, _, rfl, hfin.1, hfin.2, by omega, by omega⟩

theorem sign?_roundWithAccuracy (s : Sign) (m : Nat) (e : Int) (acc : Accuracy) :
    sign? (roundWithAccuracy Format.binary64 s m e acc) = some s := by
  simp only [roundWithAccuracy]
  split <;> rfl

/-! ### Operations -/

theorem log2_mul_two_pow {n : Nat} (hn : n ≠ 0) (k : Nat) : (n * 2 ^ k).log2 = n.log2 + k := by
  have hlo : 2 ^ n.log2 ≤ n := Nat.log2_self_le hn
  have hhi : n < 2 ^ (n.log2 + 1) := Nat.lt_log2_self
  rw [Nat.log2_eq_iff (Nat.mul_ne_zero hn (Nat.two_pow_pos k).ne'), Nat.pow_add,
    show n.log2 + k + 1 = n.log2 + 1 + k by omega, Nat.pow_add]
  exact ⟨Nat.mul_le_mul_right _ hlo, Nat.mul_lt_mul_of_pos_right hhi (Nat.two_pow_pos k)⟩

/-- A positive integer below `2 ^ 53` converts to a normal float, exactly: it is widened to a
mantissa of exactly 53 bits. -/
theorem ofNat_isNormal {n : Nat} (h0 : 0 < n) (h : n < 2 ^ 53) :
    IsNormal ((n.log2 : Int) - 52) ((n.log2 : Int) - 51)
      (UnpackedFloat.ofNat Format.binary64 n) := by
  have hL : n.log2 < 53 := (Nat.log2_lt (by omega)).2 h
  have hlo : 2 ^ n.log2 ≤ n := Nat.log2_self_le (by omega)
  have hlog : (n <<< (52 - n.log2)).log2 = 52 := by
    rw [Nat.shiftLeft_eq, log2_mul_two_pow (by omega)]
    omega
  have hm : 2 ^ 52 ≤ n <<< (52 - n.log2) := by
    rw [Nat.shiftLeft_eq]
    calc 2 ^ 52 = 2 ^ n.log2 * 2 ^ (52 - n.log2) := by rw [← Nat.pow_add]; congr 1; omega
      _ ≤ n * 2 ^ (52 - n.log2) := Nat.mul_le_mul_right _ hlo
  have hc : compare (n : Int) 0 = .gt := Int.compare_eq_gt.2 (by omega)
  have hs : ((0 : Int) - max ((n.log2 : Int) + 1 + 0 - 53) (-1074)).toNat = 52 - n.log2 := by
    omega
  simp only [UnpackedFloat.ofNat, UnpackedFloat.ofInt, UnpackedFloat.normalize, hc,
    UnpackedFloat.round, decreaseExponent, Format.targetExponent, totalExponent,
    minExponent_binary64, mantissaBits_binary64, Nat.cast_ofNat, Int.toNat_natCast, hs]
  exact (roundWithAccuracy_isNormal .exact hm (by omega)).mono (by omega) (by omega)

theorem sign?_ofNat (n : Nat) : sign? (UnpackedFloat.ofNat Format.binary64 n) = some .positive := by
  simp only [UnpackedFloat.ofNat, UnpackedFloat.ofInt, UnpackedFloat.normalize]
  split
  next h => exact absurd (Int.compare_eq_lt.1 h) (by omega)
  next => rfl
  next => exact sign?_roundWithAccuracy _ _ _ _

/-- A decimal literal reads as a positive float: zero, the two safety cuts, or a product or
quotient of positive floats. -/
theorem sign?_ofScientific (m : Nat) (e : Int) :
    sign? (UnpackedFloat.ofScientific Format.binary64 m e) = some .positive := by
  simp only [UnpackedFloat.ofScientific]
  split
  · rfl
  split
  · rfl
  split
  · rfl
  split
  · exact sign?_roundWithAccuracy _ _ _ _
  · simp only [UnpackedFloat.div]
    exact sign?_roundWithAccuracy _ _ _ _

/-- A product with a positive finite factor keeps the sign `+` of the other factor. -/
theorem sign?_mul {a b : UnpackedFloat} (ha : sign? a = some .positive) (hb : IsPosFinite b) :
    sign? (UnpackedFloat.mul Format.binary64 a b) = some .positive := by
  obtain ⟨m, e, hm, rfl⟩ := hb
  cases a with
  | notANumber => cases ha
  | zero s => cases Option.some.inj ha; rfl
  | infinity s => cases Option.some.inj ha; rfl
  | finite s m' e' hm' =>
    cases Option.some.inj ha
    exact sign?_roundWithAccuracy _ _ _ _

/-- Dividing two normal mantissas widens the dividend by 53 bits. -/
theorem divCore_of_normal {A B : Nat} {eA eB : Int} (hA1 : 2 ^ 52 ≤ A) (hA2 : A < 2 ^ 53)
    (hB1 : 2 ^ 52 ≤ B) (hB2 : B < 2 ^ 53) (h : -1021 ≤ eA - eB) :
    divCore Format.binary64 A eA B eB =
      (A <<< 53 / B, eA - eB - 53, accuracyOfFraction (A <<< 53 % B) B) := by
  have hlA : A.log2 = 52 := (Nat.log2_eq_iff (by omega)).2 ⟨hA1, hA2⟩
  have hlB : B.log2 = 52 := (Nat.log2_eq_iff (by omega)).2 ⟨hB1, hB2⟩
  have hte : min (eA - eB) (max ((A.log2 : Int) + 1 + eA - ((B.log2 : Int) + 1 + eB) - 53)
      (-1074)) = eA - eB - 53 := by
    rw [hlA, hlB]
    omega
  simp only [divCore, Format.targetExponent, totalExponent, minExponent_binary64,
    mantissaBits_binary64, Nat.cast_ofNat, hte]
  have hk : (eA - eB - (eA - eB - 53)).toNat = 53 := by omega
  rw [hk]

/-- The widened quotient of two normal mantissas has 53 or 54 bits. -/
theorem widenedQuotient_bounds {A B : Nat} (hA1 : 2 ^ 52 ≤ A) (hA2 : A < 2 ^ 53)
    (hB1 : 2 ^ 52 ≤ B) (hB2 : B < 2 ^ 53) : 2 ^ 52 ≤ A <<< 53 / B ∧ A <<< 53 / B < 2 ^ 54 := by
  constructor
  · rw [Nat.shiftLeft_eq, Nat.le_div_iff_mul_le (by omega)]
    calc 2 ^ 52 * B ≤ 2 ^ 52 * 2 ^ 53 := Nat.mul_le_mul_left _ hB2.le
      _ ≤ A * 2 ^ 53 := Nat.mul_le_mul_right _ hA1
  · rw [Nat.shiftLeft_eq, Nat.div_lt_iff_lt_mul (by omega)]
    calc A * 2 ^ 53 < 2 ^ 53 * 2 ^ 53 := Nat.mul_lt_mul_of_pos_right hA2 (Nat.two_pow_pos 53)
      _ = 2 ^ 54 * 2 ^ 52 := by rw [← Nat.pow_add, ← Nat.pow_add]
      _ ≤ 2 ^ 54 * B := Nat.mul_le_mul_left _ hB1

/-- The quotient of two normal floats, with exponents not too far apart, is a normal float: the
dividend is widened by 53 bits, so the quotient has 53 or 54. -/
theorem div_isNormal {loA hiA loB hiB : Int} {a b : UnpackedFloat} (ha : IsNormal loA hiA a)
    (hb : IsNormal loB hiB b) (h : -1021 ≤ loA - hiB) :
    IsNormal (loA - hiB - 53) (hiA - loB - 51) (UnpackedFloat.div Format.binary64 a b) := by
  obtain ⟨A, eA, hA, rfl, hA1, hA2, hA3, hA4⟩ := ha
  obtain ⟨B, eB, hB, rfl, hB1, hB2, hB3, hB4⟩ := hb
  have hdc := @divCore_of_normal A B eA eB hA1 hA2 hB1 hB2 (by omega)
  obtain ⟨hq1, hq2⟩ := widenedQuotient_bounds hA1 hA2 hB1 hB2
  have hqL : (A <<< 53 / B).log2 < 54 := (Nat.log2_lt (by omega)).2 hq2
  have hqL' : 52 ≤ (A <<< 53 / B).log2 := (Nat.le_log2 (by omega)).2 hq1
  simp only [UnpackedFloat.div, hdc]
  exact (roundWithAccuracy_isNormal _ hq1 (by omega)).mono (by omega) (by omega)

/-! ### Floats

`Float.ofNat n` below `2 ^ 53` is the conversion of `n` as a 64-bit word multiplied by `1.0`
(the fast path of `Float.ofScientific`); above, it goes through the model's decimal conversion.
-/

theorem one_unpack : (Float.ofBits 0x3FF0000000000000).toModel.unpack =
    .finite .positive (2 ^ 52) (-52) (Nat.two_pow_pos 52) := rfl

theorem ofNat_eq_mul_one {n : Nat} (h : n < 2 ^ 53) :
    Float.ofNat n = n.toUInt64.toFloat * Float.ofBits 0x3FF0000000000000 := by
  rw [Float.ofNat]
  show Float.ofScientific n false 0 = _
  rw [Float.ofScientific, dif_pos ⟨h, by decide⟩]
  rfl

theorem ofNat_eq_ofScientific {n : Nat} (h : ¬ n < 2 ^ 53) :
    Float.ofNat n = Float.ofModel (Float.Model.ofScientific n 0) := by
  rw [Float.ofNat]
  show Float.ofScientific n false 0 = _
  rw [Float.ofScientific, dif_neg (by omega)]
  rfl

theorem sign?_float_mul {x y : Float} (hx : sign? x.toModel.unpack = some .positive)
    (hy : IsPosFinite y.toModel.unpack) : sign? (x * y).toModel.unpack = some .positive := by
  show sign? (unpack Format.binary64 (pack Format.binary64
    (UnpackedFloat.mul Format.binary64 x.toModel.unpack y.toModel.unpack))) = _
  rw [sign?_unpack_pack]
  exact sign?_mul hx hy

/-- Every natural number converts to `+0`, a positive float or `+∞`. -/
theorem sign?_float_ofNat (n : Nat) : sign? (Float.ofNat n).toModel.unpack = some .positive := by
  by_cases h : n < 2 ^ 53
  · rw [ofNat_eq_mul_one h]
    refine sign?_float_mul ?_ ⟨_, _, _, one_unpack⟩
    show sign? (unpack Format.binary64 (pack Format.binary64
      (UnpackedFloat.ofNat Format.binary64 n.toUInt64.toNat))) = _
    rw [sign?_unpack_pack, sign?_ofNat]
  · rw [ofNat_eq_ofScientific h]
    show sign? (unpack Format.binary64 (pack Format.binary64
      (UnpackedFloat.ofScientific Format.binary64 n 0))) = _
    rw [sign?_unpack_pack, sign?_ofScientific]

/-- A positive integer below `2 ^ 53` is a normal float with exponent between `-52` and `2`.
Multiplying by one widens the mantissa by 52 bits and rounds it back. -/
theorem float_ofNat_isNormal {n : Nat} (h0 : 0 < n) (h : n < 2 ^ 53) :
    IsNormal (-52) 2 (Float.ofNat n).toModel.unpack := by
  have hL : n.log2 < 53 := (Nat.log2_lt (by omega)).2 h
  have hn := ofNat_isNormal h0 h
  have hconv : n.toUInt64.toFloat.toModel.unpack = UnpackedFloat.ofNat Format.binary64 n := by
    show unpack Format.binary64 (pack Format.binary64
      (UnpackedFloat.ofNat Format.binary64 n.toUInt64.toNat)) = _
    rw [UInt64.toNat_ofNat_of_lt' (Nat.lt_trans h (by decide))]
    exact hn.unpack_pack (by omega) (by omega)
  obtain ⟨m, e, hm, he, h1, h2, h3, h4⟩ := hn
  have hlog : (m * 2 ^ 52).log2 = 104 := by
    rw [log2_mul_two_pow (by omega), (Nat.log2_eq_iff (by omega)).2 ⟨h1, h2⟩]
  have hprod := roundWithAccuracy_isNormal (m := m * 2 ^ 52) (e := e + -52) .exact
    (Nat.le_mul_of_pos_right _ (Nat.two_pow_pos 52) |>.trans' h1) (by omega)
  rw [hlog] at hprod
  rw [ofNat_eq_mul_one h]
  show IsNormal _ _ (unpack Format.binary64 (pack Format.binary64 (UnpackedFloat.mul
    Format.binary64 n.toUInt64.toFloat.toModel.unpack
    (Float.ofBits 0x3FF0000000000000).toModel.unpack)))
  rw [hconv, he, one_unpack]
  show IsNormal _ _ (unpack Format.binary64 (pack Format.binary64
    (roundWithAccuracy Format.binary64 .positive (m * 2 ^ 52) (e + -52) .exact)))
  rw [hprod.unpack_pack (by omega) (by omega)]
  exact hprod.mono (by omega) (by omega)

theorem float_div_isNormal {loA hiA loB hiB : Int} {x y : Float}
    (hx : IsNormal loA hiA x.toModel.unpack) (hy : IsNormal loB hiB y.toModel.unpack)
    (h : -1021 ≤ loA - hiB) (hlo : -1074 ≤ loA - hiB - 53) (hhi : hiA - loB - 51 ≤ 971) :
    IsNormal (loA - hiB - 53) (hiA - loB - 51) (x / y).toModel.unpack := by
  have hq := div_isNormal hx hy h
  show IsNormal _ _ (unpack Format.binary64 (pack Format.binary64
    (UnpackedFloat.div Format.binary64 x.toModel.unpack y.toModel.unpack)))
  rw [hq.unpack_pack hlo hhi]
  exact hq

/-- **The quotient of two integers below `2 ^ 53`** is a normal float: neither zero nor
infinite. -/
theorem ratio_isNormal {a b : Nat} (ha0 : 0 < a) (ha : a < 2 ^ 53) (hb0 : 0 < b)
    (hb : b < 2 ^ 53) : IsNormal (-107) 3 (Float.ofNat a / Float.ofNat b).toModel.unpack :=
  float_div_isNormal (float_ofNat_isNormal ha0 ha) (float_ofNat_isNormal hb0 hb)
    (by decide) (by decide) (by decide)

/-- A float that is `+0`, positive or `+∞` is at least `0.0`. -/
theorem zero_le_of_sign? {x : Float} (h : sign? x.toModel.unpack = some .positive) : 0.0 ≤ x := by
  show decide ((0.0 : Float).toModel.unpack.le x.toModel.unpack = true) = true
  rw [decide_eq_true_iff]
  generalize x.toModel.unpack = u at h
  cases u with
  | notANumber => cases h
  | zero s => rfl
  | infinity s => cases Option.some.inj h; rfl
  | finite s m e hm => cases Option.some.inj h; rfl

theorem isNaN_of_sign? {x : Float} {s : Sign} (h : sign? x.toModel.unpack = some s) :
    x.isNaN = false := by
  show x.toModel.unpack.isNaN = false
  generalize x.toModel.unpack = u at h
  cases u with
  | notANumber => cases h
  | _ => rfl

/-- A finite float above `0.0` is a positive float, neither zero nor infinite. -/
theorem isPosFinite_of_valid {x : Float} (hf : x.isFinite = true) (hp : ¬ x ≤ 0.0) :
    IsPosFinite x.toModel.unpack := by
  change x.toModel.unpack.isFinite = true at hf
  change ¬ (decide (x.toModel.unpack.le (0.0 : Float).toModel.unpack = true) = true) at hp
  rw [decide_eq_true_iff] at hp
  generalize x.toModel.unpack = u at hf hp
  cases u with
  | notANumber => cases hf
  | infinity s => cases hf
  | zero s => exact absurd rfl hp
  | finite s m e hm =>
    cases s with
    | negative => exact absurd rfl hp
    | positive => exact ⟨m, e, hm, rfl⟩

end Unpacked

end RegionTrack
