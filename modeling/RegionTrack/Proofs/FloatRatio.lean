import RegionTrack.Proofs.TimeOrder

/-!
# The float quotient of two frame counts

A curve segment is eased at the fraction `(f - a) / (b - a)` of its length, computed as the
quotient of two 64-bit integers converted to floats. This module shows that for `0 < p ≤ q <
2 ^ 64` the float `Float.ofNat p / Float.ofNat q` lies in `(0, 1]` (`Unpacked.ratio_mem_unit`):
rounding can make the quotient of two close integers exactly `1.0`, but never more, and never
`0.0`.

The argument follows the IEEE model through both roundings. Rounding to nearest with ties to
even, of an exact mantissa shifted right, adds one to the kept bits exactly when the dropped
bits are above half a unit, or exactly half with an odd kept part (`Unpacked.roundShift`); this
is monotone in the mantissa (`Unpacked.roundShift_mono`). A rounded result is a `Normal` float:
its top 53 bits, or `2 ^ 52` one exponent up when rounding carried (`Unpacked.Normal.round`).
Converting integers is then monotone in the order of exponents and mantissas
(`Unpacked.Normal.ofNat_le_ofNat`): two integers of the same length round their top bits in
order, and a longer one has its last kept bit above any carry of the shorter. The quotient of a
float by one at least as large has its leading bit below the one of `1.0`, or is `1.0` itself.

## Main definitions

* `Unpacked.roundShift`: an integer shifted right and rounded to nearest, ties to even
* `Unpacked.Normal`: a positive normal float, its mantissa of exactly 53 bits
* `Unpacked.topBits`: the rounded top 53 bits of an integer

## Main results

* `Unpacked.roundWithAccuracy_eq_round`: rounding in the normal range
* `Unpacked.float_ofNat_eq`: the conversion of a positive 64-bit integer
* `Unpacked.Normal.ofNat_le_ofNat`: the conversion is monotone
* `Unpacked.div_le_one`: a quotient of at most `1.0`
* `Unpacked.ratio_mem_unit`: the quotient of two 64-bit integers, the smaller first
-/

namespace RegionTrack

open Float.Model Float.Model.UnpackedFloat

namespace Unpacked

/-! ## Rounding a shifted mantissa -/

/-- An exact mantissa shifted right by `k + 1` bits keeps its top bits; the round bit is the
last bit dropped and the sticky bit says whether any bit below it is set. Each further shift
makes the old round bit and the old sticky bits the bits below the new round bit. -/
theorem shiftRight_exact (M k : Nat) :
    ExtendedMantissa.ofMantissaAndAccuracy M .exact >>> (k + 1) =
      ⟨M / 2 ^ (k + 1), M / 2 ^ k % 2 != 0, M % 2 ^ k != 0⟩ := by
  induction k with
  | zero =>
    show ExtendedMantissa.shiftRightOne ⟨M, false, false⟩ = _
    simp [ExtendedMantissa.shiftRightOne, Nat.mod_one]
  | succ k ih =>
    show ExtendedMantissa.shiftRightOne
      (ExtendedMantissa.ofMantissaAndAccuracy M .exact >>> (k + 1)) = _
    rw [ih]
    simp only [ExtendedMantissa.shiftRightOne, Nat.div_div_eq_div_mul, ← Nat.pow_succ]
    have hmod : M % 2 ^ (k + 1) = M % 2 ^ k + 2 ^ k * (M / 2 ^ k % 2) := by
      rw [Nat.pow_succ, Nat.mod_mul]
    have hpos : 0 < 2 ^ k := Nat.two_pow_pos k
    rw [hmod]
    congr 1
    rcases Nat.mod_two_eq_zero_or_one (M / 2 ^ k) with h | h <;> simp [h]

/-- `M` shifted right by `k + 1` bits and rounded to nearest, a tie going to the even result. -/
def roundShift (M k : Nat) : Nat :=
  M / 2 ^ (k + 1) +
    if 2 ^ k < M % 2 ^ (k + 1) ∨ (M % 2 ^ (k + 1) = 2 ^ k ∧ M / 2 ^ (k + 1) % 2 = 1) then 1 else 0

/-- Rounding an exact mantissa shifted right is `roundShift`: the round and sticky bits say where
the dropped part stands against half a unit. -/
theorem roundedMantissa_shiftRight_exact (M k : Nat) :
    (ExtendedMantissa.ofMantissaAndAccuracy M .exact >>> (k + 1)).roundedMantissa =
      roundShift M k := by
  have hmod : M % 2 ^ (k + 1) = M % 2 ^ k + 2 ^ k * (M / 2 ^ k % 2) := by
    rw [Nat.pow_succ, Nat.mod_mul]
  have hlt : M % 2 ^ k < 2 ^ k := Nat.mod_lt _ (Nat.two_pow_pos k)
  have hb := Nat.mod_two_eq_zero_or_one (M / 2 ^ k)
  rw [shiftRight_exact, roundShift, hmod]
  generalize M / 2 ^ k % 2 = b at hb ⊢
  generalize M % 2 ^ k = s at hlt ⊢
  generalize M / 2 ^ (k + 1) = q
  rcases hb with rfl | rfl <;> rcases Nat.eq_zero_or_pos s with rfl | hs
  · simp [ExtendedMantissa.roundedMantissa, ExtendedMantissa.accuracy,
      Accuracy.roundToNearestEven]
    omega
  · have hs' : (s != 0) = true := bne_iff_ne.2 (Nat.ne_of_gt hs)
    simp [ExtendedMantissa.roundedMantissa, ExtendedMantissa.accuracy,
      Accuracy.roundToNearestEven, hs']
    omega
  · simp [ExtendedMantissa.roundedMantissa, ExtendedMantissa.accuracy,
      Accuracy.roundToNearestEven]
    split <;> omega
  · have hs' : (s != 0) = true := bne_iff_ne.2 (Nat.ne_of_gt hs)
    simp [ExtendedMantissa.roundedMantissa, ExtendedMantissa.accuracy,
      Accuracy.roundToNearestEven, hs']
    omega

/-- Rounding to nearest is monotone: with a larger quotient, one rounding up of `p` reaches at
most the floor of `q`; with the same quotient, `q` drops at least as much as `p`. -/
theorem roundShift_mono {p q : Nat} (k : Nat) (h : p ≤ q) : roundShift p k ≤ roundShift q k := by
  have hdiv : p / 2 ^ (k + 1) ≤ q / 2 ^ (k + 1) := Nat.div_le_div_right h
  have hp := Nat.div_add_mod p (2 ^ (k + 1))
  have hq := Nat.div_add_mod q (2 ^ (k + 1))
  have hpk : p % 2 ^ (k + 1) < 2 ^ (k + 1) := Nat.mod_lt _ (Nat.two_pow_pos _)
  have hqk : q % 2 ^ (k + 1) < 2 ^ (k + 1) := Nat.mod_lt _ (Nat.two_pow_pos _)
  simp only [roundShift]
  rcases Nat.lt_or_eq_of_le hdiv with hlt | heq
  · split <;> split <;> omega
  · rw [heq] at hp ⊢
    generalize 2 ^ (k + 1) * (q / 2 ^ (k + 1)) = w at hp hq
    split <;> split <;> omega

/-- A mantissa whose dropped bits are all zero rounds exactly. -/
theorem roundShift_mul_two_pow (n k : Nat) : roundShift (n * 2 ^ (k + 1)) k = n := by
  have hk : 0 < 2 ^ k := Nat.two_pow_pos k
  simp only [roundShift, Nat.mul_div_cancel _ (Nat.two_pow_pos (k + 1)), Nat.mul_mod_left]
  rw [if_neg (by omega), Nat.add_zero]

/-! ## Normal floats -/

/-- A positive normal float: a mantissa of exactly 53 bits at an exponent. -/
@[ext]
structure Normal where
  mantissa : Nat
  exponent : Int
  lower : 2 ^ 52 ≤ mantissa
  upper : mantissa < 2 ^ 53

namespace Normal

/-- The unpacked form of a normal float. -/
def toUnpacked (x : Normal) : UnpackedFloat :=
  .finite .positive x.mantissa x.exponent (Nat.lt_of_lt_of_le (Nat.two_pow_pos 52) x.lower)

/-- The order of positive floats: by exponent, then by mantissa. -/
def Le (x y : Normal) : Prop :=
  x.exponent < y.exponent ∨ x.exponent = y.exponent ∧ x.mantissa ≤ y.mantissa

theorem Le.refl (x : Normal) : x.Le x := .inr ⟨rfl, Nat.le_refl _⟩

theorem Le.exponent_le {x y : Normal} (h : x.Le y) : x.exponent ≤ y.exponent := by
  rcases h with h | ⟨h, -⟩ <;> omega

/-- The float `1.0`. -/
def one : Normal := ⟨2 ^ 52, -52, Nat.le_refl _, by decide⟩

theorem log2_mantissa (x : Normal) : x.mantissa.log2 = 52 :=
  (Nat.log2_eq_iff (by have := x.lower; omega)).2 ⟨x.lower, x.upper⟩

/-- The rounded top bits `r` of a mantissa, at the exponent `e` of their last bit: a 53-bit
mantissa, or `2 ^ 53` when rounding carried, which is `2 ^ 52` one exponent up. -/
def round (r : Nat) (e : Int) (h : 2 ^ 52 ≤ r ∧ r ≤ 2 ^ 53) : Normal :=
  if hr : r < 2 ^ 53 then ⟨r, e, h.1, hr⟩ else ⟨2 ^ 52, e + 1, Nat.le_refl _, by decide⟩

theorem round_congr {r r' : Nat} {e e' : Int} {h h'} (hr : r = r') (he : e = e') :
    round r e h = round r' e' h' := by
  subst hr he
  rfl

theorem round_eq {r : Nat} {e : Int} {h} {x : Normal} (hr : r = x.mantissa)
    (he : e = x.exponent) : round r e h = x := by
  subst hr he
  exact dif_pos x.upper

theorem exponent_round (r : Nat) (e : Int) (h) :
    e ≤ (round r e h).exponent ∧ (round r e h).exponent ≤ e + 1 := by
  unfold round
  split <;> dsimp only <;> omega

/-- Rounding is monotone at a fixed exponent. -/
theorem round_le_round {r r' : Nat} {e e' : Int} {h h'} (hr : r ≤ r') (he : e = e') :
    (round r e h).Le (round r' e' h') := by
  unfold round Le
  split <;> split <;> dsimp only <;> omega

/-- Top bits at an exponent below a float's are at most that float: a carry reaches only
`2 ^ 52`, the least mantissa, one exponent up. -/
theorem round_le_of_lt {r : Nat} {e : Int} {h} {y : Normal} (he : e < y.exponent) :
    (round r e h).Le y := by
  have := y.lower
  unfold round Le
  split <;> dsimp only <;> omega

/-- A normal float whose exponent is in range is unpacked as it was packed. -/
theorem unpack_pack (x : Normal) (h1 : -1074 ≤ x.exponent) (h2 : x.exponent ≤ 971) :
    unpack Format.binary64 (pack Format.binary64 x.toUnpacked) = x.toUnpacked :=
  unpack_pack_of_normal _ x.lower x.upper h1 h2

end Normal

/-! ## Rounding in the normal range -/

/-- The top 53 bits of a mantissa of at least 53 bits, rounded to nearest as `acc` says of the
bits below it. -/
def roundedTop (m : Nat) (acc : Accuracy) : Nat :=
  (ExtendedMantissa.ofMantissaAndAccuracy m acc >>> (m.log2 - 52)).roundedMantissa

theorem roundedTop_bounds {m : Nat} (acc : Accuracy) (hm : 2 ^ 52 ≤ m) :
    2 ^ 52 ≤ roundedTop m acc ∧ roundedTop m acc ≤ 2 ^ 53 := by
  have hq := div_pow_log2_bounds hm
  have hround := roundedMantissa_bounds
    (ExtendedMantissa.ofMantissaAndAccuracy m acc >>> (m.log2 - 52))
  rw [mantissa_shiftRight, mantissa_ofMantissaAndAccuracy] at hround
  unfold roundedTop
  omega

/-- An exact mantissa of more than 53 bits rounds as `roundShift` says. -/
theorem roundedTop_exact {M : Nat} (hM : 2 ^ 53 ≤ M) :
    roundedTop M .exact = roundShift M (M.log2 - 53) := by
  have hL : 53 ≤ M.log2 := (Nat.le_log2 (by omega)).2 hM
  rw [roundedTop, show M.log2 - 52 = M.log2 - 53 + 1 by omega, roundedMantissa_shiftRight_exact]

/-- A 53-bit mantissa widened by zeros rounds back to itself. -/
theorem roundedTop_mul_two_pow (x : Normal) (j : Nat) :
    roundedTop (x.mantissa * 2 ^ j) .exact = x.mantissa := by
  have hlog : (x.mantissa * 2 ^ j).log2 = 52 + j := by
    rw [log2_mul_two_pow (by have := x.lower; omega), x.log2_mantissa]
  cases j with
  | zero =>
    rw [roundedTop, hlog, Nat.pow_zero, Nat.mul_one]
    rfl
  | succ k =>
    have hM : 2 ^ 53 ≤ x.mantissa * 2 ^ (k + 1) :=
      calc 2 ^ 53 = 2 ^ 52 * 2 ^ 1 := by rw [← Nat.pow_add]
        _ ≤ x.mantissa * 2 ^ (k + 1) :=
          Nat.mul_le_mul x.lower (Nat.pow_le_pow_right (by decide) (by omega))
    rw [roundedTop_exact hM, hlog, show 52 + (k + 1) - 53 = k by omega, roundShift_mul_two_pow]

/-- **Rounding in the normal range.** A mantissa of at least 53 bits whose leading bit is in the
normal range rounds to its top 53 bits, at the exponent of their last bit. The second shift
drops one bit exactly when the rounding carried. -/
theorem roundWithAccuracy_eq_round {m : Nat} {e : Int} (acc : Accuracy) (hm : 2 ^ 52 ≤ m)
    (hT : -1074 ≤ (m.log2 : Int) + e - 52) :
    roundWithAccuracy Format.binary64 .positive m e acc =
      (Normal.round (roundedTop m acc) ((m.log2 : Int) + e - 52)
        (roundedTop_bounds acc hm)).toUnpacked := by
  have hL : 52 ≤ m.log2 := (Nat.le_log2 (by omega)).2 hm
  obtain ⟨h1, h2⟩ := roundedTop_bounds acc hm
  have hr0 : roundedTop m acc ≠ 0 := by omega
  have hrL : 52 ≤ (roundedTop m acc).log2 := (Nat.le_log2 hr0).2 h1
  rw [roundWithAccuracy, shiftToTargetExponent_eq acc hL hT]
  dsimp only
  rw [show (ExtendedMantissa.ofMantissaAndAccuracy m acc >>> (m.log2 - 52)).roundedMantissa =
    roundedTop m acc from rfl, shiftToTargetExponent_eq .exact hrL (by omega)]
  dsimp only
  rw [mantissa_shiftRight, mantissa_ofMantissaAndAccuracy]
  by_cases hlt : roundedTop m acc < 2 ^ 53
  · have hlog : (roundedTop m acc).log2 = 52 := (Nat.log2_eq_iff hr0).2 ⟨h1, hlt⟩
    rw [Normal.round, dif_pos hlt, hlog, dif_neg (by simp; omega)]
    simp only [Normal.toUnpacked, Nat.sub_self, Nat.pow_zero, Nat.div_one]
    congr 1
    omega
  · have heq : roundedTop m acc = 2 ^ 53 := by omega
    rw [Normal.round, dif_neg hlt]
    simp only [Normal.toUnpacked, heq, Nat.log2_two_pow]
    rw [dif_neg (by decide)]
    congr 1
    omega

/-- A normal mantissa widened by `j` zeros, at the exponent `j` below, rounds back exactly. -/
theorem roundWithAccuracy_exact {x : Normal} {m j : Nat} {e : Int} (hm : m = x.mantissa * 2 ^ j)
    (he : e + j = x.exponent) (hlo : -1074 ≤ x.exponent) :
    roundWithAccuracy Format.binary64 .positive m e .exact = x.toUnpacked := by
  subst hm
  have hlog : (x.mantissa * 2 ^ j).log2 = 52 + j := by
    rw [log2_mul_two_pow (by have := x.lower; omega), x.log2_mantissa]
  have hm : 2 ^ 52 ≤ x.mantissa * 2 ^ j :=
    Nat.le_trans x.lower (Nat.le_mul_of_pos_right _ (Nat.two_pow_pos j))
  rw [roundWithAccuracy_eq_round .exact hm (by rw [hlog]; omega)]
  exact congrArg Normal.toUnpacked
    (Normal.round_eq (roundedTop_mul_two_pow x j) (by rw [hlog]; push_cast; omega))

/-! ## Converting integers -/

/-- The top 53 bits of a positive integer, rounded to nearest with ties to even: the integer
widened by zeros when it is shorter, and `2 ^ 53` when rounding carried. -/
def topBits (n : Nat) : Nat := roundShift (n * 2 ^ 53) n.log2

theorem topBits_bounds {n : Nat} (hn : 0 < n) : 2 ^ 52 ≤ topBits n ∧ topBits n ≤ 2 ^ 53 := by
  have hM : 2 ^ 53 ≤ n * 2 ^ 53 := Nat.le_mul_of_pos_left _ hn
  have h := roundedTop_bounds .exact (Nat.le_trans (Nat.pow_le_pow_right (by decide) (by decide)) hM)
  rwa [roundedTop_exact hM, log2_mul_two_pow (by omega), Nat.add_sub_cancel] at h

/-- Integers of the same length have their top bits in order. -/
theorem topBits_mono {p q : Nat} (hpq : p ≤ q) (hlog : p.log2 = q.log2) :
    topBits p ≤ topBits q := by
  rw [topBits, topBits, hlog]
  exact roundShift_mono _ (Nat.mul_le_mul_right _ hpq)

/-- An integer below `2 ^ 53` keeps all its bits. -/
theorem topBits_of_lt {n : Nat} (hn : 0 < n) (h : n < 2 ^ 53) :
    topBits n = n * 2 ^ (52 - n.log2) ∧ topBits n < 2 ^ 53 := by
  have hL : n.log2 < 53 := (Nat.log2_lt (by omega)).2 h
  have hsplit : n * 2 ^ 53 = n * 2 ^ (52 - n.log2) * 2 ^ (n.log2 + 1) := by
    rw [Nat.mul_assoc, ← Nat.pow_add]
    congr 2
    omega
  have hlog : (n * 2 ^ (52 - n.log2)).log2 = 52 := by
    rw [log2_mul_two_pow (by omega)]
    omega
  refine ⟨by rw [topBits, hsplit, roundShift_mul_two_pow], ?_⟩
  rw [topBits, hsplit, roundShift_mul_two_pow]
  exact Nat.lt_of_lt_of_le Nat.lt_log2_self (by rw [hlog])

namespace Normal

/-- The float of a positive integer: its top bits at the exponent of their last bit. -/
def ofNat (n : Nat) (h : 0 < n) : Normal :=
  round (topBits n) ((n.log2 : Int) - 52) (topBits_bounds h)

theorem exponent_ofNat {n : Nat} (h : 0 < n) :
    (n.log2 : Int) - 52 ≤ (ofNat n h).exponent ∧ (ofNat n h).exponent ≤ (n.log2 : Int) - 51 := by
  have := exponent_round (topBits n) ((n.log2 : Int) - 52) (topBits_bounds h)
  unfold ofNat
  omega

theorem ofNat_of_lt {n : Nat} (h0 : 0 < n) (h : n < 2 ^ 53) :
    (ofNat n h0).mantissa = n * 2 ^ (52 - n.log2) ∧ (ofNat n h0).exponent = (n.log2 : Int) - 52 := by
  obtain ⟨htop, hlt⟩ := topBits_of_lt h0 h
  unfold ofNat round
  rw [dif_pos hlt]
  exact ⟨htop, rfl⟩

/-- **Converting integers is monotone.** A longer integer has its last kept bit above any carry
of the shorter one. -/
theorem ofNat_le_ofNat {p q : Nat} (hp : 0 < p) (hq : 0 < q) (hpq : p ≤ q) :
    (ofNat p hp).Le (ofNat q hq) := by
  have hlog : p.log2 ≤ q.log2 :=
    (Nat.le_log2 (by omega)).2 (Nat.le_trans (Nat.log2_self_le (by omega)) hpq)
  rcases Nat.lt_or_eq_of_le hlog with hlt | heq
  · exact round_le_of_lt (Int.lt_of_lt_of_le (by omega) (exponent_ofNat hq).1)
  · exact round_le_round (topBits_mono hpq heq) (by rw [heq])

end Normal

/-- The model converts a positive integer below `2 ^ 53` exactly. -/
theorem ofNat_toUnpacked {n : Nat} (h0 : 0 < n) (h : n < 2 ^ 53) :
    UnpackedFloat.ofNat Format.binary64 n = (Normal.ofNat n h0).toUnpacked := by
  have hL : n.log2 < 53 := (Nat.log2_lt (by omega)).2 h
  obtain ⟨hm, he⟩ := Normal.ofNat_of_lt h0 h
  have hc : compare (n : Int) 0 = .gt := Int.compare_eq_gt.2 (by omega)
  have hs : ((0 : Int) - max ((n.log2 : Int) + 1 + 0 - 53) (-1074)).toNat = 52 - n.log2 := by
    omega
  simp only [UnpackedFloat.ofNat, UnpackedFloat.ofInt, UnpackedFloat.normalize, hc,
    UnpackedFloat.round, decreaseExponent, Format.targetExponent, totalExponent,
    minExponent_binary64, mantissaBits_binary64, Nat.cast_ofNat, Int.toNat_natCast, hs]
  exact roundWithAccuracy_exact (j := 0) (by rw [Nat.shiftLeft_eq, hm, Nat.pow_zero, Nat.mul_one])
    (by omega) (by omega)

/-- The decimal conversion of an integer with no decimal digits. -/
theorem ofScientific_zero {n : Nat} (hn : 0 < n) :
    UnpackedFloat.ofScientific Format.binary64 n 0 =
      roundWithAccuracy Format.binary64 .positive (n * 2 ^ 53) (-53) .exact := by
  rw [UnpackedFloat.ofScientific, dif_neg (by omega), if_neg (by decide), if_neg (by simp),
    if_pos (Int.le_refl 0)]
  simp [UnpackedFloat.mul, Nat.shiftLeft_eq, Format.mantissaBits]
  rfl

/-- Multiplying by `1.0` is exact. -/
theorem mul_one_toUnpacked (x : Normal) (he : -1022 ≤ x.exponent) :
    UnpackedFloat.mul Format.binary64 x.toUnpacked Normal.one.toUnpacked = x.toUnpacked :=
  roundWithAccuracy_exact (j := 52) rfl (by show x.exponent + -52 + 52 = _; omega) (by omega)

/-- **Converting integers.** A positive integer below `2 ^ 64` converts to the float of its
rounded top bits. Below `2 ^ 53` it is converted exactly as a 64-bit word, then multiplied by
`1.0`; from there on the decimal conversion rounds it once. -/
theorem float_ofNat_eq {n : Nat} (h0 : 0 < n) (h : n < 2 ^ 64) :
    (Float.ofNat n).toModel.unpack = (Normal.ofNat n h0).toUnpacked := by
  have hL : n.log2 < 64 := (Nat.log2_lt (by omega)).2 h
  obtain ⟨he1, he2⟩ := Normal.exponent_ofNat h0
  by_cases hs : n < 2 ^ 53
  · have hconv : n.toUInt64.toFloat.toModel.unpack = (Normal.ofNat n h0).toUnpacked := by
      show unpack Format.binary64 (pack Format.binary64
        (UnpackedFloat.ofNat Format.binary64 n.toUInt64.toNat)) = _
      rw [UInt64.toNat_ofNat_of_lt' (Nat.lt_trans hs (by decide)), ofNat_toUnpacked h0 hs,
        Normal.unpack_pack _ (by omega) (by omega)]
    rw [ofNat_eq_mul_one hs]
    show unpack Format.binary64 (pack Format.binary64 (UnpackedFloat.mul Format.binary64
      n.toUInt64.toFloat.toModel.unpack (Float.ofBits 0x3FF0000000000000).toModel.unpack)) = _
    rw [hconv, show (Float.ofBits 0x3FF0000000000000).toModel.unpack = Normal.one.toUnpacked
      from one_unpack, mul_one_toUnpacked _ (by omega), Normal.unpack_pack _ (by omega) (by omega)]
  · have hM : 2 ^ 53 ≤ n * 2 ^ 53 := Nat.le_mul_of_pos_left _ h0
    have hlog : (n * 2 ^ 53).log2 = n.log2 + 53 := log2_mul_two_pow (by omega) 53
    have hround : roundWithAccuracy Format.binary64 .positive (n * 2 ^ 53) (-53) .exact =
        (Normal.ofNat n h0).toUnpacked := by
      rw [roundWithAccuracy_eq_round .exact (by omega) (by rw [hlog]; omega)]
      exact congrArg Normal.toUnpacked (Normal.round_congr
        (by rw [roundedTop_exact hM, hlog, Nat.add_sub_cancel]; rfl) (by rw [hlog]; push_cast; omega))
    rw [ofNat_eq_ofScientific hs]
    show unpack Format.binary64 (pack Format.binary64
      (UnpackedFloat.ofScientific Format.binary64 n 0)) = _
    rw [ofScientific_zero h0, hround, Normal.unpack_pack _ (by omega) (by omega)]

/-! ## Dividing -/

/-- A normal float divided by itself is exactly `1.0`. -/
theorem div_self_toUnpacked (x : Normal) :
    UnpackedFloat.div Format.binary64 x.toUnpacked x.toUnpacked = Normal.one.toUnpacked := by
  have hpos : 0 < x.mantissa := by have := x.lower; omega
  have hq : x.mantissa <<< 53 / x.mantissa = 2 ^ 52 * 2 ^ 1 := by
    rw [Nat.shiftLeft_eq, Nat.mul_div_cancel_left _ hpos, ← Nat.pow_add]
  have hr : accuracyOfFraction (x.mantissa <<< 53 % x.mantissa) x.mantissa = .exact := by
    rw [Nat.shiftLeft_eq, Nat.mul_mod_right]
    rfl
  have hd := @divCore_of_normal x.mantissa x.mantissa x.exponent x.exponent x.lower x.upper
    x.lower x.upper (by omega)
  simp only [Normal.toUnpacked, UnpackedFloat.div, hd, hq, hr]
  exact @roundWithAccuracy_exact Normal.one _ 1 _ rfl (by show _ = (-52 : Int); omega)
    (by show (-1074 : Int) ≤ -52; omega)

/-- **A quotient of at most `1.0`.** Dividing a normal float by one at least as large, their
exponents not too far apart, gives a normal float of at most `1.0`: the quotient's leading bit
is below the one of `1`, and it rounds to its top bits at an exponent below the one of `1`. -/
theorem div_le_one {x y : Normal} (hxy : x.Le y) (hlo : -1021 ≤ x.exponent - y.exponent) :
    ∃ z : Normal, UnpackedFloat.div Format.binary64 x.toUnpacked y.toUnpacked = z.toUnpacked ∧
      x.exponent - y.exponent - 53 ≤ z.exponent ∧ z.Le Normal.one := by
  by_cases hsame : x = y
  · subst hsame
    exact ⟨Normal.one, div_self_toUnpacked x, by show _ ≤ (-52 : Int); omega, Normal.Le.refl _⟩
  have hd := divCore_of_normal x.lower x.upper y.lower y.upper hlo
  obtain ⟨hq1, hq2⟩ := widenedQuotient_bounds x.lower x.upper y.lower y.upper
  have hQ : 52 ≤ (x.mantissa <<< 53 / y.mantissa).log2 := (Nat.le_log2 (by omega)).2 hq1
  have hL : ((x.mantissa <<< 53 / y.mantissa).log2 : Int) + x.exponent - y.exponent ≤ 52 := by
    rcases hxy with hlt | ⟨heq, hle⟩
    · have := (Nat.log2_lt (by omega)).2 hq2
      omega
    · have hm : x.mantissa < y.mantissa :=
        Nat.lt_of_le_of_ne hle (fun hm => hsame (Normal.ext hm heq))
      have hq : x.mantissa <<< 53 / y.mantissa < 2 ^ 53 := by
        rw [Nat.shiftLeft_eq, Nat.div_lt_iff_lt_mul (by have := y.lower; omega),
          Nat.mul_comm (2 ^ 53)]
        exact Nat.mul_lt_mul_of_pos_right hm (Nat.two_pow_pos 53)
      have := (Nat.log2_lt (by omega)).2 hq
      omega
  let z := Normal.round
    (roundedTop (x.mantissa <<< 53 / y.mantissa)
      (accuracyOfFraction (x.mantissa <<< 53 % y.mantissa) y.mantissa))
    ((x.mantissa <<< 53 / y.mantissa).log2 + (x.exponent - y.exponent - 53) - 52)
    (roundedTop_bounds _ hq1)
  refine ⟨z, ?_, Int.le_trans (by omega) (Normal.exponent_round _ _ _).1,
    Normal.round_le_of_lt (by show _ < (-52 : Int); omega)⟩
  simp only [Normal.toUnpacked, UnpackedFloat.div, hd]
  exact roundWithAccuracy_eq_round _ hq1 (by omega)

/-- Positive normal floats are ordered by exponent, then by mantissa. -/
theorem float_le_iff {a b : Float} {x y : Normal} (ha : a.toModel.unpack = x.toUnpacked)
    (hb : b.toModel.unpack = y.toUnpacked) : a ≤ b ↔ x.Le y := by
  show decide (a.toModel.unpack.le b.toModel.unpack = true) = true ↔ _
  rw [decide_eq_true_iff, ha, hb]
  show ((compare x.exponent y.exponent).then (compare x.mantissa y.mantissa)).isLE = true ↔ _
  rcases lt_trichotomy x.exponent y.exponent with h | h | h
  · simp [Normal.Le, compare_lt_iff_lt.2 h, h]
  · simp [Normal.Le, h, Ordering.then, Nat.isLE_compare]
  · simp [Normal.Le, compare_gt_iff_gt.2 h, Ordering.then, not_lt_of_gt h, ne_of_gt h]

theorem zero_lt_float {a : Float} {x : Normal} (ha : a.toModel.unpack = x.toUnpacked) :
    0.0 < a := by
  rw [FloatBits.lt_iff_compare, ha]
  rfl

/-- **The quotient of two integers, the smaller first.** For `0 < p ≤ q < 2 ^ 64` the float
quotient of `p` by `q` lies in `(0, 1]`. -/
theorem ratio_mem_unit {p q : Nat} (hp : 0 < p) (hpq : p ≤ q) (hq : q < 2 ^ 64) :
    0.0 < Float.ofNat p / Float.ofNat q ∧ Float.ofNat p / Float.ofNat q ≤ 1.0 := by
  have hq0 : 0 < q := by omega
  have hLp : p.log2 < 64 := (Nat.log2_lt (by omega)).2 (by omega)
  have hLq : q.log2 < 64 := (Nat.log2_lt (by omega)).2 hq
  obtain ⟨hp1, hp2⟩ := Normal.exponent_ofNat hp
  obtain ⟨hq1, hq2⟩ := Normal.exponent_ofNat hq0
  obtain ⟨z, hz, hze, hz1⟩ := div_le_one (Normal.ofNat_le_ofNat hp hq0 hpq) (by omega)
  have hzhi : z.exponent ≤ -52 := hz1.exponent_le
  have hdiv : (Float.ofNat p / Float.ofNat q).toModel.unpack = z.toUnpacked := by
    show unpack Format.binary64 (pack Format.binary64 (UnpackedFloat.div Format.binary64
      (Float.ofNat p).toModel.unpack (Float.ofNat q).toModel.unpack)) = _
    rw [float_ofNat_eq hp (by omega), float_ofNat_eq hq0 hq, hz]
    exact z.unpack_pack (by omega) (by omega)
  exact ⟨zero_lt_float hdiv, (float_le_iff hdiv rfl).2 hz1⟩

end Unpacked

end RegionTrack
