import Mathlib
import RegionTrack.Timeline

/-!
# Time keys: one zero, and keys equal exactly when times are

A time `t` is stored under the key `t + 0.0`, and keys are compared by the rank of their bits,
the total order on floats. This module shows that the key does what its comment promises:

* ranks are equal exactly when the floats are (`TimeKey.rank_eq_iff`), so keys compared by
  rank are compared by their bits;
* adding `+0.0` changes no float but a zero, which becomes `+0.0` (`TimeKey.add_zero_eq_self`,
  `TimeKey.add_zero_of_isZero`), so `-0.0` and `0.0` share a key;
* two times that are not NaN share a key exactly when they are equal as numbers
  (`TimeKey.ofTime_eq_iff_beq`).

The proofs read floats through Lean's IEEE model: a float is a valid bit pattern, unpacked into
a sign with a mantissa and an exponent, or a zero, an infinity or NaN. Packing an unpacked
valid pattern gives the pattern back (`FloatBits.pack_unpack`).
-/

namespace RegionTrack

open Float.Model Float.Model.UnpackedFloat

namespace FloatBits

/-- A 64-bit pattern is its sign, exponent and mantissa put back together: bits 0–51 are the
mantissa, 52–62 the exponent, 63 the sign. -/
theorem reassemble (b : BitVec Format.binary64.numBits) :
    packComponents Format.binary64 (Sign.ofBitVec (unpackSign b)) (unpackExponent b)
      (unpackMantissa b) = b := by
  have hs : ∀ s : BitVec 1, (Sign.ofBitVec s).toBitVec = s := by decide
  rw [packComponents, hs]
  apply BitVec.eq_of_getLsbD_eq
  intro i hi
  simp only [unpackMantissa, unpackExponent, unpackSign, BitVec.getLsbD_append,
    BitVec.getLsbD_cast, BitVec.getLsbD_extractLsb]
  simp only [Format.binary64, Format.numBits] at hi ⊢
  by_cases hman : i < 52
  · simp [hman]
  · by_cases hexp : i - 52 < 11
    · simp only [hman, hexp, if_false, if_true]
      simp
      rw [show 52 + (i - 52) = i by omega]
    · have hsign : i = 63 := by omega
      subst hsign
      rfl

theorem packComponents_of_fields {b : BitVec Format.binary64.numBits}
    {e : BitVec Format.binary64.exponentBits} {m : BitVec Format.binary64.mantissaBitsWithoutImplicit}
    (he : e = unpackExponent b) (hm : m = unpackMantissa b) :
    packComponents Format.binary64 (Sign.ofBitVec (unpackSign b)) e m = b := by
  rw [he, hm]
  exact reassemble b

theorem exponentBias_binary64 : (Format.binary64.exponentBias : Int) = 1023 := by decide

theorem toNat_implicit_append (m : BitVec 52) : (1#1 ++ m).toNat = 2 ^ 52 + m.toNat := by
  rw [BitVec.toNat_append, ← Nat.shiftLeft_add_eq_or_of_lt m.isLt, Nat.shiftLeft_eq]
  simp

/-- Packing the unpacked form of a valid bit pattern gives the pattern back. The one valid NaN
pattern is the canonical one; a subnormal packs with biased exponent 1 and a mantissa below the
implicit bit; a normal number keeps its stored exponent and, without the implicit bit, its stored
mantissa. -/
theorem pack_unpack {b : BitVec Format.binary64.numBits} (hv : Format.binary64.Valid b) :
    pack Format.binary64 (unpack Format.binary64 b) = b := by
  have hmlt : (unpackMantissa b).toNat < 2 ^ 52 := (unpackMantissa b).isLt
  have helt : (unpackExponent b).toNat < 2 ^ 11 := (unpackExponent b).isLt
  have hbias := exponentBias_binary64
  rw [UnpackedFloat.unpack]
  split
  next hinf =>
    split
    next hzero => exact packComponents_of_fields hinf.symm hzero.symm
    next hnan => exact (hv.eq_packedNaN hinf hnan).symm
  next hnotinf =>
    split
    next hsub =>
      split
      next hzero => exact packComponents_of_fields hsub.symm hzero.symm
      next hnz =>
        have hE : (unpackExponent b).toNat = 0 := by rw [hsub]; rfl
        have hpos : (unpackMantissa b).toNat ≠ 0 := fun h => hnz (BitVec.eq_of_toNat_eq h)
        have hlog : (unpackMantissa b).toNat.log2 < 52 := (Nat.log2_lt hpos).2 hmlt
        rw [UnpackedFloat.pack]
        simp only [Format.binary64, Format.mantissaBits, hE, hbias]
        rw [if_neg (by decide), if_neg (by omega)]
        exact packComponents_of_fields hsub.symm (by simp)
    next hnotsub =>
      have hE0 : (unpackExponent b).toNat ≠ 0 := fun h => hnotsub (BitVec.eq_of_toNat_eq h)
      have hE1 : (unpackExponent b).toNat ≠ 2 ^ 11 - 1 :=
        fun h => hnotinf (BitVec.eq_of_toNat_eq (by simpa using h))
      have hm : (1#1 ++ unpackMantissa b).toNat = 2 ^ 52 + (unpackMantissa b).toNat :=
        toNat_implicit_append _
      have hlog : (1#1 ++ unpackMantissa b).toNat.log2 = 52 := by
        rw [Nat.log2_eq_iff (by omega), hm]
        omega
      rw [UnpackedFloat.pack]
      simp only [Format.binary64, Format.mantissaBits, hbias, hlog]
      rw [if_neg (by omega), if_pos trivial]
      refine packComponents_of_fields ?_ ?_
      · apply BitVec.eq_of_toNat_eq
        rw [BitVec.toNat_ofNat]
        omega
      · apply BitVec.eq_of_toNat_eq
        rw [BitVec.toNat_ofNat, hm]
        omega

/-- A float is the packing of its unpacked form. -/
theorem ofModel_pack_unpack (x : Float) : Float.ofModel (Float.Model.pack x.toModel.unpack) = x := by
  rcases x with ⟨⟨bits, hv⟩⟩
  have h : pack Format.binary64 (unpack Format.binary64 bits.toBitVec) = bits.toBitVec :=
    pack_unpack hv
  simp only [Float.Model.pack, Float.Model.unpack, h, UInt64.ofBitVec_toBitVec]

/-- A float is its bit pattern. -/
theorem eq_of_toBits_eq {x y : Float} (h : x.toBits = y.toBits) : x = y := by
  rcases x with ⟨⟨bx, vx⟩⟩
  rcases y with ⟨⟨byy, vy⟩⟩
  simp only [Float.toBits] at h
  subst h
  rfl

end FloatBits

namespace TimeKey

/-- Whether an unpacked float is a zero, of either sign. -/
def IsZero : UnpackedFloat → Prop
  | .zero _ => True
  | _ => False

theorem unpack_zero : (0.0 : Float).toModel.unpack = .zero .positive := rfl

/-- Adding `+0.0` keeps every unpacked float but a zero, which becomes `+0.0`. -/
theorem add_zero_unpacked (x : UnpackedFloat) (hx : ¬ IsZero x) :
    UnpackedFloat.add Format.binary64 x (.zero .positive) = x := by
  cases x with
  | infinity s => rfl
  | notANumber => rfl
  | zero s => exact absurd trivial hx
  | finite s m e h => rfl

theorem add_zero_eq_self (t : Float) (ht : ¬ IsZero t.toModel.unpack) : t + 0.0 = t := by
  show Float.ofModel (Float.Model.pack (UnpackedFloat.add Format.binary64 t.toModel.unpack
    (0.0 : Float).toModel.unpack)) = t
  rw [unpack_zero, add_zero_unpacked _ ht]
  exact FloatBits.ofModel_pack_unpack t

theorem add_zero_of_isZero (t : Float) (ht : IsZero t.toModel.unpack) : t + 0.0 = 0.0 := by
  show Float.ofModel (Float.Model.pack (UnpackedFloat.add Format.binary64 t.toModel.unpack
    (0.0 : Float).toModel.unpack)) = 0.0
  rw [unpack_zero]
  generalize t.toModel.unpack = x at ht
  cases x with
  | zero s => cases s <;> rfl
  | _ => exact absurd ht id

/-- Ranks are equal exactly when the floats are: the rank reorders the bit patterns. -/
theorem rank_eq_iff {x y : Float} : rank x = rank y ↔ x = y := by
  constructor
  · intro h
    have hx := x.toBits.toNat_lt_size
    have hy := y.toBits.toNat_lt_size
    simp only [rank, Nat.pow_eq] at h
    simp only [UInt64.size] at hx hy
    have hbits : x.toBits = y.toBits := by
      apply UInt64.toNat_inj.1
      split at h <;> split at h <;> omega
    exact FloatBits.eq_of_toBits_eq hbits
  · rintro rfl
    rfl

/-- `-0.0` and `0.0` have one key. -/
theorem ofTime_neg_zero : (ofTime (-0.0)).secs = (ofTime 0.0).secs := by decide

theorem unpack_injective {t u : Float} (h : t.toModel.unpack = u.toModel.unpack) : t = u := by
  rw [← FloatBits.ofModel_pack_unpack t, ← FloatBits.ofModel_pack_unpack u, h]

/-- Two floats have one key exactly when both are zeros or they are the same float. -/
theorem ofTime_eq_iff {t u : Float} : (ofTime t).secs = (ofTime u).secs ↔
    (IsZero t.toModel.unpack ∧ IsZero u.toModel.unpack) ∨ t = u := by
  show t + 0.0 = u + 0.0 ↔ _
  by_cases ht : IsZero t.toModel.unpack <;> by_cases hu : IsZero u.toModel.unpack
  · simp [add_zero_of_isZero t ht, add_zero_of_isZero u hu, ht, hu]
  · rw [add_zero_of_isZero t ht, add_zero_eq_self u hu]
    have hne : (0.0 : Float) ≠ u := fun h => hu (h ▸ trivial)
    simp only [hne, false_iff, not_or, not_and]
    exact ⟨fun _ h => hu h, fun h => hu (h ▸ ht)⟩
  · rw [add_zero_eq_self t ht, add_zero_of_isZero u hu]
    have hne : t ≠ 0.0 := fun h => ht (h ▸ trivial)
    simp only [hne, false_iff, not_or, not_and]
    exact ⟨fun h _ => ht h, fun h => ht (by rw [h]; exact hu)⟩
  · rw [add_zero_eq_self t ht, add_zero_eq_self u hu]
    simp [ht]

theorem sign_ordCompare_eq : ∀ {s₁ s₂ : Sign}, Ord.compare s₁ s₂ = .eq ↔ s₁ = s₂
  | .negative, .negative | .positive, .positive => ⟨fun _ => rfl, fun _ => rfl⟩
  | .negative, .positive | .positive, .negative => ⟨fun h => (by cases h), fun h => (by cases h)⟩

/-- On unpacked floats that are not NaN, IEEE equality holds between two zeros (of any signs)
and otherwise between equal values only. -/
theorem compare_eq_iff {x y : UnpackedFloat} (hxn : x.isNaN = false) (hyn : y.isNaN = false) :
    x.compare y = some .eq ↔ (IsZero x ∧ IsZero y) ∨ x = y := by
  cases x with
  | notANumber => simp [UnpackedFloat.isNaN] at hxn
  | zero s₁ =>
    cases y with
    | notANumber => simp [UnpackedFloat.isNaN] at hyn
    | zero s₂ => simp [UnpackedFloat.compare, IsZero]
    | infinity s₂ => cases s₂ <;> simp [UnpackedFloat.compare, IsZero]
    | finite s₂ m₂ e₂ h₂ => cases s₂ <;> simp [UnpackedFloat.compare, IsZero]
  | infinity s₁ =>
    cases y with
    | notANumber => simp [UnpackedFloat.isNaN] at hyn
    | zero s₂ => cases s₁ <;> simp [UnpackedFloat.compare, IsZero]
    | infinity s₂ => simp [UnpackedFloat.compare, IsZero, sign_ordCompare_eq]
    | finite s₂ m₂ e₂ h₂ => cases s₁ <;> simp [UnpackedFloat.compare, IsZero]
  | finite s₁ m₁ e₁ h₁ =>
    cases y with
    | notANumber => simp [UnpackedFloat.isNaN] at hyn
    | zero s₂ => cases s₁ <;> simp [UnpackedFloat.compare, IsZero]
    | infinity s₂ => cases s₂ <;> simp [UnpackedFloat.compare, IsZero]
    | finite s₂ m₂ e₂ h₂ =>
      cases s₁ <;> cases s₂ <;> simp [UnpackedFloat.compare, IsZero] <;> omega

/-- Two times that are not NaN have one key exactly when they are equal as numbers. -/
theorem ofTime_eq_iff_beq {t u : Float} (ht : t.isNaN = false) (hu : u.isNaN = false) :
    (ofTime t).secs = (ofTime u).secs ↔ (t == u) = true := by
  have hbeq : (t == u) = (t.toModel.unpack.compare u.toModel.unpack == some .eq) := rfl
  rw [ofTime_eq_iff, hbeq, beq_iff_eq, compare_eq_iff ht hu]
  constructor
  · rintro (hz | rfl)
    · exact Or.inl hz
    · exact Or.inr rfl
  · rintro (hz | h)
    · exact Or.inl hz
    · exact Or.inr (unpack_injective h)

end TimeKey

end RegionTrack
