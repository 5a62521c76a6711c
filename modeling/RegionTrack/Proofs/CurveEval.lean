import RegionTrack.Curve
import RegionTrack.Proofs.TimelineMap
import RegionTrack.Proofs.FloatRatio

/-!
# The value of a curve at a frame

A curve is evaluated by walking its keyframes from the first one on (`Curve.valueFrom`), which
stops at the segment the frame falls in. This module shows that the walk gives the value the
keyframes describe, at every frame: the default without keyframes; the first value before the
first keyframe; a keyframe's value on its frame; the last value after the last keyframe; and
strictly between consecutive keyframes `a` and `b` the value eased from `a`'s toward `b`'s by
`b`'s easing, at the fraction `(f - a.frame) / (b.frame - a.frame)` of the segment. There both
frame differences are true differences, since `a.frame < f < b.frame`, and for 64-bit frames the
fraction, computed in floats, lies in `(0, 1]` (`Unpacked.ratio_mem_unit`).

The three walking lemmas follow the recursion of `Curve.valueFrom` over the keyframes after the
current one, with the strict order of keyframe frames deciding where the walk stops.

## Main results

* `Curve.valueFrom_of_mem`: on a keyframe's frame, its value
* `Curve.valueFrom_of_getLast?`: from the last keyframe's frame on, the last value
* `Curve.valueFrom_of_infix`: between consecutive keyframes, the eased value
* `Curve.eval_matches_keyframes`: the value of every curve at every frame
-/

namespace RegionTrack

namespace Curve

variable {f : Nat}

/-- Walking from a keyframe at or before `f`, a keyframe on `f` gives its value: the walk stops
in the segment that ends past `f`, whose start is that keyframe. -/
theorem valueFrom_of_mem {a : Keyframe} {rest : List Keyframe}
    (hs : Keyed.Sorted (·.frame) (a :: rest)) (ha : a.frame ≤ f) {k : Keyframe}
    (hk : k ∈ a :: rest) (hkf : k.frame = f) : valueFrom f a rest = k.value := by
  induction rest generalizing a with
  | nil =>
    rw [List.mem_singleton.1 hk]
    rfl
  | cons b rest ih =>
    rw [Keyed.Sorted, List.pairwise_cons] at hs
    have hab : a.frame < b.frame := hs.1 b List.mem_cons_self
    have hafter : ∀ y ∈ b :: rest, b.frame ≤ y.frame := fun y hy =>
      Keyed.key_le_of_head? hs.2 rfl hy
    simp only [valueFrom]
    split
    next hlt =>
      rcases List.mem_cons.1 hk with rfl | hk'
      · rw [if_pos hkf]
      · exact absurd (hafter k hk') (by omega)
    next hge =>
      rcases List.mem_cons.1 hk with rfl | hk'
      · omega
      · exact ih hs.2 (by omega) hk'

/-- Walking from a keyframe at or before `f`, a frame at or after the last keyframe gives the
last value. -/
theorem valueFrom_of_getLast? {a : Keyframe} {rest : List Keyframe}
    (hs : Keyed.Sorted (·.frame) (a :: rest)) (ha : a.frame ≤ f) {k : Keyframe}
    (hk : (a :: rest).getLast? = some k) (hkf : k.frame ≤ f) : valueFrom f a rest = k.value := by
  induction rest generalizing a with
  | nil =>
    cases hk
    rfl
  | cons b rest ih =>
    rw [List.getLast?_cons_cons] at hk
    have hsb : Keyed.Sorted (·.frame) (b :: rest) := List.Pairwise.of_cons hs
    have hbk : b.frame ≤ k.frame := Keyed.key_le_of_getLast? hsb hk List.mem_cons_self
    simp only [valueFrom]
    rw [if_neg (by omega)]
    exact ih hsb (by omega) hk

/-- Walking from a keyframe at or before `f`, a frame strictly between consecutive keyframes `a`
and `b` gives the eased value of their segment. -/
theorem valueFrom_of_infix {a₀ a b : Keyframe} {rest : List Keyframe}
    (hs : Keyed.Sorted (·.frame) (a₀ :: rest)) (ha₀ : a₀.frame ≤ f) (hab : [a, b] <:+: a₀ :: rest)
    (haf : a.frame < f) (hfb : f < b.frame) : valueFrom f a₀ rest = between a b f := by
  induction rest generalizing a₀ with
  | nil => exact absurd hab.length_le (by simp)
  | cons c rest ih =>
    have hsc : Keyed.Sorted (·.frame) (c :: rest) := List.Pairwise.of_cons hs
    simp only [valueFrom]
    rcases List.infix_cons_iff.1 hab with hpre | hin
    · obtain ⟨rfl, rfl⟩ : a = a₀ ∧ b = c := by simpa using hpre
      rw [if_pos hfb, if_neg (by omega)]
    · have hca : c.frame ≤ a.frame :=
        Keyed.key_le_of_head? hsc rfl (hin.subset List.mem_cons_self)
      rw [if_neg (by omega)]
      exact ih hsc (by omega) hin

/-- **The value of a curve at a frame.** Without keyframes a curve gives its default; before its
first keyframe, the first value; on a keyframe's frame, that keyframe's value; after its last
keyframe, the last value; and strictly between consecutive keyframes `a` and `b` (both frame
differences being true differences), `a.value + (b.value - a.value)` times `b`'s easing of the
fraction `(f - a.frame) / (b.frame - a.frame)`, which for 64-bit frames lies in `(0, 1]`. -/
theorem eval_matches_keyframes (c : Curve) (f : Nat) :
    (c.keys = [] → c.eval f = c.default) ∧
    (∀ k, c.keys.head? = some k → f < k.frame → c.eval f = k.value) ∧
    (∀ k ∈ c.keys, k.frame = f → c.eval f = k.value) ∧
    (∀ k, c.keys.getLast? = some k → k.frame < f → c.eval f = k.value) ∧
    (∀ a b, [a, b] <:+: c.keys → a.frame < f → f < b.frame →
      c.eval f = a.value + (b.value - a.value) *
        b.easing.apply (Float.ofNat (f - a.frame) / Float.ofNat (b.frame - a.frame)) ∧
      (b.frame < 2 ^ 64 →
        0.0 < Float.ofNat (f - a.frame) / Float.ofNat (b.frame - a.frame) ∧
        Float.ofNat (f - a.frame) / Float.ofNat (b.frame - a.frame) ≤ 1.0)) := by
  have hs := c.sorted
  refine ⟨fun h => ?empty, fun k hk hf => ?before, fun k hk hkf => ?on, fun k hk hkf => ?after,
    fun a b hab haf hfb => ⟨?between, fun hb => ?fraction⟩⟩
  case empty => rw [eval, h]
  case before =>
    obtain ⟨rest, hkeys⟩ := List.head?_eq_some_iff.1 hk
    simp only [eval, hkeys, if_pos hf]
  case on =>
    obtain ⟨k₀, rest, hkeys⟩ := List.exists_cons_of_ne_nil (List.ne_nil_of_mem hk)
    rw [hkeys] at hs hk
    have h₀ : k₀.frame ≤ f := hkf ▸ Keyed.key_le_of_head? hs rfl hk
    simp only [eval, hkeys, if_neg (Nat.not_lt.2 h₀)]
    exact valueFrom_of_mem hs h₀ hk hkf
  case after =>
    obtain ⟨k₀, rest, hkeys⟩ := List.exists_cons_of_ne_nil (List.ne_nil_of_mem
      (List.mem_of_getLast? hk))
    rw [hkeys] at hs hk
    have h₀ : k₀.frame ≤ k.frame := Keyed.key_le_of_getLast? hs hk List.mem_cons_self
    simp only [eval, hkeys, if_neg (show ¬ f < k₀.frame by omega)]
    exact valueFrom_of_getLast? hs (by omega) hk (by omega)
  case between =>
    obtain ⟨k₀, rest, hkeys⟩ := List.exists_cons_of_ne_nil (List.ne_nil_of_mem
      (hab.subset List.mem_cons_self))
    rw [hkeys] at hs hab
    have h₀ : k₀.frame ≤ a.frame := Keyed.key_le_of_head? hs rfl (hab.subset List.mem_cons_self)
    simp only [eval, hkeys, if_neg (show ¬ f < k₀.frame by omega)]
    exact valueFrom_of_infix hs (by omega) hab haf hfb
  case fraction => exact Unpacked.ratio_mem_unit (by omega) (by omega) (by omega)

end Curve

end RegionTrack
