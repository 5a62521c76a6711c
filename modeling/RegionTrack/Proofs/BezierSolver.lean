import Mathlib.Algebra.Order.Field.Rat
import Mathlib.Tactic.FieldSimp
import Mathlib.Tactic.GCongr
import Mathlib.Tactic.LinearCombination
import Mathlib.Tactic.Linarith
import Mathlib.Tactic.NormNum
import Mathlib.Tactic.Positivity
import Mathlib.Tactic.Ring
import RegionTrack.Easing

/-!
# The Bézier ease in exact arithmetic

The easing solver is written over any `EaseScalar`. Run on exact rationals, it computes the
curve, its slope, the clamps and the bisection midpoints without rounding; this module shows
what it then does for the ease of `Easing.bezier`, the cubic Bézier with control points
`(0.5, 0)` and `(0.5, 1)`.

The abscissa of that curve is `bx(t) = 3/2·t - 3/2·t² + t³`, with slope `3(t - 1/2)² + 3/4`:
at least `3/4` everywhere, so the solver's flat-slope stop never fires and `bx` is strictly
increasing. A Newton step from `t` moves by `u = r / bx'(t)`, where `r = bx(t) - x` is the
residual, and leaves the residual `u²·(3t - 3/2 - u)` (`residual_after_newton`): on `[0, 1]`,
while `|r| ≤ 1/16`, at most `3r²`. The clamp to `[0, 1]` only lowers the residual, since `bx` is
increasing and the target lies in `[0, 1]`. From `t = x` the residual is `x(x - 1/2)(x - 1)`, at
most `1/20`, so eight steps bring it below `10⁻⁹` (`residualBound`): the bisection stops at its
first test and the solver returns the eighth Newton iterate. The curve is symmetric about
`(1/2, 1/2)` and the solver follows the symmetry step by step, so the ease is symmetric too.

## Main results

* `Bezier.newton_residual`: a run of Newton steps stays in `[0, 1]`, with its residual bound
* `Bezier.solve_eq_newton`: the bisection leaves the Newton result as it is
* `Bezier.newton_one_sub`: the Newton steps for `1 - x` mirror those for `x`
* `Bezier.bezier_ease_exact`: the behaviour of the ease on exact rationals
-/

namespace RegionTrack

/-- Exact rationals: the easing solver's arithmetic without rounding. -/
instance : EaseScalar ℚ where
  abs q := |q|
  decLt := inferInstance
  decLe := inferInstance

@[simp]
theorem EaseScalar.abs_rat (q : ℚ) : EaseScalar.abs q = |q| := rfl

namespace Bezier

variable {x t : ℚ}

/-! ## The curve of the ease -/

/-- The abscissa of the ease curve. -/
theorem sample_half (t : ℚ) : sample (0.5 : ℚ) 0.5 t = 3 / 2 * t - 3 / 2 * t ^ 2 + t ^ 3 := by
  simp only [sample]
  norm_num
  ring

/-- The slope of the abscissa. -/
theorem slope_half (t : ℚ) : slope (0.5 : ℚ) 0.5 t = 3 / 2 - 3 * t + 3 * t ^ 2 := by
  simp only [slope]
  norm_num
  ring

/-- The ordinate of the ease curve. -/
theorem sample_zero_one (t : ℚ) : sample (0.0 : ℚ) 1.0 t = 3 * t ^ 2 - 2 * t ^ 3 := by
  simp only [sample]
  norm_num
  ring

theorem three_quarters_le_slope (t : ℚ) : 3 / 4 ≤ slope (0.5 : ℚ) 0.5 t := by
  rw [slope_half]
  nlinarith [sq_nonneg (t - 1 / 2)]

theorem not_abs_slope_lt (t : ℚ) : ¬ |slope (0.5 : ℚ) 0.5 t| < 1e-7 := by
  have := three_quarters_le_slope t
  rw [abs_of_pos (by linarith), not_lt]
  norm_num
  linarith

/-- The abscissa is strictly increasing: `bx(t) - bx(s)` is `t - s` times a factor at least
`3/4`. -/
theorem sample_half_lt {s t : ℚ} (h : s < t) : sample (0.5 : ℚ) 0.5 s < sample 0.5 0.5 t := by
  have hdiff : sample (0.5 : ℚ) 0.5 t - sample 0.5 0.5 s =
      (t - s) * (3 / 4 + (3 * (s + t - 1) ^ 2 + (s - t) ^ 2) / 4) := by
    rw [sample_half, sample_half]
    ring
  have hpos : 0 < (t - s) * (3 / 4 + (3 * (s + t - 1) ^ 2 + (s - t) ^ 2) / 4) :=
    mul_pos (sub_pos.2 h) (by positivity)
  linarith

theorem sample_half_zero : sample (0.5 : ℚ) 0.5 0 = 0 := by
  rw [sample_half]
  ring

theorem sample_half_one : sample (0.5 : ℚ) 0.5 1 = 1 := by
  rw [sample_half]
  ring

/-- At `x`, the abscissa is off by `x(x - 1/2)(x - 1)`, at most `1/20` on `[0, 1]`. -/
theorem abs_residual_start (h0 : 0 ≤ x) (h1 : x ≤ 1) : |sample (0.5 : ℚ) 0.5 x - x| ≤ 1 / 20 := by
  have hx : 0 ≤ x * (1 - x) := mul_nonneg h0 (sub_nonneg.2 h1)
  rw [sample_half, abs_le]
  constructor <;> nlinarith [sq_nonneg (x - 1 / 5), sq_nonneg (x - 4 / 5),
    mul_nonneg hx (sq_nonneg (x - 1 / 5)), mul_nonneg hx (sq_nonneg (x - 4 / 5))]

/-- The ordinate stays in `[0, 1]`, being `t²(3 - 2t)` and `1` less `(1 - t)²(1 + 2t)`. -/
theorem sample_zero_one_mem (h0 : 0 ≤ t) (h1 : t ≤ 1) :
    0 ≤ sample (0.0 : ℚ) 1.0 t ∧ sample (0.0 : ℚ) 1.0 t ≤ 1 := by
  rw [sample_zero_one]
  constructor
  · nlinarith [mul_nonneg (sq_nonneg t) (by linarith : (0 : ℚ) ≤ 3 - 2 * t)]
  · nlinarith [mul_nonneg (sq_nonneg (1 - t)) (by linarith : (0 : ℚ) ≤ 1 + 2 * t)]

/-! ## The symmetry of the curve about `(1/2, 1/2)` -/

theorem sample_half_one_sub (t : ℚ) : sample (0.5 : ℚ) 0.5 (1 - t) = 1 - sample 0.5 0.5 t := by
  rw [sample_half, sample_half]
  ring

theorem slope_half_one_sub (t : ℚ) : slope (0.5 : ℚ) 0.5 (1 - t) = slope 0.5 0.5 t := by
  rw [slope_half, slope_half]
  ring

theorem sample_zero_one_one_sub (t : ℚ) :
    sample (0.0 : ℚ) 1.0 (1 - t) = 1 - sample 0.0 1.0 t := by
  rw [sample_zero_one, sample_zero_one]
  ring

/-! ## The clamp -/

theorem clampUnit_of_neg (h : t < 0) : clampUnit t = 0 := by
  have h0 : t < (0.0 : ℚ) := by norm_num; exact h
  simp only [clampUnit, if_pos h0]
  norm_num

theorem clampUnit_of_one_lt (h : 1 < t) : clampUnit t = 1 := by
  have h0 : ¬ t < (0.0 : ℚ) := by norm_num; linarith
  have h1 : (1.0 : ℚ) < t := by norm_num; exact h
  simp only [clampUnit, if_neg h0, if_pos h1]
  norm_num

theorem clampUnit_of_mem (h0 : 0 ≤ t) (h1 : t ≤ 1) : clampUnit t = t := by
  have h0 : ¬ t < (0.0 : ℚ) := by norm_num; exact h0
  have h1 : ¬ (1.0 : ℚ) < t := by norm_num; exact h1
  simp only [clampUnit, if_neg h0, if_neg h1]

theorem clampUnit_mem (t : ℚ) : 0 ≤ clampUnit t ∧ clampUnit t ≤ 1 := by
  rcases lt_or_ge t 0 with h0 | h0
  · rw [clampUnit_of_neg h0]
    norm_num
  rcases le_or_gt t 1 with h1 | h1
  · rw [clampUnit_of_mem h0 h1]
    exact ⟨h0, h1⟩
  · rw [clampUnit_of_one_lt h1]
    norm_num

/-- Clamping commutes with the mirror `t ↦ 1 - t` of `[0, 1]`. -/
theorem clampUnit_one_sub (t : ℚ) : clampUnit (1 - t) = 1 - clampUnit t := by
  rcases lt_or_ge t 0 with h0 | h0
  · rw [clampUnit_of_neg h0, clampUnit_of_one_lt (by linarith)]
    norm_num
  rcases le_or_gt t 1 with h1 | h1
  · rw [clampUnit_of_mem h0 h1, clampUnit_of_mem (by linarith) (by linarith)]
  · rw [clampUnit_of_one_lt h1, clampUnit_of_neg (by linarith)]
    norm_num

/-- Clamping toward a target abscissa in `[0, 1]` never takes the abscissa further from it: the
abscissa is increasing and is `0` at `0` and `1` at `1`. -/
theorem abs_residual_clampUnit (hx0 : 0 ≤ x) (hx1 : x ≤ 1) (s : ℚ) :
    |sample (0.5 : ℚ) 0.5 (clampUnit s) - x| ≤ |sample (0.5 : ℚ) 0.5 s - x| := by
  rcases lt_or_ge s 0 with hs | hs
  · have hlt := sample_half_lt hs
    rw [sample_half_zero] at hlt
    rw [clampUnit_of_neg hs, sample_half_zero, abs_of_nonpos (by linarith),
      abs_of_neg (by linarith)]
    linarith
  rcases le_or_gt s 1 with hs1 | hs1
  · rw [clampUnit_of_mem hs hs1]
  · have hlt := sample_half_lt hs1
    rw [sample_half_one] at hlt
    rw [clampUnit_of_one_lt hs1, sample_half_one, abs_of_nonneg (by linarith),
      abs_of_pos (by linarith)]
    linarith

/-! ## Newton steps -/

/-- A move by `u` with `bx'(t)·u = bx(t) - x`, the Newton step, leaves the residual
`u²·(3t - 3/2 - u)`: the cubic's exact Taylor expansion at `t`. -/
theorem residual_after_newton {u : ℚ}
    (hu : slope (0.5 : ℚ) 0.5 t * u = sample 0.5 0.5 t - x) :
    sample (0.5 : ℚ) 0.5 (t - u) - x = u ^ 2 * (3 * t - 3 / 2 - u) := by
  have taylor : sample (0.5 : ℚ) 0.5 (t - u) =
      sample 0.5 0.5 t - slope 0.5 0.5 t * u + (3 * t - 3 / 2) * u ^ 2 - u ^ 3 := by
    rw [sample_half, sample_half, slope_half]
    ring
  linear_combination taylor - hu

/-- **One Newton step squares the residual.** From `t ∈ [0, 1]` with residual at most
`ε ≤ 1/16`, the clamped Newton step has residual at most `3ε²`: the slope is at least `3/4`, so
the step moves `t` by at most `4/3` of the residual. -/
theorem abs_residual_step (hx0 : 0 ≤ x) (hx1 : x ≤ 1) (ht0 : 0 ≤ t) (ht1 : t ≤ 1) {ε : ℚ}
    (hr : |sample (0.5 : ℚ) 0.5 t - x| ≤ ε) (hε : ε ≤ 1 / 16) :
    |sample (0.5 : ℚ) 0.5 (clampUnit (t - (sample 0.5 0.5 t - x) / slope 0.5 0.5 t)) - x| ≤
      3 * ε ^ 2 := by
  set u := (sample (0.5 : ℚ) 0.5 t - x) / slope 0.5 0.5 t with hu_def
  have hd := three_quarters_le_slope t
  have hε0 : 0 ≤ ε := (abs_nonneg _).trans hr
  have hu : |u| ≤ 4 / 3 * ε := by
    rw [hu_def, abs_div, abs_of_pos (show 0 < slope (0.5 : ℚ) 0.5 t by linarith),
      div_le_iff₀ (by linarith)]
    nlinarith [mul_nonneg hε0 (sub_nonneg.2 hd)]
  have hw : |3 * t - 3 / 2 - u| ≤ 19 / 12 := by
    have h3 : |3 * t - 3 / 2| ≤ 3 / 2 := abs_le.2 ⟨by linarith, by linarith⟩
    linarith [abs_sub (3 * t - 3 / 2) u]
  have hu2 : u ^ 2 ≤ (4 / 3 * ε) ^ 2 := by
    rw [← sq_abs u]
    exact pow_le_pow_left₀ (abs_nonneg u) hu 2
  calc |sample (0.5 : ℚ) 0.5 (clampUnit (t - u)) - x|
      ≤ |sample (0.5 : ℚ) 0.5 (t - u) - x| := abs_residual_clampUnit hx0 hx1 _
    _ = u ^ 2 * |3 * t - 3 / 2 - u| := by
      rw [residual_after_newton (mul_div_cancel₀ _ (by linarith)), abs_mul,
        abs_of_nonneg (sq_nonneg u)]
    _ ≤ (4 / 3 * ε) ^ 2 * (19 / 12) := by gcongr
    _ ≤ 3 * ε ^ 2 := by nlinarith [sq_nonneg ε]

/-- A Newton step is always taken: the slope is never flat. -/
theorem newton_succ (x t : ℚ) (n : Nat) :
    newton (0.5 : ℚ) 0.5 x (n + 1) t =
      newton 0.5 0.5 x n (clampUnit (t - (sample 0.5 0.5 t - x) / slope 0.5 0.5 t)) := by
  rw [newton, EaseScalar.abs_rat, if_neg (not_abs_slope_lt t)]

/-- The bound on the residual after `n` Newton steps from a residual at most `ε`: each step
squares it and triples it. -/
def residualBound : Nat → ℚ → ℚ
  | 0, ε => ε
  | n + 1, ε => residualBound n (3 * ε ^ 2)

/-- **A run of Newton steps.** From `t ∈ [0, 1]` with residual at most `ε ≤ 1/16`, `n` Newton
steps stay in `[0, 1]` and leave the residual at most `residualBound n ε`, each step keeping
the bound with `3ε²` for `ε`. -/
theorem newton_residual (hx0 : 0 ≤ x) (hx1 : x ≤ 1) (n : Nat) {t ε : ℚ} (ht0 : 0 ≤ t)
    (ht1 : t ≤ 1) (hr : |sample (0.5 : ℚ) 0.5 t - x| ≤ ε) (hε : ε ≤ 1 / 16) :
    0 ≤ newton (0.5 : ℚ) 0.5 x n t ∧ newton (0.5 : ℚ) 0.5 x n t ≤ 1 ∧
      |sample (0.5 : ℚ) 0.5 (newton 0.5 0.5 x n t) - x| ≤ residualBound n ε := by
  induction n generalizing t ε with
  | zero => exact ⟨ht0, ht1, hr⟩
  | succ n ih =>
    have hε0 : 0 ≤ ε := (abs_nonneg _).trans hr
    have hε' : 3 * ε ^ 2 ≤ 1 / 16 := by nlinarith
    rw [newton_succ]
    exact ih (clampUnit_mem _).1 (clampUnit_mem _).2 (abs_residual_step hx0 hx1 ht0 ht1 hr hε) hε'

/-- Eight steps from a residual of `1/20` leave less than `10⁻⁹`. -/
theorem residualBound_eight : residualBound 8 (1 / 20) < 1e-9 := by
  norm_num [residualBound]

/-! ## The bisection and the ease -/

/-- The bisection returns its start when that is already within `10⁻⁹` of the target. -/
theorem bisect_of_close {x1 x2 lo hi : ℚ} (n : Nat) (h : |sample x1 x2 t - x| < 1e-9) :
    bisect x1 x2 x (n + 1) lo hi t = t := by
  rw [bisect, EaseScalar.abs_rat, if_pos h]

theorem abs_residual_newton_eight (hx0 : 0 ≤ x) (hx1 : x ≤ 1) :
    |sample (0.5 : ℚ) 0.5 (newton 0.5 0.5 x 8 x) - x| < 1e-9 :=
  lt_of_le_of_lt (newton_residual hx0 hx1 8 hx0 hx1 (abs_residual_start hx0 hx1) (by norm_num)).2.2
    residualBound_eight

/-- **The bisection never moves the Newton result.** -/
theorem solve_eq_newton (hx0 : 0 ≤ x) (hx1 : x ≤ 1) :
    solve (0.5 : ℚ) 0.5 x = newton 0.5 0.5 x 8 x :=
  bisect_of_close 7 (abs_residual_newton_eight hx0 hx1)

theorem ease_of_nonpos (h : x ≤ 0) : ease x (0.5 : ℚ) 0.0 0.5 1.0 = 0 := by
  have h0 : x ≤ (0.0 : ℚ) := by norm_num; exact h
  rw [ease, if_pos h0]
  norm_num

theorem ease_of_one_le (h : 1 ≤ x) : ease x (0.5 : ℚ) 0.0 0.5 1.0 = 1 := by
  have h0 : ¬ x ≤ (0.0 : ℚ) := by norm_num; linarith
  have h1 : (1.0 : ℚ) ≤ x := by norm_num; exact h
  rw [ease, if_neg h0, if_pos h1]
  norm_num

theorem ease_of_mem (h0 : 0 < x) (h1 : x < 1) :
    ease x (0.5 : ℚ) 0.0 0.5 1.0 = sample 0.0 1.0 (newton 0.5 0.5 x 8 x) := by
  have h0' : ¬ x ≤ (0.0 : ℚ) := by norm_num; exact h0
  have h1' : ¬ (1.0 : ℚ) ≤ x := by norm_num; exact h1
  rw [ease, if_neg h0', if_neg h1', solve_eq_newton h0.le h1.le]

/-! ## Symmetry -/

/-- **The Newton steps for `1 - x` mirror those for `x`**: the step from the mirror of `t` lands
on the mirror of the step from `t`. -/
theorem newton_one_sub (x : ℚ) (n : Nat) (t : ℚ) :
    newton (0.5 : ℚ) 0.5 (1 - x) n (1 - t) = 1 - newton 0.5 0.5 x n t := by
  induction n generalizing t with
  | zero => rfl
  | succ n ih =>
    have hstep : 1 - t - (sample (0.5 : ℚ) 0.5 (1 - t) - (1 - x)) / slope 0.5 0.5 (1 - t) =
        1 - (t - (sample 0.5 0.5 t - x) / slope 0.5 0.5 t) := by
      rw [sample_half_one_sub, slope_half_one_sub]
      ring
    rw [newton_succ, newton_succ, hstep, clampUnit_one_sub, ih]

theorem ease_one_sub (h0 : 0 ≤ x) (h1 : x ≤ 1) :
    ease (1 - x) (0.5 : ℚ) 0.0 0.5 1.0 = 1 - ease x 0.5 0.0 0.5 1.0 := by
  rcases h0.lt_or_eq with h0 | rfl
  · rcases h1.lt_or_eq with h1 | rfl
    · rw [ease_of_mem (by linarith) (by linarith), ease_of_mem h0 h1, newton_one_sub,
        sample_zero_one_one_sub]
    · rw [ease_of_nonpos (by norm_num), ease_of_one_le le_rfl]
      norm_num
  · rw [ease_of_one_le (by norm_num), ease_of_nonpos le_rfl]
    norm_num

theorem apply_bezier (x : ℚ) : Easing.bezier.apply x = ease (clampUnit x) 0.5 0.0 0.5 1.0 := rfl

/-- **The ease of `Easing.bezier` on exact rationals.** For every `x ∈ (0, 1)`: each of the
eight Newton iterates from `x` lies in `[0, 1]` with slope at least `0.75` there, so the
flat-slope stop never fires; after them the abscissa is within `10⁻⁹` of `x`, so the bisection
returns at its first test; and the eased value lies in `[0, 1]`. Up to `0` the ease is `0`, from
`1` on it is `1`, and the eased fraction of `1 - x` is `1` minus that of `x`. -/
theorem bezier_ease_exact (x : ℚ) :
    (0 < x → x < 1 →
      (∀ k ≤ 8, 0 ≤ newton (0.5 : ℚ) 0.5 x k x ∧ newton (0.5 : ℚ) 0.5 x k x ≤ 1 ∧
        0.75 ≤ slope (0.5 : ℚ) 0.5 (newton 0.5 0.5 x k x) ∧
        ¬ |slope (0.5 : ℚ) 0.5 (newton 0.5 0.5 x k x)| < 1e-7) ∧
      |sample (0.5 : ℚ) 0.5 (newton 0.5 0.5 x 8 x) - x| < 1e-9 ∧
      solve (0.5 : ℚ) 0.5 x = newton 0.5 0.5 x 8 x ∧
      0 ≤ ease x (0.5 : ℚ) 0.0 0.5 1.0 ∧ ease x (0.5 : ℚ) 0.0 0.5 1.0 ≤ 1) ∧
    (x ≤ 0 → ease x (0.5 : ℚ) 0.0 0.5 1.0 = 0 ∧ Easing.bezier.apply x = 0) ∧
    (1 ≤ x → ease x (0.5 : ℚ) 0.0 0.5 1.0 = 1 ∧ Easing.bezier.apply x = 1) ∧
    Easing.bezier.apply (1 - x) = 1 - Easing.bezier.apply x := by
  refine ⟨fun h0 h1 => ?inside, fun h => ?low, fun h => ?high, ?mirror⟩
  case inside =>
    have hrun := fun k => newton_residual h0.le h1.le k h0.le h1.le
      (abs_residual_start h0.le h1.le) (by norm_num)
    have hval := sample_zero_one_mem (hrun 8).1 (hrun 8).2.1
    refine ⟨fun k _ => ⟨(hrun k).1, (hrun k).2.1, ?_, not_abs_slope_lt _⟩,
      abs_residual_newton_eight h0.le h1.le, solve_eq_newton h0.le h1.le, ?_, ?_⟩
    · have := three_quarters_le_slope (newton (0.5 : ℚ) 0.5 x k x)
      norm_num
      linarith
    · rw [ease_of_mem h0 h1]
      exact hval.1
    · rw [ease_of_mem h0 h1]
      exact hval.2
  case low =>
    have hc : clampUnit x = 0 := by
      rcases h.lt_or_eq with h | rfl
      · exact clampUnit_of_neg h
      · exact clampUnit_of_mem le_rfl zero_le_one
    rw [apply_bezier, hc]
    exact ⟨ease_of_nonpos h, ease_of_nonpos le_rfl⟩
  case high =>
    have hc : clampUnit x = 1 := by
      rcases h.lt_or_eq with h | rfl
      · exact clampUnit_of_one_lt h
      · exact clampUnit_of_mem zero_le_one le_rfl
    rw [apply_bezier, hc]
    exact ⟨ease_of_one_le h, ease_of_one_le le_rfl⟩
  case mirror =>
    rw [apply_bezier, apply_bezier, clampUnit_one_sub,
      ease_one_sub (clampUnit_mem x).1 (clampUnit_mem x).2]

end Bezier

end RegionTrack
