import Mathlib.Tactic.Ring
import Storyboard.Proofs.Number.Exact
import Storyboard.Timeline.Operation

/-!
# Progress

No curve goes below zero, and so no cue makes less than no progress; once it has begun, a curve is
above zero. The curve of a sine needs of its wave that it stays below one.
-/

namespace Storyboard

variable {T G : Type} [ExactScalar T]

namespace ExactScalar

theorem decimal_nonneg (m n : Nat) :
    0 ≤ @OfScientific.ofScientific T Scalar.instOfScientific m true n := by
  rw [decimal_eq]
  exact mul_nonneg (Nat.cast_nonneg m) (zpow_nonneg (Nat.cast_nonneg 10) _)

theorem decimal_pos {m : Nat} (positive : 0 < m) (n : Nat) :
    0 < @OfScientific.ofScientific T Scalar.instOfScientific m true n := by
  rw [decimal_eq]
  exact mul_pos (Nat.cast_pos.mpr positive) (zpow_pos (Nat.cast_pos.mpr (by norm_num)) _)

end ExactScalar

namespace Ease

open ExactScalar

theorem square_mem {x : T} (low : 0 ≤ x) (high : x ≤ 1) : 0 ≤ square x ∧ square x ≤ 1 :=
  ⟨mul_nonneg low low, mul_le_one₀ high low high⟩

theorem cube_mem {x : T} (low : 0 ≤ x) (high : x ≤ 1) : 0 ≤ cube x ∧ cube x ≤ 1 :=
  ⟨mul_nonneg (mul_nonneg low low) low, mul_le_one₀ (mul_le_one₀ high low high) low high⟩

theorem le_parabola {n : T} (steep : 0 ≤ n) (x height : T) : height ≤ n * x * x + height := by
  have square : 0 ≤ n * (x * x) := mul_nonneg steep (mul_self_nonneg x)
  linarith [mul_assoc n x x]

theorem bounce_nonneg (t : T) : 0 ≤ bounce t := by
  have steep := decimal_nonneg (T := T) 75625 4
  unfold bounce
  dsimp only
  split
  · simpa using le_parabola steep t 0
  · split
    · exact (decimal_nonneg 75 2).trans (le_parabola steep _ _)
    · split
      · exact (decimal_nonneg 9375 4).trans (le_parabola steep _ _)
      · exact (decimal_nonneg 984375 6).trans (le_parabola steep _ _)

theorem bounce_pos {t : T} (late : 0 < t) : 0 < bounce t := by
  have steep := decimal_nonneg (T := T) 75625 4
  unfold bounce
  dsimp only
  split
  · exact mul_pos (mul_pos (decimal_pos (by norm_num) 4) late) late
  · split
    · exact (decimal_pos (by norm_num) 2).trans_le (le_parabola steep _ _)
    · split
      · exact (decimal_pos (by norm_num) 4).trans_le (le_parabola steep _ _)
      · exact (decimal_pos (by norm_num) 6).trans_le (le_parabola steep _ _)

theorem back_factors (c t : T) : 1 + (c + 1) * cube (t - 1) + c * square (t - 1) =
    t * ((c + 1) * ((t - 1) * (t - 1)) + (1 - (t - 1))) := by
  simp only [cube, square]
  ring

/-- The backward swing goes below the start only before zero. -/
theorem back_nonneg {c t : T} (swing : 0 ≤ c) (low : 0 ≤ t) (high : t ≤ 1) :
    0 ≤ 1 + (c + 1) * cube (t - 1) + c * square (t - 1) := by
  have curved : 0 ≤ (c + 1) * ((t - 1) * (t - 1)) :=
    mul_nonneg (by linarith) (mul_self_nonneg _)
  rw [back_factors]
  exact mul_nonneg low (by linarith)

theorem half_eq : @OfScientific.ofScientific T Scalar.instOfScientific 5 true 1 = 1 / 2 := by
  rw [decimal_eq]
  norm_num

theorem onUnit_nonneg (wave : ∀ x : T, 0 ≤ x → x ≤ 1 → Scalar.cosPi x ≤ 1) (e : Ease) {t : T}
    (low : 0 ≤ t) (high : t ≤ 1) : 0 ≤ e.onUnit t := by
  have rest_low : 0 ≤ 1 - t := by linarith
  have rest_high : 1 - t ≤ 1 := by linarith
  have late (more : ¬ t < 1 / 2) : 0 ≤ -2 * t + 2 ∧ -2 * t + 2 ≤ 1 := by
    constructor <;> linarith [not_lt.mp more]
  cases e with
  | linear => exact low
  | inQuad => exact mul_nonneg low low
  | inCubic => exact mul_nonneg (mul_nonneg low low) low
  | outQuad =>
    have square := (square_mem rest_low rest_high).2
    simp only [onUnit, one_eq]
    exact sub_nonneg.mpr square
  | outCubic =>
    have cube := (cube_mem rest_low rest_high).2
    simp only [onUnit, one_eq]
    exact sub_nonneg.mpr cube
  | inOutQuad =>
    simp only [onUnit, one_eq, half_eq]
    split
    · positivity
    · next more =>
      have square := (square_mem (late more).1 (late more).2).2
      linarith
  | inOutCubic =>
    simp only [onUnit, one_eq, half_eq]
    split
    · positivity
    · next more =>
      have cube := (cube_mem (late more).1 (late more).2).2
      linarith
  | outBack =>
    simp only [onUnit, one_eq]
    exact back_nonneg (decimal_nonneg 170158 5) low high
  | outBounce => exact bounce_nonneg t
  | inOutSine =>
    have below := wave t low high
    simp only [onUnit, one_eq]
    linarith

theorem back_pos {c t : T} (swing : 0 ≤ c) (late : 0 < t) (high : t ≤ 1) :
    0 < 1 + (c + 1) * cube (t - 1) + c * square (t - 1) := by
  rw [back_factors]
  have curved : 0 ≤ (c + 1) * ((t - 1) * (t - 1)) :=
    mul_nonneg (by linarith) (mul_self_nonneg _)
  exact mul_pos late (by linarith)

theorem square_lt_one {x : T} (low : 0 ≤ x) (high : x < 1) : square x < 1 :=
  mul_lt_one_of_nonneg_of_lt_one_left low high high.le

theorem cube_lt_one {x : T} (low : 0 ≤ x) (high : x < 1) : cube x < 1 :=
  mul_lt_one_of_nonneg_of_lt_one_right (square_lt_one low high).le low high

/-- A curve is above zero once it has begun. -/
theorem onUnit_pos (wave : ∀ x : T, 0 < x → x ≤ 1 → Scalar.cosPi x < 1) (e : Ease) {t : T}
    (late : 0 < t) (high : t ≤ 1) : 0 < e.onUnit t := by
  have rest_low : 0 ≤ 1 - t := by linarith
  have rest_high : 1 - t < 1 := by linarith
  have second (more : ¬ t < 1 / 2) : 0 ≤ -2 * t + 2 ∧ -2 * t + 2 ≤ 1 := by
    constructor <;> linarith [not_lt.mp more]
  cases e with
  | linear => exact late
  | inQuad => exact mul_pos late late
  | inCubic => exact mul_pos (mul_pos late late) late
  | outQuad =>
    simp only [onUnit, one_eq]
    exact sub_pos.mpr (square_lt_one rest_low rest_high)
  | outCubic =>
    simp only [onUnit, one_eq]
    exact sub_pos.mpr (cube_lt_one rest_low rest_high)
  | inOutQuad =>
    simp only [onUnit, one_eq, half_eq]
    split
    · positivity
    · next more =>
      have square := (square_mem (second more).1 (second more).2).2
      linarith
  | inOutCubic =>
    simp only [onUnit, one_eq, half_eq]
    split
    · positivity
    · next more =>
      have cube := (cube_mem (second more).1 (second more).2).2
      linarith
  | outBack =>
    simp only [onUnit, one_eq]
    exact back_pos (decimal_nonneg 170158 5) late high
  | outBounce => exact bounce_pos late
  | inOutSine =>
    have below := wave t late high
    simp only [onUnit, one_eq]
    linarith

theorem apply_pos (wave : ∀ x : T, 0 < x → x ≤ 1 → Scalar.cosPi x < 1) (e : Ease) {t : T}
    (late : 0 < t) (high : t ≤ 1) : 0 < e.apply t := by
  unfold apply
  rw [zero_eq, one_eq, clamp_of_mem late.le high]
  exact onUnit_pos wave e late high

theorem apply_nonneg (wave : ∀ x : T, 0 ≤ x → x ≤ 1 → Scalar.cosPi x ≤ 1) (e : Ease) (t : T) :
    0 ≤ e.apply t := by
  have unit := clamp_mem t (zero_le_one (α := T))
  unfold apply
  rw [zero_eq, one_eq]
  exact onUnit_nonneg wave e unit.1 unit.2

end Ease

theorem Cue.progress_nonneg (wave : ∀ x : T, 0 ≤ x → x ≤ 1 → Scalar.cosPi x ≤ 1) (c : Cue T G)
    (time : T) : 0 ≤ c.progress time := by
  unfold progress
  split
  · simp
  · split
    · simp
    · exact Ease.apply_nonneg wave c.ease _

/-- A cue makes progress as soon as it has started. -/
theorem Cue.progress_pos (wave : ∀ x : T, 0 < x → x ≤ 1 → Scalar.cosPi x < 1) {c : Cue T G}
    {time : T} (started : c.start < time) : 0 < c.progress time := by
  unfold progress
  rw [if_neg (not_lt.mpr started.le)]
  split
  · simp
  · next going =>
    have passed : 0 < time - c.start := sub_pos.mpr started
    have left : time - c.start < c.duration := by
      rw [stop, not_le] at going
      exact sub_lt_iff_lt_add'.mpr going
    have lasting : 0 < c.duration := passed.trans left
    exact Ease.apply_pos wave c.ease (div_pos passed lasting) ((div_le_one lasting).mpr left.le)

end Storyboard
