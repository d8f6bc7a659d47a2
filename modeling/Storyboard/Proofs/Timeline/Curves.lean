import Mathlib.Analysis.Normed.Field.Lemmas
import Mathlib.Topology.Algebra.Order.Field
import Storyboard.Proofs.Timeline.Ease

/-!
# Curves

Every curve but the wave of a cosine leads from zero to one without a jump. It stays between the
two, apart from the swing of `outBack`, which goes above one by a tenth. The linear, quadratic and
cubic curves are powers, from either end or from both, and so they never turn back.
-/

namespace Storyboard

variable {T : Type} [ExactScalar T]

open ExactScalar

namespace Ease

/-- Whether the curve is made of a power of the time. -/
def isPower : Ease → Bool
  | linear | inQuad | outQuad | inOutQuad | inCubic | outCubic | inOutCubic => true
  | outBack | outBounce | inOutSine => false

/-! ### Powers -/

def powerIn (n : Nat) (t : T) : T := t ^ n

def powerOut (n : Nat) (t : T) : T := 1 - (1 - t) ^ n

def powerInOut (n : Nat) (t : T) : T :=
  if t < 1 / 2 then (2 * t) ^ n / 2 else 1 - (2 - 2 * t) ^ n / 2

theorem inOutQuad_eq : (inOutQuad.onUnit : T → T) = powerInOut 2 := by
  funext t
  simp only [onUnit, powerInOut, square, half_eq, one_eq]
  congr 1 <;> ring

theorem inOutCubic_eq : (inOutCubic.onUnit : T → T) = powerInOut 3 := by
  funext t
  simp only [onUnit, powerInOut, cube, half_eq, one_eq]
  congr 1 <;> ring

theorem onUnit_power {e : Ease} (power : e.isPower = true) : ∃ n, n ≠ 0 ∧
    ((e.onUnit : T → T) = powerIn n ∨ (e.onUnit : T → T) = powerOut n ∨
      (e.onUnit : T → T) = powerInOut n) := by
  cases e with
  | linear => exact ⟨1, one_ne_zero, .inl (funext fun t => (pow_one t).symm)⟩
  | inQuad => exact ⟨2, two_ne_zero, .inl (funext fun t => (pow_two t).symm)⟩
  | inCubic => exact ⟨3, three_ne_zero, .inl (funext fun t => (pow_three' t).symm)⟩
  | outQuad =>
    refine ⟨2, two_ne_zero, .inr (.inl (funext fun t => ?_))⟩
    rw [powerOut, pow_two, ← one_eq]
    rfl
  | outCubic =>
    refine ⟨3, three_ne_zero, .inr (.inl (funext fun t => ?_))⟩
    rw [powerOut, pow_three', ← one_eq]
    rfl
  | inOutQuad => exact ⟨2, two_ne_zero, .inr (.inr inOutQuad_eq)⟩
  | inOutCubic => exact ⟨3, three_ne_zero, .inr (.inr inOutCubic_eq)⟩
  | outBack | outBounce | inOutSine => cases power

theorem powerIn_mono (n : Nat) : MonotoneOn (powerIn n : T → T) (Set.Icc 0 1) :=
  fun _ low _ _ le => pow_le_pow_left₀ low.1 le n

theorem powerOut_mono (n : Nat) : MonotoneOn (powerOut n : T → T) (Set.Icc 0 1) := by
  intro s _ t high le
  exact sub_le_sub_left (pow_le_pow_left₀ (sub_nonneg.mpr high.2) (sub_le_sub_left le 1) n) 1

theorem powerInOut_mono (n : Nat) : MonotoneOn (powerInOut n : T → T) (Set.Icc 0 1) := by
  intro s low t high le
  have start : 0 ≤ 2 * s := by linarith [low.1]
  have stop : 0 ≤ 2 - 2 * t := by linarith [high.2]
  unfold powerInOut
  by_cases early : t < 1 / 2
  · rw [if_pos (le.trans_lt early), if_pos early]
    have power : (2 * s) ^ n ≤ (2 * t) ^ n := pow_le_pow_left₀ start (by linarith) n
    linarith
  · rw [if_neg early]
    split
    · -- The middle, where half of the way is done, lies between the two times.
      next before =>
      have first : (2 * s) ^ n ≤ 1 := pow_le_one₀ start (by linarith)
      have second : (2 - 2 * t) ^ n ≤ 1 := pow_le_one₀ stop (by linarith [not_lt.mp early])
      linarith
    · have power : (2 - 2 * t) ^ n ≤ (2 - 2 * s) ^ n := pow_le_pow_left₀ stop (by linarith) n
      linarith

theorem onUnit_mono {e : Ease} (power : e.isPower = true) :
    MonotoneOn (e.onUnit : T → T) (Set.Icc 0 1) := by
  obtain ⟨n, _, same | same | same⟩ := onUnit_power (T := T) power
  · exact same ▸ powerIn_mono n
  · exact same ▸ powerOut_mono n
  · exact same ▸ powerInOut_mono n

theorem onUnit_power_ends {e : Ease} (power : e.isPower = true) :
    e.onUnit (0 : T) = 0 ∧ e.onUnit (1 : T) = 1 := by
  obtain ⟨n, some, same | same | same⟩ := onUnit_power (T := T) power
  · rw [same]
    exact ⟨zero_pow some, one_pow n⟩
  · rw [same]
    simp [powerOut, some]
  · have early : (0 : T) < 1 / 2 := by norm_num
    have late : ¬(1 : T) < 1 / 2 := by norm_num
    rw [same, powerInOut, powerInOut, if_pos early, if_neg late]
    simp [some]

/-! ### The swing and the bounce -/

theorem outBack_eq : (outBack.onUnit : T → T) = fun t =>
    1 + (85079 / 50000 + 1) * cube (t - 1) + 85079 / 50000 * square (t - 1) := by
  have swing : @OfScientific.ofScientific T Scalar.instOfScientific 170158 true 5 =
      85079 / 50000 := by
    rw [decimal_eq]
    norm_num
  funext t
  simp only [onUnit, swing, one_eq]

/-- The highest point of the swing is a double root of what is left of it. -/
theorem back_gap {c : T} (positive : 0 < c + 1) (t : T) : 1 + 4 * c ^ 3 / (27 * (c + 1) ^ 2) -
    (1 + (c + 1) * cube (t - 1) + c * square (t - 1)) =
      (c + 1) * (1 - t - 2 * c / (3 * (c + 1))) ^ 2 * (1 - t + c / (3 * (c + 1))) := by
  simp only [cube, square]
  field_simp
  ring

theorem back_le {c t : T} (swing : 0 ≤ c) (high : t ≤ 1) :
    1 + (c + 1) * cube (t - 1) + c * square (t - 1) ≤ 1 + 4 * c ^ 3 / (27 * (c + 1) ^ 2) := by
  have positive : 0 < c + 1 := by linarith
  have rest : 0 ≤ 1 - t := sub_nonneg.mpr high
  refine sub_nonneg.mp ?_
  rw [back_gap positive]
  positivity

theorem outBack_le {t : T} (high : t ≤ 1) : outBack.onUnit t ≤ 1101 / 1000 := by
  rw [outBack_eq]
  refine (back_le (by norm_num) high).trans ?_
  norm_num

/-- A parabola over its lowest point. -/
def arc (lowest height t : T) : T := 121 / 16 * (t - lowest) ^ 2 + height

theorem outBounce_eq : (outBounce.onUnit : T → T) = fun t =>
    if t < 4 / 11 then arc 0 0 t
    else if t < 8 / 11 then arc (6 / 11) (3 / 4) t
    else if t < 10 / 11 then arc (9 / 11) (15 / 16) t
    else arc (21 / 22) (63 / 64) t := by
  funext t
  simp only [onUnit, bounce, arc, decimal_eq, one_eq, pow_two, ← mul_assoc]
  norm_num

theorem arc_le (reach : T) {lowest height t : T} (near : |t - lowest| ≤ reach)
    (level : 121 / 16 * reach ^ 2 + height ≤ 1) : arc lowest height t ≤ 1 := by
  have square : (t - lowest) ^ 2 ≤ reach ^ 2 := sq_le_sq' (abs_le.mp near).1 (abs_le.mp near).2
  unfold arc
  linarith

theorem outBounce_le {t : T} (low : 0 ≤ t) (high : t ≤ 1) : outBounce.onUnit t ≤ 1 := by
  rw [outBounce_eq]
  dsimp only
  split
  · exact arc_le (4 / 11) (abs_le.mpr ⟨by linarith, by linarith⟩) (by norm_num)
  · split
    · exact arc_le (2 / 11) (abs_le.mpr ⟨by linarith, by linarith⟩) (by norm_num)
    · split
      · exact arc_le (1 / 11) (abs_le.mpr ⟨by linarith, by linarith⟩) (by norm_num)
      · exact arc_le (1 / 22) (abs_le.mpr ⟨by linarith, by linarith⟩) (by norm_num)

/-! ### All curves -/

theorem isPower_or {e : Ease} (polynomial : e ≠ inOutSine) :
    e.isPower = true ∨ e = outBack ∨ e = outBounce := by
  cases e with
  | inOutSine => exact absurd rfl polynomial
  | outBack => exact .inr (.inl rfl)
  | outBounce => exact .inr (.inr rfl)
  | linear | inQuad | outQuad | inOutQuad | inCubic | outCubic | inOutCubic => exact .inl rfl

theorem onUnit_ends {e : Ease} (polynomial : e ≠ inOutSine) :
    e.onUnit (0 : T) = 0 ∧ e.onUnit (1 : T) = 1 := by
  obtain power | rfl | rfl := isPower_or polynomial
  · exact onUnit_power_ends power
  · rw [outBack_eq]
    norm_num [cube, square]
  · rw [outBounce_eq]
    norm_num [arc]

theorem onUnit_mem {e : Ease} (polynomial : e ≠ inOutSine) {t : T} (low : 0 ≤ t) (high : t ≤ 1) :
    0 ≤ e.onUnit t ∧ e.onUnit t ≤ if e = outBack then 1101 / 1000 else 1 := by
  obtain power | rfl | rfl := isPower_or polynomial
  · have other : e ≠ outBack := by
      rintro rfl
      cases power
    obtain ⟨first, last⟩ := onUnit_power_ends (T := T) power
    have zero : (0 : T) ∈ Set.Icc 0 1 := ⟨le_refl 0, zero_le_one⟩
    have one : (1 : T) ∈ Set.Icc 0 1 := ⟨zero_le_one, le_refl 1⟩
    rw [if_neg other]
    exact ⟨first.symm.trans_le (onUnit_mono power zero ⟨low, high⟩ low),
      (onUnit_mono power ⟨low, high⟩ one high).trans_eq last⟩
  · rw [if_pos rfl]
    refine ⟨?_, outBack_le high⟩
    rw [outBack_eq]
    exact back_nonneg (by norm_num) low high
  · exact ⟨bounce_nonneg t, outBounce_le low high⟩

theorem apply_eq (e : Ease) (t : T) : e.apply t = e.onUnit (max 0 (min t 1)) := by
  unfold apply
  rw [zero_eq, one_eq, clamp_eq t zero_le_one]

/-! ### Continuity -/

section

variable [TopologicalSpace T] [OrderTopology T]

/-- Two curves that meet make one without a jump. -/
theorem continuous_joined {f g : T → T} {b : T} (before : Continuous f) (after : Continuous g)
    (meet : f b = g b) : Continuous fun t => if t < b then f t else g t := by
  simp only [← not_le, ite_not]
  refine after.if_le before continuous_const continuous_id ?_
  rintro t rfl
  exact meet.symm

theorem continuous_powerInOut (n : Nat) : Continuous (powerInOut n : T → T) := by
  refine continuous_joined (by fun_prop) (by fun_prop) ?_
  norm_num

theorem continuous_arc (lowest height : T) : Continuous (arc lowest height) := by
  unfold arc
  fun_prop

theorem continuous_outBounce : Continuous (outBounce.onUnit : T → T) := by
  rw [outBounce_eq]
  refine continuous_joined (continuous_arc _ _) (continuous_joined (continuous_arc _ _)
    (continuous_joined (continuous_arc _ _) (continuous_arc _ _) ?_) ?_) ?_
  · norm_num [arc]
  · norm_num [arc]
  · norm_num [arc]

theorem continuous_onUnit {e : Ease} (polynomial : e ≠ inOutSine) :
    Continuous (e.onUnit : T → T) := by
  obtain power | rfl | rfl := isPower_or polynomial
  · obtain ⟨n, _, same | same | same⟩ := onUnit_power (T := T) power
    · exact same ▸ continuous_pow n
    · rw [same]
      exact continuous_const.sub ((continuous_const.sub continuous_id).pow n)
    · exact same ▸ continuous_powerInOut n
  · rw [outBack_eq]
    unfold cube square
    fun_prop
  · exact continuous_outBounce

/-- A curve other than the wave counts times before zero as zero and times after one as one. It
leads from zero to one without a jump and stays between them, but for the swing of `outBack`, which
ends below 1.101. Powers of the time never turn back. -/
theorem polynomial_curves (e : Ease) (polynomial : e ≠ inOutSine) :
    (∀ t : T, e.apply t = e.apply (max 0 (min t 1))) ∧
    e.apply (0 : T) = 0 ∧ e.apply (1 : T) = 1 ∧
    (∀ t : T, 0 ≤ e.apply t ∧ e.apply t ≤ if e = outBack then 1101 / 1000 else 1) ∧
    (e.isPower = true → Monotone (e.apply : T → T)) ∧ Continuous (e.apply : T → T) := by
  have unit (t : T) : 0 ≤ max 0 (min t 1) ∧ max 0 (min t 1) ≤ 1 :=
    ⟨le_max_left _ _, max_le zero_le_one (min_le_right t 1)⟩
  obtain ⟨first, last⟩ := onUnit_ends (T := T) polynomial
  refine ⟨fun t => ?_, ?_, ?_, fun t => ?_, fun power s t le => ?_, ?_⟩
  · obtain ⟨low, high⟩ := unit t
    rw [apply_eq, apply_eq, min_eq_left high, max_eq_right low]
  · rw [apply_eq, min_eq_left zero_le_one, max_self, first]
  · rw [apply_eq, min_self, max_eq_right zero_le_one, last]
  · rw [apply_eq]
    exact onUnit_mem polynomial (unit t).1 (unit t).2
  · rw [apply_eq, apply_eq]
    exact onUnit_mono power (unit s) (unit t) (max_le_max_left 0 (min_le_min_right 1 le))
  · have cut : Continuous fun t : T => max 0 (min t 1) := by fun_prop
    exact ((continuous_onUnit polynomial).comp cut).congr fun t => (e.apply_eq t).symm

theorem rational_curves :
    outBounce ≠ inOutSine ∧ outBounce.apply (2 : Rat) = outBounce.apply 1 ∧
    (∀ t : Rat, outBounce.apply t ≤ 1) ∧
    (∀ b ∈ [4 / 11, 8 / 11, 10 / 11], ContinuousAt (outBounce.apply : Rat → Rat) b) ∧
    (∀ t : Rat, outBack.apply t ≤ 1101 / 1000) ∧
    Monotone (inOutCubic.apply : Rat → Rat) ∧
    ContinuousAt (inOutCubic.apply : Rat → Rat) (1 / 2) := by
  have other : outBounce ≠ inOutSine := by decide
  obtain ⟨cut, _, _, bounds, _, bounce⟩ := polynomial_curves (T := Rat) outBounce other
  obtain ⟨_, _, _, swing, _⟩ := polynomial_curves (T := Rat) outBack (by decide)
  obtain ⟨_, _, _, _, mono, power⟩ := polynomial_curves (T := Rat) inOutCubic (by decide)
  have late : max (0 : Rat) (min 2 1) = 1 := by decide
  exact ⟨other, late ▸ cut 2, fun t => (bounds t).2, fun b _ => bounce.continuousAt,
    fun t => (swing t).2, mono rfl, power.continuousAt⟩

end
end Ease
end Storyboard
