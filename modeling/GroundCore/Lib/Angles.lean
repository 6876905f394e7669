import Mathlib.Analysis.SpecialFunctions.Trigonometric.Inverse
import Mathlib.Tactic.FieldSimp

/-! Angles in degrees and in radians, and remainders of real numbers. -/

namespace GroundCore.Lib.Angles

open Real

noncomputable section

def toRadians (x : ℝ) : ℝ := x * (π / 180)

def toDegrees (x : ℝ) : ℝ := x * (180 / π)

/-- The remainder with the sign of `x`. -/
def fmod (x y : ℝ) : ℝ := x - y * (if 0 ≤ x / y then ⌊x / y⌋ else ⌈x / y⌉ : ℤ)

/-- The remainder that is not negative. -/
def remEuclid (x y : ℝ) : ℝ := x - |y| * ⌊x / |y|⌋

theorem toDegrees_inj {x y : ℝ} : toDegrees x = toDegrees y ↔ x = y :=
  mul_left_inj' (by positivity)

theorem toDegrees_arcsin_eq_ninety {q : ℝ} : toDegrees (arcsin q) = 90 ↔ 1 ≤ q := by
  have hninety : (90 : ℝ) = toDegrees (π / 2) := by
    rw [toDegrees]
    field_simp
    norm_num
  rw [hninety, toDegrees_inj, arcsin_eq_pi_div_two]

theorem toRadians_ninety : toRadians 90 = π / 2 := by
  rw [toRadians]
  ring

end

end GroundCore.Lib.Angles
