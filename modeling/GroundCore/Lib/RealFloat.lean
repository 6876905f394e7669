import Mathlib.Data.Real.Basic
import Mathlib.Tactic.Linarith
import GroundCore.Lib.FloatOps

/-! Arithmetic on real numbers without rounding, whatever the functions of an angle are. -/

namespace GroundCore.Lib

/-- `val x` is the real number that `x` stands for. -/
class RealFloat (F64 : Type) (F32 : outParam Type) [FloatOps F64 F32] where
  val : F64 → ℝ
  lt_iff (x y : F64) : FloatOps.lt x y = true ↔ val x < val y
  le_iff (x y : F64) : FloatOps.le x y = true ↔ val x ≤ val y
  val_lit (q : ℚ) : val (FloatOps.lit q : F64) = q
  val_add (x y : F64) : val (x + y) = val x + val y
  val_sub (x y : F64) : val (x - y) = val x - val y
  val_div (x y : F64) : val y ≠ 0 → val (x / y) = val x / val y
  val_abs (x : F64) : val (FloatOps.abs x) = |val x|

namespace RealFloat

/-- The rational numbers. -/
@[reducible] noncomputable def exact (cos sin : ℚ → ℚ) :
    letI := FloatOps.exact cos sin
    RealFloat ℚ ℚ :=
  letI := FloatOps.exact cos sin
  { val := fun x => (x : ℝ)
    lt_iff := fun _ _ => decide_eq_true_iff.trans Rat.cast_lt.symm
    le_iff := fun _ _ => decide_eq_true_iff.trans Rat.cast_le.symm
    val_lit := fun _ => rfl
    val_add := Rat.cast_add
    val_sub := Rat.cast_sub
    val_div := fun x y _ => Rat.cast_div x y
    val_abs := Rat.cast_abs }

variable {F64 F32 : Type} [FloatOps F64 F32] [RealFloat F64 F32]

theorem lt_eq_false_iff (x y : F64) : FloatOps.lt x y = false ↔ val y ≤ val x := by
  rw [← Bool.not_eq_true, lt_iff, not_lt]

/-- Clamping to an interval around zero, and then dropping the sign, limits the absolute value. -/
theorem val_abs_clamp {x low high : F64} (hsymm : val low = -val high) (hhigh : 0 ≤ val high) :
    val (FloatOps.abs (FloatOps.clamp x low high)) = min |val x| (val high) := by
  rw [val_abs, FloatOps.clamp]
  cases hlow : FloatOps.lt x low with
  | true =>
    rw [lt_iff, hsymm] at hlow
    have hend : FloatOps.lt high low = false := by
      rw [lt_eq_false_iff, hsymm]
      linarith
    have hmin : val high ≤ |val x| := le_abs.mpr (.inr (by linarith))
    simp only [hend, if_true, Bool.false_eq_true, if_false]
    rw [hsymm, abs_neg, abs_of_nonneg hhigh, min_eq_right hmin]
  | false =>
    rw [lt_eq_false_iff, hsymm] at hlow
    cases hend : FloatOps.lt high x with
    | true =>
      have hle := ((lt_iff high x).mp hend).le
      simp only [hend, if_true, Bool.false_eq_true, if_false]
      rw [abs_of_nonneg hhigh, min_eq_right (hle.trans (le_abs_self _))]
    | false =>
      have hle := (lt_eq_false_iff high x).mp hend
      simp only [hend, Bool.false_eq_true, if_false]
      rw [min_eq_left (abs_le.mpr ⟨hlow, hle⟩)]

end RealFloat

/-- Real numbers with exact products as well. -/
class RealArithmetic (F64 : Type) (F32 : outParam Type) [FloatOps F64 F32] extends
    RealFloat F64 F32 where
  val_mul (x y : F64) : val (x * y) = val x * val y

namespace RealArithmetic

open RealFloat

/-- The rational numbers. -/
@[reducible] noncomputable def exact (cos sin : ℚ → ℚ) :
    letI := FloatOps.exact cos sin
    RealArithmetic ℚ ℚ :=
  letI := FloatOps.exact cos sin
  { RealFloat.exact cos sin with val_mul := Rat.cast_mul }

variable {F64 F32 : Type} [FloatOps F64 F32] [RealArithmetic F64 F32]

theorem val_clamp {x low high : F64} (hle : val low ≤ val high) :
    val (FloatOps.clamp x low high) = max (val low) (min (val x) (val high)) := by
  rw [FloatOps.clamp]
  cases hlow : FloatOps.lt x low with
  | true =>
    rw [lt_iff] at hlow
    have hend : FloatOps.lt high low = false := (lt_eq_false_iff high low).mpr hle
    simp only [hend, if_true, Bool.false_eq_true, if_false]
    rw [max_eq_left ((min_le_left _ _).trans hlow.le)]
  | false =>
    rw [lt_eq_false_iff] at hlow
    cases hend : FloatOps.lt high x with
    | true =>
      have hhigh := ((lt_iff high x).mp hend).le
      simp only [hend, if_true, Bool.false_eq_true, if_false]
      rw [min_eq_right hhigh, max_eq_right hle]
    | false =>
      have hhigh := (lt_eq_false_iff high x).mp hend
      simp only [hend, Bool.false_eq_true, if_false]
      rw [min_eq_left hhigh, max_eq_right hlow]

end RealArithmetic

end GroundCore.Lib
