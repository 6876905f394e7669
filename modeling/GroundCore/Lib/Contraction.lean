import Mathlib.Analysis.Real.Sqrt
import Mathlib.Analysis.SpecificLimits.Basic

/-! Sequences with a measure that every step brings down to at most a fixed part of itself. -/

namespace GroundCore.Lib

open Filter Topology

variable {measure : ℕ → ℝ} {ratio : ℝ}

/-- The measure tends to zero. -/
theorem tendsto_measure_zero (hnonneg : ∀ n, 0 ≤ measure n) (hratio : 0 ≤ ratio)
    (hlt : ratio < 1) (hstep : ∀ n, measure (n + 1) ≤ ratio * measure n) :
    Tendsto measure atTop (𝓝 0) := by
  have hle : ∀ n, measure n ≤ ratio ^ n * measure 0 := fun n =>
    le_geom hratio n fun k _ => hstep k
  have hpow : Tendsto (fun n => ratio ^ n * measure 0) atTop (𝓝 0) := by
    simpa using (tendsto_pow_atTop_nhds_zero_of_lt_one hratio hlt).mul_const (measure 0)
  exact squeeze_zero hnonneg hle hpow

/-- So does what the measure bounds the square of. -/
theorem tendsto_zero_of_sq_le_measure {x : ℕ → ℝ} (hsq : ∀ n, x n ^ 2 ≤ measure n)
    (hratio : 0 ≤ ratio) (hlt : ratio < 1) (hstep : ∀ n, measure (n + 1) ≤ ratio * measure n) :
    Tendsto x atTop (𝓝 0) := by
  have hmeasure : Tendsto measure atTop (𝓝 0) :=
    tendsto_measure_zero (fun n => (sq_nonneg _).trans (hsq n)) hratio hlt hstep
  have hsquare : Tendsto (fun n => x n ^ 2) atTop (𝓝 0) :=
    squeeze_zero (fun n => sq_nonneg _) hsq hmeasure
  have habs : Tendsto (fun n => |x n|) atTop (𝓝 0) := by
    simpa [Real.sqrt_sq_eq_abs] using hsquare.sqrt
  exact (tendsto_zero_iff_abs_tendsto_zero x).mpr habs

end GroundCore.Lib
