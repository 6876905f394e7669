import Mathlib

/-! The unscented transform: the weighted mean and covariance of the images of points that are
spread around a centre.  The centre's weight may be negative, but the weighted variance is that of
the deviations from the image of the centre, so it is not. -/

namespace GroundCore.Lib.UnscentedTransform

open Matrix

variable {κ : Type*} [Fintype κ]

/-- The mean of `a` at the centre and `b` around it. -/
def mean (w₀ w a : ℝ) (b : κ → ℝ) : ℝ := w₀ * a + ∑ i, w * b i

/-- The variance of `a` at the centre and `b` around it, with weight `c₀` for the centre. -/
def variance (w₀ c₀ w a : ℝ) (b : κ → ℝ) : ℝ :=
  c₀ * (a - mean w₀ w a b) ^ 2 + ∑ i, w * (b i - mean w₀ w a b) ^ 2

variable {w₀ c₀ w a : ℝ} {b : κ → ℝ}

/-- The centre's weights cancel: what is left are the deviations from the centre and a multiple of
its own deviation from the mean. -/
theorem variance_eq (hsum : w₀ + Fintype.card κ * w = 1) :
    variance w₀ c₀ w a b =
      ∑ i, w * (b i - a) ^ 2 + (c₀ - w₀ - 1) * (a - mean w₀ w a b) ^ 2 := by
  have hmean : mean w₀ w a b - a = ∑ i, w * (b i - a) := by
    unfold mean
    simp only [mul_sub, Finset.sum_sub_distrib, Finset.sum_const, Finset.card_univ, nsmul_eq_mul]
    have hcenter : Fintype.card κ * (w * a) = (1 - w₀) * a := by
      rw [← hsum]
      ring
    rw [hcenter]
    ring
  have hspread : ∀ i, w * (b i - mean w₀ w a b) ^ 2 =
      w * (b i - a) ^ 2 - 2 * (mean w₀ w a b - a) * (w * (b i - a)) +
        w * (mean w₀ w a b - a) ^ 2 := by
    intro i
    ring
  unfold variance
  simp only [hspread, Finset.sum_add_distrib, Finset.sum_sub_distrib, ← Finset.mul_sum, ← hmean,
    Finset.sum_const, Finset.card_univ, nsmul_eq_mul]
  have hcard : Fintype.card κ * w = 1 - w₀ := by
    rw [← hsum]
    ring
  linear_combination (mean w₀ w a b - a) ^ 2 * hcard

/-- When the centre weighs at least one more for the variance than for the mean, the variance is no
less than that of the deviations from the centre. -/
theorem le_variance (hsum : w₀ + Fintype.card κ * w = 1) (hc : w₀ + 1 ≤ c₀) :
    ∑ i, w * (b i - a) ^ 2 ≤ variance w₀ c₀ w a b := by
  rw [variance_eq hsum]
  have hnonneg : 0 ≤ (c₀ - w₀ - 1) * (a - mean w₀ w a b) ^ 2 :=
    mul_nonneg (by linarith) (sq_nonneg _)
  linarith

theorem variance_nonneg (hsum : w₀ + Fintype.card κ * w = 1) (hc : w₀ + 1 ≤ c₀) (hw : 0 ≤ w) :
    0 ≤ variance w₀ c₀ w a b :=
  (Finset.sum_nonneg fun _ _ => mul_nonneg hw (sq_nonneg _)).trans (le_variance hsum hc)

/-- The variance vanishes exactly when nothing deviates from the centre. -/
theorem variance_eq_zero_iff (hsum : w₀ + Fintype.card κ * w = 1) (hc : w₀ + 1 ≤ c₀) (hw : 0 < w) :
    variance w₀ c₀ w a b = 0 ↔ ∀ i, b i = a := by
  constructor
  · intro hzero i
    have hle := le_variance (a := a) (b := b) hsum hc
    rw [hzero] at hle
    have hterms : ∀ i ∈ Finset.univ, 0 ≤ w * (b i - a) ^ 2 :=
      fun _ _ => mul_nonneg hw.le (sq_nonneg _)
    have hall := (Finset.sum_eq_zero_iff_of_nonneg hterms).mp
      (le_antisymm hle (Finset.sum_nonneg hterms))
    have hsq : (b i - a) ^ 2 = 0 := by simpa [hw.ne'] using hall i (Finset.mem_univ i)
    exact sub_eq_zero.mp (pow_eq_zero_iff two_ne_zero |>.mp hsq)
  · intro hall
    rw [variance_eq hsum]
    have hmean : mean w₀ w a b = a := by
      simp only [mean, hall, Finset.sum_const, Finset.card_univ, nsmul_eq_mul]
      linear_combination a * hsum
    simp [hall, hmean]

/-- Cauchy–Schwarz: the covariance with numbers that cancel around the centre is bounded by the
variances. -/
theorem sq_covariance_le (hsum : w₀ + Fintype.card κ * w = 1) (hc : w₀ + 1 ≤ c₀) (hw : 0 ≤ w)
    {x : κ → ℝ} (hx : ∑ i, x i = 0) :
    (∑ i, w * (b i - mean w₀ w a b) * x i) ^ 2 ≤
      (∑ i, w * x i ^ 2) * variance w₀ c₀ w a b := by
  have hcenter : ∑ i, w * (b i - mean w₀ w a b) * x i = w * ∑ i, (b i - a) * x i := by
    have hterm : ∀ i, w * (b i - mean w₀ w a b) * x i =
        w * ((b i - a) * x i) + w * (a - mean w₀ w a b) * x i := by
      intro i
      ring
    simp only [hterm, Finset.sum_add_distrib, ← Finset.mul_sum, hx, mul_zero, add_zero]
  have hdeviations : 0 ≤ ∑ i, w * x i ^ 2 :=
    Finset.sum_nonneg fun _ _ => mul_nonneg hw (sq_nonneg _)
  calc (∑ i, w * (b i - mean w₀ w a b) * x i) ^ 2
      = w ^ 2 * (∑ i, (b i - a) * x i) ^ 2 := by rw [hcenter, mul_pow]
    _ ≤ w ^ 2 * ((∑ i, (b i - a) ^ 2) * ∑ i, x i ^ 2) :=
        mul_le_mul_of_nonneg_left (Finset.sum_mul_sq_le_sq_mul_sq _ _ _) (sq_nonneg w)
    _ = (∑ i, w * x i ^ 2) * ∑ i, w * (b i - a) ^ 2 := by
        simp only [← Finset.mul_sum]
        ring
    _ ≤ (∑ i, w * x i ^ 2) * variance w₀ c₀ w a b :=
        mul_le_mul_of_nonneg_left (le_variance hsum hc) hdeviations

end GroundCore.Lib.UnscentedTransform
