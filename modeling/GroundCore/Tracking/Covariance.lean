import Mathlib
import GroundCore.Lib.Run
import GroundCore.Lib.UnscentedTransform
import GroundCore.Tracking.Ukf

/-! The covariance of the filter.  An update keeps it positive definite whatever is measured; a
prediction does exactly when the propagated points and the noise together leave no direction
without uncertainty. -/

namespace GroundCore.Tracking

open Matrix Lib

theorem scale_eq : (N : ℝ) + lambda = 0.06 := by
  norm_num [lambda, alpha, kappa]

theorem weights_sum :
    lambda / (N + lambda) + Fintype.card (Fin (N + N)) * (0.5 / (N + lambda)) = 1 := by
  rw [scale_eq]
  norm_num [lambda, alpha, kappa]

theorem center_weight :
    lambda / (N + lambda) + 1 ≤ lambda / (N + lambda) + (1 - alpha * alpha + beta) := by
  norm_num [alpha, beta]

theorem weight_pos : (0 : ℝ) < 0.5 / (N + lambda) := by
  rw [scale_eq]
  norm_num

/-- The weighted mean and variance of numbers at the sigma points. -/
theorem sum_weightsMean (a : Fin (N + N + 1) → ℝ) :
    ∑ i, weightsMean i * a i =
      UnscentedTransform.mean (lambda / (N + lambda)) (0.5 / (N + lambda)) (a 0)
        fun i : Fin (N + N) => a i.succ := by
  rw [Fin.sum_univ_succ]
  rfl

theorem sum_weightsCov (a : Fin (N + N + 1) → ℝ) :
    ∑ i, weightsCov i * (a i - ∑ j, weightsMean j * a j) ^ 2 =
      UnscentedTransform.variance (lambda / (N + lambda))
        (lambda / (N + lambda) + (1 - alpha * alpha + beta)) (0.5 / (N + lambda)) (a 0)
        fun i : Fin (N + N) => a i.succ := by
  rw [sum_weightsMean, Fin.sum_univ_succ]
  rfl

/-- A symmetric real matrix is positive definite when its quadratic form is. -/
theorem posDef_iff {P : Matrix6} :
    P.PosDef ↔ P.IsHermitian ∧ ∀ u : Vector6, u ≠ 0 → 0 < u ⬝ᵥ P *ᵥ u := by
  rw [posDef_iff_dotProduct_mulVec]
  simp only [star_trivial]

theorem quadratic_vecMulVec (u d : Vector6) : u ⬝ᵥ vecMulVec d d *ᵥ u = (u ⬝ᵥ d) ^ 2 := by
  rw [vecMulVec_mulVec, op_smul_eq_smul, dotProduct_smul, smul_eq_mul, dotProduct_comm d u, sq]

theorem isHermitian_vecMulVec (d : Vector6) : (vecMulVec d d).IsHermitian := by
  ext i j
  simp [vecMulVec_apply, mul_comm]

/-! ### Runs of calls -/

/-- The factor of a positive definite matrix multiplies back to it. -/
def Factors (cholesky : Cholesky) : Prop :=
  ∀ m : Matrix6, m.PosDef → ∃ l, cholesky m = some l ∧ l * lᵀ = m

/-- A state that the filter can work on. -/
structure Proper (s : UkfState) : Prop where
  covariance : s.covariance.PosDef
  processNoise : s.processNoise.PosSemidef
  measurementNoise : 0 < s.measurementNoise

/-- The call does not go back in time. -/
def UkfCall.Forward : UkfCall → Prop
  | .predict _ dtSec => 0 ≤ dtSec
  | .update _ _ => True

/-- A prediction leaves no direction without uncertainty: along each, some propagated point differs
from the propagated state, or noise is added. -/
def Excites (cholesky : Cholesky) (s : UkfState) : UkfCall → Prop
  | .predict propagate dtSec => ∀ u : Vector6, u ≠ 0 →
      (∃ i, u ⬝ᵥ propagate (s.sigmaPoints cholesky i) ≠ u ⬝ᵥ propagate s.state) ∨
        0 < dtSec * (u ⬝ᵥ s.processNoise *ᵥ u)
  | .update _ _ => True

variable {cholesky : Cholesky} {s : UkfState}

/-- The quadratic form of a predicted covariance. -/
theorem quadratic_predictWith (propagate : Vector6 → Vector6) (dtSec : ℝ) (u : Vector6) :
    u ⬝ᵥ (s.predictWith cholesky propagate dtSec).covariance *ᵥ u =
      UnscentedTransform.variance (lambda / (N + lambda))
        (lambda / (N + lambda) + (1 - alpha * alpha + beta)) (0.5 / (N + lambda))
        (u ⬝ᵥ propagate s.state)
        (fun i : Fin (N + N) => u ⬝ᵥ propagate (s.sigmaPoints cholesky i.succ)) +
      dtSec * (u ⬝ᵥ s.processNoise *ᵥ u) := by
  have hvariance := sum_weightsCov fun i => u ⬝ᵥ propagate (s.sigmaPoints cholesky i)
  have hcenter : s.sigmaPoints cholesky 0 = s.state := rfl
  rw [hcenter] at hvariance
  rw [← hvariance]
  simp only [UkfState.predictWith, add_mulVec, dotProduct_add, sum_mulVec, dotProduct_sum,
    smul_mulVec, dotProduct_smul, quadratic_vecMulVec, dotProduct_sub, smul_eq_mul]

theorem isHermitian_predictWith (hnoise : s.processNoise.IsHermitian)
    (propagate : Vector6 → Vector6) (dtSec : ℝ) :
    (s.predictWith cholesky propagate dtSec).covariance.IsHermitian := by
  have hdeviation : ∀ d : Vector6, (vecMulVec d d)ᴴ = vecMulVec d d :=
    fun d => isHermitian_vecMulVec d
  show (s.predictWith cholesky propagate dtSec).covarianceᴴ = _
  simp only [UkfState.predictWith, conjTranspose_add, conjTranspose_sum, conjTranspose_smul,
    star_trivial, hdeviation, hnoise.eq]

/-- A prediction keeps the covariance positive definite exactly when it excites every direction. -/
theorem posDef_predictWith (hnoise : s.processNoise.PosSemidef)
    (propagate : Vector6 → Vector6) {dtSec : ℝ} (hdt : 0 ≤ dtSec) :
    (s.predictWith cholesky propagate dtSec).covariance.PosDef ↔
      Excites cholesky s (.predict propagate dtSec) := by
  have hhermitian : (s.predictWith cholesky propagate dtSec).covariance.IsHermitian :=
    isHermitian_predictWith hnoise.isHermitian propagate dtSec
  rw [posDef_iff, and_iff_right hhermitian]
  refine forall₂_congr fun u hu => ?_
  rw [quadratic_predictWith]
  have hvariance := UnscentedTransform.variance_nonneg
    (a := u ⬝ᵥ propagate s.state)
    (b := fun i : Fin (N + N) => u ⬝ᵥ propagate (s.sigmaPoints cholesky i.succ))
    weights_sum center_weight weight_pos.le
  have hzero := UnscentedTransform.variance_eq_zero_iff
    (a := u ⬝ᵥ propagate s.state)
    (b := fun i : Fin (N + N) => u ⬝ᵥ propagate (s.sigmaPoints cholesky i.succ))
    weights_sum center_weight weight_pos
  have hadded : 0 ≤ dtSec * (u ⬝ᵥ s.processNoise *ᵥ u) := by
    have := hnoise.dotProduct_mulVec_nonneg u
    rw [star_trivial] at this
    exact mul_nonneg hdt this
  constructor
  · intro hpos
    by_contra hnone
    obtain ⟨hall, hno⟩ := not_or.mp hnone
    have hall' : ∀ i : Fin (N + N), u ⬝ᵥ propagate (s.sigmaPoints cholesky i.succ) =
        u ⬝ᵥ propagate s.state := by
      intro i
      by_contra hne
      exact hall ⟨i.succ, hne⟩
    rw [hzero.mpr hall'] at hpos
    exact hno (by linarith)
  · rintro (⟨i, hi⟩ | hnoisy)
    · have hne : i ≠ 0 := by
        rintro rfl
        exact hi rfl
      obtain ⟨j, rfl⟩ := Fin.exists_succ_eq_of_ne_zero hne
      have hpos := lt_of_le_of_ne hvariance fun h => hi (hzero.mp h.symm j)
      linarith
    · linarith

/-! ### The update -/

/-- The sigma points around the state, as deviations from it. -/
theorem sigmaPoints_succ (i : Fin (N + N)) :
    s.sigmaPoints cholesky i.succ - s.state =
      Fin.append (fun j => (s.spread cholesky).col j) (fun j => -(s.spread cholesky).col j) i := by
  refine Fin.addCases (fun j => ?_) (fun j => ?_) i
  · simp only [UkfState.sigmaPoints, Fin.cons_succ, Fin.append_left, add_sub_cancel_left]
  · simp only [UkfState.sigmaPoints, Fin.cons_succ, Fin.append_right, sub_sub_cancel_left]

/-- The deviations cancel. -/
theorem sum_deviations (u : Vector6) :
    ∑ i : Fin (N + N), u ⬝ᵥ (s.sigmaPoints cholesky i.succ - s.state) = 0 := by
  simp only [sigmaPoints_succ, Fin.sum_univ_add, Fin.append_left, Fin.append_right, dotProduct_neg,
    Finset.sum_neg_distrib, add_neg_cancel]

/-- The columns of a factor of the covariance spread the sigma points as the covariance says. -/
theorem sum_sq_deviations (hfactors : Factors cholesky) (hpos : s.covariance.PosDef)
    (u : Vector6) :
    ∑ i : Fin (N + N), 0.5 / (N + lambda) * (u ⬝ᵥ (s.sigmaPoints cholesky i.succ - s.state)) ^ 2 =
      u ⬝ᵥ s.covariance *ᵥ u := by
  have hscale : (0 : ℝ) < N + lambda := by
    rw [scale_eq]
    norm_num
  obtain ⟨l, hl, hfactor⟩ := hfactors _ (hpos.smul hscale)
  have hspread : s.spread cholesky = l := by
    simp only [UkfState.spread, hl, Option.getD_some]
  have hquadratic : ∑ j, (u ⬝ᵥ l.col j) ^ 2 = (N + lambda) * (u ⬝ᵥ s.covariance *ᵥ u) := by
    calc ∑ j, (u ⬝ᵥ l.col j) ^ 2 = (u ᵥ* l) ⬝ᵥ (lᵀ *ᵥ u) := by
          rw [mulVec_transpose]
          exact Finset.sum_congr rfl fun j _ => sq _
      _ = u ⬝ᵥ (l * lᵀ) *ᵥ u := by rw [← mulVec_mulVec, dotProduct_mulVec u l]
      _ = (N + lambda) * (u ⬝ᵥ s.covariance *ᵥ u) := by
          rw [hfactor, smul_mulVec, dotProduct_smul, smul_eq_mul]
  simp only [sigmaPoints_succ, hspread, Fin.sum_univ_add, Fin.append_left, Fin.append_right,
    dotProduct_neg, neg_sq, ← Finset.mul_sum, hquadratic]
  field_simp
  ring

/-- The innovation variance is no less than the measurement noise. -/
theorem measurementNoise_le_sZz (measure : Vector6 → ℝ) :
    s.measurementNoise ≤ s.sZz cholesky measure := by
  have hvariance := UnscentedTransform.variance_nonneg
    (a := measure s.state)
    (b := fun i : Fin (N + N) => measure (s.sigmaPoints cholesky i.succ))
    weights_sum center_weight weight_pos.le
  have hsum := sum_weightsCov fun i => measure (s.sigmaPoints cholesky i)
  have hcenter : s.sigmaPoints cholesky 0 = s.state := rfl
  rw [hcenter] at hsum
  unfold UkfState.sZz UkfState.zMean
  rw [hsum]
  linarith

theorem sZz_pos (hnoise : 0 < s.measurementNoise) (measure : Vector6 → ℝ) :
    0 < s.sZz cholesky measure :=
  hnoise.trans_le (measurementNoise_le_sZz measure)

/-- What an update takes from a direction is bounded by its variance and that of the measurement. -/
theorem sq_sigmaXz_le (hfactors : Factors cholesky) (hpos : s.covariance.PosDef)
    (measure : Vector6 → ℝ) (u : Vector6) :
    (u ⬝ᵥ s.sigmaXz cholesky measure) ^ 2 ≤
      (u ⬝ᵥ s.covariance *ᵥ u) * (s.sZz cholesky measure - s.measurementNoise) := by
  have hcancel : ∑ i : Fin (N + N), u ⬝ᵥ (s.sigmaPoints cholesky i.succ - s.state) = 0 :=
    sum_deviations u
  have hcauchy := UnscentedTransform.sq_covariance_le (a := measure s.state)
    (b := fun i : Fin (N + N) => measure (s.sigmaPoints cholesky i.succ))
    weights_sum center_weight weight_pos.le hcancel
  rw [sum_sq_deviations hfactors hpos] at hcauchy
  have hcenter : s.sigmaPoints cholesky 0 = s.state := rfl
  have hvariance := sum_weightsCov fun i => measure (s.sigmaPoints cholesky i)
  have hmean := sum_weightsMean fun i => measure (s.sigmaPoints cholesky i)
  rw [hcenter] at hvariance hmean
  have hsZz : s.sZz cholesky measure - s.measurementNoise =
      ∑ i, weightsCov i * (measure (s.sigmaPoints cholesky i) -
        ∑ j, weightsMean j * measure (s.sigmaPoints cholesky j)) ^ 2 := by
    unfold UkfState.sZz UkfState.zMean
    ring
  have hsigma : u ⬝ᵥ s.sigmaXz cholesky measure =
      ∑ i : Fin (N + N), 0.5 / (N + lambda) *
        (measure (s.sigmaPoints cholesky i.succ) -
          ∑ j, weightsMean j * measure (s.sigmaPoints cholesky j)) *
        (u ⬝ᵥ (s.sigmaPoints cholesky i.succ - s.state)) := by
    unfold UkfState.sigmaXz UkfState.zMean
    rw [Fin.sum_univ_succ, hcenter, sub_self, smul_zero, zero_add, dotProduct_sum]
    exact Finset.sum_congr rfl fun i _ => dotProduct_smul _ _ _
  rw [hsigma, hsZz, hvariance, hmean]
  exact hcauchy

/-- An update keeps the covariance positive definite. -/
theorem posDef_updateWith (hfactors : Factors cholesky) (hs : Proper s) (measure : Vector6 → ℝ)
    (observed : ℝ) : (s.updateWith cholesky measure observed).covariance.PosDef := by
  have hpos : 0 < s.sZz cholesky measure := sZz_pos hs.measurementNoise measure
  have hhermitian := (posDef_iff.mp hs.covariance).1
  refine posDef_iff.mpr ⟨?_, fun u hu => ?_⟩
  · have hgain : ∀ d : Vector6, (vecMulVec d d)ᴴ = vecMulVec d d :=
      fun d => isHermitian_vecMulVec d
    show (s.updateWith cholesky measure observed).covarianceᴴ = _
    simp only [UkfState.updateWith, conjTranspose_sub, conjTranspose_smul, star_trivial, hgain,
      hhermitian.eq]
  · have hquadratic : u ⬝ᵥ (s.updateWith cholesky measure observed).covariance *ᵥ u =
        u ⬝ᵥ s.covariance *ᵥ u -
          (u ⬝ᵥ s.sigmaXz cholesky measure) ^ 2 / s.sZz cholesky measure := by
      simp only [UkfState.updateWith, sub_mulVec, dotProduct_sub, smul_mulVec, dotProduct_smul,
        quadratic_vecMulVec, smul_eq_mul]
      field_simp
    have hbefore := (posDef_iff.mp hs.covariance).2 u hu
    have htaken := sq_sigmaXz_le hfactors hs.covariance measure u
    have hless : (u ⬝ᵥ s.sigmaXz cholesky measure) ^ 2 <
        (u ⬝ᵥ s.covariance *ᵥ u) * s.sZz cholesky measure := by
      have := mul_pos hbefore hs.measurementNoise
      linarith
    rw [hquadratic, sub_pos, div_lt_iff₀ hpos]
    exact hless

/-! ### Runs -/

@[simp] theorem processNoise_step (s : UkfState) (c : UkfCall) :
    (s.step cholesky c).processNoise = s.processNoise := by
  cases c <;> rfl

@[simp] theorem measurementNoise_step (s : UkfState) (c : UkfCall) :
    (s.step cholesky c).measurementNoise = s.measurementNoise := by
  cases c <;> rfl

/-- A prediction of the orbit keeps the covariance positive definite exactly when it excites every
direction. -/
theorem posDef_predict (hnoise : s.processNoise.PosSemidef) {dtSec : ℝ} (hdt : 0 ≤ dtSec) :
    (s.predict cholesky dtSec).covariance.PosDef ↔
      Excites cholesky s (.predict (fun x => rk4Propagate x dtSec) dtSec) :=
  posDef_predictWith hnoise _ hdt

/-- An update by a Doppler measurement keeps it positive definite. -/
theorem posDef_updateWithDopplerMeasurement (hfactors : Factors cholesky) (hs : Proper s)
    (observedHz : ℝ) (stationEci : Vector3) (carrierHz : ℝ) :
    (s.updateWithDopplerMeasurement cholesky observedHz stationEci carrierHz).covariance.PosDef :=
  posDef_updateWith hfactors hs _ _

/-- A call keeps the state proper exactly when it excites every direction. -/
theorem proper_step (hfactors : Factors cholesky) (hs : Proper s) {c : UkfCall} (hc : c.Forward) :
    Proper (s.step cholesky c) ↔ Excites cholesky s c := by
  have hkept : Proper (s.step cholesky c) ↔ (s.step cholesky c).covariance.PosDef := by
    constructor
    · exact Proper.covariance
    · intro hcovariance
      exact ⟨hcovariance, by simpa using hs.processNoise, by simpa using hs.measurementNoise⟩
  rw [hkept]
  cases c with
  | predict propagate dtSec => exact posDef_predictWith hs.processNoise propagate hc
  | update measure observed =>
    exact iff_of_true (posDef_updateWith hfactors hs measure observed) trivial

/-- In a run that starts from a proper state, the covariance stays positive definite throughout
exactly when every prediction excites every direction; no innovation variance falls below the
measurement noise in any case. -/
theorem covariance_posDef (hfactors : Factors cholesky) (hs : Proper s) {calls : List UkfCall}
    (hforward : ∀ c ∈ calls, c.Forward) :
    ((∀ n, (run (UkfState.step cholesky) s (calls.take n)).covariance.PosDef) ↔
      Along (UkfState.step cholesky) (Excites cholesky) s calls) ∧
    ∀ n measure,
      s.measurementNoise ≤ (run (UkfState.step cholesky) s (calls.take n)).sZz cholesky measure ∧
      (run (UkfState.step cholesky) s (calls.take n)).sZz cholesky measure ≠ 0 := by
  have hnoises : ∀ calls : List UkfCall,
      (run (UkfState.step cholesky) s calls).processNoise = s.processNoise ∧
        (run (UkfState.step cholesky) s calls).measurementNoise = s.measurementNoise := by
    intro calls
    exact run_preserves (I := fun t : UkfState => t.processNoise = s.processNoise ∧
      t.measurementNoise = s.measurementNoise)
      (fun t c ht => by rw [processNoise_step, measurementNoise_step]; exact ht) ⟨rfl, rfl⟩ calls
  constructor
  · rw [← along_iff_invariant_of_along (I := Proper) (J := fun _ => True)
      (P := fun _ => UkfCall.Forward)
      (fun _ _ _ _ => trivial) (fun t c _ hc ht => proper_step hfactors ht hc) trivial hs
      (along_of_forall hforward)]
    refine forall_congr' fun n => ⟨fun hcovariance => ?_, Proper.covariance⟩
    obtain ⟨hprocess, hmeasurement⟩ := hnoises (calls.take n)
    exact ⟨hcovariance, hprocess ▸ hs.processNoise, hmeasurement ▸ hs.measurementNoise⟩
  · intro n measure
    have hle : (run (UkfState.step cholesky) s (calls.take n)).measurementNoise ≤
        (run (UkfState.step cholesky) s (calls.take n)).sZz cholesky measure :=
      measurementNoise_le_sZz measure
    rw [(hnoises (calls.take n)).2] at hle
    exact ⟨hle, (hs.measurementNoise.trans_le hle).ne'⟩

/-- Noise in every direction excites every direction. -/
theorem excites_of_processNoise (hnoise : s.processNoise.PosDef) (propagate : Vector6 → Vector6)
    {dtSec : ℝ} (hdt : 0 < dtSec) : Excites cholesky s (.predict propagate dtSec) :=
  fun u hu => Or.inr (mul_pos hdt ((posDef_iff.mp hnoise).2 u hu))

/-- A new filter starts from a proper state, with noise in every direction. -/
theorem proper_fromOrbitalState (state : OrbitalState) :
    Proper (UkfState.fromOrbitalState state) ∧
      (UkfState.fromOrbitalState state).processNoise.PosDef := by
  have hnoise : (UkfState.fromOrbitalState state).processNoise.PosDef := by
    refine PosDef.diagonal fun i => ?_
    fin_cases i <;> norm_num
  refine ⟨⟨?_, hnoise.posSemidef, ?_⟩, hnoise⟩
  · refine PosDef.diagonal fun i => ?_
    fin_cases i <;> norm_num
  · norm_num [UkfState.fromOrbitalState]

open Classical in
/-- The factor that the decomposition into a unit triangular and a diagonal matrix gives. -/
noncomputable def ldlCholesky : Cholesky := fun m =>
  if h : m.PosDef then some (LDL.lower h * diagonal fun i => √(LDL.diagEntries h i)) else none

theorem factors_ldlCholesky : Factors ldlCholesky := by
  intro m hm
  refine ⟨_, dif_pos hm, ?_⟩
  have hdiag : ∀ i, 0 ≤ LDL.diagEntries hm i := by
    have hconj : (LDL.diag hm).PosSemidef := by
      rw [LDL.diag_eq_lowerInv_conj]
      exact hm.posSemidef.mul_mul_conjTranspose_same _
    exact posSemidef_diagonal_iff.mp hconj
  have hroots : (diagonal fun i => √(LDL.diagEntries hm i)) *
      (diagonal fun i => √(LDL.diagEntries hm i)) = LDL.diag hm := by
    rw [diagonal_mul_diagonal]
    simp only [Real.mul_self_sqrt (hdiag _)]
    rfl
  calc _ = LDL.lower hm * ((diagonal fun i => √(LDL.diagEntries hm i)) *
        (diagonal fun i => √(LDL.diagEntries hm i))) * (LDL.lower hm)ᵀ := by
        simp only [transpose_mul, diagonal_transpose, Matrix.mul_assoc]
    _ = LDL.lower hm * LDL.diag hm * (LDL.lower hm)ᴴ := by
        rw [hroots, conjTranspose_eq_transpose_of_trivial]
    _ = m := LDL.lower_conj_diag hm

/-- A satellite above the equator. -/
def overEquator : OrbitalState :=
  { position := ![7000000, 0, 0], velocity := ![0, 7500, 0], time := 0 }

/-- The filter's own predictions and updates keep the covariance that it starts from. -/
theorem covariance_posDef_overEquator :
    (run (UkfState.step ldlCholesky) (UkfState.fromOrbitalState overEquator)
      [.predict (fun x => rk4Propagate x 1) 1,
        .update (fun x => dopplerMeasurement x ![6378137, 0, 0] 437000000) 1200,
        .predict (fun x => rk4Propagate x 1) 1]).covariance.PosDef := by
  obtain ⟨hproper, hnoise⟩ := proper_fromOrbitalState overEquator
  have hforward : ∀ c ∈ ([.predict (fun x => rk4Propagate x 1) 1,
      .update (fun x => dopplerMeasurement x ![6378137, 0, 0] 437000000) 1200,
      .predict (fun x => rk4Propagate x 1) 1] : List UkfCall), c.Forward := by
    intro c hc
    simp only [List.mem_cons, List.not_mem_nil, or_false] at hc
    obtain rfl | rfl | rfl := hc
    · exact zero_le_one
    · trivial
    · exact zero_le_one
  refine (covariance_posDef factors_ldlCholesky hproper hforward).1.mpr ⟨?_, trivial, ?_, trivial⟩ 3
  · exact excites_of_processNoise hnoise _ one_pos
  · exact excites_of_processNoise (by simpa using hnoise) _ one_pos

/-- The same filter without process noise. -/
noncomputable def noiseless : UkfState :=
  { UkfState.fromOrbitalState overEquator with processNoise := 0 }

theorem proper_noiseless : Proper noiseless := by
  obtain ⟨hcovariance, -, hmeasurement⟩ := (proper_fromOrbitalState overEquator).1
  exact ⟨hcovariance, PosSemidef.zero, hmeasurement⟩

/-- Without process noise, dynamics that bring all points together leave no covariance. -/
theorem covariance_lost :
    Factors ldlCholesky ∧ Proper noiseless ∧
      ¬ (noiseless.step ldlCholesky (.predict (fun _ => 0) 1)).covariance.PosDef := by
  refine ⟨factors_ldlCholesky, proper_noiseless, ?_⟩
  intro hpos
  have hexcites : Excites ldlCholesky noiseless (.predict (fun _ => 0) 1) :=
    (posDef_predictWith proper_noiseless.processNoise _ zero_le_one).mp hpos
  obtain ⟨i, hi⟩ | hnoisy := hexcites 1 one_ne_zero
  · exact hi rfl
  · simp [noiseless] at hnoisy

end GroundCore.Tracking
