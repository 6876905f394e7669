import GroundCore.Acs.Controller
import GroundCore.Lib.Contraction
import GroundCore.Lib.RealFloat

/-! The algorithms that track a satellite, and what repeated feedback does to a constant bias of the
pointing.  The integral of the closed loop is clamped, so its errors follow two linear laws; one
quadratic measure shrinks under both. -/

namespace GroundCore.Acs

open Lib FloatOps Filter Topology

class PointingOps (F64 : Type) (F32 : outParam Type) extends TrigOps F64 F32 where
  sqrt : F64 → F64
  asin : F64 → F64
  atan2 : F64 → F64 → F64

/-- Exact arithmetic, with the given functions. -/
@[reducible] def PointingOps.exact (f : ℚ → ℚ) : PointingOps ℚ ℚ :=
  { TrigOps.exact f f f with sqrt := f, asin := f, atan2 := fun y _ => f y }

structure Station (F64 : Type) where
  latitude : F64
  longitude : F64
  altitude : F64

/-- The state of an orbit; of its fields, the position. -/
structure OrbitalState (F64 : Type) where
  position : F64 × F64 × F64

structure TrackingFeedback (F64 : Type) where
  signalStrength : F64
  azimuthError : F64
  elevationError : F64
  snr : F64
  timestamp : DateTime

structure TrackingCorrection (F64 : Type) where
  azimuthCorrection : F64
  elevationCorrection : F64
  confidence : F64

/-- An algorithm with states of type `σ`; the targets carry the time `now` of the call. -/
structure TrackingAlgorithm (F64 σ : Type) where
  computePointing (self : σ) (satelliteState : OrbitalState F64) (station : Station F64)
    (now : DateTime) : PointingTarget F64
  update (self : σ) (feedback : TrackingFeedback F64) : σ × TrackingCorrection F64
  reset (self : σ) : σ

variable {F64 F32 σ : Type} [PointingOps F64 F32]

/-! ### The algorithms -/

namespace OpenLoopTracking

/-- The position as azimuth and elevation; the place of the station is not used. -/
def eciToAzEl (position : F64 × F64 × F64) (_lat _lon _alt : F64) : F64 × F64 :=
  let (x, y, z) := position
  let range := PointingOps.sqrt (x * x + y * y + z * z)
  let elevation := TrigOps.toDegrees (PointingOps.asin (z / range))
  let azimuth := TrigOps.toDegrees (PointingOps.atan2 y x)
  let azimuth := if lt azimuth (lit 0) then azimuth + lit 360 else azimuth
  (azimuth, elevation)

def algorithm : TrackingAlgorithm F64 Unit where
  computePointing _ satelliteState station now :=
    let (azimuth, elevation) := eciToAzEl satelliteState.position station.latitude
      station.longitude station.altitude
    { azimuth, elevation, timestamp := now }
  update _ _ :=
    ((), { azimuthCorrection := lit 0, elevationCorrection := lit 0, confidence := lit 1 })
  reset := id

end OpenLoopTracking

structure ClosedLoopTracking (F64 : Type) where
  currentAzOffset : F64
  currentElOffset : F64
  integralAz : F64
  integralEl : F64

namespace ClosedLoopTracking

def new : ClosedLoopTracking F64 := ⟨lit 0, lit 0, lit 0, lit 0⟩

def algorithm : TrackingAlgorithm F64 (ClosedLoopTracking F64) where
  computePointing self satelliteState station now :=
    let target := OpenLoopTracking.algorithm.computePointing () satelliteState station now
    { target with
      azimuth := target.azimuth + self.currentAzOffset
      elevation := target.elevation + self.currentElOffset }
  update self feedback :=
    let kp := lit 0.5
    let ki := lit 0.1
    let integralAz := self.integralAz + feedback.azimuthError
    let integralEl := self.integralEl + feedback.elevationError
    let integralAz := clamp integralAz (lit (-10)) (lit 10)
    let integralEl := clamp integralEl (lit (-10)) (lit 10)
    let azCorrection := kp * feedback.azimuthError + ki * integralAz
    let elCorrection := kp * feedback.elevationError + ki * integralEl
    ({ currentAzOffset := self.currentAzOffset + azCorrection
       currentElOffset := self.currentElOffset + elCorrection
       integralAz
       integralEl },
      { azimuthCorrection := azCorrection
        elevationCorrection := elCorrection
        confidence := clamp (feedback.snr / lit 50) (lit 0) (lit 1) })
  reset _ := new

end ClosedLoopTracking

/-- The entries of the state by name. -/
structure PredictiveTracking (F64 : Type) where
  az : F64
  el : F64
  azRate : F64
  elRate : F64
  azAccel : F64
  elAccel : F64

namespace PredictiveTracking

def new : PredictiveTracking F64 := ⟨lit 0, lit 0, lit 0, lit 0, lit 0, lit 0⟩

def algorithm : TrackingAlgorithm F64 (PredictiveTracking F64) where
  computePointing self satelliteState station now :=
    let target := OpenLoopTracking.algorithm.computePointing () satelliteState station now
    let leadTime := lit 0.5
    { target with
      azimuth := target.azimuth + self.azRate * leadTime
      elevation := target.elevation + self.elRate * leadTime }
  update self feedback :=
    let dt := lit 0.1
    let az := self.az + self.azRate * dt
    let el := self.el + self.elRate * dt
    let kalmanGainAz := lit 0.1
    let kalmanGainEl := lit 0.1
    let az := az + kalmanGainAz * feedback.azimuthError
    let el := el + kalmanGainEl * feedback.elevationError
    let azRate := self.azRate + kalmanGainAz * feedback.azimuthError / dt
    let elRate := self.elRate + kalmanGainEl * feedback.elevationError / dt
    ({ self with az, el, azRate, elRate },
      { azimuthCorrection := azRate * dt
        elevationCorrection := elRate * dt
        confidence := clamp (feedback.snr / lit 50) (lit 0) (lit 1) })
  reset _ := new

end PredictiveTracking

/-! ### Feedback on a constant bias -/

/-- What a step is given besides the errors. -/
structure TrackingStep (F64 : Type) where
  satelliteState : OrbitalState F64
  station : Station F64
  signalStrength : F64
  snr : F64
  now : DateTime

namespace TrackingAlgorithm

variable (alg : TrackingAlgorithm F64 σ) (bias : F64 × F64)

/-- What `computePointing` adds to the open-loop target. -/
def offset (self : σ) (step : TrackingStep F64) : F64 × F64 :=
  let target := alg.computePointing self step.satelliteState step.station step.now
  let openLoop := OpenLoopTracking.algorithm.computePointing () step.satelliteState step.station
    step.now
  (target.azimuth - openLoop.azimuth, target.elevation - openLoop.elevation)

/-- The errors are what the offset leaves of the bias. -/
def biasFeedback (self : σ) (step : TrackingStep F64) : TrackingFeedback F64 :=
  { signalStrength := step.signalStrength
    azimuthError := bias.1 - (alg.offset self step).1
    elevationError := bias.2 - (alg.offset self step).2
    snr := step.snr
    timestamp := step.now }

def stateAfter (start : σ) (steps : ℕ → TrackingStep F64) : ℕ → σ
  | 0 => start
  | n + 1 =>
    let self := stateAfter start steps n
    (alg.update self (alg.biasFeedback bias self (steps n))).1

/-- The feedback of the `n`-th step, from the reset state. -/
def feedbackAt (start : σ) (steps : ℕ → TrackingStep F64) (n : ℕ) : TrackingFeedback F64 :=
  alg.biasFeedback bias (alg.stateAfter bias (alg.reset start) steps n) (steps n)

variable [RealArithmetic F64 F32]

open RealFloat RealArithmetic

/-- Whatever the bias and the steps are, the errors tend to zero. -/
def NullsBias : Prop :=
  ∀ bias start steps,
    Tendsto (fun n => val (alg.feedbackAt bias start steps n).azimuthError) atTop (𝓝 0) ∧
    Tendsto (fun n => val (alg.feedbackAt bias start steps n).elevationError) atTop (𝓝 0)

end TrackingAlgorithm

variable [RealArithmetic F64 F32] {bias : F64 × F64} {steps : ℕ → TrackingStep F64}

open RealFloat RealArithmetic TrackingAlgorithm

/-! ### The closed loop -/

/-- The measure of an axis: of the error with a tenth of the integral, and of the integral. -/
noncomputable def axisMeasure (error integral : ℝ) : ℝ :=
  36.0 * (error + 0.1 * integral) ^ 2 + integral ^ 2

/-- A clamp at limits of zero does not add to the square. -/
theorem sq_clamp_le {x limit : ℝ} (hlimit : 0 ≤ limit) :
    max (-limit) (min x limit) ^ 2 ≤ x ^ 2 := by
  refine sq_le_sq.mpr (abs_le.mpr ⟨?_, ?_⟩)
  · rcases le_total x limit with h | h
    · rw [min_eq_left h]
      exact (neg_abs_le x).trans (le_max_right _ _)
    · rw [min_eq_right h]
      exact (neg_nonpos.mpr (abs_nonneg x)).trans (hlimit.trans (le_max_right _ _))
  · refine max_le ((neg_nonpos.mpr hlimit).trans (abs_nonneg x)) ((min_le_left _ _).trans ?_)
    exact le_abs_self x

/-- A step takes a tenth of the measure away, whether the integral is clamped or not. -/
theorem axisMeasure_step (error integral : ℝ) :
    let integral' := max (-10.0) (min (integral + error) 10.0)
    axisMeasure (error - (0.5 * error + 0.1 * integral')) integral' ≤
      0.9 * axisMeasure error integral := by
  intro integral'
  have hclamp : integral' ^ 2 ≤ (integral + error) ^ 2 := sq_clamp_le (by norm_num)
  have hsum : error - (0.5 * error + 0.1 * integral') + 0.1 * integral' = 0.5 * error := by ring
  rw [axisMeasure, axisMeasure, hsum]
  norm_num at hclamp ⊢
  nlinarith [sq_nonneg (error + 0.1 * integral)]

/-- The measure bounds the square of the error. -/
theorem sq_le_axisMeasure (error integral : ℝ) : error ^ 2 ≤ axisMeasure error integral := by
  rw [axisMeasure]
  norm_num
  nlinarith [sq_nonneg (35 * error + 3.6 * integral)]

/-- The errors of an axis whose integral is clamped tend to zero. -/
theorem tendsto_error_of_integral {error : ℕ → ℝ} (integral : ℕ → ℝ)
    (hintegral : ∀ n, integral (n + 1) = max (-10.0) (min (integral n + error n) 10.0))
    (herror : ∀ n, error (n + 1) = error n - (0.5 * error n + 0.1 * integral (n + 1))) :
    Tendsto error atTop (𝓝 0) := by
  refine tendsto_zero_of_sq_le_measure (fun n => sq_le_axisMeasure (error n) (integral n))
    (by norm_num) (by norm_num : (0.9 : ℝ) < 1) fun n => ?_
  rw [herror, hintegral]
  exact axisMeasure_step (error n) (integral n)

theorem val_clamp_ten (x : F64) :
    val (clamp x (lit (-10)) (lit 10)) = max (-10.0) (min (val x) 10.0) := by
  have hlow : val (lit (-10) : F64) = -10.0 := by
    rw [val_lit]
    norm_num
  have hhigh : val (lit 10 : F64) = 10.0 := by
    rw [val_lit]
    norm_num
  rw [val_clamp (by rw [hlow, hhigh]; norm_num), hlow, hhigh]

namespace ClosedLoopTracking

variable (bias) in
theorem val_biasFeedback (self : ClosedLoopTracking F64) (step : TrackingStep F64) :
    val (algorithm.biasFeedback bias self step).azimuthError =
      val bias.1 - val self.currentAzOffset ∧
    val (algorithm.biasFeedback bias self step).elevationError =
      val bias.2 - val self.currentElOffset := by
  simp only [biasFeedback, offset, algorithm, val_sub, val_add, add_sub_cancel_left, and_self]

/-- The integrals and the offsets after a step. -/
theorem val_update (self : ClosedLoopTracking F64) (feedback : TrackingFeedback F64) :
    let self' := (algorithm.update self feedback).1
    (val self'.integralAz =
        max (-10.0) (min (val self.integralAz + val feedback.azimuthError) 10.0) ∧
      val self'.currentAzOffset = val self.currentAzOffset +
        (0.5 * val feedback.azimuthError + 0.1 * val self'.integralAz)) ∧
    val self'.integralEl =
        max (-10.0) (min (val self.integralEl + val feedback.elevationError) 10.0) ∧
      val self'.currentElOffset = val self.currentElOffset +
        (0.5 * val feedback.elevationError + 0.1 * val self'.integralEl) := by
  have hkp : val (lit 0.5 : F64) = 0.5 := by
    rw [val_lit]
    norm_num
  have hki : val (lit 0.1 : F64) = 0.1 := by
    rw [val_lit]
    norm_num
  simp only [algorithm, val_clamp_ten, val_add, val_mul, hkp, hki, and_self]

/-- A constant bias is nulled by the closed loop, also from where its integral is clamped. -/
theorem nullsBias : (algorithm : TrackingAlgorithm F64 (ClosedLoopTracking F64)).NullsBias := by
  intro bias start steps
  let state := algorithm.stateAfter bias (algorithm.reset start) steps
  have herror := fun n => val_biasFeedback bias (state n) (steps n)
  have hstep := fun n => val_update (state n) (algorithm.biasFeedback bias (state n) (steps n))
  constructor
  · refine tendsto_error_of_integral (fun n => val (state n).integralAz) (fun n => (hstep n).1.1)
      fun n => ?_
    have hoffset : val (state (n + 1)).currentAzOffset = _ := (hstep n).1.2
    show val (algorithm.biasFeedback bias (state (n + 1)) (steps (n + 1))).azimuthError = _
    rw [(herror (n + 1)).1, hoffset, ← sub_sub, ← (herror n).1]
    rfl
  · refine tendsto_error_of_integral (fun n => val (state n).integralEl) (fun n => (hstep n).2.1)
      fun n => ?_
    have hoffset : val (state (n + 1)).currentElOffset = _ := (hstep n).2.2
    show val (algorithm.biasFeedback bias (state (n + 1)) (steps (n + 1))).elevationError = _
    rw [(herror (n + 1)).2, hoffset, ← sub_sub, ← (herror n).2]
    rfl

end ClosedLoopTracking

/-! ### The predictive algorithm -/

/-- Errors that every step halves tend to zero. -/
theorem tendsto_error_of_half {error : ℕ → ℝ} (herror : ∀ n, error (n + 1) = 0.5 * error n) :
    Tendsto error atTop (𝓝 0) := by
  refine tendsto_zero_of_sq_le_measure (fun n => le_refl (error n ^ 2)) (by norm_num)
    (by norm_num : (0.25 : ℝ) < 1) fun n => ?_
  rw [herror, mul_pow]
  norm_num

namespace PredictiveTracking

variable (bias) in
theorem val_biasFeedback (self : PredictiveTracking F64) (step : TrackingStep F64) :
    val (algorithm.biasFeedback bias self step).azimuthError =
      val bias.1 - val self.azRate * 0.5 ∧
    val (algorithm.biasFeedback bias self step).elevationError =
      val bias.2 - val self.elRate * 0.5 := by
  have hlead : val (lit 0.5 : F64) = 0.5 := by
    rw [val_lit]
    norm_num
  simp only [biasFeedback, offset, algorithm, val_sub, val_add, val_mul, hlead,
    add_sub_cancel_left, and_self]

/-- The gain over the time step is one, so that the rates add up the errors. -/
theorem val_update (self : PredictiveTracking F64) (feedback : TrackingFeedback F64) :
    val (algorithm.update self feedback).1.azRate =
      val self.azRate + val feedback.azimuthError ∧
    val (algorithm.update self feedback).1.elRate =
      val self.elRate + val feedback.elevationError := by
  have hdt : val (lit 0.1 : F64) = 0.1 := by
    rw [val_lit]
    norm_num
  have hne : val (lit 0.1 : F64) ≠ 0 := by
    rw [hdt]
    norm_num
  simp only [algorithm, val_add, val_div _ _ hne, val_mul, hdt]
  constructor <;> ring

theorem nullsBias : (algorithm : TrackingAlgorithm F64 (PredictiveTracking F64)).NullsBias := by
  intro bias start steps
  let state := algorithm.stateAfter bias (algorithm.reset start) steps
  have herror := fun n => val_biasFeedback bias (state n) (steps n)
  have hstep := fun n => val_update (state n) (algorithm.biasFeedback bias (state n) (steps n))
  constructor
  · refine tendsto_error_of_half fun n => ?_
    have hrate : val (state (n + 1)).azRate = _ := (hstep n).1
    show val (algorithm.biasFeedback bias (state (n + 1)) (steps (n + 1))).azimuthError =
      0.5 * val (algorithm.biasFeedback bias (state n) (steps n)).azimuthError
    rw [(herror (n + 1)).1, hrate, (herror n).1]
    ring
  · refine tendsto_error_of_half fun n => ?_
    have hrate : val (state (n + 1)).elRate = _ := (hstep n).2
    show val (algorithm.biasFeedback bias (state (n + 1)) (steps (n + 1))).elevationError =
      0.5 * val (algorithm.biasFeedback bias (state n) (steps n)).elevationError
    rw [(herror (n + 1)).2, hrate, (herror n).2]
    ring

end PredictiveTracking

example : letI := PointingOps.exact id
    letI : RealArithmetic ℚ ℚ := .exact id id
    (ClosedLoopTracking.algorithm : TrackingAlgorithm ℚ (ClosedLoopTracking ℚ)).NullsBias :=
  letI := PointingOps.exact id
  letI : RealArithmetic ℚ ℚ := .exact id id
  ClosedLoopTracking.nullsBias

/-- Both algorithms that use feedback null every constant bias. -/
theorem feedback_nulls_bias :
    (ClosedLoopTracking.algorithm :
      TrackingAlgorithm F64 (ClosedLoopTracking F64)).NullsBias ∧
    (PredictiveTracking.algorithm :
      TrackingAlgorithm F64 (PredictiveTracking F64)).NullsBias :=
  ⟨ClosedLoopTracking.nullsBias, PredictiveTracking.nullsBias⟩

end GroundCore.Acs
