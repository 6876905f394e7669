import Mathlib
import GroundCore.Core.Types
import GroundCore.Lib.Angles

/-! The unscented Kalman filter that refines an orbital state, over the real numbers.  The filter
takes the Cholesky factorisation as a parameter, and `predictWith` and `updateWith` also the
functions that they evaluate at the sigma points. -/

namespace GroundCore.Tracking

open Matrix

noncomputable section

abbrev Vector3 := Fin 3 → ℝ

abbrev Vector6 := Fin 6 → ℝ

abbrev Matrix6 := Matrix (Fin 6) (Fin 6) ℝ

/-! ### Constants and weights -/

def mu : ℝ := 3.986004418e14

def rEarth : ℝ := 6378137

def j2 : ℝ := 1.08263e-3

def omegaEarth : ℝ := 7.2921150e-5

def speedOfLight : ℝ := 299792458

/-- The dimension of the state. -/
abbrev N : ℕ := 6

def alpha : ℝ := 0.1

def beta : ℝ := 2

def kappa : ℝ := 0

def lambda : ℝ := alpha * alpha * (N + kappa) - N

def weightsMean : Fin (N + N + 1) → ℝ :=
  Fin.cons (lambda / (N + lambda)) fun _ => 0.5 / (N + lambda)

def weightsCov : Fin (N + N + 1) → ℝ :=
  Fin.cons (lambda / (N + lambda) + (1 - alpha * alpha + beta)) fun _ => 0.5 / (N + lambda)

/-! ### Dynamics and measurement -/

def norm (v : Vector3) : ℝ := √(v ⬝ᵥ v)

/-- Two-body gravity with the J2 perturbation. -/
def orbitalDynamics (state : Vector6) : Vector6 :=
  let r : Vector3 := ![state 0, state 1, state 2]
  let v : Vector3 := ![state 3, state 4, state 5]
  let rNorm := norm r
  let r2 := rNorm * rNorm
  let r5 := r2 * r2 * rNorm
  let aGrav : Vector3 := (-mu / (rNorm * r2)) • r
  let z2OverR2 := state 2 * state 2 / r2
  let j2Factor := 1.5 * j2 * mu * rEarth * rEarth / r5
  let aJ2 : Vector3 :=
    ![j2Factor * state 0 * (5 * z2OverR2 - 1), j2Factor * state 1 * (5 * z2OverR2 - 1),
      j2Factor * state 2 * (5 * z2OverR2 - 3)]
  let a := aGrav + aJ2
  ![v 0, v 1, v 2, a 0, a 1, a 2]

def rk4Propagate (state : Vector6) (dt : ℝ) : Vector6 :=
  let k1 := orbitalDynamics state
  let k2 := orbitalDynamics (state + (dt / 2) • k1)
  let k3 := orbitalDynamics (state + (dt / 2) • k2)
  let k4 := orbitalDynamics (state + dt • k3)
  state + (dt / 6) • (k1 + (2 : ℝ) • k2 + (2 : ℝ) • k3 + k4)

/-- The sidereal time at Greenwich, from the whole seconds of the time. -/
def gmstRadians (t : DateTime) : ℝ :=
  let jd : ℝ := 2451545.0 + ((t / 1000000000 : ℤ) - 946727935.816) / 86400.0
  let tUt1 := (jd - 2451545.0) / 36525.0
  let gmstSec := 67310.54841 + (8640184.812866 + (0.093104 - 6.2e-6 * tUt1) * tUt1) * tUt1
  Lib.Angles.remEuclid (gmstSec * Real.pi / 43200.0) (2.0 * Real.pi)

/-- The place of a station on a sphere. -/
def stationToEci (latDeg lonDeg altM : ℝ) (t : DateTime) : Vector3 :=
  let lat := Lib.Angles.toRadians latDeg
  let lon := Lib.Angles.toRadians lonDeg
  let gmst := gmstRadians t
  let localSidereal := Lib.Angles.remEuclid (gmst + lon) (2.0 * Real.pi)
  let r := rEarth + altM
  ![r * Real.cos lat * Real.cos localSidereal, r * Real.cos lat * Real.sin localSidereal,
    r * Real.sin lat]

/-- The velocity of a station that turns with the earth. -/
def stationVelocityEci (stationEci : Vector3) : Vector3 :=
  ![-omegaEarth * stationEci 1, omegaEarth * stationEci 0, 0]

def dopplerMeasurement (satState : Vector6) (stationEci : Vector3) (carrierHz : ℝ) : ℝ :=
  let rSat : Vector3 := ![satState 0, satState 1, satState 2]
  let vSat : Vector3 := ![satState 3, satState 4, satState 5]
  let vStation := stationVelocityEci stationEci
  let rRel := rSat - stationEci
  let rNorm := norm rRel
  if rNorm < 1 then 0
  else
    let rHat := rNorm⁻¹ • rRel
    let vRel := vSat - vStation
    (-carrierHz * (rHat ⬝ᵥ vRel)) / speedOfLight

/-! ### The filter -/

structure OrbitalState where
  position : Vector3
  velocity : Vector3
  time : DateTime

structure UkfState where
  state : Vector6
  covariance : Matrix6
  processNoise : Matrix6
  measurementNoise : ℝ
  time : DateTime

/-- The lower triangular factor of a matrix, if the factorisation finds one. -/
abbrev Cholesky := Matrix6 → Option Matrix6

namespace UkfState

def fromOrbitalState (state : OrbitalState) : UkfState :=
  { state := ![state.position 0, state.position 1, state.position 2, state.velocity 0,
      state.velocity 1, state.velocity 2]
    covariance := diagonal ![1000000, 1000000, 1000000, 100, 100, 100]
    processNoise := diagonal ![1, 1, 1, 1e-4, 1e-4, 1e-4]
    measurementNoise := 100
    time := state.time }

/-- The factor whose columns spread the sigma points.  Without a factor of the covariance a slightly
greater matrix is tried, and then a multiple of the identity is taken. -/
def spread (cholesky : Cholesky) (s : UkfState) : Matrix6 :=
  let scale : ℝ := N + lambda
  let scaledP := scale • s.covariance
  (cholesky scaledP).getD ((cholesky (scaledP + (1e-6 : ℝ) • 1)).getD (√scale • 1))

/-- The state, then the state with each column added, then with each taken away. -/
def sigmaPoints (cholesky : Cholesky) (s : UkfState) : Fin (N + N + 1) → Vector6 :=
  let l := s.spread cholesky
  Fin.cons s.state (Fin.append (fun i => s.state + l.col i) fun i => s.state - l.col i)

def predictWith (cholesky : Cholesky) (propagate : Vector6 → Vector6) (dtSec : ℝ) (s : UkfState) :
    UkfState :=
  let propagated := fun i => propagate (s.sigmaPoints cholesky i)
  let mean := ∑ i, weightsMean i • propagated i
  let cov := ∑ i, weightsCov i • vecMulVec (propagated i - mean) (propagated i - mean)
  { s with state := mean, covariance := cov + dtSec • s.processNoise }

def predict (cholesky : Cholesky) (dtSec : ℝ) (s : UkfState) : UkfState :=
  s.predictWith cholesky (fun x => rk4Propagate x dtSec) dtSec

/-- The measurement that is expected. -/
def zMean (cholesky : Cholesky) (measure : Vector6 → ℝ) (s : UkfState) : ℝ :=
  ∑ i, weightsMean i * measure (s.sigmaPoints cholesky i)

/-- The innovation variance, by which the gain is divided. -/
def sZz (cholesky : Cholesky) (measure : Vector6 → ℝ) (s : UkfState) : ℝ :=
  s.measurementNoise + ∑ i, weightsCov i *
    (measure (s.sigmaPoints cholesky i) - s.zMean cholesky measure) ^ 2

def sigmaXz (cholesky : Cholesky) (measure : Vector6 → ℝ) (s : UkfState) : Vector6 :=
  ∑ i, (weightsCov i * (measure (s.sigmaPoints cholesky i) - s.zMean cholesky measure)) •
    (s.sigmaPoints cholesky i - s.state)

def updateWith (cholesky : Cholesky) (measure : Vector6 → ℝ) (observed : ℝ) (s : UkfState) :
    UkfState :=
  let kalmanGain := (s.sZz cholesky measure)⁻¹ • s.sigmaXz cholesky measure
  let innovation := observed - s.zMean cholesky measure
  { s with
    state := s.state + innovation • kalmanGain
    covariance :=
      s.covariance - s.sZz cholesky measure • vecMulVec kalmanGain kalmanGain }

def updateWithDopplerMeasurement (cholesky : Cholesky) (observedHz : ℝ) (stationEci : Vector3)
    (carrierHz : ℝ) (s : UkfState) : UkfState :=
  s.updateWith cholesky (fun x => dopplerMeasurement x stationEci carrierHz) observedHz

end UkfState

/-- A call on the filter, with the function that it evaluates at the sigma points. -/
inductive UkfCall
  | predict (propagate : Vector6 → Vector6) (dtSec : ℝ)
  | update (measure : Vector6 → ℝ) (observed : ℝ)

def UkfState.step (cholesky : Cholesky) (s : UkfState) : UkfCall → UkfState
  | .predict propagate dtSec => s.predictWith cholesky propagate dtSec
  | .update measure observed => s.updateWith cholesky measure observed

end

end GroundCore.Tracking
