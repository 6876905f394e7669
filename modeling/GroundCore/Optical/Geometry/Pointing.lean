import Mathlib.Analysis.Calculus.Deriv.Add
import Mathlib.Analysis.Calculus.Deriv.Mul
import Mathlib.Analysis.InnerProductSpace.Calculus
import Mathlib.Analysis.InnerProductSpace.PiL2
import Mathlib.Analysis.SpecialFunctions.Complex.Arg
import Mathlib.Analysis.SpecialFunctions.Sqrt
import GroundCore.Caching.Generic
import GroundCore.Lib.Run
import GroundCore.Lib.Sgp4

/-! The pointing of one satellite at another, and the rate of the range between them.
Floating-point numbers are read as real numbers.  A cache answers for the ids and the time that it
was asked with, whatever the positions are. -/

namespace GroundCore.Optical.Geometry

open Lib Caching Real

noncomputable section

abbrev Vector3 := EuclideanSpace ℝ (Fin 3)

namespace Vector3

variable (v w : Vector3)

def x : ℝ := Lib.Vector3.x v.ofLp

def y : ℝ := Lib.Vector3.y v.ofLp

def z : ℝ := Lib.Vector3.z v.ofLp

@[simp] theorem x_eq : v.x = v 0 := rfl

@[simp] theorem y_eq : v.y = v 1 := rfl

@[simp] theorem z_eq : v.z = v 2 := rfl

def dot : ℝ := v.x * w.x + v.y * w.y + v.z * w.z

end Vector3

structure PointingVector where
  azimuthRad : ℝ
  elevationRad : ℝ
  rangeKm : ℝ

namespace PointingVector

def toCartesian (p : PointingVector) : Vector3 :=
  let x := p.rangeKm * cos p.elevationRad * cos p.azimuthRad
  let y := p.rangeKm * cos p.elevationRad * sin p.azimuthRad
  let z := p.rangeKm * sin p.elevationRad
  WithLp.toLp _ ![x, y, z]

/-- `atan2 y x` is the argument of `x + i y`. -/
def fromCartesian (vec : Vector3) : PointingVector :=
  let rangeKm := ‖vec‖
  let elevationRad := arcsin (vec.z / rangeKm)
  let azimuthRad := Complex.arg ⟨vec.x, vec.y⟩
  { azimuthRad, elevationRad, rangeKm }

end PointingVector

structure SatellitePosition where
  xKm : ℝ
  yKm : ℝ
  zKm : ℝ
  velocityXKmS : ℝ
  velocityYKmS : ℝ
  velocityZKmS : ℝ

namespace SatellitePosition

def new (xKm yKm zKm : ℝ) : SatellitePosition := ⟨xKm, yKm, zKm, 0, 0, 0⟩

def withVelocity (xKm yKm zKm vx vy vz : ℝ) : SatellitePosition := ⟨xKm, yKm, zKm, vx, vy, vz⟩

def toVector (p : SatellitePosition) : Vector3 := WithLp.toLp _ ![p.xKm, p.yKm, p.zKm]

def velocityVector (p : SatellitePosition) : Vector3 :=
  WithLp.toLp _ ![p.velocityXKmS, p.velocityYKmS, p.velocityZKmS]

end SatellitePosition

open SatellitePosition

def computePointingVector (observer target : SatellitePosition) : PointingVector :=
  let diff := target.toVector - observer.toVector
  PointingVector.fromCartesian diff

def computeRelativeVelocity (observer target : SatellitePosition) : Vector3 :=
  target.velocityVector - observer.velocityVector

def computeRangeRate (observer target : SatellitePosition) : ℝ :=
  let pointing := computePointingVector observer target
  let relVel := computeRelativeVelocity observer target
  let unitPointing := ‖pointing.toCartesian‖⁻¹ • pointing.toCartesian
  Vector3.dot relVel unitPointing

/-! ### The Doppler shift of a link -/

structure DopplerPrediction where
  dopplerShiftHz : ℝ
  wavelengthNm : ℝ
  relativeVelocityKmS : ℝ

namespace DopplerPrediction

def fromRelativeVelocity (relativeVelocityKmS wavelengthNm : ℝ) : DopplerPrediction :=
  let wavelengthKm := wavelengthNm * 1e-12
  let dopplerShiftHz := relativeVelocityKmS / wavelengthKm
  { dopplerShiftHz, wavelengthNm, relativeVelocityKmS }

def compensationFactor (p : DopplerPrediction) : ℝ := 1 + p.relativeVelocityKmS / 299792.458

end DopplerPrediction

def computeOpticalDoppler (observer target : SatellitePosition) (wavelengthNm : ℝ) :
    DopplerPrediction :=
  let rangeRateKmS := computeRangeRate observer target
  DopplerPrediction.fromRelativeVelocity rangeRateKmS wavelengthNm

/-! ### The cache of pointings -/

structure PointingCacheKey where
  observerId : String
  targetId : String
  timestamp : DateTime
  deriving DecidableEq

abbrev PointingCache := LruCache PointingCacheKey PointingVector

/-- A call of `computePointingVectorCached`, with what the cache reads from outside. -/
structure PointingRequest where
  observer : SatellitePosition
  target : SatellitePosition
  observerId : String
  targetId : String
  timestamp : DateTime
  now : DateTime
  order : IterOrder (PointingCacheKey × CacheEntry PointingVector)
  stamps : DateTime × DateTime

def PointingRequest.key (r : PointingRequest) : PointingCacheKey :=
  ⟨r.observerId, r.targetId, r.timestamp⟩

/-- The positions are looked at only when nothing is stored under the key. -/
def PointingRequest.lookup (r : PointingRequest) :
    LruCache.Lookup PointingCacheKey PointingVector :=
  { key := r.key
    value := computePointingVector r.observer r.target
    now := r.now
    order := r.order
    stamps := r.stamps }

def computePointingVectorCached (cache : PointingCache) (r : PointingRequest) :
    PointingCache × PointingVector :=
  cache.getOrCompute r.lookup

/-! ### Vectors and pointings -/

namespace PointingVector

theorem norm_sq_eq (vec : Vector3) : ‖vec‖ ^ 2 = vec 0 ^ 2 + vec 1 ^ 2 + vec 2 ^ 2 := by
  rw [EuclideanSpace.norm_sq_eq, Fin.sum_univ_three]
  simp

/-- The distance from the vertical axis. -/
theorem norm_mul_cos_arcsin (vec : Vector3) :
    ‖vec‖ * cos (arcsin (vec 2 / ‖vec‖)) = ‖(⟨vec 0, vec 1⟩ : ℂ)‖ := by
  rcases eq_or_ne vec 0 with rfl | hne
  · simp [Complex.norm_def, Complex.normSq]
  · have hpos : 0 < ‖vec‖ := norm_pos_iff.mpr hne
    have hnorm := norm_sq_eq vec
    rw [cos_arcsin, Complex.norm_def, Complex.normSq_mk]
    have hfactor : vec 0 * vec 0 + vec 1 * vec 1 = ‖vec‖ ^ 2 * (1 - (vec 2 / ‖vec‖) ^ 2) := by
      rw [mul_sub, div_pow, mul_div_cancel₀ _ (pow_ne_zero 2 hpos.ne')]
      linarith
    rw [hfactor, sqrt_mul (sq_nonneg _), sqrt_sq hpos.le]

/-- A vector is found again from its pointing. -/
theorem toCartesian_fromCartesian {vec : Vector3} (hne : vec ≠ 0) :
    (fromCartesian vec).toCartesian = vec := by
  have hpos : 0 < ‖vec‖ := norm_pos_iff.mpr hne
  have hnorm := norm_sq_eq vec
  have hle : |vec 2| ≤ ‖vec‖ := by
    rw [← sqrt_sq hpos.le, hnorm]
    exact abs_le_sqrt (by nlinarith [sq_nonneg (vec 0), sq_nonneg (vec 1)])
  have hbound : |vec 2 / ‖vec‖| ≤ 1 := by
    rwa [abs_div, abs_norm, div_le_one hpos]
  have hsin : ‖vec‖ * sin (arcsin (vec 2 / ‖vec‖)) = vec 2 := by
    rw [sin_arcsin (abs_le.mp hbound).1 (abs_le.mp hbound).2, mul_div_cancel₀ _ hpos.ne']
  have hx := Complex.norm_mul_cos_arg ⟨vec 0, vec 1⟩
  have hy := Complex.norm_mul_sin_arg ⟨vec 0, vec 1⟩
  simp only [toCartesian, fromCartesian, Vector3.x_eq, Vector3.y_eq, Vector3.z_eq,
    norm_mul_cos_arcsin, hsin, hx, hy]
  ext i
  fin_cases i <;> rfl

theorem fromCartesian_inj {vec other : Vector3} :
    fromCartesian vec = fromCartesian other ↔ vec = other := by
  refine ⟨fun h => ?_, congrArg fromCartesian⟩
  have hrange : ‖vec‖ = ‖other‖ := congrArg rangeKm h
  by_cases hne : vec = 0
  · rw [hne, norm_zero] at hrange
    rw [hne, norm_eq_zero.mp hrange.symm]
  · have hother : other ≠ 0 := by
      rwa [← norm_ne_zero_iff, ← hrange, norm_ne_zero_iff]
    rw [← toCartesian_fromCartesian hne, h, toCartesian_fromCartesian hother]

end PointingVector

/-- The displacement of the target. -/
def PointingRequest.displacement (r : PointingRequest) : Vector3 :=
  r.target.toVector - r.observer.toVector

/-- The answers of the cache are the pointings, exactly when requests under the same ids and time
have their satellites displaced by the same vector. -/
theorem answers_eq_pointings_iff (requests : List PointingRequest) :
    (∀ capacity, (LruCache.new capacity : PointingCache).answers (requests.map (·.lookup)) =
        requests.map fun r => computePointingVector r.observer r.target) ↔
      ∀ r ∈ requests, ∀ r' ∈ requests, r.key = r'.key → r.displacement = r'.displacement := by
  have hvalues : (requests.map (·.lookup)).map (·.value) =
      requests.map fun r => computePointingVector r.observer r.target := by
    rw [List.map_map]
    rfl
  rw [← hvalues, LruCache.answers_new_iff_consistent, LruCache.Consistent]
  simp only [List.forall_mem_map]
  have hinj : ∀ r r' : PointingRequest,
      r.lookup.value = r'.lookup.value ↔ r.displacement = r'.displacement :=
    fun r r' => PointingVector.fromCartesian_inj
  simp only [hinj]
  rfl

/-! ### The rate of the range -/

/-- The position after so many seconds without acceleration. -/
def SatellitePosition.moved (p : SatellitePosition) (t : ℝ) : SatellitePosition :=
  { p with
    xKm := p.xKm + t * p.velocityXKmS
    yKm := p.yKm + t * p.velocityYKmS
    zKm := p.zKm + t * p.velocityZKmS }

theorem toVector_moved (p : SatellitePosition) (t : ℝ) :
    (p.moved t).toVector = p.toVector + t • p.velocityVector := by
  ext i
  fin_cases i <;> simp [moved, toVector, velocityVector]

theorem Vector3.dot_eq_inner (v w : Vector3) : v.dot w = inner ℝ v w := by
  simp only [Vector3.dot, Vector3.x_eq, Vector3.y_eq, Vector3.z_eq, PiLp.inner_apply,
    Fin.sum_univ_three]
  simp [mul_comm]

theorem computeRangeRate_eq {observer target : SatellitePosition}
    (hne : target.toVector ≠ observer.toVector) :
    computeRangeRate observer target =
      inner ℝ (target.toVector - observer.toVector) (computeRelativeVelocity observer target) /
        ‖target.toVector - observer.toVector‖ := by
  rw [computeRangeRate, computePointingVector]
  simp only [PointingVector.toCartesian_fromCartesian (sub_ne_zero.mpr hne)]
  rw [Vector3.dot_eq_inner, real_inner_smul_right, real_inner_comm, div_eq_inv_mul]

theorem hasDerivAt_displacement (observer target : SatellitePosition) (t : ℝ) :
    HasDerivAt (fun t => (target.moved t).toVector - (observer.moved t).toVector)
      (computeRelativeVelocity observer target) t := by
  have hmoved : ∀ p : SatellitePosition,
      HasDerivAt (fun t => (p.moved t).toVector) p.velocityVector t := by
    intro p
    have hlinear := ((hasDerivAt_id t).smul_const p.velocityVector).const_add p.toVector
    rw [one_smul] at hlinear
    exact hlinear.congr_of_eventuallyEq (.of_forall (toVector_moved p))
  exact (hmoved target).sub (hmoved observer)

/-- The range between two satellites that move without acceleration changes at the range rate. -/
theorem hasDerivAt_range {observer target : SatellitePosition} {t : ℝ}
    (hapart : (target.moved t).toVector ≠ (observer.moved t).toVector) :
    HasDerivAt (fun t => (computePointingVector (observer.moved t) (target.moved t)).rangeKm)
      (computeRangeRate (observer.moved t) (target.moved t)) t := by
  have hpos : 0 < ‖(target.moved t).toVector - (observer.moved t).toVector‖ :=
    norm_pos_iff.mpr (sub_ne_zero.mpr hapart)
  have hsq := (hasDerivAt_displacement observer target t).norm_sq
  have hsqrt := hsq.sqrt (pow_ne_zero 2 hpos.ne')
  rw [sqrt_sq hpos.le] at hsqrt
  have hrange : (fun t => (computePointingVector (observer.moved t) (target.moved t)).rangeKm) =
      fun t => √(‖(target.moved t).toVector - (observer.moved t).toVector‖ ^ 2) := by
    funext t
    rw [sqrt_sq (norm_nonneg _)]
    rfl
  rw [hrange]
  refine hsqrt.congr_deriv ?_
  rw [computeRangeRate_eq hapart, mul_div_mul_left _ _ two_ne_zero]
  rfl

/-- The shift counts the wavelengths by which the range grows in a second: it is positive while
the satellites move apart. -/
theorem hasDerivAt_wavelengths {observer target : SatellitePosition} {t : ℝ}
    (hapart : (target.moved t).toVector ≠ (observer.moved t).toVector) (wavelengthNm : ℝ) :
    HasDerivAt (fun t => (computePointingVector (observer.moved t) (target.moved t)).rangeKm /
        (wavelengthNm * 1e-12))
      (computeOpticalDoppler (observer.moved t) (target.moved t) wavelengthNm).dopplerShiftHz t :=
  (hasDerivAt_range hapart).div_const (wavelengthNm * 1e-12)

/-- A satellite that moves away from one at rest. -/
theorem hasDerivAt_wavelengths_receding :
    HasDerivAt (fun t => (computePointingVector ((SatellitePosition.new 0 0 0).moved t)
        ((withVelocity 1 0 0 1 0 0).moved t)).rangeKm / (1 * 1e-12))
      (computeOpticalDoppler ((SatellitePosition.new 0 0 0).moved 0)
        ((withVelocity 1 0 0 1 0 0).moved 0) 1).dopplerShiftHz 0 := by
  refine hasDerivAt_wavelengths (fun heq => ?_) 1
  have hx := congrFun (congrArg (·.ofLp) heq) 0
  simp [moved, toVector, withVelocity, SatellitePosition.new] at hx

end

end GroundCore.Optical.Geometry
