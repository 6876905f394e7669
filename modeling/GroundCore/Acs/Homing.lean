import Mathlib.Geometry.Euclidean.Angle.Unoriented.TriangleInequality
import Mathlib.Analysis.InnerProductSpace.PiL2
import GroundCore.Lib.Angles

/-! The avoidance of the sun.  Floating-point numbers are read as real numbers; the separation of
two pointings is then the angle between the directions that they name, and the pointing away from
the sun is a right angle from it, not two. -/

namespace GroundCore.Acs

open Lib Angles Real InnerProductGeometry

noncomputable section

structure SunAvoidance where
  sunThreshold : ℝ
  sunPosition : Option (ℝ × ℝ)

namespace SunAvoidance

def new (sunThreshold : ℝ) : SunAvoidance := ⟨sunThreshold, none⟩

def updateSunPosition (s : SunAvoidance) (azimuth elevation : ℝ) : SunAvoidance :=
  { s with sunPosition := some (azimuth, elevation) }

def angularSeparation (az1 el1 az2 el2 : ℝ) : ℝ :=
  let x1 := cos (toRadians el1) * cos (toRadians az1)
  let y1 := cos (toRadians el1) * sin (toRadians az1)
  let z1 := sin (toRadians el1)
  let x2 := cos (toRadians el2) * cos (toRadians az2)
  let y2 := cos (toRadians el2) * sin (toRadians az2)
  let z2 := sin (toRadians el2)
  let dot := x1 * x2 + y1 * y2 + z1 * z2
  let dot := max (-1) (min dot 1)
  toDegrees (arccos dot)

open Classical in
def isSunConflict (s : SunAvoidance) (azimuth elevation : ℝ) : Bool :=
  match s.sunPosition with
  | some (sunAz, sunEl) => angularSeparation azimuth elevation sunAz sunEl < s.sunThreshold
  | none => false

def getSafePointing (s : SunAvoidance) (targetAz targetEl : ℝ) : Option (ℝ × ℝ) :=
  if !s.isSunConflict targetAz targetEl then some (targetAz, targetEl)
  else
    match s.sunPosition with
    | some (sunAz, sunEl) => some (fmod (sunAz + 180.0) 360.0, 90.0 - sunEl)
    | none => none

/-! ### The separation is an angle -/

/-- The unit vector towards a pointing. -/
def direction (az el : ℝ) : EuclideanSpace ℝ (Fin 3) :=
  WithLp.toLp _ ![cos (toRadians el) * cos (toRadians az),
    cos (toRadians el) * sin (toRadians az), sin (toRadians el)]

theorem inner_direction (az1 el1 az2 el2 : ℝ) :
    inner ℝ (direction az1 el1) (direction az2 el2) =
      cos (toRadians el1) * cos (toRadians az1) * (cos (toRadians el2) * cos (toRadians az2)) +
      cos (toRadians el1) * sin (toRadians az1) * (cos (toRadians el2) * sin (toRadians az2)) +
      sin (toRadians el1) * sin (toRadians el2) := by
  simp only [direction, PiLp.inner_apply, Fin.sum_univ_three]
  simp
  ring

theorem norm_direction (az el : ℝ) : ‖direction az el‖ = 1 := by
  have hsq : ‖direction az el‖ ^ 2 = 1 := by
    rw [← real_inner_self_eq_norm_sq, inner_direction]
    have haz := sin_sq_add_cos_sq (toRadians az)
    have hel := sin_sq_add_cos_sq (toRadians el)
    nlinarith
  nlinarith [norm_nonneg (direction az el)]

/-- The clamp of the product changes nothing. -/
theorem angularSeparation_eq_angle (az1 el1 az2 el2 : ℝ) :
    angularSeparation az1 el1 az2 el2 =
      toDegrees (angle (direction az1 el1) (direction az2 el2)) := by
  have hle := abs_real_inner_le_norm (direction az1 el1) (direction az2 el2)
  rw [norm_direction, norm_direction, one_mul, abs_le] at hle
  rw [angle, norm_direction, norm_direction, one_mul, div_one, angularSeparation]
  simp only [← inner_direction]
  rw [min_eq_left hle.2, max_eq_right hle.1]

/-- Separations add up at most. -/
theorem angularSeparation_triangle (az1 el1 az2 el2 az3 el3 : ℝ) :
    angularSeparation az1 el1 az3 el3 ≤
      angularSeparation az1 el1 az2 el2 + angularSeparation az2 el2 az3 el3 := by
  have hangle := angle_le_angle_add_angle (direction az1 el1) (direction az2 el2)
    (direction az3 el3)
  have hdegrees : (0 : ℝ) ≤ 180 / π := by positivity
  simp only [angularSeparation_eq_angle, toDegrees, ← add_mul]
  exact mul_le_mul_of_nonneg_right hangle hdegrees

theorem angularSeparation_self (az el : ℝ) : angularSeparation az el az el = 0 := by
  have hne : direction az el ≠ 0 := norm_ne_zero_iff.mp (by rw [norm_direction]; exact one_ne_zero)
  rw [angularSeparation_eq_angle, angle_self hne, toDegrees, zero_mul]

theorem angularSeparation_comm (az1 el1 az2 el2 : ℝ) :
    angularSeparation az1 el1 az2 el2 = angularSeparation az2 el2 az1 el1 := by
  rw [angularSeparation_eq_angle, angularSeparation_eq_angle, angle_comm]

/-! ### The pointing away from the sun -/

/-- A remainder by a full circle is the same direction. -/
theorem exists_toRadians_fmod (x : ℝ) :
    ∃ k : ℤ, toRadians (fmod x 360.0) = toRadians x - k * (2 * π) := by
  have hcircle : (360.0 : ℝ) = 360 := by norm_num
  refine ⟨if 0 ≤ x / 360 then ⌊x / 360⌋ else ⌈x / 360⌉, ?_⟩
  rw [hcircle]
  unfold toRadians fmod
  ring

theorem direction_fmod (az el : ℝ) : direction (fmod az 360.0) el = direction az el := by
  obtain ⟨k, hk⟩ := exists_toRadians_fmod az
  rw [direction, direction, hk, cos_sub_int_mul_two_pi, sin_sub_int_mul_two_pi]

theorem toRadians_add_half_turn (az : ℝ) : toRadians (az + 180.0) = toRadians az + π := by
  have hhalf : (180.0 : ℝ) = 180 := by norm_num
  rw [hhalf]
  unfold toRadians
  ring

theorem toRadians_ninety_sub (el : ℝ) : toRadians (90.0 - el) = π / 2 - toRadians el := by
  have hninety : (90.0 : ℝ) = 90 := by norm_num
  rw [hninety]
  unfold toRadians
  ring

/-- Half a turn and the complement of the elevation are a right angle from where they start. -/
theorem angularSeparation_away (az el : ℝ) :
    angularSeparation (fmod (az + 180.0) 360.0) (90.0 - el) az el = 90 := by
  have hinner : inner ℝ (direction (az + 180.0) (90.0 - el)) (direction az el) = 0 := by
    rw [inner_direction, toRadians_add_half_turn, toRadians_ninety_sub, cos_add_pi, sin_add_pi,
      cos_pi_div_two_sub, sin_pi_div_two_sub]
    have hunit := sin_sq_add_cos_sq (toRadians az)
    linear_combination -(sin (toRadians el) * cos (toRadians el)) * hunit
  rw [angularSeparation_eq_angle, direction_fmod, inner_eq_zero_iff_angle_eq_pi_div_two _ _ |>.mp
    hinner, toDegrees]
  field_simp
  norm_num

variable (s : SunAvoidance)

theorem isSunConflict_iff {sunAz sunEl : ℝ} (hsun : s.sunPosition = some (sunAz, sunEl))
    (az el : ℝ) : s.isSunConflict az el = true ↔
      angularSeparation az el sunAz sunEl < s.sunThreshold := by
  simp [isSunConflict, hsun]

/-- There is always an answer, and it is as far from the sun as it has to be, unless the target is
not and the sun is to be kept away by more than a right angle. -/
theorem getSafePointing_conflict_iff (targetAz targetEl : ℝ) :
    ∃ az el, s.getSafePointing targetAz targetEl = some (az, el) ∧
      (s.isSunConflict az el = true ↔
        s.isSunConflict targetAz targetEl = true ∧ 90 < s.sunThreshold) := by
  unfold getSafePointing
  cases hconflict : s.isSunConflict targetAz targetEl with
  | false => exact ⟨targetAz, targetEl, rfl, by simp [hconflict]⟩
  | true =>
    cases hsun : s.sunPosition with
    | none => simp [isSunConflict, hsun] at hconflict
    | some sun =>
      refine ⟨fmod (sun.1 + 180.0) 360.0, 90.0 - sun.2, rfl, ?_⟩
      rw [s.isSunConflict_iff hsun, angularSeparation_away]
      simp

/-- A pointing keeps the distance to the sun wherever the antenna points within a margin of it, and
however far the sun has moved since, as long as both take no more than the margin. -/
theorem not_conflict_of_margin (az el sunAz sunEl margin : ℝ)
    (hsafe : s.sunThreshold + margin ≤ angularSeparation az el sunAz sunEl)
    (az' el' sunAz' sunEl' : ℝ)
    (hnear : angularSeparation az el az' el' + angularSeparation sunAz sunEl sunAz' sunEl' ≤
      margin) :
    (s.updateSunPosition sunAz' sunEl').isSunConflict az' el' = false := by
  have hantenna := angularSeparation_triangle az el az' el' sunAz sunEl
  have hsun := angularSeparation_triangle az' el' sunAz' sunEl' sunAz sunEl
  rw [angularSeparation_comm sunAz' sunEl'] at hsun
  rw [Bool.eq_false_iff, ne_eq, isSunConflict_iff _ rfl, not_lt]
  show s.sunThreshold ≤ _
  linarith

/-- The pointing away from the sun, with a margin of sixty degrees. -/
theorem not_conflict_away :
    ((new 30).updateSunPosition 0 0).isSunConflict (fmod (0 + 180.0) 360.0) (90.0 - 0) = false := by
  refine not_conflict_of_margin (new 30) (fmod (0 + 180.0) 360.0) (90.0 - 0) 0 0 60 ?_ _ _ 0 0 ?_
  · rw [angularSeparation_away]
    norm_num [new]
  · rw [angularSeparation_self, angularSeparation_self]
    norm_num

end SunAvoidance

end

end GroundCore.Acs
