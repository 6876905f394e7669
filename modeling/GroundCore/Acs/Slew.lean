import Mathlib.Data.List.Chain
import Mathlib.Data.List.Range
import Mathlib.Data.Rat.Cast.OfScientific
import Mathlib.Tactic.Linarith
import Mathlib.Tactic.NormNum.OfScientific
import Mathlib.Tactic.Ring
import GroundCore.Acs.Controller
import GroundCore.Lib.SaturatingCast

/-! The slew limiter: the time that a slew takes and the waypoints on its way.  Numbers are exact;
the square root, the cosine and π are parameters. -/

namespace GroundCore.Acs

open Lib

inductive MotionProfile
  | trapezoidal
  | sCurve
  | minimumTime
  deriving DecidableEq, Repr

structure SlewTrajectory (K : Type) where
  id : SlewId
  start : K × K
  target : K × K
  profile : MotionProfile
  startTime : DateTime
  endTime : DateTime
  azimuthWaypoints : List (DateTime × K)
  elevationWaypoints : List (DateTime × K)

structure SlewLimiter (K : Type) where
  azimuthRateLimit : K
  elevationRateLimit : K
  azimuthAccelLimit : K
  elevationAccelLimit : K
  defaultProfile : MotionProfile

def numWaypoints : ℕ := 20

variable {K : Type} [Field K] [LinearOrder K]

/-- The progress of a trapezoidal velocity profile. -/
def trapezoidalProgress (t duration : K) : K :=
  if t ≤ 0 then 0
  else if duration ≤ t then 1
  else
    let accelTime := duration * 0.2
    let coastTime := duration * 0.6
    let decelTime := duration * 0.2
    if t < accelTime then 0.5 * (t / accelTime) ^ 2
    else if t < accelTime + coastTime then 0.5 + (t - accelTime) / coastTime * 0.5
    else
      let tDecel := t - (accelTime + coastTime)
      1 - 0.5 * ((decelTime - tDecel) / decelTime) ^ 2

def scurveProgress (cos : K → K) (pi : K) (t duration : K) : K :=
  if t ≤ 0 then 0
  else if duration ≤ t then 1
  else
    let normalizedT := t / duration
    0.5 * (1 - cos (normalizedT * pi))

def MotionProfile.progress (cos : K → K) (pi : K) (t duration : K) : MotionProfile → K
  | .trapezoidal => trapezoidalProgress t duration
  | .sCurve => scurveProgress cos pi t duration
  | .minimumTime => trapezoidalProgress t duration

namespace SlewLimiter

def axisMinimumTime (sqrt : K → K) (distance rateLimit accelLimit : K) : K :=
  if distance < 1e-6 then 0
  else
    let criticalDistance := rateLimit * rateLimit / accelLimit
    if distance < criticalDistance then 2.0 * sqrt (distance / accelLimit)
    else distance / rateLimit + rateLimit / accelLimit

def computeMinimumTime (sqrt : K → K) (limiter : SlewLimiter K) (start target : K × K) :
    Except String (K × K) :=
  let azDistance := |target.1 - start.1|
  let elDistance := |target.2 - start.2|
  let azMinTime := axisMinimumTime sqrt azDistance limiter.azimuthRateLimit
    limiter.azimuthAccelLimit
  let elMinTime := axisMinimumTime sqrt elDistance limiter.elevationRateLimit
    limiter.elevationAccelLimit
  .ok (azMinTime, elMinTime)

variable [FloorRing K]

/-- The number of the seconds `t` in a duration, in whole milliseconds. -/
def toDuration (t : K) : Duration := Duration.milliseconds (SaturatingCast.toI64 (t * 1000.0))

/-- The waypoint of an axis after `i` of the steps. -/
def waypoint (cos : K → K) (pi : K) (startTime : DateTime) (duration : K) (profile : MotionProfile)
    (start target : K) (i : ℕ) : DateTime × K :=
  let dt := duration / (numWaypoints : K)
  let t := (i : K) * dt
  let progress := profile.progress cos pi t duration
  (startTime + toDuration t, start + (target - start) * progress)

/-- The azimuths and the elevations on the way, with their times. -/
def generateWaypoints (cos : K → K) (pi : K) (start target : K × K) (startTime : DateTime)
    (duration : K) (profile : MotionProfile) :
    Except String (List (DateTime × K) × List (DateTime × K)) :=
  let indices := List.range (numWaypoints + 1)
  .ok (indices.map (waypoint cos pi startTime duration profile start.1 target.1),
    indices.map (waypoint cos pi startTime duration profile start.2 target.2))

def computeTrajectory (sqrt cos : K → K) (pi : K) (limiter : SlewLimiter K) (id : SlewId)
    (start target : K × K) (startTime : DateTime) : Except String (SlewTrajectory K) := do
  let (azDuration, elDuration) ← limiter.computeMinimumTime sqrt start target
  let duration := max azDuration elDuration
  let endTime := startTime + toDuration duration
  let (azimuthWaypoints, elevationWaypoints) ←
    generateWaypoints cos pi start target startTime duration limiter.defaultProfile
  return {
    id, start, target, startTime, endTime, azimuthWaypoints, elevationWaypoints
    profile := limiter.defaultProfile }

/-! ### The waypoints and the limits -/

/-- The waypoints of an axis lead from the start to the target, in one direction, and no two that
follow each other are further apart than the rate allows in the time between them. -/
structure RespectsRate (rate start target : K) (waypoints : List (DateTime × K)) : Prop where
  starts : waypoints.head?.map Prod.snd = some start
  ends : waypoints.getLast?.map Prod.snd = some target
  rises : start ≤ target → waypoints.IsChain fun before after => before.2 ≤ after.2
  falls : target ≤ start → waypoints.IsChain fun before after => after.2 ≤ before.2
  rate_le : waypoints.IsChain fun before after =>
    |after.2 - before.2| ≤ rate * (((after.1 - before.1 : ℤ) : K) / (Duration.seconds 1 : ℤ))

structure Positive (limiter : SlewLimiter K) : Prop where
  azimuthRate : 0 < limiter.azimuthRateLimit
  elevationRate : 0 < limiter.elevationRateLimit
  azimuthAccel : 0 < limiter.azimuthAccelLimit
  elevationAccel : 0 < limiter.elevationAccelLimit

/-! ### Where the pieces of the profile meet -/

variable [IsStrictOrderedRing K] {cos : K → K} {pi duration rate start target : K}
  {startTime : DateTime} {profile : MotionProfile}

/-- Before the deceleration, the progress is nearly complete. -/
theorem progress_coast (h : 0 < duration) :
    trapezoidalProgress (((15 : ℕ) : K) * (duration / (numWaypoints : K))) duration =
      0.5 + 0.55 / 0.6 * 0.5 := by
  have ht : ((15 : ℕ) : K) * (duration / (numWaypoints : K)) = duration * 0.75 := by
    norm_num [numWaypoints]
    ring
  rw [ht, trapezoidalProgress, if_neg (by norm_num; linarith), if_neg (by norm_num; linarith)]
  dsimp only
  rw [if_neg (by norm_num; linarith), if_pos (by norm_num; linarith)]
  field_simp
  norm_num

/-- When the deceleration starts, the progress is back at one half. -/
theorem progress_deceleration (h : 0 < duration) :
    trapezoidalProgress (((16 : ℕ) : K) * (duration / (numWaypoints : K))) duration = 0.5 := by
  have ht : ((16 : ℕ) : K) * (duration / (numWaypoints : K)) = duration * 0.8 := by
    norm_num [numWaypoints]
    ring
  rw [ht, trapezoidalProgress, if_neg (by norm_num; linarith), if_neg (by norm_num; linarith)]
  dsimp only
  rw [if_neg (by norm_num; linarith), if_neg (by norm_num; linarith)]
  field_simp
  norm_num

omit [FloorRing K] [IsStrictOrderedRing K] in
theorem progress_eq (hprofile : profile ≠ .sCurve) (t duration : K) :
    profile.progress cos pi t duration = trapezoidalProgress t duration := by
  cases profile with
  | sCurve => contradiction
  | _ => rfl

/-- A step that follows another is not before it. -/
theorem waypoint_time_le (h : 0 ≤ duration) (i : ℕ) :
    (waypoint cos pi startTime duration profile start target i).1 ≤
      (waypoint cos pi startTime duration profile start target (i + 1)).1 := by
  have hdt : 0 ≤ duration / (numWaypoints : K) := div_nonneg h (Nat.cast_nonneg _)
  have hstep : (i : K) * (duration / (numWaypoints : K)) * 1000.0 ≤
      ((i + 1 : ℕ) : K) * (duration / (numWaypoints : K)) * 1000.0 := by
    apply mul_le_mul_of_nonneg_right _ (by norm_num)
    apply mul_le_mul_of_nonneg_right _ hdt
    exact_mod_cast Nat.le_succ i
  have hcast := SaturatingCast.toI64_mono hstep
  exact Int.add_le_add_left (Int.mul_le_mul_of_nonneg_right hcast (by decide)) startTime

/-- An axis that respects the limits does not move. -/
theorem RespectsRate.start_eq (hprofile : profile ≠ .sCurve)
    (h : RespectsRate rate start target ((List.range (numWaypoints + 1)).map
      (waypoint cos pi startTime duration profile start target))) : start = target := by
  rcases le_or_gt duration 0 with hduration | hduration
  · -- a slew without duration stays at the start
    have hlast :
        (waypoint cos pi startTime duration profile start target numWaypoints).2 = target :=
      Option.some.inj h.ends
    have ht : (numWaypoints : K) * (duration / (numWaypoints : K)) ≤ 0 := by
      rw [mul_div_cancel₀ _ (by norm_num [numWaypoints])]
      exact hduration
    simpa [waypoint, progress_eq hprofile, trapezoidalProgress, ht] using hlast
  · have hstep : ∀ {R : DateTime × K → DateTime × K → Prop},
        ((List.range (numWaypoints + 1)).map
          (waypoint cos pi startTime duration profile start target)).IsChain R →
        R (waypoint cos pi startTime duration profile start target 15)
          (waypoint cos pi startTime duration profile start target 16) :=
      fun hchain => (List.isChain_range_succ _ _).mp ((List.isChain_map _).mp hchain) 15 (by decide)
    have hcoast : (waypoint cos pi startTime duration profile start target 15).2 =
        start + (target - start) * (0.5 + 0.55 / 0.6 * 0.5) := by
      rw [waypoint, progress_eq hprofile, progress_coast hduration]
    have hdecelerate : (waypoint cos pi startTime duration profile start target 16).2 =
        start + (target - start) * 0.5 := by
      rw [waypoint, progress_eq hprofile, progress_deceleration hduration]
    rcases le_total start target with hle | hle
    · have hback := hstep (h.rises hle)
      rw [hcoast, hdecelerate] at hback
      norm_num at hback
      linarith
    · have hback := hstep (h.falls hle)
      rw [hcoast, hdecelerate] at hback
      norm_num at hback
      linarith

theorem respectsRate_self (hrate : 0 < rate) (hduration : 0 ≤ duration) :
    RespectsRate rate start start ((List.range (numWaypoints + 1)).map
      (waypoint cos pi startTime duration profile start start)) := by
  have hstay : ∀ i, (waypoint cos pi startTime duration profile start start i).2 = start := by
    intro i
    rw [waypoint, sub_self, zero_mul, add_zero]
  have hchain : ∀ {R : DateTime × K → DateTime × K → Prop},
      (∀ i, R (waypoint cos pi startTime duration profile start start i)
        (waypoint cos pi startTime duration profile start start (i + 1))) →
      ((List.range (numWaypoints + 1)).map
        (waypoint cos pi startTime duration profile start start)).IsChain R :=
    fun hR => (List.isChain_map _).mpr ((List.isChain_range_succ _ _).mpr fun i _ => hR i)
  refine ⟨congrArg some (hstay 0), congrArg some (hstay numWaypoints), fun _ => hchain fun i => ?_,
    fun _ => hchain fun i => ?_, hchain fun i => ?_⟩
  · rw [hstay, hstay]
  · rw [hstay, hstay]
  · have htime : (waypoint cos pi startTime duration profile start start i).1 ≤
        (waypoint cos pi startTime duration profile start start (i + 1)).1 :=
      waypoint_time_le hduration i
    rw [hstay, hstay, sub_self, abs_zero]
    exact mul_nonneg hrate.le
      (div_nonneg (Int.cast_nonneg (sub_nonneg.mpr htime)) (Int.cast_nonneg (by decide)))

/-- A slew respects the limits exactly when it has nowhere to go. -/
theorem generateWaypoints_respects_iff (sqrt cos : K → K) (pi : K) (startTime : DateTime)
    {limiter : SlewLimiter K} (hlimits : limiter.Positive) {start target : K × K} {duration : K}
    (hazimuth : axisMinimumTime sqrt |target.1 - start.1| limiter.azimuthRateLimit
      limiter.azimuthAccelLimit ≤ duration)
    (helevation : axisMinimumTime sqrt |target.2 - start.2| limiter.elevationRateLimit
      limiter.elevationAccelLimit ≤ duration)
    {profile : MotionProfile} (hprofile : profile ≠ .sCurve) :
    (∃ azimuths elevations,
      generateWaypoints cos pi start target startTime duration profile =
        .ok (azimuths, elevations) ∧
      RespectsRate limiter.azimuthRateLimit start.1 target.1 azimuths ∧
      RespectsRate limiter.elevationRateLimit start.2 target.2 elevations) ↔ start = target := by
  constructor
  · rintro ⟨azimuths, elevations, hwaypoints, hazimuths, helevations⟩
    obtain ⟨rfl, rfl⟩ := Prod.mk.inj (Except.ok.inj hwaypoints)
    exact Prod.ext (hazimuths.start_eq hprofile) (helevations.start_eq hprofile)
  · rintro rfl
    have hduration : 0 ≤ duration := by
      rw [sub_self, abs_zero, axisMinimumTime, if_pos (by norm_num)] at hazimuth
      exact hazimuth
    exact ⟨_, _, rfl, respectsRate_self hlimits.azimuthRate hduration,
      respectsRate_self hlimits.elevationRate hduration⟩

/-- A limiter of one degree per second, and per second squared. -/
def unitLimiter : SlewLimiter ℚ := ⟨1, 1, 1, 1, .trapezoidal⟩

theorem generateWaypoints_respects_iff_unitLimiter :
    (∃ azimuths elevations,
      generateWaypoints id 3 ((0, 0) : ℚ × ℚ) (10, 0) 0 11 .trapezoidal =
        .ok (azimuths, elevations) ∧
      RespectsRate unitLimiter.azimuthRateLimit 0 10 azimuths ∧
      RespectsRate unitLimiter.elevationRateLimit 0 0 elevations) ↔
        ((0, 0) : ℚ × ℚ) = (10, 0) :=
  generateWaypoints_respects_iff id id 3 0 ⟨by decide, by decide, by decide, by decide⟩
    (by norm_num [axisMinimumTime, unitLimiter]) (by norm_num [axisMinimumTime]) (by decide)

/-- A slew over ten degrees of azimuth, in the minimum time, goes back on its way. -/
theorem not_respectsRate_unitLimiter :
    (axisMinimumTime id |10 - 0| unitLimiter.azimuthRateLimit unitLimiter.azimuthAccelLimit ≤ 11 ∧
      axisMinimumTime id |0 - 0| unitLimiter.elevationRateLimit unitLimiter.elevationAccelLimit ≤
        11) ∧
    ¬ ∃ azimuths elevations,
      generateWaypoints id 3 ((0, 0) : ℚ × ℚ) (10, 0) 0 11 .trapezoidal =
        .ok (azimuths, elevations) ∧
      RespectsRate unitLimiter.azimuthRateLimit 0 10 azimuths ∧
      RespectsRate unitLimiter.elevationRateLimit 0 0 elevations := by
  refine ⟨⟨by norm_num [axisMinimumTime, unitLimiter], by norm_num [axisMinimumTime]⟩, ?_⟩
  rintro ⟨azimuths, elevations, hwaypoints, hazimuths, -⟩
  obtain ⟨rfl, rfl⟩ := Prod.mk.inj (Except.ok.inj hwaypoints)
  have hsame : (0 : ℚ) = 10 := hazimuths.start_eq (by decide)
  norm_num at hsame

end SlewLimiter

end GroundCore.Acs
