import GroundCore.RfLayer.Doppler
import GroundCore.Tracking.Ukf

/-! The two models of the Doppler shift: the predictor, which takes differences of the range, and
the measurement of the filter, which takes the velocity along the line of sight.  They place a
station at the same point on the equator only, and have opposite signs there. -/

namespace GroundCore.RfLayer

open Lib Angles Real Matrix
open Tracking (Vector6 stationToEci gmstRadians rEarth stationVelocityEci dopplerMeasurement
  speedOfLight)

noncomputable section

/-! ### The place of a station -/

section Station

theorem primeVertical_eq (lat : ℝ) :
    primeVertical lat = re / √(1 - flattening * (2 - flattening) * sin lat * sin lat) := by
  have htwo : (2.0 : ℝ) = 2 := by norm_num
  rw [primeVertical, htwo]

theorem eccentricity_le (lat : ℝ) : flattening * (2 - flattening) * sin lat * sin lat ≤
    flattening * (2 - flattening) := by
  have hsq : sin lat * sin lat ≤ 1 := by
    rw [← sq]
    exact sin_sq_le_one lat
  rw [mul_assoc]
  exact mul_le_of_le_one_right (by norm_num [flattening]) hsq

/-- The polar radius of curvature never shrinks to the equatorial radius. -/
theorem primeVertical_mul_ne (lat : ℝ) : primeVertical lat * (1 - flattening) ^ 2 ≠ re := by
  have hle := eccentricity_le lat
  set q := √(1 - flattening * (2 - flattening) * sin lat * sin lat) with hq
  have hlow : 1 - flattening ≤ q := by
    apply Real.le_sqrt_of_sq_le
    linarith [show (1 - flattening) ^ 2 = 1 - flattening * (2 - flattening) by ring]
  have hpos : 0 < q := lt_of_lt_of_le (by norm_num [flattening]) hlow
  intro heq
  rw [primeVertical_eq, ← hq, div_mul_eq_mul_div, div_eq_iff hpos.ne'] at heq
  have hsq : (1 - flattening) ^ 2 = q := mul_left_cancel₀ (by norm_num [re]) heq
  rw [← hsq] at hlow
  norm_num [flattening] at hlow

theorem primeVertical_equator {lat : ℝ} (h : sin lat = 0) : primeVertical lat = re := by
  rw [primeVertical_eq, h, mul_zero, sub_zero, sqrt_one, div_one]

/-- Both models place the station at the same point, in km and in m. -/
def SamePlace (stationLat stationLon stationAlt : ℝ) (time : DateTime) : Prop :=
  (1000 : ℝ) • geodeticToEci stationLat stationLon stationAlt time =
    stationToEci stationLat stationLon (1000 * stationAlt) time

/-- The two places agree on the equator, and nowhere else. -/
theorem samePlace_iff {latDeg lonDeg altKm : ℝ} {time : DateTime} :
    SamePlace latDeg lonDeg altKm time ↔ sin (toRadians latDeg) = 0 := by
  have hradius : rEarth = 1000 * re := by norm_num [rEarth, re]
  have hgmst : gmstRadians time = gmstRad time := rfl
  constructor
  · intro h
    by_contra hsin
    have hz : 1000 * ((primeVertical (toRadians latDeg) * (1 - flattening) ^ 2 + altKm) *
        sin (toRadians latDeg)) = (rEarth + 1000 * altKm) * sin (toRadians latDeg) :=
      congrFun h 2
    rw [← mul_assoc] at hz
    have hradii := mul_right_cancel₀ hsin hz
    rw [hradius] at hradii
    exact primeVertical_mul_ne (toRadians latDeg) (by linarith)
  · intro hsin
    have hn := primeVertical_equator hsin
    funext i
    fin_cases i
    · simp [geodeticToEci, stationToEci, hn, hradius, hgmst]
      ring
    · simp [geodeticToEci, stationToEci, hn, hradius, hgmst]
      ring
    · simp [geodeticToEci, stationToEci, hsin]

end Station

/-! ### The sign of the measurement -/

section Measurement

/-- The state of the filter, in metres, for a position and a velocity in km. -/
def satState (position velocity : Vector3) : Vector6 :=
  ![1000 * position.x, 1000 * position.y, 1000 * position.z, 1000 * velocity.x,
    1000 * velocity.y, 1000 * velocity.z]

/-- How the square of half the distance to a station that turns with the earth grows. -/
def approach (position velocity stationEci : Vector3) : ℝ :=
  (position - stationEci) ⬝ᵥ (velocity - stationVelocityEci stationEci)

variable {position velocity stationEci : Vector3} {carrierHz : ℝ}

theorem rangeTo_eq_norm : rangeTo position stationEci = Tracking.norm (position - stationEci) := by
  simp [rangeTo, Tracking.norm, dotProduct, Fin.sum_univ_three]

theorem norm_smul_thousand (v : Vector3) :
    Tracking.norm ((1000 : ℝ) • v) = 1000 * Tracking.norm v := by
  rw [Tracking.norm, Tracking.norm, smul_dotProduct, dotProduct_smul, smul_eq_mul, smul_eq_mul,
    ← mul_assoc, sqrt_mul (by norm_num), sqrt_mul_self (by norm_num)]

/-- The measurement by relative position and velocity. -/
theorem dopplerMeasurement_eq {state : Vector6} {stationEci rRel vRel : Vector3}
    (hposition : ![state 0, state 1, state 2] - stationEci = rRel)
    (hvelocity : ![state 3, state 4, state 5] - stationVelocityEci stationEci = vRel) :
    dopplerMeasurement state stationEci carrierHz =
      if Tracking.norm rRel < 1 then 0
      else (-carrierHz * ((Tracking.norm rRel)⁻¹ • rRel ⬝ᵥ vRel)) / speedOfLight := by
  subst hposition hvelocity
  rfl

/-- Within a metre of the station the measurement is zero. -/
theorem dopplerMeasurement_satState :
    dopplerMeasurement (satState position velocity) ((1000 : ℝ) • stationEci) carrierHz =
      if 1000 * rangeTo position stationEci < 1 then 0
      else -(carrierHz * (1000 * approach position velocity stationEci /
        (rangeTo position stationEci * speedOfLight))) := by
  have hposition : ![1000 * position 0, 1000 * position 1, 1000 * position 2] -
      (1000 : ℝ) • stationEci = (1000 : ℝ) • (position - stationEci) := by
    funext i
    fin_cases i <;> simp [mul_sub]
  have hvelocity : ![1000 * velocity 0, 1000 * velocity 1, 1000 * velocity 2] -
      stationVelocityEci ((1000 : ℝ) • stationEci) =
        (1000 : ℝ) • (velocity - stationVelocityEci stationEci) := by
    funext i
    fin_cases i
    · simp [stationVelocityEci, vecHead]
      ring
    · simp [stationVelocityEci, vecHead, vecTail]
      ring
    · simp [stationVelocityEci, vecHead, vecTail]
  rw [dopplerMeasurement_eq hposition hvelocity, norm_smul_thousand, ← rangeTo_eq_norm,
    smul_dotProduct, smul_dotProduct, dotProduct_smul, ← approach]
  refine if_congr Iff.rfl rfl ?_
  simp only [smul_eq_mul]
  by_cases hzero : rangeTo position stationEci = 0
  · simp [hzero]
  · field_simp

/-- The measurement is positive where the satellite comes nearer. -/
theorem sign_dopplerMeasurement :
    SignType.sign (dopplerMeasurement (satState position velocity) ((1000 : ℝ) • stationEci)
      carrierHz) = if 1000 * rangeTo position stationEci < 1 then 0
        else -(SignType.sign carrierHz *
          SignType.sign (approach position velocity stationEci)) := by
  rw [dopplerMeasurement_satState]
  split
  · exact sign_zero
  · next hfar =>
    have hrange : 0 < rangeTo position stationEci := by linarith [not_lt.mp hfar]
    have hscale : 0 < 1000 / (rangeTo position stationEci * speedOfLight) :=
      div_pos (by norm_num) (mul_pos hrange (by norm_num [speedOfLight]))
    rw [Left.sign_neg, sign_mul, mul_comm (1000 : ℝ), mul_div_assoc,
      sign_mul (approach position velocity stationEci), sign_pos hscale, mul_one]

end Measurement

/-! ### Both models along a motion -/

/-- The length of a step in seconds. -/
def stepSec (stepMs : ℕ) : ℝ := stepMs / 1000.0

theorem stepSec_pos {stepMs : ℕ} (h : 0 < stepMs) : 0 < stepSec stepMs :=
  div_pos (Nat.cast_pos.mpr h) (by norm_num)

/-- A motion of satellite and station in seconds after a time, through what the predictor takes for
their places at that time and one step later. -/
structure Motion (sgp4 : Sgp4) (constants : sgp4.Constants) (tleEpoch : DateTime)
    (stationLat stationLon stationAlt : ℝ) (stepMs : ℕ) (time : DateTime) where
  satellite : ℝ → Vector3
  station : ℝ → Vector3
  velocity : Vector3
  stationVelocity : Vector3
  futureVelocity : Vector3
  step_pos : 0 < stepMs
  propagate_now : sgp4.propagate constants (minutesSinceEpoch tleEpoch time) =
    .ok (satellite 0, velocity)
  propagate_step : sgp4.propagate constants (minutesSinceEpoch tleEpoch
    (time + Duration.milliseconds stepMs)) = .ok (satellite (stepSec stepMs), futureVelocity)
  station_now : station 0 = geodeticToEci stationLat stationLon stationAlt time
  station_step : station (stepSec stepMs) =
    geodeticToEci stationLat stationLon stationAlt (time + Duration.milliseconds stepMs)
  hasDeriv_satellite : HasDerivWithinAt satellite velocity (Set.Ici 0) 0
  hasDeriv_station : HasDerivWithinAt station stationVelocity (Set.Ici 0) 0

namespace Motion

variable {sgp4 : Sgp4} {constants : sgp4.Constants} {tleEpoch : DateTime}
  {stationLat stationLon stationAlt : ℝ} {stepMs : ℕ} {time : DateTime}
  (m : Motion sgp4 constants tleEpoch stationLat stationLon stationAlt stepMs time)

def range (s : ℝ) : ℝ := rangeTo (m.satellite s) (m.station s)

/-- The range grows all through the step, and at a positive rate in its beginning. -/
def Recedes : Prop :=
  MonotoneOn m.range (Set.Icc 0 (stepSec stepMs)) ∧
    ∃ d, 0 < d ∧ HasDerivWithinAt m.range d (Set.Ici 0) 0

/-- At least a metre away, the satellite comes nearer to a station that turns with the earth. -/
def NearsTurningStation : Prop :=
  1 ≤ 1000 * m.range 0 ∧ approach (m.satellite 0) m.velocity (m.station 0) < 0

variable {m}

theorem range_lt (h : m.Recedes) : m.range 0 < m.range (stepSec stepMs) := by
  obtain ⟨hmono, d, hd, hderiv⟩ := h
  have hstep : 0 < stepSec stepMs := stepSec_pos m.step_pos
  have hslope := (hasDerivWithinAt_iff_tendsto_slope' Set.self_notMem_Ioi).mp
    (hderiv.mono Set.Ioi_subset_Ici_self)
  have hgrows := (hslope.eventually (lt_mem_nhds hd)).and (Ioo_mem_nhdsGT hstep)
  obtain ⟨s, hs, hs0, hs1⟩ := hgrows.exists
  rw [slope_def_field, sub_zero, div_pos_iff_of_pos_right hs0, sub_pos] at hs
  exact hs.trans_le (hmono ⟨hs0.le, hs1.le⟩ ⟨hstep.le, le_rfl⟩ hs1.le)

variable (m) in
theorem untruncatedOffset_eq (p : DopplerPredictor sgp4) :
    p.untruncatedOffset constants tleEpoch stationLat stationLon stationAlt stepMs time =
      some (p.carrierFrequency *
        ((m.range (stepSec stepMs) - m.range 0) / (stepSec stepMs) / c)) := by
  simp only [DopplerPredictor.untruncatedOffset, m.propagate_now, m.propagate_step,
    ← m.station_now, ← m.station_step, range, stepSec]

/-- Along a growing range the offset has the sign of the carrier. -/
theorem sign_untruncatedOffset (h : m.Recedes) (p : DopplerPredictor sgp4) :
    (p.untruncatedOffset constants tleEpoch stationLat stationLon stationAlt stepMs time).map
      SignType.sign = some (SignType.sign p.carrierFrequency) := by
  have hstep : 0 < stepSec stepMs := stepSec_pos m.step_pos
  have hrate : 0 < (m.range (stepSec stepMs) - m.range 0) / (stepSec stepMs) / c :=
    div_pos (div_pos (sub_pos.mpr (range_lt h)) hstep) (by norm_num [c])
  rw [untruncatedOffset_eq m, Option.map_some, sign_mul, sign_pos hrate, mul_one]

variable (m) in
/-- Offset and measurement have the same sign. -/
def SameSign (p : DopplerPredictor sgp4) : Prop :=
  (p.untruncatedOffset constants tleEpoch stationLat stationLon stationAlt stepMs time).map
    SignType.sign = some (SignType.sign (dopplerMeasurement (satState (m.satellite 0) m.velocity)
      (stationToEci stationLat stationLon (1000 * stationAlt) time) p.carrierFrequency))

theorem sameSign_iff (hplace : SamePlace stationLat stationLon stationAlt time)
    (h : m.Recedes) (p : DopplerPredictor sgp4) :
    m.SameSign p ↔ p.carrierFrequency = 0 ∨ m.NearsTurningStation := by
  have hmeasure : SignType.sign (dopplerMeasurement (satState (m.satellite 0) m.velocity)
      ((1000 : ℝ) • m.station 0) p.carrierFrequency) = _ := sign_dopplerMeasurement
  have hcarrier : SignType.sign p.carrierFrequency = 0 ↔ p.carrierFrequency = 0 :=
    sign_eq_zero_iff
  rw [SameSign, sign_untruncatedOffset h, ← hplace, ← m.station_now, hmeasure, Option.some_inj,
    NearsTurningStation, ← sign_eq_neg_one_iff, range, ← not_lt, ← hcarrier]
  split
  · next hnear => simp [hnear]
  · next hfar =>
    simp only [hfar, not_false_eq_true, true_and]
    generalize SignType.sign p.carrierFrequency = carrier
    generalize SignType.sign (approach (m.satellite 0) m.velocity (m.station 0)) = rate
    revert carrier rate
    decide

/-- The rate at which the range grows, by the velocities along the line of sight. -/
theorem hasDeriv_range (hpos : 0 < m.range 0) :
    HasDerivWithinAt m.range
      ((m.satellite 0 - m.station 0) ⬝ᵥ (m.velocity - m.stationVelocity) / m.range 0)
      (Set.Ici 0) 0 := by
  have hrelative := fun i => (hasDerivWithinAt_pi.mp m.hasDeriv_satellite i).sub
    (hasDerivWithinAt_pi.mp m.hasDeriv_station i)
  have hsquare := fun i => (hrelative i).mul (hrelative i)
  have hne : m.range 0 ≠ 0 := hpos.ne'
  have hroot := (((hsquare 0).add (hsquare 1)).add (hsquare 2)).sqrt (Real.sqrt_pos.mp hpos).ne'
  refine hroot.congr_deriv ?_
  simp only [dotProduct, Fin.sum_univ_three, Pi.sub_apply]
  have hrange : √((m.satellite 0 0 - m.station 0 0) * (m.satellite 0 0 - m.station 0 0) +
      (m.satellite 0 1 - m.station 0 1) * (m.satellite 0 1 - m.station 0 1) +
      (m.satellite 0 2 - m.station 0 2) * (m.satellite 0 2 - m.station 0 2)) = m.range 0 := rfl
  simp only [Pi.add_apply, Pi.mul_apply, Pi.sub_apply]
  rw [hrange]
  field_simp
  ring

/-- A range that grows from a station that turns with the earth is not one that shrinks. -/
theorem not_nearsTurningStation (hturns : m.stationVelocity = stationVelocityEci (m.station 0))
    (h : m.Recedes) : ¬ m.NearsTurningStation := by
  rintro ⟨hfar, hnears⟩
  obtain ⟨-, d, hd, hderiv⟩ := h
  have hpos : 0 < m.range 0 := by linarith
  have hrate := (uniqueDiffOn_Ici 0 0 Set.self_mem_Ici).eq_deriv _ hderiv (hasDeriv_range hpos)
  rw [hturns] at hrate
  exact absurd (hrate ▸ hd) (not_lt.mpr (div_neg_of_neg_of_pos hnears hpos).le)

end Motion

/-- The two models agree exactly on the equator, and there along a range that grows only for a
carrier of zero or a station that does not turn with the earth. -/
theorem doppler_models_iff {sgp4 : Sgp4} (p : DopplerPredictor sgp4) {constants : sgp4.Constants}
    {tleEpoch : DateTime} {stationLat stationLon stationAlt : ℝ} {stepMs : ℕ} {time : DateTime}
    (m : Motion sgp4 constants tleEpoch stationLat stationLon stationAlt stepMs time) :
    (SamePlace stationLat stationLon stationAlt time ∧ (m.Recedes → m.SameSign p)) ↔
      sin (toRadians stationLat) = 0 ∧
        (m.Recedes → p.carrierFrequency = 0 ∨ m.NearsTurningStation) := by
  rw [samePlace_iff]
  refine and_congr_right fun hequator => forall_congr' fun h => ?_
  exact Motion.sameSign_iff (samePlace_iff.mpr hequator) h p

/-! ### A satellite that climbs above a station on the equator -/

/-- The station, at latitude and longitude zero. -/
def equatorStation : Vector3 := geodeticToEci 0 0 0 0

/-- A propagator for a satellite that climbs straight above the station, by about a kilometre each
second. -/
def climbing : Sgp4 where
  Elements := Unit
  Constants := Unit
  fromTle _ _ _ := .ok ()
  datetime _ := 0
  fromElements _ := .ok ()
  propagate _ minutes := .ok ((1.1 + minutes / 100.0) • equatorStation,
    (1 / 6000 : ℝ) • equatorStation)

theorem dotProduct_equatorStation : equatorStation ⬝ᵥ equatorStation = re ^ 2 := by
  have hlat : sin (toRadians 0) = 0 := by simp [toRadians]
  have hn := primeVertical_equator hlat
  simp only [toRadians, zero_mul] at hn
  simp only [equatorStation, geodeticToEci, toRadians, zero_mul, hn, cos_zero, sin_zero,
    dotProduct, Fin.sum_univ_three, cons_val_zero, cons_val_one, cons_val]
  have hcircle := cos_sq_add_sin_sq (remEuclid (gmstRad 0 + 0) (2.0 * π))
  linear_combination re ^ 2 * hcircle

theorem propagate_climbing {minutes k : ℝ} (h : 1.1 + minutes / 100.0 = k) :
    climbing.propagate () minutes =
      .ok (k • equatorStation, (1 / 6000 : ℝ) • equatorStation) := by
  subst h
  rfl

/-- The hundred milliseconds lie within one second, for which the station stands still. -/
def climb : Motion climbing () 0 0 0 0 100 0 where
  satellite s := (1.1 + s / 6000) • equatorStation
  station _ := equatorStation
  velocity := (1 / 6000 : ℝ) • equatorStation
  stationVelocity := 0
  futureVelocity := (1 / 6000 : ℝ) • equatorStation
  step_pos := by norm_num
  propagate_now := propagate_climbing (by simp [minutesSinceEpoch])
  propagate_step := by
    have hwhole : Int.tdiv (0 + Duration.milliseconds (100 : ℕ) - 0) (Duration.milliseconds 1) =
        100 := by decide
    apply propagate_climbing
    rw [minutesSinceEpoch, hwhole, stepSec]
    norm_num
  station_now := rfl
  station_step := by
    have hsecond : gmstRad (0 + Duration.milliseconds (100 : ℕ)) = gmstRad 0 := by
      norm_num [gmstRad, Duration.milliseconds]
    rw [geodeticToEci, hsecond]
    rfl
  hasDeriv_satellite := by
    have hscale : HasDerivAt (fun s : ℝ => 1.1 + s / 6000) (1 / 6000) 0 :=
      ((hasDerivAt_id _).div_const 6000).const_add 1.1
    exact (hscale.smul_const equatorStation).hasDerivWithinAt
  hasDeriv_station := hasDerivWithinAt_const _ _ _

theorem range_climb {s : ℝ} (hs : 0 ≤ s) : climb.range s = (0.1 + s / 6000) * re := by
  have hrelative : (1.1 + s / 6000) • equatorStation - equatorStation =
      (0.1 + s / 6000) • equatorStation := by
    nth_rewrite 2 [← one_smul ℝ equatorStation]
    rw [← sub_smul]
    congr 1
    ring
  have hscale : 0 ≤ 0.1 + s / 6000 := by positivity
  show rangeTo ((1.1 + s / 6000) • equatorStation) equatorStation = _
  rw [rangeTo_eq_norm, hrelative, Tracking.norm, smul_dotProduct, dotProduct_smul,
    dotProduct_equatorStation, smul_eq_mul, smul_eq_mul, ← mul_assoc,
    sqrt_mul (mul_self_nonneg _), sqrt_mul_self hscale, sqrt_sq (by norm_num [re])]

theorem recedes_climb : climb.Recedes := by
  constructor
  · intro s hs t ht hle
    rw [range_climb hs.1, range_climb ht.1]
    have hre : (0 : ℝ) ≤ re := by norm_num [re]
    gcongr
  · refine ⟨1 / 6000 * re, by norm_num [re], ?_⟩
    have hscaled : HasDerivAt (fun s : ℝ => s / 6000) (1 / 6000) 0 :=
      (hasDerivAt_id' (0 : ℝ)).div_const 6000
    have hlinear : HasDerivAt (fun s : ℝ => (0.1 + s / 6000) * re) (1 / 6000 * re) 0 :=
      (hscaled.const_add 0.1).mul_const re
    exact hlinear.hasDerivWithinAt.congr (fun s hs => range_climb hs) (range_climb le_rfl)

theorem not_nearsTurningStation_climb : ¬ climb.NearsTurningStation := by
  rintro ⟨-, hnears⟩
  have happroach : approach (climb.satellite 0) climb.velocity (climb.station 0) =
      0.1 / 6000 * (equatorStation ⬝ᵥ equatorStation) := by
    show approach ((1.1 + 0 / 6000) • equatorStation) ((1 / 6000 : ℝ) • equatorStation)
      equatorStation = _
    simp only [approach, stationVelocityEci, dotProduct, Fin.sum_univ_three, Pi.sub_apply,
      Pi.smul_apply, smul_eq_mul, cons_val_zero, cons_val_one, cons_val]
    ring
  rw [happroach, dotProduct_equatorStation] at hnears
  exact absurd hnears (not_lt.mpr (by positivity))

/-- At a latitude of 45 degrees the two models place the station at different points, and above the
equator their signs differ for a satellite that climbs. -/
theorem doppler_models_differ :
    ¬ SamePlace 45 0 0 0 ∧
    climb.Recedes ∧
    ¬ climb.SameSign { constants := some (), tleEpoch := some 0, station := (0, 0, 0)
                       carrierFrequency := 2.2e9 } := by
  refine ⟨fun hplace => ?_, recedes_climb, fun hsign => ?_⟩
  · have hlat : toRadians 45 = π / 4 := by
      rw [toRadians]
      ring
    have hsin := samePlace_iff.mp hplace
    rw [hlat, sin_pi_div_four] at hsin
    exact absurd hsin (by positivity)
  · have hequator : sin (toRadians 0) = 0 := by simp [toRadians]
    rcases (Motion.sameSign_iff (samePlace_iff.mpr hequator) recedes_climb _).mp hsign
      with hcarrier | hnears
    · norm_num at hcarrier
    · exact not_nearsTurningStation_climb hnears

end

end GroundCore.RfLayer
