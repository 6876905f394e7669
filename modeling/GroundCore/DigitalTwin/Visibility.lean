import GroundCore.Bitemporal.Timestamp
import GroundCore.Constellation.PassGeometry

/-! Which satellites the twin sees from a station.  Floating-point numbers are read as real
numbers.  A station sees the part of the sky whose central angle from its vertical is below a bound
that grows with the distance of the satellite; a station that was never placed is at the center of
the earth, and its bound does not. -/

namespace GroundCore.DigitalTwin

open Lib Angles Real Matrix
open Constellation (normSq normSq_nonneg rotate normSq_rotate)

noncomputable section

structure GroundStation where
  stationId : String
  lat : ℝ
  lon : ℝ
  alt : ℝ

structure Position where
  position : Vector3
  velocity : Vector3
  time : DateTime

/-- The components that `add_ground_station` spawns a station with, at the reading of the clock. -/
def addGroundStation (stationId : String) (lat lon alt : ℝ) (now : DateTime) :
    GroundStation × Position :=
  (⟨stationId, lat, lon, alt⟩, ⟨0, 0, now⟩)

/-- Greenwich Mean Sidereal Time (radians). -/
def gmst (time : DateTime) : ℝ :=
  let jd : ℝ := 2451545.0 + ((time / 1000000000 : ℤ) - 946727935.816) / 86400.0
  let tUt1 := (jd - 2451545.0) / 36525.0
  let gmstSec := 67310.54841 + (8640184.812866 + (0.093104 - 6.2e-6 * tUt1) * tUt1) * tUt1
  remEuclid (gmstSec * π / 43200.0) (2.0 * π)

def eciToEcef (eci : Vector3) (time : DateTime) : Vector3 :=
  let theta := gmst time
  let cosTheta := cos theta
  let sinTheta := sin theta
  ![eci.x * cosTheta + eci.y * sinTheta, -eci.x * sinTheta + eci.y * cosTheta, eci.z]

def ecefToEnu (ecef stationEcef east north up : Vector3) : Vector3 :=
  let rel := ecef - stationEcef
  ![rel ⬝ᵥ east, rel ⬝ᵥ north, rel ⬝ᵥ up]

/-- East, north and up. -/
def localEnuVectors (latDeg lonDeg : ℝ) : Vector3 × Vector3 × Vector3 :=
  let lat := toRadians latDeg
  let lon := toRadians lonDeg
  let sinLat := sin lat
  let cosLat := cos lat
  let sinLon := sin lon
  let cosLon := cos lon
  let east := ![-sinLon, cosLon, 0]
  let north := ![-sinLat * cosLon, -sinLat * sinLon, cosLat]
  let up := ![cosLat * cosLon, cosLat * sinLon, sinLat]
  (east, north, up)

/-- The range in km and the elevation in degrees. -/
def computeRangeAndElevation (satPositionEci stationPositionEci : Vector3)
    (stationLat stationLon : ℝ) (time : DateTime) : ℝ × ℝ :=
  let relPosition := satPositionEci - stationPositionEci
  let range := Constellation.norm relPosition
  let stationEcef := eciToEcef stationPositionEci time
  let satEcef := eciToEcef satPositionEci time
  let (east, north, up) := localEnuVectors stationLat stationLon
  let satEnu := ecefToEnu satEcef stationEcef east north up
  let elevation := toDegrees (arcsin (satEnu.z / Constellation.norm satEnu))
  (range, elevation)

def minElevationDeg : ℝ := 5.0

/-- What `visibility_windows` decides of a satellite and a station. -/
def IsVisible (groundStation : GroundStation) (groundPosition satPosition : Position) : Prop :=
  let (_, elevation) := computeRangeAndElevation satPosition.position groundPosition.position
    groundStation.lat groundStation.lon satPosition.time
  minElevationDeg < elevation

/-! ### The frame of the station -/

/-- The vertical of a station, in the frame that turns with the earth. -/
def GroundStation.vertical (s : GroundStation) : Vector3 := (localEnuVectors s.lat s.lon).2.2

theorem eciToEcef_eq (eci : Vector3) (time : DateTime) :
    eciToEcef eci time = rotate (-gmst time) eci := by
  ext i
  fin_cases i <;> simp [eciToEcef, rotate] <;> ring

@[simp] theorem normSq_eciToEcef (eci : Vector3) (time : DateTime) :
    normSq (eciToEcef eci time) = normSq eci := by
  rw [eciToEcef_eq, normSq_rotate]

theorem eciToEcef_sub (v w : Vector3) (time : DateTime) :
    eciToEcef (v - w) time = eciToEcef v time - eciToEcef w time := by
  simp only [eciToEcef_eq, Constellation.rotate_sub]

theorem normSq_eq_dotProduct (v : Vector3) : normSq v = v ⬝ᵥ v := by
  simp only [normSq, dotProduct, Fin.sum_univ_three, Vector3.x_eq, Vector3.y_eq, Vector3.z_eq]
  ring

theorem norm_nonneg (v : Vector3) : 0 ≤ Constellation.norm v := sqrt_nonneg _

theorem normSq_vertical (s : GroundStation) : normSq s.vertical = 1 := by
  have hlat := sin_sq_add_cos_sq (toRadians s.lat)
  have hlon := sin_sq_add_cos_sq (toRadians s.lon)
  simp only [normSq, GroundStation.vertical, localEnuVectors, Vector3.x_eq, Vector3.y_eq,
    Vector3.z_eq, Matrix.cons_val_zero, Matrix.cons_val_one, Matrix.cons_val]
  linear_combination (cos (toRadians s.lat)) ^ 2 * hlon + hlat

/-- The axes of the station are orthonormal. -/
theorem normSq_ecefToEnu (ecef stationEcef : Vector3) (lat lon : ℝ) :
    normSq (ecefToEnu ecef stationEcef (localEnuVectors lat lon).1 (localEnuVectors lat lon).2.1
      (localEnuVectors lat lon).2.2) = normSq (ecef - stationEcef) := by
  have hlat := sin_sq_add_cos_sq (toRadians lat)
  have hlon := sin_sq_add_cos_sq (toRadians lon)
  generalize hrel : ecef - stationEcef = rel
  simp only [normSq, ecefToEnu, localEnuVectors, hrel, dotProduct, Fin.sum_univ_three,
    Vector3.x_eq, Vector3.y_eq, Vector3.z_eq, Matrix.cons_val_zero, Matrix.cons_val_one,
    Matrix.cons_val]
  linear_combination ((cos (toRadians lon) * rel 0 + sin (toRadians lon) * rel 1) ^ 2 +
    rel 2 ^ 2) * hlat + (rel 0 ^ 2 + rel 1 ^ 2) * hlon

theorem elevation_eq (sat station : Vector3) (lat lon : ℝ) (time : DateTime) :
    (computeRangeAndElevation sat station lat lon time).2 =
      toDegrees (arcsin (((eciToEcef sat time - eciToEcef station time) ⬝ᵥ
        (localEnuVectors lat lon).2.2) / Constellation.norm (sat - station))) := by
  have hnorm : Constellation.norm (ecefToEnu (eciToEcef sat time) (eciToEcef station time)
      (localEnuVectors lat lon).1 (localEnuVectors lat lon).2.1 (localEnuVectors lat lon).2.2) =
        Constellation.norm (sat - station) := by
    rw [Constellation.norm, normSq_ecefToEnu, ← eciToEcef_sub, normSq_eciToEcef, Constellation.norm]
  rw [← hnorm]
  rfl

/-! ### The part of the sky that a station sees -/

theorem lt_toDegrees_iff {x y : ℝ} : x < toDegrees y ↔ toRadians x < y := by
  rw [toDegrees, toRadians, ← mul_inv_lt_iff₀ (by positivity), inv_div]

/-- An angle below a right angle more than a half turn is below an arc cosine that is not obtuse
exactly when its cosine is above. -/
theorem lt_arccos_iff {x angle : ℝ} (hx : 0 ≤ x) (hpos : 0 < angle) (hle : angle ≤ π + π / 2) :
    angle < arccos x ↔ x < cos angle := by
  rcases le_or_gt x 1 with hone | hone
  · have hcos : cos (arccos x) = x := cos_arccos (by linarith) hone
    rcases le_or_gt angle π with hhalf | hhalf
    · rw [← (strictAntiOn_cos.lt_iff_gt ⟨arccos_nonneg x, arccos_le_pi x⟩ ⟨hpos.le, hhalf⟩), hcos]
    · have hneg : cos angle ≤ 0 := cos_nonpos_of_pi_div_two_le_of_le (by linarith [pi_pos]) hle
      have harc := arccos_le_pi x
      constructor <;> intro h <;> linarith
  · have hzero : arccos x = 0 := arccos_of_one_le hone.le
    have hcos := cos_le_one angle
    constructor <;> intro h <;> linarith

/-- A line of sight that rises by `h` over `w` is steeper than the angle. -/
theorem sin_lt_div_iff {h w angle : ℝ} (hw : 0 ≤ w) (hpos : 0 < angle) (hlt : angle < π / 2) :
    sin angle < h / √(h ^ 2 + w ^ 2) ↔ w * sin angle < h * cos angle := by
  have hsin : 0 < sin angle := sin_pos_of_pos_of_lt_pi hpos (by linarith [pi_pos])
  have hcos : 0 < cos angle := cos_pos_of_mem_Ioo ⟨by linarith, hlt⟩
  have hunit := sin_sq_add_cos_sq angle
  rcases (sqrt_nonneg (h ^ 2 + w ^ 2)).eq_or_lt with hzero | hdist
  · have hsum : h ^ 2 + w ^ 2 ≤ 0 := sqrt_eq_zero'.mp hzero.symm
    obtain rfl : h = 0 := by nlinarith [sq_nonneg w]
    rw [zero_div, zero_mul]
    have hprod := mul_nonneg hw hsin.le
    constructor <;> intro h <;> linarith
  · have hsq : √(h ^ 2 + w ^ 2) ^ 2 = h ^ 2 + w ^ 2 := sq_sqrt (by positivity)
    rw [lt_div_iff₀ hdist]
    constructor
    · intro hlt
      have hh : 0 < h := (mul_pos hsin hdist).trans hlt
      have hsquares := (sq_lt_sq₀ (mul_nonneg hsin.le hdist.le) hh.le).mpr hlt
      apply (sq_lt_sq₀ (mul_nonneg hw hsin.le) (mul_nonneg hh.le hcos.le)).mp
      nlinarith
    · intro hlt
      have hh : 0 < h := by
        by_contra hneg
        have hprod := mul_nonneg hw hsin.le
        have hprod' := mul_nonneg (neg_nonneg.mpr (not_lt.mp hneg)) hcos.le
        linarith
      have hsquares := (sq_lt_sq₀ (mul_nonneg hw hsin.le) (mul_nonneg hh.le hcos.le)).mpr hlt
      apply (sq_lt_sq₀ (mul_nonneg hsin.le hdist.le) hh.le).mp
      nlinarith

/-- The angle at the center of the earth between a satellite and the vertical of a station. -/
def centralAngle (s : GroundStation) (sat : Position) : ℝ :=
  arccos ((eciToEcef sat.position sat.time ⬝ᵥ s.vertical) / Constellation.norm sat.position)

/-- No part of a vector is longer than the vector. -/
theorem sq_dotProduct_le (v w : Vector3) : (v ⬝ᵥ w) ^ 2 ≤ normSq v * normSq w := by
  have hcross : normSq v * normSq w - (v ⬝ᵥ w) ^ 2 =
      (v 0 * w 1 - v 1 * w 0) ^ 2 + (v 0 * w 2 - v 2 * w 0) ^ 2 +
        (v 1 * w 2 - v 2 * w 1) ^ 2 := by
    simp only [normSq, dotProduct, Fin.sum_univ_three, Vector3.x_eq, Vector3.y_eq, Vector3.z_eq]
    ring
  have hsum : 0 ≤ normSq v * normSq w - (v ⬝ᵥ w) ^ 2 := by
    rw [hcross]
    positivity
  linarith

section Coverage

variable (s : GroundStation) (sat : Position)

/-- The part of a satellite's position along the vertical of a station. -/
theorem dotProduct_vertical : eciToEcef sat.position sat.time ⬝ᵥ s.vertical =
    Constellation.norm sat.position * cos (centralAngle s sat) := by
  have hle := sq_dotProduct_le (eciToEcef sat.position sat.time) s.vertical
  rw [normSq_eciToEcef, normSq_vertical, mul_one] at hle
  have habs : |eciToEcef sat.position sat.time ⬝ᵥ s.vertical| ≤
      Constellation.norm sat.position := abs_le_sqrt hle
  rcases (norm_nonneg sat.position).eq_or_lt with hzero | hpos
  · rw [← hzero] at habs ⊢
    rw [abs_nonpos_iff.mp habs, zero_mul]
  · have hbound : |(eciToEcef sat.position sat.time ⬝ᵥ s.vertical) /
        Constellation.norm sat.position| ≤ 1 := by
      rwa [abs_div, abs_of_pos hpos, div_le_one hpos]
    rw [centralAngle, cos_arccos (abs_le.mp hbound).1 (abs_le.mp hbound).2,
      mul_div_cancel₀ _ hpos.ne']

variable {s sat} {station : Position} {radius : ℝ}

/-- The line of sight rises by the part of the satellite's position along the vertical less the
radius, over the part across it. -/
theorem norm_lineOfSight
    (hplace : eciToEcef station.position sat.time = radius • s.vertical) :
    Constellation.norm (sat.position - station.position) =
      √((Constellation.norm sat.position * cos (centralAngle s sat) - radius) ^ 2 +
        (Constellation.norm sat.position * sin (centralAngle s sat)) ^ 2) := by
  have hsq : Constellation.norm sat.position ^ 2 = normSq sat.position :=
    sq_sqrt (normSq_nonneg _)
  have hexpand : normSq (eciToEcef sat.position sat.time - radius • s.vertical) =
      normSq sat.position - 2 * radius * (eciToEcef sat.position sat.time ⬝ᵥ s.vertical) +
        radius ^ 2 * normSq s.vertical := by
    rw [← normSq_eciToEcef sat.position sat.time]
    simp only [normSq, dotProduct, Fin.sum_univ_three, Vector3.x_eq, Vector3.y_eq, Vector3.z_eq,
      Pi.sub_apply, Pi.smul_apply, smul_eq_mul]
    ring
  rw [Constellation.norm, ← normSq_eciToEcef _ sat.time, eciToEcef_sub, hplace, hexpand,
    dotProduct_vertical, normSq_vertical, ← hsq]
  congr 1
  linear_combination
    -(Constellation.norm sat.position ^ 2) * sin_sq_add_cos_sq (centralAngle s sat)

theorem toRadians_five : 0 < toRadians 5 ∧ toRadians 5 < π / 2 := by
  rw [toRadians]
  constructor <;> linarith [pi_pos]

theorem centralAngle_mem (s : GroundStation) (sat : Position) :
    0 ≤ centralAngle s sat ∧ centralAngle s sat ≤ π := ⟨arccos_nonneg _, arccos_le_pi _⟩

theorem isVisible_iff_lt_cos
    (hplace : eciToEcef station.position sat.time = radius • s.vertical) :
    IsVisible s station sat ↔ radius * cos (toRadians 5) <
      Constellation.norm sat.position * cos (centralAngle s sat + toRadians 5) := by
  have hfive : minElevationDeg = 5 := by norm_num [minElevationDeg]
  obtain ⟨hpos, hright⟩ := toRadians_five
  obtain ⟨hcentral, hhalf⟩ := centralAngle_mem s sat
  have hunit : s.vertical ⬝ᵥ s.vertical = 1 := by rw [← normSq_eq_dotProduct, normSq_vertical]
  have hup : (eciToEcef sat.position sat.time - eciToEcef station.position sat.time) ⬝ᵥ
      s.vertical = Constellation.norm sat.position * cos (centralAngle s sat) - radius := by
    rw [hplace, sub_dotProduct, smul_dotProduct, smul_eq_mul, hunit, mul_one, dotProduct_vertical]
  have hacross : 0 ≤ Constellation.norm sat.position * sin (centralAngle s sat) :=
    mul_nonneg (norm_nonneg _) (sin_nonneg_of_nonneg_of_le_pi hcentral hhalf)
  show minElevationDeg < (computeRangeAndElevation _ _ _ _ _).2 ↔ _
  rw [elevation_eq, ← GroundStation.vertical, hfive, lt_toDegrees_iff, hup,
    lt_arcsin_iff_sin_lt' ⟨by linarith, hright⟩, norm_lineOfSight hplace,
    sin_lt_div_iff hacross hpos hright, cos_add]
  constructor <;> intro h <;> linarith

/-- A satellite at the center is level with every station. -/
theorem centralAngle_center (h : Constellation.norm sat.position = 0) :
    centralAngle s sat = π / 2 := by
  rw [centralAngle, h, div_zero, arccos_zero]

/-- A station that stands at a distance from the center of the earth on its own vertical sees a
satellite exactly when the central angle between them is below the bound of its coverage. -/
theorem isVisible_iff (hradius : 0 ≤ radius)
    (hplace : eciToEcef station.position sat.time = radius • s.vertical) :
    IsVisible s station sat ↔ centralAngle s sat <
      arccos (radius / Constellation.norm sat.position * cos (toRadians 5)) - toRadians 5 := by
  obtain ⟨hpos, hright⟩ := toRadians_five
  obtain ⟨hcentral, hhalf⟩ := centralAngle_mem s sat
  have hcos : 0 < cos (toRadians 5) := cos_pos_of_mem_Ioo ⟨by linarith, hright⟩
  rw [isVisible_iff_lt_cos hplace, lt_sub_iff_add_lt]
  rcases (norm_nonneg sat.position).eq_or_lt with hzero | hnorm
  · rw [← hzero, centralAngle_center hzero.symm, div_zero, zero_mul, zero_mul, arccos_zero]
    have hprod := mul_nonneg hradius hcos.le
    constructor <;> intro h <;> linarith
  · rw [lt_arccos_iff (mul_nonneg (div_nonneg hradius hnorm.le) hcos.le) (by linarith)
      (by linarith), div_mul_eq_mul_div, div_lt_iff₀ hnorm, mul_comm (cos _)]

variable (s sat) in
/-- A point on the vertical of a station. -/
theorem eciToEcef_rotate (radius : ℝ) :
    eciToEcef (rotate (gmst sat.time) (radius • s.vertical)) sat.time = radius • s.vertical := by
  have hunit := sin_sq_add_cos_sq (gmst sat.time)
  rw [eciToEcef_eq]
  ext i
  fin_cases i
  · simp [rotate]
    linear_combination (radius * s.vertical 0) * hunit
  · simp [rotate]
    linear_combination (radius * s.vertical 1) * hunit
  · simp [rotate]

/-- A station on the equator sees a satellite at the zenith. -/
theorem isVisible_zenith :
    let s : GroundStation := ⟨"equator", 0, 0, 0⟩
    let station : Position := ⟨rotate (gmst 0) ((6378 : ℝ) • s.vertical), 0, 0⟩
    let sat : Position := ⟨rotate (gmst 0) ((7378 : ℝ) • s.vertical), 0, 0⟩
    IsVisible s station sat ↔ centralAngle s sat <
      arccos (6378 / Constellation.norm sat.position * cos (toRadians 5)) - toRadians 5 := by
  intro s station sat
  exact isVisible_iff (by norm_num) (eciToEcef_rotate s sat 6378)

/-- The runtime adds a station at the center of the earth: its range to a satellite is the
satellite's distance from there, and it sees the satellite whenever that is less than 85 degrees
from its vertical, at any height. -/
theorem isVisible_added (stationId : String) (lat lon alt : ℝ) (now : DateTime) :
    let (groundStation, groundPosition) := addGroundStation stationId lat lon alt now
    (computeRangeAndElevation sat.position groundPosition.position lat lon sat.time).1 =
        Constellation.norm sat.position ∧
      (IsVisible groundStation groundPosition sat ↔
        centralAngle groundStation sat < toRadians 85) := by
  refine ⟨congrArg Constellation.norm (sub_zero _), ?_⟩
  obtain ⟨hpos, hright⟩ := toRadians_five
  obtain ⟨hcentral, hhalf⟩ := centralAngle_mem ⟨stationId, lat, lon, alt⟩ sat
  have hbound : toRadians 85 = π / 2 - toRadians 5 := by
    rw [toRadians, toRadians]
    ring
  have hplace : eciToEcef (0 : Vector3) sat.time =
      (0 : ℝ) • GroundStation.vertical ⟨stationId, lat, lon, alt⟩ := by
    rw [zero_smul]
    ext i
    fin_cases i <;> simp [eciToEcef]
  show IsVisible _ ⟨0, 0, now⟩ sat ↔ _
  rw [isVisible_iff_lt_cos hplace, zero_mul, hbound, lt_sub_iff_add_lt]
  rcases (norm_nonneg sat.position).eq_or_lt with hzero | hnorm
  · rw [← hzero, centralAngle_center hzero.symm, zero_mul]
    constructor <;> intro h <;> linarith
  · rw [mul_pos_iff_of_pos_left hnorm, ← arccos_zero,
      lt_arccos_iff le_rfl (by linarith) (by linarith)]

end Coverage

end

end GroundCore.DigitalTwin
