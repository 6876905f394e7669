import GroundCore.Core.Types
import GroundCore.Lib.Angles
import GroundCore.Lib.SaturatingCast
import GroundCore.Lib.Sgp4

/-! The prediction of Doppler offsets from an orbit that SGP4 propagates, by differences of the
range over one step.  Floating-point numbers are read as real numbers. -/

namespace GroundCore.RfLayer

open Lib Angles SaturatingCast Real

/-- In Hz from the base frequency. -/
abbrev FrequencyOffset := ℤ

noncomputable section

/-- The speed of light in km/s. -/
def c : ℝ := 299792.458

structure DopplerPredictor (sgp4 : Sgp4) where
  constants : Option sgp4.Constants
  tleEpoch : Option DateTime
  /-- Latitude and longitude in degrees, altitude in km. -/
  station : ℝ × ℝ × ℝ
  carrierFrequency : ℝ

/-! ### The place of a station -/

/-- The equatorial radius in km. -/
def re : ℝ := 6378.137

def flattening : ℝ := 1 / 298.257223563

/-- The radius of curvature of the ellipsoid across the meridian. -/
def primeVertical (lat : ℝ) : ℝ :=
  re / √(1 - flattening * (2.0 - flattening) * sin lat * sin lat)

def gmstRad (time : DateTime) : ℝ :=
  let jd : ℝ := 2451545.0 + ((time / 1000000000 : ℤ) - 946727935.816) / 86400.0
  let tUt1 := (jd - 2451545.0) / 36525.0
  let gmstSec := 67310.54841 + (8640184.812866 + (0.093104 - 6.2e-6 * tUt1) * tUt1) * tUt1
  remEuclid (gmstSec * π / 43200.0) (2.0 * π)

/-- In km, from degrees and km. -/
def geodeticToEci (latDeg lonDeg altKm : ℝ) (time : DateTime) : Vector3 :=
  let lat := toRadians latDeg
  let lon := toRadians lonDeg
  let n := primeVertical lat
  let lst := remEuclid (gmstRad time + lon) (2.0 * π)
  ![(n + altKm) * cos lat * cos lst, (n + altKm) * cos lat * sin lst,
    (n * (1 - flattening) ^ 2 + altKm) * sin lat]

/-! ### The prediction -/

/-- The minutes, from whole milliseconds, that have passed since the epoch. -/
def minutesSinceEpoch (tleEpoch time : DateTime) : ℝ :=
  (Int.tdiv (time - tleEpoch) (Duration.milliseconds 1) : ℤ) / 60000.0

def rangeTo (position stationEci : Vector3) : ℝ :=
  let rx := position.x - stationEci.x
  let ry := position.y - stationEci.y
  let rz := position.z - stationEci.z
  √(rx * rx + ry * ry + rz * rz)

namespace DopplerPredictor

variable {sgp4 : Sgp4}

def new (stationLatDeg stationLonDeg stationAltKm carrierFrequency : ℝ) : DopplerPredictor sgp4 :=
  { constants := none
    tleEpoch := none
    station := (stationLatDeg, stationLonDeg, stationAltKm)
    carrierFrequency }

/-- The epoch is replaced before the constants are computed. -/
def loadTle (p : DopplerPredictor sgp4) (tleLine1 tleLine2 : String) :
    DopplerPredictor sgp4 × Result Unit :=
  match sgp4.fromTle "satellite" tleLine1 tleLine2 with
  | .error e => (p, .error (.hardware ("Invalid TLE: " ++ e)))
  | .ok elements =>
    let p := { p with tleEpoch := some (sgp4.datetime elements) }
    match sgp4.fromElements elements with
    | .error e => (p, .error (.hardware ("SGP4 constants error: " ++ e)))
    | .ok constants => ({ p with constants := some constants }, .ok ())

variable (p : DopplerPredictor sgp4) (constants : sgp4.Constants) (tleEpoch : DateTime)
  (stationLat stationLon stationAlt : ℝ) (stepMs : ℕ)

/-- The offset at one time before it is cut to an integer: none where SGP4 fails at that time, and
zero where it fails one step later. -/
def untruncatedOffset (currentTime : DateTime) : Option ℝ :=
  match sgp4.propagate constants (minutesSinceEpoch tleEpoch currentTime) with
  | .error _ => none
  | .ok (position, _) =>
    let stationEci := geodeticToEci stationLat stationLon stationAlt currentTime
    let range := rangeTo position stationEci
    let futureTime := currentTime + Duration.milliseconds stepMs
    match sgp4.propagate constants (minutesSinceEpoch tleEpoch futureTime) with
    | .error _ => some 0
    | .ok (futurePosition, _) =>
      let futureStationEci := geodeticToEci stationLat stationLon stationAlt futureTime
      let futureRange := rangeTo futurePosition futureStationEci
      let stepSec : ℝ := stepMs / 1000.0
      let rangeRate := (futureRange - range) / stepSec
      some (p.carrierFrequency * (rangeRate / c))

/-- The loop over the steps that are left. -/
def predictSteps : ℕ → DateTime → List (DateTime × FrequencyOffset)
  | 0, _ => []
  | steps + 1, currentTime =>
    match p.untruncatedOffset constants tleEpoch stationLat stationLon stationAlt stepMs
      currentTime with
    | none => []
    | some doppler =>
      (currentTime, toI64 doppler) ::
        predictSteps steps (currentTime + Duration.milliseconds stepMs)

def predictDoppler (startTime : DateTime) (durationSec : ℕ) :
    List (DateTime × FrequencyOffset) :=
  match p.constants with
  | none => []
  | some constants =>
    let steps := durationSec * 1000 / stepMs
    match p.tleEpoch with
    | none => []
    | some tleEpoch =>
      p.predictSteps constants tleEpoch stationLat stationLon stationAlt stepMs steps startTime

end DopplerPredictor

end

/-! ### The predicted list -/

namespace DopplerPredictor

variable {sgp4 : Sgp4} {p : DopplerPredictor sgp4} {constants : sgp4.Constants}
  {tleEpoch : DateTime} {stationLat stationLon stationAlt : ℝ} {stepMs : ℕ}

/-- The entries are those of consecutive steps. -/
theorem getElem_predictSteps {steps : ℕ} {time : DateTime} {i : ℕ}
    {entry : DateTime × FrequencyOffset}
    (h : (p.predictSteps constants tleEpoch stationLat stationLon stationAlt stepMs steps
      time)[i]? = some entry) :
    entry.1 = time + Duration.milliseconds (i * stepMs) ∧
      ∃ doppler, p.untruncatedOffset constants tleEpoch stationLat stationLon stationAlt stepMs
        entry.1 = some doppler ∧ entry.2 = toI64 doppler := by
  induction steps generalizing time i with
  | zero =>
    rw [predictSteps, List.getElem?_nil] at h
    contradiction
  | succ steps ih =>
    rw [predictSteps] at h
    split at h
    · rw [List.getElem?_nil] at h
      contradiction
    · next doppler hdoppler =>
      cases i with
      | zero =>
        rw [List.getElem?_cons_zero, Option.some_inj] at h
        subst h
        exact ⟨by simp [Duration.milliseconds], doppler, hdoppler, rfl⟩
      | succ i =>
        rw [List.getElem?_cons_succ] at h
        obtain ⟨htime, hoffset⟩ := ih h
        refine ⟨htime.trans ?_, hoffset⟩
        simp only [Duration.milliseconds]
        push_cast
        ring

theorem getElem_predictDoppler {startTime : DateTime} {durationSec i : ℕ}
    {entry : DateTime × FrequencyOffset}
    (h : (p.predictDoppler stationLat stationLon stationAlt stepMs startTime
      durationSec)[i]? = some entry) :
    entry.1 = startTime + Duration.milliseconds (i * stepMs) ∧ InI64 entry.2 := by
  unfold predictDoppler at h
  cases hconstants : p.constants with
  | none => simp [hconstants] at h
  | some constants =>
    cases hepoch : p.tleEpoch with
    | none => simp [hconstants, hepoch] at h
    | some tleEpoch =>
      simp only [hconstants, hepoch] at h
      obtain ⟨htime, doppler, -, hoffset⟩ := getElem_predictSteps h
      exact ⟨htime, hoffset ▸ inI64_toI64⟩

end DopplerPredictor

end GroundCore.RfLayer
