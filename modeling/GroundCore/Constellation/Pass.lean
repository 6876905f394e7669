import GroundCore.Core.Types
import GroundCore.Lib.Sgp4
import GroundCore.Lib.Angles
import GroundCore.Lib.HashMap

/-! Satellites that are propagated by SGP4.  What SGP4 computes from a set of elements is kept
beside the elements, until they are replaced.  Floating-point numbers are read as real numbers.

Passes of a satellite over a ground station: where the station is, how high a satellite stands
above its horizon, and the stretches of sampled states in which it stands high enough. -/

namespace GroundCore.Constellation

open Lib

noncomputable section

abbrev SatelliteId := String

structure Satellite (sgp4 : Sgp4) where
  id : SatelliteId
  name : String
  noradId : UInt32
  elements : sgp4.Elements
  tleEpoch : DateTime
  constants : Option sgp4.Constants
  source : String

structure OrbitalState where
  position : Vector3
  velocity : Vector3
  time : DateTime
  tleEpoch : DateTime

variable {sgp4 : Sgp4}

namespace Satellite

def fromTle (id : SatelliteId) (name : String) (noradId : UInt32) (line1 line2 source : String) :
    Result (Satellite sgp4) :=
  match sgp4.fromTle name line1 line2 with
  | .error e => .error (.tracking ("SGP4 TLE parse error: " ++ e))
  | .ok elements =>
    .ok { id, name, noradId, elements, tleEpoch := sgp4.datetime elements, constants := none
          source }

def initializeConstants (s : Satellite sgp4) : Result (Satellite sgp4) :=
  match sgp4.fromElements s.elements with
  | .error e => .error (.tracking ("SGP4 constants error: " ++ e))
  | .ok constants => .ok { s with constants := some constants }

/-- The minutes, from whole seconds, that have passed since the epoch. -/
def minutesSinceEpoch (tleEpoch time : DateTime) : ℝ :=
  (Int.tdiv (time - tleEpoch) (Duration.seconds 1) : ℤ) / 60

def propagate (s : Satellite sgp4) (time : DateTime) : Result OrbitalState :=
  match s.constants with
  | none => .error (.tracking "SGP4 constants not initialized")
  | some constants =>
    match sgp4.propagate constants (minutesSinceEpoch s.tleEpoch time) with
    | .error e => .error (.tracking ("SGP4 propagation error: " ++ e))
    | .ok (position, velocity) => .ok { position, velocity, time, tleEpoch := s.tleEpoch }

/-- `now` is the reading of the clock. -/
def needsRefresh (s : Satellite sgp4) (maxAgeHours : ℤ) (now : DateTime) : Bool :=
  let age := now - s.tleEpoch
  decide (maxAgeHours < Int.tdiv age (Duration.hours 1))

def refreshTle (s : Satellite sgp4) (line1 line2 source : String) : Result (Satellite sgp4) :=
  match sgp4.fromTle s.name line1 line2 with
  | .error e => .error (.tracking ("SGP4 TLE parse error: " ++ e))
  | .ok elements =>
    .ok { s with elements, tleEpoch := sgp4.datetime elements, source, constants := none }

end Satellite

end

open Angles Real

noncomputable section

abbrev StationId := String

structure GroundStation where
  id : StationId
  name : String
  latitudeDeg : ℝ
  longitudeDeg : ℝ
  altitudeM : ℝ
  minElevationDeg : ℝ

structure PassWindow where
  riseTime : DateTime
  setTime : DateTime
  maxElevationDeg : ℝ
  maxElevationTime : DateTime

structure Pass where
  satelliteId : String
  stationId : StationId
  window : PassWindow
  maxRangeKm : ℝ

structure PassPredictor where
  stations : HashMap StationId GroundStation

/-- The sidereal angle at Greenwich, from the whole seconds of the time. -/
def gmstRad (time : DateTime) : ℝ :=
  let jd : ℝ := (time / 1000000000 : ℤ) / 86400.0 + 2440587.5
  let gmst := 280.46061837 + 360.98564736629 * (jd - 2451545.0)
  toRadians (fmod gmst 360.0)

namespace GroundStation

def lat (s : GroundStation) : ℝ := toRadians s.latitudeDeg

def lon (s : GroundStation) : ℝ := toRadians s.longitudeDeg

def radius (s : GroundStation) : ℝ :=
  6378.137 / √(1 - 1 / 298.257223563 * sin s.lat * sin s.lat) + s.altitudeM / 1000.0

def toEci (s : GroundStation) (time : DateTime) : Vector3 :=
  let theta := s.lon + gmstRad time
  ![s.radius * cos s.lat * cos theta, s.radius * cos s.lat * sin theta, s.radius * sin s.lat]

/-- East, north and up of a position relative to the station. -/
def enu (s : GroundStation) (relPos : Vector3) : Vector3 :=
  let sinLat := sin s.lat
  let cosLat := cos s.lat
  let sinLon := sin s.lon
  let cosLon := cos s.lon
  ![-sinLon * relPos.x + cosLon * relPos.y,
    -sinLat * cosLon * relPos.x - sinLat * sinLon * relPos.y + cosLat * relPos.z,
    cosLat * cosLon * relPos.x + cosLat * sinLon * relPos.y + sinLat * relPos.z]

/-- Undefined for a satellite at the very place of the station, where the source divides zero by
zero. -/
def elevationFromPosition (s : GroundStation) (satellitePosition : Vector3) (time : DateTime) :
    Option ℝ :=
  let relative := s.enu (satellitePosition - s.toEci time)
  let east := relative.x
  let north := relative.y
  let up := relative.z
  let range := √(east * east + north * north + up * up)
  if range = 0 then none else some (toDegrees (arcsin (up / range)))

end GroundStation

/-! ### The scan over sampled states -/

/-- The variables of the loop over the states. -/
structure Scan where
  passes : List Pass
  inPass : Bool
  currentPass : Option PassWindow
  maxElevation : ℝ
  maxElevationTime : Option DateTime
  maxRange : ℝ

namespace PassPredictor

def new : PassPredictor := { stations := ∅ }

def addStation (p : PassPredictor) (station : GroundStation) : PassPredictor :=
  { stations := p.stations.insert station.id station }

def getStation (p : PassPredictor) (stationId : StationId) : Option GroundStation :=
  p.stations.get? stationId

/-- The length of the position, which is measured from the center of the earth. -/
def rangeOf (state : OrbitalState) : ℝ :=
  √(state.position.x ^ 2 + state.position.y ^ 2 + state.position.z ^ 2)

/-- The elevation of a state that is high enough; an undefined one is not. -/
def visibleElevation (station : GroundStation) (state : OrbitalState) : Option ℝ :=
  (station.elevationFromPosition state.position state.time).filter fun elevation =>
    decide (station.minElevationDeg ≤ elevation)

/-- The window is closed and its pass recorded. -/
def closePass (satelliteId : String) (stationId : StationId) (scan : Scan) (window : PassWindow)
    (setTime maxElevationTime : DateTime) : List Pass :=
  scan.passes ++
    [{ satelliteId, stationId
       window := { window with setTime, maxElevationDeg := scan.maxElevation, maxElevationTime }
       maxRangeKm := scan.maxRange }]

def scanState (satelliteId : String) (stationId : StationId) (station : GroundStation)
    (scan : Scan) (state : OrbitalState) : Scan :=
  let range := rangeOf state
  match visibleElevation station state with
  | some elevation =>
    if !scan.inPass then
      { scan with
        inPass := true
        currentPass := some { riseTime := state.time, setTime := state.time, maxElevationDeg := 0
                              maxElevationTime := state.time }
        maxElevation := elevation, maxElevationTime := some state.time, maxRange := range }
    else
      let scan := if scan.maxElevation < elevation then
        { scan with maxElevation := elevation, maxElevationTime := some state.time } else scan
      if scan.maxRange < range then { scan with maxRange := range } else scan
  | none =>
    if scan.inPass then
      match scan.currentPass with
      | some window =>
        { scan with
          inPass := false, currentPass := none
          passes := closePass satelliteId stationId scan window state.time
            (scan.maxElevationTime.getD state.time) }
      | none => { scan with inPass := false }
    else scan

def initialScan : Scan :=
  { passes := [], inPass := false, currentPass := none, maxElevation := 0
    maxElevationTime := none, maxRange := 0 }

/-- What is recorded when the states end, a pass that is still open included.  `now` is the reading
of the clock, for a pass without states. -/
def finishScan (satelliteId : String) (stationId : StationId) (scan : Scan)
    (lastTime : Option DateTime) (now : DateTime) : List Pass :=
  match scan.inPass, scan.currentPass with
  | true, some window =>
    closePass satelliteId stationId scan window (lastTime.getD now)
      (scan.maxElevationTime.getD now)
  | _, _ => scan.passes

def predictPasses (p : PassPredictor) (satelliteId : String) (orbitalStates : List OrbitalState)
    (stationId : StationId) (now : DateTime) : Result (List Pass) :=
  match p.getStation stationId with
  | none => .error (.tracking ("Station " ++ stationId ++ " not found"))
  | some station =>
    let scan := orbitalStates.foldl (scanState satelliteId stationId station) initialScan
    .ok (finishScan satelliteId stationId scan (orbitalStates.getLast?.map (·.time)) now)

end PassPredictor

end

end GroundCore.Constellation
