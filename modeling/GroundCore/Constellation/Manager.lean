import GroundCore.Constellation.Pass

/-! A constellation of satellites, its propagation, the refresh of its elements, and the passes of
all its satellites. -/

set_option linter.dupNamespace false

namespace GroundCore.Constellation

open Lib

noncomputable section

structure Constellation (sgp4 : Sgp4) where
  name : String
  satellites : HashMap SatelliteId (Satellite sgp4)
  updatedAt : DateTime

structure ConstellationSnapshot where
  constellationName : String
  timestamp : DateTime
  states : HashMap SatelliteId OrbitalState

/-- What fetching the elements of a satellite gives: two lines and their source. -/
abbrev Fetch := SatelliteId → Result (String × String × String)

variable {sgp4 : Sgp4}

/-- A satellite after what was fetched for it; a failure is only logged. -/
def refreshOne (fetched : Result (String × String × String)) (satellite : Satellite sgp4) :
    Satellite sgp4 :=
  match fetched with
  | .ok (line1, line2, source) =>
    match satellite.refreshTle line1 line2 source with
    | .ok satellite => satellite
    | .error _ => satellite
  | .error _ => satellite

/-- The constants of the satellites under the keys, one after the other until one fails. -/
def initializeEach : List SatelliteId → HashMap SatelliteId (Satellite sgp4) →
    HashMap SatelliteId (Satellite sgp4) × Result Unit
  | [], satellites => (satellites, .ok ())
  | id :: ids, satellites =>
    match satellites.get? id with
    | none => initializeEach ids satellites
    | some satellite =>
      match satellite.initializeConstants with
      | .error e => (satellites, .error e)
      | .ok satellite => initializeEach ids (satellites.insert id satellite)

namespace Constellation

def new (name : String) (now : DateTime) : Constellation sgp4 :=
  { name, satellites := ∅, updatedAt := now }

def addSatellite (c : Constellation sgp4) (satellite : Satellite sgp4) (now : DateTime) :
    Constellation sgp4 :=
  { c with satellites := c.satellites.insert satellite.id satellite, updatedAt := now }

def removeSatellite (c : Constellation sgp4) (satelliteId : SatelliteId) : Constellation sgp4 :=
  { c with satellites := c.satellites.erase satelliteId }

def getSatellite (c : Constellation sgp4) (satelliteId : SatelliteId) :
    Option (Satellite sgp4) :=
  c.satellites.get? satelliteId

/-- The satellites are visited in the order `ord`, as in what follows. -/
def initializeAll (c : Constellation sgp4) (ord : IterOrder SatelliteId) :
    Constellation sgp4 × Result Unit :=
  let (satellites, result) := initializeEach (ord.order c.satellites.keys) c.satellites
  ({ c with satellites }, result)

def propagate (c : Constellation sgp4) (ord : IterOrder (SatelliteId × Satellite sgp4))
    (time : DateTime) : Result ConstellationSnapshot := do
  let states ← (ord.order c.satellites.entries).foldlM
    (fun states e => do
      let state ← e.2.propagate time
      return states.insert e.1 state) (∅ : HashMap SatelliteId OrbitalState)
  return { constellationName := c.name, timestamp := time, states }

/-- The clock is read for each satellite, and once at the end. -/
def batchRefresh (c : Constellation sgp4) (ord : IterOrder (SatelliteId × Satellite sgp4))
    (fetchFn : Fetch) (maxAgeHours : ℤ) (clock : SatelliteId → DateTime) (now : DateTime) :
    Constellation sgp4 :=
  let satellitesToRefresh := ((ord.order c.satellites.entries).filter fun e =>
    e.2.needsRefresh maxAgeHours (clock e.1)).map Prod.fst
  { c with
    satellites := satellitesToRefresh.foldl
      (fun satellites id => satellites.modify id (refreshOne (fetchFn id))) c.satellites
    updatedAt := now }

end Constellation

/-! ### Passes of all satellites -/

/-- The times from `start` to `stop` in steps of so many seconds. -/
def sampleTimes (start stop : DateTime) (stepSec : UInt64) (hstep : 0 < stepSec.toInt64.toInt) :
    List DateTime :=
  if _hle : start ≤ stop then
    start :: sampleTimes (start + Duration.seconds stepSec.toInt64.toInt) stop stepSec hstep
  else []
termination_by (stop + 1 - start).toNat
decreasing_by
  have hle : @LE.le ℤ Int.instLEInt start stop := _hle
  simp only [Duration.seconds]
  omega

/-- The states of a satellite at the times, up to the first that fails. -/
def sampleStates (satellite : Satellite sgp4) (times : List DateTime) :
    Result (List OrbitalState) :=
  times.mapM satellite.propagate

/-- The passes of one satellite over each station, added to those that were found. -/
def addPasses (predictor : PassPredictor) (ordStations : IterOrder StationId)
    (satelliteId : SatelliteId) (orbitalStates : List OrbitalState) (now : DateTime)
    (allPasses : HashMap StationId (List Pass)) : Result (HashMap StationId (List Pass)) :=
  (ordStations.order predictor.stations.keys).foldlM (fun allPasses stationId => do
    let passes ← predictor.predictPasses satelliteId orbitalStates stationId now
    if passes.isEmpty then return allPasses
    else return allPasses.insert stationId ((allPasses.get? stationId).getD [] ++ passes)) allPasses

/-- The step is at least a second as an `i64`; with another the source does not return. -/
def PassPredictor.predictAllPasses (predictor : PassPredictor) (c : Constellation sgp4)
    (ord : IterOrder (SatelliteId × Satellite sgp4)) (ordStations : IterOrder StationId)
    (startTime endTime : DateTime) (stepSec : UInt64) (hstep : 0 < stepSec.toInt64.toInt)
    (now : DateTime) : Result (HashMap StationId (List Pass)) :=
  (ord.order c.satellites.entries).foldlM (fun allPasses e => do
    let orbitalStates ← sampleStates e.2 (sampleTimes startTime endTime stepSec hstep)
    addPasses predictor ordStations e.1 orbitalStates now allPasses)
    (∅ : HashMap StationId (List Pass))

end

end GroundCore.Constellation
