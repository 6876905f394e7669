import GroundCore.Bitemporal.Timestamp
import GroundCore.Oisl.Topology.Routing
import GroundCore.Lib.FloatOps
import GroundCore.Lib.HashMap

/-! The intents of the mission plane and the plans that they are compiled to.

The state of the constellation: its satellites, their terminals, and the ground stations.  What
is read by iterating over a map is read in an order that is a parameter. -/

namespace GroundCore.Oisl.Mission

open Bitemporal Oisl.Topology

abbrev AssetId := String

abbrev IntentId := Uuid

abbrev PlanId := Uuid

abbrev LinkId := Uuid

/-- A number of bytes. -/
structure Bytes where
  count : ℕ
  deriving DecidableEq

structure GeoRegion where
  name : String
  deriving DecidableEq

inductive SensorType
  | optical
  | sar
  | infrared
  | hyperspectral
  deriving DecidableEq, Repr

inductive ObjectiveType
  | dataRelay (source destination : AssetId) (volume : Bytes)
  | observation (target : GeoRegion) (sensor : SensorType) (revisitRate : Duration)
  | custody (target : AssetId) (persistence : Duration)
  | downlink (satellite : SatelliteId) (groundWindow : TimeWindow)

structure ServiceLevelAgreement where
  priority : Priority
  deadline : Option DateTime

structure MissionIntent where
  intentId : IntentId
  objective : ObjectiveType
  constraints : IntentConstraints
  sla : ServiceLevelAgreement

inductive TaskType
  | observation (target : GeoRegion) (sensor : SensorType)
  | downlink (groundStation : AssetId)
  | opticalLinkEstablishment (peerTerminal : TerminalId)
  | dataRelay (source destination : AssetId)
  | dataTransfer (volume : Bytes)
  deriving DecidableEq

structure SatelliteTask where
  taskId : TaskId
  satelliteId : SatelliteId
  taskType : TaskType
  scheduledWindow : TimeWindow
  dependencies : List TaskId
  priority : Priority
  deriving DecidableEq

structure LinkReservation where
  linkId : LinkId
  source : SatelliteId
  destination : SatelliteId
  terminalA : TerminalId
  terminalB : TerminalId
  timeWindow : TimeWindow
  bandwidth : BandwidthAllocation
  deriving DecidableEq

structure TaskingPlan where
  planId : PlanId
  intentId : IntentId
  satelliteTasks : List SatelliteTask
  linkReservations : List LinkReservation
  compiledAt : BiTemporal DateTime
  validUntil : DateTime
  confidence : ConfidenceScore

inductive ValidationWarningType
  | lowConfidenceRoute
  | resourceContention
  | timingMargin
  | regulatoryConcern
  deriving DecidableEq, Repr

inductive ValidationSeverity
  | info
  | warning
  | error
  deriving DecidableEq, Repr

structure ValidationWarning where
  warningType : ValidationWarningType
  message : String
  severity : ValidationSeverity
  deriving DecidableEq

inductive CompilationError
  | noFeasibleRoute (source destination : String)
  | invalidIntent (message : String)
  deriving DecidableEq

open Lib

variable {F64 F32 : Type}

structure OrbitalPosition (F64 : Type) where
  latitude : F64
  longitude : F64

structure SatelliteState (F64 : Type) where
  satelliteId : SatelliteId
  orbitalPosition : OrbitalPosition F64
  opticalTerminals : List TerminalId

structure TerminalState where
  terminalId : TerminalId
  satelliteId : SatelliteId

structure WeatherConditions (F64 : Type) where
  cloudCoverPercent : F64

structure GroundStationState (F64 : Type) where
  stationId : AssetId
  location : F64 × F64
  availability : List TimeWindow
  weatherConditions : WeatherConditions F64

structure ConstellationState (F64 : Type) where
  satellites : HashMap SatelliteId (SatelliteState F64)
  opticalTerminals : HashMap TerminalId TerminalState
  groundStations : HashMap AssetId (GroundStationState F64)

/-- The orders in which the maps of a constellation are iterated. -/
structure ConstellationOrder (F64 : Type) where
  satellites : IterOrder (SatelliteId × SatelliteState F64)
  opticalTerminals : IterOrder TerminalState
  groundStations : IterOrder (AssetId × GroundStationState F64)

namespace ConstellationState

variable (constellation : ConstellationState F64) (order : ConstellationOrder F64)

def resolveAssetToSatellite (asset : AssetId) : Option SatelliteId :=
  if (constellation.satellites.get? asset).isSome then some asset
  else
    ((order.opticalTerminals.order constellation.opticalTerminals.values).find? fun terminal =>
      terminal.terminalId.hyphenated = asset).map (·.satelliteId)

variable [TrigOps F64 F32]

def calculateGeometryScore (orbPos : OrbitalPosition F64) (stationLoc : F64 × F64)
    (weather : WeatherConditions F64) : F64 :=
  let latDiff := TrigOps.toRadians (orbPos.latitude - stationLoc.1)
  let lonDiff := TrigOps.toRadians (orbPos.longitude - stationLoc.2)
  let elevation := TrigOps.acos (FloatOps.sin latDiff * FloatOps.sin latDiff +
    FloatOps.cos latDiff * FloatOps.cos latDiff * FloatOps.cos lonDiff)
  let elevationDeg := TrigOps.toDegrees elevation
  let elevationScore : F64 :=
    if FloatOps.lt (FloatOps.lit 30) elevationDeg then FloatOps.lit 1
    else if FloatOps.lt (FloatOps.lit 10) elevationDeg then FloatOps.lit 0.7
    else FloatOps.lit 0.3
  let weatherScore := FloatOps.lit 1 - weather.cloudCoverPercent / FloatOps.lit 100
  (elevationScore + weatherScore) / FloatOps.lit 2

/-- The turn of the loop of `findOptimalGroundStation` for one station. -/
def betterStation (satState : SatelliteState F64) (window : TimeWindow)
    (best : Option AssetId × F64) (entry : AssetId × GroundStationState F64) :
    Option AssetId × F64 :=
  let (stationId, station) := entry
  if !station.availability.any fun avail => avail.overlaps window then best
  else if FloatOps.lt (FloatOps.lit 80) station.weatherConditions.cloudCoverPercent then best
  else
    let score := calculateGeometryScore satState.orbitalPosition station.location
      station.weatherConditions
    if FloatOps.lt best.2 score then (some stationId, score) else best

def findOptimalGroundStation (satellite : SatelliteId) (window : TimeWindow) : Option AssetId :=
  match constellation.satellites.get? satellite with
  | none => none
  | some satState =>
    ((order.groundStations.order constellation.groundStations.entries).foldl
      (betterStation satState window) (none, FloatOps.lit 0)).1

end ConstellationState

end GroundCore.Oisl.Mission
