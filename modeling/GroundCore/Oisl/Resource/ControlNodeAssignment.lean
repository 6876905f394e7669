import Mathlib.Data.Nat.Bits
import Mathlib.Data.List.Sort
import GroundCore.Lib.Sgp4
import GroundCore.Optical.Attestation.Creation
import GroundCore.Oisl.Topology.ControlNodePlacement

/-! The assignment of control nodes to a satellite: the predictions over a window of time, and the
handoffs that follow from them.  The loop over the window is given a number of turns, after which it
is still running. -/

namespace GroundCore.Oisl.Resource

open Lib FloatOps Oisl.Topology

structure ControlNodeAssignmentAlgorithm (F64 : Type) where
  predictionWindow : Duration
  predictionInterval : Duration
  handoffThresholdRatio : F64

structure TleData where
  epoch : DateTime
  tleLine1 : String
  tleLine2 : String

structure ControlNodeLocation (F64 : Type) where
  nodeId : NodeId
  position : Position3D F64

structure AssignmentPoint (F64 : Type) where
  timestamp : DateTime
  satellitePosition : Position3D F64
  nearestNode : NodeId
  distances : HashMap NodeId F64

structure HandoffEvent (F64 : Type) where
  handoffTime : DateTime
  fromNode : NodeId
  toNode : NodeId
  estimatedDistanceReduction : F64
  predictionIndex : ℕ

structure AssignmentPrediction (F64 : Type) where
  satelliteId : SatelliteId
  predictionWindow : Duration
  predictions : List (AssignmentPoint F64)
  handoffEvents : List (HandoffEvent F64)

inductive AssignmentError
  | predictionFailed (message : String)
  | noControlNodes
  deriving DecidableEq

/-- What a loop comes to in a number of turns. -/
inductive Outcome (α : Type)
  | running
  | panicked
  | returned (result : α)

def Outcome.map {α β : Type} (f : α → β) : Outcome α → Outcome β
  | .running => .running
  | .panicked => .panicked
  | .returned result => .returned (f result)

/-- `DateTime + Duration`, which panics beyond the range of times. -/
def addTime (time : DateTime) (d : Duration) : Option DateTime :=
  if Optical.Attestation.minUtc ≤ time + d ∧ time + d ≤ Optical.Attestation.maxUtc
  then some (time + d) else none

variable {F64 F32 : Type}

namespace AssignmentPoint

variable [FloatOps F64 F32] (point : AssignmentPoint F64)

/-- The distance to the node that the satellite is assigned to. -/
def currentDistance (node : NodeId) : F64 := (point.distances.get? node).getD (lit f64Max)

/-- The distance to the nearest node. -/
def newDistance : F64 := (point.distances.get? point.nearestNode).getD (lit 0)

end AssignmentPoint

namespace ControlNodeAssignmentAlgorithm

section Handoffs

variable [FloatOps F64 F32] (alg : ControlNodeAssignmentAlgorithm F64)

/-- One turn of the loop over the predictions, with the events so far and the node that the
satellite is assigned to. -/
def handoffStep (state : List (HandoffEvent F64) × Option NodeId) (p : AssignmentPoint F64 × ℕ) :
    List (HandoffEvent F64) × Option NodeId :=
  let (point, i) := p
  let nearest := point.nearestNode
  match state.2 with
  | some prevNode =>
    if prevNode ≠ nearest then
      let currentDistance := point.currentDistance prevNode
      let newDistance := point.newDistance
      if lt newDistance (currentDistance * (lit 1 - alg.handoffThresholdRatio)) then
        (state.1 ++
          [{ handoffTime := point.timestamp
             fromNode := prevNode
             toNode := nearest
             estimatedDistanceReduction := currentDistance - newDistance
             predictionIndex := i }],
          some nearest)
      else state
    else state
  | none => (state.1, some nearest)

def identifyHandoffEvents (predictions : List (AssignmentPoint F64)) : List (HandoffEvent F64) :=
  (predictions.zipIdx.foldl alg.handoffStep ([], none)).1

end Handoffs

/-! ### Predictions -/

variable [SqrtOps F64 F32]

def predictPositionFromTle (sgp4 : PositionSgp4 F64) (tle : TleData) (time : DateTime) :
    Except AssignmentError (Position3D F64) :=
  match sgp4.fromTle none tle.tleLine1 tle.tleLine2 with
  | .error e => .error (.predictionFailed s!"SGP4 parse error: {e}")
  | .ok elements =>
    match sgp4.fromElements elements with
    | .error e => .error (.predictionFailed s!"SGP4 constants error: {e}")
    | .ok constants =>
      -- whole seconds, rounded down
      let timeSinceEpoch : F64 :=
        lit ((time / 1000000000 : ℤ) : ℚ) - lit ((tle.epoch / 1000000000 : ℤ) : ℚ)
      match sgp4.propagate constants (timeSinceEpoch / lit 60) with
      | .error e => .error (.predictionFailed s!"SGP4 propagation error: {e}")
      | .ok (x, y, z) => .ok ⟨x, y, z⟩

/-- The sort by distance.  One of two elements or more is compared with another, which panics when
its distance is undefined. -/
def sortByDistance (distances : List (NodeId × F64)) : Option (List (NodeId × F64)) :=
  if 2 ≤ distances.length ∧ distances.any fun d => isUndefined d.2 then none
  else some (distances.mergeSort fun a b => le a.2 b.2)

def distancesFrom (ord : IterOrder (NodeId × ControlNodeLocation F64))
    (controlNodes : HashMap NodeId (ControlNodeLocation F64)) (satellitePos : Position3D F64) :
    List (NodeId × F64) :=
  (ord.order controlNodes.entries).map fun node =>
    (node.1, distance3d satellitePos node.2.position)

/-- The point of the predictions at a time.  There is none without a control node. -/
def assignmentPoint (ord : IterOrder (NodeId × ControlNodeLocation F64))
    (controlNodes : HashMap NodeId (ControlNodeLocation F64)) (time : DateTime)
    (satellitePos : Position3D F64) : Option (AssignmentPoint F64) :=
  match sortByDistance (distancesFrom ord controlNodes satellitePos) with
  | none => none
  | some [] => none
  | some (nearest :: rest) =>
    some
      { timestamp := time
        satellitePosition := satellitePos
        nearestNode := nearest.1
        distances := (nearest :: rest).foldl (fun m d => m.insert d.1 d.2) ∅ }

variable (sgp4 : PositionSgp4 F64) (ord : IterOrder (NodeId × ControlNodeLocation F64))
  (alg : ControlNodeAssignmentAlgorithm F64)
  (controlNodes : HashMap NodeId (ControlNodeLocation F64)) (tleData : TleData)

/-- The loop over the window. -/
def predictLoop (endTime : DateTime) : ℕ → DateTime → List (AssignmentPoint F64) →
    Outcome (Except AssignmentError (List (AssignmentPoint F64)))
  | 0, _, _ => .running
  | turns + 1, currentTime, predictions =>
    if currentTime ≤ endTime then
      match predictPositionFromTle sgp4 tleData currentTime with
      | .error e => .returned (.error e)
      | .ok satellitePos =>
        match assignmentPoint ord controlNodes currentTime satellitePos with
        | none => .panicked
        | some point =>
          match addTime currentTime alg.predictionInterval with
          | none => .panicked
          | some next => predictLoop endTime turns next (predictions ++ [point])
    else .returned (.ok predictions)

/-- The answer of a call with the predictions of its loop. -/
def assignmentPrediction (satelliteId : SatelliteId) (predictions : List (AssignmentPoint F64)) :
    AssignmentPrediction F64 :=
  { satelliteId
    predictionWindow := alg.predictionWindow
    predictions
    handoffEvents := alg.identifyHandoffEvents predictions }

/-- The predictions of a call that reads the time `now`, if its loop takes no more than `turns`
turns. -/
def predictAssignments (satelliteId : SatelliteId) (now : DateTime) (turns : ℕ) :
    Outcome (Except AssignmentError (AssignmentPrediction F64)) :=
  match addTime now alg.predictionWindow with
  | none => .panicked
  | some endTime =>
    (predictLoop sgp4 ord alg controlNodes tleData endTime turns now []).map fun result =>
      result.map (assignmentPrediction alg satelliteId)

end ControlNodeAssignmentAlgorithm

end GroundCore.Oisl.Resource
