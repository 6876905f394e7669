import GroundCore.Lib.HashMap
import GroundCore.Lib.LocalSearch
import GroundCore.Lib.NanFloat
import GroundCore.Lib.FiniteFloat
import GroundCore.Oisl.Topology.Forecast

/-! The placement of control nodes on ground stations.  Some snapshots of the forecast stand for
all; stations are added to a first one as long as one of them brings the score below the bound, and
then exchanged for better ones.  A call that panics gives nothing. -/

namespace GroundCore.Oisl.Topology

open Lib FloatOps

structure Position3D (F64 : Type) where
  xKm : F64
  yKm : F64
  zKm : F64

inductive NodeType
  | satellite (satelliteId : String)
  | groundStation (stationId : String)
  deriving DecidableEq

structure NodeState (F64 : Type) where
  nodeId : NodeId
  nodeType : NodeType
  position : Position3D F64

/-- A snapshot of the graph with the states of its nodes. -/
structure StateSnapshot (F64 : Type) extends GraphSnapshot where
  states : HashMap NodeId (NodeState F64)
  nodes_eq : toGraphSnapshot.nodes = states.keys

structure ControlNodePlacementAlgorithm where
  numClusters : ℕ
  localSearchIterations : ℕ

inductive PlacementError
  | noCandidateStations
  | insufficientCandidates (requested available : ℕ)
  | noSnapshots
  deriving DecidableEq

/-- The orders in which sets of stations and the nodes of a snapshot are read. -/
structure PlacementOrder (F64 : Type) where
  stations : IterOrder NodeId
  nodes : IterOrder (NodeId × NodeState F64)

variable {F64 F32 : Type} [SqrtOps F64 F32]

def distance3d (a b : Position3D F64) : F64 :=
  let dx := a.xKm - b.xKm
  let dy := a.yKm - b.yKm
  let dz := a.zKm - b.zKm
  SqrtOps.sqrt (dx * dx + dy * dy + dz * dz)

namespace ControlNodePlacementAlgorithm

/-! ### Representative topologies -/

def snapshotToFeatureVector (snapshot : StateSnapshot F64) : List F64 :=
  let edges := snapshot.potentialEdges
  let avgQuality : F64 :=
    if edges.isEmpty then lit 0
    else sum (edges.map fun e => lit e.geometricQuality.overallQuality) / lit edges.length
  let totalCapacity : F64 := sum (edges.map fun e => lit e.expectedCapacity.bitsPerSecond)
  [lit snapshot.nodes.length, lit edges.length, avgQuality, totalCapacity]

/-- The mean of vectors that are all as long as the first. -/
def computeCentroid (vectors : List (List F64)) : List F64 :=
  let sums := vectors.foldl (List.zipWith (· + ·))
    (List.replicate (vectors.headD []).length (lit 0))
  sums.map (· / lit vectors.length)

def euclideanDistance (a b : List F64) : F64 :=
  SqrtOps.sqrt (sum (List.zipWith (fun x y => (x - y) * (x - y)) a b))

/-- The closer of the closest vector so far and another one, by distance and index. -/
def closerVector (centroid : List F64) (closest : F64 × ℕ) (v : List F64 × ℕ) : F64 × ℕ :=
  let distance := euclideanDistance v.1 centroid
  if lt distance closest.1 then (distance, v.2) else closest

def findClosestToCentroid (snapshots : List (StateSnapshot F64)) (vectors : List (List F64))
    (centroid : List F64) : Option (StateSnapshot F64) :=
  snapshots[(vectors.zipIdx.foldl (closerVector centroid) (lit f64Max, 0)).2]?

/-- The snapshot closest to the centroid of the `i`-th cluster; the last cluster has the rest. -/
def clusterRepresentative (alg : ControlNodePlacementAlgorithm)
    (snapshots : List (StateSnapshot F64)) (i : ℕ) : Option (StateSnapshot F64) :=
  let featureVectors := snapshots.map snapshotToFeatureVector
  let clusterSize := snapshots.length / alg.numClusters
  let start := i * clusterSize
  let finish := if i = alg.numClusters - 1 then snapshots.length else (i + 1) * clusterSize
  let clusterSnapshots := (snapshots.take finish).drop start
  let clusterVectors := (featureVectors.take finish).drop start
  findClosestToCentroid clusterSnapshots clusterVectors (computeCentroid clusterVectors)

def selectRepresentatives (alg : ControlNodePlacementAlgorithm)
    (snapshots : List (StateSnapshot F64)) :
    Option (Except PlacementError (List (StateSnapshot F64))) :=
  if snapshots.isEmpty then some (.error .noSnapshots)
  else if snapshots.length ≤ alg.numClusters then some (.ok snapshots)
  else if alg.numClusters = 0 then none -- a division by zero
  else ((List.range alg.numClusters).mapM (alg.clusterRepresentative snapshots)).map .ok

/-! ### The score of a placement -/

variable (ord : PlacementOrder F64) (topologies : List (StateSnapshot F64))

def minDistanceToControlNodes (satellitePos : Position3D F64) (topology : StateSnapshot F64)
    (controlNodes : HashSet NodeId) : F64 :=
  let distances := (ord.stations.order controlNodes.elems).filterMap fun nodeId =>
    (topology.states.get? nodeId).map fun state => distance3d satellitePos state.position
  (distances.filter fun d => lt d (lit f64Max)).foldl nanMin (lit f64Max)

/-- The distances of the satellites of a snapshot. -/
def satelliteDistances (selected : HashSet NodeId) (topology : StateSnapshot F64) : List F64 :=
  (ord.nodes.order topology.states.entries).filterMap fun node =>
    match node.2.nodeType with
    | .satellite _ =>
      some (minDistanceToControlNodes ord node.2.position topology selected)
    | .groundStation _ => none

def evaluatePlacement (selected : HashSet NodeId) : F64 :=
  (topologies.flatMap (satelliteDistances ord selected)).foldl nanMax (lit 0)

/-! ### Greedy selection -/

/-- The better of the best station so far, with its score, and another one. -/
def betterStation (selected : HashSet NodeId) (best : Option NodeId × F64) (station : NodeId) :
    Option NodeId × F64 :=
  let score := evaluatePlacement ord topologies (selected.insert station)
  if lt score best.2 then (some station, score) else best

def selectBestStation (selected : HashSet NodeId) (remaining : List NodeId) : Option NodeId :=
  (remaining.foldl (betterStation ord topologies selected) (none, lit f64Max)).1

/-- The loop that adds stations.  Each turn takes one from those that remain, so that there are no
more turns than stations. -/
def selectRemaining (k : ℕ) : ℕ → HashSet NodeId → List NodeId → HashSet NodeId
  | 0, selected, _ => selected
  | turns + 1, selected, remaining =>
    if selected.len < k && !remaining.isEmpty then
      match selectBestStation ord topologies selected remaining with
      | some best =>
        selectRemaining k turns (selected.insert best) (remaining.filter (· != best))
      | none => selected
    else selected

/-! ### Local search -/

/-- The first candidate that is better in the place of a station. -/
def trySwap (current : HashSet NodeId) (station : NodeId) (candidates : List NodeId) :
    Option (HashSet NodeId) :=
  candidates.findSome? fun candidate =>
    if candidate ∈ current then none
    else
      let testSet := (current.erase station).insert candidate
      if lt (evaluatePlacement ord topologies testSet) (evaluatePlacement ord topologies current)
      then some testSet
      else none

/-- The first swap of a selected station for an unselected candidate that is better. -/
def findImprovement (candidates : HashSet NodeId) (current : HashSet NodeId) :
    Option (HashSet NodeId) :=
  (ord.stations.order current.elems).findSome? fun station =>
    trySwap ord topologies current station (ord.stations.order candidates.elems)

/-- The stations that the local search ends with, and the turns that are left of its budget when
it stops early. -/
def localSearch (alg : ControlNodePlacementAlgorithm) (selected candidates : HashSet NodeId) :
    HashSet NodeId × ℕ :=
  LocalSearch.descend (findImprovement ord topologies candidates) alg.localSearchIterations true
    selected

def localSearchRefinement (alg : ControlNodePlacementAlgorithm)
    (selected candidates : HashSet NodeId) : HashSet NodeId :=
  (localSearch ord topologies alg selected candidates).1

/-! ### Selection -/

def kCenterWithLocalSearch (alg : ControlNodePlacementAlgorithm) (candidates : HashSet NodeId)
    (k : ℕ) : HashSet NodeId :=
  let candidatesVec := ord.stations.order candidates.elems
  let selected := candidatesVec.getLast?.elim ∅ (∅ : HashSet NodeId).insert
  let remaining := candidatesVec.dropLast
  let selected := selectRemaining ord topologies k remaining.length selected remaining
  localSearchRefinement ord topologies alg selected candidates

/-- The choice of control nodes for a forecast with the given snapshots. -/
def selectControlNodes (alg : ControlNodePlacementAlgorithm) (snapshots : List (StateSnapshot F64))
    (candidateStations : HashSet NodeId) (numControlNodes : ℕ) :
    Option (Except PlacementError (HashSet NodeId)) :=
  if candidateStations.len = 0 then some (.error .noCandidateStations)
  else if candidateStations.len < numControlNodes then
    some (.error (.insufficientCandidates numControlNodes candidateStations.len))
  else
    (alg.selectRepresentatives snapshots).map fun representatives =>
      representatives.map fun representativeTopologies =>
        kCenterWithLocalSearch ord representativeTopologies alg candidateStations numControlNodes

end ControlNodePlacementAlgorithm

end GroundCore.Oisl.Topology
