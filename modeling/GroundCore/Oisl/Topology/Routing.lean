import GroundCore.Caching.Generic
import GroundCore.Lib.BestFirst
import GroundCore.Oisl.Topology.Forecast

/-! The spatiotemporal router: Dijkstra's algorithm on the graph of the forecast expanded in time,
behind a cache of routes.  Costs are exact numbers.  The heap is a parameter, with the order of
states of equal cost left to it. -/

namespace GroundCore.Oisl.Topology

open Caching Lib

structure BandwidthAllocation where
  dataRate : DataRate
  validWindow : TimeWindow
  deriving DecidableEq

structure RoutedHop where
  edge : PotentialEdge
  useWindow : TimeWindow
  dataVolume : DataRate
  bandwidthReservation : BandwidthAllocation
  deriving DecidableEq

/-- A value between 0 and 1. -/
abbrev ConfidenceScore := ℚ

def ConfidenceScore.new (value : ℚ) : ConfidenceScore := max 0 (min value 1)

structure Route where
  hops : List RoutedHop
  totalCost : ℚ
  confidence : ConfidenceScore
  failureRecoveryPaths : List Route

structure CostModel where
  latencyWeight : ℚ
  capacityWeight : ℚ
  reliabilityWeight : ℚ
  powerWeight : ℚ
  patOverheadWeight : ℚ
  deriving DecidableEq

def CostModel.default : CostModel :=
  { latencyWeight := 0.3, capacityWeight := 0.2, reliabilityWeight := 0.3, powerWeight := 0.1,
    patOverheadWeight := 0.1 }

structure IntentConstraints where
  maxLatency : Option Duration
  deriving DecidableEq

structure RouteState where
  cost : ℚ
  confidence : ConfidenceScore
  currentNode : NodeId
  currentTime : DateTime
  hops : List RoutedHop
  costModel : CostModel
  deriving DecidableEq

inductive RoutingError
  | noRouteFound (source destination : NodeId)
  deriving DecidableEq

/-- A heap from which a state of least cost is popped. -/
abbrev RouteHeap := MinQueue RouteState.cost

abbrev RouteCacheKey := NodeId × NodeId × ℤ

def routeCacheBucketSecs : ℤ := 300

/-- The time that a hop takes. -/
def hopDuration : Duration := Duration.seconds 30

def buildRoute (state : RouteState) : Route :=
  { hops := state.hops, totalCost := state.cost, confidence := state.confidence,
    failureRecoveryPaths := [] }

def calculateHopCost (edge : PotentialEdge) (costModel : CostModel) : ℚ :=
  let latencyCost := costModel.latencyWeight * 0.1
  let capacityCost :=
    costModel.capacityWeight * (1 / ((edge.expectedCapacity.bitsPerSecond : ℚ) + 1))
  let reliabilityCost :=
    costModel.reliabilityWeight * (1 - edge.geometricQuality.overallQuality)
  let patCost := costModel.patOverheadWeight * edge.requiredPointingAccuracyRad
  latencyCost + capacityCost + reliabilityCost + patCost

def Route.latency (route : Route) : Duration := (route.hops.map (·.useWindow.duration)).sum

def satisfiesConstraints (route : Route) (constraints : IntentConstraints) : Bool :=
  match constraints.maxLatency with
  | none => true
  | some maxLatency => !decide (maxLatency < route.latency)

/-- The hop over an edge from a time on. -/
def routedHop (currentTime : DateTime) (edge : PotentialEdge) : RoutedHop :=
  let window := TimeWindow.new currentTime (currentTime + hopDuration)
  { edge
    useWindow := window
    dataVolume := ⟨0⟩
    bandwidthReservation := { dataRate := edge.expectedCapacity, validWindow := window } }

/-- The state after a hop over an edge. -/
def RouteState.hop (state : RouteState) (edge : PotentialEdge) : RouteState :=
  { cost := state.cost + calculateHopCost edge state.costModel
    confidence := .new (state.confidence * edge.geometricQuality.overallQuality)
    currentNode := edge.endpoints.2
    currentTime := state.currentTime + hopDuration
    hops := state.hops ++ [routedHop state.currentTime edge]
    costModel := state.costModel }

/-- The states that the loop pushes for a state. -/
def neighbors (topology : TopologyForecast) (state : RouteState) : List RouteState :=
  ((topology.queryAt state.currentTime).potentialEdges.filter fun edge =>
    edge.endpoints.1 = state.currentNode &&
      edge.visibilityWindow.contains state.currentTime).map state.hop

/-- The loop of `compute_route`: the best route, or none when the heap is empty.  The result is
`none` if the loop takes more than `fuel` turns. -/
def searchRoute (heap : RouteHeap) (destination : NodeId) (topology : TopologyForecast)
    (constraints : IntentConstraints) :
    ℕ → List (NodeId × DateTime) → List RouteState → Option (Option Route)
  | 0, _, _ => none
  | fuel + 1, visited, states =>
    match heap.pop states with
    | none => some none
    | some (state, states) =>
      let stateKey := (state.currentNode, state.currentTime)
      if stateKey ∈ visited then
        searchRoute heap destination topology constraints fuel visited states
      else
        let visited := stateKey :: visited
        let route := buildRoute state
        if state.currentNode = destination && satisfiesConstraints route constraints then
          some (some route)
        else
          let states := (neighbors topology state).foldl heap.push states
          searchRoute heap destination topology constraints fuel visited states

structure SpatiotemporalRouter where
  costModel : CostModel
  routeCache : LruCache RouteCacheKey Route

/-- A query, with what it gets from outside: the order in which the cache is iterated and the
readings of the clock. -/
structure RouteQuery where
  source : NodeId
  destination : NodeId
  topology : TopologyForecast
  constraints : IntentConstraints
  order : IterOrder (RouteCacheKey × CacheEntry Route)
  getTime : DateTime
  putTimes : DateTime × DateTime

def RouteQuery.cacheKey (query : RouteQuery) : RouteCacheKey :=
  let timestamp := query.topology.horizonStart / 1000000000
  (query.source, query.destination, timestamp.tdiv routeCacheBucketSecs)

namespace SpatiotemporalRouter

def new (costModel : CostModel) : SpatiotemporalRouter := ⟨costModel, .new 256⟩

def initialState (router : SpatiotemporalRouter) (query : RouteQuery) : RouteState :=
  { cost := 0
    confidence := .new 1
    currentNode := query.source
    currentTime := query.topology.horizonStart
    hops := []
    costModel := router.costModel }

/-- The router after a query, and its answer; `none` if the loop takes more than `fuel` turns. -/
def computeRoute (heap : RouteHeap) (fuel : ℕ) (router : SpatiotemporalRouter)
    (query : RouteQuery) : Option (SpatiotemporalRouter × Except RoutingError Route) :=
  match router.routeCache.get query.cacheKey query.getTime with
  | (routeCache, some cached) => some ({ router with routeCache }, .ok cached)
  | (routeCache, none) => do
    let states := heap.push [] (router.initialState query)
    match ← searchRoute heap query.destination query.topology query.constraints fuel [] states with
    | none =>
      some ({ router with routeCache }, .error (.noRouteFound query.source query.destination))
    | some route =>
      let routeCache := routeCache.put query.order query.cacheKey route query.putTimes
      some ({ router with routeCache }, .ok route)

end SpatiotemporalRouter

end GroundCore.Oisl.Topology
