import GroundCore.Oisl.Mission.Types
import GroundCore.Oisl.Topology.RouteCache

/-! The compiler from intents to plans.  The loops of the source, which push to the lists of tasks
and reservations, are maps over their counters here. -/

namespace GroundCore.Oisl.Mission

open Bitemporal Caching Lib Oisl.Topology

variable {F64 F32 : Type}

/-- What a compilation gets from outside: the orders of iteration, the derivation of an id from a
name, the ids that it draws, numbered by the turns of its loops, and the readings of the clock. -/
structure CompileContext (F64 : Type) where
  order : ConstellationOrder F64
  newV5 : String → Uuid
  planId : PlanId
  taskIds : ℕ → TaskId
  linkIds : ℕ → LinkId
  now : DateTime
  deadlineNow : DateTime
  heap : RouteHeap
  routeOrder : IterOrder (RouteCacheKey × CacheEntry Route)
  getTime : DateTime
  putTimes : DateTime × DateTime

structure DefaultIntentCompiler where
  router : SpatiotemporalRouter

/-- The tasks and the reservations of a plan. -/
abbrev Tasking := List SatelliteTask × List LinkReservation

def numSeconds (d : Duration) : ℤ := d.tdiv 1000000000

/-- The satellite whose turn it is; there is one. -/
def roundRobin (sats : List SatelliteId) (i : ℕ) : SatelliteId := sats.getD (i % sats.length) ""

namespace DefaultIntentCompiler

variable (ctx : CompileContext F64) (constellation : ConstellationState F64)
  (topology : TopologyForecast)

/-- The first optical terminal of a satellite, or an id derived from the satellite's. -/
def terminalOf (id : NodeId) : TerminalId :=
  ((constellation.satellites.get? id).bind (·.opticalTerminals.head?)).getD (ctx.newV5 id)

def candidateSats : List SatelliteId :=
  (ctx.order.satellites.order constellation.satellites.entries).map (·.1)

/-! ### Data relay -/

def relayTask (hop : RoutedHop) (i : ℕ) : SatelliteTask :=
  { taskId := ctx.taskIds i
    satelliteId := hop.edge.endpoints.1
    taskType := .opticalLinkEstablishment (terminalOf ctx constellation hop.edge.endpoints.2)
    scheduledWindow := hop.useWindow
    dependencies := if 0 < i then [ctx.taskIds (i - 1)] else []
    priority := .medium }

def relayReservation (hop : RoutedHop) (i : ℕ) : LinkReservation :=
  { linkId := ctx.linkIds i
    source := hop.edge.endpoints.1
    destination := hop.edge.endpoints.2
    terminalA := terminalOf ctx constellation hop.edge.endpoints.1
    terminalB := terminalOf ctx constellation hop.edge.endpoints.2
    timeWindow := hop.useWindow
    bandwidth := hop.bandwidthReservation }

def relayQuery (constraints : IntentConstraints) (sourceSat destSat : SatelliteId) : RouteQuery :=
  { source := sourceSat
    destination := destSat
    topology
    constraints
    order := ctx.routeOrder
    getTime := ctx.getTime
    putTimes := ctx.putTimes }

/-- The lock of the router is never poisoned. -/
def compileDataRelay (router : SpatiotemporalRouter) (source destination : AssetId)
    (_volume : Bytes) (constraints : IntentConstraints) :
    SpatiotemporalRouter × Except CompilationError Tasking :=
  match constellation.resolveAssetToSatellite ctx.order source with
  | none =>
    (router, .error (.invalidIntent s!"Source asset {source} not found in constellation"))
  | some sourceSat =>
    match constellation.resolveAssetToSatellite ctx.order destination with
    | none =>
      (router,
        .error (.invalidIntent s!"Destination asset {destination} not found in constellation"))
    | some destSat =>
      match router.respond ctx.heap (relayQuery ctx topology constraints sourceSat destSat) with
      | (router, .error _) => (router, .error (.noFeasibleRoute sourceSat destSat))
      | (router, .ok route) =>
        (router, .ok
          (route.hops.mapIdx fun i hop => relayTask ctx constellation hop i,
            route.hops.mapIdx fun i hop => relayReservation ctx constellation hop i))

/-! ### Observation -/

def revisitSecs (revisitRate : Duration) : ℤ := max (numSeconds revisitRate) 60

def numWindows (revisitRate : Duration) : ℕ :=
  let horizonSeconds := numSeconds (topology.horizonEnd - topology.horizonStart)
  (max (horizonSeconds.tdiv (revisitSecs revisitRate)) 1).toNat

def obsWindow (revisitRate : Duration) (i : ℕ) : TimeWindow :=
  let windowStart := topology.horizonStart + Duration.seconds (i * revisitSecs revisitRate)
  TimeWindow.new windowStart (windowStart + Duration.seconds (min (revisitSecs revisitRate) 600))

/-- The five minutes after an observation. -/
def downlinkWindow (obs : TimeWindow) : TimeWindow :=
  TimeWindow.new obs.end (obs.end + Duration.seconds 300)

def observationTask (target : GeoRegion) (sensor : SensorType) (priority : Priority)
    (satId : SatelliteId) (obs : TimeWindow) (i : ℕ) : SatelliteTask :=
  { taskId := ctx.taskIds (2 * i)
    satelliteId := satId
    taskType := .observation target sensor
    scheduledWindow := obs
    dependencies := []
    priority }

def deliveryTask (priority : Priority) (satId : SatelliteId) (gsId : AssetId) (obs : TimeWindow)
    (i : ℕ) : SatelliteTask :=
  { taskId := ctx.taskIds (2 * i + 1)
    satelliteId := satId
    taskType := .downlink gsId
    scheduledWindow := downlinkWindow obs
    dependencies := [ctx.taskIds (2 * i)]
    priority }

/-- The rate is given for the window of the observation. -/
def deliveryReservation (satId : SatelliteId) (gsId : AssetId) (obs : TimeWindow) (i : ℕ) :
    LinkReservation :=
  { linkId := ctx.linkIds i
    source := satId
    destination := gsId
    terminalA := terminalOf ctx constellation satId
    terminalB := ctx.newV5 gsId
    timeWindow := downlinkWindow obs
    bandwidth := { dataRate := ⟨1000000⟩, validWindow := obs } }

section

variable [TrigOps F64 F32]

/-- The ground station for the data of a turn of the loop. -/
def deliveryStation (revisitRate : Duration) (i : ℕ) : Option AssetId :=
  constellation.findOptimalGroundStation ctx.order
    (roundRobin (candidateSats ctx constellation) i)
    (downlinkWindow (obsWindow topology revisitRate i))

/-- What one turn of the loop pushes. -/
def observationPass (target : GeoRegion) (sensor : SensorType) (revisitRate : Duration)
    (priority : Priority) (i : ℕ) : Tasking :=
  let obs := obsWindow topology revisitRate i
  let satId := roundRobin (candidateSats ctx constellation) i
  let task := observationTask ctx target sensor priority satId obs i
  match deliveryStation ctx constellation topology revisitRate i with
  | none => ([task], [])
  | some gsId =>
    ([task, deliveryTask ctx priority satId gsId obs i],
      [deliveryReservation ctx constellation satId gsId obs i])

def compileObservation (target : GeoRegion) (sensor : SensorType) (revisitRate : Duration)
    (sla : ServiceLevelAgreement) : Except CompilationError Tasking :=
  if (candidateSats ctx constellation).isEmpty then
    .error (.noFeasibleRoute "observation-asset" target.name)
  else
    let passes := (List.range (numWindows topology revisitRate)).map
      (observationPass ctx constellation topology target sensor revisitRate sla.priority)
    .ok (passes.flatMap (·.1), passes.flatMap (·.2))

end

/-! ### Custody -/

def numSegments (persistence : Duration) : ℕ :=
  let horizonSeconds :=
    min (numSeconds (topology.horizonEnd - topology.horizonStart)) (numSeconds persistence)
  (max ((horizonSeconds + 600 - 1).tdiv 600) 1).toNat

/-- Ten minutes, of which one overlaps with the segment before. -/
def segmentWindow (i : ℕ) : TimeWindow :=
  let segStart := topology.horizonStart + Duration.seconds (i * (600 - 60))
  TimeWindow.new segStart (segStart + Duration.seconds 600)

def custodyTask (targetSat relaySat : SatelliteId) (priority : Priority) (i : ℕ) :
    SatelliteTask :=
  { taskId := ctx.taskIds i
    satelliteId := relaySat
    taskType := .opticalLinkEstablishment (terminalOf ctx constellation targetSat)
    scheduledWindow := segmentWindow topology i
    dependencies := if 0 < i then [ctx.taskIds (i - 1)] else []
    priority }

def custodyReservation (targetSat relaySat : SatelliteId) (i : ℕ) : LinkReservation :=
  { linkId := ctx.linkIds i
    source := relaySat
    destination := targetSat
    terminalA := terminalOf ctx constellation relaySat
    terminalB := terminalOf ctx constellation targetSat
    timeWindow := segmentWindow topology i
    bandwidth := { dataRate := ⟨10000000⟩, validWindow := segmentWindow topology i } }

def relaySats (targetSat : SatelliteId) : List SatelliteId :=
  (candidateSats ctx constellation).filter (· ≠ targetSat)

def compileCustody (target : AssetId) (persistence : Duration) (sla : ServiceLevelAgreement) :
    Except CompilationError Tasking :=
  match constellation.resolveAssetToSatellite ctx.order target with
  | none =>
    .error (.invalidIntent s!"Custody target asset '{target}' not found in constellation")
  | some targetSat =>
    let relays := relaySats ctx constellation targetSat
    if relays.isEmpty then .error (.noFeasibleRoute targetSat "custody-relay")
    else
      let segments := List.range (numSegments topology persistence)
      .ok
        (segments.map fun i =>
            custodyTask ctx constellation topology targetSat (roundRobin relays i) sla.priority i,
          segments.map fun i =>
            custodyReservation ctx constellation topology targetSat (roundRobin relays i) i)

/-! ### Downlink -/

def downlinkTask (satellite : SatelliteId) (groundStation : AssetId) (groundWindow : TimeWindow)
    (priority : Priority) : SatelliteTask :=
  { taskId := ctx.taskIds 0
    satelliteId := satellite
    taskType := .downlink groundStation
    scheduledWindow := groundWindow
    dependencies := []
    priority }

def downlinkReservation (satellite : SatelliteId) (groundStation : AssetId)
    (groundWindow : TimeWindow) : LinkReservation :=
  { linkId := ctx.linkIds 0
    source := satellite
    destination := groundStation
    terminalA := terminalOf ctx constellation satellite
    terminalB := ctx.newV5 groundStation
    timeWindow := groundWindow
    bandwidth := { dataRate := ⟨100000000⟩, validWindow := groundWindow } }

def compileDownlink [TrigOps F64 F32] (satellite : SatelliteId) (groundWindow : TimeWindow)
    (sla : ServiceLevelAgreement) : Except CompilationError Tasking :=
  match constellation.findOptimalGroundStation ctx.order satellite groundWindow with
  | none => .error (.noFeasibleRoute satellite "ground")
  | some groundStation =>
    .ok ([downlinkTask ctx satellite groundStation groundWindow sla.priority],
      [downlinkReservation ctx constellation satellite groundStation groundWindow])

/-! ### Compilation -/

def calculateConfidence : ConfidenceScore :=
  let horizon := topology.horizonEnd - topology.horizonStart
  let baseConfidence : ℚ :=
    if Duration.hours 12 < horizon then 0.7
    else if Duration.hours 6 < horizon then 0.85
    else 0.95
  .new baseConfidence

def validUntil (intent : MissionIntent) : DateTime :=
  intent.sla.deadline.getD (ctx.deadlineNow + Duration.hours 24)

def planOf (intent : MissionIntent) (tasking : Tasking) : TaskingPlan :=
  { planId := ctx.planId
    intentId := intent.intentId
    satelliteTasks := tasking.1
    linkReservations := tasking.2
    compiledAt := ⟨ctx.now, ⟨ctx.now⟩, ⟨ctx.now⟩⟩
    validUntil := validUntil ctx intent
    confidence := calculateConfidence topology }

variable [TrigOps F64 F32]

/-- The router after the compilation of an objective, with its tasks and reservations. -/
def compileObjective (router : SpatiotemporalRouter) (intent : MissionIntent) :
    SpatiotemporalRouter × Except CompilationError Tasking :=
  match intent.objective with
  | .dataRelay source destination volume =>
    compileDataRelay ctx constellation topology router source destination volume
      intent.constraints
  | .observation target sensor revisitRate =>
    (router, compileObservation ctx constellation topology target sensor revisitRate intent.sla)
  | .custody target persistence =>
    (router, compileCustody ctx constellation topology target persistence intent.sla)
  | .downlink satellite groundWindow =>
    (router, compileDownlink ctx constellation satellite groundWindow intent.sla)

def compile (compiler : DefaultIntentCompiler) (intent : MissionIntent) :
    DefaultIntentCompiler × Except CompilationError TaskingPlan :=
  let (router, tasking) := compileObjective ctx constellation topology compiler.router intent
  (⟨router⟩, tasking.map (planOf ctx topology intent))

end DefaultIntentCompiler

end GroundCore.Oisl.Mission
