import GroundCore.Oisl.Mission.PlanTasks
import GroundCore.Oisl.Mission.Validator

/-! Which of the compiler's plans the validator passes.  The compiler does not look at the deadline,
and it reserves terminals, where the nodes of a forecast are satellites and ground stations. -/

namespace GroundCore.Oisl.Mission

open DefaultIntentCompiler Lib Oisl.Topology

variable {F64 F32 : Type} {ctx : CompileContext F64} {constellation : ConstellationState F64}
  {topology : TopologyForecast} {latest : DateTime}

/-- The window ends in time, and both terminals are known when it starts. -/
structure Usable (topology : TopologyForecast) (latest : DateTime) (window : TimeWindow)
    (terminalA terminalB : TerminalId) : Prop where
  inTime : window.end ≤ latest
  knownA : KnownAt topology window.start terminalA
  knownB : KnownAt topology window.start terminalB

/-- The windows of the objective are usable for the terminals that are reserved in them. -/
def AllUsable [TrigOps F64 F32] (ctx : CompileContext F64)
    (constellation : ConstellationState F64) (topology : TopologyForecast)
    (router : SpatiotemporalRouter) (intent : MissionIntent) : Prop :=
  let usable := Usable topology (validUntil ctx intent)
  match intent.objective with
  | .dataRelay source destination _ => ∀ sourceSat destSat route,
      constellation.resolveAssetToSatellite ctx.order source = some sourceSat →
      constellation.resolveAssetToSatellite ctx.order destination = some destSat →
      (router.respond ctx.heap (relayQuery ctx topology intent.constraints sourceSat destSat)).2 =
        .ok route →
      ∀ hop ∈ route.hops, usable hop.useWindow
        (terminalOf ctx constellation hop.edge.endpoints.1)
        (terminalOf ctx constellation hop.edge.endpoints.2)
  | .observation _ _ revisitRate =>
      let sats := candidateSats ctx constellation
      sats ≠ [] → ∀ i < numWindows topology revisitRate,
        (obsWindow topology revisitRate i).end ≤ validUntil ctx intent ∧
        ∀ gsId, deliveryStation ctx constellation topology revisitRate i = some gsId →
          usable (downlinkWindow (obsWindow topology revisitRate i))
            (terminalOf ctx constellation (roundRobin sats i)) (ctx.newV5 gsId)
  | .custody target persistence => ∀ targetSat,
      constellation.resolveAssetToSatellite ctx.order target = some targetSat →
      let relays := relaySats ctx constellation targetSat
      relays ≠ [] → ∀ i < numSegments topology persistence,
        usable (segmentWindow topology i) (terminalOf ctx constellation (roundRobin relays i))
          (terminalOf ctx constellation targetSat)
  | .downlink satellite groundWindow => ∀ groundStation,
      constellation.findOptimalGroundStation ctx.order satellite groundWindow =
        some groundStation →
      usable groundWindow (terminalOf ctx constellation satellite) (ctx.newV5 groundStation)

/-! ### The kinds of objectives -/

/-- When tasks and reservations have the same windows, the reservations decide. -/
theorem valid_iff_usable {tasks : List SatelliteTask} {reservations : List LinkReservation}
    (htasks : ∀ task ∈ tasks, ∃ reservation ∈ reservations,
      reservation.timeWindow = task.scheduledWindow)
    (hreservations : ∀ reservation ∈ reservations, ∃ task ∈ tasks,
      reservation.timeWindow = task.scheduledWindow) :
    Valid topology latest tasks reservations ↔ ∀ reservation ∈ reservations,
      Usable topology latest reservation.timeWindow reservation.terminalA
        reservation.terminalB := by
  constructor
  · intro hvalid reservation hreservation
    obtain ⟨task, htask, hwindow⟩ := hreservations reservation hreservation
    exact ⟨hwindow ▸ hvalid.inTime task htask, (hvalid.known reservation hreservation).1,
      (hvalid.known reservation hreservation).2⟩
  · intro husable
    constructor
    · intro task htask
      obtain ⟨reservation, hreservation, hwindow⟩ := htasks task htask
      exact hwindow ▸ (husable reservation hreservation).inTime
    · intro reservation hreservation
      exact ⟨(husable reservation hreservation).knownA, (husable reservation hreservation).knownB⟩

theorem valid_relay_iff {hops : List RoutedHop} :
    Valid topology latest (hops.mapIdx fun i hop => relayTask ctx constellation hop i)
      (hops.mapIdx fun i hop => relayReservation ctx constellation hop i) ↔
      ∀ hop ∈ hops, Usable topology latest hop.useWindow
        (terminalOf ctx constellation hop.edge.endpoints.1)
        (terminalOf ctx constellation hop.edge.endpoints.2) := by
  rw [valid_iff_usable]
  · constructor
    · intro husable hop hhop
      obtain ⟨i, hi⟩ := List.mem_iff_getElem?.mp hhop
      exact husable _ (mem_mapIdx_iff.mpr ⟨i, hop, hi, rfl⟩)
    · intro husable reservation hreservation
      obtain ⟨i, hop, hi, rfl⟩ := mem_mapIdx_iff.mp hreservation
      exact husable hop (List.mem_of_getElem? hi)
  · intro task htask
    obtain ⟨i, hop, hi, rfl⟩ := mem_mapIdx_iff.mp htask
    exact ⟨_, mem_mapIdx_iff.mpr ⟨i, hop, hi, rfl⟩, rfl⟩
  · intro reservation hreservation
    obtain ⟨i, hop, hi, rfl⟩ := mem_mapIdx_iff.mp hreservation
    exact ⟨_, mem_mapIdx_iff.mpr ⟨i, hop, hi, rfl⟩, rfl⟩

theorem valid_observation_iff [TrigOps F64 F32] {target : GeoRegion} {sensor : SensorType}
    {revisitRate : Duration} {priority : Priority} {n : ℕ} :
    let passes := (List.range n).map
      (observationPass ctx constellation topology target sensor revisitRate priority)
    Valid topology latest (passes.flatMap (·.1)) (passes.flatMap (·.2)) ↔
      ∀ i < n, (obsWindow topology revisitRate i).end ≤ latest ∧
        ∀ gsId, deliveryStation ctx constellation topology revisitRate i = some gsId →
          Usable topology latest (downlinkWindow (obsWindow topology revisitRate i))
            (terminalOf ctx constellation (roundRobin (candidateSats ctx constellation) i))
            (ctx.newV5 gsId) := by
  intro passes
  constructor
  · intro hvalid i hi
    refine ⟨hvalid.inTime _ (mem_observationTasks.mpr ⟨i, hi, .inl rfl⟩), fun gsId hstation => ?_⟩
    have htask := hvalid.inTime _
      (mem_observationTasks.mpr ⟨i, hi, .inr ⟨gsId, hstation, rfl⟩⟩)
    have hknown := hvalid.known _
      (mem_observationReservations.mpr ⟨i, hi, gsId, hstation, rfl⟩)
    exact ⟨htask, hknown.1, hknown.2⟩
  · intro husable
    constructor
    · intro task htask
      obtain ⟨i, hi, rfl | ⟨gsId, hstation, rfl⟩⟩ := mem_observationTasks.mp htask
      · exact (husable i hi).1
      · exact ((husable i hi).2 gsId hstation).inTime
    · intro reservation hreservation
      obtain ⟨i, hi, gsId, hstation, rfl⟩ := mem_observationReservations.mp hreservation
      exact ⟨((husable i hi).2 gsId hstation).knownA, ((husable i hi).2 gsId hstation).knownB⟩

theorem valid_custody_iff {n : ℕ} {targetSat : SatelliteId} {relay : ℕ → SatelliteId}
    {priority : Priority} :
    Valid topology latest
      ((List.range n).map fun i =>
        custodyTask ctx constellation topology targetSat (relay i) priority i)
      ((List.range n).map fun i =>
        custodyReservation ctx constellation topology targetSat (relay i) i) ↔
      ∀ i < n, Usable topology latest (segmentWindow topology i)
        (terminalOf ctx constellation (relay i)) (terminalOf ctx constellation targetSat) := by
  rw [valid_iff_usable]
  · simp only [List.forall_mem_map, List.mem_range]
    rfl
  · intro task htask
    obtain ⟨i, hi, rfl⟩ := List.mem_map.mp htask
    exact ⟨_, List.mem_map_of_mem hi, rfl⟩
  · intro reservation hreservation
    obtain ⟨i, hi, rfl⟩ := List.mem_map.mp hreservation
    exact ⟨_, List.mem_map_of_mem hi, rfl⟩

theorem valid_downlink_iff {satellite : SatelliteId} {groundStation : AssetId}
    {groundWindow : TimeWindow} {priority : Priority} :
    Valid topology latest [downlinkTask ctx satellite groundStation groundWindow priority]
      [downlinkReservation ctx constellation satellite groundStation groundWindow] ↔
      Usable topology latest groundWindow (terminalOf ctx constellation satellite)
        (ctx.newV5 groundStation) := by
  rw [valid_iff_usable]
  · exact List.forall_mem_singleton
  · intro task htask
    rw [List.mem_singleton.mp htask]
    exact ⟨_, List.mem_cons_self, rfl⟩
  · intro reservation hreservation
    rw [List.mem_singleton.mp hreservation]
    exact ⟨_, List.mem_cons_self, rfl⟩

/-! ### Plans -/

/-- Every plan of an intent passes validation exactly when the windows of the objective are usable. -/
theorem plan_valid_iff [TrigOps F64 F32] (vctx : ValidationContext)
    (router : SpatiotemporalRouter) (intent : MissionIntent) :
    (∀ plan, (compile ctx constellation topology ⟨router⟩ intent).2 = .ok plan →
      ((PlanValidator.mk constellation topology).validate vctx plan).isValid) ↔
      AllUsable ctx constellation topology router intent := by
  simp only [PlanValidator.isValid_iff]
  rw [forall_plan_iff (P := fun plan =>
    Valid topology plan.validUntil plan.satelliteTasks plan.linkReservations)]
  unfold compileObjective AllUsable
  cases intent.objective with
  | dataRelay source destination volume =>
    simp only [compileDataRelay_ok_iff]
    constructor
    · intro h sourceSat destSat route hsource hdest hroute
      exact valid_relay_iff.mp (h _ ⟨sourceSat, destSat, route, hsource, hdest, hroute, rfl⟩)
    · rintro husable _ ⟨sourceSat, destSat, route, hsource, hdest, hroute, rfl⟩
      exact valid_relay_iff.mpr (husable sourceSat destSat route hsource hdest hroute)
  | observation target sensor revisitRate =>
    simp only [compileObservation_ok_iff]
    constructor
    · intro h hsats
      exact valid_observation_iff.mp (h _ ⟨hsats, rfl⟩)
    · rintro husable _ ⟨hsats, rfl⟩
      exact valid_observation_iff.mpr (husable hsats)
  | custody target persistence =>
    simp only [compileCustody_ok_iff]
    constructor
    · intro h targetSat htarget hrelays
      exact valid_custody_iff.mp (h _ ⟨targetSat, htarget, hrelays, rfl⟩)
    · rintro husable _ ⟨targetSat, htarget, hrelays, rfl⟩
      exact valid_custody_iff.mpr (husable targetSat htarget hrelays)
  | downlink satellite groundWindow =>
    simp only [compileDownlink_ok_iff]
    constructor
    · intro h groundStation hstation
      exact valid_downlink_iff.mp (h _ ⟨groundStation, hstation, rfl⟩)
    · rintro husable _ ⟨groundStation, hstation, rfl⟩
      exact valid_downlink_iff.mpr (husable groundStation hstation)

/-- The nodes of the forecast are "sat-1" and "gs-1", and the reservation names their terminals. -/
theorem delivery_not_valid : letI := zeroAngle
    ¬ ∀ (ctx : CompileContext ℚ) (constellation : ConstellationState ℚ)
      (topology : TopologyForecast) (vctx : ValidationContext) (router : SpatiotemporalRouter)
      (intent : MissionIntent) (plan : TaskingPlan),
      (compile ctx constellation topology ⟨router⟩ intent).2 = .ok plan →
        ((PlanValidator.mk constellation topology).validate vctx plan).isValid := by
  intro hall
  let := zeroAngle
  have hvalid := hall passContext passConstellation passForecast
    ⟨toString, GeoRegion.name, .stored _, .stored _⟩ (.new .default) passIntent _ rfl
  have husable := valid_observation_iff.mp (PlanValidator.isValid_iff.mp hvalid)
  have hunknown : ¬ KnownAt passForecast (Duration.seconds 600) (passContext.newV5 "gs-1") := by
    decide +kernel
  exact hunknown ((husable 0 (by decide +kernel)).2 "gs-1" deliveryStation_pass).knownB

end GroundCore.Oisl.Mission
