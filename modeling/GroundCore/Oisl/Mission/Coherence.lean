import GroundCore.Oisl.Mission.PlanTasks

/-! The cross-references of plans: of the tasks to the tasks before them, of the reservations to the
tasks that they are for, and of the rates to the reservations that they are given in.  Each loop of
the compiler keeps the first two; the rate for the downlink after an observation is given for the
window of the observation. -/

namespace GroundCore.Oisl.Mission

open DefaultIntentCompiler Lib Oisl.Topology

variable {F64 F32 : Type} {ctx : CompileContext F64} {constellation : ConstellationState F64}
  {topology : TopologyForecast}

def SatelliteTask.EndsWithin (earlier task : SatelliteTask) : Prop :=
  earlier.scheduledWindow.end ≤ task.scheduledWindow.end

/-- Tasks depend on earlier ones that end no later, and each reservation is for a task, with a rate
that is valid throughout. -/
structure Coherent (tasks : List SatelliteTask) (reservations : List LinkReservation) : Prop where
  dependencies : EachAfter (SatelliteTask.Resolves SatelliteTask.EndsWithin) [] tasks
  reserved : ∀ reservation ∈ reservations, ∃ task ∈ tasks,
    task.satelliteId = reservation.source ∧ task.scheduledWindow = reservation.timeWindow
  bandwidth : ∀ reservation ∈ reservations, ∀ t, reservation.timeWindow.contains t →
    reservation.bandwidth.validWindow.contains t

/-- The objective is not an observation whose data is downlinked. -/
def NoDelivery [TrigOps F64 F32] (ctx : CompileContext F64)
    (constellation : ConstellationState F64) (topology : TopologyForecast)
    (intent : MissionIntent) : Prop :=
  match intent.objective with
  | .dataRelay _ _ _ | .custody _ _ | .downlink _ _ => True
  | .observation _ _ revisitRate => candidateSats ctx constellation ≠ [] →
      ∀ i < numWindows topology revisitRate,
        deliveryStation ctx constellation topology revisitRate i = none

/-! ### The kinds of objectives -/

theorem coherent_relay {route : Route} (htimed : route.Timed) :
    Coherent (route.hops.mapIdx fun i hop => relayTask ctx constellation hop i)
      (route.hops.mapIdx fun i hop => relayReservation ctx constellation hop i) := by
  obtain ⟨t, edges, hhops⟩ := htimed
  constructor
  · refine eachAfter_relay fun i earlier hop hearlier hhop => ?_
    rw [hhops] at hearlier hhop
    show earlier.useWindow.end ≤ hop.useWindow.end
    rw [(getElem?_routedHops hearlier).1, (getElem?_routedHops hhop).1]
    have hpos : 0 ≤ hopDuration := by decide
    push_cast
    linarith
  · intro reservation hreservation
    obtain ⟨i, hop, hhop, rfl⟩ := mem_mapIdx_iff.mp hreservation
    exact ⟨_, mem_mapIdx_iff.mpr ⟨i, hop, hhop, rfl⟩, rfl, rfl⟩
  · intro reservation hreservation t ht
    obtain ⟨i, hop, hhop, rfl⟩ := mem_mapIdx_iff.mp hreservation
    rw [hhops] at hhop
    show hop.bandwidthReservation.validWindow.contains t
    rw [(getElem?_routedHops hhop).2]
    exact ht

theorem coherent_custody (n : ℕ) (targetSat : SatelliteId) (relay : ℕ → SatelliteId)
    (priority : Priority) :
    Coherent
      ((List.range n).map fun i =>
        custodyTask ctx constellation topology targetSat (relay i) priority i)
      ((List.range n).map fun i =>
        custodyReservation ctx constellation topology targetSat (relay i) i) := by
  constructor
  · refine eachAfter_custody fun i => ?_
    show (segmentWindow topology i).end ≤ (segmentWindow topology (i + 1)).end
    simp only [segmentWindow, TimeWindow.new, Duration.seconds]
    push_cast
    linarith
  · intro reservation hreservation
    obtain ⟨i, hi, rfl⟩ := List.mem_map.mp hreservation
    exact ⟨_, List.mem_map_of_mem hi, rfl, rfl⟩
  · intro reservation hreservation t ht
    obtain ⟨i, -, rfl⟩ := List.mem_map.mp hreservation
    exact ht

theorem coherent_downlink (satellite : SatelliteId) (groundStation : AssetId)
    (groundWindow : TimeWindow) (priority : Priority) :
    Coherent [downlinkTask ctx satellite groundStation groundWindow priority]
      [downlinkReservation ctx constellation satellite groundStation groundWindow] := by
  constructor
  · exact ⟨fun _ hdep => absurd hdep List.not_mem_nil, trivial⟩
  · rintro reservation hreservation
    rw [List.mem_singleton.mp hreservation]
    exact ⟨_, List.mem_cons_self, rfl, rfl⟩
  · intro reservation hreservation t ht
    rw [List.mem_singleton.mp hreservation] at ht ⊢
    exact ht

/-- The window of a downlink outlasts the observation. -/
theorem not_valid_deliveryReservation (satId : SatelliteId) (gsId : AssetId) (obs : TimeWindow)
    (i : ℕ) : ¬ ∀ t, (deliveryReservation ctx constellation satId gsId obs i).timeWindow.contains t →
      (deliveryReservation ctx constellation satId gsId obs i).bandwidth.validWindow.contains t := by
  intro hvalid
  have hend : obs.contains (obs.end + Duration.seconds 300) := hvalid _ (by
    show (downlinkWindow obs).contains _
    simp [TimeWindow.contains, downlinkWindow, TimeWindow.new, Duration.seconds])
  simp [TimeWindow.contains, Duration.seconds] at hend

theorem coherent_observation_iff [TrigOps F64 F32] {target : GeoRegion} {sensor : SensorType}
    {revisitRate : Duration} {priority : Priority} {n : ℕ} :
    let passes := (List.range n).map
      (observationPass ctx constellation topology target sensor revisitRate priority)
    Coherent (passes.flatMap (·.1)) (passes.flatMap (·.2)) ↔
      ∀ i < n, deliveryStation ctx constellation topology revisitRate i = none := by
  intro passes
  constructor
  · intro hcoherent i hi
    cases hstation : deliveryStation ctx constellation topology revisitRate i with
    | none => rfl
    | some gsId =>
      have hvalid := hcoherent.bandwidth _
        (mem_observationReservations.mpr ⟨i, hi, gsId, hstation, rfl⟩)
      exact absurd hvalid (not_valid_deliveryReservation _ _ _ _)
  · intro hnone
    have hempty : ∀ reservation, reservation ∉ passes.flatMap (·.2) := by
      intro reservation hreservation
      obtain ⟨i, hi, gsId, hstation, -⟩ := mem_observationReservations.mp hreservation
      rw [hnone i hi] at hstation
      contradiction
    constructor
    · refine eachAfter_observation (fun satId gsId i => ?_) n
      show (obsWindow topology revisitRate i).end ≤
        (downlinkWindow (obsWindow topology revisitRate i)).end
      simp [downlinkWindow, TimeWindow.new, Duration.seconds]
    · exact fun _ hmem => absurd hmem (hempty _)
    · exact fun _ hmem => absurd hmem (hempty _)

/-! ### Plans -/

theorem coherent_iff_noDelivery [TrigOps F64 F32] {router : SpatiotemporalRouter}
    (htimed : router.AllTimed) (intent : MissionIntent) :
    (∀ plan, (compile ctx constellation topology ⟨router⟩ intent).2 = .ok plan →
      Coherent plan.satelliteTasks plan.linkReservations) ↔
      NoDelivery ctx constellation topology intent := by
  rw [forall_plan_iff]
  unfold compileObjective NoDelivery
  cases intent.objective with
  | dataRelay source destination volume =>
    refine ⟨fun _ => trivial, fun _ tasking htasking => ?_⟩
    obtain ⟨sourceSat, destSat, route, -, -, hroute, rfl⟩ := compileDataRelay_ok_iff.mp htasking
    exact coherent_relay (htimed.respond.2 route hroute)
  | observation target sensor revisitRate =>
    simp only [compileObservation_ok_iff]
    constructor
    · exact fun h hsats => coherent_observation_iff.mp (h _ ⟨hsats, rfl⟩)
    · rintro hnone _ ⟨hsats, rfl⟩
      exact coherent_observation_iff.mpr (hnone hsats)
  | custody target persistence =>
    refine ⟨fun _ => trivial, fun _ tasking htasking => ?_⟩
    obtain ⟨targetSat, -, -, rfl⟩ := compileCustody_ok_iff.mp htasking
    exact coherent_custody _ _ _ _
  | downlink satellite groundWindow =>
    refine ⟨fun _ => trivial, fun _ tasking htasking => ?_⟩
    obtain ⟨groundStation, -, rfl⟩ := compileDownlink_ok_iff.mp htasking
    exact coherent_downlink _ _ _ _

/-- With a router that has answered any queries, every plan of an intent is coherent exactly when
no observation has its data downlinked. -/
theorem plan_coherent_iff [TrigOps F64 F32] (costModel : CostModel) (queries : List RouteQuery)
    (intent : MissionIntent) :
    (∀ plan, (compile ctx constellation topology
        ⟨run (SpatiotemporalRouter.ask ctx.heap) (.new costModel) queries⟩ intent).2 = .ok plan →
      Coherent plan.satelliteTasks plan.linkReservations) ↔
      NoDelivery ctx constellation topology intent :=
  coherent_iff_noDelivery (SpatiotemporalRouter.allTimed_of_run ctx.heap costModel queries) intent

/-- The rate for the downlink of an observation ends before the downlink starts. -/
theorem delivery_not_coherent : letI := zeroAngle
    ¬ ∀ (ctx : CompileContext ℚ) (constellation : ConstellationState ℚ)
      (topology : TopologyForecast) (costModel : CostModel) (queries : List RouteQuery)
      (intent : MissionIntent),
      ∀ plan, (compile ctx constellation topology
          ⟨run (SpatiotemporalRouter.ask ctx.heap) (.new costModel) queries⟩ intent).2 =
            .ok plan →
        Coherent plan.satelliteTasks plan.linkReservations := by
  intro hall
  let := zeroAngle
  have hnone : NoDelivery passContext passConstellation passForecast passIntent :=
    (coherent_iff_noDelivery (SpatiotemporalRouter.allTimed_of_run (.scan _) .default [])
      passIntent).mp (hall passContext passConstellation passForecast .default [] passIntent)
  have hstation := hnone (List.cons_ne_nil _ _) 0 (by decide +kernel)
  rw [deliveryStation_pass] at hstation
  contradiction

end GroundCore.Oisl.Mission
