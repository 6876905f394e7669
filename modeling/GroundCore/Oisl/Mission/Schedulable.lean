import Mathlib.Tactic.Linarith
import GroundCore.Oisl.Mission.PlanTasks

/-! Whether the scheduler can place what the compiler plans.  The compiler chooses the windows, and
the scheduler how long a task of each type takes: a downlink takes ten minutes, for which the window
after an observation is too short. -/

namespace GroundCore.Oisl.Mission

open DefaultIntentCompiler Lib Oisl.Topology

variable {F64 F32 : Type} {ctx : CompileContext F64} {constellation : ConstellationState F64}
  {topology : TopologyForecast}

/-- The objective leaves its downlinks ten minutes and its observations five. -/
def LeavesRoom [TrigOps F64 F32] (ctx : CompileContext F64)
    (constellation : ConstellationState F64) (topology : TopologyForecast)
    (intent : MissionIntent) : Prop :=
  match intent.objective with
  | .dataRelay _ _ _ | .custody _ _ => True
  | .observation _ _ revisitRate => candidateSats ctx constellation ≠ [] →
      300 ≤ numSeconds revisitRate ∧ ∀ i < numWindows topology revisitRate,
        deliveryStation ctx constellation topology revisitRate i = none
  | .downlink satellite groundWindow =>
      (constellation.findOptimalGroundStation ctx.order satellite groundWindow).isSome →
        Duration.seconds 600 ≤ groundWindow.duration

/-! ### Windows -/

theorem numWindows_pos (topology : TopologyForecast) (revisitRate : Duration) :
    0 < numWindows topology revisitRate :=
  Int.lt_toNat.mpr (lt_max_of_lt_right Int.one_pos)

theorem seconds_le_seconds {m n : ℤ} : Duration.seconds m ≤ Duration.seconds n ↔ m ≤ n := by
  show (m * 1000000000 : ℤ) ≤ n * 1000000000 ↔ m ≤ n
  omega

/-- A task fits exactly when its window is as long as it takes. -/
theorem SatelliteTask.fits_iff (task : SatelliteTask) :
    task.Fits ↔ task.taskType.defaultDuration ≤ task.scheduledWindow.duration :=
  le_sub_iff_add_le'.symm

theorem TimeWindow_duration_new (start : DateTime) (d : Duration) :
    (TimeWindow.new start (start + d)).duration = d := add_sub_cancel_left start d

theorem fits_observationTask_iff {target : GeoRegion} {sensor : SensorType} {priority : Priority}
    {satId : SatelliteId} {revisitRate : Duration} {i j : ℕ} :
    (observationTask ctx target sensor priority satId (obsWindow topology revisitRate i) j).Fits ↔
      300 ≤ numSeconds revisitRate := by
  have hwindow : (obsWindow topology revisitRate i).duration =
      Duration.seconds (min (revisitSecs revisitRate) 600) := TimeWindow_duration_new _ _
  rw [SatelliteTask.fits_iff]
  show Duration.seconds (5 * 60) ≤ (obsWindow topology revisitRate i).duration ↔ _
  rw [hwindow, seconds_le_seconds]
  unfold revisitSecs
  omega

theorem not_fits_deliveryTask {priority : Priority} {satId : SatelliteId} {gsId : AssetId}
    {obs : TimeWindow} {i : ℕ} : ¬ (deliveryTask ctx priority satId gsId obs i).Fits := by
  have hwindow : (downlinkWindow obs).duration = Duration.seconds 300 := TimeWindow_duration_new _ _
  rw [SatelliteTask.fits_iff]
  show ¬ Duration.seconds (10 * 60) ≤ (downlinkWindow obs).duration
  rw [hwindow, seconds_le_seconds]
  omega

theorem fits_downlinkTask_iff {satellite : SatelliteId} {groundStation : AssetId}
    {groundWindow : TimeWindow} {priority : Priority} :
    (downlinkTask ctx satellite groundStation groundWindow priority).Fits ↔
      Duration.seconds 600 ≤ groundWindow.duration := SatelliteTask.fits_iff _

/-! ### The kinds of objectives -/

theorem schedulable_relay (hids : Function.Injective ctx.taskIds) (order : TaskOrder)
    {route : Route} (htimed : route.Timed) :
    Schedulable order (route.hops.mapIdx fun i hop => relayTask ctx constellation hop i) := by
  obtain ⟨t, edges, hhops⟩ := htimed
  refine (schedulable_iff order (eachAfter_relay fun i earlier hop hearlier hhop _ => ?_)
    (nodup_relay hids _)).mpr fun task htask => ?_
  · rw [hhops] at hearlier hhop
    show earlier.useWindow.start + hopDuration ≤ hop.useWindow.start
    rw [(getElem?_routedHops hearlier).1, (getElem?_routedHops hhop).1]
    push_cast
    linarith
  · obtain ⟨i, hop, hhop, rfl⟩ := mem_mapIdx_iff.mp htask
    rw [hhops] at hhop
    show hop.useWindow.start + hopDuration ≤ hop.useWindow.end
    rw [(getElem?_routedHops hhop).1]

theorem schedulable_custody (hids : Function.Injective ctx.taskIds) (order : TaskOrder) (n : ℕ)
    (targetSat : SatelliteId) (relay : ℕ → SatelliteId) (priority : Priority) :
    Schedulable order ((List.range n).map fun i =>
      custodyTask ctx constellation topology targetSat (relay i) priority i) := by
  refine (schedulable_iff order (eachAfter_custody fun i _ => ?_)
    (nodup_custody hids _ _ _ _)).mpr fun task htask => ?_
  · show (segmentWindow topology i).start + Duration.seconds 30 ≤
      (segmentWindow topology (i + 1)).start
    simp only [segmentWindow, TimeWindow.new, Duration.seconds]
    push_cast
    linarith
  · obtain ⟨i, -, rfl⟩ := List.mem_map.mp htask
    have hwindow : (segmentWindow topology i).duration = Duration.seconds 600 :=
      TimeWindow_duration_new _ _
    rw [SatelliteTask.fits_iff]
    show Duration.seconds 30 ≤ (segmentWindow topology i).duration
    rw [hwindow, seconds_le_seconds]
    omega

theorem schedulable_observation_iff [TrigOps F64 F32] (hids : Function.Injective ctx.taskIds)
    (order : TaskOrder) {target : GeoRegion} {sensor : SensorType} {revisitRate : Duration}
    {priority : Priority} :
    Schedulable order (((List.range (numWindows topology revisitRate)).map
      (observationPass ctx constellation topology target sensor revisitRate priority)).flatMap
        (·.1)) ↔
      300 ≤ numSeconds revisitRate ∧ ∀ i < numWindows topology revisitRate,
        deliveryStation ctx constellation topology revisitRate i = none := by
  rw [schedulable_iff order (eachAfter_observation (fun satId gsId i hfits => ?_) _)
    (nodup_observation hids _ _ _ _ _)]
  · constructor
    · intro hfits
      refine ⟨?_, fun i hi => ?_⟩
      · have hfirst := hfits _
          (mem_observationTasks.mpr ⟨0, numWindows_pos topology revisitRate, .inl rfl⟩)
        exact fits_observationTask_iff.mp hfirst
      · cases hstation : deliveryStation ctx constellation topology revisitRate i with
        | none => rfl
        | some gsId =>
          have hdelivery := hfits _ (mem_observationTasks.mpr ⟨i, hi, .inr ⟨gsId, hstation, rfl⟩⟩)
          exact absurd hdelivery not_fits_deliveryTask
    · rintro ⟨hrate, hstations⟩ task htask
      obtain ⟨i, hi, rfl | ⟨gsId, hstation, -⟩⟩ := mem_observationTasks.mp htask
      · exact fits_observationTask_iff.mpr hrate
      · rw [hstations i hi] at hstation
        contradiction
  · -- an observation that fits is over when the window of its downlink starts
    exact hfits

theorem schedulable_downlink_iff (order : TaskOrder) {satellite : SatelliteId}
    {groundStation : AssetId} {groundWindow : TimeWindow} {priority : Priority} :
    Schedulable order [downlinkTask ctx satellite groundStation groundWindow priority] ↔
      Duration.seconds 600 ≤ groundWindow.duration := by
  have hprompt : EachAfter SatelliteTask.Prompt []
      [downlinkTask ctx satellite groundStation groundWindow priority] :=
    ⟨fun _ hdep => absurd hdep List.not_mem_nil, trivial⟩
  rw [schedulable_iff order hprompt (List.nodup_singleton _), List.forall_mem_singleton,
    fits_downlinkTask_iff]

/-! ### Plans -/

/-- With a router whose cached routes are timed, every plan of an intent can be scheduled exactly
when the objective leaves room for its downlinks and observations. -/
theorem schedulable_iff_leavesRoom [TrigOps F64 F32] (hids : Function.Injective ctx.taskIds)
    (order : TaskOrder) {router : SpatiotemporalRouter} (htimed : router.AllTimed)
    (intent : MissionIntent) :
    (∀ plan, (compile ctx constellation topology ⟨router⟩ intent).2 = .ok plan →
      Schedulable order plan.satelliteTasks) ↔
      LeavesRoom ctx constellation topology intent := by
  rw [forall_plan_iff]
  unfold compileObjective LeavesRoom
  cases intent.objective with
  | dataRelay source destination volume =>
    refine ⟨fun _ => trivial, fun _ tasking htasking => ?_⟩
    obtain ⟨sourceSat, destSat, route, -, -, hroute, rfl⟩ := compileDataRelay_ok_iff.mp htasking
    exact schedulable_relay hids order (htimed.respond.2 route hroute)
  | observation target sensor revisitRate =>
    simp only [compileObservation_ok_iff]
    constructor
    · exact fun h hsats => (schedulable_observation_iff hids order).mp (h _ ⟨hsats, rfl⟩)
    · rintro hroom _ ⟨hsats, rfl⟩
      exact (schedulable_observation_iff hids order).mpr (hroom hsats)
  | custody target persistence =>
    refine ⟨fun _ => trivial, fun _ tasking htasking => ?_⟩
    obtain ⟨targetSat, -, -, rfl⟩ := compileCustody_ok_iff.mp htasking
    exact schedulable_custody hids order _ _ _ _
  | downlink satellite groundWindow =>
    simp only [compileDownlink_ok_iff, Option.isSome_iff_exists]
    constructor
    · rintro h ⟨groundStation, hstation⟩
      exact (schedulable_downlink_iff order).mp (h _ ⟨groundStation, hstation, rfl⟩)
    · rintro hroom _ ⟨groundStation, hstation, rfl⟩
      exact (schedulable_downlink_iff order).mpr (hroom ⟨groundStation, hstation⟩)

/-- With a router that has answered any queries, every plan of an intent can be scheduled exactly
when the objective leaves room for its downlinks and observations. -/
theorem plan_schedulable_iff [TrigOps F64 F32] (hids : Function.Injective ctx.taskIds)
    (order : TaskOrder) (costModel : CostModel) (queries : List RouteQuery)
    (intent : MissionIntent) :
    (∀ plan, (compile ctx constellation topology
        ⟨run (SpatiotemporalRouter.ask ctx.heap) (.new costModel) queries⟩ intent).2 = .ok plan →
      Schedulable order plan.satelliteTasks) ↔
      LeavesRoom ctx constellation topology intent :=
  schedulable_iff_leavesRoom hids order
    (SpatiotemporalRouter.allTimed_of_run ctx.heap costModel queries) intent

/-- A downlink in a window of ten minutes can be scheduled. -/
theorem tenMinutes_schedulable : letI := zeroAngle
    let compiled := (compile passContext passConstellation passForecast
      ⟨run (SpatiotemporalRouter.ask (.scan _)) (.new .default) []⟩
      { passIntent with objective := .downlink "sat-1" ⟨0, Duration.seconds 600⟩ }).2
    (∃ plan, compiled = .ok plan) ∧
      ∀ plan, compiled = .ok plan → Schedulable (.stored _) plan.satelliteTasks := by
  let := zeroAngle
  have hstation : passConstellation.findOptimalGroundStation passContext.order "sat-1"
      ⟨0, Duration.seconds 600⟩ = some "gs-1" := by
    decide +kernel
  constructor
  · exact ⟨_, compile_ok_iff.mpr
      ⟨_, compileDownlink_ok_iff.mpr ⟨"gs-1", hstation, rfl⟩, rfl⟩⟩
  · exact (plan_schedulable_iff Function.injective_id (.stored _) .default [] _).mpr
      fun _ => (TimeWindow_duration_new 0 _).ge

/-- The data of an observation is to be downlinked in five minutes, which is too short. -/
theorem delivery_not_schedulable : letI := zeroAngle
    ¬ ∀ (ctx : CompileContext ℚ) (constellation : ConstellationState ℚ)
      (topology : TopologyForecast) (order : TaskOrder) (costModel : CostModel)
      (queries : List RouteQuery) (intent : MissionIntent), Function.Injective ctx.taskIds →
      ∀ plan, (compile ctx constellation topology
          ⟨run (SpatiotemporalRouter.ask ctx.heap) (.new costModel) queries⟩ intent).2 =
            .ok plan →
        Schedulable order plan.satelliteTasks := by
  intro hall
  let := zeroAngle
  have hroom : LeavesRoom passContext passConstellation passForecast passIntent :=
    (schedulable_iff_leavesRoom Function.injective_id (.stored _)
      (SpatiotemporalRouter.allTimed_of_run (.scan _) .default []) passIntent).mp
        (hall passContext passConstellation passForecast (.stored _) .default [] passIntent
          Function.injective_id)
  have hnone := (hroom (List.cons_ne_nil _ _)).2 0 (numWindows_pos _ _)
  rw [deliveryStation_pass] at hnone
  contradiction

end GroundCore.Oisl.Mission
