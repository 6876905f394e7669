import GroundCore.Oisl.Mission.Compiler
import GroundCore.Oisl.Mission.Scheduler
import GroundCore.Oisl.Topology.RouteCache

/-! What the compiler makes of each kind of objective: the tasks and the reservations of a plan, and
how its tasks depend on each other. -/

namespace GroundCore.Oisl.Mission

open Lib Oisl.Topology

variable {F64 F32 : Type}

namespace DefaultIntentCompiler

variable {ctx : CompileContext F64} {constellation : ConstellationState F64}
  {topology : TopologyForecast} {tasking : Tasking}

/-! ### Compilations that succeed -/

section

variable [TrigOps F64 F32]

theorem compile_ok_iff {compiler : DefaultIntentCompiler} {intent : MissionIntent}
    {plan : TaskingPlan} :
    (compile ctx constellation topology compiler intent).2 = .ok plan ↔
      ∃ tasking, (compileObjective ctx constellation topology compiler.router intent).2 =
        .ok tasking ∧ planOf ctx topology intent tasking = plan := by
  unfold compile
  cases compileObjective ctx constellation topology compiler.router intent with
  | mk router result =>
    cases result with
    | error e => simp [Except.map]
    | ok tasking => simp [Except.map]

/-- What holds of every plan holds of what is made of each tasking for the objective. -/
theorem forall_plan_iff {compiler : DefaultIntentCompiler} {intent : MissionIntent}
    {P : TaskingPlan → Prop} :
    (∀ plan, (compile ctx constellation topology compiler intent).2 = .ok plan → P plan) ↔
      ∀ tasking, (compileObjective ctx constellation topology compiler.router intent).2 =
        .ok tasking → P (planOf ctx topology intent tasking) := by
  simp only [compile_ok_iff, forall_exists_index, and_imp]
  exact ⟨fun h tasking htasking => h _ tasking htasking rfl,
    fun h _ tasking htasking hplan => hplan ▸ h tasking htasking⟩

theorem compileObservation_ok_iff {target : GeoRegion} {sensor : SensorType}
    {revisitRate : Duration} {sla : ServiceLevelAgreement} :
    compileObservation ctx constellation topology target sensor revisitRate sla = .ok tasking ↔
      candidateSats ctx constellation ≠ [] ∧
        let passes := (List.range (numWindows topology revisitRate)).map
          (observationPass ctx constellation topology target sensor revisitRate sla.priority)
        (passes.flatMap (·.1), passes.flatMap (·.2)) = tasking := by
  unfold compileObservation
  by_cases hnone : candidateSats ctx constellation = []
  · simp [hnone]
  · simp [hnone]

theorem compileDownlink_ok_iff {satellite : SatelliteId} {groundWindow : TimeWindow}
    {sla : ServiceLevelAgreement} :
    compileDownlink ctx constellation satellite groundWindow sla = .ok tasking ↔
      ∃ groundStation,
        constellation.findOptimalGroundStation ctx.order satellite groundWindow =
          some groundStation ∧
        ([downlinkTask ctx satellite groundStation groundWindow sla.priority],
          [downlinkReservation ctx constellation satellite groundStation groundWindow]) =
            tasking := by
  unfold compileDownlink
  cases constellation.findOptimalGroundStation ctx.order satellite groundWindow with
  | none => simp
  | some groundStation => simp

end

theorem compileDataRelay_ok_iff {router : SpatiotemporalRouter} {source destination : AssetId}
    {volume : Bytes} {constraints : IntentConstraints} :
    (compileDataRelay ctx constellation topology router source destination volume
      constraints).2 = .ok tasking ↔
      ∃ sourceSat destSat route,
        constellation.resolveAssetToSatellite ctx.order source = some sourceSat ∧
        constellation.resolveAssetToSatellite ctx.order destination = some destSat ∧
        (router.respond ctx.heap (relayQuery ctx topology constraints sourceSat destSat)).2 =
          .ok route ∧
        (route.hops.mapIdx fun i hop => relayTask ctx constellation hop i,
          route.hops.mapIdx fun i hop => relayReservation ctx constellation hop i) = tasking := by
  unfold compileDataRelay
  cases constellation.resolveAssetToSatellite ctx.order source with
  | none => simp
  | some sourceSat =>
    cases constellation.resolveAssetToSatellite ctx.order destination with
    | none => simp
    | some destSat =>
      cases hrespond : router.respond ctx.heap
          (relayQuery ctx topology constraints sourceSat destSat) with
      | mk router' answer =>
        cases answer with
        | error e => simp [hrespond]
        | ok route => simp [hrespond]

theorem compileCustody_ok_iff {target : AssetId} {persistence : Duration}
    {sla : ServiceLevelAgreement} :
    compileCustody ctx constellation topology target persistence sla = .ok tasking ↔
      ∃ targetSat, constellation.resolveAssetToSatellite ctx.order target = some targetSat ∧
        relaySats ctx constellation targetSat ≠ [] ∧
        let relays := relaySats ctx constellation targetSat
        let segments := List.range (numSegments topology persistence)
        (segments.map fun i =>
            custodyTask ctx constellation topology targetSat (roundRobin relays i) sla.priority i,
          segments.map fun i =>
            custodyReservation ctx constellation topology targetSat (roundRobin relays i) i) =
          tasking := by
  unfold compileCustody
  cases constellation.resolveAssetToSatellite ctx.order target with
  | none => simp
  | some targetSat =>
    by_cases hnone : relaySats ctx constellation targetSat = []
    · simp [hnone]
    · simp [hnone]

/-! ### Dependencies -/

/-- Tasks that each depend on the one before. -/
theorem eachAfter_of_chained (ids : ℕ → TaskId) {tasks : List SatelliteTask}
    {R : SatelliteTask → SatelliteTask → Prop}
    (hids : ∀ i task, tasks[i]? = some task →
      task.taskId = ids i ∧ task.dependencies = if 0 < i then [ids (i - 1)] else [])
    (hrelated : ∀ i earlier task, tasks[i]? = some earlier → tasks[i + 1]? = some task →
      R earlier task) :
    EachAfter (SatelliteTask.Resolves R) [] tasks := by
  rw [eachAfter_iff_split]
  rintro front task back rfl depId hdep
  have htask : (front ++ task :: back)[front.length]? = some task := by simp
  obtain ⟨-, hdeps⟩ := hids _ _ htask
  rw [hdeps] at hdep
  cases hfront : front.reverse with
  | nil =>
    rw [List.reverse_eq_nil_iff] at hfront
    subst hfront
    simp at hdep
  | cons earlier rest =>
    obtain rfl : front = rest.reverse ++ [earlier] := by
      rw [← List.reverse_reverse front, hfront, List.reverse_cons]
    have hearlier : (rest.reverse ++ [earlier] ++ task :: back)[rest.length]? = some earlier := by
      simp
    have hnext : (rest.reverse ++ [earlier] ++ task :: back)[rest.length + 1]? = some task := by
      simp
    have hid : depId = ids rest.length := by simpa using hdep
    exact ⟨earlier, by simp, (hids _ _ hearlier).1.trans hid.symm, hrelated _ _ _ hearlier hnext⟩

theorem eachAfter_relay {R : SatelliteTask → SatelliteTask → Prop} {hops : List RoutedHop}
    (hrelated : ∀ i earlier hop, hops[i]? = some earlier → hops[i + 1]? = some hop →
      R (relayTask ctx constellation earlier i) (relayTask ctx constellation hop (i + 1))) :
    EachAfter (SatelliteTask.Resolves R) []
      (hops.mapIdx fun i hop => relayTask ctx constellation hop i) := by
  refine eachAfter_of_chained ctx.taskIds (fun i task htask => ?_)
    fun i earlier task hearlier htask => ?_
  · rw [List.getElem?_mapIdx, Option.map_eq_some_iff] at htask
    obtain ⟨hop, -, rfl⟩ := htask
    exact ⟨rfl, rfl⟩
  · rw [List.getElem?_mapIdx, Option.map_eq_some_iff] at hearlier htask
    obtain ⟨before, hbefore, rfl⟩ := hearlier
    obtain ⟨hop, hhop, rfl⟩ := htask
    exact hrelated i before hop hbefore hhop

theorem eachAfter_custody {R : SatelliteTask → SatelliteTask → Prop} {n : ℕ}
    {targetSat : SatelliteId} {relay : ℕ → SatelliteId} {priority : Priority}
    (hrelated : ∀ i, R (custodyTask ctx constellation topology targetSat (relay i) priority i)
      (custodyTask ctx constellation topology targetSat (relay (i + 1)) priority (i + 1))) :
    EachAfter (SatelliteTask.Resolves R) [] ((List.range n).map fun i =>
      custodyTask ctx constellation topology targetSat (relay i) priority i) := by
  have hget : ∀ {i task}, ((List.range n).map fun i =>
      custodyTask ctx constellation topology targetSat (relay i) priority i)[i]? = some task →
      task = custodyTask ctx constellation topology targetSat (relay i) priority i := by
    intro i task htask
    rw [List.getElem?_map, Option.map_eq_some_iff] at htask
    obtain ⟨j, hj, rfl⟩ := htask
    obtain ⟨hlt, rfl⟩ := List.getElem?_eq_some_iff.mp hj
    rw [List.getElem_range]
  refine eachAfter_of_chained ctx.taskIds (fun i task htask => ?_)
    fun i earlier task hearlier htask => ?_
  · rw [hget htask]
    exact ⟨rfl, rfl⟩
  · rw [hget hearlier, hget htask]
    exact hrelated i

theorem eachAfter_observation [TrigOps F64 F32] {R : SatelliteTask → SatelliteTask → Prop}
    {target : GeoRegion} {sensor : SensorType} {revisitRate : Duration} {priority : Priority}
    (hrelated : ∀ satId gsId i, R
      (observationTask ctx target sensor priority satId (obsWindow topology revisitRate i) i)
      (deliveryTask ctx priority satId gsId (obsWindow topology revisitRate i) i)) (n : ℕ) :
    EachAfter (SatelliteTask.Resolves R) [] (((List.range n).map
      (observationPass ctx constellation topology target sensor revisitRate priority)).flatMap
        (·.1)) := by
  rw [List.flatMap_map]
  refine eachAfter_flatMap (fun h depId hdep => ?_) (fun i _ => ?_) []
  · obtain ⟨earlier, hmem, hid, hR⟩ := h depId hdep
    exact ⟨earlier, List.mem_append_right _ hmem, hid, hR⟩
  · unfold observationPass
    cases deliveryStation ctx constellation topology revisitRate i with
    | none => exact ⟨fun _ hdep => absurd hdep List.not_mem_nil, trivial⟩
    | some gsId =>
      refine ⟨fun _ hdep => absurd hdep List.not_mem_nil, fun depId hdep => ?_, trivial⟩
      exact ⟨_, List.mem_cons_self, (List.mem_singleton.mp hdep).symm, hrelated _ gsId i⟩

/-! ### Tasks and reservations -/

theorem mem_mapIdx_iff {α β : Type} {f : ℕ → α → β} {l : List α} {b : β} :
    b ∈ l.mapIdx f ↔ ∃ i a, l[i]? = some a ∧ f i a = b := by
  rw [List.mem_mapIdx]
  constructor
  · rintro ⟨i, hi, rfl⟩
    exact ⟨i, _, List.getElem?_eq_getElem hi, rfl⟩
  · rintro ⟨i, a, ha, rfl⟩
    obtain ⟨hi, rfl⟩ := List.getElem?_eq_some_iff.mp ha
    exact ⟨i, hi, rfl⟩

section

variable [TrigOps F64 F32] {target : GeoRegion} {sensor : SensorType} {revisitRate : Duration}
  {priority : Priority} {n : ℕ}

theorem mem_observationTasks {task : SatelliteTask} :
    (task ∈ ((List.range n).map
      (observationPass ctx constellation topology target sensor revisitRate priority)).flatMap
        (·.1)) ↔
      ∃ i < n,
        let satId := roundRobin (candidateSats ctx constellation) i
        let obs := obsWindow topology revisitRate i
        task = observationTask ctx target sensor priority satId obs i ∨
          ∃ gsId, deliveryStation ctx constellation topology revisitRate i = some gsId ∧
            task = deliveryTask ctx priority satId gsId obs i := by
  simp only [List.flatMap_map, List.mem_flatMap, List.mem_range]
  refine exists_congr fun i => and_congr_right fun _ => ?_
  unfold observationPass
  cases deliveryStation ctx constellation topology revisitRate i with
  | none => simp
  | some gsId => simp

theorem mem_observationReservations {reservation : LinkReservation} :
    (reservation ∈ ((List.range n).map
      (observationPass ctx constellation topology target sensor revisitRate priority)).flatMap
        (·.2)) ↔
      ∃ i < n, ∃ gsId,
        deliveryStation ctx constellation topology revisitRate i = some gsId ∧
          reservation = deliveryReservation ctx constellation
            (roundRobin (candidateSats ctx constellation) i) gsId
            (obsWindow topology revisitRate i) i := by
  simp only [List.flatMap_map, List.mem_flatMap, List.mem_range]
  refine exists_congr fun i => and_congr_right fun _ => ?_
  unfold observationPass
  cases deliveryStation ctx constellation topology revisitRate i with
  | none => simp
  | some gsId => simp

end

/-! ### The ids of the tasks -/

theorem nodup_relay (hids : Function.Injective ctx.taskIds) (hops : List RoutedHop) :
    ((hops.mapIdx fun i hop => relayTask ctx constellation hop i).map (·.taskId)).Nodup := by
  have hmap : (hops.mapIdx fun i hop => relayTask ctx constellation hop i).map (·.taskId) =
      (List.range hops.length).map ctx.taskIds :=
    List.ext_getElem (by simp) fun i _ _ => by simp [relayTask]
  rw [hmap]
  exact List.nodup_range.map hids

theorem nodup_custody (hids : Function.Injective ctx.taskIds) (n : ℕ) (targetSat : SatelliteId)
    (relay : ℕ → SatelliteId) (priority : Priority) :
    (((List.range n).map fun i =>
      custodyTask ctx constellation topology targetSat (relay i) priority i).map
        (·.taskId)).Nodup := by
  rw [List.map_map]
  exact List.nodup_range.map hids

theorem nodup_observation [TrigOps F64 F32] (hids : Function.Injective ctx.taskIds)
    (target : GeoRegion) (sensor : SensorType) (revisitRate : Duration) (priority : Priority)
    (n : ℕ) :
    ((((List.range n).map
      (observationPass ctx constellation topology target sensor revisitRate priority)).flatMap
        (·.1)).map (·.taskId)).Nodup := by
  have hmem : ∀ i, ∀ id ∈ ((observationPass ctx constellation topology target sensor revisitRate
      priority i).1.map (·.taskId)), id = ctx.taskIds (2 * i) ∨ id = ctx.taskIds (2 * i + 1) := by
    intro i id
    unfold observationPass
    cases deliveryStation ctx constellation topology revisitRate i with
    | none => exact fun hid => .inl (by simpa [observationTask] using hid)
    | some gsId => simp [observationTask, deliveryTask]
  rw [List.flatMap_map, List.map_flatMap, List.nodup_flatMap]
  constructor
  · intro i _
    unfold observationPass
    cases deliveryStation ctx constellation topology revisitRate i with
    | none => simp
    | some gsId =>
      have hne : ctx.taskIds (2 * i) ≠ ctx.taskIds (2 * i + 1) := fun heq => by
        have := hids heq
        omega
      simpa [observationTask, deliveryTask] using hne
  · refine List.nodup_range.imp fun {i j} hij id hi hj => ?_
    rcases hmem i id hi with rfl | rfl <;> rcases hmem j _ hj with heq | heq <;>
      have := hids heq <;> omega

end DefaultIntentCompiler

/-! ### A satellite over its ground station -/

/-- Exact arithmetic, with functions of an angle that are right when it is zero. -/
@[reducible] def zeroAngle : TrigOps ℚ ℚ := .exact (fun _ => 1) (fun _ => 0) (fun _ => 0)

/-- The names "gs-1" and "sat-1" have these ids. -/
def passContext : CompileContext ℚ :=
  { order := ⟨.stored _, .stored _, .stored _⟩
    newV5 name :=
      if name = "gs-1" then 127538083533697813077335023534076625590
      else 117244117719833730804190464452647711788
    planId := 0
    taskIds := id
    linkIds := id
    now := 0
    deadlineNow := 0
    heap := .scan _
    routeOrder := .stored _
    getTime := 0
    putTimes := (0, 0) }

def passConstellation : ConstellationState ℚ :=
  { satellites := (∅ : HashMap SatelliteId (SatelliteState ℚ)).insert "sat-1" ⟨"sat-1", ⟨0, 0⟩, []⟩
    opticalTerminals := ∅
    groundStations := (∅ : HashMap AssetId (GroundStationState ℚ)).insert "gs-1"
      ⟨"gs-1", (0, 0), [⟨0, Duration.hours 1⟩], ⟨0⟩⟩ }

def passForecast : TopologyForecast :=
  { TopologyForecast.new 0 (Duration.seconds 600) with
    snapshots := [(0, { timestamp := 0, nodes := ["sat-1", "gs-1"], potentialEdges := [] })]
    sorted := List.pairwise_singleton _ _ }

/-- A target that is seen every ten minutes. -/
def passIntent : MissionIntent :=
  { intentId := 0
    objective := .observation ⟨"target"⟩ .optical (Duration.seconds 600)
    constraints := ⟨none⟩
    sla := ⟨.medium, none⟩ }

theorem deliveryStation_pass : letI := zeroAngle
    DefaultIntentCompiler.deliveryStation passContext passConstellation passForecast
      (Duration.seconds 600) 0 = some "gs-1" := by
  decide +kernel

end GroundCore.Oisl.Mission
