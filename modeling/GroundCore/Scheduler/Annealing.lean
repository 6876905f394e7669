import GroundCore.Lib.LocalSearch
import GroundCore.Scheduler.Optimization

/-! What the moves of the optimizer keep, and what the annealing returns: a schedule of the greatest
score that it met. -/

namespace GroundCore.Scheduler

open Lib FiniteFloat

variable {F64 F32 : Type}

/-- How far a shift moves a pass, back when the duration is negative. -/
def MoveChoices.displacement (choices : MoveChoices) : Duration :=
  let shift := Duration.minutes (Int.tmod choices.shiftMinutes 10 + 1).natAbs
  if choices.direction then shift else -shift

/-- A pass that starts later, or earlier, and takes as long. -/
def ScheduledPass.displaced (pass : ScheduledPass F64) (displacement : Duration) :
    ScheduledPass F64 :=
  let window := pass.scheduledWindow
  { pass with scheduledWindow := { window with
      start := window.start + displacement
      «end» := window.start + displacement + (window.end - window.start) } }

section Moves

theorem swapWithPrevious_perm {α : Type} (l : List α) (idx : ℕ) :
    (swapWithPrevious l idx).Perm l := by
  fun_induction swapWithPrevious l idx with
  | case1 a b l => exact List.Perm.swap a b l
  | case2 a l idx ih => exact ih.cons a
  | case3 => exact List.Perm.refl _

theorem tryPreemption_perm (schedule : Schedule F64) (idx : ℕ) :
    (tryPreemption schedule idx).passes.Perm schedule.passes := by
  unfold tryPreemption
  split
  · exact List.Perm.refl _
  · exact swapWithPrevious_perm _ _

/-- What a move does: it shifts one pass, changes the hardware of one, changes the order, or adds a
pass for the first request that is not scheduled. -/
theorem generateNeighbor_cases (hardware : HardwareConfig) (requests : List PassRequest)
    (choices : MoveChoices) (schedule : Schedule F64) :
    let after := (generateNeighbor hardware requests choices schedule).passes
    let idx := choices.idx % schedule.passes.length
    (choices.operation % 4 = 0 ∧ after = schedule.passes.modify idx (shiftTimeSlot choices)) ∨
    ((choices.operation % 4 = 0 → schedule.passes = []) ∧
      (choices.operation % 4 = 1 ∧
          after = schedule.passes.modify idx (reallocateHardware hardware choices) ∨
        (choices.operation % 4 = 1 → schedule.passes = []) ∧
          (after.Perm schedule.passes ∨
          ∃ request, requests.find? (fun r => r.requestId ∉ schedule.passes.map (·.requestId)) =
              some request ∧
            after = schedule.passes ++ [createPassFromRequest hardware choices request]))) := by
  intro after idx
  by_cases hempty : schedule.passes = []
  · refine .inr ⟨fun _ => hempty, .inr ⟨fun _ => hempty, ?_⟩⟩
    have hfind : requests.find? (fun r => r.requestId ∉ schedule.passes.map (·.requestId)) =
        requests.head? := by
      rw [hempty]
      cases requests <;> simp
    rw [hfind]
    have hafter : after = _ := congrArg Schedule.passes (if_pos (List.isEmpty_iff.mpr hempty))
    rw [hafter]
    cases requests.head? with
    | none => exact .inl (List.Perm.refl _)
    | some request => exact .inr ⟨request, rfl, rfl⟩
  · have hafter : after = _ := congrArg Schedule.passes
      (if_neg fun h => hempty (List.isEmpty_iff.mp h))
    have hoperation : choices.operation % 4 = 0 ∨ choices.operation % 4 = 1 ∨
      choices.operation % 4 = 2 ∨ choices.operation % 4 = 3 := by omega
    rcases hoperation with hop | hop | hop | hop <;> rw [hop] at hafter ⊢ <;> rw [hafter]
    · exact .inl ⟨rfl, rfl⟩
    · exact .inr ⟨by omega, .inl ⟨rfl, rfl⟩⟩
    · exact .inr ⟨by omega, .inr ⟨by omega, .inl (tryPreemption_perm schedule _)⟩⟩
    · refine .inr ⟨by omega, .inr ⟨by omega, ?_⟩⟩
      show (addUnscheduledRequest hardware choices schedule requests).passes.Perm _ ∨ _
      simp only [addUnscheduledRequest]
      cases requests.find? fun r => r.requestId ∉ schedule.passes.map (·.requestId) with
      | none => exact .inl (List.Perm.refl _)
      | some request => exact .inr ⟨request, rfl, rfl⟩

end Moves

section Kept

variable {hardware : HardwareConfig} {requests : List PassRequest} {choices : MoveChoices}

/-- A pass is shifted when it then starts after now and ends less than an hour after it did. -/
theorem shiftTimeSlot_eq (choices : MoveChoices) (pass : ScheduledPass F64) :
    shiftTimeSlot choices pass =
      if pass.scheduledWindow.start + choices.displacement > choices.now ∧
          pass.scheduledWindow.start + choices.displacement +
              (pass.scheduledWindow.end - pass.scheduledWindow.start) <
            pass.scheduledWindow.end + Duration.hours 1 then
        pass.displaced choices.displacement
      else pass := by
  have hstart : (if choices.direction then
        pass.scheduledWindow.start + Duration.minutes (Int.tmod choices.shiftMinutes 10 + 1).natAbs
      else pass.scheduledWindow.start -
        Duration.minutes (Int.tmod choices.shiftMinutes 10 + 1).natAbs : DateTime) =
      pass.scheduledWindow.start + choices.displacement := by
    unfold MoveChoices.displacement
    split
    · rfl
    · exact Int.sub_eq_add_neg
  simp only [shiftTimeSlot, hstart]
  rfl

theorem requestId_shiftTimeSlot (choices : MoveChoices) (pass : ScheduledPass F64) :
    (shiftTimeSlot choices pass).requestId = pass.requestId ∧
      (shiftTimeSlot choices pass).passId = pass.passId := by
  rw [shiftTimeSlot_eq]
  split <;> exact ⟨rfl, rfl⟩

theorem requestId_reallocateHardware (hardware : HardwareConfig) (choices : MoveChoices)
    (pass : ScheduledPass F64) :
    (reallocateHardware hardware choices pass).requestId = pass.requestId ∧
      (reallocateHardware hardware choices pass).passId = pass.passId := by
  unfold reallocateHardware
  split <;> exact ⟨rfl, rfl⟩

theorem map_modify_of_eq {α β : Type} {f : α → α} {g : α → β} (h : ∀ a, g (f a) = g a)
    (l : List α) (idx : ℕ) : (l.modify idx f).map g = l.map g := by
  induction l generalizing idx with
  | nil => simp
  | cons a l ih =>
    cases idx with
    | zero => simp [h]
    | succ idx => simp [ih]

/-- The ids of the passes and their requests after a move: the same in some order, or with those of
a pass for an unscheduled request. -/
theorem ids_generateNeighbor (hardware : HardwareConfig) (requests : List PassRequest)
    (choices : MoveChoices) (schedule : Schedule F64) :
    let after := (generateNeighbor hardware requests choices schedule).passes
    ((after.map (·.passId)).Perm (schedule.passes.map (·.passId)) ∧
      (after.map (·.requestId)).Perm (schedule.passes.map (·.requestId))) ∨
    ∃ request ∈ requests, request.requestId ∉ schedule.passes.map (·.requestId) ∧
      after.map (·.passId) = schedule.passes.map (·.passId) ++ [choices.passId.hyphenated] ∧
      after.map (·.requestId) = schedule.passes.map (·.requestId) ++ [request.requestId] := by
  intro after
  rcases generateNeighbor_cases hardware requests choices schedule with
    ⟨-, heq⟩ | ⟨-, ⟨-, heq⟩ | ⟨-, hperm | ⟨request, hfind, heq⟩⟩⟩
  · have hids : ∀ pass : ScheduledPass F64, _ := requestId_shiftTimeSlot choices
    rw [show after = _ from heq, map_modify_of_eq fun pass => (hids pass).2,
      map_modify_of_eq fun pass => (hids pass).1]
    exact .inl ⟨List.Perm.refl _, List.Perm.refl _⟩
  · have hids : ∀ pass : ScheduledPass F64, _ := requestId_reallocateHardware hardware choices
    rw [show after = _ from heq, map_modify_of_eq fun pass => (hids pass).2,
      map_modify_of_eq fun pass => (hids pass).1]
    exact .inl ⟨List.Perm.refl _, List.Perm.refl _⟩
  · exact .inl ⟨hperm.map _, hperm.map _⟩
  · rw [show after = _ from heq]
    refine .inr ⟨request, List.mem_of_find?_eq_some hfind, ?_, List.map_append, List.map_append⟩
    simpa using List.find?_some hfind

/-- What the moves keep of the passes that are given: each of their ids is there as often as it was,
no request is there twice, and each is a given or a requested one. -/
structure Kept (given : List (ScheduledPass F64)) (requests : List PassRequest)
    (schedule : Schedule F64) : Prop where
  passIds : ∀ id ∈ given.map (·.passId),
    (schedule.passes.map (·.passId)).count id = (given.map (·.passId)).count id
  nodup : (schedule.passes.map (·.requestId)).Nodup
  requested : ∀ id ∈ schedule.passes.map (·.requestId),
    id ∈ given.map (·.requestId) ∨ id ∈ requests.map (·.requestId)

theorem Kept.generateNeighbor {given : List (ScheduledPass F64)} {schedule : Schedule F64}
    (h : Kept given requests schedule) (hardware : HardwareConfig)
    (hfresh : choices.passId.hyphenated ∉ given.map (·.passId)) :
    Kept given requests (generateNeighbor hardware requests choices schedule) := by
  rcases ids_generateNeighbor hardware requests choices schedule with
    ⟨hpass, hrequest⟩ | ⟨request, hmem, hnew, hpass, hrequest⟩
  · exact ⟨fun id hid => (hpass.count_eq id).trans (h.passIds id hid),
      hrequest.nodup_iff.mpr h.nodup, fun id hid => h.requested id (hrequest.mem_iff.mp hid)⟩
  · constructor
    · intro id hid
      have hne : choices.passId.hyphenated ≠ id := fun heq => hfresh (heq ▸ hid)
      rw [hpass, List.count_append, h.passIds id hid, List.count_singleton]
      simp [hne]
    · rw [hrequest]
      refine List.nodup_append.mpr ⟨h.nodup, List.nodup_singleton _, fun id hid id' hid' heq => ?_⟩
      rw [← List.mem_singleton.mp hid', ← heq] at hnew
      exact hnew hid
    · intro id hid
      rw [hrequest] at hid
      rcases List.mem_append.mp hid with hid | hid
      · exact h.requested id hid
      · exact .inr (List.mem_map.mpr ⟨request, hmem, (List.mem_singleton.mp hid).symm⟩)

end Kept

namespace ScheduleOptimizer

variable [ExpOps F64 F32] {o : ScheduleOptimizer F64} {requests : List PassRequest}

/-- The neighbours that a run of the annealing generates. -/
def neighbors (o : ScheduleOptimizer F64) (requests : List PassRequest) :
    AnnealingState F64 → List (Iteration F64) → List (Schedule F64)
  | _, [] => []
  | s, it :: its => generateNeighbor o.hardware requests it.choices s.schedule ::
      o.neighbors requests (o.anneal requests s it) its

variable [FiniteFloat F64 F32]

/-- The score as a number. -/
def score (o : ScheduleOptimizer F64) (schedule : Schedule F64) : ℚ :=
  val (o.evaluateSchedule (.stored _) schedule)

theorem val_evaluateSchedule (o : ScheduleOptimizer F64) (ord : IterOrder (List ℕ))
    (schedule : Schedule F64) : val (o.evaluateSchedule ord schedule) = o.score schedule := by
  rw [score, o.evaluateSchedule_eq ord (.stored _)]

/-- An annealing state as a state of local search. -/
def searchState (s : AnnealingState F64) : LocalSearch.State (Schedule F64) ℚ :=
  ⟨s.schedule, s.bestSchedule, val s.bestScore⟩

theorem anneal_step (s : AnnealingState F64) (it : Iteration F64) :
    LocalSearch.Step o.score (searchState s)
      (generateNeighbor o.hardware requests it.choices s.schedule)
      (searchState (o.anneal requests s it)) := by
  have hscore := o.val_evaluateSchedule it.conflictOrder
    (generateNeighbor o.hardware requests it.choices s.schedule)
  unfold anneal
  simp only
  -- A neighbour that beats the best has a positive difference to it, so it is accepted.
  by_cases hbetter : FloatOps.lt s.bestScore (o.evaluateSchedule it.conflictOrder
      (generateNeighbor o.hardware requests it.choices s.schedule)) = true
  · have hless := (lt_iff _ _).mp hbetter
    have hpositive : FloatOps.lt (FloatOps.lit 0) (o.evaluateSchedule it.conflictOrder
        (generateNeighbor o.hardware requests it.choices s.schedule) - s.bestScore) = true := by
      rw [lt_iff, val_zero, sub_pos_iff]
      exact hless
    rw [if_pos (by rw [hpositive, Bool.true_or]), if_pos hbetter]
    show LocalSearch.Step _ _ _ ⟨_, _, val _⟩
    rw [hscore] at hless ⊢
    exact .improve hless
  · have hle := (lt_eq_false_iff _ _).mp (Bool.not_eq_true _ ▸ hbetter)
    rw [hscore] at hle
    rw [if_neg hbetter]
    split
    · exact .move hle
    · exact .stay hle

theorem anneal_search (o : ScheduleOptimizer F64) (requests : List PassRequest)
    (s : AnnealingState F64) (its : List (Iteration F64)) :
    LocalSearch.Search (fun it => generateNeighbor o.hardware requests it.choices) o.score
      (searchState s) its (o.neighbors requests s its)
      (searchState (run (o.anneal requests) s its)) := by
  induction its generalizing s with
  | nil => exact .nil _
  | cons it its ih => exact .cons (anneal_step s it) (ih _)

/-- The best score never falls below the first one, so nothing is rolled back. -/
theorem optimize_eq (o : ScheduleOptimizer F64) (requests : List PassRequest)
    (horizonStart horizonEnd now : DateTime) (existing : Option (Schedule F64))
    (ord : IterOrder (List ℕ)) (inputs : ℕ → Iteration F64) (restored : Option (Schedule F64)) :
    o.optimize requests horizonStart horizonEnd now existing ord inputs restored =
      (run (o.anneal requests)
        (o.initialState (initialSchedule horizonStart horizonEnd now existing) ord)
        (o.iterations inputs)).bestSchedule := by
  have hgrow := (anneal_search o requests
    (o.initialState (initialSchedule horizonStart horizonEnd now existing) ord)
    (o.iterations inputs)).le.1
  exact if_neg (by rw [Bool.not_eq_true, lt_eq_false_iff]; exact hgrow)

/-- The annealing returns a schedule of the greatest score among the first one and all neighbours,
with every pass of the existing schedule as often as it was there, and with no request twice and
none that was neither scheduled nor asked for. -/
theorem optimize_never_loses (o : ScheduleOptimizer F64) (requests : List PassRequest)
    (horizonStart horizonEnd now : DateTime) (existing : Option (Schedule F64))
    (ord : IterOrder (List ℕ)) (inputs : ℕ → Iteration F64) (restored : Option (Schedule F64))
    (hdistinct : ((initialSchedule horizonStart horizonEnd now existing).passes.map
      (·.requestId)).Nodup)
    (hfresh : ∀ n, (inputs n).choices.passId.hyphenated ∉
      (initialSchedule horizonStart horizonEnd now existing).passes.map (·.passId)) :
    let initial := initialSchedule horizonStart horizonEnd now existing
    let result := o.optimize requests horizonStart horizonEnd now existing ord inputs restored
    let visited := initial :: o.neighbors requests (o.initialState initial ord) (o.iterations inputs)
    (result ∈ visited ∧ ∀ ord' ord'', ∀ schedule ∈ visited,
      val (o.evaluateSchedule ord' schedule) ≤ val (o.evaluateSchedule ord'' result)) ∧
    Kept initial.passes requests result := by
  intro initial result visited
  have hresult : result = _ := o.optimize_eq requests horizonStart horizonEnd now existing ord inputs
    restored
  have hsearch := anneal_search o requests (o.initialState initial ord)
    (o.iterations inputs)
  have hstart : searchState (o.initialState initial ord) = LocalSearch.start o.score initial := by
    rw [searchState, initialState, val_evaluateSchedule]
    rfl
  rw [hstart] at hsearch
  constructor
  · obtain ⟨hmem, hall⟩ := hsearch.best_greatest
    rw [hresult]
    refine ⟨hmem, fun ord' ord'' schedule hvisited => ?_⟩
    rw [val_evaluateSchedule, val_evaluateSchedule]
    exact hall schedule hvisited
  · have hinitial : Kept initial.passes requests initial :=
      ⟨fun _ _ => rfl, hdistinct, fun id hid => .inl hid⟩
    have hmoves : ∀ it ∈ o.iterations inputs, ∀ schedule, Kept initial.passes requests schedule →
        Kept initial.passes requests
          (generateNeighbor o.hardware requests it.choices schedule) := by
      intro it hit schedule hkept
      obtain ⟨n, -, rfl⟩ := List.mem_map.mp (List.takeWhile_subset _ hit)
      exact hkept.generateNeighbor o.hardware (hfresh n)
    rw [hresult]
    exact (hsearch.invariant hmoves hinitial hinitial).2

end ScheduleOptimizer

section Example

/-- An optimizer without tenants, for one device of each kind. -/
def smallOptimizer : ScheduleOptimizer ℚ :=
  { drf := .new, reputation := .new (1 / 10)
    config := { maxIterations := 1, initialTemperature := 1000, coolingRate := 995 / 1000,
                timeout := Duration.seconds 30 }
    hardware := { sdrDevices := ["sdr-0"], shadowSdrDevices := [], antennaIds := ["antenna-0"],
                  rotatorIds := ["rotator-0"] }
    allocationOrder := .stored _, tenantOrder := .stored _ }

/-- A request for the first ten minutes of the horizon. -/
def requestOf (requestId : String) : PassRequest :=
  { requestId, customerId := "customer", satelliteId := "sat"
    window := { start := 0, «end» := Duration.minutes 10, minDurationSec := 300 }
    slaTier := .standard }

/-- The choice of a move for the first pass, at time zero. -/
def moveOf (operation passId : ℕ) : MoveChoices :=
  { idx := 0, operation, shiftMinutes := 9, direction := true, antenna := 0, passId, now := 0 }

def scheduleOf (requests : List PassRequest) : Schedule ℚ :=
  { passes := requests.zipIdx.map fun r =>
      createPassFromRequest smallOptimizer.hardware (moveOf 0 r.2) r.1
    generatedAt := 0, horizon := (0, Duration.hours 24), version := 0 }

def iterationOf (operation passId : ℕ) : Iteration ℚ :=
  { elapsed := 0, choices := moveOf operation passId, conflictOrder := .stored _, draw := 1 / 2 }

open ScheduleOptimizer in
theorem small_never_loses :
    letI := ExpOps.exact id id fun _ => 1
    Kept (scheduleOf [requestOf "a"]).passes [requestOf "a", requestOf "b"]
      (smallOptimizer.optimize [requestOf "a", requestOf "b"] 0 (Duration.hours 24) 0
        (some (scheduleOf [requestOf "a"])) (.stored _) (fun _ => iterationOf 3 1) none) := by
  let _ := ExpOps.exact id id fun _ => 1
  let _ := FiniteFloat.exact id id
  refine (optimize_never_loses smallOptimizer [requestOf "a", requestOf "b"] 0 (Duration.hours 24) 0
    (some (scheduleOf [requestOf "a"])) (.stored _) (fun _ => iterationOf 3 1) none ?_ ?_).2
  · decide
  · exact fun _ => by decide +kernel

end Example

end GroundCore.Scheduler
