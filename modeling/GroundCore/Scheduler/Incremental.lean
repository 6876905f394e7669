import GroundCore.Scheduler.Annealing

/-! The incremental optimization.  Every new request has a pass from the start, so no move adds
one, and the requests of the result are those of the schedule and the new ones, each as often as it
was given. -/

namespace GroundCore.Scheduler.ScheduleOptimizer

open Lib

variable {F64 F32 : Type} [FloatOps F64 F32] {o : ScheduleOptimizer F64}

/-- When every request is scheduled, a move keeps the requests of the passes. -/
theorem requestIds_generateNeighbor {requests : List PassRequest} {schedule : Schedule F64}
    (hall : ∀ request ∈ requests, request.requestId ∈ schedule.passes.map (·.requestId))
    (hardware : HardwareConfig) (choices : MoveChoices) :
    ((generateNeighbor hardware requests choices schedule).passes.map (·.requestId)).Perm
      (schedule.passes.map (·.requestId)) := by
  rcases ids_generateNeighbor hardware requests choices schedule with
    ⟨-, hperm⟩ | ⟨request, hmem, hnew, -, -⟩
  · exact hperm
  · exact absurd (hall request hmem) hnew

theorem requestIds_climb {requests : List PassRequest} {schedule : Schedule F64}
    (hall : ∀ request ∈ requests, request.requestId ∈ schedule.passes.map (·.requestId))
    (step : ClimbStep) : ((o.climb requests schedule step).passes.map (·.requestId)).Perm
      (schedule.passes.map (·.requestId)) := by
  unfold climb
  simp only
  split
  · exact requestIds_generateNeighbor hall o.hardware step.choices
  · exact List.Perm.refl _

/-- The requests of the tail after any number of steps. -/
theorem requestIds_run_climb {requests : List PassRequest} {schedule : Schedule F64}
    (hall : ∀ request ∈ requests, request.requestId ∈ schedule.passes.map (·.requestId))
    (steps : List ClimbStep) :
    ((run (o.climb requests) schedule steps).passes.map (·.requestId)).Perm
      (schedule.passes.map (·.requestId)) := by
  apply run_preserves (I := fun tail : Schedule F64 =>
    (tail.passes.map (·.requestId)).Perm (schedule.passes.map (·.requestId)))
  · intro tail step hperm
    exact (requestIds_climb (fun request hmem => hperm.mem_iff.mpr (hall request hmem)) step).trans
      hperm
  · exact List.Perm.refl _

theorem requestIds_tailPasses (o : ScheduleOptimizer F64) (schedule : Schedule F64)
    (newRequests : List PassRequest) (now : DateTime) (created : ℕ → MoveChoices) :
    (o.tailPasses schedule newRequests now created).map (·.requestId) =
      ((schedule.passes.filter fun p => !decide (p.scheduledWindow.start ≤ now)).map (·.requestId)) ++
        newRequests.map (·.requestId) := by
  rw [tailPasses, List.map_append, List.map_map]
  congr 1
  have hzip : newRequests.zipIdx.map (fun r => r.1.requestId) = newRequests.map (·.requestId) := by
    rw [← List.zipIdx_map_fst 0 newRequests, List.map_map, List.zipIdx_map_fst]
    rfl
  exact hzip

/-- The requests of the result: those of the schedule and the new ones. -/
theorem requestIds_incrementalOptimize (o : ScheduleOptimizer F64) (schedule : Schedule F64)
    (newRequests : List PassRequest) (now tailAt resultAt : DateTime) (created : ℕ → MoveChoices)
    (steps : ℕ → ClimbStep) :
    ((o.incrementalOptimize schedule newRequests now tailAt resultAt created steps).passes.map
        (·.requestId)).Perm
      (schedule.passes.map (·.requestId) ++ newRequests.map (·.requestId)) := by
  have htail := requestIds_tailPasses o schedule newRequests now created
  have hall : ∀ request ∈ newRequests, request.requestId ∈
      (o.tailPasses schedule newRequests now created).map (·.requestId) := fun request hmem => by
    rw [htail]
    exact List.mem_append_right _ (List.mem_map_of_mem hmem)
  let tail : Schedule F64 := .new now schedule.horizon.2 tailAt
  let tail := { tail with passes := o.tailPasses schedule newRequests now created }
  have hclimb : ((run (o.climb newRequests) tail ((List.range 200).map steps)).passes.map
      (·.requestId)).Perm (tail.passes.map (·.requestId)) :=
    requestIds_run_climb hall ((List.range 200).map steps)
  have htail : tail.passes.map (·.requestId) = _ := htail
  rw [htail] at hclimb
  have hsplit : (committed schedule now ++
      schedule.passes.filter fun p => !decide (p.scheduledWindow.start ≤ now)).Perm
        schedule.passes := List.filter_append_perm _ _
  have hids := hsplit.map (·.requestId)
  rw [List.map_append] at hids
  rw [incrementalOptimize, List.map_append]
  apply (hclimb.append_left _).trans
  rw [← List.append_assoc]
  exact hids.append_right _

/-- The result begins with the committed passes, and no request is there twice exactly when the new
requests differ from each other and from those that are scheduled. -/
theorem incrementalOptimize_books_once_iff (o : ScheduleOptimizer F64) (schedule : Schedule F64)
    (newRequests : List PassRequest) (now tailAt resultAt : DateTime) (created : ℕ → MoveChoices)
    (steps : ℕ → ClimbStep) (hdistinct : (schedule.passes.map (·.requestId)).Nodup) :
    let result := o.incrementalOptimize schedule newRequests now tailAt resultAt created steps
    (committed schedule now <+: result.passes ∧ (result.passes.map (·.requestId)).Nodup) ↔
      (newRequests.map (·.requestId)).Nodup ∧
        ∀ request ∈ newRequests, request.requestId ∉ schedule.passes.map (·.requestId) := by
  intro result
  have hfirst : committed schedule now <+: result.passes := List.prefix_append _ _
  rw [and_iff_right hfirst, (requestIds_incrementalOptimize o schedule newRequests now tailAt resultAt
    created steps).nodup_iff, List.nodup_append, and_iff_right hdistinct]
  refine and_congr_right fun _ => ⟨fun h request hmem hold => ?_, fun h id hold id' hnew heq => ?_⟩
  · exact h _ hold _ (List.mem_map_of_mem hmem) rfl
  · obtain ⟨request, hmem, rfl⟩ := List.mem_map.mp hnew
    exact h request hmem (heq ▸ hold)

def climbOf (operation : ℕ) : ClimbStep :=
  { choices := moveOf operation 9, currentOrder := .stored _, neighborOrder := .stored _ }

/-- A new request is scheduled beside the pass of another. -/
theorem small_books_once :
    letI := FloatOps.exact id id
    let result := smallOptimizer.incrementalOptimize (scheduleOf [requestOf "a"]) [requestOf "b"]
      0 0 0 (fun _ => moveOf 0 7) fun _ => climbOf 0
    committed (scheduleOf [requestOf "a"]) 0 <+: result.passes ∧
      (result.passes.map (·.requestId)).Nodup := by
  let _ := FloatOps.exact id id
  exact (incrementalOptimize_books_once_iff smallOptimizer (scheduleOf [requestOf "a"])
    [requestOf "b"] 0 0 0 (fun _ => moveOf 0 7) (fun _ => climbOf 0) (by decide)).mpr
      ⟨by decide, by decide⟩

/-- A request whose pass is committed is booked again. -/
theorem small_books_twice :
    letI := FloatOps.exact id id
    ¬ ((smallOptimizer.incrementalOptimize (scheduleOf [requestOf "a"]) [requestOf "a"] 0 0 0
      (fun _ => moveOf 0 7) fun _ => climbOf 0).passes.map (·.requestId)).Nodup := by
  let _ := FloatOps.exact id id
  rw [(requestIds_incrementalOptimize smallOptimizer (scheduleOf [requestOf "a"]) [requestOf "a"] 0 0
    0 (fun _ => moveOf 0 7) fun _ => climbOf 0).nodup_iff]
  decide

end GroundCore.Scheduler.ScheduleOptimizer
