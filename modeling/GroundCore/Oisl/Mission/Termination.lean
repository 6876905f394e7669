import GroundCore.Oisl.Mission.Placement

/-! When the loop of the tasking scheduler ends.  A task that waits for itself, or for one that is
neither queued nor scheduled, goes round in the queue forever, and no error is returned for it. -/

namespace GroundCore.Oisl.Mission.TaskingScheduler

open Lib Relation

variable {order : TaskOrder} {scheduler start : TaskingScheduler} {task : SatelliteTask}
  {tasks queue queue' : List SatelliteTask}

/-- A task with the id `id` in the queue depends on `depId`. -/
def DependsOn (scheduler : TaskingScheduler) (id depId : TaskId) : Prop :=
  ∃ task ∈ scheduler.taskQueue, task.taskId = id ∧ depId ∈ task.dependencies

/-- The task depends, directly or transitively, on itself or on an id that is neither queued nor
scheduled. -/
def Unresolvable (scheduler : TaskingScheduler) (task : SatelliteTask) : Prop :=
  ∃ depId, TransGen scheduler.DependsOn task.taskId depId ∧
    (depId = task.taskId ∨
      depId ∉ scheduler.taskQueue.map (·.taskId) ∧ scheduler.scheduledTasks.get? depId = none)

/-- What the loop keeps of the tasks, whatever their ids. -/
structure Waiting (start : TaskingScheduler) (tasks : List SatelliteTask)
    (scheduler : TaskingScheduler) (queue : List SatelliteTask) : Prop where
  subset : queue ⊆ tasks
  scheduled : ∀ id, start.scheduledTasks.get? id ≠ none → scheduler.scheduledTasks.get? id ≠ none
  accounted : ∀ task ∈ tasks, task ∈ queue ∨ scheduler.scheduledTasks.get? task.taskId ≠ none

theorem Waiting.place (h : Waiting start tasks scheduler (task :: queue)) :
    Waiting start tasks (place order scheduler task) queue := by
  refine ⟨fun _ hmem => h.subset (List.mem_cons_of_mem _ hmem), fun id hid =>
    get?_place_ne_none (.inr (h.scheduled id hid)), fun task' hmem => ?_⟩
  rcases h.accounted task' hmem with hqueue | hscheduled
  · rcases List.mem_cons.mp hqueue with rfl | hqueue
    · exact .inr (get?_place_ne_none (.inl rfl))
    · exact .inl hqueue
  · exact .inr (get?_place_ne_none (.inr hscheduled))

theorem Waiting.of_leads {final : TaskingScheduler}
    (hleads : Leads (turn order) scheduler queue final queue')
    (h : Waiting start tasks scheduler queue) : Waiting start tasks final queue' := by
  refine hleads.invariant (fun scheduler task queue _ h => ?_) ?_ h
  · have hperm : (queue ++ [task]).Perm (task :: queue) := List.perm_append_singleton task queue
    exact ⟨fun _ hmem => h.subset (hperm.mem_iff.mp hmem), h.scheduled,
      fun task' hmem => (h.accounted task' hmem).imp_left hperm.mem_iff.mpr⟩
  · intro scheduler after task queue hturn h
    obtain ⟨-, -, rfl⟩ := turn_placed.mp hturn
    exact h.place

/-- When no task is unresolvable, a task that waits does so for another of the queue. -/
theorem Waiting.exists_dependency (h : Waiting start start.taskQueue scheduler queue)
    (hresolvable : ∀ task ∈ start.taskQueue, ¬ start.Unresolvable task) (htask : task ∈ queue)
    (hwait : ¬ scheduler.Ready task) :
    ∃ other ∈ queue, other.taskId ∈ task.dependencies := by
  obtain ⟨depId, hdep, hget⟩ : ∃ depId ∈ task.dependencies,
      scheduler.scheduledTasks.get? depId = none := by
    simpa [Ready, ← Option.isSome_iff_exists, Option.isSome_iff_ne_none] using hwait
  have hmem := h.subset htask
  by_cases hqueued : depId ∈ start.taskQueue.map (·.taskId)
  · obtain ⟨other, hother, rfl⟩ := List.mem_map.mp hqueued
    exact ⟨other, (h.accounted other hother).resolve_right (not_not.mpr hget), hdep⟩
  · refine absurd ⟨depId, .single ⟨task, hmem, rfl, hdep⟩, .inr ⟨hqueued, ?_⟩⟩
      (hresolvable task hmem)
    exact not_not.mp fun hstart => h.scheduled depId hstart hget

theorem not_stuck (hresolvable : ∀ task ∈ scheduler.taskQueue, ¬ scheduler.Unresolvable task)
    {final : TaskingScheduler}
    (hleads : Leads (turn order) scheduler scheduler.taskQueue final queue) :
    ¬ Stuck (turn order) final queue := by
  intro hstuck
  have hwaiting : Waiting scheduler scheduler.taskQueue final queue :=
    .of_leads hleads ⟨fun _ => id, fun _ => id, fun _ => .inl⟩
  obtain ⟨task, htask, hcircle⟩ := hstuck.exists_circle
    (R := fun task other => task ∈ queue ∧ other.taskId ∈ task.dependencies)
    fun task htask hturn => by
      obtain ⟨other, hother, hdep⟩ := hwaiting.exists_dependency hresolvable htask
        (turn_requeued.mp hturn)
      exact ⟨other, hother, htask, hdep⟩
  refine absurd ⟨task.taskId, ?_, .inl rfl⟩ (hresolvable task (hwaiting.subset htask))
  have hdepends : ∀ task other : SatelliteTask, task ∈ queue ∧ other.taskId ∈ task.dependencies →
      scheduler.DependsOn task.taskId other.taskId :=
    fun task _ hdep => ⟨task, hwaiting.subset hdep.1, rfl, hdep.2⟩
  exact TransGen.lift (·.taskId) hdepends _ _ hcircle

theorem schedule_ends (order : TaskOrder)
    (hresolvable : ∀ task ∈ scheduler.taskQueue, ¬ scheduler.Unresolvable task) :
    ∃ fuel result, schedule order fuel scheduler = some result := by
  obtain ⟨fuel, ⟨final, queue, result⟩, hdrain⟩ : ∃ fuel result,
      drain (turn order) fuel scheduler scheduler.taskQueue = some result :=
    exists_drain_iff.mpr fun ⟨_, _, hleads, hstuck⟩ => not_stuck hresolvable hleads hstuck
  exact ⟨fuel, _, schedule_eq_some_iff.mpr ⟨final, queue, hdrain, rfl⟩⟩

/-- The scheduler never returns that a dependency is not satisfied. -/
theorem schedule_ne_dependencyNotSatisfied {fuel : ℕ} {after : TaskingScheduler} (id : TaskId) :
    schedule order fuel scheduler ≠ some (after, .error (.dependencyNotSatisfied id)) := by
  intro h
  obtain ⟨final, task, queue, -, hturn, -⟩ := schedule_error_iff.mp ⟨fuel, h⟩
  unfold turn at hturn
  split at hturn
  · split at hturn <;> simp at hturn
  · simp at hturn

/-- The call ends, with an error for a dependency when some task is unresolvable, exactly when no
task is. -/
theorem schedule_ends_iff (order : TaskOrder) (scheduler : TaskingScheduler) :
    (∃ fuel after result, schedule order fuel scheduler = some (after, result) ∧
      ((∃ task ∈ scheduler.taskQueue, scheduler.Unresolvable task) →
        ∃ id, result = .error (.dependencyNotSatisfied id))) ↔
      ∀ task ∈ scheduler.taskQueue, ¬ scheduler.Unresolvable task := by
  constructor
  · rintro ⟨fuel, after, result, hschedule, himp⟩ task htask hunresolvable
    obtain ⟨id, rfl⟩ := himp ⟨task, htask, hunresolvable⟩
    exact schedule_ne_dependencyNotSatisfied id hschedule
  · intro hresolvable
    obtain ⟨fuel, ⟨after, result⟩, hschedule⟩ := schedule_ends order hresolvable
    exact ⟨fuel, after, result, hschedule, fun ⟨task, htask, hunresolvable⟩ =>
      absurd hunresolvable (hresolvable task htask)⟩

/-- A scheduler with a task that depends on itself. -/
def selfDependent : TaskingScheduler :=
  TaskingScheduler.new.enqueue (observationTask 1 [1] (Duration.seconds 600))

theorem schedule_selfDependent :
    (∃ task ∈ selfDependent.taskQueue, selfDependent.Unresolvable task) ∧
      ¬ ∃ fuel result, schedule (.stored _) fuel selfDependent = some result := by
  refine ⟨⟨_, List.mem_singleton_self _, 1,
    .single ⟨_, List.mem_singleton_self _, rfl, List.mem_singleton_self _⟩, .inl rfl⟩, ?_⟩
  rintro ⟨fuel, result, h⟩
  have hstuck : Stuck (turn (.stored _)) selfDependent selfDependent.taskQueue := by
    refine ⟨by decide, fun task hmem => turn_requeued.mpr ?_⟩
    rw [List.mem_singleton.mp hmem]
    decide
  obtain ⟨final, queue, hdrain, -⟩ := schedule_eq_some_iff.mp h
  rw [drain_eq_none_of_stuck hstuck] at hdrain
  contradiction

end GroundCore.Oisl.Mission.TaskingScheduler
