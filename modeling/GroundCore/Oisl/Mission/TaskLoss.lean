import GroundCore.Oisl.Mission.Placement

/-! What a failed call of the tasking scheduler leaves of the tasks.  The task that fails has been
taken from the queue and is put back nowhere. -/

namespace GroundCore.Oisl.Mission.TaskingScheduler

open Lib

variable {order : TaskOrder} {scheduler start : TaskingScheduler} {task : SatelliteTask}
  {queue queue' : List SatelliteTask}

/-- The tasks that are scheduled, and those in the queue. -/
def heldTasks (scheduler : TaskingScheduler) : List SatelliteTask :=
  scheduler.scheduledTasks.values.map (·.task) ++ scheduler.taskQueue

/-- After a call that fails, every task is still scheduled or in the queue, as often as before. -/
def KeepsTasks (order : TaskOrder) (scheduler : TaskingScheduler) : Prop :=
  ∀ fuel after e, schedule order fuel scheduler = some (after, .error e) →
    scheduler.heldTasks.Subperm after.heldTasks

/-! ### Calls that fail -/

theorem length_place_le (order : TaskOrder) (scheduler : TaskingScheduler) (task : SatelliteTask) :
    (place order scheduler task).scheduledTasks.values.length ≤
      scheduler.scheduledTasks.values.length + 1 := by
  rw [scheduledTasks_place, HashMap.values, HashMap.values, List.length_map, List.length_map,
    HashMap.length_insert]
  exact Nat.add_le_add_right (HashMap.length_erase_le _ _) 1

theorem length_le_of_leads {final : TaskingScheduler}
    (hleads : Leads (turn order) scheduler queue final queue') :
    final.scheduledTasks.values.length + queue'.length ≤
      scheduler.scheduledTasks.values.length + queue.length := by
  refine hleads.invariant (I := fun final queue' => final.scheduledTasks.values.length +
    queue'.length ≤ scheduler.scheduledTasks.values.length + queue.length) ?_ ?_ le_rfl
  · intro final task queue' _ h
    simpa using h
  · intro final after task queue' hturn h
    obtain ⟨-, -, rfl⟩ := turn_placed.mp hturn
    have hplace := length_place_le order final task
    rw [List.length_cons] at h
    omega

/-- A call that fails leaves fewer tasks than there were. -/
theorem length_lt_of_error {fuel : ℕ} {after : TaskingScheduler} {e : ScheduleError}
    (h : schedule order fuel scheduler = some (after, .error e)) :
    after.heldTasks.length < scheduler.heldTasks.length := by
  obtain ⟨final, task, queue, hleads, -, rfl⟩ := schedule_error_iff.mp ⟨fuel, h⟩
  have hle := length_le_of_leads hleads
  rw [List.length_cons] at hle
  simp only [heldTasks, List.length_append, List.length_map]
  omega

/-- The tasks are kept exactly when no task that is ready overruns its window on its turn. -/
theorem keepsTasks_iff_turns : KeepsTasks order scheduler ↔
    ∀ final task queue, Leads (turn order) scheduler scheduler.taskQueue final (task :: queue) →
      final.Ready task → ¬ task.OverrunsAfter final.endOf := by
  constructor
  · intro hkeeps final task queue hleads hready hover
    obtain ⟨e, hturn⟩ := turn_failed.mpr ⟨hready, hover⟩
    obtain ⟨fuel, herror⟩ : ∃ fuel, schedule order fuel scheduler =
        some ({ final with taskQueue := queue }, .error e) :=
      schedule_error_iff.mpr ⟨final, task, queue, hleads, hturn, rfl⟩
    exact absurd (hkeeps fuel _ e herror).length_le (not_le.mpr (length_lt_of_error herror))
  · intro hfits fuel after e herror
    obtain ⟨final, task, queue, hleads, hturn, -⟩ := schedule_error_iff.mp ⟨fuel, herror⟩
    obtain ⟨hready, hover⟩ := turn_failed.mp ⟨e, hturn⟩
    exact absurd hover (hfits final task queue hleads hready)

/-! ### When a call fails -/

/-- The end of a task that is scheduled, or that can be placed after those that it depends on. -/
inductive EndsAt (scheduler : TaskingScheduler) : TaskId → DateTime → Prop
  | scheduled {id : TaskId} {scheduled : ScheduledTask}
      (h : scheduler.scheduledTasks.get? id = some scheduled) :
      EndsAt scheduler id scheduled.scheduledEnd
  | queued {task : SatelliteTask} {ends : TaskId → DateTime} (htask : task ∈ scheduler.taskQueue)
      (hdeps : ∀ depId ∈ task.dependencies, EndsAt scheduler depId (ends depId))
      (hfits : ¬ task.OverrunsAfter ends) :
      EndsAt scheduler task.taskId (task.startAfter ends + task.taskType.defaultDuration)

/-- The tasks that the task depends on can be placed, and after them the task overruns its
window. -/
def Overruns (scheduler : TaskingScheduler) (task : SatelliteTask) : Prop :=
  ∃ ends, (∀ depId ∈ task.dependencies, scheduler.EndsAt depId (ends depId)) ∧
    task.OverrunsAfter ends

/-- What the loop has scheduled ends where it can. -/
structure Sound (start scheduler : TaskingScheduler) (queue : List SatelliteTask) : Prop where
  subset : queue ⊆ start.taskQueue
  endsAt : ∀ id scheduled, scheduler.scheduledTasks.get? id = some scheduled →
    start.EndsAt id scheduled.scheduledEnd

theorem Sound.endsAt_endOf (h : Sound start scheduler queue) (hready : scheduler.Ready task) :
    ∀ depId ∈ task.dependencies, start.EndsAt depId (scheduler.endOf depId) := by
  intro depId hdep
  obtain ⟨scheduled, hget⟩ := hready depId hdep
  rw [endOf_of_get? hget]
  exact h.endsAt depId scheduled hget

theorem Sound.of_leads {final : TaskingScheduler}
    (hleads : Leads (turn order) scheduler queue final queue') (h : Sound start scheduler queue) :
    Sound start final queue' := by
  refine hleads.invariant (fun scheduler task queue _ h => ⟨fun _ hmem => h.subset ?_, h.endsAt⟩)
    ?_ h
  · exact (List.perm_append_singleton task queue).mem_iff.mp hmem
  · intro scheduler after task queue hturn h
    obtain ⟨hready, hfits, rfl⟩ := turn_placed.mp hturn
    refine ⟨fun _ hmem => h.subset (List.mem_cons_of_mem _ hmem), fun id scheduled hget => ?_⟩
    rw [scheduledTasks_place, HashMap.get?_insert] at hget
    split at hget
    · next heq =>
      obtain rfl := Option.some.inj hget
      rw [heq]
      exact .queued (h.subset List.mem_cons_self) (h.endsAt_endOf hready) hfits
    · exact h.endsAt id scheduled hget

theorem keepsTasks_of_not_overruns
    (hfits : ∀ task ∈ scheduler.taskQueue, ¬ scheduler.Overruns task) :
    KeepsTasks order scheduler := by
  rw [keepsTasks_iff_turns]
  intro final task queue hleads hready hover
  have hsound : Sound scheduler final (task :: queue) :=
    .of_leads hleads ⟨fun _ => id, fun _ _ => .scheduled⟩
  exact hfits task (hsound.subset List.mem_cons_self) ⟨_, hsound.endsAt_endOf hready, hover⟩

/-- When all tasks that are ready are scheduled, every task that can be placed is, where it can. -/
theorem Progress.of_endsAt (h : Progress start start.taskQueue scheduler queue)
    (hdistinct : start.DistinctIds)
    (hsettled : ∀ task ∈ start.taskQueue, scheduler.Ready task → task ∉ queue) {id : TaskId}
    {time : DateTime} (hends : start.EndsAt id time) :
    ∃ scheduled, scheduler.scheduledTasks.get? id = some scheduled ∧
      scheduled.scheduledEnd = time := by
  induction hends with
  | scheduled hget => exact ⟨_, h.retains _ _ hget, rfl⟩
  | @queued task ends htask _ _ ih =>
    have hready : scheduler.Ready task := fun depId hdep =>
      (ih depId hdep).imp fun _ hget => hget.1
    obtain ⟨scheduled, hget, rfl, hplaced⟩ :=
      h.wellPlaced hdistinct.unscheduled htask (hsettled task htask hready)
    refine ⟨scheduled, hget, ?_⟩
    rw [hplaced.end_eq, startAfter_endOf ih]

theorem not_overruns_of_keepsTasks (hdistinct : scheduler.DistinctIds)
    (hkeeps : KeepsTasks order scheduler) (htask : task ∈ scheduler.taskQueue) :
    ¬ scheduler.Overruns task := by
  rintro ⟨ends, hends, hover⟩
  obtain ⟨final, queue, hleads, hcases⟩ :=
    exists_leads_settled (turn order) scheduler scheduler.taskQueue
  have hprogress := hdistinct.progress hleads
  have hsettled : ∀ other ∈ scheduler.taskQueue, final.Ready other → other ∉ queue := by
    intro other _ hready hmem
    rcases hcases with rfl | ⟨failing, rest, e, rfl, hturn⟩ | hstuck
    · exact List.not_mem_nil hmem
    · obtain ⟨hfailing, hoverruns⟩ := turn_failed.mp ⟨e, hturn⟩
      exact keepsTasks_iff_turns.mp hkeeps final failing rest hleads hfailing hoverruns
    · exact turn_requeued.mp (hstuck.2 other hmem) hready
  have hscheduled := fun depId hdep =>
    hprogress.of_endsAt hdistinct hsettled (hends depId hdep)
  have hready : final.Ready task := fun depId hdep =>
    (hscheduled depId hdep).imp fun _ hget => hget.1
  obtain ⟨scheduled, hget, rfl, hplaced⟩ :=
    hprogress.wellPlaced hdistinct.unscheduled htask (hsettled task htask hready)
  unfold SatelliteTask.OverrunsAfter at hover
  rw [← startAfter_endOf hscheduled] at hover
  exact hplaced.fits hover

/-- A failed call keeps all tasks exactly when no task that is ready overruns its window on its
turn; for tasks with distinct ids, exactly when no task overruns its window after those that it
depends on. -/
theorem keepsTasks_iff (order : TaskOrder) (scheduler : TaskingScheduler) :
    (KeepsTasks order scheduler ↔
      ∀ final task queue, Leads (turn order) scheduler scheduler.taskQueue final (task :: queue) →
        final.Ready task → ¬ task.OverrunsAfter final.endOf) ∧
    (scheduler.DistinctIds → (KeepsTasks order scheduler ↔
      ∀ task ∈ scheduler.taskQueue, ¬ scheduler.Overruns task)) :=
  ⟨keepsTasks_iff_turns, fun hdistinct =>
    ⟨fun hkeeps _ => not_overruns_of_keepsTasks hdistinct hkeeps, keepsTasks_of_not_overruns⟩⟩

/-- A scheduler with a task whose window is too short. -/
def tooShort : TaskingScheduler :=
  TaskingScheduler.new.enqueue (observationTask 1 [] (Duration.seconds 60))

theorem not_keepsTasks_tooShort : ¬ KeepsTasks (.stored _) tooShort := by
  intro hkeeps
  obtain ⟨after, e, herror, hempty⟩ : ∃ after e, schedule (.stored _) 1 tooShort =
      some (after, .error e) ∧ after.heldTasks = [] := ⟨_, _, rfl, rfl⟩
  have hsubperm := hkeeps 1 after e herror
  rw [hempty] at hsubperm
  exact absurd hsubperm.length_le (by decide)

end GroundCore.Oisl.Mission.TaskingScheduler
