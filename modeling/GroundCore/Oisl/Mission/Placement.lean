import GroundCore.Lib.WorkQueue
import GroundCore.Oisl.Mission.Scheduler

/-! Where the scheduler places the tasks of a queue in any order.  Its loop works off the queue: a
task waits at the end of the queue until its dependencies are scheduled, and starts at the latest
of their ends and of its window's start. -/

namespace GroundCore.Oisl.Mission

open Lib

/-- The start of a task whose dependencies end at `ends`. -/
def SatelliteTask.startAfter (task : SatelliteTask) (ends : TaskId → DateTime) : DateTime :=
  (task.dependencies.map ends).foldl max task.scheduledWindow.start

/-- A task whose dependencies end at `ends` does not end within its window. -/
def SatelliteTask.OverrunsAfter (task : SatelliteTask) (ends : TaskId → DateTime) : Prop :=
  task.scheduledWindow.end < task.startAfter ends + task.taskType.defaultDuration

instance (task : SatelliteTask) (ends : TaskId → DateTime) : Decidable (task.OverrunsAfter ends) :=
  inferInstanceAs (Decidable (_ < _))

section Start

variable {task : SatelliteTask} {ends ends' : TaskId → DateTime}

theorem startAfter_congr (h : ∀ depId ∈ task.dependencies, ends depId = ends' depId) :
    task.startAfter ends = task.startAfter ends' := by
  unfold SatelliteTask.startAfter
  rw [List.map_congr_left h]

theorem le_foldl_max {times : List DateTime} {first time : DateTime}
    (h : time ≤ first ∨ time ∈ times) : time ≤ times.foldl max first := by
  induction times generalizing first with
  | nil => simpa using h
  | cons next times ih =>
    apply ih
    rw [List.mem_cons] at h
    rcases h with h | rfl | h
    · exact .inl (h.trans (le_max_left _ _))
    · exact .inl (le_max_right _ _)
    · exact .inr h

theorem start_le_startAfter (task : SatelliteTask) (ends : TaskId → DateTime) :
    task.scheduledWindow.start ≤ task.startAfter ends :=
  le_foldl_max (.inl le_rfl)

theorem le_startAfter {depId : TaskId} (h : depId ∈ task.dependencies) :
    ends depId ≤ task.startAfter ends :=
  le_foldl_max (.inr (List.mem_map_of_mem h))

end Start

namespace TaskingScheduler

variable {order : TaskOrder} {scheduler after : TaskingScheduler} {task : SatelliteTask}
  {queue queue' : List SatelliteTask} {fuel : ℕ}

/-- The end of the task that is scheduled under an id. -/
def endOf (scheduler : TaskingScheduler) (id : TaskId) : DateTime :=
  ((scheduler.scheduledTasks.get? id).map (·.scheduledEnd)).getD 0

theorem endOf_of_get? {id : TaskId} {scheduled : ScheduledTask}
    (h : scheduler.scheduledTasks.get? id = some scheduled) :
    scheduler.endOf id = scheduled.scheduledEnd := by
  rw [endOf, h]
  rfl

/-- The dependencies of the task are scheduled. -/
def Ready (scheduler : TaskingScheduler) (task : SatelliteTask) : Prop :=
  ∀ depId ∈ task.dependencies, ∃ scheduled, scheduler.scheduledTasks.get? depId = some scheduled

instance (scheduler : TaskingScheduler) (task : SatelliteTask) :
    Decidable (scheduler.Ready task) :=
  decidable_of_iff (∀ depId ∈ task.dependencies, (scheduler.scheduledTasks.get? depId).isSome)
    (by simp [Ready, Option.isSome_iff_exists])

/-- The task as it is scheduled when it is ready. -/
def timed (scheduler : TaskingScheduler) (task : SatelliteTask) : ScheduledTask :=
  { task
    scheduledStart := task.startAfter scheduler.endOf
    scheduledEnd := task.startAfter scheduler.endOf + task.taskType.defaultDuration
    dependenciesSatisfied := true }

def place (order : TaskOrder) (scheduler : TaskingScheduler) (task : SatelliteTask) :
    TaskingScheduler :=
  { scheduler with
    scheduledTasks := scheduler.scheduledTasks.insert task.taskId (scheduler.timed task)
    resourceConflicts := scheduler.resourceConflicts ++
      (scheduler.detectConflicts order (scheduler.timed task)).toList }

/-- The turn of a task.  The queue of the scheduler plays no part in it. -/
def turn (order : TaskOrder) (scheduler : TaskingScheduler) (task : SatelliteTask) :
    Turn TaskingScheduler ScheduleError :=
  if scheduler.Ready task then
    if task.OverrunsAfter scheduler.endOf then
      .failed (.windowExceeded task.taskId task.taskType.defaultDuration
        (task.scheduledWindow.end - task.startAfter scheduler.endOf))
    else .placed (place order scheduler task)
  else .requeued

theorem foldl_max_comm {times : List DateTime} (first second : DateTime) :
    times.foldl max (max first second) = max (times.foldl max first) second := by
  induction times generalizing first with
  | nil => rfl
  | cons time times ih => rw [List.foldl_cons, List.foldl_cons, max_right_comm, ih]

/-- The start of a task whose dependencies are scheduled. -/
theorem Ready.start_eq (h : scheduler.Ready task) :
    (if task.dependencies.isEmpty then task.scheduledWindow.start
      else max ((((task.dependencies.filterMap scheduler.scheduledTasks.get?).map
        (·.scheduledEnd)).max?).getD task.scheduledWindow.start) task.scheduledWindow.start) =
      task.startAfter scheduler.endOf := by
  have hends : (task.dependencies.filterMap scheduler.scheduledTasks.get?).map (·.scheduledEnd) =
      task.dependencies.map scheduler.endOf := by
    rw [List.map_filterMap, ← List.filterMap_eq_map]
    refine List.filterMap_congr fun depId hdep => ?_
    obtain ⟨scheduled, hget⟩ := h depId hdep
    rw [hget, Function.comp_apply, endOf_of_get? hget, Option.map_some]
  rw [hends, SatelliteTask.startAfter]
  cases hdeps : task.dependencies with
  | nil => rfl
  | cons first rest =>
    rw [List.map_cons, List.max?_cons', List.foldl_cons, List.isEmpty_cons, if_neg (by simp),
      Option.getD_some, max_comm task.scheduledWindow.start, foldl_max_comm]

theorem Ready.calculateTaskTiming_eq (h : scheduler.Ready task) :
    scheduler.calculateTaskTiming task =
      if task.OverrunsAfter scheduler.endOf then
        .error (.windowExceeded task.taskId task.taskType.defaultDuration
          (task.scheduledWindow.end - task.startAfter scheduler.endOf))
      else .ok ((scheduler.timed task).scheduledStart, (scheduler.timed task).scheduledEnd) := by
  unfold calculateTaskTiming
  dsimp only
  rw [h.start_eq]
  rfl

theorem scheduleSingleTask_eq (order : TaskOrder) (scheduler : TaskingScheduler)
    (task : SatelliteTask) : scheduler.scheduleSingleTask order task =
      match turn order scheduler task with
      | .requeued => (scheduler.enqueue task, .ok ())
      | .placed after => (after, .ok ())
      | .failed e => (scheduler, .error e) := by
  have hall : (task.dependencies.all fun depId =>
      (scheduler.scheduledTasks.get? depId).isSome) = decide (scheduler.Ready task) := by
    rw [Bool.eq_iff_iff, List.all_eq_true, decide_eq_true_iff]
    simp [Ready, Option.isSome_iff_exists]
  unfold scheduleSingleTask turn
  simp only [hall]
  by_cases hready : scheduler.Ready task
  · simp only [hready, decide_true, Bool.not_true, Bool.false_eq_true, if_false, if_true,
      hready.calculateTaskTiming_eq]
    by_cases hover : task.OverrunsAfter scheduler.endOf
    · simp only [hover, if_true]
    · have htimed : (⟨task, (scheduler.timed task).scheduledStart,
          (scheduler.timed task).scheduledEnd, true⟩ : ScheduledTask) = scheduler.timed task := rfl
      simp only [hover, if_false, htimed, place]
      cases scheduler.detectConflicts order (scheduler.timed task) with
      | none => simp
      | some conflict => rfl
  · simp [hready]

/-- The loop of the scheduler is the working off of its queue. -/
theorem schedule_eq_drain (order : TaskOrder) (fuel : ℕ) (scheduler : TaskingScheduler)
    (queue : List SatelliteTask) :
    schedule order fuel { scheduler with taskQueue := queue } =
      (drain (turn order) fuel scheduler queue).map fun result =>
        ({ result.1 with taskQueue := result.2.1 }, result.2.2) := by
  induction fuel generalizing scheduler queue with
  | zero => rfl
  | succ fuel ih =>
    cases queue with
    | nil => rfl
    | cons task queue =>
      rw [drain, schedule]
      dsimp only
      rw [scheduleSingleTask_eq]
      have hturn : turn order { scheduler with taskQueue := queue } task =
          match turn order scheduler task with
          | .requeued => .requeued
          | .placed after => .placed { after with taskQueue := queue }
          | .failed e => .failed e := by
        unfold turn
        by_cases hready : scheduler.Ready task
        · by_cases hover : task.OverrunsAfter scheduler.endOf
          · rw [if_pos hready, if_pos hover]
            exact (if_pos hready).trans (if_pos hover)
          · rw [if_pos hready, if_neg hover]
            exact (if_pos hready).trans (if_neg hover)
        · rw [if_neg hready]
          exact if_neg hready
      rw [hturn]
      cases turn order scheduler task with
      | requeued => exact ih scheduler (queue ++ [task])
      | placed after => exact ih after queue
      | failed e => rfl

theorem schedule_eq_some_iff {result : Except ScheduleError Unit} :
    schedule order fuel scheduler = some (after, result) ↔
      ∃ final queue, drain (turn order) fuel scheduler scheduler.taskQueue =
        some (final, queue, result) ∧ after = { final with taskQueue := queue } := by
  rw [(schedule_eq_drain order fuel scheduler scheduler.taskQueue :
    schedule order fuel scheduler = _), Option.map_eq_some_iff]
  constructor
  · rintro ⟨⟨final, queue, result⟩, hdrain, heq⟩
    obtain ⟨rfl, rfl⟩ := Prod.mk.inj heq
    exact ⟨final, queue, hdrain, rfl⟩
  · rintro ⟨final, queue, hdrain, rfl⟩
    exact ⟨_, hdrain, rfl⟩

theorem schedule_ok_iff : (∃ fuel, schedule order fuel scheduler = some (after, .ok ())) ↔
    ∃ final, Leads (turn order) scheduler scheduler.taskQueue final [] ∧
      after = { final with taskQueue := [] } := by
  constructor
  · rintro ⟨fuel, hok⟩
    obtain ⟨final, queue, hdrain, rfl⟩ := schedule_eq_some_iff.mp hok
    rcases drain_cases hdrain with ⟨-, rfl, hleads⟩ | ⟨task, e, herror, -⟩
    · exact ⟨final, hleads, rfl⟩
    · contradiction
  · rintro ⟨final, hleads, rfl⟩
    obtain ⟨fuel, hdrain⟩ := hleads.drain_ok
    exact ⟨fuel, schedule_eq_some_iff.mpr ⟨final, [], hdrain, rfl⟩⟩

theorem schedule_error_iff {e : ScheduleError} :
    (∃ fuel, schedule order fuel scheduler = some (after, .error e)) ↔
      ∃ final task queue, Leads (turn order) scheduler scheduler.taskQueue final (task :: queue) ∧
        turn order final task = .failed e ∧ after = { final with taskQueue := queue } := by
  constructor
  · rintro ⟨fuel, herror⟩
    obtain ⟨final, queue, hdrain, rfl⟩ := schedule_eq_some_iff.mp herror
    rcases drain_cases hdrain with ⟨hok, -⟩ | ⟨task, e', he, hleads, hturn⟩
    · contradiction
    · obtain rfl := Except.error.inj he
      exact ⟨final, task, queue, hleads, hturn, rfl⟩
  · rintro ⟨final, task, queue, hleads, hturn, rfl⟩
    obtain ⟨fuel, hdrain⟩ := hleads.drain_error hturn
    exact ⟨fuel, schedule_eq_some_iff.mpr ⟨final, queue, hdrain, rfl⟩⟩

/-- Every call that ends comes to a state by turns that do not fail. -/
theorem exists_leads_of_schedule {result : Except ScheduleError Unit}
    (h : schedule order fuel scheduler = some (after, result)) :
    ∃ final queue queue', Leads (turn order) scheduler scheduler.taskQueue final queue ∧
      after = { final with taskQueue := queue' } := by
  obtain ⟨final, queue', hdrain, rfl⟩ := schedule_eq_some_iff.mp h
  rcases drain_cases hdrain with ⟨-, -, hleads⟩ | ⟨task, -, -, hleads, -⟩
  · exact ⟨final, _, queue', hleads, rfl⟩
  · exact ⟨final, _, queue', hleads, rfl⟩

theorem turn_requeued : turn order scheduler task = .requeued ↔ ¬ scheduler.Ready task := by
  unfold turn
  split
  · next hready => split <;> simp [hready]
  · next hready => simp [hready]

theorem turn_placed : turn order scheduler task = .placed after ↔
    scheduler.Ready task ∧ ¬ task.OverrunsAfter scheduler.endOf ∧
      after = place order scheduler task := by
  unfold turn
  split
  · next hready =>
    split
    · next hover => simp [hover]
    · next hover => simp [hready, hover, eq_comm]
  · next hready => simp [hready]

theorem turn_failed : (∃ e, turn order scheduler task = .failed e) ↔
    scheduler.Ready task ∧ task.OverrunsAfter scheduler.endOf := by
  unfold turn
  split
  · next hready =>
    split
    · next hover => simp [hready, hover]
    · next hover => simp [hover]
  · next hready => simp [hready]

@[simp] theorem scheduledTasks_place (order : TaskOrder) (scheduler : TaskingScheduler)
    (task : SatelliteTask) : (place order scheduler task).scheduledTasks =
      scheduler.scheduledTasks.insert task.taskId (scheduler.timed task) := rfl

theorem get?_place_ne_none {id : TaskId}
    (h : id = task.taskId ∨ scheduler.scheduledTasks.get? id ≠ none) :
    (place order scheduler task).scheduledTasks.get? id ≠ none := by
  rw [scheduledTasks_place, HashMap.get?_insert]
  split
  · simp
  · next hne => exact h.resolve_left hne

/-! ### What stays scheduled -/

/-- What is scheduled in the first stays scheduled in the second. -/
def Retains (scheduler after : TaskingScheduler) : Prop :=
  ∀ id scheduled, scheduler.scheduledTasks.get? id = some scheduled →
    after.scheduledTasks.get? id = some scheduled

theorem Retains.refl (scheduler : TaskingScheduler) : Retains scheduler scheduler :=
  fun _ _ h => h

theorem Retains.trans {final : TaskingScheduler} (h : Retains scheduler after)
    (h' : Retains after final) : Retains scheduler final :=
  fun id scheduled hget => h' id scheduled (h id scheduled hget)

theorem Retains.ready (h : Retains scheduler after) (hready : scheduler.Ready task) :
    after.Ready task := fun depId hdep =>
  (hready depId hdep).imp fun scheduled hget => h depId scheduled hget

/-- Where the dependencies are scheduled, their ends are those that the scheduler knows. -/
theorem startAfter_endOf {ends : TaskId → DateTime}
    (h : ∀ depId ∈ task.dependencies, ∃ scheduled,
      scheduler.scheduledTasks.get? depId = some scheduled ∧ scheduled.scheduledEnd = ends depId) :
    task.startAfter scheduler.endOf = task.startAfter ends :=
  startAfter_congr fun depId hdep => by
    obtain ⟨scheduled, hget, hend⟩ := h depId hdep
    rw [endOf_of_get? hget, hend]

theorem Retains.endOf_eq (h : Retains scheduler after) (hready : scheduler.Ready task) :
    ∀ depId ∈ task.dependencies, after.endOf depId = scheduler.endOf depId := by
  intro depId hdep
  obtain ⟨scheduled, hget⟩ := hready depId hdep
  rw [endOf, endOf, hget, h depId scheduled hget]

theorem retains_place (order : TaskOrder)
    (hfresh : scheduler.scheduledTasks.get? task.taskId = none) :
    Retains scheduler (place order scheduler task) := by
  intro id scheduled hget
  rw [scheduledTasks_place, HashMap.get?_insert, if_neg]
  · exact hget
  · rintro rfl
    rw [hfresh] at hget
    contradiction

/-- A task that is scheduled within its window, at the latest of the ends of its dependencies and
of the window's start. -/
structure WellPlaced (scheduler : TaskingScheduler) (scheduled : ScheduledTask) : Prop where
  ready : scheduler.Ready scheduled.task
  start_eq : scheduled.scheduledStart = scheduled.task.startAfter scheduler.endOf
  end_eq : scheduled.scheduledEnd =
    scheduled.task.startAfter scheduler.endOf + scheduled.task.taskType.defaultDuration
  fits : ¬ scheduled.task.OverrunsAfter scheduler.endOf

theorem WellPlaced.mono {scheduled : ScheduledTask} (hplaced : scheduler.WellPlaced scheduled)
    (h : Retains scheduler after) : after.WellPlaced scheduled := by
  have hstart : scheduled.task.startAfter after.endOf =
      scheduled.task.startAfter scheduler.endOf := startAfter_congr (h.endOf_eq hplaced.ready)
  refine ⟨h.ready hplaced.ready, ?_, ?_, ?_⟩
  · rw [hstart]
    exact hplaced.start_eq
  · rw [hstart]
    exact hplaced.end_eq
  · unfold SatelliteTask.OverrunsAfter
    rw [hstart]
    exact hplaced.fits

theorem WellPlaced.fits_window {scheduled : ScheduledTask}
    (h : scheduler.WellPlaced scheduled) :
    scheduled.task.scheduledWindow.start ≤ scheduled.scheduledStart ∧
      scheduled.scheduledEnd ≤ scheduled.task.scheduledWindow.end := by
  rw [h.start_eq, h.end_eq]
  exact ⟨start_le_startAfter _ _, not_lt.mp h.fits⟩

theorem WellPlaced.dependency_le {scheduled : ScheduledTask} (h : scheduler.WellPlaced scheduled)
    {depId : TaskId} (hdep : depId ∈ scheduled.task.dependencies) :
    ∃ dependency, scheduler.scheduledTasks.get? depId = some dependency ∧
      dependency.scheduledEnd ≤ scheduled.scheduledStart := by
  obtain ⟨dependency, hget⟩ := h.ready depId hdep
  refine ⟨dependency, hget, ?_⟩
  rw [h.start_eq, ← endOf_of_get? hget]
  exact le_startAfter hdep

/-! ### The invariant of the loop -/

/-- What the loop has come to, from a queue of tasks with distinct ids that are not scheduled. -/
structure Progress (start : TaskingScheduler) (tasks : List SatelliteTask)
    (scheduler : TaskingScheduler) (queue : List SatelliteTask) : Prop where
  distinct : (queue.map (·.taskId)).Nodup
  unscheduled : ∀ task ∈ queue, scheduler.scheduledTasks.get? task.taskId = none
  retains : Retains start scheduler
  accounted : ∀ task ∈ tasks, task ∈ queue ∨
    ∃ scheduled, scheduler.scheduledTasks.get? task.taskId = some scheduled ∧ scheduled.task = task
  subset : queue ⊆ tasks
  placed : ∀ id scheduled, scheduler.scheduledTasks.get? id = some scheduled →
    start.scheduledTasks.get? id = some scheduled ∨
      scheduled.task ∈ tasks ∧ scheduled.task.taskId = id ∧ scheduler.WellPlaced scheduled

theorem Progress.start (hdistinct : (queue.map (·.taskId)).Nodup)
    (hfresh : ∀ task ∈ queue, scheduler.scheduledTasks.get? task.taskId = none) :
    Progress scheduler queue scheduler queue :=
  ⟨hdistinct, hfresh, .refl scheduler, fun _ => .inl, fun _ => id, fun _ _ => .inl⟩

variable {start : TaskingScheduler} {tasks : List SatelliteTask}

theorem Progress.requeue (h : Progress start tasks scheduler (task :: queue)) :
    Progress start tasks scheduler (queue ++ [task]) := by
  have hperm : (queue ++ [task]).Perm (task :: queue) := List.perm_append_singleton task queue
  exact
    { distinct := ((hperm.map _).nodup_iff).mpr h.distinct
      unscheduled := fun task' hmem => h.unscheduled task' (hperm.mem_iff.mp hmem)
      retains := h.retains
      accounted := fun task' hmem => (h.accounted task' hmem).imp_left hperm.mem_iff.mpr
      subset := fun _ hmem => h.subset (hperm.mem_iff.mp hmem)
      placed := h.placed }

theorem Progress.place (h : Progress start tasks scheduler (task :: queue))
    (hready : scheduler.Ready task) (hfits : ¬ task.OverrunsAfter scheduler.endOf) :
    Progress start tasks (place order scheduler task) queue := by
  have hdistinct := List.nodup_cons.mp h.distinct
  have hfresh := h.unscheduled task List.mem_cons_self
  have hretains := retains_place order hfresh
  have hget : ∀ id, (TaskingScheduler.place order scheduler task).scheduledTasks.get? id =
      if id = task.taskId then some (scheduler.timed task)
      else scheduler.scheduledTasks.get? id := fun id => HashMap.get?_insert _ _ _ _
  refine ⟨hdistinct.2, fun task' hmem => ?_, h.retains.trans hretains, fun task' hmem => ?_,
    fun _ hmem => h.subset (List.mem_cons_of_mem _ hmem), fun id scheduled hscheduled => ?_⟩
  · rw [hget, if_neg]
    · exact h.unscheduled task' (List.mem_cons_of_mem _ hmem)
    · exact fun heq => hdistinct.1 (List.mem_map.mpr ⟨task', hmem, heq⟩)
  · rcases h.accounted task' hmem with hqueue | ⟨scheduled, hscheduled, htask⟩
    · rcases List.mem_cons.mp hqueue with rfl | hqueue
      · exact .inr ⟨_, (hget _).trans (if_pos rfl), rfl⟩
      · exact .inl hqueue
    · exact .inr ⟨scheduled, hretains _ _ hscheduled, htask⟩
  · rw [hget] at hscheduled
    split at hscheduled
    · next heq =>
      obtain rfl := Option.some.inj hscheduled
      have hplaced : scheduler.WellPlaced (scheduler.timed task) := ⟨hready, rfl, rfl, hfits⟩
      exact .inr ⟨h.subset List.mem_cons_self, heq.symm, hplaced.mono hretains⟩
    · exact (h.placed id scheduled hscheduled).imp_right fun ⟨hmem, hid, hplaced⟩ =>
        ⟨hmem, hid, hplaced.mono hretains⟩

theorem Progress.of_leads {final : TaskingScheduler}
    (hleads : Leads (turn order) scheduler queue final queue')
    (h : Progress start tasks scheduler queue) : Progress start tasks final queue' := by
  refine hleads.invariant (fun _ _ _ _ => Progress.requeue) ?_ h
  intro scheduler after task queue hturn h
  obtain ⟨hready, hfits, rfl⟩ := turn_placed.mp hturn
  exact h.place hready hfits

/-- A task of the queue that is no longer in it is scheduled as it should be. -/
theorem Progress.wellPlaced (h : Progress start tasks scheduler queue)
    (hfresh : ∀ task ∈ tasks, start.scheduledTasks.get? task.taskId = none)
    (htask : task ∈ tasks) (hqueue : task ∉ queue) :
    ∃ scheduled, scheduler.scheduledTasks.get? task.taskId = some scheduled ∧
      scheduled.task = task ∧ scheduler.WellPlaced scheduled := by
  obtain ⟨scheduled, hget, rfl⟩ := (h.accounted task htask).resolve_left hqueue
  rcases h.placed _ _ hget with hold | ⟨-, -, hplaced⟩
  · rw [hfresh _ htask] at hold
    contradiction
  · exact ⟨scheduled, hget, rfl, hplaced⟩

/-! ### Schedulers in use -/

/-- A scheduler after calls of `enqueue` and `schedule`, whatever `schedule` returned. -/
inductive Reachable : TaskingScheduler → Prop
  | new : Reachable .new
  | enqueue {scheduler : TaskingScheduler} (task : SatelliteTask) (h : Reachable scheduler) :
      Reachable (scheduler.enqueue task)
  | schedule {scheduler after : TaskingScheduler} {order : TaskOrder} {fuel : ℕ}
      {result : Except ScheduleError Unit} (h : Reachable scheduler)
      (hresult : TaskingScheduler.schedule order fuel scheduler = some (after, result)) :
      Reachable after

/-- Every task is scheduled under its id. -/
def Keyed (scheduler : TaskingScheduler) : Prop :=
  ∀ id scheduled, scheduler.scheduledTasks.get? id = some scheduled → scheduled.task.taskId = id

theorem Keyed.place (h : scheduler.Keyed) : (place order scheduler task).Keyed := by
  intro id scheduled hget
  rw [scheduledTasks_place, HashMap.get?_insert] at hget
  split at hget
  · next heq => rw [heq, ← Option.some.inj hget]; rfl
  · exact h id scheduled hget

/-- What holds of a new scheduler, does not look at the queue, and is kept by every placement, holds
of every scheduler in use. -/
theorem Reachable.invariant {I : TaskingScheduler → Prop} (h : Reachable scheduler)
    (hnew : I .new)
    (hqueue : ∀ scheduler queue, I scheduler → I { scheduler with taskQueue := queue })
    (hplace : ∀ order scheduler task, I scheduler → I (place order scheduler task)) :
    I scheduler := by
  induction h with
  | new => exact hnew
  | enqueue _ _ ih => exact hqueue _ _ ih
  | schedule _ hresult ih =>
    obtain ⟨final, queue, queue', hleads, rfl⟩ := exists_leads_of_schedule hresult
    refine hqueue final queue' (hleads.invariant (I := fun scheduler _ => I scheduler)
      (fun _ _ _ _ => id) ?_ ih)
    intro scheduler after task queue hturn h
    obtain ⟨-, -, rfl⟩ := turn_placed.mp hturn
    exact hplace _ scheduler task h

theorem Reachable.keyed (h : Reachable scheduler) : scheduler.Keyed :=
  h.invariant (fun id scheduled hget => by simp [TaskingScheduler.new] at hget) (fun _ _ => id)
    fun _ _ _ => Keyed.place

/-- A task is scheduled once. -/
theorem Keyed.filter_eq (h : scheduler.Keyed) {scheduled : ScheduledTask}
    (hget : scheduler.scheduledTasks.get? scheduled.task.taskId = some scheduled) :
    scheduler.scheduledTasks.values.filter (·.task = scheduled.task) = [scheduled] := by
  have hnodup : (scheduler.scheduledTasks.values).Nodup := by
    have hkeys : scheduler.scheduledTasks.values.map (·.task.taskId) =
        scheduler.scheduledTasks.keys := by
      rw [HashMap.values, HashMap.keys, List.map_map]
      exact List.map_congr_left fun entry hentry => h _ _ (HashMap.mem_entries.mp hentry)
    exact List.Nodup.of_map _ (hkeys ▸ HashMap.nodup_keys _)
  have hmem : scheduled ∈ scheduler.scheduledTasks.values := HashMap.mem_values.mpr ⟨_, hget⟩
  have hsame : ∀ other ∈ scheduler.scheduledTasks.values,
      decide (other.task = scheduled.task) = decide (other = scheduled) := by
    intro other hother
    obtain ⟨id, hid⟩ := HashMap.mem_values.mp hother
    refine decide_eq_decide.mpr ⟨fun heq => ?_, fun heq => heq ▸ rfl⟩
    have hkey := h id other hid
    rw [heq] at hkey
    rw [← hkey, hget] at hid
    exact (Option.some.inj hid).symm
  rw [List.filter_congr hsame, List.filter_eq, List.count_eq_one_of_mem hnodup hmem]
  rfl

/-- The tasks of the queue and those that are scheduled have distinct ids. -/
def DistinctIds (scheduler : TaskingScheduler) : Prop :=
  (scheduler.taskQueue.map (·.taskId) ++ scheduler.scheduledTasks.keys).Nodup

theorem DistinctIds.nodup_queue (h : scheduler.DistinctIds) :
    (scheduler.taskQueue.map (·.taskId)).Nodup :=
  (List.nodup_append.mp h).1

theorem DistinctIds.unscheduled (h : scheduler.DistinctIds) :
    ∀ task ∈ scheduler.taskQueue, scheduler.scheduledTasks.get? task.taskId = none := by
  intro task hmem
  rw [← Option.not_isSome_iff_eq_none, Option.isSome_iff_exists, ← HashMap.mem_keys]
  exact fun hkey => (List.nodup_append.mp h).2.2 _ (List.mem_map_of_mem hmem) _ hkey rfl

theorem DistinctIds.progress (h : scheduler.DistinctIds) {final : TaskingScheduler}
    (hleads : Leads (turn order) scheduler scheduler.taskQueue final queue) :
    Progress scheduler scheduler.taskQueue final queue :=
  .of_leads hleads (.start h.nodup_queue h.unscheduled)

/-- When the tasks have distinct ids and the call succeeds, every task of the queue is scheduled
once, within its window and no earlier than the ends of its dependencies. -/
theorem placed_of_schedule_ok (hreachable : Reachable scheduler)
    (hdistinct : scheduler.DistinctIds)
    (hok : schedule order fuel scheduler = some (after, .ok ())) :
    ∀ task ∈ scheduler.taskQueue, ∃ scheduled,
      after.scheduledTasks.get? task.taskId = some scheduled ∧
      after.scheduledTasks.values.filter (·.task = task) = [scheduled] ∧
      task.scheduledWindow.start ≤ scheduled.scheduledStart ∧
      scheduled.scheduledEnd ≤ task.scheduledWindow.end ∧
      ∀ depId ∈ task.dependencies, ∃ dependency,
        after.scheduledTasks.get? depId = some dependency ∧
        dependency.scheduledEnd ≤ scheduled.scheduledStart := by
  have hkeyed := (hreachable.schedule hok).keyed
  obtain ⟨final, hleads, rfl⟩ := schedule_ok_iff.mp ⟨fuel, hok⟩
  have hprogress := hdistinct.progress hleads
  intro task hmem
  obtain ⟨scheduled, hget, rfl, hplaced⟩ :=
    hprogress.wellPlaced hdistinct.unscheduled hmem List.not_mem_nil
  exact ⟨scheduled, hget, hkeyed.filter_eq hget, hplaced.fits_window.1, hplaced.fits_window.2,
    fun _ => hplaced.dependency_le⟩

/-- An observation, which takes five minutes, with a window of the given length. -/
def observationTask (taskId : TaskId) (dependencies : List TaskId) (length : Duration) :
    SatelliteTask :=
  { taskId, satelliteId := "", taskType := .observation ⟨""⟩ .optical
    scheduledWindow := ⟨0, length⟩, dependencies, priority := .medium }

/-- A scheduler with a task that comes before the one that it depends on. -/
def outOfOrder : TaskingScheduler :=
  (TaskingScheduler.new.enqueue (observationTask 1 [2] (Duration.seconds 600))).enqueue
    (observationTask 2 [] (Duration.seconds 600))

theorem placed_of_schedule_ok_outOfOrder : ∃ after,
    schedule (.stored _) 4 outOfOrder = some (after, .ok ()) ∧
    ∀ task ∈ outOfOrder.taskQueue, ∃ scheduled,
      after.scheduledTasks.get? task.taskId = some scheduled ∧
      after.scheduledTasks.values.filter (·.task = task) = [scheduled] ∧
      task.scheduledWindow.start ≤ scheduled.scheduledStart ∧
      scheduled.scheduledEnd ≤ task.scheduledWindow.end ∧
      ∀ depId ∈ task.dependencies, ∃ dependency,
        after.scheduledTasks.get? depId = some dependency ∧
        dependency.scheduledEnd ≤ scheduled.scheduledStart := by
  obtain ⟨after, hok⟩ : ∃ after, schedule (.stored _) 4 outOfOrder = some (after, .ok ()) :=
    ⟨_, rfl⟩
  exact ⟨after, hok, placed_of_schedule_ok (.enqueue _ (.enqueue _ .new))
    (by unfold DistinctIds; decide) hok⟩

end TaskingScheduler

end GroundCore.Oisl.Mission
