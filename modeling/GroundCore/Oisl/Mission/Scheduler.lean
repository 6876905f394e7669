import GroundCore.Lib.Chain
import GroundCore.Oisl.Mission.Types

/-! The tasking scheduler: a queue of tasks, from which each is placed in its window once the tasks
that it depends on are placed. -/

namespace GroundCore.Oisl.Mission

open Lib

structure ScheduledTask where
  task : SatelliteTask
  scheduledStart : DateTime
  scheduledEnd : DateTime
  dependenciesSatisfied : Bool
  deriving DecidableEq

inductive ConflictType
  | terminalContention (terminalId : TerminalId) (tasks : List TaskId)
  deriving DecidableEq

inductive ResolutionStrategy
  | prioritizeBySLA
  deriving DecidableEq

structure ConflictResolution where
  conflictType : ConflictType
  resolution : ResolutionStrategy
  affectedTasks : List TaskId
  deriving DecidableEq

inductive ScheduleError
  | windowExceeded (taskId : TaskId) (required available : Duration)
  | dependencyNotSatisfied (taskId : TaskId)
  deriving DecidableEq

/-- The time that a scheduler takes for a task. -/
def TaskType.defaultDuration : TaskType → Duration
  | .opticalLinkEstablishment _ => Duration.seconds 30
  | .dataTransfer volume =>
    let bandwidth : ℚ := 1000000000
    Duration.seconds ⌊(volume.count : ℚ) / (bandwidth / 8)⌋
  | .observation _ _ => Duration.seconds (5 * 60)
  | .downlink _ => Duration.seconds (10 * 60)
  | .dataRelay _ _ => Duration.seconds (5 * 60)

structure TaskingScheduler where
  taskQueue : List SatelliteTask
  scheduledTasks : HashMap TaskId ScheduledTask
  resourceConflicts : List ConflictResolution

/-- An order in which the scheduled tasks are looked through. -/
abbrev TaskOrder := IterOrder ScheduledTask

namespace TaskingScheduler

def new : TaskingScheduler := ⟨[], ∅, []⟩

def enqueue (scheduler : TaskingScheduler) (task : SatelliteTask) : TaskingScheduler :=
  { scheduler with taskQueue := scheduler.taskQueue ++ [task] }

def calculateTaskTiming (scheduler : TaskingScheduler) (task : SatelliteTask) :
    Except ScheduleError (DateTime × DateTime) :=
  let window := task.scheduledWindow
  let duration := task.taskType.defaultDuration
  let start :=
    if task.dependencies.isEmpty then window.start
    else
      let ends := (task.dependencies.filterMap scheduler.scheduledTasks.get?).map (·.scheduledEnd)
      max (ends.max?.getD window.start) window.start
  let finish := start + duration
  if window.end < finish then
    .error (.windowExceeded task.taskId duration (window.end - start))
  else .ok (start, finish)

/-- The first scheduled task that links to the same terminal in an overlapping window. -/
def detectConflicts (scheduler : TaskingScheduler) (order : TaskOrder)
    (scheduled : ScheduledTask) : Option ConflictResolution :=
  match scheduled.task.taskType with
  | .opticalLinkEstablishment peerTerminal =>
    let contends (existing : ScheduledTask) : Bool :=
      existing.task.taskType = .opticalLinkEstablishment peerTerminal &&
        scheduled.task.scheduledWindow.overlaps existing.task.scheduledWindow
    ((order.order scheduler.scheduledTasks.values).find? contends).map fun existing =>
      let tasks := [scheduled.task.taskId, existing.task.taskId]
      { conflictType := .terminalContention peerTerminal tasks
        resolution := .prioritizeBySLA
        affectedTasks := tasks }
  | _ => none

def resolveConflict (scheduler : TaskingScheduler) (conflict : ConflictResolution) :
    TaskingScheduler :=
  { scheduler with resourceConflicts := scheduler.resourceConflicts ++ [conflict] }

def scheduleSingleTask (scheduler : TaskingScheduler) (order : TaskOrder) (task : SatelliteTask) :
    TaskingScheduler × Except ScheduleError Unit :=
  let depsSatisfied :=
    task.dependencies.all fun depId => (scheduler.scheduledTasks.get? depId).isSome
  if !depsSatisfied then (scheduler.enqueue task, .ok ())
  else
    match scheduler.calculateTaskTiming task with
    | .error e => (scheduler, .error e)
    | .ok (scheduledStart, scheduledEnd) =>
      let scheduled : ScheduledTask :=
        { task, scheduledStart, scheduledEnd, dependenciesSatisfied := true }
      let scheduler :=
        match scheduler.detectConflicts order scheduled with
        | none => scheduler
        | some conflict => scheduler.resolveConflict conflict
      ({ scheduler with
        scheduledTasks := scheduler.scheduledTasks.insert task.taskId scheduled }, .ok ())

/-- The loop of `schedule`; `none` if it takes more than `fuel` turns. -/
def schedule (order : TaskOrder) :
    ℕ → TaskingScheduler → Option (TaskingScheduler × Except ScheduleError Unit)
  | 0, _ => none
  | fuel + 1, scheduler =>
    match scheduler.taskQueue with
    | [] => some (scheduler, .ok ())
    | task :: taskQueue =>
      match ({ scheduler with taskQueue } : TaskingScheduler).scheduleSingleTask order task with
      | (scheduler, .ok ()) => schedule order fuel scheduler
      | (scheduler, .error e) => some (scheduler, .error e)

end TaskingScheduler

/-! ### Tasks that are placed in the order of the queue -/

/-- The task as it is placed when it starts with its window. -/
def SatelliteTask.atStart (task : SatelliteTask) : ScheduledTask :=
  { task
    scheduledStart := task.scheduledWindow.start
    scheduledEnd := task.scheduledWindow.start + task.taskType.defaultDuration
    dependenciesSatisfied := true }

/-- The window has room for the task from its start on. -/
def SatelliteTask.Fits (task : SatelliteTask) : Prop :=
  task.scheduledWindow.start + task.taskType.defaultDuration ≤ task.scheduledWindow.end

/-- Each dependency of the task is the id of one before it that is related to the task. -/
def SatelliteTask.Resolves (R : SatelliteTask → SatelliteTask → Prop) (done : List SatelliteTask)
    (task : SatelliteTask) : Prop :=
  ∀ depId ∈ task.dependencies, ∃ earlier ∈ done, earlier.taskId = depId ∧ R earlier task

/-- If the earlier task fits its window, it ends before the window of the later one starts. -/
def SatelliteTask.ReadyFor (earlier task : SatelliteTask) : Prop :=
  earlier.Fits → earlier.atStart.scheduledEnd ≤ task.scheduledWindow.start

/-- The dependencies of the task are ready for it. -/
abbrev SatelliteTask.Prompt := Resolves ReadyFor

namespace TaskingScheduler

variable {order : TaskOrder} {scheduler : TaskingScheduler} {done rest : List SatelliteTask}
  {task : SatelliteTask}

/-- All of the tasks are placed at the start of their windows. -/
def Placed (scheduler : TaskingScheduler) (done : List SatelliteTask) : Prop :=
  ∀ task ∈ done, task.Fits ∧ scheduler.scheduledTasks.get? task.taskId = some task.atStart

theorem Placed.start_eq (h : scheduler.Placed done) (hprompt : SatelliteTask.Prompt done task) :
    let ends := (task.dependencies.filterMap scheduler.scheduledTasks.get?).map (·.scheduledEnd)
    max (ends.max?.getD task.scheduledWindow.start) task.scheduledWindow.start =
      task.scheduledWindow.start := by
  intro ends
  have hends : ∀ time ∈ ends, time ≤ task.scheduledWindow.start := by
    intro time htime
    obtain ⟨scheduled, hscheduled, rfl⟩ := List.mem_map.mp htime
    obtain ⟨depId, hdep, hget⟩ := List.mem_filterMap.mp hscheduled
    obtain ⟨earlier, hearlier, rfl, hends⟩ := hprompt depId hdep
    obtain ⟨hfits, hplaced⟩ := h earlier hearlier
    rw [hplaced, Option.some.injEq] at hget
    rw [← hget]
    exact hends hfits
  cases hmax : ends.max? with
  | none => exact max_self _
  | some latest => exact max_eq_right (hends latest (List.max?_mem hmax))

/-- After tasks that are placed, a prompt task starts with its window. -/
theorem Placed.calculateTaskTiming_cases (h : scheduler.Placed done)
    (hprompt : SatelliteTask.Prompt done task) :
    (task.Fits ∧ scheduler.calculateTaskTiming task =
      .ok (task.atStart.scheduledStart, task.atStart.scheduledEnd)) ∨
    (¬ task.Fits ∧ ∃ e, scheduler.calculateTaskTiming task = .error e) := by
  unfold TaskingScheduler.calculateTaskTiming
  dsimp only
  rw [h.start_eq hprompt, ite_self]
  by_cases hfits : task.Fits
  · exact .inl ⟨hfits, if_neg (not_lt.mpr hfits)⟩
  · exact .inr ⟨hfits, _, if_pos (not_le.mp hfits)⟩

/-- After tasks that are placed, a prompt task that fits its window is placed too, and one that does
not ends the scheduling. -/
theorem Placed.scheduleSingleTask_cases (h : scheduler.Placed done) (order : TaskOrder)
    (hprompt : SatelliteTask.Prompt done task)
    (hfresh : ∀ earlier ∈ done, earlier.taskId ≠ task.taskId) :
    (task.Fits ∧ ∃ after, scheduler.scheduleSingleTask order task = (after, .ok ()) ∧
      after.taskQueue = scheduler.taskQueue ∧ after.Placed (done ++ [task])) ∨
    (¬ task.Fits ∧ ∃ e, scheduler.scheduleSingleTask order task = (scheduler, .error e)) := by
  have hdeps : (task.dependencies.all fun depId =>
      (scheduler.scheduledTasks.get? depId).isSome) = true := by
    rw [List.all_eq_true]
    intro depId hdep
    obtain ⟨earlier, hearlier, rfl, -⟩ := hprompt depId hdep
    rw [(h earlier hearlier).2]
    rfl
  unfold scheduleSingleTask
  simp only [hdeps, Bool.not_true, Bool.false_eq_true, if_false]
  rcases h.calculateTaskTiming_cases hprompt with ⟨hfits, htiming⟩ | ⟨hfits, e, htiming⟩ <;>
    rw [htiming]
  · refine .inl ⟨hfits, _, rfl, ?_, ?_⟩
    · split <;> rfl
    · intro task' hmem
      have hget : ∀ tasks : HashMap TaskId ScheduledTask,
          (tasks.insert task.taskId task.atStart).get? task'.taskId =
            if task'.taskId = task.taskId then some task.atStart else tasks.get? task'.taskId :=
        fun tasks => HashMap.get?_insert _ _ _ _
      rcases List.mem_append.mp hmem with hold | hnew
      · refine ⟨(h task' hold).1, (hget _).trans ((if_neg (hfresh task' hold)).trans ?_)⟩
        split <;> exact (h task' hold).2
      · rw [List.mem_singleton.mp hnew]
        exact ⟨hfits, (HashMap.get?_insert _ _ _ _).trans (if_pos rfl)⟩
  · exact .inr ⟨hfits, e, rfl⟩

theorem fresh_of_nodup (hnodup : ((done ++ task :: rest).map (·.taskId)).Nodup) :
    ∀ earlier ∈ done, earlier.taskId ≠ task.taskId := by
  intro earlier hearlier heq
  rw [List.map_append, List.map_cons] at hnodup
  exact List.disjoint_of_nodup_append hnodup (List.mem_map_of_mem hearlier)
    (heq ▸ List.mem_cons_self)

/-- While all tasks fit, the loop places them. -/
theorem Placed.schedule_of_fits (h : scheduler.Placed done) (hqueue : scheduler.taskQueue = rest)
    (hprompt : EachAfter SatelliteTask.Prompt done rest)
    (hnodup : ((done ++ rest).map (·.taskId)).Nodup) (hfits : ∀ task ∈ rest, task.Fits) :
    ∃ after, schedule order (rest.length + 1) scheduler = some (after, .ok ()) ∧
      after.Placed (done ++ rest) := by
  induction rest generalizing scheduler done with
  | nil =>
    refine ⟨scheduler, ?_, by simpa using h⟩
    unfold schedule
    rw [hqueue]
  | cons task rest ih =>
    have hpopped : Placed { scheduler with taskQueue := rest } done := h
    rcases hpopped.scheduleSingleTask_cases order hprompt.1 (fresh_of_nodup hnodup) with
      ⟨-, after, hsingle, hafter, hplaced⟩ | ⟨hnot, -⟩
    · obtain ⟨final, hfinal, hall⟩ := ih hplaced hafter hprompt.2
        (by simpa using hnodup) fun task' hmem => hfits task' (List.mem_cons_of_mem task hmem)
      refine ⟨final, ?_, by simpa using hall⟩
      rw [List.length_cons]
      unfold schedule
      rw [hqueue]
      dsimp only
      rw [hsingle]
      exact hfinal
    · exact absurd (hfits task List.mem_cons_self) hnot

/-- A task that does not fit ends the loop with an error. -/
theorem Placed.fits_of_schedule (h : scheduler.Placed done) (hqueue : scheduler.taskQueue = rest)
    (hprompt : EachAfter SatelliteTask.Prompt done rest)
    (hnodup : ((done ++ rest).map (·.taskId)).Nodup) {fuel : ℕ} {after : TaskingScheduler}
    (hok : schedule order fuel scheduler = some (after, .ok ())) :
    ∀ task ∈ rest, task.Fits := by
  induction rest generalizing scheduler done fuel with
  | nil => exact fun _ hmem => absurd hmem List.not_mem_nil
  | cons task rest ih =>
    cases fuel with
    | zero => contradiction
    | succ fuel =>
      unfold schedule at hok
      rw [hqueue] at hok
      dsimp only at hok
      have hpopped : Placed { scheduler with taskQueue := rest } done := h
      rcases hpopped.scheduleSingleTask_cases order hprompt.1 (fresh_of_nodup hnodup) with
        ⟨hfits, next, hsingle, hnext, hplaced⟩ | ⟨-, e, hsingle⟩
      · rw [hsingle] at hok
        have hrest := ih hplaced hnext hprompt.2 (by simpa using hnodup) hok
        intro task' hmem
        rcases List.mem_cons.mp hmem with rfl | hmem
        · exact hfits
        · exact hrest task' hmem
      · rw [hsingle] at hok
        exact absurd hok (by simp)

end TaskingScheduler

/-- A new scheduler to which the tasks are given in order succeeds and places each in its window. -/
def Schedulable (order : TaskOrder) (tasks : List SatelliteTask) : Prop :=
  ∃ fuel after,
    TaskingScheduler.schedule order fuel (tasks.foldl .enqueue .new) = some (after, .ok ()) ∧
    ∀ task ∈ tasks, ∃ scheduled, after.scheduledTasks.get? task.taskId = some scheduled ∧
      scheduled.task = task ∧ task.scheduledWindow.start ≤ scheduled.scheduledStart ∧
      scheduled.scheduledEnd ≤ task.scheduledWindow.end

/-- Prompt tasks with distinct ids are schedulable exactly when each fits its window. -/
theorem schedulable_iff (order : TaskOrder) {tasks : List SatelliteTask}
    (hprompt : EachAfter SatelliteTask.Prompt [] tasks) (hnodup : (tasks.map (·.taskId)).Nodup) :
    Schedulable order tasks ↔ ∀ task ∈ tasks, task.Fits := by
  have hqueue : ∀ (scheduler : TaskingScheduler),
      (tasks.foldl .enqueue scheduler).taskQueue = scheduler.taskQueue ++ tasks := by
    clear hprompt hnodup
    induction tasks with
    | nil => simp
    | cons task tasks ih =>
      intro scheduler
      rw [List.foldl_cons, ih]
      simp [TaskingScheduler.enqueue]
  have hplaced : (tasks.foldl .enqueue TaskingScheduler.new).Placed [] :=
    fun _ hmem => absurd hmem List.not_mem_nil
  constructor
  · rintro ⟨fuel, after, hok, -⟩
    exact hplaced.fits_of_schedule (hqueue .new) hprompt hnodup hok
  · intro hfits
    obtain ⟨after, hok, hall⟩ := hplaced.schedule_of_fits (hqueue .new) hprompt hnodup hfits
    refine ⟨_, after, hok, fun task hmem => ⟨task.atStart, (hall task hmem).2, rfl, le_rfl, ?_⟩⟩
    exact hfits task hmem

end GroundCore.Oisl.Mission
