import GroundCore.Oisl.Mission.Placement

/-! Which contentions the tasking scheduler records.  A task is compared with those scheduled before
it, and the comparison stops at the first that contends with it. -/

namespace GroundCore.Oisl.Mission

open Lib

/-- Both tasks link to the same terminal, in windows that overlap. -/
def SatelliteTask.Contends (task other : SatelliteTask) : Prop :=
  ∃ peerTerminal, task.taskType = .opticalLinkEstablishment peerTerminal ∧
    other.taskType = .opticalLinkEstablishment peerTerminal ∧
    task.scheduledWindow.overlaps other.scheduledWindow = true

theorem SatelliteTask.Contends.symm {task other : SatelliteTask} (h : task.Contends other) :
    other.Contends task := by
  obtain ⟨peerTerminal, htask, hother, hoverlaps⟩ := h
  refine ⟨peerTerminal, hother, htask, ?_⟩
  rw [TimeWindow.overlaps, Bool.and_comm]
  exact hoverlaps

namespace TaskingScheduler

variable {order : TaskOrder} {scheduler after : TaskingScheduler} {task : SatelliteTask}
  {queue queue' : List SatelliteTask} {fuel : ℕ}

/-- Both tasks appear in one of the recorded resolutions. -/
def Logged (scheduler : TaskingScheduler) (id id' : TaskId) : Prop :=
  ∃ conflict ∈ scheduler.resourceConflicts,
    id ∈ conflict.affectedTasks ∧ id' ∈ conflict.affectedTasks

/-- Every two scheduled tasks that contend are logged. -/
def LogComplete (scheduler : TaskingScheduler) : Prop :=
  scheduler.scheduledTasks.PairwiseValues fun scheduled other =>
    scheduled.task.Contends other.task →
      scheduler.Logged scheduled.task.taskId other.task.taskId

/-- At most one scheduled task contends with the task. -/
def ContendsOnce (scheduler : TaskingScheduler) (task : SatelliteTask) : Prop :=
  ∀ scheduled ∈ scheduler.scheduledTasks.values, ∀ other ∈ scheduler.scheduledTasks.values,
    task.Contends scheduled.task → task.Contends other.task → scheduled = other

/-- The resolutions name scheduled tasks only. -/
def LogScheduled (scheduler : TaskingScheduler) : Prop :=
  ∀ conflict ∈ scheduler.resourceConflicts, ∀ id ∈ conflict.affectedTasks,
    scheduler.scheduledTasks.get? id ≠ none

/-- What is looked up for a task is a scheduled one that contends with it, if there is any. -/
theorem detectConflicts_cases (order : TaskOrder) (scheduler : TaskingScheduler)
    (scheduled : ScheduledTask) :
    (scheduler.detectConflicts order scheduled = none ∧
      ∀ existing ∈ scheduler.scheduledTasks.values,
        ¬ scheduled.task.Contends existing.task) ∨
    ∃ conflict, ∃ existing ∈ scheduler.scheduledTasks.values,
      scheduler.detectConflicts order scheduled = some conflict ∧
      scheduled.task.Contends existing.task ∧
      conflict.affectedTasks = [scheduled.task.taskId, existing.task.taskId] := by
  unfold detectConflicts
  cases htype : scheduled.task.taskType with
  | opticalLinkEstablishment peerTerminal =>
    have hcontends : ∀ existing : ScheduledTask, scheduled.task.Contends existing.task ↔
        existing.task.taskType = .opticalLinkEstablishment peerTerminal ∧
          scheduled.task.scheduledWindow.overlaps existing.task.scheduledWindow = true := by
      intro existing
      simp only [SatelliteTask.Contends, htype, TaskType.opticalLinkEstablishment.injEq,
        exists_eq_left']
    cases hfind : (order.order scheduler.scheduledTasks.values).find? fun existing =>
        existing.task.taskType = .opticalLinkEstablishment peerTerminal &&
          scheduled.task.scheduledWindow.overlaps existing.task.scheduledWindow with
    | none =>
      refine .inl ⟨by simp only [hfind, Option.map_none], fun existing hmem => ?_⟩
      have := List.find?_eq_none.mp hfind existing (order.mem_order.mpr hmem)
      rw [hcontends]
      simpa using this
    | some existing =>
      have hfound := List.find?_some hfind
      refine .inr ⟨_, existing, order.mem_order.mp (List.mem_of_find?_eq_some hfind),
        by simp only [hfind, Option.map_some]; rfl, ?_, rfl⟩
      rw [hcontends]
      simpa using hfound
  | _ =>
    refine .inl ⟨rfl, fun existing _ hcontends => ?_⟩
    obtain ⟨peerTerminal, hpeer, -⟩ := hcontends
    rw [htype] at hpeer
    contradiction

@[simp] theorem resourceConflicts_place (order : TaskOrder) (scheduler : TaskingScheduler)
    (task : SatelliteTask) : (place order scheduler task).resourceConflicts =
      scheduler.resourceConflicts ++
        (scheduler.detectConflicts order (scheduler.timed task)).toList := rfl

theorem logged_place {id id' : TaskId} : (place order scheduler task).Logged id id' ↔
    scheduler.Logged id id' ∨
      ∃ conflict, scheduler.detectConflicts order (scheduler.timed task) = some conflict ∧
        id ∈ conflict.affectedTasks ∧ id' ∈ conflict.affectedTasks := by
  simp only [Logged, resourceConflicts_place, List.mem_append, Option.mem_toList, or_and_right,
    exists_or]

theorem LogScheduled.place (h : scheduler.LogScheduled) (hkeyed : scheduler.Keyed) :
    (place order scheduler task).LogScheduled := by
  intro conflict hmem id hid
  rw [resourceConflicts_place, List.mem_append, Option.mem_toList] at hmem
  apply get?_place_ne_none
  rcases hmem with hold | hnew
  · exact .inr (h conflict hold id hid)
  · rcases detectConflicts_cases order scheduler (scheduler.timed task) with
      ⟨hnone, -⟩ | ⟨found, existing, hexisting, hsome, -, haffected⟩
    · rw [hnone] at hnew
      contradiction
    · rw [hsome, Option.some.injEq] at hnew
      rw [← hnew, haffected, List.mem_pair] at hid
      refine hid.imp_right fun heq => ?_
      obtain ⟨key, hkey⟩ := HashMap.mem_values.mp hexisting
      rw [heq, hkeyed key existing hkey, hkey]
      simp

theorem Keyed.ne_of_unscheduled (h : scheduler.Keyed)
    (hfresh : scheduler.scheduledTasks.get? task.taskId = none) {scheduled : ScheduledTask}
    (hmem : scheduled ∈ scheduler.scheduledTasks.values) :
    scheduled.task.taskId ≠ task.taskId := by
  obtain ⟨id, hget⟩ := HashMap.mem_values.mp hmem
  rw [h id scheduled hget]
  rintro rfl
  rw [hfresh] at hget
  contradiction

theorem Keyed.eq_of_taskId_eq (h : scheduler.Keyed) {scheduled other : ScheduledTask}
    (hmem : scheduled ∈ scheduler.scheduledTasks.values)
    (hother : other ∈ scheduler.scheduledTasks.values)
    (heq : scheduled.task.taskId = other.task.taskId) : scheduled = other := by
  obtain ⟨id, hget⟩ := HashMap.mem_values.mp hmem
  obtain ⟨id', hget'⟩ := HashMap.mem_values.mp hother
  rw [h id scheduled hget, h id' other hget'] at heq
  rw [heq, hget'] at hget
  exact (Option.some.inj hget).symm

/-- The placement of a task adds at most its pair with one scheduled task to the log. -/
theorem exists_new_pair (order : TaskOrder) (scheduler : TaskingScheduler) (task : SatelliteTask) :
    ∃ found : Option ScheduledTask,
      (∀ existing ∈ found, existing ∈ scheduler.scheduledTasks.values ∧
        task.Contends existing.task) ∧
      (found = none → ∀ existing ∈ scheduler.scheduledTasks.values,
        ¬ task.Contends existing.task) ∧
      ∀ id id', (place order scheduler task).Logged id id' ↔ scheduler.Logged id id' ∨
        ∃ existing ∈ found, id ∈ [task.taskId, existing.task.taskId] ∧
          id' ∈ [task.taskId, existing.task.taskId] := by
  rcases detectConflicts_cases order scheduler (scheduler.timed task) with
    ⟨hnone, hall⟩ | ⟨conflict, existing, hmem, hsome, hcontends, haffected⟩
  · refine ⟨none, fun _ h => absurd h (Option.not_mem_none _), fun _ => hall, fun id id' => ?_⟩
    rw [logged_place, hnone]
    simp
  · refine ⟨some existing, ?_, nofun, fun id id' => ?_⟩
    · rintro _ ⟨⟩
      exact ⟨hmem, hcontends⟩
    · rw [logged_place, hsome]
      simp only [Option.some.injEq, exists_eq_left', haffected, Option.mem_some_iff]
      rfl

/-- A log that is complete after a placement was so before it. -/
theorem LogComplete.of_place (hkeyed : scheduler.Keyed)
    (hfresh : scheduler.scheduledTasks.get? task.taskId = none)
    (hcomplete : (place order scheduler task).LogComplete) : scheduler.LogComplete := by
  obtain ⟨found, -, -, hlogged⟩ := exists_new_pair order scheduler task
  have hretains := retains_place order hfresh
  intro id id' scheduled other hne hget hget' hcontends
  have hmem := HashMap.mem_values.mpr ⟨id, hget⟩
  have hmem' := HashMap.mem_values.mpr ⟨id', hget'⟩
  refine ((hlogged _ _).mp (hcomplete id id' scheduled other hne (hretains _ _ hget)
    (hretains _ _ hget') hcontends)).resolve_right ?_
  rintro ⟨existing, -, hid, hid'⟩
  rw [List.mem_pair] at hid hid'
  have heq := hid.resolve_left (hkeyed.ne_of_unscheduled hfresh hmem)
  have heq' := hid'.resolve_left (hkeyed.ne_of_unscheduled hfresh hmem')
  rw [hkeyed id scheduled hget] at heq
  rw [hkeyed id' other hget'] at heq'
  exact hne (heq.trans heq'.symm)

/-- Each task that contends with the one that is placed is the one whose pair with it is logged. -/
theorem LogComplete.contendsOnce (hkeyed : scheduler.Keyed) (hlog : scheduler.LogScheduled)
    (hfresh : scheduler.scheduledTasks.get? task.taskId = none)
    (hcomplete : (place order scheduler task).LogComplete) : scheduler.ContendsOnce task := by
  obtain ⟨found, -, -, hlogged⟩ := exists_new_pair order scheduler task
  have hretains := retains_place order hfresh
  have hpair : ∀ scheduled ∈ scheduler.scheduledTasks.values, task.Contends scheduled.task →
      ∃ existing ∈ found, scheduled.task.taskId = existing.task.taskId := by
    intro scheduled hmem hcontends
    have hne := hkeyed.ne_of_unscheduled hfresh hmem
    obtain ⟨id, hget⟩ := HashMap.mem_values.mp hmem
    have hid := hkeyed id scheduled hget
    have hnew := hcomplete task.taskId id (scheduler.timed task) scheduled
      (by rw [← hid]; exact hne.symm) (by simp) (hretains _ _ hget) hcontends
    rcases (hlogged _ _).mp hnew with ⟨conflict, hconflict, htask, -⟩ |
      ⟨existing, hexisting, -, hmem'⟩
    · exact absurd hfresh (hlog conflict hconflict _ htask)
    · exact ⟨existing, hexisting, (List.mem_pair.mp hmem').resolve_left hne⟩
  intro scheduled hmem other hother hcontends hcontends'
  obtain ⟨existing, hexisting, heq⟩ := hpair scheduled hmem hcontends
  obtain ⟨existing', hexisting', heq'⟩ := hpair other hother hcontends'
  rw [Option.mem_unique hexisting hexisting'] at heq
  exact hkeyed.eq_of_taskId_eq hmem hother (heq.trans heq'.symm)

theorem LogComplete.place (hcomplete : scheduler.LogComplete)
    (honce : scheduler.ContendsOnce task) : (place order scheduler task).LogComplete := by
  obtain ⟨found, hfound, hnone, hlogged⟩ := exists_new_pair order scheduler task
  have hold : scheduler.scheduledTasks.PairwiseValues fun scheduled other =>
      scheduled.task.Contends other.task →
        (TaskingScheduler.place order scheduler task).Logged scheduled.task.taskId
          other.task.taskId :=
    fun id id' scheduled other hne hget hget' hcontends =>
      (hlogged _ _).mpr (.inl (hcomplete id id' scheduled other hne hget hget' hcontends))
  refine (HashMap.PairwiseValues.insert_iff ?_ hold _ _).mpr ?_
  · intro scheduled other himp hcontends
    obtain ⟨conflict, hmem, hid, hid'⟩ := himp hcontends.symm
    exact ⟨conflict, hmem, hid', hid⟩
  · intro id scheduled _ hget hcontends
    have hmem := HashMap.mem_values.mpr ⟨id, hget⟩
    cases hcase : found with
    | none => exact absurd hcontends (hnone hcase scheduled hmem)
    | some existing =>
      obtain ⟨hexisting, hcontends'⟩ := hfound existing hcase
      obtain rfl := honce scheduled hmem existing hexisting hcontends hcontends'
      exact (hlogged _ _).mpr (.inr ⟨scheduled, hcase, List.mem_cons_self, by simp⟩)

/-- The placement of a task keeps the log complete exactly when at most one scheduled task contends
with it. -/
theorem logComplete_place (hkeyed : scheduler.Keyed) (hlog : scheduler.LogScheduled)
    (hfresh : scheduler.scheduledTasks.get? task.taskId = none) :
    (place order scheduler task).LogComplete ↔
      scheduler.LogComplete ∧ scheduler.ContendsOnce task := by
  constructor
  · intro hcomplete
    exact ⟨.of_place hkeyed hfresh hcomplete, hcomplete.contendsOnce hkeyed hlog hfresh⟩
  · rintro ⟨hcomplete, honce⟩
    exact hcomplete.place honce

/-! ### The log of a run -/

theorem Reachable.logScheduled (h : Reachable scheduler) : scheduler.LogScheduled := by
  refine (h.invariant (I := fun scheduler => scheduler.Keyed ∧ scheduler.LogScheduled) ?_
    (fun _ _ => id) ?_).2
  · exact ⟨Reachable.new.keyed, nofun⟩
  · rintro order scheduler task ⟨hkeyed, hlog⟩
    exact ⟨hkeyed.place, hlog.place hkeyed⟩

/-- After a call that succeeds, every two scheduled tasks that contend are logged exactly when they
were before it, and at most one scheduled task contends with each that is ready on its turn. -/
theorem logComplete_iff (hreachable : Reachable scheduler) (hdistinct : scheduler.DistinctIds)
    (hok : schedule order fuel scheduler = some (after, .ok ())) :
    after.LogComplete ↔ scheduler.LogComplete ∧
      ∀ final task queue, Leads (turn order) scheduler scheduler.taskQueue final (task :: queue) →
        final.Ready task → final.ContendsOnce task := by
  obtain ⟨final, hleads, rfl⟩ := schedule_ok_iff.mp ⟨fuel, hok⟩
  refine hleads.keeps_iff (Q := LogComplete)
    (I := fun state queue => Progress scheduler scheduler.taskQueue state queue ∧
      state.Keyed ∧ state.LogScheduled) ?_ ?_
    ⟨.start hdistinct.nodup_queue hdistinct.unscheduled, hreachable.keyed,
      hreachable.logScheduled⟩
  · rintro state task queue hturn ⟨hprogress, hkept⟩
    exact ⟨⟨hprogress.requeue, hkept⟩, fun hready => absurd hready (turn_requeued.mp hturn)⟩
  · rintro state next task queue hturn ⟨hprogress, hkeyed, hlog⟩
    obtain ⟨hready, hfits, rfl⟩ := turn_placed.mp hturn
    refine ⟨⟨hprogress.place hready hfits, hkeyed.place, hlog.place hkeyed⟩, ?_⟩
    rw [logComplete_place hkeyed hlog (hprogress.unscheduled task List.mem_cons_self)]
    exact and_congr_right fun _ => (imp_iff_right hready).symm

/-- A link to a terminal, in a window that all such tasks share. -/
def linkTask (taskId : TaskId) : SatelliteTask :=
  { taskId, satelliteId := "", taskType := .opticalLinkEstablishment 7
    scheduledWindow := ⟨0, Duration.seconds 60⟩, dependencies := [], priority := .medium }

/-- A scheduler with three links that contend. -/
def threeLinks : TaskingScheduler :=
  ((TaskingScheduler.new.enqueue (linkTask 1)).enqueue (linkTask 2)).enqueue (linkTask 3)

theorem logComplete_iff_threeLinks : ∃ after,
    schedule (.stored _) 4 threeLinks = some (after, .ok ()) ∧
    (after.LogComplete ↔ threeLinks.LogComplete ∧
      ∀ final task queue,
        Leads (turn (.stored _)) threeLinks threeLinks.taskQueue final (task :: queue) →
        final.Ready task → final.ContendsOnce task) := by
  obtain ⟨after, hok⟩ : ∃ after, schedule (.stored _) 4 threeLinks = some (after, .ok ()) :=
    ⟨_, rfl⟩
  exact ⟨after, hok, logComplete_iff (.enqueue _ (.enqueue _ (.enqueue _ .new)))
    (by unfold DistinctIds; decide) hok⟩

theorem not_logComplete_threeLinks : threeLinks.DistinctIds ∧ ∃ after,
    schedule (.stored _) 4 threeLinks = some (after, .ok ()) ∧ ¬ after.LogComplete := by
  refine ⟨by unfold DistinctIds; decide, _, rfl, fun hcomplete => ?_⟩
  have hlogged := hcomplete 3 1 _ _ (by decide) rfl rfl ⟨7, rfl, rfl, rfl⟩
  unfold Logged at hlogged
  exact absurd hlogged (by decide)

end TaskingScheduler

end GroundCore.Oisl.Mission
