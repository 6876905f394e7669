import Mathlib.Data.List.Induction
import GroundCore.Optical.Pat.Scheduler

/-! When the queue of acquisitions keeps its discipline.  Nothing is lost, returned twice or
returned after it was cancelled; but the heap pops the last in the order of return instead of the
first, and one slot cannot tell of two acquisitions in progress. -/

namespace GroundCore.Optical.Pat

open Lib

theorem QueueEntry.isLE_compare {e e' : QueueEntry} : (compare e e').isLE ↔ e.Before e' := by
  show (QueueEntry.cmp e e').isLE ↔ _
  unfold QueueEntry.cmp QueueEntry.Before
  cases hpriority : compare e.priority e'.priority with
  | lt =>
    rw [compare_lt_iff_lt] at hpriority
    simp [hpriority]
  | gt =>
    rw [compare_gt_iff_gt] at hpriority
    simp only [Ordering.isLE_gt]
    refine iff_of_false (by simp) ?_
    omega
  | eq =>
    rw [compare_eq_iff_eq] at hpriority
    show (compare e.queuedAt e'.queuedAt).isLE ↔ _
    rw [Std.isLE_compare, hpriority]
    simp

namespace SchedulerSession

variable {s : SchedulerSession}

/-- What the queue gives next. -/
theorem step_scheduleNext (s : SchedulerSession) (pops : PopOrder QueueEntry) (now : DateTime) :
    (s.scheduler.queue = [] ∧ s.step (.scheduleNext pops now) = s) ∨
    ∃ entry rest, s.scheduler.queue.Perm (entry :: rest) ∧
      (∀ e ∈ s.scheduler.queue, e.Before entry) ∧
      s.step (.scheduleNext pops now) =
        { s with
          scheduler :=
            { queue := rest, scheduled := s.scheduler.scheduled ++ [entry.plan]
              inProgress := some entry.plan.planId }
          returned := s.returned ++ [(entry, s.scheduler.queue)]
          outstanding := s.outstanding ++ [entry.plan.planId] } := by
  cases hpop : pops.pop s.scheduler.queue with
  | none =>
    exact Or.inl ⟨PopOrder.pop_eq_none_iff.mp hpop,
      by simp only [step, AcquisitionScheduler.scheduleNext, hpop]⟩
  | some popped =>
    obtain ⟨entry, rest⟩ := popped
    obtain ⟨hperm, hle⟩ := PopOrder.pop_eq_some hpop
    exact Or.inr ⟨entry, rest, hperm, fun e he => QueueEntry.isLE_compare.mp (hle e he),
      by simp only [step, AcquisitionScheduler.scheduleNext, hpop]⟩

/-- Every call accounts for what was queued. -/
theorem Accounted.step (h : Accounted s) (c : SchedulerCall) : Accounted (s.step c) := by
  cases c with
  | enqueue plan priority now =>
    show (s.queued ++ [_]).Perm (s.scheduler.queue ++ [_] ++ s.returned.map Prod.fst ++ s.cancelled)
    refine (List.Perm.append_right _ h).trans ?_
    rw [List.append_assoc, List.append_assoc, List.append_assoc, List.append_assoc]
    refine List.Perm.append_left _ ?_
    rw [← List.append_assoc]
    exact List.perm_append_comm
  | scheduleNext pops now =>
    obtain ⟨-, hsame⟩ | ⟨entry, rest, hperm, -, hstep⟩ := step_scheduleNext s pops now
    · rw [hsame]
      exact h
    · rw [hstep]
      show s.queued.Perm (rest ++ (s.returned ++ [_]).map Prod.fst ++ s.cancelled)
      refine h.trans (List.Perm.append_right _ ?_)
      rw [List.map_append, ← List.append_assoc]
      refine (List.Perm.append_right _ hperm).trans ?_
      exact (List.perm_append_singleton entry (rest ++ s.returned.map Prod.fst)).symm
  | complete acquisitionId =>
    have hqueue : (s.scheduler.complete acquisitionId).queue = s.scheduler.queue := by
      unfold AcquisitionScheduler.complete
      split <;> rfl
    show s.queued.Perm ((s.scheduler.complete acquisitionId).queue ++ _ ++ _)
    rw [hqueue]
    exact h
  | cancel pops acquisitionId =>
    show s.queued.Perm ((pops.drain s.scheduler.queue).filter _ ++ s.returned.map Prod.fst ++
      (s.cancelled ++ s.scheduler.queue.filter _))
    have hparts : (s.scheduler.queue.filter fun e => decide (e.plan.planId ≠ acquisitionId)) ++
        (s.scheduler.queue.filter fun e => decide (e.plan.planId = acquisitionId)) |>.Perm
          s.scheduler.queue := by
      have hnot := List.filter_append_perm
        (fun e : QueueEntry => decide (e.plan.planId ≠ acquisitionId)) s.scheduler.queue
      simpa using hnot
    have hdrain := (PopOrder.drain_perm pops s.scheduler.queue).filter
      fun e => decide (e.plan.planId ≠ acquisitionId)
    refine h.trans ?_
    refine (List.Perm.append_right _ (List.Perm.append_right _
      (hparts.symm.trans (List.Perm.append_right _ hdrain.symm)))).trans ?_
    simp only [List.append_assoc]
    refine List.Perm.append_left _ ?_
    rw [← List.append_assoc (s.returned.map Prod.fst)]
    exact List.perm_append_comm

/-- The slot names a returned plan that is not completed. -/
def Slot (s : SchedulerSession) : Prop :=
  ∀ id, s.scheduler.inProgress = some id → id ∈ s.outstanding

theorem Slot.step (h : Slot s) (c : SchedulerCall) : Slot (s.step c) := by
  cases c with
  | enqueue plan priority now => exact h
  | scheduleNext pops now =>
    obtain ⟨-, hsame⟩ | ⟨entry, rest, -, -, hstep⟩ := step_scheduleNext s pops now
    · rw [hsame]
      exact h
    · rw [hstep]
      intro id hid
      obtain rfl := Option.some.inj hid
      exact List.mem_append_right _ List.mem_cons_self
  | complete acquisitionId =>
    intro id hid
    have hslotted : (s.scheduler.complete acquisitionId).inProgress = some id := hid
    unfold AcquisitionScheduler.complete at hslotted
    split at hslotted
    · exact absurd hslotted (by simp)
    · next hother =>
      refine List.mem_filter.mpr ⟨h id hslotted, decide_eq_true ?_⟩
      rintro rfl
      exact hother hslotted
  | cancel pops acquisitionId => exact h

/-- The order of return and the slot, as far as one call can break them. -/
structure Disciplined (s : SchedulerSession) : Prop where
  inOrder : InOrder s
  tracked : Tracked s

/-- The greatest entry may be returned exactly when it ranks as every other. -/
theorem disciplined_scheduleNext (h : Disciplined s) (pops : PopOrder QueueEntry)
    (now : DateTime) :
    Disciplined (s.step (.scheduleNext pops now)) ↔ Admissible s (.scheduleNext pops now) := by
  obtain ⟨hempty, hsame⟩ | ⟨entry, rest, hperm, hlast, hstep⟩ := step_scheduleNext s pops now
  · rw [hsame]
    refine iff_of_true h ?_
    intro e he
    rw [hempty] at he
    exact absurd he List.not_mem_nil
  · rw [hstep]
    have hentry : entry ∈ s.scheduler.queue := hperm.mem_iff.mpr List.mem_cons_self
    constructor
    · intro hafter
      have hsame : ∀ e ∈ s.scheduler.queue,
          e.priority = entry.priority ∧ e.queuedAt = entry.queuedAt := by
        intro e he
        have hfirst : entry.Before e := hafter.inOrder (entry, s.scheduler.queue)
          (List.mem_append_right _ List.mem_cons_self) e he
        have hlast := hlast e he
        unfold QueueEntry.Before DateTime at *
        omega
      intro e he e' he'
      rw [(hsame e he).1, (hsame e he).2, (hsame e' he').1, (hsame e' he').2]
      exact ⟨rfl, rfl⟩
    · intro hranks
      refine ⟨?_, iff_of_true rfl (by simp)⟩
      intro r hr e he
      rcases List.mem_append.mp hr with hr | hr
      · exact h.inOrder r hr e he
      · obtain rfl := List.mem_singleton.mp hr
        obtain ⟨hpriority, hqueuedAt⟩ := hranks entry hentry e he
        exact Or.inr ⟨hpriority, hqueuedAt.le⟩

/-- The slot may be emptied exactly when no other returned plan is outstanding. -/
theorem tracked_complete (hslot : Slot s) (h : Tracked s) (acquisitionId : AcquisitionId) :
    Tracked (s.step (.complete acquisitionId)) ↔ Admissible s (.complete acquisitionId) := by
  show ((s.scheduler.complete acquisitionId).isInProgress = true ↔
    (s.outstanding.filter fun id => decide (id ≠ acquisitionId)) ≠ []) ↔
    (s.scheduler.inProgress = some acquisitionId → ∀ id ∈ s.outstanding, id = acquisitionId)
  unfold AcquisitionScheduler.complete
  by_cases hslotted : s.scheduler.inProgress = some acquisitionId
  · simp [hslotted, AcquisitionScheduler.isInProgress, List.filter_eq_nil_iff]
  · rw [if_neg hslotted]
    refine iff_of_true ?_ fun heq => absurd heq hslotted
    cases hprogress : s.scheduler.inProgress with
    | none =>
      have hnone : s.outstanding = [] := by
        by_contra hne
        have := h.mpr hne
        simp [AcquisitionScheduler.isInProgress, hprogress] at this
      simp [AcquisitionScheduler.isInProgress, hprogress, hnone]
    | some id =>
      have hne : id ≠ acquisitionId := by
        rintro rfl
        exact hslotted hprogress
      refine iff_of_true (by simp [AcquisitionScheduler.isInProgress, hprogress]) ?_
      exact List.ne_nil_of_mem (List.mem_filter.mpr ⟨hslot id hprogress, decide_eq_true hne⟩)

/-- One call keeps the discipline exactly when it is admissible. -/
theorem disciplined_step (hslot : Slot s) (h : Disciplined s) (c : SchedulerCall) :
    Disciplined (s.step c) ↔ Admissible s c := by
  cases c with
  | enqueue plan priority now => exact iff_of_true ⟨h.inOrder, h.tracked⟩ trivial
  | scheduleNext pops now => exact disciplined_scheduleNext h pops now
  | complete acquisitionId =>
    have horder : InOrder (s.step (.complete acquisitionId)) := h.inOrder
    rw [← tracked_complete hslot h.tracked]
    exact ⟨Disciplined.tracked, fun htracked => ⟨horder, htracked⟩⟩
  | cancel pops acquisitionId => exact iff_of_true ⟨h.inOrder, h.tracked⟩ trivial

/-- The entries that a run has queued have the plans of its calls. -/
theorem queued_run (calls : List SchedulerCall) :
    (run step new calls).queued.map QueueEntry.plan = calls.filterMap SchedulerCall.plan? := by
  induction calls using List.reverseRecOn with
  | nil => rfl
  | append_singleton calls c ih =>
    rw [run_append, List.filterMap_append, ← ih]
    cases c with
    | enqueue plan priority now => exact List.map_append
    | scheduleNext pops now => exact (List.append_nil _).symm
    | complete acquisitionId => exact (List.append_nil _).symm
    | cancel pops acquisitionId => exact (List.append_nil _).symm

theorem accounted_run (calls : List SchedulerCall) : Accounted (run step new calls) := by
  have hnew : Accounted new := List.Perm.refl _
  exact run_preserves (I := Accounted) (fun _ c h => Accounted.step h c) hnew calls

/-- A run keeps the order of return and the slot right throughout exactly when every call is
admissible.  In any case each plan that was queued is queued still, or was returned, or was
cancelled, and only one of these, once. -/
theorem queue_discipline_iff {calls : List SchedulerCall}
    (hids : ((calls.filterMap SchedulerCall.plan?).map AcquisitionPlan.planId).Nodup) :
    ((∀ n, Disciplined (run step new (calls.take n))) ↔ Along step Admissible new calls) ∧
    ∀ n, Accounted (run step new (calls.take n)) ∧
      (((run step new (calls.take n)).scheduler.queue ++
        (run step new (calls.take n)).returned.map Prod.fst ++
        (run step new (calls.take n)).cancelled).map fun e => e.plan.planId).Nodup := by
  constructor
  · exact along_iff_invariant_of_along (I := Disciplined) (J := Slot) (P := fun _ _ => True)
      (fun _ c h _ => h.step c) (fun _ c hslot _ h => disciplined_step hslot h c)
      (fun _ hid => absurd hid (by simp [new, AcquisitionScheduler.new]))
      ⟨fun _ hr => absurd hr List.not_mem_nil, iff_of_false (by decide) (by decide)⟩
      (along_of_forall fun _ _ => trivial)
  · intro n
    have haccounted := accounted_run (calls.take n)
    have hqueued : (((run step new (calls.take n)).queued).map fun e => e.plan.planId).Nodup := by
      have hplans := congrArg (List.map AcquisitionPlan.planId) (queued_run (calls.take n))
      rw [List.map_map] at hplans
      show (((run step new (calls.take n)).queued).map
        (AcquisitionPlan.planId ∘ QueueEntry.plan)).Nodup
      rw [hplans]
      exact hids.sublist (((List.take_sublist n calls).filterMap _).map _)
    exact ⟨haccounted, (haccounted.map _).nodup_iff.mp hqueued⟩

end SchedulerSession

/-! ### Two plans -/

theorem QueueEntry.cmp_eq : QueueEntry.cmp =
    compareLex (compareOn QueueEntry.priority) (compareOn QueueEntry.queuedAt) := by
  funext e e'
  unfold QueueEntry.cmp compareLex compareOn
  cases compare e.priority e'.priority <;> rfl

instance : Std.TransOrd QueueEntry := by
  show Std.TransCmp QueueEntry.cmp
  rw [QueueEntry.cmp_eq]
  infer_instance

def urgent : AcquisitionPlan := { planId := 1, targetT0 := 10, targetDataRate := 1000 }

def routine : AcquisitionPlan := { planId := 2, targetT0 := 20, targetDataRate := 1000 }

open SchedulerSession

/-- With one plan at a time the discipline is kept. -/
theorem queue_discipline_iff_one_by_one :
    Disciplined (run step new [.enqueue urgent 1 0, .scheduleNext PopOrder.scan 1,
      .complete 1, .enqueue routine 2 2, .scheduleNext PopOrder.scan 3]) := by
  have hids : ((([.enqueue urgent 1 0, .scheduleNext PopOrder.scan 1, .complete 1,
      .enqueue routine 2 2, .scheduleNext PopOrder.scan 3] : List SchedulerCall).filterMap
      SchedulerCall.plan?).map AcquisitionPlan.planId).Nodup := by decide
  refine (queue_discipline_iff hids).1.mpr ⟨trivial, ?_, ?_, trivial, ?_, trivial⟩ 5
  · show ∀ e ∈ [_], ∀ e' ∈ [_], _
    simp
  · show _ → ∀ id ∈ [1], id = 1
    simp
  · show ∀ e ∈ [_], ∀ e' ∈ [_], _
    simp

/-- The plan with the higher number is returned first, and with two plans returned the completion of
one ends the progress of both. -/
theorem queue_undisciplined :
    ¬ InOrder (run step new
      [.enqueue urgent 1 0, .enqueue routine 2 0, .scheduleNext PopOrder.scan 1]) ∧
    ¬ Tracked (run step new [.enqueue urgent 1 0, .scheduleNext PopOrder.scan 1,
      .enqueue routine 2 2, .scheduleNext PopOrder.scan 3, .complete 2]) := by
  constructor
  · intro horder
    have hbefore := horder (⟨routine, 2, 0⟩, [⟨urgent, 1, 0⟩, ⟨routine, 2, 0⟩]) (by decide)
      ⟨urgent, 1, 0⟩ (by decide)
    simp [QueueEntry.Before] at hbefore
  · intro htracked
    exact absurd (htracked.mpr (by decide)) (by decide)

end GroundCore.Optical.Pat
