import Mathlib.Data.List.Induction
import GroundCore.Lib.Run
import GroundCore.Oisl.Pat.Coordinator
import GroundCore.Optical.Pat.Scheduler

/-! No acquisition is lost as long as no two start at one instant, in either coordinator. -/

namespace GroundCore.Optical.Pat

open Lib FloatOps

variable {F64 F32 : Type} [FloatOps F64 F32]

inductive PlanCall
  | schedule (plan : AcquisitionPlan)
  | execute (planId : AcquisitionId) (confidence : ClockConfidence) (establishedAt : DateTime)

/-- The plan that a call schedules. -/
def PlanCall.plan? : PlanCall → Option AcquisitionPlan
  | schedule plan => some plan
  | execute .. => none

namespace PatCoordinator

def step (c : PatCoordinator F64) : PlanCall → PatCoordinator F64
  | .schedule plan => (c.schedule plan).1
  | .execute planId confidence establishedAt => (c.execute planId confidence establishedAt).1

/-- Every plan is stored under its start, and was scheduled. -/
structure Holds (c : PatCoordinator F64) (plans : List AcquisitionPlan) : Prop where
  keyed : ∀ e ∈ c.acquisitionSchedules.entries, e.1 = e.2.targetT0
  scheduled : ∀ e ∈ c.acquisitionSchedules.entries, e.2 ∈ plans

/-- Execution leaves the schedules as they are. -/
theorem acquisitionSchedules_execute (c : PatCoordinator F64) (planId : AcquisitionId)
    (confidence : ClockConfidence) (establishedAt : DateTime) :
    (c.execute planId confidence establishedAt).1.acquisitionSchedules =
      c.acquisitionSchedules := by
  unfold execute
  cases c.findPlan planId with
  | error e => rfl
  | ok plan => cases confidence.isAcceptableForPat <;> rfl

theorem holds_run (calls : List PlanCall) :
    Holds (run step (new : PatCoordinator F64) calls) (calls.filterMap PlanCall.plan?) := by
  induction calls using List.reverseRecOn with
  | nil => constructor <;> exact fun e he => absurd he List.not_mem_nil
  | append_singleton calls c ih =>
    rw [run_append, List.filterMap_append]
    cases c with
    | schedule plan =>
      constructor
      · intro e he
        rcases BTreeMap.mem_entries_insert.mp he with rfl | ⟨he, -⟩
        · rfl
        · exact ih.keyed e he
      · intro e he
        rcases BTreeMap.mem_entries_insert.mp he with rfl | ⟨he, -⟩
        · exact List.mem_append_right _ List.mem_cons_self
        · exact List.mem_append_left _ (ih.scheduled e he)
    | execute planId confidence establishedAt =>
      have hsame := acquisitionSchedules_execute (run step (new : PatCoordinator F64) calls) planId
        confidence establishedAt
      constructor
      · intro e he
        exact ih.keyed e (hsame ▸ he)
      · intro e he
        exact List.mem_append_left _ (ih.scheduled e (hsame ▸ he))

/-- With one plan for each identifier, a plan is found when it is stored. -/
theorem Holds.findPlan_eq_ok {c : PatCoordinator F64} {plans : List AcquisitionPlan}
    (h : Holds c plans) (hids : plans.Pairwise fun p q => p.planId ≠ q.planId)
    {plan : AcquisitionPlan} (hplan : plan ∈ plans) :
    c.findPlan plan.planId = .ok plan ↔ (plan.targetT0, plan) ∈ c.acquisitionSchedules.entries := by
  have hone : ∀ p ∈ c.acquisitionSchedules.values, p.planId = plan.planId → p = plan := by
    intro p hp heq
    obtain ⟨start, he⟩ := BTreeMap.mem_values.mp hp
    have : Std.Symm fun p q : AcquisitionPlan => p.planId ≠ q.planId := ⟨fun _ _ => Ne.symm⟩
    by_contra hne
    exact hids.forall (h.scheduled _ he) hplan hne heq
  have hstored : (plan.targetT0, plan) ∈ c.acquisitionSchedules.entries ↔
      plan ∈ c.acquisitionSchedules.values := by
    rw [BTreeMap.mem_values]
    constructor
    · exact fun hmem => ⟨_, hmem⟩
    · rintro ⟨start, hmem⟩
      have hstart : start = plan.targetT0 := h.keyed _ hmem
      exact hstart ▸ hmem
  rw [hstored]
  unfold findPlan
  cases hfind : c.acquisitionSchedules.values.find? fun p => decide (p.planId = plan.planId) with
  | none =>
    have hnone := List.find?_eq_none.mp hfind
    exact iff_of_false (by simp) fun hmem => hnone plan hmem (by simp)
  | some found =>
    have hmem := List.mem_of_find?_eq_some hfind
    have hfound : found = plan := hone found hmem (by simpa using List.find?_some hfind)
    exact iff_of_true (by rw [hfound]) (hfound ▸ hmem)

/-- A run stores every plan when no two start at one instant. -/
theorem stored_run {calls : List PlanCall}
    (hstarts : (calls.filterMap PlanCall.plan?).Pairwise fun p q => p.targetT0 ≠ q.targetT0) :
    ∀ plan ∈ calls.filterMap PlanCall.plan?, (plan.targetT0, plan) ∈
      (run step (new : PatCoordinator F64) calls).acquisitionSchedules.entries := by
  induction calls using List.reverseRecOn with
  | nil => exact fun plan hplan => absurd hplan List.not_mem_nil
  | append_singleton calls c ih =>
    rw [List.filterMap_append, List.pairwise_append] at hstarts
    obtain ⟨hbefore, -, hnew⟩ := hstarts
    intro plan hplan
    rw [List.filterMap_append, List.mem_append] at hplan
    rw [run_append]
    cases c with
    | schedule added =>
      rcases hplan with hplan | hplan
      · exact BTreeMap.mem_entries_insert.mpr
          (Or.inr ⟨ih hbefore plan hplan, hnew plan hplan added List.mem_cons_self⟩)
      · obtain rfl := List.mem_singleton.mp hplan
        exact BTreeMap.mem_entries_insert.mpr (Or.inl rfl)
    | execute planId confidence establishedAt =>
      rcases hplan with hplan | hplan
      · show _ ∈ (execute _ planId confidence establishedAt).1.acquisitionSchedules.entries
        rw [acquisitionSchedules_execute]
        exact ih hbefore plan hplan
      · exact absurd hplan List.not_mem_nil

/-- A run finds every plan at all times exactly when no two start at one instant. -/
theorem findPlan_run {calls : List PlanCall}
    (hids : (calls.filterMap PlanCall.plan?).Pairwise fun p q => p.planId ≠ q.planId) :
    (∀ n, ∀ plan ∈ (calls.take n).filterMap PlanCall.plan?,
        (run step (new : PatCoordinator F64) (calls.take n)).findPlan plan.planId = .ok plan) ↔
      (calls.filterMap PlanCall.plan?).Pairwise fun p q => p.targetT0 ≠ q.targetT0 := by
  constructor
  · intro hfound
    have hall := hfound calls.length
    rw [List.take_length] at hall
    have hholds : Holds (run step (new : PatCoordinator F64) calls) _ := holds_run calls
    refine hids.imp_of_mem ?_
    intro p q hp hq hne heq
    have hpstored := (hholds.findPlan_eq_ok hids hp).mp (hall p hp)
    have hqstored := (hholds.findPlan_eq_ok hids hq).mp (hall q hq)
    have hsame : p = q := BTreeMap.value_unique hpstored (heq ▸ hqstored)
    exact hne (congrArg AcquisitionPlan.planId hsame)
  · intro hstarts n plan hplan
    have hsub : List.Sublist ((calls.take n).filterMap PlanCall.plan?)
        (calls.filterMap PlanCall.plan?) := (List.take_sublist n calls).filterMap _
    have hholds : Holds (run step (new : PatCoordinator F64) (calls.take n)) _ :=
      holds_run (calls.take n)
    exact (hholds.findPlan_eq_ok (hids.sublist hsub) hplan).mpr
      (stored_run (hstarts.sublist hsub) plan hplan)

end PatCoordinator

/-! ### Both coordinators -/

open Oisl.Pat (PatSession PatCall ScheduledAcquisition)
open Oisl.Pat.PatSession (NoneLost FreshId FreshStart)

/-- Neither coordinator loses an acquisition at any time exactly when no acquisition starts at the
instant of another that it stores. -/
theorem no_acquisition_lost_iff (fromTimestamp : ℤ → ℕ → Option DateTime) {calls : List PatCall}
    (hids : Along (PatSession.step fromTimestamp) (FreshId fromTimestamp) .new calls)
    {planCalls : List PlanCall}
    (hplans : (planCalls.filterMap PlanCall.plan?).Pairwise fun p q => p.planId ≠ q.planId) :
    ((∀ n, NoneLost fromTimestamp (run (PatSession.step fromTimestamp) .new (calls.take n))) ↔
      Along (PatSession.step fromTimestamp) (FreshStart fromTimestamp) .new calls) ∧
    ((∀ n, ∀ plan ∈ (planCalls.take n).filterMap PlanCall.plan?,
        (run PatCoordinator.step (.new : PatCoordinator F64) (planCalls.take n)).findPlan
          plan.planId = .ok plan) ↔
      (planCalls.filterMap PlanCall.plan?).Pairwise fun p q => p.targetT0 ≠ q.targetT0) :=
  ⟨PatSession.noneLost_run calls hids, PatCoordinator.findPlan_run hplans⟩

/-- Seconds and nanoseconds from the epoch. -/
def timestamp (seconds : ℤ) (nanoseconds : ℕ) : Option DateTime :=
  some (Duration.seconds seconds + nanoseconds)

/-- A pair of terminals is to start at `startsAt`; the clock shows the epoch. -/
def scheduleAt (acquisitionId : AcquisitionId) (startsAt : DateTime) : PatCall :=
  .schedule { acquisitionId, pair := (2, 3), targetT0 := startsAt } { uncertaintyNs := 50 }
    { now := ⟨0, 0⟩, utcNow := 0, observedAt := ⟨0, 0⟩ }

def planAt (planId : AcquisitionId) (startsAt : DateTime) : PlanCall :=
  .schedule { planId, targetT0 := startsAt, targetDataRate := 1000 }

/-- Two acquisitions at different instants, of which the first is cancelled, and two plans. -/
theorem no_acquisition_lost_iff_two :
    letI := FloatOps.exact id id
    (∀ n, NoneLost timestamp (run (PatSession.step timestamp) .new
      ([scheduleAt 1 10, scheduleAt 2 20, .cancel 1 ⟨0, 0⟩ ⟨0, 0⟩ 8 9].take n))) ∧
    ∀ n, ∀ plan ∈ ([planAt 1 10, planAt 2 20].take n).filterMap PlanCall.plan?,
      (run PatCoordinator.step (.new : PatCoordinator ℚ)
        ([planAt 1 10, planAt 2 20].take n)).findPlan plan.planId = .ok plan := by
  let _ := FloatOps.exact id id
  have hids : Along (PatSession.step timestamp) (FreshId timestamp) .new
      [scheduleAt 1 10, scheduleAt 2 20, .cancel 1 ⟨0, 0⟩ ⟨0, 0⟩ 8 9] := by decide
  have hplans : ([planAt 1 10, planAt 2 20].filterMap PlanCall.plan?).Pairwise
      fun p q => p.planId ≠ q.planId := by decide
  have hiffs := @no_acquisition_lost_iff ℚ ℚ (FloatOps.exact id id) timestamp _ hids _ hplans
  exact ⟨hiffs.1.mpr (by decide), hiffs.2.mpr (by decide)⟩

/-- Of two acquisitions, or two plans, for the same instant the first is lost. -/
theorem acquisition_lost :
    letI := FloatOps.exact id id
    Along (PatSession.step timestamp) (FreshId timestamp) .new
      [scheduleAt 1 10, scheduleAt 2 10] ∧
    ¬ NoneLost timestamp
      (run (PatSession.step timestamp) .new [scheduleAt 1 10, scheduleAt 2 10]) ∧
    (run PatCoordinator.step (.new : PatCoordinator ℚ) [planAt 1 10, planAt 2 10]).findPlan 1 =
      .error (.notFound 1) := by
  let _ := FloatOps.exact id id
  refine ⟨by decide, fun hall => ?_, by decide⟩
  have hone := hall ⟨0, 0⟩ 0 { acquisitionId := 1, pair := (2, 3), targetT0 := 10 }
    (by decide) (by decide)
  exact absurd hone (by decide)

end GroundCore.Optical.Pat
