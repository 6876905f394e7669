import GroundCore.Optical.Pat.Schedules

/-! Acquisitions that are executed concurrently against the same ones executed in turn.  The
concurrent call leaves out the plans it does not find. -/

namespace GroundCore.Optical.Pat

open Lib FloatOps

variable {F64 F32 : Type} [FloatOps F64 F32]

namespace PatCoordinator

/-- What is spawned for a plan.  The task waits for the start of the plan, and ends at
`establishedAt`. -/
def acquisitionTask (plan : AcquisitionPlan) (clockConfidence : ClockConfidence)
    (establishedAt : DateTime) : Except PatError (AcquisitionResult F64) :=
  if !clockConfidence.isAcceptableForPat then
    .error (.clockSyncFailed ("Clock confidence " ++ toString clockConfidence.uncertaintyNs ++
      "ns not acceptable for PAT"))
  else
    .ok (.success establishedAt
      { pointingErrorUrad := lit 50, signalToNoiseDb := lit 15, lockConfidence := lit 0.95
        dataRateActual := plan.targetDataRate, bitErrorRate := lit 1e-9 })

/-- The call leaves the coordinator as it is.  `establishedAt` gives the time at which each of the
spawned tasks ends. -/
def executeConcurrent (c : PatCoordinator F64) (planIds : List AcquisitionId)
    (confidence : ClockConfidence) (establishedAt : ℕ → DateTime) :
    List (Except PatError (AcquisitionResult F64)) :=
  let plans := planIds.filterMap fun id => (c.findPlan id).toOption
  plans.mapIdx fun i plan => acquisitionTask plan confidence (establishedAt i)

/-- The plans executed one after the other. -/
def executeInTurn (confidence : ClockConfidence) (c : PatCoordinator F64) :
    List (AcquisitionId × DateTime) → List (Except PatError (AcquisitionResult F64))
  | [] => []
  | (planId, establishedAt) :: rest =>
    let (c, result) := c.execute planId confidence establishedAt
    result :: executeInTurn confidence c rest

end PatCoordinator

/-- A result without its times, its metrics and its message. -/
inductive ResultKind
  | success
  | clockSyncFailed
  | notFound (acquisitionId : AcquisitionId)
  deriving DecidableEq

def ResultKind.of : Except PatError (AcquisitionResult F64) → ResultKind
  | .ok (.success ..) => success
  | .error (.clockSyncFailed _) => clockSyncFailed
  | .error (.notFound acquisitionId) => notFound acquisitionId

namespace PatCoordinator

/-- The kind that the acceptance of the clock decides once a plan is found. -/
def clockKind (confidence : ClockConfidence) : ResultKind :=
  if confidence.isAcceptableForPat then .success else .clockSyncFailed

theorem kind_acquisitionTask (plan : AcquisitionPlan) (confidence : ClockConfidence)
    (establishedAt : DateTime) :
    ResultKind.of (acquisitionTask plan confidence establishedAt :
      Except PatError (AcquisitionResult F64)) = clockKind confidence := by
  unfold acquisitionTask clockKind
  cases confidence.isAcceptableForPat <;> rfl

/-- A plan is scheduled under the identifier. -/
def Scheduled (c : PatCoordinator F64) (planId : AcquisitionId) : Prop :=
  ∃ plan ∈ c.acquisitionSchedules.values, plan.planId = planId

instance (c : PatCoordinator F64) (planId : AcquisitionId) : Decidable (c.Scheduled planId) :=
  inferInstanceAs (Decidable (∃ plan ∈ c.acquisitionSchedules.values, plan.planId = planId))

theorem findPlan_of_scheduled {c : PatCoordinator F64} {planId : AcquisitionId}
    (h : c.Scheduled planId) : ∃ plan, c.findPlan planId = .ok plan := by
  obtain ⟨plan, hmem, heq⟩ := h
  unfold findPlan
  cases hfind : c.acquisitionSchedules.values.find? fun p => decide (p.planId = planId) with
  | some found => exact ⟨found, rfl⟩
  | none => exact absurd (decide_eq_true heq) (List.find?_eq_none.mp hfind plan hmem)

theorem findPlan_of_not_scheduled {c : PatCoordinator F64} {planId : AcquisitionId}
    (h : ¬ c.Scheduled planId) : c.findPlan planId = .error (.notFound planId) := by
  unfold findPlan
  cases hfind : c.acquisitionSchedules.values.find? fun p => decide (p.planId = planId) with
  | none => rfl
  | some found =>
    exact absurd ⟨found, List.mem_of_find?_eq_some hfind, by simpa using List.find?_some hfind⟩ h

theorem kind_execute (c : PatCoordinator F64) (planId : AcquisitionId)
    (confidence : ClockConfidence) (establishedAt : DateTime) :
    ResultKind.of (c.execute planId confidence establishedAt).2 =
      if c.Scheduled planId then clockKind confidence else .notFound planId := by
  unfold execute
  by_cases h : c.Scheduled planId
  · rw [if_pos h]
    obtain ⟨plan, hplan⟩ := findPlan_of_scheduled h
    rw [hplan]
    unfold clockKind
    cases confidence.isAcceptableForPat <;> rfl
  · rw [if_neg h, findPlan_of_not_scheduled h]
    rfl

/-- What was executed before makes no difference to the kind of a result. -/
theorem kinds_executeInTurn (confidence : ClockConfidence) (c : PatCoordinator F64)
    (planIds : List (AcquisitionId × DateTime)) :
    (executeInTurn confidence c planIds).map ResultKind.of =
      planIds.map fun id => ResultKind.of (c.execute id.1 confidence id.2).2 := by
  suffices h : ∀ c' : PatCoordinator F64, c'.acquisitionSchedules = c.acquisitionSchedules →
      (executeInTurn confidence c' planIds).map ResultKind.of =
        planIds.map fun id => ResultKind.of (c.execute id.1 confidence id.2).2 from h c rfl
  induction planIds with
  | nil => exact fun _ _ => rfl
  | cons id planIds ih =>
    intro c' hsame
    have hscheduled : c'.Scheduled id.1 ↔ c.Scheduled id.1 := by rw [Scheduled, hsame, Scheduled]
    rw [executeInTurn, List.map_cons, List.map_cons,
      ih _ ((acquisitionSchedules_execute ..).trans hsame), kind_execute, kind_execute]
    simp only [hscheduled]

/-- There is a result for each identifier under which a plan is scheduled, and the clock decides its
kind. -/
theorem kinds_executeConcurrent (c : PatCoordinator F64) (planIds : List AcquisitionId)
    (confidence : ClockConfidence) (establishedAt : ℕ → DateTime) :
    (c.executeConcurrent planIds confidence establishedAt).map ResultKind.of =
      (planIds.filter fun id => decide (c.Scheduled id)).map fun _ => clockKind confidence := by
  have hplans : (planIds.filterMap fun id => (c.findPlan id).toOption).map
        (fun _ => clockKind confidence) =
      (planIds.filter fun id => decide (c.Scheduled id)).map fun _ => clockKind confidence := by
    induction planIds with
    | nil => rfl
    | cons id planIds ih =>
      by_cases h : c.Scheduled id
      · obtain ⟨plan, hplan⟩ := findPlan_of_scheduled h
        rw [List.filterMap_cons_some (b := plan) (by rw [hplan]; rfl),
          List.filter_cons_of_pos (by simpa using h), List.map_cons, List.map_cons, ih]
      · rw [List.filterMap_cons_none (by rw [findPlan_of_not_scheduled h]; rfl),
          List.filter_cons_of_neg (by simpa using h), ih]
  rw [← hplans]
  refine List.ext_getElem? fun i => ?_
  rw [List.getElem?_map, List.getElem?_map, executeConcurrent, List.getElem?_mapIdx,
    Option.map_map]
  simp only [Function.comp_def, kind_acquisitionTask]

/-- The concurrent results agree in number and kind with what executing each plan gives exactly if
a plan is scheduled under every identifier of the list. -/
theorem executeConcurrent_agrees_iff (c : PatCoordinator F64) (planIds : List AcquisitionId)
    (confidence : ClockConfidence) (concurrently alone : ℕ → DateTime) :
    (c.executeConcurrent planIds confidence concurrently).map ResultKind.of =
        planIds.mapIdx (fun i id => ResultKind.of (c.execute id confidence (alone i)).2) ↔
      ∀ id ∈ planIds, c.Scheduled id := by
  rw [kinds_executeConcurrent]
  constructor
  · intro heq
    have hlength := congrArg List.length heq
    rw [List.length_map, List.length_mapIdx] at hlength
    simpa using List.length_filter_eq_length_iff.mp hlength
  · intro hall
    rw [List.filter_eq_self.mpr fun id hid => decide_eq_true (hall id hid)]
    refine List.ext_getElem? fun i => ?_
    rw [List.getElem?_map, List.getElem?_mapIdx]
    cases hget : planIds[i]? with
    | none => rfl
    | some id =>
      rw [Option.map_some, Option.map_some, kind_execute,
        if_pos (hall id (List.mem_of_getElem? hget))]

/-- A plan that is not scheduled has no result, and the result of the one after it stands in its
place. -/
theorem concurrent_drops_unknown :
    letI := FloatOps.exact id id
    let c : PatCoordinator ℚ := (new.schedule ⟨1, 0, 1000⟩).1
    (c.executeConcurrent [2, 1] ⟨100⟩ fun _ => 0).map ResultKind.of = [.success] ∧
    [2, 1].mapIdx (fun _ id => ResultKind.of (c.execute id ⟨100⟩ 0).2) =
      [.notFound 2, .success] := by
  let _ := FloatOps.exact id id
  decide

end PatCoordinator

end GroundCore.Optical.Pat
