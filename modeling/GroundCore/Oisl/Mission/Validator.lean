import GroundCore.Oisl.Mission.Types

/-! The validator of plans: five passes, each of which collects warnings.  Only what exceeds the
validity of the plan, and links of terminals that the forecast does not have, are errors. -/

namespace GroundCore.Oisl.Mission

open Lib Oisl.Topology

variable {F64 : Type}

/-- The texts that the warnings quote, and the orders in which the counts of the terminals and the
windows of the satellites are looked through. -/
structure ValidationContext where
  debugTime : DateTime → String
  debugRegion : GeoRegion → String
  terminals : IterOrder (TerminalId × ℕ)
  satellites : IterOrder (SatelliteId × List TimeWindow)

structure ValidationReport where
  isValid : Bool
  warnings : List ValidationWarning

structure PlanValidator (F64 : Type) where
  constellation : ConstellationState F64
  topology : TopologyForecast

namespace PlanValidator

variable (validator : PlanValidator F64) (ctx : ValidationContext) (plan : TaskingPlan)

def isRestrictedRegion (_validator : PlanValidator F64) (_target : GeoRegion) : Bool := false

def validateRegulatoryCompliance : List ValidationWarning :=
  plan.satelliteTasks.filterMap fun task =>
    match task.taskType with
    | .observation target _ =>
      if validator.isRestrictedRegion target then
        some
          { warningType := .regulatoryConcern
            message :=
              s!"Observation target may be in restricted region: {ctx.debugRegion target}"
            severity := .error }
      else none
    | _ => none

def validateSlaCompliance : List ValidationWarning :=
  let planEnd :=
    (plan.satelliteTasks.map (·.scheduledWindow.end)).max?.getD plan.validUntil
  if plan.validUntil < planEnd then
    [{ warningType := .timingMargin
       message :=
        s!"Plan extends beyond valid_until: {ctx.debugTime planEnd} > {ctx.debugTime plan.validUntil}"
       severity := .error }]
  else []

/-- How often each terminal is reserved. -/
def terminalUsage : HashMap TerminalId ℕ :=
  let count (usage : HashMap TerminalId ℕ) (terminal : TerminalId) :=
    usage.insert terminal ((usage.get? terminal).getD 0 + 1)
  plan.linkReservations.foldl (fun usage reservation =>
    count (count usage reservation.terminalA) reservation.terminalB) ∅

def validateResourceAvailability : List ValidationWarning :=
  (ctx.terminals.order (terminalUsage plan).entries).filterMap fun (terminal, count) =>
    if 1 < count then
      some
        { warningType := .resourceContention
          message := s!"Terminal {terminal.hyphenated} used {count} times concurrently"
          severity := .warning }
    else none

/-- The nodes of the forecast are looked up under the text of a terminal's id. -/
def validateTopologyConsistency : List ValidationWarning :=
  plan.linkReservations.filterMap fun reservation =>
    let snapshot := validator.topology.queryAt reservation.timeWindow.start
    let terminalAExists := snapshot.nodes.contains reservation.terminalA.hyphenated
    let terminalBExists := snapshot.nodes.contains reservation.terminalB.hyphenated
    if !terminalAExists || !terminalBExists then
      some
        { warningType := .lowConfidenceRoute
          message := "Link reservation references terminal not in topology"
          severity := .error }
    else none

/-- The windows of the tasks of each satellite. -/
def satelliteTimings : HashMap SatelliteId (List TimeWindow) :=
  plan.satelliteTasks.foldl (fun timings task =>
    timings.insert task.satelliteId
      ((timings.get? task.satelliteId).getD [] ++ [task.scheduledWindow])) ∅

def validateTimingConstraints : List ValidationWarning :=
  (ctx.satellites.order (satelliteTimings plan).entries).flatMap fun (satellite, windows) =>
    windows.tails.flatMap fun
      | [] => []
      | w1 :: later => later.filterMap fun w2 =>
        if w1.overlaps w2 then
          some
            { warningType := .resourceContention
              message := s!"Satellite {satellite} has overlapping task windows"
              severity := .warning }
        else none

def validate : ValidationReport :=
  let warnings := validator.validateRegulatoryCompliance ctx plan ++
    validateSlaCompliance ctx plan ++ validateResourceAvailability ctx plan ++
    validator.validateTopologyConsistency plan ++ validateTimingConstraints ctx plan
  { isValid := !warnings.any fun w => decide (w.severity = .error)
    warnings }

end PlanValidator

/-! ### Valid plans -/

/-- None of the warnings is an error. -/
def NoErrors (warnings : List ValidationWarning) : Prop :=
  ∀ warning ∈ warnings, warning.severity ≠ .error

@[simp] theorem noErrors_append {first second : List ValidationWarning} :
    NoErrors (first ++ second) ↔ NoErrors first ∧ NoErrors second :=
  List.forall_mem_append

/-- The text of the terminal's id is a node of the forecast at the time. -/
def KnownAt (topology : TopologyForecast) (t : DateTime) (terminal : TerminalId) : Prop :=
  terminal.hyphenated ∈ (topology.queryAt t).nodes

instance (topology : TopologyForecast) (t : DateTime) (terminal : TerminalId) :
    Decidable (KnownAt topology t terminal) :=
  inferInstanceAs (Decidable (_ ∈ _))

/-- The tasks end in time, and both terminals of each link are known when it starts. -/
structure Valid (topology : TopologyForecast) (validUntil : DateTime)
    (tasks : List SatelliteTask) (reservations : List LinkReservation) : Prop where
  inTime : ∀ task ∈ tasks, task.scheduledWindow.end ≤ validUntil
  known : ∀ reservation ∈ reservations,
    KnownAt topology reservation.timeWindow.start reservation.terminalA ∧
      KnownAt topology reservation.timeWindow.start reservation.terminalB

namespace PlanValidator

variable {validator : PlanValidator F64} {ctx : ValidationContext} {plan : TaskingPlan}

theorem noErrors_regulatoryCompliance :
    NoErrors (validator.validateRegulatoryCompliance ctx plan) := by
  intro warning hwarning
  obtain ⟨task, -, hsome⟩ := List.mem_filterMap.mp hwarning
  -- no region is restricted
  split at hsome <;> contradiction

theorem noErrors_slaCompliance_iff : NoErrors (validateSlaCompliance ctx plan) ↔
    ∀ task ∈ plan.satelliteTasks, task.scheduledWindow.end ≤ plan.validUntil := by
  have hend : (plan.satelliteTasks.map (·.scheduledWindow.end)).max?.getD plan.validUntil ≤
      plan.validUntil ↔
      ∀ task ∈ plan.satelliteTasks, task.scheduledWindow.end ≤ plan.validUntil := by
    cases hmax : (plan.satelliteTasks.map (·.scheduledWindow.end)).max? with
    | none =>
      rw [List.max?_eq_none_iff, List.map_eq_nil_iff] at hmax
      simp [hmax]
    | some latest =>
      rw [Option.getD_some, List.max?_le_iff hmax, List.forall_mem_map]
  rw [← hend]
  simp only [validateSlaCompliance]
  split
  · next hlate => simp [NoErrors, not_le.mpr hlate]
  · next hin => simp [NoErrors, not_lt.mp hin]

theorem noErrors_resourceAvailability : NoErrors (validateResourceAvailability ctx plan) := by
  intro warning hwarning
  obtain ⟨⟨terminal, count⟩, -, hsome⟩ := List.mem_filterMap.mp hwarning
  dsimp only at hsome
  split at hsome
  · rw [← Option.some.inj hsome]
    exact ValidationSeverity.noConfusion
  · contradiction

theorem noErrors_topologyConsistency_iff :
    NoErrors (validator.validateTopologyConsistency plan) ↔
      ∀ reservation ∈ plan.linkReservations,
        KnownAt validator.topology reservation.timeWindow.start reservation.terminalA ∧
          KnownAt validator.topology reservation.timeWindow.start reservation.terminalB := by
  simp only [NoErrors, validateTopologyConsistency, List.mem_filterMap]
  constructor
  · intro h reservation hreservation
    by_contra hunknown
    refine h _ ⟨reservation, hreservation, if_pos ?_⟩ rfl
    simpa [KnownAt, or_iff_not_imp_left] using hunknown
  · rintro h warning ⟨reservation, hreservation, hsome⟩
    have hknown := h reservation hreservation
    simp [KnownAt] at hknown
    simp [hknown] at hsome

theorem noErrors_timingConstraints : NoErrors (validateTimingConstraints ctx plan) := by
  intro warning hwarning
  obtain ⟨⟨satellite, windows⟩, -, hwarning⟩ := List.mem_flatMap.mp hwarning
  obtain ⟨tail, -, hwarning⟩ := List.mem_flatMap.mp hwarning
  cases tail with
  | nil => contradiction
  | cons w1 later =>
    obtain ⟨w2, -, hsome⟩ := List.mem_filterMap.mp hwarning
    split at hsome
    · rw [← Option.some.inj hsome]
      exact ValidationSeverity.noConfusion
    · contradiction

/-- Of the five passes, the second and the fourth decide. -/
theorem isValid_iff : (validator.validate ctx plan).isValid ↔
    Valid validator.topology plan.validUntil plan.satelliteTasks plan.linkReservations := by
  have hno : (validator.validate ctx plan).isValid ↔
      NoErrors (validator.validate ctx plan).warnings := by
    simp only [validate, NoErrors, Bool.not_eq_true', List.any_eq_false, decide_eq_true_eq, ne_eq]
  rw [hno]
  simp only [validate, noErrors_append, noErrors_regulatoryCompliance,
    noErrors_slaCompliance_iff, noErrors_resourceAvailability, noErrors_topologyConsistency_iff,
    noErrors_timingConstraints, true_and, and_true]
  exact ⟨fun ⟨hin, hknown⟩ => ⟨hin, hknown⟩, fun ⟨hin, hknown⟩ => ⟨hin, hknown⟩⟩

end PlanValidator

end GroundCore.Oisl.Mission
