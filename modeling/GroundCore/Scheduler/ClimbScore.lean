import Mathlib.Tactic.Linarith
import GroundCore.Scheduler.Conflicts
import GroundCore.Scheduler.Incremental

/-! The score of the incremental optimization.  The hill climb scores the tail of the schedule
alone, and there a move can change nothing but the number of conflicts: what it takes from a pass
among those to come, it may give back among the committed ones, where it is not counted. -/

namespace GroundCore.Scheduler

open Lib FloatOps

variable {F64 F32 : Type}

namespace ScheduledPass

def clashes (p q : ScheduledPass F64) : Bool :=
  p.sharesDevice q && windowsOverlap p.scheduledWindow q.scheduledWindow

/-- The pass is reported in conflict with itself. -/
def clashesWithItself (p : ScheduledPass F64) : Bool :=
  !p.namesDevicesOnce && windowsOverlap p.scheduledWindow p.scheduledWindow

/-- The conflicts of a pass, those with other passes and the one with itself. -/
def conflictsAmong (p : ScheduledPass F64) (others : List (ScheduledPass F64)) : ℕ :=
  others.countP p.clashes + if p.clashesWithItself then 1 else 0

theorem clashes_comm (p q : ScheduledPass F64) : p.clashes q = q.clashes p := by
  rw [clashes, clashes, Schedule.windowsOverlap_comm, Bool.eq_iff_iff, Bool.and_eq_true,
    Bool.and_eq_true, sharesDevice_iff, sharesDevice_iff]
  simp only [and_comm]

/-- What the score counts of a pass besides its conflicts. -/
def quality [FloatOps F64 F32] (p : ScheduledPass F64) : ℕ × Option F64 :=
  (p.durationSeconds, keyholeTerm p)

end ScheduledPass

/-- The number of conflicts between the passes of a list. -/
def conflictCount (passes : List (ScheduledPass F64)) : ℕ :=
  (pairs passes).countP (fun e => e.1.clashes e.2) + passes.countP (·.clashesWithItself)

section Count

variable {passes passes' : List (ScheduledPass F64)}

theorem length_filterMap_if {α β : Type} (l : List α) (p q : α → Bool) (f : α → β) :
    ((l.filter p).filterMap fun a => if q a then some (f a) else none).length =
      l.countP fun a => p a && q a := by
  induction l with
  | nil => rfl
  | cons a l ih =>
    rw [List.filter_cons, List.countP_cons]
    cases hp : p a <;> cases hq : q a <;> simp [hq, ih]

theorem Schedule.length_checkConflicts_eq (s : Schedule F64) (ord : IterOrder (List ℕ)) :
    (s.checkConflicts ord).length = conflictCount s.passes := by
  rw [(s.checkConflicts_perm ord).length_eq, List.length_append]
  exact congrArg₂ (· + ·) (length_filterMap_if _ _ _ _) (length_filterMap_if _ _ _ _)

theorem conflictCount_cons (p : ScheduledPass F64) (passes : List (ScheduledPass F64)) :
    conflictCount (p :: passes) = p.conflictsAmong passes + conflictCount passes := by
  have hcross : (passes.map fun q => (p, q)).countP (fun e => e.1.clashes e.2) =
      passes.countP p.clashes := List.countP_map ..
  rw [conflictCount, conflictCount, ScheduledPass.conflictsAmong, pairs, List.countP_append, hcross,
    List.countP_cons]
  omega

/-- The number of conflicts does not depend on the order of the passes. -/
theorem conflictCount_perm (h : passes.Perm passes') :
    conflictCount passes = conflictCount passes' := by
  induction h with
  | nil => rfl
  | cons p h ih =>
    rw [conflictCount_cons, conflictCount_cons, ih, ScheduledPass.conflictsAmong,
      ScheduledPass.conflictsAmong, h.countP_eq]
  | swap p q passes =>
    simp only [conflictCount_cons, ScheduledPass.conflictsAmong, List.countP_cons, p.clashes_comm q]
    omega
  | trans _ _ ih ih' => rw [ih, ih']

theorem modify_perm {α : Type} {l : List α} {idx : ℕ} {a : α} (h : l[idx]? = some a) (f : α → α) :
    (l.modify idx f).Perm (f a :: l.eraseIdx idx) := by
  induction l generalizing idx with
  | nil => simp at h
  | cons b l ih =>
    cases idx with
    | zero =>
      obtain rfl := Option.some.inj h
      exact .refl _
    | succ idx => exact ((ih h).cons b).trans (.swap _ _ _)

/-- The conflicts when one of the passes after the first ones is replaced: its own, and those of
the others. -/
theorem conflictCount_append_modify {idx : ℕ} {p : ScheduledPass F64} (h : passes[idx]? = some p)
    (first : List (ScheduledPass F64)) (f : ScheduledPass F64 → ScheduledPass F64) :
    conflictCount (first ++ passes.modify idx f) =
      (f p).conflictsAmong (first ++ passes.eraseIdx idx) +
        conflictCount (first ++ passes.eraseIdx idx) := by
  rw [← conflictCount_cons]
  apply conflictCount_perm
  exact ((modify_perm h f).append_left first).trans List.perm_middle

theorem conflictCount_append {idx : ℕ} {p : ScheduledPass F64} (h : passes[idx]? = some p)
    (first : List (ScheduledPass F64)) :
    conflictCount (first ++ passes) = p.conflictsAmong (first ++ passes.eraseIdx idx) +
      conflictCount (first ++ passes.eraseIdx idx) := by
  have hcount := conflictCount_append_modify h first id
  rwa [List.modify_id] at hcount

end Count

section Moves

/-- What a move does to the pass that it picks. -/
def movePass (hardware : HardwareConfig) (choices : MoveChoices) (pass : ScheduledPass F64) :
    ScheduledPass F64 :=
  match choices.operation % 4 with
  | 0 => shiftTimeSlot choices pass
  | 1 => reallocateHardware hardware choices pass
  | _ => pass

/-- The move frees the pass that it picks of conflicts with the other passes of the schedule, and
brings it more conflicts than that with the fixed ones. -/
def Trades (hardware : HardwareConfig) (fixed : List (ScheduledPass F64)) (schedule : Schedule F64)
    (choices : MoveChoices) : Prop :=
  let idx := choices.idx % schedule.passes.length
  let others := schedule.passes.eraseIdx idx
  ∃ pass, schedule.passes[idx]? = some pass ∧
    (movePass hardware choices pass).conflictsAmong others < pass.conflictsAmong others ∧
    pass.conflictsAmong (fixed ++ others) <
      (movePass hardware choices pass).conflictsAmong (fixed ++ others)

variable {requests : List PassRequest} {schedule : Schedule F64} {hardware : HardwareConfig}
  {choices : MoveChoices}

/-- When every request is scheduled, a move changes the pass that it picks, and the order. -/
theorem passes_generateNeighbor_perm
    (hall : ∀ request ∈ requests, request.requestId ∈ schedule.passes.map (·.requestId))
    (hardware : HardwareConfig) (choices : MoveChoices) :
    (generateNeighbor hardware requests choices schedule).passes.Perm
      (schedule.passes.modify (choices.idx % schedule.passes.length)
        (movePass hardware choices)) := by
  rcases generateNeighbor_cases hardware requests choices schedule with
    ⟨hop, heq⟩ | ⟨hshift, ⟨hop, heq⟩ | ⟨hreallocate, hperm | ⟨request, hfind, -⟩⟩⟩
  · have hmove : (movePass hardware choices : ScheduledPass F64 → _) = shiftTimeSlot choices := by
      funext pass
      simp only [movePass, hop]
    rw [hmove, heq]
  · have hmove : (movePass hardware choices : ScheduledPass F64 → _) =
        reallocateHardware hardware choices := by
      funext pass
      simp only [movePass, hop]
    rw [hmove, heq]
  · apply hperm.trans
    by_cases hempty : schedule.passes = []
    · simp [hempty]
    · have hmove : movePass hardware choices = (id : ScheduledPass F64 → _) := by
        funext pass
        unfold movePass
        split
        · next hop => exact absurd (hshift hop) hempty
        · next hop => exact absurd (hreallocate hop) hempty
        · rfl
      rw [hmove, List.modify_id]
  · have hnew : request.requestId ∉ schedule.passes.map (·.requestId) := by
      simpa using List.find?_some hfind
    exact absurd (hall request (List.mem_of_find?_eq_some hfind)) hnew

/-- A move that lowers the number of conflicts of the schedule raises it beside the fixed passes
exactly when it trades. -/
theorem trades_iff
    (hall : ∀ request ∈ requests, request.requestId ∈ schedule.passes.map (·.requestId))
    (fixed : List (ScheduledPass F64)) :
    Trades hardware fixed schedule choices ↔
      conflictCount (generateNeighbor hardware requests choices schedule).passes <
          conflictCount schedule.passes ∧
        conflictCount (fixed ++ schedule.passes) <
          conflictCount (fixed ++
            (generateNeighbor hardware requests choices schedule).passes) := by
  have hperm := passes_generateNeighbor_perm hall hardware choices
  rw [conflictCount_perm hperm, conflictCount_perm (hperm.append_left fixed)]
  simp only [Trades]
  cases hget : schedule.passes[choices.idx % schedule.passes.length]? with
  | none =>
    have hlength := List.getElem?_eq_none_iff.mp hget
    rw [List.modify_eq_self hlength]
    simp
  | some pass =>
    have halone := conflictCount_append_modify hget [] (movePass hardware choices)
    have hbefore := conflictCount_append hget []
    simp only [List.nil_append] at halone hbefore
    rw [halone, hbefore, conflictCount_append_modify hget fixed, conflictCount_append hget fixed]
    simp only [Option.some.injEq, exists_eq_left', Nat.add_lt_add_iff_right]

theorem end_sub_start_displaced (pass : ScheduledPass F64) (displacement : ℤ) :
    (pass.displaced displacement).scheduledWindow.end -
        (pass.displaced displacement).scheduledWindow.start =
      pass.scheduledWindow.end - pass.scheduledWindow.start := by
  show pass.scheduledWindow.start + displacement +
      (pass.scheduledWindow.end - pass.scheduledWindow.start) -
        (pass.scheduledWindow.start + displacement) = _
  exact add_sub_cancel_left (G := ℤ) _ _

theorem quality_movePass [FloatOps F64 F32] (hardware : HardwareConfig) (choices : MoveChoices)
    (pass : ScheduledPass F64) : (movePass hardware choices pass).quality = pass.quality := by
  unfold movePass
  split
  · rw [shiftTimeSlot_eq]
    split
    · rw [ScheduledPass.quality, ScheduledPass.durationSeconds, end_sub_start_displaced]
      rfl
    · rfl
  · unfold reallocateHardware
    split <;> rfl
  · rfl

end Moves

section Score

open ExactFloat

variable [FloatOps F64 F32] {s s' : Schedule F64} {requests : List PassRequest}
  {tail : Schedule F64}

theorem computeFulfilledRatio_congr
    (h : (s.passes.map (·.quality)).Perm (s'.passes.map (·.quality))) :
    computeFulfilledRatio s = computeFulfilledRatio s' := by
  have hlength : s.passes.length = s'.passes.length := by simpa using h.length_eq
  have hcount := h.countP_eq fun quality => decide (quality.1 ≥ 300)
  rw [List.countP_map, List.countP_map] at hcount
  have hempty : s.passes.isEmpty = s'.passes.isEmpty := by
    rw [Bool.eq_iff_iff, List.isEmpty_iff_length_eq_zero, List.isEmpty_iff_length_eq_zero, hlength]
  rw [computeFulfilledRatio, computeFulfilledRatio, hempty, hlength]
  exact congrArg (fun n : ℕ => if s'.passes.isEmpty then lit 0 else lit n / lit s'.passes.length)
    hcount

theorem keyholeTerms_perm (h : (s.passes.map (·.quality)).Perm (s'.passes.map (·.quality))) :
    (s.passes.filterMap keyholeTerm).Perm (s'.passes.filterMap keyholeTerm) := by
  have hterms := h.filterMap Prod.snd
  rwa [List.filterMap_map, List.filterMap_map] at hterms

namespace ScheduleOptimizer

/-- The tail of the schedule before the climb. -/
def tailSchedule (o : ScheduleOptimizer F64) (schedule : Schedule F64)
    (newRequests : List PassRequest) (now tailAt : DateTime) (created : ℕ → MoveChoices) :
    Schedule F64 :=
  { (Schedule.new now schedule.horizon.2 tailAt : Schedule F64) with
    passes := o.tailPasses schedule newRequests now created }

/-- The committed passes and the tail. -/
def wholeSchedule (schedule : Schedule F64) (now resultAt : DateTime) (tail : Schedule F64) :
    Schedule F64 :=
  { (Schedule.new schedule.horizon.1 schedule.horizon.2 resultAt : Schedule F64) with
    passes := committed schedule now ++ tail.passes, version := schedule.version + 1 }

theorem incrementalOptimize_eq (o : ScheduleOptimizer F64) (schedule : Schedule F64)
    (newRequests : List PassRequest) (now tailAt resultAt : DateTime) (created : ℕ → MoveChoices)
    (steps : ℕ → ClimbStep) :
    o.incrementalOptimize schedule newRequests now tailAt resultAt created steps =
      wholeSchedule schedule now resultAt (run (o.climb newRequests)
        (o.tailSchedule schedule newRequests now tailAt created) ((List.range 200).map steps)) :=
  rfl

theorem quality_generateNeighbor
    (hall : ∀ request ∈ requests, request.requestId ∈ tail.passes.map (·.requestId))
    (hardware : HardwareConfig) (choices : MoveChoices) :
    ((generateNeighbor hardware requests choices tail).passes.map (·.quality)).Perm
      (tail.passes.map (·.quality)) := by
  have hperm := (passes_generateNeighbor_perm hall hardware choices).map (·.quality)
  rwa [map_modify_of_eq (quality_movePass hardware choices)] at hperm

end ScheduleOptimizer

variable [ExactFloat F64 F32] (o : ScheduleOptimizer F64)

namespace ScheduleOptimizer

/-- Between schedules of passes of the same quality, the number of conflicts decides. -/
theorem val_evaluateSchedule_le_iff
    (h : (s.passes.map (·.quality)).Perm (s'.passes.map (·.quality)))
    (ord ord' : IterOrder (List ℕ)) :
    val (o.evaluateSchedule ord s) ≤ val (o.evaluateSchedule ord' s') ↔
      conflictCount s'.passes ≤ conflictCount s.passes := by
  have hterms := ((keyholeTerms_perm h).map val).sum_eq
  simp only [evaluateSchedule, val_foldl_add, val_add, val_sub, val_mul, val_lit, hterms,
    computeFulfilledRatio_congr h, Schedule.length_checkConflicts_eq]
  have hcast : conflictCount s'.passes ≤ conflictCount s.passes ↔
      (conflictCount s'.passes : ℚ) ≤ conflictCount s.passes := Nat.cast_le.symm
  rw [hcast]
  constructor <;> intro h <;> linarith

variable {o}

/-- The climb takes a neighbour that has fewer conflicts within the tail. -/
theorem climb_eq (hall : ∀ request ∈ requests, request.requestId ∈ tail.passes.map (·.requestId))
    (step : ClimbStep) :
    let neighbor := generateNeighbor o.hardware requests step.choices tail
    o.climb requests tail step =
      if conflictCount neighbor.passes < conflictCount tail.passes then neighbor else tail := by
  intro neighbor
  have hle := o.val_evaluateSchedule_le_iff
    (quality_generateNeighbor hall o.hardware step.choices) step.neighborOrder step.currentOrder
  have hlt := lt_iff (o.evaluateSchedule step.currentOrder tail)
    (o.evaluateSchedule step.neighborOrder neighbor)
  rw [← not_le, hle, not_le] at hlt
  exact if_congr hlt rfl rfl

/-- A step of the climb lowers the score of the whole schedule exactly when its move trades
conflicts within the tail for more with the committed passes. -/
theorem whole_climb_le_iff {schedule : Schedule F64} {now resultAt : DateTime}
    (hall : ∀ request ∈ requests, request.requestId ∈ tail.passes.map (·.requestId))
    (step : ClimbStep) (ord ord' : IterOrder (List ℕ)) :
    val (o.evaluateSchedule ord (wholeSchedule schedule now resultAt tail)) ≤
        val (o.evaluateSchedule ord'
          (wholeSchedule schedule now resultAt (o.climb requests tail step))) ↔
      ¬ Trades o.hardware (committed schedule now) tail step.choices := by
  rw [trades_iff hall, climb_eq hall]
  split
  · next hbetter =>
    have hquality := quality_generateNeighbor hall o.hardware step.choices
    rw [and_iff_right hbetter, not_lt]
    have hwhole : ((wholeSchedule schedule now resultAt tail).passes.map (·.quality)).Perm
        ((wholeSchedule schedule now resultAt (generateNeighbor o.hardware requests step.choices
          tail)).passes.map (·.quality)) := by
      simp only [wholeSchedule, List.map_append]
      exact hquality.symm.append_left _
    exact o.val_evaluateSchedule_le_iff hwhole ord ord'
  · next hworse =>
    refine iff_of_true ?_ fun h => hworse h.1
    rw [o.evaluateSchedule_eq ord ord']

/-- No step of the climb lowers the score of the whole schedule exactly when no move trades
conflicts within the tail for more with the committed passes; and then the result scores at least
what the schedule scores with the new passes appended. -/
theorem incrementalOptimize_not_worse (o : ScheduleOptimizer F64) (schedule : Schedule F64)
    (newRequests : List PassRequest) (now tailAt resultAt : DateTime) (created : ℕ → MoveChoices)
    (steps : ℕ → ClimbStep) (ord ord' : IterOrder (List ℕ)) :
    let tail := o.tailSchedule schedule newRequests now tailAt created
    let whole := wholeSchedule schedule now resultAt
    let climb := o.climb newRequests
    let NoTrade := Along climb
      (fun tail step => ¬ Trades o.hardware (committed schedule now) tail step.choices) tail
      ((List.range 200).map steps)
    (Along climb (fun tail step => val (o.evaluateSchedule ord (whole tail)) ≤
        val (o.evaluateSchedule ord' (whole (climb tail step)))) tail
      ((List.range 200).map steps) ↔ NoTrade) ∧
    (NoTrade → val (o.evaluateSchedule ord (whole tail)) ≤ val (o.evaluateSchedule ord'
      (o.incrementalOptimize schedule newRequests now tailAt resultAt created steps))) := by
  intro tail whole climb NoTrade
  let Booked (tail : Schedule F64) : Prop :=
    ∀ request ∈ newRequests, request.requestId ∈ tail.passes.map (·.requestId)
  have hbooked : Booked tail := fun request hmem => by
    show request.requestId ∈ (o.tailPasses schedule newRequests now created).map (·.requestId)
    rw [requestIds_tailPasses]
    exact List.mem_append_right _ (List.mem_map_of_mem hmem)
  have hkeep : ∀ tail step, Booked tail → Booked (climb tail step) :=
    fun tail step h request hmem => (requestIds_climb h step).mem_iff.mpr (h request hmem)
  refine ⟨along_congr (I := Booked) (fun tail step h => whole_climb_le_iff h step ord ord')
    (fun tail step h _ => hkeep tail step h) hbooked, fun hsteps => ?_⟩
  have hrun := run_invariant
    (I := fun t => Booked t ∧ val (o.evaluateSchedule ord (whole tail)) ≤
      val (o.evaluateSchedule ord' (whole t)))
    (fun t step h hok => ⟨hkeep t step h.1,
      h.2.trans ((whole_climb_le_iff h.1 step ord' ord').mpr hok)⟩)
    ⟨hbooked, by rw [o.evaluateSchedule_eq ord ord']⟩ hsteps
  exact hrun.2

/-- A pass that holds the given hardware for a part of the day. -/
def passOn (passId sdr antennaId rotatorId : String) (start «end» : DateTime) :
    ScheduledPass ℚ :=
  { passId, requestId := passId, customerId := "customer", satelliteId := "sat"
    scheduledWindow := { start, «end», minDurationSec := 300 }
    hardwareAllocation := { sdrDevices := [sdr], shadowSdr := none, antennaId, rotatorId }
    scheduledAt := 0, status := .scheduled, keyholeWarning := none }

/-- Two passes are being received, on the SDR and on the antenna that two later passes share. -/
def busySchedule : Schedule ℚ :=
  { passes := [passOn "a" "sdr-0" "antenna-1" "rotator-1" 0 (Duration.minutes 10),
      passOn "b" "sdr-1" "antenna-0" "rotator-2" 0 (Duration.minutes 10),
      passOn "c" "sdr-0" "antenna-0" "rotator-0" (Duration.minutes 11) (Duration.minutes 21),
      passOn "d" "sdr-0" "antenna-0" "rotator-0" (Duration.minutes 11) (Duration.minutes 21)]
    generatedAt := 0, horizon := (0, Duration.hours 24), version := 0 }

/-- The first of the later passes starts ten minutes earlier. -/
def earlierStep : ClimbStep :=
  { choices := { moveOf 0 0 with direction := false }
    currentOrder := .stored _, neighborOrder := .stored _ }

/-- To free a later pass of its one conflict, the climb puts it on top of both passes that are being
received. -/
theorem busy_worse :
    letI := FloatOps.exact id id
    smallOptimizer.evaluateSchedule (.stored _) (smallOptimizer.incrementalOptimize busySchedule []
        0 0 0 (fun _ => moveOf 0 0) fun _ => earlierStep) <
      smallOptimizer.evaluateSchedule (.stored _) (wholeSchedule busySchedule 0 0
        (smallOptimizer.tailSchedule busySchedule [] 0 0 fun _ => moveOf 0 0)) := by
  let _ := FloatOps.exact id id
  let _ := ExactFloat.exact id id
  let tail := smallOptimizer.tailSchedule busySchedule [] 0 0 fun _ => moveOf 0 0
  let neighbor := generateNeighbor smallOptimizer.hardware [] earlierStep.choices tail
  have hclimb : ∀ t, smallOptimizer.climb [] t earlierStep =
      if conflictCount (generateNeighbor smallOptimizer.hardware [] earlierStep.choices t).passes <
        conflictCount t.passes then
        generateNeighbor smallOptimizer.hardware [] earlierStep.choices t
      else t := fun t => climb_eq (by simp) earlierStep
  have hfirst : smallOptimizer.climb [] tail earlierStep = neighbor := by
    rw [hclimb, if_pos (by decide +kernel)]
  -- The pass cannot be shifted once more, for it would start before now.
  have hlater : smallOptimizer.climb [] neighbor earlierStep = neighbor := by
    rw [hclimb, if_neg (by decide +kernel)]
  have hsteps : Along (smallOptimizer.climb []) (fun _ step => step = earlierStep) neighbor
      (((List.range 199).map Nat.succ).map fun _ => earlierStep) := by
    apply along_of_forall
    intro step hmem
    obtain ⟨_, -, rfl⟩ := List.mem_map.mp hmem
    rfl
  have hrest := run_invariant (I := (· = neighbor)) (by rintro _ _ rfl rfl; exact hlater) rfl hsteps
  have hrun : run (smallOptimizer.climb []) tail ((List.range 200).map fun _ => earlierStep) =
      neighbor := by
    rw [List.range_succ_eq_map, List.map_cons, run_cons, hfirst]
    exact hrest
  have hquality : ((wholeSchedule busySchedule 0 0 tail).passes.map (·.quality)).Perm
      ((wholeSchedule busySchedule 0 0 neighbor).passes.map (·.quality)) := by decide +kernel
  have hle := smallOptimizer.val_evaluateSchedule_le_iff hquality (.stored _) (.stored _)
  rw [incrementalOptimize_eq, hrun]
  exact not_le.mp (mt hle.mp (by decide +kernel))

end ScheduleOptimizer

end Score

end GroundCore.Scheduler
