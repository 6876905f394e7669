import GroundCore.Lib.Run
import GroundCore.Oisl.Types
import GroundCore.Scheduler.Drf
import GroundCore.Scheduler.Reputation
import GroundCore.Scheduler.Schedule

/-! The schedule optimizer: simulated annealing over the whole horizon, and a hill climb over the
passes that are still to come.  A neighbour of a schedule differs from it in one move, which random
numbers choose; what a move draws and reads from the clock is its `MoveChoices`. -/

namespace GroundCore.Scheduler

open Lib FloatOps
open Oisl (Uuid)

variable {F64 F32 : Type}

structure HardwareConfig where
  sdrDevices : List String
  shadowSdrDevices : List String
  antennaIds : List String
  rotatorIds : List String
  deriving DecidableEq, Repr

structure OptimizationConfig (F64 : Type) where
  maxIterations : ℕ
  initialTemperature : F64
  coolingRate : F64
  timeout : Duration

/-- The orders are those in which the maps of the optimizer's own are iterated. -/
structure ScheduleOptimizer (F64 : Type) where
  drf : DominantResourceFairness F64
  reputation : ReputationTracker F64
  config : OptimizationConfig F64
  hardware : HardwareConfig
  allocationOrder : IterOrder (ResourceAllocation F64)
  tenantOrder : IterOrder (TenantReputation F64)

/-- The random numbers of a move, the pass id that it generates and its readings of the clock. -/
structure MoveChoices where
  idx : ℕ
  operation : ℕ
  shiftMinutes : ℤ
  direction : Bool
  antenna : ℕ
  passId : Uuid
  now : DateTime

namespace ScheduledPass

/-- `num_seconds` rounds toward zero. -/
def durationSeconds (pass : ScheduledPass F64) : ℕ :=
  (Int.tdiv (pass.scheduledWindow.end - pass.scheduledWindow.start) (Duration.seconds 1)).natAbs

end ScheduledPass

def computeFulfilledRatio [FloatOps F64 F32] (schedule : Schedule F64) : F64 :=
  if schedule.passes.isEmpty then lit 0
  else
    let fulfilled := schedule.passes.countP fun pass => decide (pass.durationSeconds ≥ 300)
    lit fulfilled / lit schedule.passes.length

/-- What a pass with a keyhole warning adds to the score. -/
def keyholeTerm [FloatOps F64 F32] (pass : ScheduledPass F64) : Option F64 :=
  pass.keyholeWarning.map fun kh =>
    keyholeScorePenalty
      { stationId := pass.hardwareAllocation.antennaId, passMaxElevationDeg := kh.maxElevationDeg,
        entersKeyhole := true, keyholeEntry := none, keyholeExit := none,
        estimatedLossS := kh.estimatedLossS, handoffRecommended := !kh.handoffScheduled,
        lossFraction := kh.lossFraction }
      kh.handoffScheduled

/-- Shift a pass's time window.  The remainder of the random number keeps its sign, so the shift is
by zero to ten minutes. -/
def shiftTimeSlot (choices : MoveChoices) (pass : ScheduledPass F64) : ScheduledPass F64 :=
  let shiftMinutes := (Int.tmod choices.shiftMinutes 10 + 1).natAbs
  let shift := Duration.minutes shiftMinutes
  let window := pass.scheduledWindow
  let newStart : DateTime :=
    if choices.direction then window.start + shift else window.start - shift
  let newEnd : DateTime := newStart + (window.end - window.start)
  if newStart > choices.now ∧ newEnd < window.end + Duration.hours 1 then
    { pass with scheduledWindow := { window with start := newStart, «end» := newEnd } }
  else pass

def reallocateHardware (hardware : HardwareConfig) (choices : MoveChoices)
    (pass : ScheduledPass F64) : ScheduledPass F64 :=
  if hardware.sdrDevices.isEmpty then pass
  else
    let allocation := pass.hardwareAllocation
    let currentIdx := (allocation.sdrDevices.head?.bind fun s =>
      hardware.sdrDevices.findIdx? fun d => d = s).getD 0
    let newIdx := (currentIdx + 1) % hardware.sdrDevices.length
    let allocation := { allocation with sdrDevices := [hardware.sdrDevices.getD newIdx ""] }
    let allocation :=
      if hardware.antennaIds.isEmpty then allocation
      else { allocation with
        antennaId := hardware.antennaIds.getD (choices.antenna % hardware.antennaIds.length) "" }
    { pass with hardwareAllocation := allocation }

/-- The element at a position after the first and the one before it change places. -/
def swapWithPrevious {α : Type} : List α → ℕ → List α
  | a :: b :: l, 1 => b :: a :: l
  | a :: l, idx + 2 => a :: swapWithPrevious l (idx + 1)
  | l, _ => l

def tryPreemption (schedule : Schedule F64) (idx : ℕ) : Schedule F64 :=
  if idx = 0 then schedule
  else { schedule with passes := swapWithPrevious schedule.passes idx }

def createPassFromRequest (hardware : HardwareConfig) (choices : MoveChoices)
    (request : PassRequest) : ScheduledPass F64 :=
  let primarySdr := hardware.sdrDevices.head?.getD "sdr-0"
  let shadowSdr :=
    if request.slaTier.requiresShadow then hardware.shadowSdrDevices.head? else none
  let antennaId := hardware.antennaIds.head?.getD "antenna-0"
  let rotatorId := hardware.rotatorIds.head?.getD "rotator-0"
  { passId := choices.passId.hyphenated, requestId := request.requestId
    customerId := request.customerId, satelliteId := request.satelliteId
    scheduledWindow := request.window
    hardwareAllocation := { sdrDevices := [primarySdr], shadowSdr, antennaId, rotatorId }
    scheduledAt := choices.now, status := .scheduled, keyholeWarning := none }

def addUnscheduledRequest (hardware : HardwareConfig) (choices : MoveChoices)
    (schedule : Schedule F64) (requests : List PassRequest) : Schedule F64 :=
  let scheduledIds := schedule.passes.map (·.requestId)
  match requests.find? fun r => r.requestId ∉ scheduledIds with
  | some request => schedule.addPass (createPassFromRequest hardware choices request)
  | none => schedule

def generateNeighbor (hardware : HardwareConfig) (requests : List PassRequest)
    (choices : MoveChoices) (schedule : Schedule F64) : Schedule F64 :=
  if schedule.passes.isEmpty then
    match requests.head? with
    | some request => schedule.addPass (createPassFromRequest hardware choices request)
    | none => schedule
  else
    let idx := choices.idx % schedule.passes.length
    let modifyPass (f : ScheduledPass F64 → ScheduledPass F64) : Schedule F64 :=
      { schedule with passes := schedule.passes.modify idx f }
    match choices.operation % 4 with
    | 0 => modifyPass (shiftTimeSlot choices)
    | 1 => modifyPass (reallocateHardware hardware choices)
    | 2 => tryPreemption schedule idx
    | 3 => addUnscheduledRequest hardware choices schedule requests
    | _ => modifyPass (shiftTimeSlot choices)

/-- One step of the hill climb: the move, and the orders of the device groups when the schedule and
its neighbour are evaluated. -/
structure ClimbStep where
  choices : MoveChoices
  currentOrder : IterOrder (List ℕ)
  neighborOrder : IterOrder (List ℕ)

/-- One iteration of the annealing: the time since its start, the move, the order of the device
groups when the neighbour is evaluated, and the random number that may accept it. -/
structure Iteration (F64 : Type) where
  elapsed : Duration
  choices : MoveChoices
  conflictOrder : IterOrder (List ℕ)
  draw : F64

structure AnnealingState (F64 : Type) where
  schedule : Schedule F64
  bestSchedule : Schedule F64
  bestScore : F64
  temperature : F64

namespace ScheduleOptimizer

section Evaluation

variable [FloatOps F64 F32]

def evaluateSchedule (o : ScheduleOptimizer F64) (ord : IterOrder (List ℕ))
    (schedule : Schedule F64) : F64 :=
  let score := lit 0
  let fairnessStats := o.drf.fairnessStats o.allocationOrder
  let fairnessScore := lit 1 - fairnessStats.fairnessGap
  let score := score + fairnessScore * lit 100
  let reputationScore := (o.reputation.stats o.tenantOrder).avgReputation
  let score := score + reputationScore * lit 50
  let conflicts := schedule.checkConflicts ord
  let score := score - lit conflicts.length * lit 200
  let fulfilledRatio := computeFulfilledRatio schedule
  let score := score + fulfilledRatio * lit 30
  (schedule.passes.filterMap keyholeTerm).foldl (· + ·) score

/-- The score does not depend on the order of the device groups. -/
theorem evaluateSchedule_eq (o : ScheduleOptimizer F64) (ord ord' : IterOrder (List ℕ))
    (schedule : Schedule F64) :
    o.evaluateSchedule ord schedule = o.evaluateSchedule ord' schedule := by
  simp only [evaluateSchedule, schedule.length_checkConflicts ord ord']

end Evaluation

section Incremental

variable [FloatOps F64 F32]

/-- A better neighbour replaces the schedule. -/
def climb (o : ScheduleOptimizer F64) (requests : List PassRequest) (schedule : Schedule F64)
    (step : ClimbStep) : Schedule F64 :=
  let neighbor := generateNeighbor o.hardware requests step.choices schedule
  let currentScore := o.evaluateSchedule step.currentOrder schedule
  let neighborScore := o.evaluateSchedule step.neighborOrder neighbor
  if lt currentScore neighborScore then neighbor else schedule

def committed (schedule : Schedule F64) (now : DateTime) : List (ScheduledPass F64) :=
  schedule.passes.filter fun p => decide (p.scheduledWindow.start ≤ now)

/-- The passes that are still to come, and one for each new request. -/
def tailPasses (o : ScheduleOptimizer F64) (schedule : Schedule F64)
    (newRequests : List PassRequest) (now : DateTime) (created : ℕ → MoveChoices) :
    List (ScheduledPass F64) :=
  (schedule.passes.filter fun p => !decide (p.scheduledWindow.start ≤ now)) ++
    newRequests.zipIdx.map fun r => createPassFromRequest o.hardware (created r.2) r.1

def incrementalOptimize (o : ScheduleOptimizer F64) (schedule : Schedule F64)
    (newRequests : List PassRequest) (now tailAt resultAt : DateTime) (created : ℕ → MoveChoices)
    (steps : ℕ → ClimbStep) : Schedule F64 :=
  let tailSchedule : Schedule F64 := .new now schedule.horizon.2 tailAt
  let tailSchedule :=
    { tailSchedule with passes := o.tailPasses schedule newRequests now created }
  let tailSchedule := run (o.climb newRequests) tailSchedule ((List.range 200).map steps)
  let result : Schedule F64 := .new schedule.horizon.1 schedule.horizon.2 resultAt
  { result with
    passes := committed schedule now ++ tailSchedule.passes, version := schedule.version + 1 }

end Incremental

section Annealing

variable [ExpOps F64 F32]

/-- An accepted neighbour becomes the schedule, and the best one when it beats it. -/
def anneal (o : ScheduleOptimizer F64) (requests : List PassRequest) (s : AnnealingState F64)
    (it : Iteration F64) : AnnealingState F64 :=
  let neighbor := generateNeighbor o.hardware requests it.choices s.schedule
  let neighborScore := o.evaluateSchedule it.conflictOrder neighbor
  let scoreDelta := neighborScore - s.bestScore
  let temperature := s.temperature * o.config.coolingRate
  if lt (lit 0) scoreDelta || lt it.draw (ExpOps.exp (scoreDelta / s.temperature)) then
    if lt s.bestScore neighborScore then
      { schedule := neighbor, bestSchedule := neighbor, bestScore := neighborScore, temperature }
    else { s with schedule := neighbor, temperature }
  else { s with temperature }

/-- The iterations that are made: the first `max_iterations`, up to the timeout. -/
def iterations (o : ScheduleOptimizer F64) (inputs : ℕ → Iteration F64) : List (Iteration F64) :=
  ((List.range o.config.maxIterations).map inputs).takeWhile fun it =>
    !decide (it.elapsed > o.config.timeout)

def initialSchedule (horizonStart horizonEnd now : DateTime) (existing : Option (Schedule F64)) :
    Schedule F64 :=
  let schedule := Schedule.new horizonStart horizonEnd now
  match existing with
  | some existing => { schedule with passes := existing.passes }
  | none => schedule

def initialState (o : ScheduleOptimizer F64) (schedule : Schedule F64)
    (ord : IterOrder (List ℕ)) : AnnealingState F64 :=
  { schedule, bestSchedule := schedule, bestScore := o.evaluateSchedule ord schedule
    temperature := o.config.initialTemperature }

/-- `restored` is what the snapshot from before the annealing restores to. -/
def optimize (o : ScheduleOptimizer F64) (requests : List PassRequest)
    (horizonStart horizonEnd now : DateTime) (existing : Option (Schedule F64))
    (ord : IterOrder (List ℕ)) (inputs : ℕ → Iteration F64) (restored : Option (Schedule F64)) :
    Schedule F64 :=
  let schedule := initialSchedule horizonStart horizonEnd now existing
  let preScore := o.evaluateSchedule ord schedule
  let final := run (o.anneal requests) (o.initialState schedule ord) (o.iterations inputs)
  if lt final.bestScore preScore then restored.getD final.bestSchedule else final.bestSchedule

end Annealing

end ScheduleOptimizer

end GroundCore.Scheduler
