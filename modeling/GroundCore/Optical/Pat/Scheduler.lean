import GroundCore.Lib.BTreeMap
import GroundCore.Lib.FloatOps
import GroundCore.Oisl.Types
import GroundCore.Lib.PriorityQueue
import GroundCore.Lib.Run

/-! The plans by which two optical terminals find each other.  The coordinator stores a plan under
the instant at which it starts, and executes it by its identifier.

The queue of acquisitions.  It is a heap that pops its greatest entry, and the order of the
entries puts a higher number of the priority and a later time above; one slot names the acquisition
in progress. -/

namespace GroundCore.Optical.Pat

open Lib FloatOps

abbrev AcquisitionId := Oisl.Uuid

structure ClockConfidence where
  uncertaintyNs : ℕ

structure AcquisitionPlan where
  planId : AcquisitionId
  targetT0 : DateTime
  targetDataRate : ℕ
  deriving DecidableEq

structure TrackingMetrics (F64 : Type) where
  pointingErrorUrad : F64
  signalToNoiseDb : F64
  lockConfidence : F64
  dataRateActual : ℕ
  bitErrorRate : F64

/-- The phases in which a call leaves the coordinator. -/
inductive PatPhase (F64 : Type)
  | idle
  | scheduled (acquisitionId : AcquisitionId) (startsAt : DateTime)
  | tracking (metrics : TrackingMetrics F64)

inductive AcquisitionResult (F64 : Type)
  | success (establishedAt : DateTime) (finalMetrics : TrackingMetrics F64)

inductive PatError
  | clockSyncFailed (message : String)
  | notFound (acquisitionId : AcquisitionId)
  deriving DecidableEq

structure PatCoordinator (F64 : Type) where
  acquisitionSchedules : BTreeMap DateTime AcquisitionPlan
  currentPhase : PatPhase F64

def ClockConfidence.isAcceptableForPat (c : ClockConfidence) : Bool :=
  decide (c.uncertaintyNs < 500)

namespace PatCoordinator

variable {F64 F32 : Type} [FloatOps F64 F32]

def new : PatCoordinator F64 := { acquisitionSchedules := ∅, currentPhase := .idle }

def schedule (c : PatCoordinator F64) (plan : AcquisitionPlan) :
    PatCoordinator F64 × Except PatError Unit :=
  ({ acquisitionSchedules := c.acquisitionSchedules.insert plan.targetT0 plan
     currentPhase := .scheduled plan.planId plan.targetT0 }, .ok ())

def findPlan (c : PatCoordinator F64) (planId : AcquisitionId) : Except PatError AcquisitionPlan :=
  match c.acquisitionSchedules.values.find? fun p => decide (p.planId = planId) with
  | some plan => .ok plan
  | none => .error (.notFound planId)

/-- The call waits for the start of the plan, and returns at `establishedAt`. -/
def execute (c : PatCoordinator F64) (planId : AcquisitionId) (confidence : ClockConfidence)
    (establishedAt : DateTime) : PatCoordinator F64 × Except PatError (AcquisitionResult F64) :=
  match c.findPlan planId with
  | .error e => (c, .error e)
  | .ok plan =>
    if !confidence.isAcceptableForPat then
      (c, .error (.clockSyncFailed ("Clock confidence " ++ toString confidence.uncertaintyNs ++
        "ns not acceptable for PAT")))
    else
      let metrics : TrackingMetrics F64 :=
        { pointingErrorUrad := lit 50, signalToNoiseDb := lit 15, lockConfidence := lit 0.95
          dataRateActual := plan.targetDataRate, bitErrorRate := lit 1e-9 }
      ({ c with currentPhase := .tracking metrics }, .ok (.success establishedAt metrics))

end PatCoordinator

open Std

structure QueueEntry where
  plan : AcquisitionPlan
  priority : ℕ
  queuedAt : DateTime
  deriving DecidableEq

def QueueEntry.cmp (self other : QueueEntry) : Ordering :=
  match compare self.priority other.priority with
  | .eq => compare self.queuedAt other.queuedAt
  | other => other

instance : Ord QueueEntry := ⟨QueueEntry.cmp⟩

structure AcquisitionScheduler where
  queue : List QueueEntry
  scheduled : List AcquisitionPlan
  inProgress : Option AcquisitionId

namespace AcquisitionScheduler

def new : AcquisitionScheduler := { queue := [], scheduled := [], inProgress := none }

/-- `now` is the reading of the clock. -/
def enqueue (s : AcquisitionScheduler) (plan : AcquisitionPlan) (priority : ℕ) (now : DateTime) :
    AcquisitionScheduler × Except PatError Unit :=
  let entry := { plan, priority, queuedAt := now }
  ({ s with queue := s.queue ++ [entry] }, .ok ())

def scheduleNext (pops : PopOrder QueueEntry) (s : AcquisitionScheduler) (_now : DateTime) :
    AcquisitionScheduler × Option AcquisitionPlan :=
  match pops.pop s.queue with
  | some (entry, queue) =>
    ({ queue, scheduled := s.scheduled ++ [entry.plan], inProgress := some entry.plan.planId },
      some entry.plan)
  | none => (s, none)

def complete (s : AcquisitionScheduler) (acquisitionId : AcquisitionId) : AcquisitionScheduler :=
  if s.inProgress = some acquisitionId then { s with inProgress := none } else s

/-- The queue is popped until it is empty, and what is not cancelled is pushed to a new one. -/
def cancel (pops : PopOrder QueueEntry) (s : AcquisitionScheduler)
    (acquisitionId : AcquisitionId) : AcquisitionScheduler × Except PatError Unit :=
  let popped := pops.drain s.queue
  let found := popped.any fun entry => decide (entry.plan.planId = acquisitionId)
  let tempQueue := popped.filter fun entry => decide (entry.plan.planId ≠ acquisitionId)
  ({ s with queue := tempQueue }, if found then .ok () else .error (.notFound acquisitionId))

def isInProgress (s : AcquisitionScheduler) : Bool := s.inProgress.isSome

end AcquisitionScheduler

/-! ### Runs, with what was queued, returned and cancelled -/

inductive SchedulerCall
  | enqueue (plan : AcquisitionPlan) (priority : ℕ) (now : DateTime)
  | scheduleNext (pops : PopOrder QueueEntry) (now : DateTime)
  | complete (acquisitionId : AcquisitionId)
  | cancel (pops : PopOrder QueueEntry) (acquisitionId : AcquisitionId)

/-- The plan that a call queues. -/
def SchedulerCall.plan? : SchedulerCall → Option AcquisitionPlan
  | enqueue plan _ _ => some plan
  | _ => none

/-- The scheduler, with every entry that was queued, every one that was returned and what the queue
held then, every one that was cancelled, and the returned plans that are not completed. -/
structure SchedulerSession where
  scheduler : AcquisitionScheduler
  queued : List QueueEntry
  returned : List (QueueEntry × List QueueEntry)
  cancelled : List QueueEntry
  outstanding : List AcquisitionId

namespace SchedulerSession

def new : SchedulerSession :=
  { scheduler := .new, queued := [], returned := [], cancelled := [], outstanding := [] }

def step (s : SchedulerSession) : SchedulerCall → SchedulerSession
  | .enqueue plan priority now =>
    { s with
      scheduler := (s.scheduler.enqueue plan priority now).1
      queued := s.queued ++ [{ plan, priority, queuedAt := now }] }
  | .scheduleNext pops now =>
    { s with
      scheduler := (s.scheduler.scheduleNext pops now).1
      returned := match pops.pop s.scheduler.queue with
        | some (entry, _) => s.returned ++ [(entry, s.scheduler.queue)]
        | none => s.returned
      outstanding := match (s.scheduler.scheduleNext pops now).2 with
        | some plan => s.outstanding ++ [plan.planId]
        | none => s.outstanding }
  | .complete acquisitionId =>
    { s with
      scheduler := s.scheduler.complete acquisitionId
      outstanding := s.outstanding.filter fun id => decide (id ≠ acquisitionId) }
  | .cancel pops acquisitionId =>
    { s with
      scheduler := (s.scheduler.cancel pops acquisitionId).1
      cancelled := s.cancelled ++
        s.scheduler.queue.filter fun entry => decide (entry.plan.planId = acquisitionId) }

end SchedulerSession

/-- The order in which plans are to be returned: by the number of the priority, then by the time. -/
def QueueEntry.Before (e e' : QueueEntry) : Prop :=
  e.priority < e'.priority ∨ e.priority = e'.priority ∧ e.queuedAt ≤ e'.queuedAt

namespace SchedulerSession

/-- Every plan was returned before whatever else was queued. -/
def InOrder (s : SchedulerSession) : Prop :=
  ∀ r ∈ s.returned, ∀ e ∈ r.2, r.1.Before e

/-- An acquisition is in progress exactly while a returned plan is not completed. -/
def Tracked (s : SchedulerSession) : Prop :=
  s.scheduler.isInProgress = true ↔ s.outstanding ≠ []

/-- What was queued is queued still, or was returned, or was cancelled, each once. -/
def Accounted (s : SchedulerSession) : Prop :=
  s.queued.Perm (s.scheduler.queue ++ s.returned.map Prod.fst ++ s.cancelled)

/-- When a plan is returned, all queued ones rank the same; when the acquisition in progress is
completed, no other returned plan is outstanding. -/
def Admissible (s : SchedulerSession) : SchedulerCall → Prop
  | .scheduleNext _ _ => ∀ e ∈ s.scheduler.queue, ∀ e' ∈ s.scheduler.queue,
      e.priority = e'.priority ∧ e.queuedAt = e'.queuedAt
  | .complete acquisitionId => s.scheduler.inProgress = some acquisitionId →
      ∀ id ∈ s.outstanding, id = acquisitionId
  | .enqueue .. => True
  | .cancel .. => True

end SchedulerSession

end GroundCore.Optical.Pat
