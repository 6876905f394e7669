import GroundCore.Lib.FloatOps
import GroundCore.Lib.HashMap
import GroundCore.Uplink.Command

/-! The transmission scheduler: each command gets the first pass window that is open or still to
come, unless its transmission would run into one that is already scheduled. -/

namespace GroundCore.Uplink

open Lib

variable {F64 F32 : Type}

structure TransmissionWindow (F64 : Type) where
  passId : PassId
  start : DateTime
  «end» : DateTime
  maxRate : F64
  powerBudget : F64

namespace TransmissionWindow

def contains (window : TransmissionWindow F64) (time : DateTime) : Bool :=
  decide (time ≥ window.start) && decide (time ≤ window.end)

def timeUntilStart (window : TransmissionWindow F64) (now : DateTime) : Option Duration :=
  if window.start > now then some (window.start - now) else none

/-- When a transmission scheduled at `now` starts. -/
def transmissionTime (window : TransmissionWindow F64) (now : DateTime) : DateTime :=
  if window.contains now then now else window.start

/-- How long a payload takes at the rate of the window, in whole milliseconds. -/
def estimatedDuration [FloatOps F64 F32] (window : TransmissionWindow F64)
    (payload : List UInt8) : Duration :=
  .milliseconds (FloatOps.toI64
    (FloatOps.lit payload.length / window.maxRate * FloatOps.lit 1000 : F64)).toInt

end TransmissionWindow

structure ScheduledTransmission (F64 : Type) where
  commandId : CommandId
  window : TransmissionWindow F64
  transmissionTime : DateTime
  estimatedDuration : Duration
  dopplerCompensation : F64

namespace ScheduledTransmission

def overlap (scheduled existing : ScheduledTransmission F64) : Bool :=
  decide (scheduled.transmissionTime <
    existing.transmissionTime + existing.estimatedDuration) &&
  decide (existing.transmissionTime < scheduled.transmissionTime + scheduled.estimatedDuration)

/-- The transmission of a command in a window, when it is scheduled at `now`. -/
def ofCommand [FloatOps F64 F32] (command : Command) (window : TransmissionWindow F64)
    (now : DateTime) : ScheduledTransmission F64 :=
  { commandId := command.id, window, transmissionTime := window.transmissionTime now,
    estimatedDuration := window.estimatedDuration command.payload,
    dopplerCompensation := FloatOps.lit 0 }

end ScheduledTransmission

inductive ConflictStrategy
  | priority
  | fcfs
  | reject
  deriving DecidableEq, Repr

structure TransmissionScheduler (F64 : Type) where
  windows : HashMap PassId (TransmissionWindow F64)
  scheduled : HashMap CommandId (ScheduledTransmission F64)
  pending : List Command
  conflictStrategy : ConflictStrategy

namespace TransmissionScheduler

def new (conflictStrategy : ConflictStrategy) : TransmissionScheduler F64 :=
  { windows := ∅, scheduled := ∅, pending := [], conflictStrategy }

def addWindow (s : TransmissionScheduler F64) (window : TransmissionWindow F64) :
    TransmissionScheduler F64 :=
  { s with windows := s.windows.insert window.passId window }

def removeWindow (s : TransmissionScheduler F64) (passId : PassId) : TransmissionScheduler F64 :=
  { s with windows := s.windows.erase passId }

/-- The first window that contains `now` or starts after `later`, the reading of the clock that is
made when the window is looked at. -/
def suitableWindow (s : TransmissionScheduler F64) (ord : IterOrder (TransmissionWindow F64))
    (now : DateTime) (later : PassId → DateTime) : Option (TransmissionWindow F64) :=
  (ord.order s.windows.values).find? fun window =>
    window.contains now || (window.timeUntilStart (later window.passId)).isSome

def hasConflict (s : TransmissionScheduler F64) (scheduled : ScheduledTransmission F64) : Bool :=
  s.scheduled.values.any scheduled.overlap

/-- No waiting command with a transmission that is already scheduled has the priority of this
one or a higher one. -/
def canOverride (s : TransmissionScheduler F64) (command : Command) : Bool :=
  if (s.scheduled.get? command.id).isSome then false
  else s.scheduled.values.all fun existing =>
    match s.pending.find? (·.id = existing.commandId) with
    | some existingCmd => !(compare existingCmd.priority command.priority).isGE
    | none => true

def schedule [FloatOps F64 F32] (s : TransmissionScheduler F64) (command : Command)
    (ord : IterOrder (TransmissionWindow F64)) (now : DateTime) (later : PassId → DateTime) :
    TransmissionScheduler F64 × Result (ScheduledTransmission F64) :=
  match s.suitableWindow ord now later with
  | none => (s, .error (.validation "No suitable transmission window"))
  | some window =>
    let scheduled := ScheduledTransmission.ofCommand command window now
    let stored := ({ s with scheduled := s.scheduled.insert command.id scheduled }, .ok scheduled)
    if s.hasConflict scheduled then
      match s.conflictStrategy with
      | .priority =>
        if s.canOverride command then stored
        else (s, .error (.validation "Transmission conflict - lower priority"))
      | .fcfs => (s, .error (.validation "Transmission conflict - first come first served"))
      | .reject => (s, .error (.validation "Transmission conflict - rejected"))
    else stored

def removeScheduled (s : TransmissionScheduler F64) (commandId : CommandId) :
    TransmissionScheduler F64 := { s with scheduled := s.scheduled.erase commandId }

end TransmissionScheduler

inductive SchedulerCall (F64 : Type)
  | addWindow (window : TransmissionWindow F64)
  | removeWindow (passId : PassId)
  | schedule (command : Command) (ord : IterOrder (TransmissionWindow F64)) (now : DateTime)
      (later : PassId → DateTime)
  | removeScheduled (commandId : CommandId)

namespace TransmissionScheduler

variable [FloatOps F64 F32]

def step (s : TransmissionScheduler F64) : SchedulerCall F64 → TransmissionScheduler F64
  | .addWindow window => s.addWindow window
  | .removeWindow passId => s.removeWindow passId
  | .schedule command ord now later => (s.schedule command ord now later).1
  | .removeScheduled commandId => s.removeScheduled commandId

end TransmissionScheduler

end GroundCore.Uplink
