import Mathlib.Data.Nat.Notation
import GroundCore.Core.Types
import GroundCore.Oisl.Types

/-! Commands to a satellite, with the orders that the source derives for them: the fields in turn,
the first that differs deciding. -/

namespace GroundCore.Uplink

open Oisl (Uuid)
open Std

abbrev CommandId := Uuid

inductive CommandPriority
  | emergency
  | high
  | normal
  | low
  deriving DecidableEq, Repr

def CommandPriority.discriminant : CommandPriority → ℕ
  | .emergency => 3
  | .high => 2
  | .normal => 1
  | .low => 0

instance : Ord CommandPriority := ⟨compareOn (·.discriminant)⟩

inductive CommandType
  | immediate
  | timeTagged (time : DateTime)
  | conditional (condition : String)
  deriving DecidableEq, Repr

namespace CommandType

def variantIndex : CommandType → ℕ
  | .immediate => 0
  | .timeTagged _ => 1
  | .conditional _ => 2

def time? : CommandType → Option DateTime
  | .timeTagged time => some time
  | _ => none

def condition? : CommandType → Option String
  | .conditional condition => some condition
  | _ => none

/-- The variants in the order of their declaration, and within a variant the order of what it
holds. -/
instance : Ord CommandType :=
  ⟨compareLex (compareOn variantIndex) <| compareLex (compareOn time?) (compareOn condition?)⟩

end CommandType

inductive CommandState
  | queued
  | scheduled
  | transmitting
  | awaitingAck
  | acknowledged
  | failed
  | timeout
  | cancelled
  deriving DecidableEq, Repr

instance : Ord CommandState := ⟨compareOn (·.ctorIdx)⟩

structure Command where
  id : CommandId
  satelliteId : SatelliteId
  payload : List UInt8
  commandType : CommandType
  priority : CommandPriority
  authToken : List UInt8
  createdAt : DateTime
  version : ℕ
  requiredCapabilities : List String
  deriving DecidableEq, Repr

instance : Ord Command :=
  ⟨compareLex (compareOn (·.id)) <| compareLex (compareOn (·.satelliteId)) <|
    compareLex (compareOn (·.payload)) <| compareLex (compareOn (·.commandType)) <|
    compareLex (compareOn (·.priority)) <| compareLex (compareOn (·.authToken)) <|
    compareLex (compareOn (·.createdAt)) <| compareLex (compareOn (·.version))
      (compareOn (·.requiredCapabilities))⟩

structure QueuedCommand where
  command : Command
  state : CommandState
  queuedAt : DateTime
  scheduledAt : Option DateTime
  retryCount : ℕ
  maxRetries : ℕ
  deriving DecidableEq, Repr

def QueuedCommand.new (command : Command) (now : DateTime) : QueuedCommand :=
  { command, state := .queued, queuedAt := now, scheduledAt := none, retryCount := 0,
    maxRetries := 3 }

instance : Ord QueuedCommand :=
  ⟨compareLex (compareOn (·.command)) <| compareLex (compareOn (·.state)) <|
    compareLex (compareOn (·.queuedAt)) <| compareLex (compareOn (·.scheduledAt)) <|
    compareLex (compareOn (·.retryCount)) (compareOn (·.maxRetries))⟩

instance : TransOrd CommandPriority := inferInstanceAs (TransCmp (compareOn _))

instance : TransOrd CommandType := inferInstanceAs (TransCmp (compareLex _ _))

instance : TransOrd CommandState := inferInstanceAs (TransCmp (compareOn _))

instance : TransOrd Command := inferInstanceAs (TransCmp (compareLex _ _))

instance : TransOrd QueuedCommand := inferInstanceAs (TransCmp (compareLex _ _))

/-- The id of the command comes first in the order of queued commands. -/
theorem QueuedCommand.le_of_isLE {queued other : QueuedCommand}
    (h : (compare queued other).isLE) : queued.command.id ≤ other.command.id := by
  refine Nat.le_of_not_lt fun hlt => ?_
  have hgt : compare queued.command.id other.command.id = .gt := Nat.compare_eq_gt.mpr hlt
  have : compare queued other = .gt := by
    show ((compare queued.command.id other.command.id).then _).then _ = .gt
    rw [hgt]
    rfl
  rw [this] at h
  contradiction

/-- A command of one byte. -/
def commandOf (id : CommandId) (priority : CommandPriority) : Command :=
  { id, satelliteId := "sat-1", payload := [1], commandType := .immediate, priority,
    authToken := [2], createdAt := 0, version := 1, requiredCapabilities := [] }

end GroundCore.Uplink
