import Mathlib.Data.Nat.Notation
import GroundCore.Core.Types

/-! The identifiers, windows and priorities that the modules of the optical network share. -/

namespace GroundCore.Oisl

/-- A UUID, as the 128-bit number that it stands for. -/
abbrev Uuid := ℕ

/-- The digits of a UUID in the groups of its text. -/
def Uuid.hyphenated (id : Uuid) : String :=
  let digits := Nat.toDigits 16 id
  let digits := List.replicate (32 - digits.length) '0' ++ digits
  let group (start len : ℕ) := String.ofList ((digits.drop start).take len)
  "-".intercalate [group 0 8, group 8 4, group 12 4, group 16 4, group 20 12]

abbrev TaskId := Uuid

abbrev AllocationId := Uuid

abbrev TerminalId := Uuid

abbrev SatelliteId := String

abbrev NodeId := String

abbrev TenantId := String

structure DataRate where
  bitsPerSecond : ℕ
  deriving DecidableEq, Repr

structure TimeWindow where
  start : DateTime
  «end» : DateTime
  deriving DecidableEq, Repr

namespace TimeWindow

def new (start finish : DateTime) : TimeWindow := ⟨start, finish⟩

def duration (window : TimeWindow) : Duration := window.end - window.start

def contains (window : TimeWindow) (timestamp : DateTime) : Bool :=
  decide (window.start ≤ timestamp) && decide (timestamp ≤ window.end)

def overlaps (window other : TimeWindow) : Bool :=
  decide (window.start < other.end) && decide (other.start < window.end)

end TimeWindow

inductive Priority
  | critical
  | high
  | medium
  | low
  | background
  deriving DecidableEq, Repr

inductive PreemptionReason
  | higherPriorityTask
  | emergencyResponse
  | regulatoryCompliance
  | resourceExhaustion
  deriving DecidableEq, Repr

end GroundCore.Oisl
