import GroundCore.Core.Types

/-! The two times of an event: when the satellite emitted it, and when the ground received it. -/

namespace GroundCore.Bitemporal

structure EventTime where
  time : DateTime
  deriving DecidableEq, Repr

structure ReceptionTime where
  time : DateTime
  deriving DecidableEq, Repr

/-- A value with its two times. -/
structure BiTemporal (T : Type) where
  value : T
  eventTime : EventTime
  receptionTime : ReceptionTime
  deriving DecidableEq, Repr

/-- A value received now. -/
def BiTemporal.withCurrentReception {T : Type} (value : T) (eventTime : EventTime)
    (now : DateTime) : BiTemporal T :=
  { value, eventTime, receptionTime := ⟨now⟩ }

def BiTemporal.propagationDelay {T : Type} (b : BiTemporal T) : Duration :=
  b.receptionTime.time - b.eventTime.time

end GroundCore.Bitemporal
