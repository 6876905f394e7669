import GroundCore.Core.Types
import GroundCore.Lib.RwLock
import GroundCore.Oisl.Types

/-! The transmitters of the uplink.  Both kinds keep the same state and run the same code, under a
lock for the status and one for the current transmission. -/

namespace GroundCore.Uplink

open Lib
open Oisl (Uuid)

abbrev TransmissionId := Uuid

inductive TransmitterStatus
  | idle
  | transmitting
  | fault
  | disabled
  deriving DecidableEq, Repr

inductive TransmitterLock
  | status
  | currentTransmission
  deriving DecidableEq

structure Transmitter where
  status : TransmitterStatus
  currentTransmission : Option TransmissionId
  enabled : Bool
  deriving DecidableEq

namespace Transmitter

def new : Transmitter := { status := .idle, currentTransmission := none, enabled := false }

def transmit (t : Transmitter) (_data : List UInt8) (transmissionId : TransmissionId) :
    Guarded TransmitterLock (Transmitter × Result TransmissionId) := do
  if !t.enabled then
    return (t, .error (.hardware "Transmitter disabled"))
  Guarded.write .status
  if t.status ≠ .idle then
    Guarded.dropWrite .status
    return (t, .error (.hardware "Transmitter busy"))
  Guarded.dropWrite .status
  Guarded.write .currentTransmission
  Guarded.dropWrite .currentTransmission
  return ({ t with status := .transmitting, currentTransmission := some transmissionId },
    .ok transmissionId)

/-- Ends the transmission of an id.  The guard of the second line lives to the end, under the one
of the same name that shadows it. -/
def abort (t : Transmitter) (id : TransmissionId) :
    Guarded TransmitterLock (Transmitter × Result Unit) := do
  Guarded.read .currentTransmission
  if t.currentTransmission ≠ some id then
    Guarded.dropRead .currentTransmission
    return (t, .error (.notFound s!"Transmission {id.hyphenated}"))
  Guarded.write .status
  Guarded.write .currentTransmission
  Guarded.dropWrite .currentTransmission
  Guarded.dropWrite .status
  Guarded.dropRead .currentTransmission
  return ({ t with status := .idle, currentTransmission := none }, .ok ())

def getStatus (t : Transmitter) : Guarded TransmitterLock TransmitterStatus := do
  Guarded.read .status
  Guarded.dropRead .status
  return t.status

def enable (t : Transmitter) : Transmitter := { t with enabled := true }

def disable (t : Transmitter) : Transmitter := { t with enabled := false }

end Transmitter

namespace SdrTransmitter

def transmit := Transmitter.transmit

def abort := Transmitter.abort

end SdrTransmitter

namespace ModemTransmitter

def transmit := Transmitter.transmit

def abort := Transmitter.abort

end ModemTransmitter

namespace Transmitter

variable {t : Transmitter} {id : TransmissionId}

/-- A guard that lives for a line only is in no one's way. -/
theorem transmit_returns (t : Transmitter) (data : List UInt8) (transmissionId : TransmissionId) :
    ∃ result, (t.transmit data transmissionId).Returns result := by
  obtain ⟨status, currentTransmission, enabled⟩ := t
  unfold transmit
  cases enabled with
  | false => exact ⟨_, rfl⟩
  | true =>
    by_cases hidle : status = .idle
    · refine ⟨(⟨.transmitting, some transmissionId, true⟩, .ok transmissionId), ?_⟩
      rw [if_neg (not_not_intro hidle)]
      refine Guarded.returns_of_free rfl fun lock => ?_
      cases lock <;> rfl
    · refine ⟨(⟨status, currentTransmission, true⟩, .error (.hardware "Transmitter busy")), ?_⟩
      rw [if_pos hidle]
      refine Guarded.returns_of_free rfl fun lock => ?_
      cases lock <;> rfl

theorem getStatus_returns (t : Transmitter) : t.getStatus.Returns t.status := by
  refine Guarded.returns_of_free rfl fun lock => ?_
  cases lock <;> rfl

theorem abort_of_other (h : t.currentTransmission ≠ some id) :
    (t.abort id).Returns (t, .error (.notFound s!"Transmission {id.hyphenated}")) := by
  unfold abort
  rw [if_pos h]
  refine Guarded.returns_of_free rfl fun lock => ?_
  cases lock <;> rfl

/-- The guard for reading the current transmission is in the way of the one for writing it. -/
theorem abort_of_current (h : t.currentTransmission = some id) : (t.abort id).BlocksItself := by
  refine ⟨.currentTransmission, ?_⟩
  unfold abort
  rw [if_neg (not_not_intro h)]
  rfl

theorem abort_blocksItself_iff : (t.abort id).BlocksItself ↔ t.currentTransmission = some id := by
  refine ⟨fun hblocks => ?_, abort_of_current⟩
  by_cases h : t.currentTransmission = some id
  · exact h
  · exact absurd hblocks (abort_of_other h).not_blocksItself

end Transmitter

end GroundCore.Uplink
