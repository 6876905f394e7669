import Mathlib.Data.List.Sort
import GroundCore.Bitemporal.Timestamp
import GroundCore.Lib.Chain
import GroundCore.Lib.HashMap
import GroundCore.Lib.Sha256

/-! The bitemporal log.  The entries' data are values of the JSON library, which is not modelled:
`Serializer` is what the hashes use of it, together with the hash function.

Snapshots of the log.  The hash of a snapshot is over the hashes that the entries store, so what
`verify` finds out about the entries is what those hashes tell. -/

namespace GroundCore.Bitemporal

open Lib

/-- The bit pattern of an `f32`. -/
abbrev F32Bits := UInt32

inductive LogEntryType
  | sampleReceived (sampleId frequency : UInt64) (snr : F32Bits)
  | demodulatorStateChange (carrierLocked symbolSync : Bool)
  | hardwareAllocation (deviceId hardwareType : String)
  | hardwareRelease (deviceId : String)
  | passStarted (satelliteId : String) (expectedDurationSec : UInt64)
  | passCompleted (samplesReceived bytesDecoded : UInt64)
  | passFailed (reason : String)
  | shadowPromoted (fromDevice toDevice : String)
  | schedulerDecision (decisionType rationale : String)
  | federationEvent (peerStation eventType : String)
  | error (errorType message : String)
  deriving DecidableEq, Repr

/-- SHA-256, and the texts that `serde_json::to_string` gives. -/
structure Serializer (Value : Type) where
  sha256 : List UInt8 → List UInt8
  entryType : LogEntryType → String
  time : DateTime → String
  value : Value → String

variable {Value : Type}

structure LogEntry (Value : Type) where
  entryId : String
  passId : PassId
  entryType : LogEntryType
  eventTime : EventTime
  receptionTime : ReceptionTime
  data : Value
  hash : String
  previousHash : Option String

namespace LogEntry

variable (ser : Serializer Value)

def computeHash (entryId : String) (passId : PassId) (entryType : LogEntryType)
    (eventTime : EventTime) (receptionTime : ReceptionTime) (data : Value)
    (previousHash : Option String) : String :=
  let text := entryId ++ passId ++ ser.entryType entryType ++ ser.time eventTime.time ++
    ser.time receptionTime.time ++ ser.value data ++ previousHash.getD ""
  hexLower (ser.sha256 text.toUTF8.toList)

def new (entryId : String) (passId : PassId) (entryType : LogEntryType) (eventTime : EventTime)
    (receptionTime : ReceptionTime) (data : Value) (previousHash : Option String) :
    LogEntry Value :=
  { entryId
    passId
    entryType
    eventTime
    receptionTime
    data
    hash := computeHash ser entryId passId entryType eventTime receptionTime data previousHash
    previousHash }

def verify (entry : LogEntry Value) : Bool :=
  computeHash ser entry.entryId entry.passId entry.entryType entry.eventTime entry.receptionTime
    entry.data entry.previousHash == entry.hash

@[simp] theorem verify_new (entryId : String) (passId : PassId) (entryType : LogEntryType)
    (eventTime : EventTime) (receptionTime : ReceptionTime) (data : Value)
    (previousHash : Option String) :
    (new ser entryId passId entryType eventTime receptionTime data previousHash).verify ser :=
  beq_self_eq_true _

end LogEntry

structure BitemporalLog (Value : Type) where
  entries : HashMap String (LogEntry Value)
  passEntries : HashMap PassId (List String)
  latestHash : Option String

namespace BitemporalLog

def new : BitemporalLog Value := ⟨∅, ∅, none⟩

/-- Whether an entry continues the chain; anything does if there is no entry yet. -/
def continues (log : BitemporalLog Value) (entry : LogEntry Value) : Bool :=
  match log.latestHash with
  | none => true
  | some latest => entry.previousHash = some latest

def append (ser : Serializer Value) (log : BitemporalLog Value) (entry : LogEntry Value) :
    BitemporalLog Value × Result Unit :=
  if !entry.verify ser then (log, .error (.database "Log entry verification failed"))
  else if !log.continues entry then (log, .error (.database "Log chain integrity broken"))
  else
    ({ entries := log.entries.insert entry.entryId entry
       passEntries := log.passEntries.insert entry.passId
         ((log.passEntries.get? entry.passId).getD [] ++ [entry.entryId])
       latestHash := some entry.hash }, .ok ())

def get (log : BitemporalLog Value) (entryId : String) : Option (LogEntry Value) :=
  log.entries.get? entryId

def getPassEntries (log : BitemporalLog Value) (passId : PassId) : List (LogEntry Value) :=
  match log.passEntries.get? passId with
  | none => []
  | some ids => ids.filterMap log.entries.get?

/-- The loop of `verify_chain`. -/
def verifyFrom (ser : Serializer Value) : Option String → List (LogEntry Value) → Bool
  | _, [] => true
  | previousHash, entry :: entries =>
    if entry.previousHash ≠ previousHash then false
    else if !entry.verify ser then false
    else verifyFrom ser (some entry.hash) entries

abbrev ReceivedBy (a b : LogEntry Value) : Prop := a.receptionTime.time ≤ b.receptionTime.time

/-- The check of the whole chain.  The sort by reception time is stable: entries received at one
time stay in the order in which the map of entries is iterated. -/
def verifyChain (ser : Serializer Value) (order : IterOrder (String × LogEntry Value))
    (log : BitemporalLog Value) : Bool :=
  verifyFrom ser none
    (((order.order log.entries.entries).map Prod.snd).insertionSort ReceivedBy)

end BitemporalLog

structure SnapshotMetadata where
  entryCount : ℕ
  timeRange : DateTime × DateTime
  passIds : List String
  hash : String

structure LogSnapshot (Value : Type) where
  snapshotId : String
  capturedAt : ReceptionTime
  entries : List (LogEntry Value)
  metadata : SnapshotMetadata

/-- What a snapshot takes from its surroundings: its id, readings of the clock, and the order of the
set of the pass ids. -/
structure SnapshotInputs where
  snapshotId : String
  capturedAt : ReceptionTime
  emptyRange : DateTime × DateTime
  passOrder : IterOrder PassId

variable {Value : Type}

namespace LogSnapshot

variable (sha256 : List UInt8 → List UInt8)

/-- The hashes that the entries store, one after the other. -/
def storedHashes (entries : List (LogEntry Value)) : String := String.join (entries.map (·.hash))

def computeHash (entries : List (LogEntry Value)) : String :=
  hexLower (sha256 (storedHashes entries).toUTF8.toList)

def new (inputs : SnapshotInputs) (entries : List (LogEntry Value)) : LogSnapshot Value :=
  let timeRange := match entries.head?, entries.getLast? with
    | some first, some last => (first.receptionTime.time, last.receptionTime.time)
    | _, _ => inputs.emptyRange
  let passIds := inputs.passOrder.order (entries.map (·.passId)).dedup
  { snapshotId := inputs.snapshotId
    capturedAt := inputs.capturedAt
    entries
    metadata :=
      { entryCount := entries.length, timeRange, passIds, hash := computeHash sha256 entries } }

def verify (snapshot : LogSnapshot Value) : Bool :=
  computeHash sha256 snapshot.entries == snapshot.metadata.hash

/-- The snapshot with its entries altered and its metadata kept. -/
def withEntries (snapshot : LogSnapshot Value) (entries : List (LogEntry Value)) :
    LogSnapshot Value :=
  { snapshot with entries }

variable {sha256} {inputs : SnapshotInputs} {entries altered : List (LogEntry Value)}

theorem verify_withEntries_new (h : storedHashes altered = storedHashes entries) :
    ((new sha256 inputs entries).withEntries altered).verify sha256 = true := by
  show (computeHash sha256 altered == computeHash sha256 entries) = true
  rw [beq_iff_eq, computeHash, computeHash, h]

/-- Altered entries are noticed when their hashes make another text, of another hash. -/
theorem verify_withEntries_new_iff
    (h : sha256 (storedHashes altered).toUTF8.toList = sha256 (storedHashes entries).toUTF8.toList →
      (storedHashes altered).toUTF8.toList = (storedHashes entries).toUTF8.toList) :
    ((new sha256 inputs entries).withEntries altered).verify sha256 = false ↔
      storedHashes altered ≠ storedHashes entries := by
  show (computeHash sha256 altered == computeHash sha256 entries) = false ↔ _
  rw [beq_eq_false_iff_ne, not_iff_not, computeHash, computeHash, hexLower_inj]
  exact ⟨fun hhash => toUTF8_toList_inj.mp (h hhash), fun htext => by rw [htext]⟩

/-- One altered entry is noticed by the hash that it stores, and by nothing else. -/
theorem storedHashes_set {i : ℕ} (hi : i < entries.length) (entry : LogEntry Value) :
    storedHashes (entries.set i entry) = storedHashes entries ↔ entry.hash = entries[i].hash := by
  have hsplit : ∀ e : LogEntry Value, storedHashes (entries.set i e) =
      storedHashes (entries.take i) ++ (e.hash ++ storedHashes (entries.drop (i + 1))) := by
    intro e
    simp only [storedHashes, List.set_eq_take_append_cons_drop, if_pos hi, List.map_append,
      List.map_cons, String.join_append, String.join_cons]
  have hself : storedHashes entries = storedHashes (entries.set i entries[i]) := by
    rw [List.set_getElem_self]
  rw [hself, hsplit, hsplit, String.append_right_inj, String.append_left_inj]

end LogSnapshot

end GroundCore.Bitemporal
