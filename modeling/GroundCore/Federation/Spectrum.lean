import GroundCore.Federation.Verification
import GroundCore.Lib.FiniteFloat
import GroundCore.Lib.HashMap
import GroundCore.Oisl.Types

/-! Spectrum coordination between peers: a station sends its schedule, the peer answers with the
conflicts that it finds, and the station keeps these.  `clock` is the reading of the clock for each
conflict that is found. -/

namespace GroundCore.Federation

open Lib FloatOps
open Oisl (Uuid)

variable {F64 F32 : Type}

structure CoordinationBand (F64 : Type) where
  centerHz : F64
  bandwidthHz : F64
  polarization : String

structure PassScheduleEntry (F64 : Type) where
  entryId : Uuid
  stationId : String
  satelliteNoradId : ℕ
  band : CoordinationBand F64
  windowStart : DateTime
  windowEnd : DateTime
  maxEirpDbw : Option F64

structure SpectrumConflict (F64 : Type) where
  ourEntry : PassScheduleEntry F64
  peerEntry : PassScheduleEntry F64
  peerId : PeerId
  frequencyOverlapHz : F64
  timeOverlapS : ℤ
  severity : F64
  detectedAt : DateTime

structure CoordinationRequest (F64 : Type) where
  requestId : Uuid
  fromStation : String
  toStation : PeerId
  ourEntries : List (PassScheduleEntry F64)
  lookAheadHours : ℕ
  createdAt : DateTime

structure CoordinationResponse (F64 : Type) where
  requestId : Uuid
  fromStation : PeerId
  theirConflictingEntries : List (PassScheduleEntry F64)
  conflicts : List (SpectrumConflict F64)
  accepted : Bool
  respondedAt : DateTime

structure PeerCoordinationState (F64 : Type) where
  peerId : PeerId
  theirSchedule : List (PassScheduleEntry F64)
  activeConflicts : List (SpectrumConflict F64)
  lastExchange : Option DateTime
  successfulCoordinations : ℕ

structure SpectrumCoordinator (F64 : Type) where
  ourStationId : String
  peerState : HashMap PeerId (PeerCoordinationState F64)
  ourSchedule : List (PassScheduleEntry F64)
  exchangeInterval : Duration

abbrev ConflictClock (F64 : Type) := PassScheduleEntry F64 → PassScheduleEntry F64 → DateTime

namespace PassScheduleEntry

/-- `num_seconds` rounds toward zero. -/
def durationS (entry : PassScheduleEntry F64) : ℤ :=
  Int.tdiv (entry.windowEnd - entry.windowStart) (Duration.seconds 1)

def timeOverlap (entry other : PassScheduleEntry F64) : Bool :=
  decide (entry.windowStart < other.windowEnd) && decide (other.windowStart < entry.windowEnd)

def timeOverlapS (entry other : PassScheduleEntry F64) : ℤ :=
  if !entry.timeOverlap other then 0
  else
    let start : ℤ := max entry.windowStart other.windowStart
    let «end» : ℤ := min entry.windowEnd other.windowEnd
    Int.tdiv («end» - start) (Duration.seconds 1)

end PassScheduleEntry

def CoordinationRequest.new (requestId : Uuid) (fromStation : String) (toStation : PeerId)
    (entries : List (PassScheduleEntry F64)) (createdAt : DateTime) : CoordinationRequest F64 :=
  { requestId, fromStation, toStation, ourEntries := entries, lookAheadHours := 24, createdAt }

def PeerCoordinationState.new (peerId : PeerId) : PeerCoordinationState F64 :=
  { peerId, theirSchedule := [], activeConflicts := [], lastExchange := none
    successfulCoordinations := 0 }

section Conflicts

variable [FloatOps F64 F32]

def CoordinationBand.overlapHz (band other : CoordinationBand F64) : F64 :=
  let selfLo := band.centerHz - band.bandwidthHz / lit 2
  let selfHi := band.centerHz + band.bandwidthHz / lit 2
  let otherLo := other.centerHz - other.bandwidthHz / lit 2
  let otherHi := other.centerHz + other.bandwidthHz / lit 2
  fmax (fmin selfHi otherHi - fmax selfLo otherLo) (lit 0)

/-- The conflict between two entries, relative to the first of them. -/
def conflictBetween (peerId : PeerId) (clock : ConflictClock F64)
    (ours theirs : PassScheduleEntry F64) : Option (SpectrumConflict F64) :=
  if !ours.timeOverlap theirs then none
  else
    let freqOverlap := ours.band.overlapHz theirs.band
    if feq freqOverlap (lit 0) then none
    else
      let timeOverlap := ours.timeOverlapS theirs
      let freqFraction := freqOverlap / ours.band.bandwidthHz
      let timeFraction : F64 := lit timeOverlap / lit ((max ours.durationS 1 : ℤ) : ℚ)
      let severity := fmin (freqFraction * timeFraction) (lit 1)
      some { ourEntry := ours, peerEntry := theirs, peerId, frequencyOverlapHz := freqOverlap
             timeOverlapS := timeOverlap, severity, detectedAt := clock ours theirs }

def detectConflicts (ourEntries theirEntries : List (PassScheduleEntry F64)) (peerId : PeerId)
    (clock : ConflictClock F64) : List (SpectrumConflict F64) :=
  ourEntries.flatMap fun ours => theirEntries.filterMap fun theirs =>
    conflictBetween peerId clock ours theirs

end Conflicts

namespace SpectrumCoordinator

def new (stationId : String) : SpectrumCoordinator F64 :=
  { ourStationId := stationId, peerState := ∅, ourSchedule := []
    exchangeInterval := Duration.hours 2 }

def registerPeer (c : SpectrumCoordinator F64) (peer : FederationPeer F64) :
    SpectrumCoordinator F64 :=
  if peer.isTrusted then
    match c.peerState.get? peer.stationId with
    | some _ => c
    | none => { c with peerState := c.peerState.insert peer.stationId (.new peer.stationId) }
  else c

def updateOurSchedule (c : SpectrumCoordinator F64) (entries : List (PassScheduleEntry F64)) :
    SpectrumCoordinator F64 := { c with ourSchedule := entries }

def receiveResponse (c : SpectrumCoordinator F64) (response : CoordinationResponse F64)
    (now : DateTime) : SpectrumCoordinator F64 :=
  { c with peerState := c.peerState.modify response.fromStation fun state =>
      { state with
        activeConflicts := response.conflicts
        lastExchange := some now
        successfulCoordinations :=
          if response.accepted then state.successfulCoordinations + 1
          else state.successfulCoordinations } }

def buildRequest (c : SpectrumCoordinator F64) (peerId : PeerId) (requestId : Uuid)
    (createdAt : DateTime) : Option (CoordinationRequest F64) :=
  if (c.peerState.get? peerId).isSome then
    some (.new requestId c.ourStationId peerId c.ourSchedule createdAt)
  else none

variable [FloatOps F64 F32]

/-- The peers are visited in an order of the hash map's own. -/
def checkOurSchedule (c : SpectrumCoordinator F64)
    (ord : IterOrder (PeerId × PeerCoordinationState F64)) (clock : ConflictClock F64) :
    List (SpectrumConflict F64) :=
  (ord.order c.peerState.entries).flatMap fun peer =>
    detectConflicts c.ourSchedule peer.2.theirSchedule peer.1 clock

def receiveRequest (c : SpectrumCoordinator F64) (request : CoordinationRequest F64)
    (peer : FederationPeer F64) (now respondedAt : DateTime) (clock : ConflictClock F64) :
    SpectrumCoordinator F64 × CoordinationResponse F64 :=
  if !peer.isTrusted then
    (c, { requestId := request.requestId, fromStation := c.ourStationId
          theirConflictingEntries := [], conflicts := [], accepted := false, respondedAt })
  else
    let conflicts := detectConflicts c.ourSchedule request.ourEntries peer.stationId clock
    ({ c with peerState := c.peerState.modify peer.stationId fun state =>
        { state with theirSchedule := request.ourEntries, lastExchange := some now } },
      { requestId := request.requestId, fromStation := c.ourStationId
        theirConflictingEntries := conflicts.map (·.ourEntry), conflicts, accepted := true
        respondedAt })

end SpectrumCoordinator

end GroundCore.Federation
