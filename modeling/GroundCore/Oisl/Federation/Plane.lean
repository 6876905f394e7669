import Mathlib.Algebra.Order.Field.Rat
import Mathlib.Order.WithBot
import GroundCore.Lib.HashMap
import GroundCore.Oisl.Types
import GroundCore.Bitemporal.Timestamp

/-! The operators that the federation plane trusts, the links to their terminals, and the cache of
attestations.  Keys and hashes are left out: nothing reads them.

The control nodes of the federation plane and the binding of satellites to them, and its links
to the satellites of its peers.  A handoff request is a value that its caller holds: the plane has
no table of requests, and completing one checks only that the satellite is bound. -/

namespace GroundCore.Oisl.Federation

open Lib

abbrev OperatorId := String

abbrev LinkId := Uuid

/-- The `f64` of a score: `none` is NaN, and the infinities are the ends of the order. -/
structure TrustScore where
  value : Option (WithBot (WithTop ℚ))
  deriving DecidableEq

namespace TrustScore

def num (score : ℚ) : TrustScore := ⟨some (score : WithTop ℚ)⟩

/-- The comparison `self.0 < 0.5`, which is false of NaN. -/
def isLow (score : TrustScore) : Bool :=
  match score.value with
  | none => false
  | some value => value < ((1 / 2 : ℚ) : WithTop ℚ)

/-- The comparison `self.0 >= 0.5`, which is false of NaN. -/
def AtLeastHalf (score : TrustScore) : Prop :=
  ∃ value, score.value = some value ∧ ((1 / 2 : ℚ) : WithTop ℚ) ≤ value

theorem atLeastHalf_iff {score : TrustScore} :
    score.AtLeastHalf ↔ score.isLow = false ∧ score.value.isSome := by
  unfold AtLeastHalf isLow
  cases score.value with
  | none => simp
  | some value => simp

end TrustScore

structure FederationPolicy where
  allowsCrossOperatorLinks : Bool
  requiresAttestation : Bool
  maxConcurrentLinks : ℕ
  deriving DecidableEq

def FederationPolicy.default : FederationPolicy :=
  { allowsCrossOperatorLinks := true, requiresAttestation := true, maxConcurrentLinks := 10 }

structure FederationPeer where
  operatorId : OperatorId
  trustScore : TrustScore
  federationPolicy : FederationPolicy
  deriving DecidableEq

structure RevenueAgreement where
  localSharePercent : ℚ
  peerSharePercent : ℚ
  billingPeriodDays : ℕ
  agreementId : String

structure ProvenanceHop where
  operatorId : OperatorId
  satelliteId : SatelliteId
  timestamp : DateTime
  dataHash : String

structure ProvenanceChain where
  hops : List ProvenanceHop

def ProvenanceChain.new : ProvenanceChain := ⟨[]⟩

structure CrossOperatorLink where
  localTerminal : TerminalId
  peerTerminal : TerminalId
  peerOperator : OperatorId
  revenueSharing : RevenueAgreement
  dataProvenance : ProvenanceChain

structure AttestationRecord where
  operatorId : OperatorId
  attestedAt : DateTime
  expiresAt : DateTime

def AttestationRecord.isValid (record : AttestationRecord) (now : DateTime) : Bool :=
  now < record.expiresAt

structure AttestationEngine where
  attestationCache : HashMap OperatorId AttestationRecord

/-- The readings of the clock in an attestation. -/
structure AttestationClock where
  checked : DateTime
  attested : DateTime
  expires : DateTime

namespace AttestationEngine

def new : AttestationEngine := ⟨∅⟩

/-- The record of a peer, from the cache or new.  No branch of the source returns an error. -/
def attestPeer (engine : AttestationEngine) (operatorId : OperatorId) (clock : AttestationClock) :
    AttestationEngine × AttestationRecord :=
  let fresh : AttestationRecord :=
    { operatorId, attestedAt := clock.attested, expiresAt := clock.expires + Duration.hours 24 }
  let attested := (⟨engine.attestationCache.insert operatorId fresh⟩, fresh)
  match engine.attestationCache.get? operatorId with
  | none => attested
  | some record => if record.isValid clock.checked then (engine, record) else attested

end AttestationEngine

open Bitemporal

structure ControlNode where
  nodeId : NodeId
  activeSatellites : List SatelliteId
  maxSatellites : ℕ
  deriving DecidableEq, Repr

inductive ControlPlaneBindingState
  | bound
  | binding
  | releasing
  | released
  deriving DecidableEq, Repr

structure HandoverRecord where
  fromNode : NodeId
  toNode : NodeId
  handoverAt : BiTemporal DateTime
  durationMs : Option UInt64
  deriving DecidableEq, Repr

structure ControlPlaneBinding where
  satelliteId : SatelliteId
  controlNodeId : NodeId
  state : ControlPlaneBindingState
  boundAt : BiTemporal DateTime
  handoverHistory : List HandoverRecord
  deriving DecidableEq, Repr

inductive HandoffStatus
  | pending
  | processing
  | finished
  | failed
  deriving DecidableEq, Repr

structure HandoffRequest where
  requestId : Uuid
  satelliteId : SatelliteId
  sourceControlNodeId : NodeId
  targetControlNodeId : NodeId
  status : HandoffStatus
  createdAt : DateTime
  completedAt : Option DateTime
  deriving DecidableEq, Repr

inductive FederationError
  | peerNotFound (operatorId : OperatorId)
  | insufficientTrust (operatorId : OperatorId) (trustScore : TrustScore)
  | policyViolation (operatorId : OperatorId) (reason : String)
  | controlNodeNotFound (nodeId : NodeId)
  | satelliteNotBound (satelliteId : SatelliteId)
  deriving DecidableEq

structure FederationPlane where
  federationPeers : HashMap OperatorId FederationPeer
  crossOperatorLinks : List CrossOperatorLink
  attestationEngine : AttestationEngine
  controlNodes : HashMap NodeId ControlNode
  satelliteBindings : HashMap SatelliteId ControlPlaneBinding

namespace FederationPlane

def new : FederationPlane := ⟨∅, [], .new, ∅, ∅⟩

def addControlNode (plane : FederationPlane) (controlNode : ControlNode) : FederationPlane :=
  { plane with controlNodes := plane.controlNodes.insert controlNode.nodeId controlNode }

/-- Whether a control node is known to the plane. -/
def hasControlNode (plane : FederationPlane) (nodeId : NodeId) : Bool :=
  (plane.controlNodes.get? nodeId).isSome

def bindSatellite (plane : FederationPlane) (satelliteId : SatelliteId) (controlNodeId : NodeId)
    (boundAt : BiTemporal DateTime) : FederationPlane × Except FederationError Unit :=
  if !plane.hasControlNode controlNodeId then (plane, .error (.controlNodeNotFound controlNodeId))
  else
    let binding : ControlPlaneBinding :=
      { satelliteId, controlNodeId, state := .bound, boundAt, handoverHistory := [] }
    ({ plane with satelliteBindings := plane.satelliteBindings.insert satelliteId binding }, .ok ())

def initiateHandoff (plane : FederationPlane) (satelliteId : SatelliteId)
    (targetControlNodeId : NodeId) (requestId : Uuid) (now : DateTime) :
    FederationPlane × Except FederationError HandoffRequest :=
  if !plane.hasControlNode targetControlNodeId then
    (plane, .error (.controlNodeNotFound targetControlNodeId))
  else
    match plane.satelliteBindings.get? satelliteId with
    | none => (plane, .error (.satelliteNotBound satelliteId))
    | some binding =>
      let request : HandoffRequest :=
        { requestId, satelliteId, sourceControlNodeId := binding.controlNodeId,
          targetControlNodeId, status := .pending, createdAt := now, completedAt := none }
      ({ plane with
        satelliteBindings := plane.satelliteBindings.insert satelliteId
          { binding with state := .binding } }, .ok request)

/-- The milliseconds between two times, as the bits of an `i64`. -/
def durationMs (start finish : DateTime) : UInt64 :=
  (Int64.ofInt ((finish - start).tdiv 1000000)).toUInt64

/-- Completes a handoff.  Of the request only the target and the times are read. -/
def completeHandoff (plane : FederationPlane) (satelliteId : SatelliteId)
    (request : HandoffRequest) (handoverAt boundAt : BiTemporal DateTime) :
    FederationPlane × Except FederationError Unit :=
  match plane.satelliteBindings.get? satelliteId with
  | none => (plane, .error (.satelliteNotBound satelliteId))
  | some binding =>
    let handoverRecord : HandoverRecord :=
      { fromNode := binding.controlNodeId
        toNode := request.targetControlNodeId
        handoverAt
        durationMs := request.completedAt.map (durationMs request.createdAt) }
    ({ plane with
      satelliteBindings := plane.satelliteBindings.insert satelliteId
        { binding with
          controlNodeId := request.targetControlNodeId
          state := .bound
          boundAt
          handoverHistory := binding.handoverHistory ++ [handoverRecord] } }, .ok ())

def getSatelliteControlNode (plane : FederationPlane) (satelliteId : SatelliteId) :
    Option NodeId :=
  (plane.satelliteBindings.get? satelliteId).map (·.controlNodeId)

def addPeer (plane : FederationPlane) (peer : FederationPeer) : FederationPlane :=
  { plane with federationPeers := plane.federationPeers.insert peer.operatorId peer }

/-- Adds a link to a terminal of a peer.  Attesting the peer does not fail. -/
def establishLink (plane : FederationPlane) (localTerminal peerTerminal : TerminalId)
    (peerOperator : OperatorId) (agreement : RevenueAgreement) (clock : AttestationClock)
    (linkId : LinkId) : FederationPlane × Except FederationError LinkId :=
  match plane.federationPeers.get? peerOperator with
  | none => (plane, .error (.peerNotFound peerOperator))
  | some peer =>
    if peer.trustScore.isLow then
      (plane, .error (.insufficientTrust peerOperator peer.trustScore))
    else if !peer.federationPolicy.allowsCrossOperatorLinks then
      (plane, .error (.policyViolation peerOperator
        "Peer policy does not allow cross-operator links"))
    else
      let (attestationEngine, _) := plane.attestationEngine.attestPeer peerOperator clock
      let link : CrossOperatorLink :=
        { localTerminal, peerTerminal, peerOperator, revenueSharing := agreement,
          dataProvenance := .new }
      ({ plane with
        attestationEngine
        crossOperatorLinks := plane.crossOperatorLinks ++ [link] }, .ok linkId)

end FederationPlane

end GroundCore.Oisl.Federation
