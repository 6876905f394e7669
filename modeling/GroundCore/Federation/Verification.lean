import Mathlib.Data.Nat.Notation
import GroundCore.Core.Types
import GroundCore.Federation.Attestation
import GroundCore.Lib.FloatOps

/-! The peers of a federation, and the comparison of a peer's attestation with what was captured
here. -/

namespace GroundCore.Federation

abbrev PeerId := StationId

inductive PeerStatus
  | trusted
  | untrusted
  | suspicious
  | blacklisted
  deriving DecidableEq, Repr

structure VerificationResult (F64 : Type) where
  passed : Bool
  matchRate : F64
  bitemporalConsistency : Bool
  details : String

structure AttestationRecord (F64 : Type) where
  passId : PassId
  receivedAt : DateTime
  verification : VerificationResult F64

structure FederationPeer (F64 : Type) where
  stationId : PeerId
  publicKey : String
  attestationHistory : List (AttestationRecord F64)
  trustScore : F64
  status : PeerStatus
  addedAt : DateTime
  lastVerification : Option DateTime
  totalAttestations : ℕ

def FederationPeer.isTrusted {F64 : Type} (peer : FederationPeer F64) : Bool :=
  decide (peer.status = .trusted)

open Lib FloatOps

variable {F64 F32 : Type} [FloatOps F64 F32]

def maxPassDurationSecs : ℤ := 1200

def minSampleCount : ℕ := 1

def maxBitemporalDriftMs : ℤ := 5000

structure AttestationVerification (F64 : Type) where
  passId : PassId
  localCapture : Option String
  peerCapture : String
  bytewiseMatchRate : F64
  bitemporalConsistency : Bool
  passed : Bool
  details : String

namespace AttestationVerification

/-- The share of the places at which two lists agree, of all the places of the longer one. -/
def matchRate {α : Type} [DecidableEq α] (a b : List α) : F64 :=
  let len := max a.length b.length
  let matching := (a.zip b).countP fun pair => decide (pair.1 = pair.2)
  lit matching / lit len

def charMatchRate (a b : String) : F64 :=
  let len := max a.toList.length b.toList.length
  if len = 0 then lit 1 else matchRate a.toList b.toList

/-- Captures that are no hexadecimal digits are compared by their characters. -/
def computeMatchRate (crypto : Crypto) («local» peer : String) : F64 :=
  if «local» = peer then lit 1
  else
    match crypto.hexDecode «local» with
    | .error _ => charMatchRate «local» peer
    | .ok localBytes =>
      match crypto.hexDecode peer with
      | .error _ => charMatchRate «local» peer
      | .ok peerBytes =>
        if localBytes.isEmpty || peerBytes.isEmpty then lit 0 else matchRate localBytes peerBytes

def proofInternallyConsistent (proof : BitemporalProof) : Bool :=
  let duration := Int.tdiv (proof.lastEventTime - proof.firstEventTime) (Duration.seconds 1)
  let receptionSpan :=
    Int.tdiv (proof.lastReceptionTime - proof.firstReceptionTime) (Duration.seconds 1)
  decide (duration ≥ 0) && decide (receptionSpan ≥ 0) &&
    decide (proof.firstReceptionTime ≥ proof.firstEventTime) &&
    decide (duration ≤ maxPassDurationSecs) && decide (proof.sampleCount ≥ minSampleCount)

/-- Without a proof of our own, the peer's is enough; with one, the windows of the events have to
overlap. -/
def checkBitemporalConsistency (peerProof localProof : Option BitemporalProof) : Bool :=
  match peerProof with
  | none => false
  | some peer =>
    if !proofInternallyConsistent peer then false
    else
      match localProof with
      | none => true
      | some «local» =>
        let drift := Duration.milliseconds maxBitemporalDriftMs
        let peerStart := peer.firstEventTime - drift
        let peerEnd := peer.lastEventTime + drift
        let localStart := «local».firstEventTime
        let localEnd := «local».lastEventTime
        !(decide (peerEnd < localStart) || decide (localEnd < peerStart))

/-- `percent` prints a number with one digit after the point. -/
def new (crypto : Crypto) (percent : F64 → String) (passId : PassId)
    (localCapture : Option String) (peerCapture : String)
    (peerProof localProof : Option BitemporalProof) : AttestationVerification F64 :=
  let (rate, bitemporalConsistency) : F64 × Bool :=
    match localCapture with
    | some «local» =>
      (computeMatchRate crypto «local» peerCapture,
        checkBitemporalConsistency peerProof localProof)
    | none => (lit 0, (peerProof.map proofInternallyConsistent).getD false)
  let passed := lt (lit 0.95) rate && bitemporalConsistency
  let details :=
    if passed then
      "Verification passed: " ++ percent (rate * lit 100) ++ "% byte match, bitemporal OK"
    else
      "Verification failed: " ++ percent (rate * lit 100) ++ "% byte match, bitemporal=" ++
        toString bitemporalConsistency
  { passId, localCapture, peerCapture, bytewiseMatchRate := rate, bitemporalConsistency, passed,
    details }

end AttestationVerification

/-- The peer plays no part in the comparison. -/
def crossVerifyAttestation (crypto : Crypto) (percent : F64 → String) (_peer : FederationPeer F64)
    (a : Attestation) (localCapture : Option String) (localProof : Option BitemporalProof) :
    AttestationVerification F64 :=
  AttestationVerification.new crypto percent a.passId localCapture a.dataHash
    (some a.bitemporalProof) localProof

/-- The record that a verification leaves with a peer; `now` is the reading of the clock. -/
def recordOf (verification : AttestationVerification F64) (now : DateTime) :
    AttestationRecord F64 :=
  { passId := verification.passId, receivedAt := now
    verification :=
      { passed := verification.passed, matchRate := verification.bytewiseMatchRate
        bitemporalConsistency := verification.bitemporalConsistency
        details := verification.details } }

end GroundCore.Federation
