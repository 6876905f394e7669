import GroundCore.Optical.Attestation.LinkProof
import GroundCore.Optical.Pat.Scheduler

/-! Attestations of an acquisition and of the tracking that follows it.  The proof of the tracking
is attached after the signature was made. -/

namespace GroundCore.Optical.Attestation

open Bitemporal Lib FloatOps

inductive LossReason
  | patTimeout
  | signalDegraded
  | powerLoss
  | mechanicalFailure
  | clockDesync
  | atmosphericTurbulence
  | pointingDrift
  | unknown
  deriving DecidableEq

inductive SearchPattern (F64 : Type)
  | spiral (initialRadiusUrad spiralPitchUrad maxRadiusUrad scanRateUradPerSec : F64)
  | raster (widthUrad heightUrad lineSpacingUrad : F64)
  | lissajous (amplitudeXUrad amplitudeYUrad frequencyRatio : F64)

structure SearchState (F64 : Type) where
  pattern : SearchPattern F64
  currentAngleXUrad : F64
  currentAngleYUrad : F64
  stepsCompleted : UInt32
  beaconDetected : Bool
  detectionConfidence : F64

/-- All the phases that a result may name; the coordinator's own are those that its calls reach. -/
inductive PatPhase (F64 : Type)
  | idle
  | scheduled (acquisitionId : Uuid) (startsAt : DateTime)
  | coarseAcquisition (searchState : SearchState F64)
  | fineAcquisition (trackingQuality : F64)
  | tracking (metrics : Pat.TrackingMetrics F64)
  | lost (reason : LossReason) (since : DateTime)

inductive AcquisitionResult (F64 : Type)
  | success (establishedAt : DateTime) (finalMetrics : Pat.TrackingMetrics F64)
  | failed (reason : LossReason) (atPhase : PatPhase F64)
  | timeout (elapsed : Duration)

@[ext]
structure AcquisitionProof (F64 : Type) where
  planId : Uuid
  startTime : BiTemporal DateTime
  endTime : BiTemporal DateTime
  result : AcquisitionResult F64
  pointingVectors : String × String
  searchPatternUsed : String

structure TrackingProof (F64 : Type) where
  trackingId : Uuid
  startTime : BiTemporal DateTime
  endTime : BiTemporal DateTime
  durationSeconds : F64
  averagePointingErrorUrad : F64
  averageSnrDb : F64
  lockConfidence : F64

structure PatAttestation (F64 : Type) where
  attestationId : AttestationId
  acquisitionId : Uuid
  acquisitionProof : AcquisitionProof F64
  trackingProof : Option (TrackingProof F64)
  hash : Hash
  signature : Signature
  signerPublicKey : String

variable {F64 F32 : Type}

def AcquisitionProof.new (planId : Uuid) (result : AcquisitionResult F64)
    (searchPatternUsed : String) (now : DateTime) : AcquisitionProof F64 :=
  { planId, startTime := ⟨now, ⟨now⟩, ⟨now⟩⟩, endTime := ⟨now, ⟨now⟩, ⟨now⟩⟩, result
    pointingVectors := ("\x7b\x7d", "\x7b\x7d"), searchPatternUsed }

namespace TrackingProof

/-- The times come from readings of the clock of their own. -/
def new [FloatOps F64 F32] (trackingId : Uuid) (startTime endTime : BiTemporal DateTime) :
    TrackingProof F64 :=
  { trackingId, startTime, endTime, durationSeconds := lit 0, averagePointingErrorUrad := lit 0
    averageSnrDb := lit 0, lockConfidence := lit 0 }

def withMetrics (p : TrackingProof F64) (durationSeconds averagePointingErrorUrad averageSnrDb
    lockConfidence : F64) : TrackingProof F64 :=
  { p with durationSeconds, averagePointingErrorUrad, averageSnrDb, lockConfidence }

end TrackingProof

namespace PatAttestation

variable (crypto : Crypto)

/-- The bytes that are hashed. -/
def hashedBytes (acquisitionId : Uuid) (acquisitionProof : AcquisitionProof F64) : List UInt8 :=
  acquisitionId.asBytes ++ acquisitionProof.planId.asBytes ++
    utf8 acquisitionProof.searchPatternUsed

def new (acquisitionId : Uuid) (acquisitionProof : AcquisitionProof F64)
    (keypairBytes : Bytes 64) (attestationId : Uuid) :
    Option (PatAttestation F64) :=
  let hashBytes := crypto.sha256 (hashedBytes acquisitionId acquisitionProof)
  (signEphemeral crypto keypairBytes hashBytes).map fun (signature, signerPublicKey) =>
    { attestationId, acquisitionId, acquisitionProof, trackingProof := none
      hash := ⟨hexLower hashBytes⟩, signature, signerPublicKey }

def withTrackingProof (a : PatAttestation F64) (trackingProof : TrackingProof F64) :
    PatAttestation F64 :=
  { a with trackingProof := some trackingProof }

def verify (a : PatAttestation F64) : Bool :=
  checkSignature crypto a.signerPublicKey a.signature
    (crypto.sha256 (hashedBytes a.acquisitionId a.acquisitionProof))

end PatAttestation

end GroundCore.Optical.Attestation
