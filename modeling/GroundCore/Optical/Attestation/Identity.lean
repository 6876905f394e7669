import GroundCore.Lib.HashMap
import GroundCore.Optical.Attestation.LinkProof

/-! Certificates of control nodes.  A manager signs them with one shared key pair, and hands out
what it has issued together with a root certificate. -/

namespace GroundCore.Optical.Attestation

open Lib

/-- The functions of other crates that certificates use besides: keys as bytes, the text of an
error, and the text of a time. -/
structure CertificateCrypto extends Crypto where
  signingKeyToBytes : SigningKey → Bytes 32
  signingKeyFromBytes : Bytes 32 → SigningKey
  fromBytesError : String
  toRfc3339 : DateTime → String

/-- A key is read back from its bytes. -/
structure CertificateCrypto.Lawful (crypto : CertificateCrypto) : Prop where
  signingKey : ∀ key, crypto.signingKeyFromBytes (crypto.signingKeyToBytes key) = key
  verifyingKey : ∀ key, crypto.fromBytes (crypto.asBytes key) = some key

/-- `chrono::Duration::days` of a `u64` that is cast to `i64`. -/
def validity (validityDays : UInt64) : Duration := Duration.hours (24 * validityDays.toInt64.toInt)

structure IdentityCertificate where
  certificateId : Uuid
  issuedAt : DateTime
  expiresAt : DateTime
  issuer : String
  subject : String
  signature : String
  signerPublicKey : String
  deriving DecidableEq

structure ControlPlaneKeyPair where
  keyPairId : Uuid
  publicKey : List UInt8
  privateKey : List UInt8
  createdAt : DateTime
  expiresAt : DateTime
  deriving DecidableEq

structure PreloadedCertificates where
  rootCertificate : IdentityCertificate
  controlNodeCertificates : HashMap String IdentityCertificate
  loadedAt : DateTime

structure ControlPlaneCertificateManager where
  sharedKeyPair : Option ControlPlaneKeyPair
  issuedCertificates : HashMap String IdentityCertificate

inductive CertificateError
  | keyPairNotInitialized
  | keyPairExpired
  | certificateNotFound (nodeId : String)
  | validationFailed (message : String)
  deriving DecidableEq

variable (crypto : CertificateCrypto)

namespace IdentityCertificate

/-- `now` is the reading of the clock, as in what follows, and the identifier a fresh one. -/
def signedBy (issuer subject : String) (validityDays : UInt64)
    (keypair : crypto.SigningKey × crypto.VerifyingKey) (now : DateTime) (certificateId : Uuid) :
    IdentityCertificate :=
  let expiresAt := now + validity validityDays
  let hashBytes := crypto.sha256 (certificateId.asBytes ++ utf8 issuer ++ utf8 subject ++
    utf8 (crypto.toRfc3339 now) ++ utf8 (crypto.toRfc3339 expiresAt))
  { certificateId, issuedAt := now, expiresAt, issuer, subject
    signature := hexLower (crypto.toBytes (crypto.sign keypair.1 hashBytes)).1
    signerPublicKey := hexLower (crypto.asBytes keypair.2).1 }

/-- No result when the random bytes are no key pair, where the source panics. -/
def new (issuer subject : String) (validityDays : UInt64) (keypairBytes : Bytes 64)
    (now : DateTime) (certificateId : Uuid) : Option IdentityCertificate :=
  (crypto.fromKeypairBytes keypairBytes).map fun signingKey =>
    signedBy crypto issuer subject validityDays (signingKey, crypto.verifyingKey signingKey) now
      certificateId

def isValid (c : IdentityCertificate) (now : DateTime) : Bool :=
  decide (c.issuedAt ≤ now) && decide (now < c.expiresAt)

def isExpired (c : IdentityCertificate) (now : DateTime) : Bool := decide (c.expiresAt ≤ now)

end IdentityCertificate

namespace ControlPlaneKeyPair

def new (validityDays : UInt64) (keypairBytes : Bytes 64) (now : DateTime) (keyPairId : Uuid) :
    Option ControlPlaneKeyPair :=
  (crypto.fromKeypairBytes keypairBytes).map fun signingKey =>
    { keyPairId, publicKey := (crypto.asBytes (crypto.verifyingKey signingKey)).1
      privateKey := (crypto.signingKeyToBytes signingKey).1
      createdAt := now, expiresAt := now + validity validityDays }

def isValid (p : ControlPlaneKeyPair) (now : DateTime) : Bool := decide (now < p.expiresAt)

end ControlPlaneKeyPair

namespace PreloadedCertificates

def new (rootCertificate : IdentityCertificate) (now : DateTime) : PreloadedCertificates :=
  { rootCertificate, controlNodeCertificates := ∅, loadedAt := now }

def addControlNodeCertificate (p : PreloadedCertificates) (nodeId : String)
    (certificate : IdentityCertificate) : PreloadedCertificates :=
  { p with controlNodeCertificates := p.controlNodeCertificates.insert nodeId certificate }

def getControlNodeCertificate (p : PreloadedCertificates) (nodeId : String) :
    Option IdentityCertificate :=
  p.controlNodeCertificates.get? nodeId

/-- Every certificate reads the clock; `now` gives the readings. -/
def validateAll (p : PreloadedCertificates) (now : IdentityCertificate → DateTime) : Bool :=
  if !p.rootCertificate.isValid (now p.rootCertificate) then false
  else p.controlNodeCertificates.values.all fun cert => cert.isValid (now cert)

def isStale (p : PreloadedCertificates) (now : DateTime) : Bool :=
  decide (Duration.hours 24 < now - p.loadedAt)

end PreloadedCertificates

namespace ControlPlaneCertificateManager

def new : ControlPlaneCertificateManager := { sharedKeyPair := none, issuedCertificates := ∅ }

def initializeSharedKeyPair (m : ControlPlaneCertificateManager) (validityDays : UInt64)
    (keypairBytes : Bytes 64) (now : DateTime) (keyPairId : Uuid) :
    Option ControlPlaneCertificateManager :=
  (ControlPlaneKeyPair.new crypto validityDays keypairBytes now keyPairId).map fun keyPair =>
    { m with sharedKeyPair := some keyPair }

/-- The signing and the verifying key, read back from the bytes of the pair. -/
def readKeypair (keyPair : ControlPlaneKeyPair) :
    Except CertificateError (crypto.SigningKey × crypto.VerifyingKey) :=
  if hprivate : keyPair.privateKey.length = 32 then
    let signingKey := crypto.signingKeyFromBytes ⟨keyPair.privateKey, hprivate⟩
    if hpublic : keyPair.publicKey.length = 32 then
      match crypto.fromBytes ⟨keyPair.publicKey, hpublic⟩ with
      | none => .error (.validationFailed crypto.fromBytesError)
      | some verifyingKey => .ok (signingKey, verifyingKey)
    else .error (.validationFailed "Invalid public key length")
  else .error (.validationFailed "Invalid private key length")

/-- `checkedAt` and `now` are the readings of the clock when the pair is checked and when the
certificate is signed. -/
def issueControlNodeCertificate (m : ControlPlaneCertificateManager) (nodeId subject : String)
    (validityDays : UInt64) (checkedAt now : DateTime) (certificateId : Uuid) :
    ControlPlaneCertificateManager × Except CertificateError IdentityCertificate :=
  match m.sharedKeyPair with
  | none => (m, .error .keyPairNotInitialized)
  | some keyPair =>
    if !keyPair.isValid checkedAt then (m, .error .keyPairExpired)
    else
      match readKeypair crypto keyPair with
      | .error e => (m, .error e)
      | .ok keypair =>
        let certificate := IdentityCertificate.signedBy crypto "GroundCore Control Plane" subject
          validityDays keypair now certificateId
        ({ m with issuedCertificates := m.issuedCertificates.insert nodeId certificate },
          .ok certificate)

/-- The map of issued certificates is read in the order `ord`. -/
def getPreloadedCertificates (m : ControlPlaneCertificateManager)
    (ord : IterOrder (String × IdentityCertificate)) (keypairBytes : Bytes 64)
    (now loadedAt : DateTime) (certificateId : Uuid) :
    Option (Except CertificateError PreloadedCertificates) :=
  match m.sharedKeyPair with
  | none => some (.error .keyPairNotInitialized)
  | some _ =>
    (IdentityCertificate.new crypto "GroundCore Root CA" "GroundCore Root" 365 keypairBytes now
      certificateId).map fun rootCert =>
        .ok ((ord.order m.issuedCertificates.entries).foldl
          (fun preloaded e => preloaded.addControlNodeCertificate e.1 e.2)
          (PreloadedCertificates.new rootCert loadedAt))

def revokeCertificate (m : ControlPlaneCertificateManager) (nodeId : String) :
    ControlPlaneCertificateManager × Except CertificateError Unit :=
  match m.issuedCertificates.get? nodeId with
  | none => (m, .error (.certificateNotFound nodeId))
  | some _ => ({ m with issuedCertificates := m.issuedCertificates.erase nodeId }, .ok ())

end ControlPlaneCertificateManager

end GroundCore.Optical.Attestation
