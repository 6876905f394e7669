import GroundCore.Core.Types
import GroundCore.Lib.HashMap
import GroundCore.Lib.Sha256

/-! Signed attestations of passes, and the verifier that knows the keys of other stations. -/

namespace GroundCore.Federation

open Lib

/-- The functions of other crates: the hash, and reading and checking keys and signatures, each with
the text of its errors. -/
structure Crypto where
  VerifyingKey : Type
  Signature : Type
  sha256 : List UInt8 → List UInt8
  hexDecode : String → Except String (List UInt8)
  fromBytes : { bytes : List UInt8 // bytes.length = 32 } → Except String VerifyingKey
  asBytes : VerifyingKey → List UInt8
  signatureTryFrom : List UInt8 → Except String Signature
  verifyStrict : VerifyingKey → List UInt8 → Signature → Except String Unit

structure SignedData where
  data : List UInt8
  signature : String
  publicKey : String
  timestamp : DateTime
  deriving DecidableEq

structure BitemporalProof where
  firstEventTime : DateTime
  firstReceptionTime : DateTime
  lastEventTime : DateTime
  lastReceptionTime : DateTime
  sampleCount : ℕ
  deriving DecidableEq

structure Attestation where
  passId : PassId
  dataHash : String
  signedData : SignedData
  bitemporalProof : BitemporalProof
  deriving DecidableEq

structure AttestationVerifier (crypto : Crypto) where
  publicKeys : HashMap String crypto.VerifyingKey

variable (crypto : Crypto)

/-- The key that a string of hexadecimal digits stands for. -/
def readVerifyingKey (publicKey : String) : Result crypto.VerifyingKey := do
  let publicKeyBytes ← (crypto.hexDecode publicKey).mapError fun e =>
    .federation ("Invalid public key: " ++ e)
  if h : publicKeyBytes.length = 32 then
    (crypto.fromBytes ⟨publicKeyBytes, h⟩).mapError fun e =>
      .federation ("Invalid public key: " ++ e)
  else .error (.federation "Invalid public key length")

namespace SignedData

/-- `now` is the reading of the clock. -/
def sign (data : List UInt8) (signature publicKey : String) (now : DateTime) : SignedData :=
  { data, signature, publicKey, timestamp := now }

def verify (d : SignedData) : Result Bool := do
  let publicKey ← readVerifyingKey crypto d.publicKey
  let signatureBytes ← (crypto.hexDecode d.signature).mapError fun e =>
    .federation ("Invalid signature: " ++ e)
  let signature ← (crypto.signatureTryFrom signatureBytes).mapError fun e =>
    .federation ("Invalid signature: " ++ e)
  ((crypto.verifyStrict publicKey d.data signature).mapError fun e =>
    .federation ("Verification failed: " ++ e)).map fun _ => true

def dataHash (d : SignedData) : String := hexLower (crypto.sha256 d.data)

end SignedData

/-- `num_seconds` rounds toward zero. -/
def BitemporalProof.isConsistent (proof : BitemporalProof) : Bool :=
  if proof.lastEventTime < proof.firstEventTime then false
  else if proof.lastReceptionTime < proof.firstReceptionTime then false
  else
    let propagationDelay :=
      Int.tdiv (proof.lastReceptionTime - proof.firstReceptionTime) (Duration.seconds 1)
    if propagationDelay > 900 then false else true

namespace Attestation

def new (passId : PassId) (dataHash : String) (signedData : SignedData)
    (bitemporalProof : BitemporalProof) : Attestation :=
  { passId, dataHash, signedData, bitemporalProof }

def verify (a : Attestation) : Result Bool := do
  let signed ← a.signedData.verify crypto
  if !signed then return false
  if a.signedData.dataHash crypto ≠ a.dataHash then return false
  if !a.bitemporalProof.isConsistent then return false
  return true

end Attestation

namespace AttestationVerifier

variable {crypto}

def new : AttestationVerifier crypto := { publicKeys := ∅ }

def addPublicKey (verifier : AttestationVerifier crypto) (stationId publicKey : String) :
    Result (AttestationVerifier crypto) := do
  let publicKey ← readVerifyingKey crypto publicKey
  return { publicKeys := verifier.publicKeys.insert stationId publicKey }

def verifyAttestation (verifier : AttestationVerifier crypto) (a : Attestation)
    (stationId : String) : Result Bool :=
  match verifier.publicKeys.get? stationId with
  | none => .error (.federation "Unknown peer")
  | some publicKey =>
    if hexLower (crypto.asBytes publicKey) ≠ a.signedData.publicKey then
      .error (.federation "Public key mismatch")
    else a.signedData.verify crypto

end AttestationVerifier

/-! ### What verification accepts -/

variable {crypto}

/-- A signature that does not verify is an error. -/
theorem SignedData.eq_true_of_verify {d : SignedData} {b : Bool} (h : d.verify crypto = .ok b) :
    b = true := by
  unfold SignedData.verify at h
  cases hkey : readVerifyingKey crypto d.publicKey with
  | error e => simp [hkey, bind, Except.bind] at h
  | ok key =>
    cases hbytes : crypto.hexDecode d.signature with
    | error e => simp [hkey, hbytes, bind, Except.bind, Except.mapError] at h
    | ok bytes =>
      cases hsignature : crypto.signatureTryFrom bytes with
      | error e => simp [hkey, hbytes, hsignature, bind, Except.bind, Except.mapError] at h
      | ok signature =>
        cases hstrict : crypto.verifyStrict key d.data signature with
        | error e =>
          simp [hkey, hbytes, hsignature, hstrict, bind, Except.bind, Except.mapError,
            Except.map] at h
        | ok =>
          simpa [hkey, hbytes, hsignature, hstrict, bind, Except.bind, Except.mapError,
            Except.map, eq_comm] using h

theorem Attestation.verify_eq_ok_true {a : Attestation} :
    a.verify crypto = .ok true ↔
      a.signedData.verify crypto = .ok true ∧ a.signedData.dataHash crypto = a.dataHash ∧
        a.bitemporalProof.isConsistent = true := by
  unfold Attestation.verify
  cases hsigned : a.signedData.verify crypto with
  | error e => simp [bind, Except.bind]
  | ok b =>
    obtain rfl := SignedData.eq_true_of_verify hsigned
    by_cases hhash : a.signedData.dataHash crypto = a.dataHash
    · cases a.bitemporalProof.isConsistent <;>
        simp [bind, Except.bind, pure, Except.pure, hhash]
    · simp [bind, Except.bind, pure, Except.pure, hhash]

theorem AttestationVerifier.verifyAttestation_eq_ok_true
    {verifier : AttestationVerifier crypto} {a : Attestation} {stationId : String} :
    verifier.verifyAttestation a stationId = .ok true ↔
      (∃ key, verifier.publicKeys.get? stationId = some key ∧
        hexLower (crypto.asBytes key) = a.signedData.publicKey) ∧
      a.signedData.verify crypto = .ok true := by
  unfold AttestationVerifier.verifyAttestation
  cases hkey : verifier.publicKeys.get? stationId with
  | none => simp
  | some key =>
    by_cases hmatch : hexLower (crypto.asBytes key) = a.signedData.publicKey
    · simp [hmatch]
    · simp [hmatch]

end GroundCore.Federation
