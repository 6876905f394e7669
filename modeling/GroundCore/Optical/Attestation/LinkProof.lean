import GroundCore.Bitemporal.Timestamp
import GroundCore.Lib.Sha256

/-! Attestations of optical links: the fields of an event, hashed one after the other, and a
signature of the hash. -/

namespace GroundCore.Optical.Attestation

open Bitemporal Lib

/-- An array of `n` bytes. -/
abbrev Bytes (n : ℕ) := { bytes : List UInt8 // bytes.length = n }

/-- The sixteen bytes of a UUID. -/
@[ext]
structure Uuid where
  asBytes : List UInt8
  length_asBytes : asBytes.length = 16
  deriving DecidableEq

abbrev AttestationId := Uuid

/-- The functions of other crates: the hash, hexadecimal text, and Ed25519. -/
structure Crypto where
  SigningKey : Type
  VerifyingKey : Type
  Signature : Type
  sha256 : List UInt8 → List UInt8
  hexDecode : String → Option (List UInt8)
  fromKeypairBytes : Bytes 64 → Option SigningKey
  verifyingKey : SigningKey → VerifyingKey
  asBytes : VerifyingKey → Bytes 32
  fromBytes : Bytes 32 → Option VerifyingKey
  sign : SigningKey → List UInt8 → Signature
  toBytes : Signature → Bytes 64
  signatureTryFrom : List UInt8 → Option Signature
  verify : VerifyingKey → List UInt8 → Signature → Bool

/-- Under one key, a signature is of one message only. -/
def Crypto.Ideal (crypto : Crypto) : Prop :=
  ∀ key message₁ message₂ signature, crypto.verify key message₁ signature = true →
    crypto.verify key message₂ signature = true → message₁ = message₂

/-- The UTF-8 bytes of a string. -/
def utf8 (s : String) : List UInt8 := s.toByteArray.data.toList

theorem utf8_inj {s t : String} : utf8 s = utf8 t ↔ s = t := by
  unfold utf8
  rw [← String.toByteArray_inj, Array.toList_inj, ByteArray.ext_iff]

structure Hash where
  text : String
  deriving DecidableEq

structure Signature where
  text : String
  deriving DecidableEq

@[ext]
structure AttestableEvent where
  eventType : String
  payload : String
  timestamp : BiTemporal DateTime
  source : String
  deriving DecidableEq

/-- `now` is the reading of the clock. -/
def AttestableEvent.new (eventType payload source : String) (now : DateTime) : AttestableEvent :=
  { eventType, payload, timestamp := ⟨now, ⟨now⟩, ⟨now⟩⟩, source }

structure LinkAttestation where
  attestationId : AttestationId
  linkId : Uuid
  event : AttestableEvent
  hash : Hash
  signature : Signature
  signerPublicKey : String
  terminalId : String
  deriving DecidableEq

variable (crypto : Crypto)

/-- What `verify` does with a key, a signature and the hash that it derived. -/
def checkSignature (signerPublicKey : String) (signature : Signature) (hashBytes : List UInt8) :
    Bool :=
  match crypto.hexDecode signerPublicKey with
  | none => false
  | some pubBytes =>
    match crypto.hexDecode signature.text with
    | none => false
    | some sigBytes =>
      if h : pubBytes.length = 32 then
        match crypto.fromBytes ⟨pubBytes, h⟩ with
        | none => false
        | some publicKey =>
          match crypto.signatureTryFrom sigBytes with
          | none => false
          | some sig => crypto.verify publicKey hashBytes sig
      else false

/-- A signature of the hash with a key made of 64 random bytes, and the text of the public key.
No result when the bytes are no key pair, where the source panics. -/
def signEphemeral (keypairBytes : Bytes 64) (hashBytes : List UInt8) : Option (Signature × String) :=
  (crypto.fromKeypairBytes keypairBytes).map fun signingKey =>
    (⟨hexLower (crypto.toBytes (crypto.sign signingKey hashBytes)).1⟩,
      hexLower (crypto.asBytes (crypto.verifyingKey signingKey)).1)

namespace LinkAttestation

/-- The bytes that are hashed. -/
def hashedBytes (linkId : Uuid) (event : AttestableEvent) (terminalId : String) : List UInt8 :=
  linkId.asBytes ++ utf8 event.eventType ++ utf8 event.payload ++ utf8 event.source ++
    utf8 terminalId

def new (linkId : Uuid) (event : AttestableEvent) (terminalId : String)
    (keypairBytes : Bytes 64) (attestationId : Uuid) :
    Option LinkAttestation :=
  let hashBytes := crypto.sha256 (hashedBytes linkId event terminalId)
  (signEphemeral crypto keypairBytes hashBytes).map fun (signature, signerPublicKey) =>
    { attestationId, linkId, event, hash := ⟨hexLower hashBytes⟩, signature, signerPublicKey,
      terminalId }

def verify (a : LinkAttestation) : Bool :=
  checkSignature crypto a.signerPublicKey a.signature
    (crypto.sha256 (hashedBytes a.linkId a.event a.terminalId))

end LinkAttestation

variable {crypto}

/-- Under one key and signature only one hash passes. -/
theorem checkSignature_unique (hideal : crypto.Ideal) {key : String} {signature : Signature}
    {hash₁ hash₂ : List UInt8} (h₁ : checkSignature crypto key signature hash₁ = true)
    (h₂ : checkSignature crypto key signature hash₂ = true) : hash₁ = hash₂ := by
  unfold checkSignature at h₁ h₂
  cases hkey : crypto.hexDecode key with
  | none => simp [hkey] at h₁
  | some pubBytes =>
    cases hsig : crypto.hexDecode signature.text with
    | none => simp [hkey, hsig] at h₁
    | some sigBytes =>
      simp only [hkey, hsig] at h₁ h₂
      split at h₁
      · next hlength =>
        rw [dif_pos hlength] at h₂
        cases hread : crypto.fromBytes ⟨pubBytes, hlength⟩ with
        | none => simp [hread] at h₁
        | some publicKey =>
          cases hsignature : crypto.signatureTryFrom sigBytes with
          | none => simp [hread, hsignature] at h₁
          | some sig =>
            simp only [hread, hsignature] at h₁ h₂
            exact hideal publicKey hash₁ hash₂ sig h₁ h₂
      · contradiction

end GroundCore.Optical.Attestation
