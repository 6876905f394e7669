import GroundCore.Optical.Attestation.Binding
import GroundCore.Optical.Attestation.CertificateChain

/-! When attestations, certificates and key pairs can be made.  All four read 64 random bytes as a
signing key with its public key, and panic when the bytes are something else. -/

namespace GroundCore.Optical.Attestation

open Lib

/-! ### Times of expiry -/

/-- The range of `DateTime<Utc>`. -/
def minUtc : DateTime := Duration.seconds (-8334601228800)

def maxUtc : DateTime := Duration.seconds 8210266876799 + 999999999

/-- `now + chrono::Duration::days(validity_days as i64)` is within the bounds of a duration and of
a time. -/
def ExpiryInRange (validityDays : UInt64) (now : DateTime) : Prop :=
  |validityDays.toInt64.toInt * 86400| ≤ 9223372036854775 ∧
    minUtc ≤ now + validity validityDays ∧ now + validity validityDays ≤ maxUtc

instance (validityDays : UInt64) (now : DateTime) : Decidable (ExpiryInRange validityDays now) :=
  inferInstanceAs (Decidable (_ ∧ _))

/-- The time of expiry.  No result where the source panics. -/
def expiry (validityDays : UInt64) (now : DateTime) : Option DateTime :=
  if ExpiryInRange validityDays now then some (now + validity validityDays) else none

theorem expiry_eq_some_iff {validityDays : UInt64} {now time : DateTime} :
    expiry validityDays now = some time ↔
      ExpiryInRange validityDays now ∧ now + validity validityDays = time := by
  unfold expiry
  split <;> simp [*]

/-! ### Keys -/

/-- The first half of the bytes of a key pair, the secret. -/
def secretBytes (keypairBytes : Bytes 64) : Bytes 32 :=
  ⟨keypairBytes.1.take 32, by rw [List.length_take, keypairBytes.2]; rfl⟩

/-- The last half, the public key. -/
def publicBytes (keypairBytes : Bytes 64) : Bytes 32 :=
  ⟨keypairBytes.1.drop 32, by rw [List.length_drop, keypairBytes.2]⟩

namespace CertificateCrypto

/-- The last 32 bytes are the public key of the first 32. -/
def IsKeypair (crypto : CertificateCrypto) (keypairBytes : Bytes 64) : Prop :=
  crypto.asBytes (crypto.verifyingKey (crypto.signingKeyFromBytes (secretBytes keypairBytes))) =
    publicBytes keypairBytes

instance (crypto : CertificateCrypto) (keypairBytes : Bytes 64) :
    Decidable (crypto.IsKeypair keypairBytes) :=
  inferInstanceAs (Decidable (_ = _))

/-- What is documented of Ed25519 keys and signatures, and of hexadecimal text. -/
structure Documented (crypto : CertificateCrypto) : Prop where
  fromKeypairBytes : ∀ keypairBytes, crypto.fromKeypairBytes keypairBytes =
    if crypto.IsKeypair keypairBytes then
      some (crypto.signingKeyFromBytes (secretBytes keypairBytes))
    else none
  verify_sign : ∀ key message,
    crypto.verify (crypto.verifyingKey key) message (crypto.sign key message) = true
  fromBytes : ∀ key, crypto.fromBytes (crypto.asBytes key) = some key
  signatureTryFrom : ∀ signature,
    crypto.signatureTryFrom (crypto.toBytes signature).1 = some signature
  hexDecode : ∀ bytes, crypto.hexDecode (hexLower bytes) = some bytes

end CertificateCrypto

variable {crypto : CertificateCrypto} {F64 : Type}

namespace CertificateCrypto.Documented

theorem fromKeypairBytes_of_isKeypair (h : crypto.Documented) {keypairBytes : Bytes 64}
    (hkeypair : crypto.IsKeypair keypairBytes) : crypto.fromKeypairBytes keypairBytes =
      some (crypto.signingKeyFromBytes (secretBytes keypairBytes)) := by
  rw [h.fromKeypairBytes, if_pos hkeypair]

theorem isKeypair_of_fromKeypairBytes (h : crypto.Documented) {keypairBytes : Bytes 64}
    {key : crypto.SigningKey} (hkey : crypto.fromKeypairBytes keypairBytes = some key) :
    crypto.IsKeypair keypairBytes := by
  by_contra hno
  rw [h.fromKeypairBytes, if_neg hno] at hkey
  contradiction

/-- A signature that was written as text beside the key is accepted. -/
theorem checkSignature_sign (h : crypto.Documented) (key : crypto.SigningKey)
    (hashBytes : List UInt8) :
    checkSignature crypto.toCrypto (hexLower (crypto.asBytes (crypto.verifyingKey key)).1)
      ⟨hexLower (crypto.toBytes (crypto.sign key hashBytes)).1⟩ hashBytes = true := by
  unfold checkSignature
  rw [h.hexDecode]
  simp only
  rw [h.hexDecode]
  simp only
  rw [dif_pos (crypto.asBytes (crypto.verifyingKey key)).2]
  simp only [Subtype.coe_eta, h.fromBytes, h.signatureTryFrom, h.verify_sign]

end CertificateCrypto.Documented

/-- `new`, without a result also where the time of expiry is out of range. -/
def IdentityCertificate.tryNew (crypto : CertificateCrypto) (issuer subject : String)
    (validityDays : UInt64) (keypairBytes : Bytes 64) (now : DateTime) (certificateId : Uuid) :
    Option IdentityCertificate :=
  (expiry validityDays now).bind fun _ =>
    new crypto issuer subject validityDays keypairBytes now certificateId

/-- `new`, without a result also where the time of expiry is out of range. -/
def ControlPlaneKeyPair.tryNew (crypto : CertificateCrypto) (validityDays : UInt64)
    (keypairBytes : Bytes 64) (now : DateTime) (keyPairId : Uuid) : Option ControlPlaneKeyPair :=
  (expiry validityDays now).bind fun _ =>
    new crypto validityDays keypairBytes now keyPairId

/-- A call of one of the four functions. -/
inductive Creation (F64 : Type)
  | link (linkId : Uuid) (event : AttestableEvent) (terminalId : String) (attestationId : Uuid)
  | pat (acquisitionId : Uuid) (acquisitionProof : AcquisitionProof F64) (attestationId : Uuid)
  | certificate (issuer subject : String) (validityDays : UInt64) (now : DateTime)
      (certificateId : Uuid)
  | keyPair (validityDays : UInt64) (now : DateTime) (keyPairId : Uuid)

namespace Creation

/-- The call returns, and an attestation that it returns verifies. -/
def Succeeds (crypto : CertificateCrypto) (keypairBytes : Bytes 64) : Creation F64 → Prop
  | link linkId event terminalId attestationId =>
    ∃ a, LinkAttestation.new crypto.toCrypto linkId event terminalId keypairBytes attestationId =
      some a ∧ a.verify crypto.toCrypto = true
  | pat acquisitionId acquisitionProof attestationId =>
    ∃ a, PatAttestation.new crypto.toCrypto acquisitionId acquisitionProof keypairBytes
      attestationId = some a ∧ a.verify crypto.toCrypto = true
  | certificate issuer subject validityDays now certificateId =>
    ∃ c, IdentityCertificate.tryNew crypto issuer subject validityDays keypairBytes now
      certificateId = some c
  | keyPair validityDays now keyPairId =>
    ∃ p, ControlPlaneKeyPair.tryNew crypto validityDays keypairBytes now keyPairId = some p

/-- What the call makes expires within the range of a time. -/
def InRange : Creation F64 → Prop
  | link .. => True
  | pat .. => True
  | certificate _ _ validityDays now _ => ExpiryInRange validityDays now
  | keyPair validityDays now _ => ExpiryInRange validityDays now

end Creation

/-- A result that is made from the ephemeral signature of a hash. -/
theorem exists_signEphemeral_map (h : crypto.Documented) {α : Type} {P : α → Prop}
    {keypairBytes : Bytes 64} {hashBytes : List UInt8} {make : Signature × String → α}
    (hmake : ∀ signature signerPublicKey,
      P (make (signature, signerPublicKey)) ↔
        checkSignature crypto.toCrypto signerPublicKey signature hashBytes = true) :
    (∃ a, (signEphemeral crypto.toCrypto keypairBytes hashBytes).map make = some a ∧ P a) ↔
      crypto.IsKeypair keypairBytes := by
  unfold signEphemeral
  constructor
  · rintro ⟨a, ha, -⟩
    rw [Option.map_map, Option.map_eq_some_iff] at ha
    obtain ⟨key, hkey, -⟩ := ha
    exact h.isKeypair_of_fromKeypairBytes hkey
  · intro hkeypair
    rw [h.fromKeypairBytes_of_isKeypair hkeypair]
    exact ⟨_, rfl, (hmake _ _).mpr (h.checkSignature_sign _ _)⟩

/-- A result that is made from a key alone, once the time of expiry is known. -/
theorem exists_bind_map (h : crypto.Documented) {α : Type} {validityDays : UInt64} {now : DateTime}
    {keypairBytes : Bytes 64} {make : crypto.SigningKey → α} :
    (∃ a, ((expiry validityDays now).bind fun _ =>
        (crypto.fromKeypairBytes keypairBytes).map make) = some a) ↔
      crypto.IsKeypair keypairBytes ∧ ExpiryInRange validityDays now := by
  simp only [Option.bind_eq_some_iff, Option.map_eq_some_iff, expiry_eq_some_iff]
  constructor
  · rintro ⟨_, _, ⟨hrange, -⟩, key, hkey, -⟩
    exact ⟨h.isKeypair_of_fromKeypairBytes hkey, hrange⟩
  · rintro ⟨hkeypair, hrange⟩
    exact ⟨_, _, ⟨hrange, rfl⟩, _, h.fromKeypairBytes_of_isKeypair hkeypair, rfl⟩

namespace Creation

/-- A call succeeds exactly when the random bytes are a key pair and what is made expires within
the range of a time. -/
theorem succeeds_iff (h : crypto.Documented) (keypairBytes : Bytes 64) (creation : Creation F64) :
    creation.Succeeds crypto keypairBytes ↔
      crypto.IsKeypair keypairBytes ∧ creation.InRange := by
  cases creation with
  | link linkId event terminalId attestationId =>
    exact (exists_signEphemeral_map h fun _ _ => Iff.rfl).trans (iff_of_eq (and_true _)).symm
  | pat acquisitionId acquisitionProof attestationId =>
    exact (exists_signEphemeral_map h fun _ _ => Iff.rfl).trans (iff_of_eq (and_true _)).symm
  | certificate issuer subject validityDays now certificateId => exact exists_bind_map h
  | keyPair validityDays now keyPairId => exact exists_bind_map h

end Creation

/-! ### Known keys -/

/-- The public key of thirty-two zeros. -/
def zeroPublicHex : String := "3b6a27bcceb6a42d62a3a8d02a6f0d73653215771de243a63ac048a18b59da29"

def zeroSecret : Bytes 32 := TestKey.bytes 32 ""

def zeroBytes : Bytes 64 := TestKey.bytes 64 ""

/-- The public keys of three secrets.  Other secrets stand for themselves. -/
def knownPublic (secret : Bytes 32) : Bytes 32 :=
  if secret = zeroSecret then TestKey.bytes 32 zeroPublicHex
  else
    match TestKey.read (fun key => TestKey.bytes 32 key.secretHex) secret with
    | some key => TestKey.bytes 32 key.publicHex
    | none => secret

/-- The signatures of two messages under the first key, and zeros for what is neither. -/
def knownSignature (publicKey : Bytes 32) (message : List UInt8) : Bytes 64 :=
  if hexLower publicKey.1 = terminalKey ∧ message = sha256 linkMessage then
    TestKey.bytes 64 linkSignature
  else if hexLower publicKey.1 = terminalKey ∧ message = sha256 patMessage then
    TestKey.bytes 64 patSignature
  else zeroBytes

def knownKeys : CertificateCrypto where
  SigningKey := Bytes 32
  VerifyingKey := Bytes 32
  Signature := Bytes 64
  sha256 := sha256
  hexDecode s := (hexDecodePairs s.toList).toOption
  fromKeypairBytes keypairBytes :=
    if knownPublic (secretBytes keypairBytes) = publicBytes keypairBytes then
      some (secretBytes keypairBytes)
    else none
  verifyingKey := knownPublic
  asBytes key := key
  fromBytes bytes := some bytes
  sign secret message := knownSignature (knownPublic secret) message
  toBytes signature := signature
  signatureTryFrom bytes := if h : bytes.length = 64 then some ⟨bytes, h⟩ else none
  verify publicKey message signature := decide (signature = knownSignature publicKey message)
  signingKeyToBytes secret := secret
  signingKeyFromBytes bytes := bytes
  fromBytesError := "signature error: Cannot decompress Edwards point"
  toRfc3339 time :=
    if time = 0 then "1970-01-01T00:00:00+00:00" else "1971-01-01T00:00:00+00:00"

theorem documented_knownKeys : knownKeys.Documented where
  fromKeypairBytes _ := rfl
  verify_sign _ _ := by simp [knownKeys]
  fromBytes _ := rfl
  signatureTryFrom signature := dif_pos signature.2
  hexDecode bytes := congrArg Except.toOption (hexDecodePairs_hexLower bytes)

/-- The attestation of the first message, and a pair for a year. -/
def linkCreation : Creation ℚ :=
  .link firstUuid (.new "link" "up" "scheduler" 0) "terminal-1" firstUuid

def yearCreation : Creation ℚ := .keyPair 365 0 firstUuid

theorem succeeds_iff_first : linkCreation.Succeeds knownKeys TestKey.first.keypairBytes ∧
    yearCreation.Succeeds knownKeys TestKey.first.keypairBytes :=
  have hkeypair : knownKeys.IsKeypair TestKey.first.keypairBytes := by decide +kernel
  ⟨(Creation.succeeds_iff documented_knownKeys _ linkCreation).mpr ⟨hkeypair, trivial⟩,
    (Creation.succeeds_iff documented_knownKeys _ yearCreation).mpr
      ⟨hkeypair, (by decide : ExpiryInRange 365 0)⟩⟩

/-- With 64 zeros for the random bytes, none of the four functions returns. -/
theorem not_succeeds_zeros : knownKeys.Documented ∧
    LinkAttestation.new knownKeys.toCrypto firstUuid (.new "link" "up" "scheduler" 0) "terminal-1"
      zeroBytes firstUuid = none ∧
    PatAttestation.new knownKeys.toCrypto firstUuid
      (.new secondUuid (.timeout 0) "spiral" 0 : AcquisitionProof ℚ) zeroBytes firstUuid = none ∧
    IdentityCertificate.tryNew knownKeys "GroundCore Root CA" "GroundCore Root" 365 zeroBytes 0
      firstUuid = none ∧
    ControlPlaneKeyPair.tryNew knownKeys 365 zeroBytes 0 firstUuid = none := by
  have hnone : knownKeys.fromKeypairBytes zeroBytes = none := by decide +kernel
  have hsignature : ∀ hashBytes, signEphemeral knownKeys.toCrypto zeroBytes hashBytes = none := by
    intro hashBytes
    rw [signEphemeral, hnone, Option.map_none]
  refine ⟨documented_knownKeys, ?_, ?_, ?_, ?_⟩
  · rw [LinkAttestation.new, hsignature, Option.map_none]
  · rw [PatAttestation.new, hsignature, Option.map_none]
  · rw [IdentityCertificate.tryNew, IdentityCertificate.new, hnone, Option.map_none,
      Option.bind_fun_none]
  · rw [ControlPlaneKeyPair.tryNew, ControlPlaneKeyPair.new, hnone, Option.map_none,
      Option.bind_fun_none]

end GroundCore.Optical.Attestation
