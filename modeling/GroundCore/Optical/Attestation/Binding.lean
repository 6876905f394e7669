import GroundCore.Optical.Attestation.PatProof

/-! What a signature binds.  The hash covers the bytes of the fields without their lengths, and
leaves out the time of the event, the times and the result of the acquisition and the proof of the
tracking. -/

namespace GroundCore.Optical.Attestation

open Bitemporal Lib

variable {crypto : Crypto} {F64 : Type}

namespace LinkAttestation

/-- The attestations have one signature under one key, and both verify. -/
def SameSignature (crypto : Crypto) (a b : LinkAttestation) : Prop :=
  a.signature = b.signature ∧ a.signerPublicKey = b.signerPublicKey ∧
    a.verify crypto = true ∧ b.verify crypto = true

/-- The attestations say the same. -/
def Agrees (a b : LinkAttestation) : Prop :=
  a.linkId = b.linkId ∧ a.event = b.event ∧ a.terminalId = b.terminalId

/-- The boundaries between the strings of the event lie at the same places. -/
def SameLengths (a b : LinkAttestation) : Prop :=
  (utf8 a.event.eventType).length = (utf8 b.event.eventType).length ∧
    (utf8 a.event.payload).length = (utf8 b.event.payload).length ∧
    (utf8 a.event.source).length = (utf8 b.event.source).length

theorem hashedBytes_eq (hhash : Function.Injective crypto.sha256) (hideal : crypto.Ideal)
    {a b : LinkAttestation} (hsame : a.SameSignature crypto b) :
    hashedBytes a.linkId a.event a.terminalId = hashedBytes b.linkId b.event b.terminalId := by
  obtain ⟨hsignature, hkey, ha, hb⟩ := hsame
  unfold verify at ha hb
  rw [hsignature, hkey] at ha
  exact hhash (checkSignature_unique hideal ha hb)

/-- The link is at a fixed offset and of fixed length. -/
theorem linkId_eq (hhash : Function.Injective crypto.sha256) (hideal : crypto.Ideal)
    {a b : LinkAttestation} (hsame : a.SameSignature crypto b) : a.linkId = b.linkId := by
  have hbytes := hashedBytes_eq hhash hideal hsame
  simp only [hashedBytes, List.append_assoc] at hbytes
  exact Uuid.ext (List.append_inj hbytes
    (a.linkId.length_asBytes.trans b.linkId.length_asBytes.symm)).1

/-- Where the boundaries agree, so do the strings. -/
theorem strings_eq (hhash : Function.Injective crypto.sha256) (hideal : crypto.Ideal)
    {a b : LinkAttestation} (hsame : a.SameSignature crypto b) (hlengths : a.SameLengths b) :
    a.event.eventType = b.event.eventType ∧ a.event.payload = b.event.payload ∧
      a.event.source = b.event.source ∧ a.terminalId = b.terminalId := by
  obtain ⟨htype, hpayload, hsource⟩ := hlengths
  have hbytes := hashedBytes_eq hhash hideal hsame
  simp only [hashedBytes, List.append_assoc] at hbytes
  obtain ⟨-, hbytes⟩ := List.append_inj hbytes
    (a.linkId.length_asBytes.trans b.linkId.length_asBytes.symm)
  obtain ⟨htype, hbytes⟩ := List.append_inj hbytes htype
  obtain ⟨hpayload, hbytes⟩ := List.append_inj hbytes hpayload
  obtain ⟨hsource, hterminal⟩ := List.append_inj hbytes hsource
  exact ⟨utf8_inj.mp htype, utf8_inj.mp hpayload, utf8_inj.mp hsource, utf8_inj.mp hterminal⟩

theorem agrees_iff (hhash : Function.Injective crypto.sha256) (hideal : crypto.Ideal)
    {a b : LinkAttestation} (hsame : a.SameSignature crypto b) :
    a.Agrees b ↔ a.event.timestamp = b.event.timestamp ∧ a.SameLengths b := by
  constructor
  · rintro ⟨-, hevent, -⟩
    rw [SameLengths, hevent]
    exact ⟨rfl, rfl, rfl, rfl⟩
  · rintro ⟨htime, hlengths⟩
    obtain ⟨htype, hpayload, hsource, hterminal⟩ := strings_eq hhash hideal hsame hlengths
    exact ⟨linkId_eq hhash hideal hsame, AttestableEvent.ext htype hpayload htime hsource,
      hterminal⟩

end LinkAttestation

namespace PatAttestation

def SameSignature (crypto : Crypto) (a b : PatAttestation F64) : Prop :=
  a.signature = b.signature ∧ a.signerPublicKey = b.signerPublicKey ∧
    a.verify crypto = true ∧ b.verify crypto = true

def Agrees (a b : PatAttestation F64) : Prop :=
  a.acquisitionId = b.acquisitionId ∧ a.acquisitionProof = b.acquisitionProof ∧
    a.trackingProof = b.trackingProof

/-- The parts that the hash leaves out are the same. -/
def SameUnhashed (a b : PatAttestation F64) : Prop :=
  a.acquisitionProof.startTime = b.acquisitionProof.startTime ∧
    a.acquisitionProof.endTime = b.acquisitionProof.endTime ∧
    a.acquisitionProof.result = b.acquisitionProof.result ∧
    a.acquisitionProof.pointingVectors = b.acquisitionProof.pointingVectors ∧
    a.trackingProof = b.trackingProof

theorem hashed_eq (hhash : Function.Injective crypto.sha256) (hideal : crypto.Ideal)
    {a b : PatAttestation F64} (hsame : a.SameSignature crypto b) :
    a.acquisitionId = b.acquisitionId ∧ a.acquisitionProof.planId = b.acquisitionProof.planId ∧
      a.acquisitionProof.searchPatternUsed = b.acquisitionProof.searchPatternUsed := by
  obtain ⟨hsignature, hkey, ha, hb⟩ := hsame
  unfold verify at ha hb
  rw [hsignature, hkey] at ha
  have hbytes := hhash (checkSignature_unique hideal ha hb)
  simp only [hashedBytes, List.append_assoc] at hbytes
  obtain ⟨hacquisition, hbytes⟩ := List.append_inj hbytes
    (a.acquisitionId.length_asBytes.trans b.acquisitionId.length_asBytes.symm)
  obtain ⟨hplan, hpattern⟩ := List.append_inj hbytes
    (a.acquisitionProof.planId.length_asBytes.trans b.acquisitionProof.planId.length_asBytes.symm)
  exact ⟨Uuid.ext hacquisition, Uuid.ext hplan, utf8_inj.mp hpattern⟩

theorem agrees_iff (hhash : Function.Injective crypto.sha256) (hideal : crypto.Ideal)
    {a b : PatAttestation F64} (hsame : a.SameSignature crypto b) :
    a.Agrees b ↔ a.SameUnhashed b := by
  constructor
  · rintro ⟨-, hproof, htracking⟩
    rw [SameUnhashed, hproof]
    exact ⟨rfl, rfl, rfl, rfl, htracking⟩
  · rintro ⟨hstart, hend, hresult, hpointing, htracking⟩
    obtain ⟨hacquisition, hplan, hpattern⟩ := hashed_eq hhash hideal hsame
    exact ⟨hacquisition, AcquisitionProof.ext hplan hstart hend hresult hpointing hpattern,
      htracking⟩

end PatAttestation

/-- The identifiers and the search pattern are bound.  The event is bound exactly up to its time and
the boundaries between its strings, the acquisition exactly up to what the hash leaves out. -/
theorem binding_iff (hhash : Function.Injective crypto.sha256) (hideal : crypto.Ideal) :
    (∀ a b : LinkAttestation, a.SameSignature crypto b →
      a.linkId = b.linkId ∧
        (a.Agrees b ↔ a.event.timestamp = b.event.timestamp ∧ a.SameLengths b)) ∧
    ∀ a b : PatAttestation F64, a.SameSignature crypto b →
      (a.acquisitionId = b.acquisitionId ∧ a.acquisitionProof.planId = b.acquisitionProof.planId ∧
        a.acquisitionProof.searchPatternUsed = b.acquisitionProof.searchPatternUsed) ∧
        (a.Agrees b ↔ a.SameUnhashed b) := by
  constructor
  · intro a b hsame
    exact ⟨LinkAttestation.linkId_eq hhash hideal hsame,
      LinkAttestation.agrees_iff hhash hideal hsame⟩
  · intro a b hsame
    exact ⟨PatAttestation.hashed_eq hhash hideal hsame,
      PatAttestation.agrees_iff hhash hideal hsame⟩

/-! ### Two signatures -/

def firstUuid : Uuid := ⟨[0, 1, 2, 3, 4, 5, 6, 7, 8, 9, 10, 11, 12, 13, 14, 15], rfl⟩

def secondUuid : Uuid := ⟨[16, 17, 18, 19, 20, 21, 22, 23, 24, 25, 26, 27, 28, 29, 30, 31], rfl⟩

def terminalKey : String := "d75a980182b10ab7d54bfed3c964073a0ee172f3daa62325af021a68f707511a"

def linkSignature : String :=
  "121c27d726021c30171155b4dc00ac5add38b5973bf9b1b88df107d2fdcdca8b" ++
  "5fc7433c15a5db4f97a6868d8a9b14d89752be229df206e8de95811f8e9f360d"

def patSignature : String :=
  "8676eb378cec6438bc981d5fbd7fc4cdc7d059c42e498742c3cc6212fb06c592" ++
  "9a8496ff11e0a926eede48d854576c6f2f918801b00eb780c0c42888b761c00c"

def linkMessage : List UInt8 :=
  LinkAttestation.hashedBytes firstUuid (.new "link" "up" "scheduler" 0) "terminal-1"

def patMessage : List UInt8 := firstUuid.asBytes ++ secondUuid.asBytes ++ utf8 "spiral"

/-- The hash of the two messages, and strings of other lengths for what is neither. -/
def messageHash (data : List UInt8) : List UInt8 :=
  if data = linkMessage ∨ data = patMessage then sha256 data else List.replicate 33 0 ++ data

theorem sha256_linkMessage_ne : sha256 linkMessage ≠ sha256 patMessage := by decide +kernel

theorem length_sha256_message {data : List UInt8} (h : data = linkMessage ∨ data = patMessage) :
    (sha256 data).length = 32 := by
  rcases h with rfl | rfl <;> rfl

theorem messageHash_injective : Function.Injective messageHash := by
  intro x y h
  unfold messageHash at h
  split at h <;> split at h
  · next hx hy =>
    rcases hx with rfl | rfl <;> rcases hy with rfl | rfl
    · rfl
    · exact absurd h sha256_linkMessage_ne
    · exact absurd h.symm sha256_linkMessage_ne
    · rfl
  · next hx hy =>
    have := congrArg List.length h
    simp only [length_sha256_message hx, List.length_append, List.length_replicate] at this
    omega
  · next hx hy =>
    have := congrArg List.length h
    simp only [length_sha256_message hy, List.length_append, List.length_replicate] at this
    omega
  · exact List.append_cancel_left h

/-- Keys and signatures of which only the signatures of the two messages verify. -/
def twoSignatures : Crypto where
  SigningKey := Bytes 32
  VerifyingKey := Bytes 32
  Signature := Bytes 64
  sha256 := messageHash
  hexDecode s := (hexDecodePairs s.toList).toOption
  fromKeypairBytes _ := none
  verifyingKey key := key
  asBytes key := key
  fromBytes bytes := some bytes
  sign _ _ := ⟨List.replicate 64 0, rfl⟩
  toBytes signature := signature
  signatureTryFrom bytes := if h : bytes.length = 64 then some ⟨bytes, h⟩ else none
  verify key data signature :=
    hexLower key.1 == terminalKey &&
      (data == sha256 linkMessage && hexLower signature.1 == linkSignature ||
        data == sha256 patMessage && hexLower signature.1 == patSignature)

theorem ideal_twoSignatures : twoSignatures.Ideal := by
  intro key message₁ message₂ signature h₁ h₂
  simp only [twoSignatures, Bool.and_eq_true, Bool.or_eq_true, beq_iff_eq] at h₁ h₂
  have hne : linkSignature ≠ patSignature := by decide
  obtain ⟨-, ⟨rfl, hs₁⟩ | ⟨rfl, hs₁⟩⟩ := h₁ <;> obtain ⟨-, ⟨rfl, hs₂⟩ | ⟨rfl, hs₂⟩⟩ := h₂
  · rfl
  · exact absurd (hs₁.symm.trans hs₂) hne
  · exact absurd (hs₂.symm.trans hs₁) hne
  · rfl

/-- An attestation with the signature of the link's message. -/
def linkAttestation (eventType payload : String) (now : DateTime) : LinkAttestation :=
  { attestationId := firstUuid, linkId := firstUuid
    event := .new eventType payload "scheduler" now, hash := ⟨hexLower (sha256 linkMessage)⟩
    signature := ⟨linkSignature⟩, signerPublicKey := terminalKey, terminalId := "terminal-1" }

/-- An attestation with the signature of the acquisition's message. -/
def patAttestation (result : AcquisitionResult ℚ) : PatAttestation ℚ :=
  { attestationId := firstUuid, acquisitionId := firstUuid
    acquisitionProof := .new secondUuid result "spiral" 0, trackingProof := none
    hash := ⟨hexLower (sha256 patMessage)⟩, signature := ⟨patSignature⟩
    signerPublicKey := terminalKey }

theorem checkSignature_linkMessage : checkSignature twoSignatures terminalKey ⟨linkSignature⟩
    (twoSignatures.sha256 linkMessage) = true := by decide +kernel

/-- An attestation is verified against the bytes that are hashed. -/
theorem verify_linkAttestation {eventType payload : String} {now : DateTime}
    (h : LinkAttestation.hashedBytes firstUuid (.new eventType payload "scheduler" now)
      "terminal-1" = linkMessage) :
    (linkAttestation eventType payload now).verify twoSignatures = true := by
  unfold LinkAttestation.verify linkAttestation
  rw [h]
  exact checkSignature_linkMessage

theorem sameSignature_shifted : (linkAttestation "link" "up" 0).SameSignature twoSignatures
    (linkAttestation "lin" "kup" 0) :=
  ⟨rfl, rfl, verify_linkAttestation rfl, verify_linkAttestation (by decide +kernel)⟩

theorem sameSignature_later : (linkAttestation "link" "up" 0).SameSignature twoSignatures
    (linkAttestation "link" "up" 5) :=
  ⟨rfl, rfl, verify_linkAttestation rfl, verify_linkAttestation rfl⟩

theorem sameSignature_pat (result : AcquisitionResult ℚ) (tracking : TrackingProof ℚ) :
    (patAttestation result).SameSignature twoSignatures
      ((patAttestation (.timeout 0)).withTrackingProof tracking) := by
  have hverify : (patAttestation (.timeout 0)).verify twoSignatures = true := by decide +kernel
  exact ⟨rfl, rfl, hverify, hverify⟩

/-- Minutes of tracking. -/
def tracking : TrackingProof ℚ :=
  { trackingId := secondUuid, startTime := ⟨0, ⟨0⟩, ⟨0⟩⟩, endTime := ⟨0, ⟨0⟩, ⟨0⟩⟩
    durationSeconds := 600, averagePointingErrorUrad := 0, averageSnrDb := 30, lockConfidence := 1 }

/-- One signature is that of two events with other strings, of one event at two times, and of two
acquisitions with other results, one of them with a proof of tracking. -/
theorem binding_fails :
    (∃ a b : LinkAttestation, a.SameSignature twoSignatures b ∧
      a.event.timestamp = b.event.timestamp ∧ ¬ a.Agrees b) ∧
    (∃ a b : LinkAttestation, a.SameSignature twoSignatures b ∧ a.SameLengths b ∧ ¬ a.Agrees b) ∧
    ∃ a b : PatAttestation ℚ, a.SameSignature twoSignatures b ∧ ¬ a.Agrees b := by
  refine ⟨⟨_, _, sameSignature_shifted, rfl, ?_⟩,
    ⟨_, _, sameSignature_later, ⟨rfl, rfl, rfl⟩, ?_⟩,
    ⟨_, _, sameSignature_pat (.timeout 7) tracking, ?_⟩⟩
  · rintro ⟨-, hevent, -⟩
    exact absurd (congrArg AttestableEvent.eventType hevent) (by decide)
  · rintro ⟨-, hevent, -⟩
    exact absurd (congrArg AttestableEvent.timestamp hevent) (by decide)
  · rintro ⟨-, -, htracking⟩
    exact absurd htracking (by simp [patAttestation, PatAttestation.withTrackingProof])

theorem binding_iff_pairs :
    ((linkAttestation "link" "up" 0).Agrees (linkAttestation "lin" "kup" 0) ↔
      (linkAttestation "link" "up" 0).event.timestamp =
        (linkAttestation "lin" "kup" 0).event.timestamp ∧
      (linkAttestation "link" "up" 0).SameLengths (linkAttestation "lin" "kup" 0)) ∧
    ((patAttestation (.timeout 7)).Agrees
        ((patAttestation (.timeout 0)).withTrackingProof tracking) ↔
      (patAttestation (.timeout 7)).SameUnhashed
        ((patAttestation (.timeout 0)).withTrackingProof tracking)) :=
  have h := binding_iff messageHash_injective ideal_twoSignatures
  ⟨(h.1 _ _ sameSignature_shifted).2, (h.2 _ _ (sameSignature_pat (.timeout 7) tracking)).2⟩

end GroundCore.Optical.Attestation
