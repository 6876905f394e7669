import GroundCore.Federation.Trust

/-! What an accepted attestation shows.  Only `Attestation.verify` looks at all of an attestation:
the verifier with known keys leaves out the hash and the proof, the comparison with a local capture
the signature and the key.  The signature itself covers the data alone. -/

namespace GroundCore.Federation

open Lib FloatOps AttestationVerification

variable {crypto : Crypto} {F64 F32 : Type} [FloatOps F64 F32]

/-- The attestation verifies, and its key is the one registered for the station. -/
def AttestationVerifier.Sound (verifier : AttestationVerifier crypto) (a : Attestation)
    (stationId : String) : Prop :=
  a.verify crypto = .ok true ∧ ∃ key, verifier.publicKeys.get? stationId = some key ∧
    hexLower (crypto.asBytes key) = a.signedData.publicKey

/-- The attestation verifies, and its key is the peer's. -/
def FederationPeer.Sound (peer : FederationPeer F64) (crypto : Crypto) (a : Attestation) : Prop :=
  a.verify crypto = .ok true ∧ a.signedData.publicKey = peer.publicKey

/-- A comparison passes when there is a local capture and the hashes and the times agree with it. -/
theorem passed_crossVerifyAttestation (hzero : lt (lit 0.95) (lit 0 : F64) = false)
    (percent : F64 → String) (peer : FederationPeer F64) (a : Attestation)
    (localCapture : Option String) (localProof : Option BitemporalProof) :
    (crossVerifyAttestation crypto percent peer a localCapture localProof).passed = true ↔
      ∃ capture, localCapture = some capture ∧
        lt (lit 0.95) (computeMatchRate crypto capture a.dataHash : F64) = true ∧
        checkBitemporalConsistency (some a.bitemporalProof) localProof = true := by
  unfold crossVerifyAttestation AttestationVerification.new
  cases localCapture with
  | none => simp [hzero]
  | some capture => simp

/-- The verifier with known keys accepts soundly exactly when what it accepts also has the hash of
its data and a consistent proof; the comparison with a local capture exactly when what agrees with
the capture is also signed by the peer. -/
theorem acceptance_sound_iff (hzero : lt (lit 0.95) (lit 0 : F64) = false)
    (verifier : AttestationVerifier crypto) (stationId : String) (percent : F64 → String)
    (peer : FederationPeer F64) (a : Attestation) (localCapture : Option String)
    (localProof : Option BitemporalProof) :
    ((verifier.verifyAttestation a stationId = .ok true → verifier.Sound a stationId) ↔
      ∀ key, verifier.publicKeys.get? stationId = some key →
        hexLower (crypto.asBytes key) = a.signedData.publicKey →
        a.signedData.verify crypto = .ok true →
        a.signedData.dataHash crypto = a.dataHash ∧ a.bitemporalProof.isConsistent = true) ∧
    (((crossVerifyAttestation crypto percent peer a localCapture localProof).passed = true →
        peer.Sound crypto a) ↔
      ∀ capture, localCapture = some capture →
        lt (lit 0.95) (computeMatchRate crypto capture a.dataHash : F64) = true →
        checkBitemporalConsistency (some a.bitemporalProof) localProof = true →
        a.signedData.verify crypto = .ok true ∧ a.signedData.dataHash crypto = a.dataHash ∧
          a.bitemporalProof.isConsistent = true ∧ a.signedData.publicKey = peer.publicKey) := by
  constructor
  · rw [AttestationVerifier.verifyAttestation_eq_ok_true]
    unfold AttestationVerifier.Sound
    rw [Attestation.verify_eq_ok_true]
    constructor
    · intro hsound key hkey hmatch hsigned
      exact (hsound ⟨⟨key, hkey, hmatch⟩, hsigned⟩).1.2
    · rintro hrest ⟨⟨key, hkey, hmatch⟩, hsigned⟩
      exact ⟨⟨hsigned, hrest key hkey hmatch hsigned⟩, key, hkey, hmatch⟩
  · rw [passed_crossVerifyAttestation hzero]
    unfold FederationPeer.Sound
    rw [Attestation.verify_eq_ok_true]
    constructor
    · intro hsound capture hcapture hrate htimes
      obtain ⟨⟨hsigned, hhash, hproof⟩, hkey⟩ := hsound ⟨capture, hcapture, hrate, htimes⟩
      exact ⟨hsigned, hhash, hproof, hkey⟩
    · rintro hrest ⟨capture, hcapture, hrate, htimes⟩
      obtain ⟨hsigned, hhash, hproof, hkey⟩ := hrest capture hcapture hrate htimes
      exact ⟨⟨hsigned, hhash, hproof⟩, hkey⟩

/-- Of two attestations with the same signed data, when one verifies, the other does exactly when it
has the same hash and a consistent proof: the pass and the times are not bound. -/
theorem verify_of_same_signedData {a b : Attestation} (hsame : a.signedData = b.signedData)
    (ha : a.verify crypto = .ok true) :
    b.verify crypto = .ok true ↔
      b.dataHash = a.dataHash ∧ b.bitemporalProof.isConsistent = true := by
  obtain ⟨hsigned, hhash, -⟩ := Attestation.verify_eq_ok_true.mp ha
  rw [Attestation.verify_eq_ok_true, ← hsame, hhash, and_iff_right hsigned, eq_comm]

/-! ### One signature -/

def message : List UInt8 := [1, 2, 3, 4]

def northKey : String := "d75a980182b10ab7d54bfed3c964073a0ee172f3daa62325af021a68f707511a"

def northSignature : String :=
  "0134034c4d11f046008500c537be96680128061f97b43d50fd1255dc21e926d3" ++
  "d8479cb86dd39823ffec3545595598827f04ff86597e947cc7b3828ba3d7f60d"

/-- The hash of the message, and strings of other lengths for what is not the message. -/
def messageHash (data : List UInt8) : List UInt8 :=
  if data = message then sha256 message else List.replicate 33 0 ++ data

theorem messageHash_injective : Function.Injective messageHash := by
  have hlength : (sha256 message).length = 32 := rfl
  intro x y h
  unfold messageHash at h
  split at h <;> split at h
  · next hx hy => rw [hx, hy]
  · have := congrArg List.length h
    simp only [hlength, List.length_append, List.length_replicate] at this
    omega
  · have := congrArg List.length h
    simp only [hlength, List.length_append, List.length_replicate] at this
    omega
  · exact List.append_cancel_left h

/-- Keys and signatures of which only the one signature of the message verifies. -/
def oneSignature : Crypto where
  VerifyingKey := List UInt8
  Signature := List UInt8
  sha256 := messageHash
  hexDecode s := hexDecodePairs s.toList
  fromBytes bytes := .ok bytes.1
  asBytes key := key
  signatureTryFrom bytes := if bytes.length = 64 then .ok bytes else .error "signature error"
  verifyStrict key data signature :=
    if hexLower key = northKey ∧ data = message ∧ hexLower signature = northSignature then .ok ()
    else .error "signature error"

def signedMessage : SignedData := SignedData.sign message northSignature northKey 0

theorem verify_signedMessage : signedMessage.verify oneSignature = .ok true := by decide +kernel

/-- Five minutes of samples. -/
def fiveMinutes : BitemporalProof :=
  { firstEventTime := 0, firstReceptionTime := Duration.seconds 1
    lastEventTime := Duration.seconds 300, lastReceptionTime := Duration.seconds 301
    sampleCount := 1000 }

/-- The times in reverse. -/
def reversed : BitemporalProof :=
  { fiveMinutes with
    firstEventTime := fiveMinutes.lastEventTime, lastEventTime := fiveMinutes.firstEventTime }

/-- An attestation of the message. -/
def attested : Attestation :=
  Attestation.new "pass" (hexLower (sha256 message)) signedMessage fiveMinutes

/-- The hash is not computed, as both sides name it. -/
theorem dataHash_signedMessage : signedMessage.dataHash oneSignature = attested.dataHash := by
  show hexLower (messageHash message) = hexLower (sha256 message)
  rw [messageHash, if_pos rfl]

theorem verify_attested : attested.verify oneSignature = .ok true :=
  Attestation.verify_eq_ok_true.mpr ⟨verify_signedMessage, dataHash_signedMessage, by decide⟩

/-- The verifier that knows the one key. -/
def knownKeys : AttestationVerifier oneSignature :=
  match AttestationVerifier.new.addPublicKey "north" northKey with
  | .ok verifier => verifier
  | .error _ => AttestationVerifier.new

theorem key_knownKeys : (knownKeys.publicKeys.get? "north").map
    (fun key => hexLower (oneSignature.asBytes key)) = some northKey := by
  decide +kernel

def northPeer : FederationPeer F64 := FederationPeer.new "north" northKey 0

/-- An attestation that nobody signed. -/
def forged : Attestation :=
  Attestation.new "pass" (hexLower (sha256 message)) (SignedData.sign [] "" "" 0) fiveMinutes

/-- What is accepted need not be sound: the verifier takes reversed times, and the comparison an
attestation without a signature, with the hash that was captured here. -/
theorem acceptance_unsound :
    letI := FloatOps.exact id id
    (knownKeys.verifyAttestation { attested with bitemporalProof := reversed } "north" = .ok true ∧
      ¬ knownKeys.Sound { attested with bitemporalProof := reversed } "north") ∧
    ((crossVerifyAttestation oneSignature (fun _ => "") (northPeer : FederationPeer ℚ) forged
        (some forged.dataHash) (some fiveMinutes)).passed = true ∧
      ¬ (northPeer : FederationPeer ℚ).Sound oneSignature forged) := by
  let _ := FloatOps.exact id id
  refine ⟨⟨?_, ?_⟩, ?_, ?_⟩
  · obtain ⟨key, hkey, hmatch⟩ := Option.map_eq_some_iff.mp key_knownKeys
    exact AttestationVerifier.verifyAttestation_eq_ok_true.mpr
      ⟨⟨key, hkey, hmatch⟩, verify_signedMessage⟩
  · rintro ⟨hverify, -⟩
    exact absurd (Attestation.verify_eq_ok_true.mp hverify).2.2 (by decide)
  · refine (passed_crossVerifyAttestation (by decide +kernel) _ _ _ _ _).mpr ⟨_, rfl, ?_, by decide⟩
    rw [computeMatchRate, if_pos rfl]
    decide +kernel
  · rintro ⟨-, hkey⟩
    exact absurd hkey (by decide)

/-- With exact numbers, the station's key in the verifier and nothing captured here. -/
theorem acceptance_sound_iff_attested :
    letI := FloatOps.exact id id
    (knownKeys.verifyAttestation attested "north" = .ok true → knownKeys.Sound attested "north") ∧
    ((crossVerifyAttestation oneSignature (fun _ => "") (northPeer : FederationPeer ℚ) attested
        (some attested.dataHash) (some fiveMinutes)).passed = true →
      (northPeer : FederationPeer ℚ).Sound oneSignature attested) := by
  let _ := FloatOps.exact id id
  have hiffs := acceptance_sound_iff (by decide +kernel) knownKeys "north" (fun _ => "")
    (northPeer : FederationPeer ℚ) attested (some attested.dataHash) (some fiveMinutes)
  obtain ⟨hsigned, hhash, hproof⟩ := Attestation.verify_eq_ok_true.mp verify_attested
  exact ⟨hiffs.1.mpr fun _ _ _ _ => ⟨hhash, hproof⟩,
    hiffs.2.mpr fun _ _ _ _ => ⟨hsigned, hhash, hproof, rfl⟩⟩

/-- The attestation under the label of another pass. -/
theorem verify_of_same_signedData_attested :
    ({ attested with passId := "other" } : Attestation).verify oneSignature = .ok true :=
  (verify_of_same_signedData (a := attested) rfl verify_attested).mpr ⟨rfl, by decide⟩

/-- The signature of one pass serves for another pass at another time, and no field of the proof
need stay. -/
theorem relabelled_attested :
    Function.Injective oneSignature.sha256 ∧
    attested.verify oneSignature = .ok true ∧
    (Attestation.new "other" attested.dataHash signedMessage
      ⟨1, 2, 3, 4, 5⟩).verify oneSignature = .ok true ∧
    attested.passId ≠ "other" ∧ attested.bitemporalProof ≠ ⟨1, 2, 3, 4, 5⟩ :=
  ⟨messageHash_injective, verify_attested,
    Attestation.verify_eq_ok_true.mpr ⟨verify_signedMessage, dataHash_signedMessage, by decide⟩,
    by decide, by decide⟩

end GroundCore.Federation

/-! The comparison of two digests of 32 bytes.  The cut at 0.95 lies between 30 and 31 bytes of 32,
so one differing byte is let through. -/

namespace GroundCore.Federation.AttestationVerification

open Lib FloatOps

variable {F64 F32 : Type} [FloatOps F64 F32]

/-- At how many places two lists of bytes differ. -/
def differing (a b : List UInt8) : ℕ := (a.zip b).countP fun pair => !decide (pair.1 = pair.2)

theorem matching_add_differing {a b : List UInt8} (h : a.length = b.length) :
    (a.zip b).countP (fun pair => decide (pair.1 = pair.2)) + differing a b = a.length := by
  have hlength : (a.zip b).length = a.length := by rw [List.length_zip, ← h, min_self]
  have hcount := List.length_eq_countP_add_countP
    (fun pair : UInt8 × UInt8 => decide (pair.1 = pair.2)) (l := a.zip b)
  simp only [Bool.decide_eq_true, decide_not] at hcount
  rw [differing, ← hlength, hcount]

theorem differing_eq_zero_iff {a b : List UInt8} (h : a.length = b.length) :
    differing a b = 0 ↔ a = b := by
  induction a generalizing b with
  | nil =>
    obtain rfl := List.length_eq_zero_iff.mp h.symm
    exact iff_of_true rfl rfl
  | cons x a ih =>
    cases b with
    | nil => contradiction
    | cons y b =>
      have hrest := ih (Nat.succ.inj h)
      rw [differing, List.zip_cons_cons, List.countP_cons, List.cons.injEq, ← hrest, differing]
      by_cases hxy : x = y
      · simp [hxy]
      · simp [hxy]

/-- What the comparison needs of the machine's numbers: 31 and 32 bytes of 32 lie above the cut, and
no fewer. -/
structure CutsBelow31 (F64 : Type) {F32 : Type} [FloatOps F64 F32] : Prop where
  one : lt (lit 0.95) (lit 1 : F64) = true
  share : ∀ n : ℕ, n ≤ 32 → (lt (lit 0.95) (lit n / lit ((32 : ℕ) : ℚ) : F64) = true ↔ 31 ≤ n)

variable {crypto : Crypto} {«local» peer : String} {localBytes peerBytes : List UInt8}

theorem lt_computeMatchRate_iff (hcut : CutsBelow31 F64)
    (hlocal : crypto.hexDecode «local» = .ok localBytes)
    (hpeer : crypto.hexDecode peer = .ok peerBytes) (hlocalLength : localBytes.length = 32)
    (hpeerLength : peerBytes.length = 32) :
    lt (lit 0.95) (computeMatchRate crypto «local» peer : F64) = true ↔
      differing localBytes peerBytes ≤ 1 := by
  have hsum := matching_add_differing (hlocalLength.trans hpeerLength.symm)
  unfold computeMatchRate
  split
  · next hsame =>
    -- the same digits stand for the same bytes
    subst hsame
    obtain rfl := Except.ok.inj (hlocal.symm.trans hpeer)
    exact iff_of_true hcut.one ((differing_eq_zero_iff rfl).mpr rfl ▸ Nat.zero_le 1)
  · have hlocalSome : localBytes.isEmpty = false := by
      rw [List.isEmpty_eq_false_iff_exists_mem]
      exact List.exists_mem_of_length_pos (by omega)
    have hpeerSome : peerBytes.isEmpty = false := by
      rw [List.isEmpty_eq_false_iff_exists_mem]
      exact List.exists_mem_of_length_pos (by omega)
    simp only [hlocal, hpeer, hlocalSome, hpeerSome, Bool.or_self, Bool.false_eq_true, if_false,
      matchRate, hlocalLength, hpeerLength, max_self]
    rw [hcut.share _ (by omega)]
    omega

/-- A verification of two digests passes only if they are the same, exactly unless they differ in
one byte and the proofs are consistent. -/
theorem digests_exact_iff (hcut : CutsBelow31 F64) (percent : F64 → String) (passId : PassId)
    (hlocal : crypto.hexDecode «local» = .ok localBytes)
    (hpeer : crypto.hexDecode peer = .ok peerBytes) (hlocalLength : localBytes.length = 32)
    (hpeerLength : peerBytes.length = 32) (peerProof localProof : Option BitemporalProof) :
    ((new crypto percent passId (some «local») peer peerProof localProof).passed = true →
        localBytes = peerBytes) ↔
      differing localBytes peerBytes ≠ 1 ∨
        checkBitemporalConsistency peerProof localProof = false := by
  have hpassed : (new crypto percent passId (some «local») peer peerProof localProof).passed =
      true ↔ differing localBytes peerBytes ≤ 1 ∧
        checkBitemporalConsistency peerProof localProof = true := by
    rw [← lt_computeMatchRate_iff hcut hlocal hpeer hlocalLength hpeerLength]
    exact Bool.and_eq_true _ _ ▸ Iff.rfl
  rw [hpassed, ← differing_eq_zero_iff (hlocalLength.trans hpeerLength.symm), ← Bool.not_eq_true]
  constructor
  · intro h
    by_cases hone : differing localBytes peerBytes = 1
    · exact .inr fun hcheck => by simpa [hone] using h ⟨hone.le, hcheck⟩
    · exact .inl hone
  · rintro (hone | hcheck) ⟨hle, hcheck'⟩
    · omega
    · exact absurd hcheck' hcheck

/-- The digest that a test compares. -/
def digestA : String := "a665a45920422f9d417e4867efdc4fb8a04a1f3fff1fa07e998e86f7f7a27ae3"

/-- The same but for the first digit. -/
def digestB : String := "b665a45920422f9d417e4867efdc4fb8a04a1f3fff1fa07e998e86f7f7a27ae3"

/-- The same but for the first two bytes. -/
def digestC : String := "b6b5a45920422f9d417e4867efdc4fb8a04a1f3fff1fa07e998e86f7f7a27ae3"

def bytesOf (digest : String) : List UInt8 := (hexDecodePairs digest.toList).toOption.getD []

theorem cutsBelow31_exact :
    letI := FloatOps.exact id id
    CutsBelow31 ℚ := by
  let _ := FloatOps.exact id id
  exact ⟨by decide +kernel, by decide +kernel⟩

theorem hexDecode_digestA : oneSignature.hexDecode digestA = .ok (bytesOf digestA) ∧
    (bytesOf digestA).length = 32 := by decide +kernel

/-- Two bytes of 32 differ, and the verification does not pass. -/
theorem digests_exact_iff_two :
    letI := FloatOps.exact id id
    bytesOf digestA ≠ bytesOf digestC ∧
      ¬ (new oneSignature (fun _ : ℚ => "") "pass1" (some digestA) digestC (some fiveMinutes)
        none).passed = true := by
  let _ := FloatOps.exact id id
  obtain ⟨hlocal, hlocalLength⟩ := hexDecode_digestA
  obtain ⟨⟨hpeer, hpeerLength⟩, htwo⟩ : (oneSignature.hexDecode digestC = .ok (bytesOf digestC) ∧
      (bytesOf digestC).length = 32) ∧ differing (bytesOf digestA) (bytesOf digestC) = 2 := by
    decide +kernel
  have hexact := (digests_exact_iff cutsBelow31_exact (fun _ => "") "pass1" hlocal hpeer
    hlocalLength hpeerLength (some fiveMinutes) none).mpr (.inl (by rw [htwo]; decide))
  have hne : bytesOf digestA ≠ bytesOf digestC := by
    rw [Ne, ← differing_eq_zero_iff (hlocalLength.trans hpeerLength.symm), htwo]
    decide
  exact ⟨hne, fun hpassed => hne (hexact hpassed)⟩

/-- One byte of 32 differs, and the verification passes. -/
theorem one_byte_passes :
    letI := FloatOps.exact id id
    (oneSignature.hexDecode digestA = .ok (bytesOf digestA) ∧ (bytesOf digestA).length = 32) ∧
    (oneSignature.hexDecode digestB = .ok (bytesOf digestB) ∧ (bytesOf digestB).length = 32) ∧
    (new oneSignature (fun _ : ℚ => "") "pass1" (some digestA) digestB (some fiveMinutes)
      none).passed = true ∧
    bytesOf digestA ≠ bytesOf digestB := by
  let _ := FloatOps.exact id id
  exact ⟨hexDecode_digestA, by decide +kernel⟩

end GroundCore.Federation.AttestationVerification
