import GroundCore.Lib.Run
import GroundCore.Optical.Attestation.Identity

/-! When the certificates that a satellite loads form one chain.  Beside the manager runs a record
of the calls that succeeded, from which the latest unrevoked certificate of each node is read. -/

namespace GroundCore.Optical.Attestation

open Lib

variable (crypto : CertificateCrypto)

/-- A key pair that was generated. -/
structure Generated where
  keyPairId : Uuid
  signingKey : crypto.SigningKey
  createdAt : DateTime
  validityDays : UInt64

/-- A certificate that was issued, with the key that was current. -/
structure Issue where
  subject : String
  validityDays : UInt64
  signingKey : crypto.SigningKey
  issuedAt : DateTime
  certificateId : Uuid

inductive Entry
  | issued (nodeId : String) (issue : Issue crypto)
  | revoked (nodeId : String)

/-- A manager, the pair that it uses, and what it did, latest first. -/
structure Session where
  manager : ControlPlaneCertificateManager
  pair : Option (Generated crypto)
  log : List (Entry crypto)

/-- A call, with the random bytes and the readings of the clock that it uses. -/
inductive Call
  | initializeSharedKeyPair (validityDays : UInt64) (keypairBytes : Bytes 64) (now : DateTime)
      (keyPairId : Uuid)
  | issueControlNodeCertificate (nodeId subject : String) (validityDays : UInt64)
      (checkedAt now : DateTime) (certificateId : Uuid)
  | revokeCertificate (nodeId : String)

variable {crypto}

namespace Generated

def expiresAt (p : Generated crypto) : DateTime := p.createdAt + validity p.validityDays

/-- The pair as the manager stores it. -/
def stored (p : Generated crypto) : ControlPlaneKeyPair :=
  { keyPairId := p.keyPairId, publicKey := (crypto.asBytes (crypto.verifyingKey p.signingKey)).1
    privateKey := (crypto.signingKeyToBytes p.signingKey).1
    createdAt := p.createdAt, expiresAt := p.expiresAt }

end Generated

namespace Issue

def expiresAt (i : Issue crypto) : DateTime := i.issuedAt + validity i.validityDays

def certificate (i : Issue crypto) : IdentityCertificate :=
  IdentityCertificate.signedBy crypto "GroundCore Control Plane" i.subject i.validityDays
    (i.signingKey, crypto.verifyingKey i.signingKey) i.issuedAt i.certificateId

end Issue

/-- The latest certificate of a node that no later entry revokes. -/
def latest : List (Entry crypto) → String → Option (Issue crypto)
  | [], _ => none
  | .issued nodeId issue :: log, node => if node = nodeId then some issue else latest log node
  | .revoked nodeId :: log, node => if node = nodeId then none else latest log node

namespace Session

def new : Session crypto := { manager := .new, pair := none, log := [] }

/-- The manager makes the call; what succeeded is recorded. -/
def step (s : Session crypto) : Call → Session crypto
  | .initializeSharedKeyPair validityDays keypairBytes now keyPairId =>
    match s.manager.initializeSharedKeyPair crypto validityDays keypairBytes now keyPairId,
      crypto.fromKeypairBytes keypairBytes with
    | some manager, some signingKey =>
      { s with manager, pair := some { keyPairId, signingKey, createdAt := now, validityDays } }
    | _, _ => s
  | .issueControlNodeCertificate nodeId subject validityDays checkedAt now certificateId =>
    match s.manager.issueControlNodeCertificate crypto nodeId subject validityDays checkedAt now
      certificateId, s.pair with
    | (manager, .ok _), some pair =>
      { s with
        manager
        log := .issued nodeId { subject, validityDays, signingKey := pair.signingKey
                                issuedAt := now, certificateId } :: s.log }
    | (manager, _), _ => { s with manager }
  | .revokeCertificate nodeId =>
    match s.manager.revokeCertificate nodeId with
    | (manager, .ok _) => { s with manager, log := .revoked nodeId :: s.log }
    | (manager, .error _) => { s with manager }

/-- The manager holds the recorded pair, and of each node the latest certificate. -/
structure Recorded (s : Session crypto) : Prop where
  pair : s.manager.sharedKeyPair = s.pair.map Generated.stored
  issued : ∀ node, s.manager.issuedCertificates.get? node =
    (latest s.log node).map Issue.certificate

theorem recorded_new : (new : Session crypto).Recorded where
  pair := rfl
  issued _ := by rw [new, ControlPlaneCertificateManager.new, HashMap.get?_empty]; rfl

theorem readKeypair_stored (hlawful : crypto.Lawful) (p : Generated crypto) :
    ControlPlaneCertificateManager.readKeypair crypto p.stored =
      .ok (p.signingKey, crypto.verifyingKey p.signingKey) := by
  have hprivate := (crypto.signingKeyToBytes p.signingKey).2
  have hpublic := (crypto.asBytes (crypto.verifyingKey p.signingKey)).2
  rw [ControlPlaneCertificateManager.readKeypair, Generated.stored, dif_pos hprivate,
    dif_pos hpublic]
  simp only [hlawful.verifyingKey, hlawful.signingKey]

/-- What issuing does with a recorded pair: nothing when the pair has expired. -/
theorem issue_of_recorded (hlawful : crypto.Lawful) {m : ControlPlaneCertificateManager}
    {p : Generated crypto} (hpair : m.sharedKeyPair = some p.stored) (nodeId subject : String)
    (validityDays : UInt64) (checkedAt now : DateTime) (certificateId : Uuid) :
    let certificate := Issue.certificate
      { subject, validityDays, signingKey := p.signingKey, issuedAt := now, certificateId }
    m.issueControlNodeCertificate crypto nodeId subject validityDays checkedAt now certificateId =
      if checkedAt < p.expiresAt then
        ({ m with issuedCertificates := m.issuedCertificates.insert nodeId certificate },
          .ok certificate)
      else (m, .error .keyPairExpired) := by
  simp only [ControlPlaneCertificateManager.issueControlNodeCertificate, hpair,
    ControlPlaneKeyPair.isValid, readKeypair_stored hlawful]
  by_cases hvalid : checkedAt < p.expiresAt
  · rw [if_pos hvalid]
    simp [Generated.stored, hvalid, Issue.certificate]
  · rw [if_neg hvalid]
    simp [Generated.stored, hvalid]

theorem recorded_initialize {s : Session crypto} (h : s.Recorded) (validityDays : UInt64)
    (keypairBytes : Bytes 64) (now : DateTime) (keyPairId : Uuid) :
    (s.step (.initializeSharedKeyPair validityDays keypairBytes now keyPairId)).Recorded := by
  simp only [step, ControlPlaneCertificateManager.initializeSharedKeyPair, ControlPlaneKeyPair.new]
  cases hkey : crypto.fromKeypairBytes keypairBytes with
  | none => exact h
  | some signingKey => exact ⟨rfl, h.issued⟩

theorem recorded_issue (hlawful : crypto.Lawful) {s : Session crypto} (h : s.Recorded)
    (nodeId subject : String) (validityDays : UInt64) (checkedAt now : DateTime)
    (certificateId : Uuid) :
    (s.step (.issueControlNodeCertificate nodeId subject validityDays checkedAt now
      certificateId)).Recorded := by
  simp only [step]
  cases hp : s.pair with
  | none =>
    have hpair : s.manager.sharedKeyPair = none := by rw [h.pair, hp]; rfl
    simp only [ControlPlaneCertificateManager.issueControlNodeCertificate, hpair]
    exact ⟨hpair, h.issued⟩
  | some p =>
    have hpair : s.manager.sharedKeyPair = some p.stored := by rw [h.pair, hp]; rfl
    rw [issue_of_recorded hlawful hpair]
    by_cases hvalid : checkedAt < p.expiresAt
    · rw [if_pos hvalid]
      refine ⟨hpair, fun node => ?_⟩
      simp only [latest, HashMap.get?_insert]
      by_cases hnode : node = nodeId
      · rw [if_pos hnode, if_pos hnode]
        rfl
      · rw [if_neg hnode, if_neg hnode]
        exact h.issued node
    · rw [if_neg hvalid]
      exact ⟨hpair, h.issued⟩

theorem recorded_revoke {s : Session crypto} (h : s.Recorded) (nodeId : String) :
    (s.step (.revokeCertificate nodeId)).Recorded := by
  simp only [step, ControlPlaneCertificateManager.revokeCertificate]
  cases hget : s.manager.issuedCertificates.get? nodeId with
  | none => exact ⟨h.pair, h.issued⟩
  | some certificate =>
    refine ⟨h.pair, fun node => ?_⟩
    simp only [latest, HashMap.get?_erase]
    by_cases hnode : node = nodeId
    · rw [if_pos hnode, if_pos hnode]
      rfl
    · rw [if_neg hnode, if_neg hnode]
      exact h.issued node

theorem recorded_run (hlawful : crypto.Lawful) (calls : List Call) :
    (run step (new : Session crypto) calls).Recorded := by
  refine run_preserves (fun s call h => ?_) recorded_new calls
  cases call with
  | initializeSharedKeyPair validityDays keypairBytes now keyPairId =>
    exact recorded_initialize h validityDays keypairBytes now keyPairId
  | issueControlNodeCertificate nodeId subject validityDays checkedAt now certificateId =>
    exact recorded_issue hlawful h nodeId subject validityDays checkedAt now certificateId
  | revokeCertificate nodeId => exact recorded_revoke h nodeId

end Session

/-! ### What a satellite loads -/

namespace PreloadedCertificates

/-- The root's key is the one that signed the certificates of the nodes. -/
def SameSigner (p : PreloadedCertificates) : Prop :=
  ∀ node certificate, p.controlNodeCertificates.get? node = some certificate →
    certificate.signerPublicKey = p.rootCertificate.signerPublicKey

/-- No certificate is valid for longer than the pair. -/
def NoneOutlives (p : PreloadedCertificates) (keyPair : ControlPlaneKeyPair) : Prop :=
  p.rootCertificate.expiresAt ≤ keyPair.expiresAt ∧
    ∀ node certificate, p.controlNodeCertificates.get? node = some certificate →
      certificate.expiresAt ≤ keyPair.expiresAt

theorem controlNodeCertificates_foldl (entries : List (String × IdentityCertificate))
    (p : PreloadedCertificates) :
    (entries.foldl (fun p e => p.addControlNodeCertificate e.1 e.2) p).controlNodeCertificates =
      entries.foldl (fun m e => m.insert e.1 e.2) p.controlNodeCertificates := by
  induction entries generalizing p with
  | nil => rfl
  | cons e entries ih => exact ih (p.addControlNodeCertificate e.1 e.2)

theorem rootCertificate_foldl (entries : List (String × IdentityCertificate))
    (p : PreloadedCertificates) :
    (entries.foldl (fun p e => p.addControlNodeCertificate e.1 e.2) p).rootCertificate =
      p.rootCertificate := by
  induction entries generalizing p with
  | nil => rfl
  | cons e entries ih => exact ih (p.addControlNodeCertificate e.1 e.2)

end PreloadedCertificates

theorem signerPublicKey_inj (hlawful : crypto.Lawful) {key key' : crypto.VerifyingKey} :
    hexLower (crypto.asBytes key).1 = hexLower (crypto.asBytes key').1 ↔ key = key' := by
  rw [hexLower_inj, ← Subtype.ext_iff]
  refine ⟨fun h => ?_, fun h => h ▸ rfl⟩
  have hread := hlawful.verifyingKey key
  rw [h, hlawful.verifyingKey] at hread
  exact (Option.some.inj hread).symm

/-- What the manager hands out, by the record. -/
theorem preloaded_of_recorded {s : Session crypto} (h : s.Recorded)
    {ord : IterOrder (String × IdentityCertificate)} {keypairBytes : Bytes 64}
    {now loadedAt : DateTime} {certificateId : Uuid} {rootKey : crypto.SigningKey}
    (hroot : crypto.fromKeypairBytes keypairBytes = some rootKey)
    {preloaded : PreloadedCertificates}
    (hload : s.manager.getPreloadedCertificates crypto ord keypairBytes now loadedAt
      certificateId = some (.ok preloaded)) :
    (∃ pair, s.pair = some pair) ∧
    preloaded.rootCertificate = IdentityCertificate.signedBy crypto "GroundCore Root CA"
      "GroundCore Root" 365 (rootKey, crypto.verifyingKey rootKey) now certificateId ∧
    ∀ node, preloaded.controlNodeCertificates.get? node =
      (latest s.log node).map Issue.certificate := by
  unfold ControlPlaneCertificateManager.getPreloadedCertificates IdentityCertificate.new at hload
  cases hp : s.pair with
  | none =>
    have hpair : s.manager.sharedKeyPair = none := by rw [h.pair, hp]; rfl
    simp [hpair] at hload
  | some p =>
    have hpair : s.manager.sharedKeyPair = some p.stored := by rw [h.pair, hp]; rfl
    simp only [hpair, hroot, Option.map_some, Option.some.injEq, Except.ok.injEq] at hload
    subst hload
    refine ⟨⟨p, rfl⟩, PreloadedCertificates.rootCertificate_foldl _ _, fun node => ?_⟩
    rw [PreloadedCertificates.controlNodeCertificates_foldl, ← h.issued node]
    exact HashMap.get?_foldl_insert_entries ord _ node

theorem exists_preloaded {m : ControlPlaneCertificateManager} {keyPair : ControlPlaneKeyPair}
    (hpair : m.sharedKeyPair = some keyPair) (ord : IterOrder (String × IdentityCertificate))
    {keypairBytes : Bytes 64} {rootKey : crypto.SigningKey}
    (hroot : crypto.fromKeypairBytes keypairBytes = some rootKey) (now loadedAt : DateTime)
    (certificateId : Uuid) : ∃ preloaded, m.getPreloadedCertificates crypto ord keypairBytes now
      loadedAt certificateId = some (.ok preloaded) := by
  simp only [ControlPlaneCertificateManager.getPreloadedCertificates, IdentityCertificate.new,
    hpair, hroot, Option.map_some]
  exact ⟨_, rfl⟩

/-- After every run a satellite loads the latest unrevoked certificate of each node.  The root's key
signed them all exactly when each was issued under the very key that is generated for the root, and
none outlives the pair exactly when neither the year of the root nor the days of an issue do. -/
theorem preloaded_chain_iff (hlawful : crypto.Lawful) (calls : List Call)
    (ord : IterOrder (String × IdentityCertificate)) (keypairBytes : Bytes 64)
    (now loadedAt : DateTime) (certificateId : Uuid) (rootKey : crypto.SigningKey)
    (hroot : crypto.fromKeypairBytes keypairBytes = some rootKey)
    (preloaded : PreloadedCertificates)
    (hload : (run Session.step (Session.new : Session crypto)
      calls).manager.getPreloadedCertificates crypto ord keypairBytes now loadedAt certificateId =
        some (.ok preloaded)) :
    let s := run Session.step (Session.new : Session crypto) calls
    (∀ node, preloaded.getControlNodeCertificate node =
      (latest s.log node).map Issue.certificate) ∧
    (preloaded.SameSigner ↔ ∀ node issue, latest s.log node = some issue →
      crypto.verifyingKey issue.signingKey = crypto.verifyingKey rootKey) ∧
    ∃ pair, s.pair = some pair ∧
      (preloaded.NoneOutlives pair.stored ↔ now + validity 365 ≤ pair.expiresAt ∧
        ∀ node issue, latest s.log node = some issue → issue.expiresAt ≤ pair.expiresAt) := by
  intro s
  have hrecorded : s.Recorded := Session.recorded_run hlawful calls
  obtain ⟨⟨pair, hpair⟩, hrootCertificate, hcontents⟩ :=
    preloaded_of_recorded hrecorded hroot hload
  refine ⟨hcontents, ?_, pair, hpair, ?_⟩
  · unfold PreloadedCertificates.SameSigner
    rw [hrootCertificate]
    simp only [hcontents, Option.map_eq_some_iff]
    constructor
    · intro hsame node issue hlatest
      exact (signerPublicKey_inj hlawful).mp (hsame node _ ⟨issue, hlatest, rfl⟩)
    · rintro hsame node _ ⟨issue, hlatest, rfl⟩
      exact (signerPublicKey_inj hlawful).mpr (hsame node issue hlatest)
  · unfold PreloadedCertificates.NoneOutlives
    rw [hrootCertificate]
    simp only [hcontents, Option.map_eq_some_iff]
    refine and_congr_right fun _ => ⟨?_, ?_⟩
    · intro hend node issue hlatest
      exact hend node _ ⟨issue, hlatest, rfl⟩
    · rintro hend node _ ⟨issue, hlatest, rfl⟩
      exact hend node issue hlatest

/-! ### Two keys -/

/-- The signing keys that the random bytes may be. -/
inductive TestKey
  | first
  | second
  deriving DecidableEq

namespace TestKey

def secretHex : TestKey → String
  | first => "9d61b19deffd5a60ba844af492ec2cc44449c5697b326919703bac031cae7f60"
  | second => "4ccd089b28ff96da9db6c346ec114e0f5b8a319f35aba624da8cf6ed4fb8a6fb"

def publicHex : TestKey → String
  | first => "d75a980182b10ab7d54bfed3c964073a0ee172f3daa62325af021a68f707511a"
  | second => "3d4017c3e843895a92b70aa74d1b7ebc9c982ccf2ec4968cc0cd55f12af4660c"

/-- The bytes of a text, cut or filled with zeros to the length `n`. -/
def bytes (n : ℕ) (text : String) : Bytes n :=
  ⟨((hexDecodePairs text.toList).toOption.getD [] ++ List.replicate n 0).take n, by simp⟩

def keypairBytes (key : TestKey) : Bytes 64 := bytes 64 (key.secretHex ++ key.publicHex)

/-- The key whose bytes, as `form` writes them, are the given ones. -/
def read {n : ℕ} (form : TestKey → Bytes n) (bytes : Bytes n) : Option TestKey :=
  [first, second].find? fun key => bytes = form key

theorem read_form {n : ℕ} {form : TestKey → Bytes n} (h : form first ≠ form second)
    (key : TestKey) : read form (form key) = some key := by
  cases key with
  | first => simp [read]
  | second => simp [read, Ne.symm h]

end TestKey

/-- The two key pairs, with signatures that are not looked at. -/
def twoKeys : CertificateCrypto where
  SigningKey := TestKey
  VerifyingKey := TestKey
  Signature := TestKey × List UInt8
  sha256 := sha256
  hexDecode s := (hexDecodePairs s.toList).toOption
  fromKeypairBytes := TestKey.read TestKey.keypairBytes
  verifyingKey key := key
  asBytes key := TestKey.bytes 32 key.publicHex
  fromBytes := TestKey.read fun key => TestKey.bytes 32 key.publicHex
  sign key data := (key, data)
  toBytes signature := TestKey.bytes 64 (signature.1.publicHex ++ signature.1.secretHex)
  signatureTryFrom _ := none
  verify _ _ _ := false
  signingKeyToBytes key := TestKey.bytes 32 key.secretHex
  signingKeyFromBytes bytes :=
    (TestKey.read (fun key => TestKey.bytes 32 key.secretHex) bytes).getD .first
  fromBytesError := "signature error"
  toRfc3339 time :=
    if time = 0 then "1970-01-01T00:00:00+00:00"
    else if time = validity 365 then "1971-01-01T00:00:00+00:00"
    else "1972-01-01T00:00:00+00:00"

theorem fromKeypairBytes_twoKeys (key : TestKey) :
    twoKeys.fromKeypairBytes key.keypairBytes = some key :=
  TestKey.read_form (by decide +kernel) key

theorem lawful_twoKeys : twoKeys.Lawful where
  signingKey key := by
    have hread : TestKey.read (fun key => TestKey.bytes 32 key.secretHex)
        (TestKey.bytes 32 (TestKey.secretHex key)) = some key :=
      TestKey.read_form (by decide +kernel) key
    exact congrArg (Option.getD · TestKey.first) hread
  verifyingKey key := by
    have hread : TestKey.read (fun key => TestKey.bytes 32 key.publicHex)
        (TestKey.bytes 32 (TestKey.publicHex key)) = some key :=
      TestKey.read_form (by decide +kernel) key
    exact hread

def zeroUuid : Uuid := ⟨List.replicate 16 0, rfl⟩

/-- The pair of the first key, for a year. -/
def yearPair : Generated twoKeys :=
  { keyPairId := zeroUuid, signingKey := TestKey.first, createdAt := 0, validityDays := 365 }

/-- A certificate of the first key, for two years. -/
def twoYearIssue : Issue twoKeys :=
  { subject := "Node 1", validityDays := 730, signingKey := TestKey.first, issuedAt := 0
    certificateId := zeroUuid }

def yearCalls : List Call :=
  [.initializeSharedKeyPair 365 TestKey.first.keypairBytes 0 zeroUuid,
   .issueControlNodeCertificate "node-1" "Node 1" 730 0 0 zeroUuid]

def yearSession : Session twoKeys := run Session.step Session.new yearCalls

theorem yearSession_eq :
    yearSession.pair = some yearPair ∧ yearSession.log = [.issued "node-1" twoYearIssue] := by
  have hfirst : (Session.new : Session twoKeys).step
      (.initializeSharedKeyPair 365 TestKey.first.keypairBytes 0 zeroUuid) =
        { manager := { sharedKeyPair := some yearPair.stored, issuedCertificates := ∅ }
          pair := some yearPair, log := [] } := by
    simp only [Session.step, ControlPlaneCertificateManager.initializeSharedKeyPair,
      ControlPlaneKeyPair.new]
    rw [fromKeypairBytes_twoKeys]
    rfl
  rw [yearSession, yearCalls, run_cons, hfirst, run_cons, run_nil, Session.step,
    Session.issue_of_recorded lawful_twoKeys rfl, if_pos (by decide)]
  exact ⟨rfl, rfl⟩

theorem loaded_yearSession : ∃ preloaded,
    yearSession.manager.getPreloadedCertificates twoKeys (.stored _)
      TestKey.second.keypairBytes 0 0 zeroUuid = some (.ok preloaded) := by
  have hrecorded : yearSession.Recorded := Session.recorded_run lawful_twoKeys yearCalls
  have hpair : yearSession.manager.sharedKeyPair = some yearPair.stored := by
    rw [hrecorded.pair, yearSession_eq.1]
    rfl
  exact exists_preloaded hpair _ (fromKeypairBytes_twoKeys .second) 0 0 zeroUuid

/-- The root's key did not sign the node's certificate, which outlives the pair by a year. -/
theorem preloaded_chain_fails : ∃ preloaded,
    yearSession.manager.getPreloadedCertificates twoKeys (.stored _)
      TestKey.second.keypairBytes 0 0 zeroUuid = some (.ok preloaded) ∧
    ¬ preloaded.SameSigner ∧ ∃ pair, yearSession.pair = some pair ∧
      ¬ preloaded.NoneOutlives pair.stored := by
  have hrecorded : yearSession.Recorded := Session.recorded_run lawful_twoKeys yearCalls
  obtain ⟨preloaded, hload⟩ := loaded_yearSession
  obtain ⟨-, hrootCertificate, hcontents⟩ :=
    preloaded_of_recorded hrecorded (fromKeypairBytes_twoKeys .second) hload
  have hnode : preloaded.controlNodeCertificates.get? "node-1" = some twoYearIssue.certificate := by
    rw [hcontents, yearSession_eq.2]
    rfl
  refine ⟨preloaded, hload, fun hsame => ?_, yearPair, yearSession_eq.1, fun hnone => ?_⟩
  · have hkey := hsame "node-1" _ hnode
    rw [hrootCertificate] at hkey
    exact absurd ((signerPublicKey_inj lawful_twoKeys).mp hkey) (by
      show TestKey.first ≠ TestKey.second
      decide)
  · exact absurd (hnone.2 "node-1" _ hnode) (by decide +kernel)

theorem preloaded_chain_iff_year : ∃ preloaded,
    yearSession.manager.getPreloadedCertificates twoKeys (.stored _)
      TestKey.second.keypairBytes 0 0 zeroUuid = some (.ok preloaded) ∧
    (preloaded.SameSigner ↔ ∀ node issue, latest yearSession.log node = some issue →
      twoKeys.verifyingKey issue.signingKey = TestKey.second) ∧
    ∃ pair, yearSession.pair = some pair ∧
      (preloaded.NoneOutlives pair.stored ↔ 0 + validity 365 ≤ pair.expiresAt ∧
        ∀ node issue, latest yearSession.log node = some issue →
          issue.expiresAt ≤ pair.expiresAt) := by
  obtain ⟨preloaded, hload⟩ := loaded_yearSession
  exact ⟨preloaded, hload, (preloaded_chain_iff lawful_twoKeys yearCalls (.stored _)
    TestKey.second.keypairBytes 0 0 zeroUuid .second (fromKeypairBytes_twoKeys .second) preloaded
    hload).2⟩

end GroundCore.Optical.Attestation
