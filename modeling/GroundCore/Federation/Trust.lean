import GroundCore.Federation.Verification
import GroundCore.Lib.FiniteFloat
import GroundCore.Lib.HashMap
import GroundCore.Lib.Run

/-! The trust that a peer earns by its attestations: a score that moves with each verification, a
status by thresholds of the score, and a bounded history. -/

namespace GroundCore.Federation

open Lib FloatOps

def maxAttestationHistory : ℕ := 200

structure PeerTrustScore (F64 : Type) where
  score : F64
  successes : ℕ
  failures : ℕ
  total : ℕ

structure PeerManager (F64 : Type) where
  peers : HashMap PeerId (FederationPeer F64)

section Operations

variable {F64 F32 : Type} [FloatOps F64 F32]

namespace PeerTrustScore

def new : PeerTrustScore F64 := { score := lit 0.5, successes := 0, failures := 0, total := 0 }

/-- The bounds come first, because `min` and `max` pass over an undefined number. -/
def update (trust : PeerTrustScore F64) (passed : Bool) (matchRate : F64) : PeerTrustScore F64 :=
  let trust := { trust with total := trust.total + 1 }
  if passed then
    let increase := lit 0.1 * matchRate
    { trust with
      successes := trust.successes + 1
      score := fmin (lit 1) (trust.score + increase) }
  else
    let decrease : F64 := lit 0.2
    { trust with
      failures := trust.failures + 1
      score := fmax (lit 0) (trust.score - decrease) }

def status (trust : PeerTrustScore F64) : PeerStatus :=
  if le (lit 0.8) trust.score then .trusted
  else if le (lit 0.5) trust.score then .untrusted
  else if le (lit 0.2) trust.score then .suspicious
  else .blacklisted

end PeerTrustScore

namespace FederationPeer

/-- `now` is the reading of the clock. -/
def new (stationId : PeerId) (publicKey : String) (now : DateTime) : FederationPeer F64 :=
  { stationId, publicKey, attestationHistory := [], trustScore := lit 0.5, status := .untrusted
    addedAt := now, lastVerification := none, totalAttestations := 0 }

/-- The trust score with the counts of the history. -/
def trust (peer : FederationPeer F64) : PeerTrustScore F64 :=
  { score := peer.trustScore
    successes := peer.attestationHistory.countP fun r => r.verification.passed
    failures := peer.attestationHistory.countP fun r => !r.verification.passed
    total := peer.totalAttestations }

/-- The score and the status after one verification. -/
def updateTrust (peer : FederationPeer F64) (passed : Bool) (matchRate : F64) :
    FederationPeer F64 :=
  let trust := peer.trust.update passed matchRate
  { peer with trustScore := trust.score, status := trust.status }

def addAttestation (peer : FederationPeer F64) (record : AttestationRecord F64) (now : DateTime) :
    FederationPeer F64 :=
  let history :=
    if peer.attestationHistory.length ≥ maxAttestationHistory then peer.attestationHistory.tail
    else peer.attestationHistory
  let peer :=
    { peer with
      attestationHistory := history ++ [record]
      totalAttestations := peer.totalAttestations + 1
      lastVerification := some now }
  match peer.attestationHistory.getLast? with
  | none => peer
  | some latest => peer.updateTrust latest.verification.passed latest.verification.matchRate

end FederationPeer

/-- `received` and `now` are the two readings of the clock. -/
def updatePeerFromVerification (peer : FederationPeer F64)
    (verification : AttestationVerification F64) (received now : DateTime) : FederationPeer F64 :=
  peer.addAttestation (recordOf verification received) now

namespace PeerManager

def new : PeerManager F64 := { peers := ∅ }

def addPeer (m : PeerManager F64) (peer : FederationPeer F64) : PeerManager F64 :=
  { peers := m.peers.insert peer.stationId peer }

def getPeer (m : PeerManager F64) (peerId : PeerId) : Option (FederationPeer F64) :=
  m.peers.get? peerId

def updateTrust (m : PeerManager F64) (peerId : PeerId) (passed : Bool) (matchRate : F64) :
    PeerManager F64 :=
  { peers := m.peers.modify peerId fun peer => peer.updateTrust passed matchRate }

end PeerManager

/-! ### Calls -/

/-- A call on the peer with the given identifier: an attestation is added to a copy of the peer,
which then takes its place in the manager. -/
inductive TrustCall (F64 : Type)
  | addAttestation (peerId : PeerId) (record : AttestationRecord F64) (now : DateTime)
  | updateTrust (peerId : PeerId) (passed : Bool) (matchRate : F64)

namespace TrustCall

def peerId : TrustCall F64 → PeerId
  | addAttestation peerId _ _ => peerId
  | updateTrust peerId _ _ => peerId

def passed : TrustCall F64 → Bool
  | addAttestation _ record _ => record.verification.passed
  | updateTrust _ passed _ => passed

def matchRate : TrustCall F64 → F64
  | addAttestation _ record _ => record.verification.matchRate
  | updateTrust _ _ matchRate => matchRate

/-- The record that the call adds. -/
def record? : TrustCall F64 → Option (AttestationRecord F64)
  | addAttestation _ record _ => some record
  | updateTrust _ _ _ => none

end TrustCall

def PeerManager.step (m : PeerManager F64) : TrustCall F64 → PeerManager F64
  | .addAttestation peerId record now =>
    match m.getPeer peerId with
    | none => m
    | some peer => m.addPeer (peer.addAttestation record now)
  | .updateTrust peerId passed matchRate => m.updateTrust peerId passed matchRate

def FederationPeer.step (peer : FederationPeer F64) : TrustCall F64 → FederationPeer F64
  | .addAttestation _ record now => peer.addAttestation record now
  | .updateTrust _ passed matchRate => peer.updateTrust passed matchRate

/-! ### What one call does -/

/-- An attestation is recorded, then moves the trust like any other verification. -/
theorem FederationPeer.addAttestation_eq (peer : FederationPeer F64)
    (record : AttestationRecord F64) (now : DateTime) :
    peer.addAttestation record now =
      ({ peer with
        attestationHistory :=
          (if peer.attestationHistory.length ≥ maxAttestationHistory then
            peer.attestationHistory.tail
          else peer.attestationHistory) ++ [record]
        totalAttestations := peer.totalAttestations + 1
        lastVerification := some now } : FederationPeer F64).updateTrust
        record.verification.passed record.verification.matchRate := by
  unfold addAttestation
  simp only [List.getLast?_concat]

@[simp] theorem FederationPeer.stationId_step (peer : FederationPeer F64) (c : TrustCall F64) :
    (peer.step c).stationId = peer.stationId := by
  cases c with
  | addAttestation peerId record now =>
    show (peer.addAttestation record now).stationId = peer.stationId
    rw [addAttestation_eq]
    rfl
  | updateTrust peerId passed matchRate => rfl

/-! ### Every peer of the manager on its own -/

/-- Every peer is stored under its own identifier. -/
def PeerManager.Keyed (m : PeerManager F64) : Prop :=
  ∀ peerId peer, m.getPeer peerId = some peer → peer.stationId = peerId

theorem PeerManager.getPeer_addPeer (m : PeerManager F64) (peer : FederationPeer F64)
    (peerId : PeerId) :
    (m.addPeer peer).getPeer peerId =
      if peerId = peer.stationId then some peer else m.getPeer peerId :=
  HashMap.get?_insert _ _ _ _

theorem PeerManager.Keyed.addPeer {m : PeerManager F64} (h : m.Keyed) (peer : FederationPeer F64) :
    (m.addPeer peer).Keyed := by
  intro peerId found hfound
  rw [getPeer_addPeer] at hfound
  by_cases heq : peerId = peer.stationId
  · rw [if_pos heq] at hfound
    rw [← Option.some.inj hfound, heq]
  · rw [if_neg heq] at hfound
    exact h peerId found hfound

theorem PeerManager.keyed_foldl_addPeer (peers : List (FederationPeer F64)) :
    (peers.foldl PeerManager.addPeer PeerManager.new).Keyed := by
  induction peers using List.reverseRecOn with
  | nil =>
    intro peerId peer h
    exact absurd h (by simp [PeerManager.new, PeerManager.getPeer])
  | append_singleton peers peer ih =>
    rw [List.foldl_concat]
    exact ih.addPeer peer

/-- A call changes the peer that it names, as it would change the peer alone, and no other. -/
theorem PeerManager.getPeer_step {m : PeerManager F64} (h : m.Keyed) (c : TrustCall F64)
    (peerId : PeerId) :
    (m.step c).getPeer peerId =
      if c.peerId = peerId then (m.getPeer peerId).map fun peer => peer.step c
      else m.getPeer peerId := by
  cases c with
  | addAttestation named record now =>
    show (m.step (.addAttestation named record now)).getPeer peerId =
      if named = peerId then _ else _
    cases hpeer : m.getPeer named with
    | none =>
      have hstep : m.step (.addAttestation named record now) = m := by
        simp only [PeerManager.step, hpeer]
      rw [hstep]
      by_cases heq : named = peerId
      · subst heq
        simp [hpeer]
      · rw [if_neg heq]
    | some peer =>
      have hstep : m.step (.addAttestation named record now) =
          m.addPeer (peer.addAttestation record now) := by
        simp only [PeerManager.step, hpeer]
      have hid : (peer.addAttestation record now).stationId = named :=
        (peer.stationId_step (.addAttestation named record now)).trans (h named peer hpeer)
      rw [hstep, getPeer_addPeer, hid]
      by_cases heq : named = peerId
      · subst heq
        rw [if_pos rfl, if_pos rfl, hpeer]
        rfl
      · rw [if_neg heq, if_neg (Ne.symm heq)]
  | updateTrust named passed matchRate =>
    show (m.peers.modify named _).get? peerId = if named = peerId then _ else _
    rw [HashMap.get?_modify]
    simp only [eq_comm (a := peerId)]
    rfl

theorem PeerManager.Keyed.step {m : PeerManager F64} (h : m.Keyed) (c : TrustCall F64) :
    (m.step c).Keyed := by
  intro peerId peer hpeer
  rw [getPeer_step h] at hpeer
  by_cases heq : c.peerId = peerId
  · rw [if_pos heq, Option.map_eq_some_iff] at hpeer
    obtain ⟨before, hbefore, rfl⟩ := hpeer
    rw [FederationPeer.stationId_step]
    exact h peerId before hbefore
  · rw [if_neg heq] at hpeer
    exact h peerId peer hpeer

/-- A run of calls changes each peer by the calls that name it. -/
theorem PeerManager.getPeer_run {m : PeerManager F64} (h : m.Keyed) (calls : List (TrustCall F64))
    {peerId : PeerId} {peer : FederationPeer F64} (hpeer : m.getPeer peerId = some peer) :
    (run PeerManager.step m calls).getPeer peerId =
      some (run FederationPeer.step peer (calls.filter fun c => c.peerId = peerId)) := by
  induction calls generalizing m peer with
  | nil => exact hpeer
  | cons c calls ih =>
    have hstep := getPeer_step h c peerId
    rw [hpeer] at hstep
    by_cases heq : c.peerId = peerId
    · rw [if_pos heq] at hstep
      rw [run_cons, ih (h.step c) hstep, List.filter_cons_of_pos (by simpa using heq), run_cons]
    · rw [if_neg heq] at hstep
      rw [run_cons, ih (h.step c) hstep, List.filter_cons_of_neg (by simpa using heq)]

end Operations

/-! ### The score, the status and the history over runs -/

section Runs

open ExactFloat

variable {F64 F32 : Type} [FloatOps F64 F32] [ExactFloat F64 F32]

theorem FederationPeer.trustScore_step (peer : FederationPeer F64) (c : TrustCall F64) :
    val (peer.step c).trustScore =
      if c.passed then min 1 (val peer.trustScore + 1 / 10 * val c.matchRate)
      else max 0 (val peer.trustScore - 1 / 5) := by
  have hupdate : ∀ (peer : FederationPeer F64) passed matchRate,
      val (peer.updateTrust passed matchRate).trustScore =
        if passed then min 1 (val peer.trustScore + 1 / 10 * val matchRate)
        else max 0 (val peer.trustScore - 1 / 5) := by
    intro peer passed matchRate
    cases passed with
    | true =>
      show val (fmin (lit 1) (peer.trustScore + lit 0.1 * matchRate)) = _
      rw [val_fmin, val_lit, val_add, val_mul, val_lit]
      norm_num
    | false =>
      show val (fmax (lit 0) (peer.trustScore - lit 0.2)) = _
      rw [val_fmax, val_lit, val_sub, val_lit]
      norm_num
  cases c with
  | addAttestation peerId record now =>
    show val (peer.addAttestation record now).trustScore = _
    rw [addAttestation_eq, hupdate]
    rfl
  | updateTrust peerId passed matchRate => exact hupdate peer passed matchRate

/-- What the calls so far have made of a peer that they have given `records`. -/
structure Earned (peer : FederationPeer F64) (records : List (AttestationRecord F64)) : Prop where
  score_le : val peer.trustScore ≤ 1
  status : peer.status = peer.trust.status
  history : peer.attestationHistory = records.drop (records.length - maxAttestationHistory)
  total : peer.totalAttestations = records.length

theorem earned_new (stationId : PeerId) (publicKey : String) (now : DateTime) :
    Earned (FederationPeer.new stationId publicKey now : FederationPeer F64) [] := by
  have hscore : val (FederationPeer.new stationId publicKey now : FederationPeer F64).trustScore =
      0.5 := val_lit 0.5
  refine ⟨?_, ?_, List.drop_nil.symm, rfl⟩
  · rw [hscore]
    norm_num
  · show PeerStatus.untrusted =
      if le (lit 0.8) (lit 0.5 : F64) then _ else if le (lit 0.5) (lit 0.5 : F64) then _ else _
    rw [if_neg (by rw [le_iff, val_lit, val_lit]; norm_num),
      if_pos ((le_iff _ _).mpr le_rfl)]

/-- The oldest record leaves a full history. -/
theorem drop_concat_of_full {α : Type} (n : ℕ) (hn : 0 < n) (records : List α) (record : α) :
    (if (records.drop (records.length - n)).length ≥ n then (records.drop (records.length - n)).tail
      else records.drop (records.length - n)) ++ [record] =
      (records ++ [record]).drop ((records ++ [record]).length - n) := by
  have hlength : (records ++ [record]).length = records.length + 1 := by simp
  rw [hlength]
  by_cases hfull : n ≤ records.length
  · rw [if_pos (by rw [List.length_drop]; omega), List.tail_drop,
      List.drop_append_of_le_length (by omega)]
    congr 2
    omega
  · rw [if_neg (by rw [List.length_drop]; omega), List.drop_append_of_le_length (by omega)]
    congr 2
    omega

theorem Earned.step {peer : FederationPeer F64} {records : List (AttestationRecord F64)}
    (h : Earned peer records) (c : TrustCall F64) :
    Earned (peer.step c) (records ++ c.record?.toList) := by
  have hscore : val (peer.step c).trustScore ≤ 1 := by
    have hle := h.score_le
    rw [FederationPeer.trustScore_step]
    split
    · exact min_le_left _ _
    · exact max_le zero_le_one (by linarith)
  cases c with
  | addAttestation peerId record now =>
    have hstep : peer.step (.addAttestation peerId record now) =
      peer.addAttestation record now := rfl
    rw [hstep, FederationPeer.addAttestation_eq] at hscore ⊢
    refine ⟨hscore, rfl, ?_, ?_⟩
    · show (if peer.attestationHistory.length ≥ maxAttestationHistory then
          peer.attestationHistory.tail else peer.attestationHistory) ++ [record] = _
      rw [h.history]
      exact drop_concat_of_full _ (by decide) records record
    · show peer.totalAttestations + 1 = _
      simp [h.total, TrustCall.record?]
  | updateTrust peerId passed matchRate =>
    simp only [TrustCall.record?, Option.toList_none, List.append_nil]
    exact ⟨hscore, rfl, h.history, h.total⟩

theorem Earned.run {peer : FederationPeer F64} {records : List (AttestationRecord F64)}
    (h : Earned peer records) (calls : List (TrustCall F64)) :
    Earned (run FederationPeer.step peer calls) (records ++ calls.filterMap TrustCall.record?) := by
  induction calls generalizing peer records with
  | nil => simpa using h
  | cons c calls ih =>
    have hrest := ih (h.step c)
    have hrecords : (c :: calls).filterMap TrustCall.record? =
        c.record?.toList ++ calls.filterMap TrustCall.record? := by
      cases hc : c.record? <;> simp [hc]
    rw [run_cons, hrecords, ← List.append_assoc]
    exact hrest

/-- No call takes the score below zero, unless a verification passes with a negative rate. -/
theorem score_nonneg {peer : FederationPeer F64} (h : 0 ≤ val peer.trustScore)
    {calls : List (TrustCall F64)} (hrates : ∀ c ∈ calls, c.passed = true → 0 ≤ val c.matchRate) :
    0 ≤ val (run FederationPeer.step peer calls).trustScore := by
  refine run_invariant (I := fun peer : FederationPeer F64 => 0 ≤ val peer.trustScore)
    (fun peer c hpeer hrate => ?_) h (along_of_forall hrates)
  rw [FederationPeer.trustScore_step]
  split
  · next hpassed =>
    have := hrate hpassed
    exact le_min zero_le_one (by positivity)
  · exact le_max_left _ _

/-- A comparison that passes has a rate above the threshold. -/
theorem lt_matchRate_of_passed (crypto : Crypto) (percent : F64 → String)
    (peer : FederationPeer F64) (a : Attestation) (localCapture : Option String)
    (localProof : Option BitemporalProof)
    (h : (crossVerifyAttestation crypto percent peer a localCapture localProof).passed = true) :
    0.95 < val (crossVerifyAttestation crypto percent peer a localCapture
      localProof).bytewiseMatchRate := by
  have hrate := (Bool.and_eq_true_iff.mp h).1
  rw [lt_iff, val_lit] at hrate
  exact hrate

/-- No comparison takes the score below zero. -/
theorem score_nonneg_updatePeerFromVerification {peer : FederationPeer F64}
    (h : 0 ≤ val peer.trustScore) (crypto : Crypto) (percent : F64 → String) (a : Attestation)
    (localCapture : Option String) (localProof : Option BitemporalProof) (received now : DateTime) :
    0 ≤ val (updatePeerFromVerification peer
      (crossVerifyAttestation crypto percent peer a localCapture localProof)
      received now).trustScore := by
  have hlt := lt_matchRate_of_passed crypto percent peer a localCapture localProof
  generalize crossVerifyAttestation crypto percent peer a localCapture localProof = verification
    at hlt ⊢
  have hrates : ∀ c ∈ [TrustCall.addAttestation peer.stationId (recordOf verification received)
      now], c.passed = true → 0 ≤ val c.matchRate := by
    intro c hc hpassed
    obtain rfl := List.mem_singleton.mp hc
    have hrate : 0.95 < val verification.bytewiseMatchRate := hlt hpassed
    show 0 ≤ val verification.bytewiseMatchRate
    linarith
  have hcall : updatePeerFromVerification peer verification received now =
      run FederationPeer.step peer
        [.addAttestation peer.stationId (recordOf verification received) now] := rfl
  rw [hcall]
  exact score_nonneg h hrates

/-- Each failure costs a fifth until nothing is left. -/
theorem score_le_of_failures (peer : FederationPeer F64) {failures : List (TrustCall F64)}
    (hfail : ∀ c ∈ failures, c.passed = false) :
    val (run FederationPeer.step peer failures).trustScore ≤
      max 0 (val peer.trustScore - failures.length / 5) ∨ failures = [] := by
  induction failures generalizing peer with
  | nil => exact Or.inr rfl
  | cons c failures ih =>
    left
    have hstep := peer.trustScore_step c
    rw [if_neg (by simp [hfail c List.mem_cons_self])] at hstep
    rw [run_cons, List.length_cons]
    push_cast
    obtain hrest | rfl := ih (peer.step c) fun d hd => hfail d (List.mem_cons_of_mem c hd)
    · refine hrest.trans (max_le (le_max_left _ _) ?_)
      rw [hstep, sub_le_iff_le_add]
      have hcount : (0 : ℚ) ≤ failures.length / 5 := by positivity
      refine max_le ?_ ?_
      · exact add_nonneg (le_max_left _ _) hcount
      · have := le_max_right 0 (val peer.trustScore - (failures.length + 1) / 5)
        linarith
    · rw [run_nil, hstep]
      simp

theorem status_eq_blacklisted {trust : PeerTrustScore F64} (h : val trust.score < 1 / 5) :
    trust.status = .blacklisted := by
  have hlow : ∀ q : ℚ, 1 / 5 ≤ q → ¬ le (lit q) trust.score = true := by
    intro q hq
    rw [le_iff, val_lit, not_le]
    exact h.trans_le hq
  unfold PeerTrustScore.status
  rw [if_neg (hlow _ (by norm_num)), if_neg (hlow _ (by norm_num)), if_neg (hlow _ (by norm_num))]

/-- For every run of calls on a manager that a new peer was added to: the peer's score stays between
zero and one, its status is what the thresholds make of the score, its history is the end of the
records that it was given, and five failures in a row blacklist it. -/
theorem trust_invariant (others : List (FederationPeer F64)) (peerId : PeerId) (publicKey : String)
    (now : DateTime) {calls : List (TrustCall F64)}
    (hrates : ∀ c ∈ calls, c.peerId = peerId → c.passed = true → 0 ≤ val c.matchRate) :
    ∃ peer, (run PeerManager.step
        ((others.foldl PeerManager.addPeer PeerManager.new).addPeer
          (FederationPeer.new peerId publicKey now)) calls).getPeer peerId = some peer ∧
      0 ≤ val peer.trustScore ∧ val peer.trustScore ≤ 1 ∧ peer.status = peer.trust.status ∧
      (∀ records, records = (calls.filter fun c => c.peerId = peerId).filterMap TrustCall.record? →
        peer.attestationHistory = records.drop (records.length - 200) ∧
        peer.totalAttestations = records.length) ∧
      ∀ before failures, (calls.filter fun c => c.peerId = peerId) = before ++ failures →
        5 ≤ failures.length → (∀ c ∈ failures, c.passed = false) →
        peer.status = .blacklisted := by
  have hkeyed := (PeerManager.keyed_foldl_addPeer others).addPeer
    (FederationPeer.new peerId publicKey now)
  have hpeer : ((others.foldl PeerManager.addPeer PeerManager.new).addPeer
      (FederationPeer.new peerId publicKey now)).getPeer peerId =
      some (FederationPeer.new peerId publicKey now) := by
    rw [PeerManager.getPeer_addPeer]
    exact if_pos rfl
  have hearned : Earned (FederationPeer.new peerId publicKey now : FederationPeer F64) [] :=
    earned_new peerId publicKey now
  have hmine : ∀ c ∈ calls.filter fun c => c.peerId = peerId, c.passed = true →
      0 ≤ val c.matchRate := by
    intro c hc
    rw [List.mem_filter, decide_eq_true_iff] at hc
    exact hrates c hc.1 hc.2
  have hall := hearned.run (calls.filter fun c => c.peerId = peerId)
  rw [List.nil_append] at hall
  refine ⟨_, PeerManager.getPeer_run hkeyed calls hpeer, ?_, hall.score_le, hall.status, ?_, ?_⟩
  · refine score_nonneg ?_ hmine
    show 0 ≤ val (lit 0.5 : F64)
    rw [val_lit]
    norm_num
  · rintro records rfl
    exact ⟨hall.history, hall.total⟩
  · intro before failures hsplit hfive hfail
    have hbefore := hearned.run before
    rw [hsplit, run_append] at hall ⊢
    rw [hall.status]
    refine status_eq_blacklisted ?_
    obtain hle | rfl := score_le_of_failures (run FederationPeer.step
      (FederationPeer.new peerId publicKey now) before) hfail
    · refine hle.trans_lt (max_lt (by norm_num) ?_)
      have hcount : (5 : ℚ) ≤ failures.length := by exact_mod_cast hfive
      have hone := hbefore.score_le
      linarith
    · simp at hfive

/-- A verification that passes and one that fails. -/
theorem trust_invariant_two_calls :
    letI := FloatOps.exact id id
    ∃ peer, (run PeerManager.step
        ((([] : List (FederationPeer ℚ)).foldl PeerManager.addPeer PeerManager.new).addPeer
          (FederationPeer.new "north" "d75a98" 0))
        [.addAttestation "north" ⟨"pass", 5, ⟨true, 1, true, ""⟩⟩ 6,
          .updateTrust "north" false 0]).getPeer "north" = some peer ∧
      0 ≤ peer.trustScore ∧ peer.trustScore ≤ 1 ∧ peer.totalAttestations = 1 := by
  let _ := FloatOps.exact id id
  let _ := ExactFloat.exact id id
  have hrates : ∀ c ∈ ([.addAttestation "north" ⟨"pass", 5, ⟨true, 1, true, ""⟩⟩ 6,
      .updateTrust "north" false 0] : List (TrustCall ℚ)),
      c.peerId = "north" → c.passed = true → 0 ≤ ExactFloat.val c.matchRate := by
    intro c hc _ _
    simp only [List.mem_cons, List.not_mem_nil, or_false] at hc
    obtain rfl | rfl := hc
    · exact zero_le_one
    · exact le_rfl
  obtain ⟨peer, hpeer, hnonneg, hle, -, hrecords, -⟩ :=
    trust_invariant [] "north" "d75a98" 0 hrates
  exact ⟨peer, hpeer, hnonneg, hle, (hrecords _ rfl).2⟩

end Runs

end GroundCore.Federation
