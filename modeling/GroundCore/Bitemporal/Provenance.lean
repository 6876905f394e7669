import GroundCore.Bitemporal.Timestamp
import GroundCore.Lib.Chain
import GroundCore.Lib.HashMap
import GroundCore.Lib.Run
import GroundCore.Lib.Sha256

/-! The provenance chain of a pass, and its check within a station and across stations.  `sha256` is
the hash function.

Tampering with a provenance chain.  The checks compare the stored hashes with each other and
with the hash of the chain, which covers the stored hashes alone: no check reads a link's content,
so an altered link is seen exactly where the chain was rejected before. -/

namespace GroundCore.Bitemporal

open Lib

/-- The bit pattern of an `f64`. -/
abbrev F64Bits := UInt64

inductive ProvenanceLinkType
  | satelliteEmission (position : F64Bits × F64Bits × F64Bits) (frequency : UInt64)
  | rfReception (deviceId antennaId : String) (frequency : UInt64)
  | demodulation (algorithm : String) (bitsDecoded : UInt64)
  | protocolTranslation (protocol : String) (eventsGenerated : UInt64)
  | dataNormalization (schemaVersion : String) (recordsNormalized : UInt64)
  | federationHandoff (fromStation toStation : String)
  | customerDelivery (customerId deliveryMethod : String)
  deriving DecidableEq, Repr

def ProvenanceLinkType.isFederationHandoff : ProvenanceLinkType → Bool
  | .federationHandoff _ _ => true
  | _ => false

variable {Value : Type}

structure ProvenanceLink (Value : Type) where
  linkType : ProvenanceLinkType
  eventTime : EventTime
  receptionTime : ReceptionTime
  data : Value
  hash : String
  previousHash : Option String
  signature : Option String

structure ProvenanceChain (Value : Type) where
  passId : PassId
  satelliteId : String
  stationId : String
  links : List (ProvenanceLink Value)
  chainHash : String

namespace ProvenanceChain

variable (sha256 : List UInt8 → List UInt8)

def new (passId : PassId) (satelliteId stationId : String) : ProvenanceChain Value :=
  { passId, satelliteId, stationId, links := [], chainHash := "" }

def recomputeChainHash (chain : ProvenanceChain Value) : ProvenanceChain Value :=
  let text := chain.passId ++ chain.satelliteId ++ chain.stationId ++
    String.join (chain.links.map (·.hash))
  { chain with chainHash := hexLower (sha256 text.toUTF8.toList) }

/-- Whether a link does not continue the chain; every link continues an empty one. -/
def breaks (chain : ProvenanceChain Value) (link : ProvenanceLink Value) : Bool :=
  match chain.links.getLast? with
  | none => false
  | some last => link.previousHash ≠ some last.hash

def addLink (chain : ProvenanceChain Value) (link : ProvenanceLink Value) :
    ProvenanceChain Value × Result Unit :=
  if chain.breaks link then (chain, .error (.database "Provenance chain integrity broken"))
  else (recomputeChainHash sha256 { chain with links := chain.links ++ [link] }, .ok ())

/-- The loop of `verify` over the links. -/
def linked : Option String → List (ProvenanceLink Value) → Bool
  | _, [] => true
  | previousHash, link :: links =>
    if link.previousHash ≠ previousHash then false else linked (some link.hash) links

def verify (chain : ProvenanceChain Value) : Bool :=
  linked none chain.links && (chain.recomputeChainHash sha256).chainHash == chain.chainHash

def totalPropagationDelay (chain : ProvenanceChain Value) : Duration :=
  match chain.links.head?, chain.links.getLast? with
  | some first, some last => last.receptionTime.time - first.eventTime.time
  | _, _ => 0

end ProvenanceChain

structure ProvenanceVerifier where
  stationKeys : HashMap String String

namespace ProvenanceVerifier

def addStationKey (verifier : ProvenanceVerifier) (stationId publicKey : String) :
    ProvenanceVerifier :=
  { verifier with stationKeys := verifier.stationKeys.insert stationId publicKey }

/-- Whether a link is a federation handoff with an empty signature. -/
def unsigned (link : ProvenanceLink Value) : Bool :=
  link.linkType.isFederationHandoff && link.signature = some ""

/-- The check of a chain from another station; the keys are not used. -/
def verifyFederatedChain (_verifier : ProvenanceVerifier) (sha256 : List UInt8 → List UInt8)
    (chain : ProvenanceChain Value) : Result Bool :=
  if !chain.verify sha256 then .ok false
  else .ok (!chain.links.any unsigned)

end ProvenanceVerifier

variable {sha256 : List UInt8 → List UInt8}

/-- The link with its content replaced: its stored hashes are those of `link`. -/
def ProvenanceLink.alter (link : ProvenanceLink Value) (content : ProvenanceLink Value) :
    ProvenanceLink Value :=
  { content with hash := link.hash, previousHash := link.previousHash }

namespace ProvenanceChain

/-- The chain with the content of link `i` replaced. -/
def tamper (chain : ProvenanceChain Value) (i : ℕ) (content : ProvenanceLink Value) :
    ProvenanceChain Value :=
  { chain with links := chain.links.modify i (·.alter content) }

/-- Neither of the two checks accepts the chain. -/
def Rejected (sha256 : List UInt8 → List UInt8) (verifier : ProvenanceVerifier)
    (chain : ProvenanceChain Value) : Prop :=
  chain.verify sha256 = false ∧ verifier.verifyFederatedChain sha256 chain ≠ .ok true

/-- The chain after `links`, all of which were added without an error. -/
inductive Built (sha256 : List UInt8 → List UInt8) (passId : PassId)
    (satelliteId stationId : String) : ProvenanceChain Value → Prop
  | new : Built sha256 passId satelliteId stationId (.new passId satelliteId stationId)
  | addLink {chain chain' : ProvenanceChain Value} {link : ProvenanceLink Value}
      (h : Built sha256 passId satelliteId stationId chain)
      (hadd : chain.addLink sha256 link = (chain', .ok ())) :
      Built sha256 passId satelliteId stationId chain'

theorem linked_iff {previousHash : Option String} {links : List (ProvenanceLink Value)} :
    linked previousHash links ↔
      Chained (·.previousHash) (fun link => some link.hash) previousHash links := by
  induction links generalizing previousHash with
  | nil => simp [linked]
  | cons link links ih =>
    simp only [linked, chained_cons]
    by_cases hprev : link.previousHash = previousHash
    · simp [hprev, ih]
    · simp [hprev]

/-- Altered links keep their stored hashes. -/
theorem map_tamper {β : Type} (chain : ProvenanceChain Value) (i : ℕ)
    (content : ProvenanceLink Value) (stored : String × Option String → β) :
    (chain.tamper i content).links.map (fun link => stored (link.hash, link.previousHash)) =
      chain.links.map fun link => stored (link.hash, link.previousHash) := by
  refine List.ext_getElem (by simp [tamper]) fun n _ _ => ?_
  by_cases hn : i = n
  · simp [tamper, hn, ProvenanceLink.alter]
  · simp [tamper, hn]

theorem verify_tamper (chain : ProvenanceChain Value) (i : ℕ) (content : ProvenanceLink Value) :
    (chain.tamper i content).verify sha256 = chain.verify sha256 := by
  have hlinked : linked none (chain.tamper i content).links = linked none chain.links := by
    rw [Bool.eq_iff_iff, linked_iff, linked_iff]
    have hchained : ∀ links : List (ProvenanceLink Value),
        Chained Prod.snd (fun stored => some stored.1) none
            (links.map fun link => (link.hash, link.previousHash)) ↔
          Chained (·.previousHash) (fun link => some link.hash) none links := fun _ => chained_map
    rw [← hchained, ← hchained, map_tamper chain i content fun stored => stored]
  have hhash : ((chain.tamper i content).recomputeChainHash sha256).chainHash =
      (chain.recomputeChainHash sha256).chainHash := by
    unfold recomputeChainHash
    dsimp only
    rw [map_tamper chain i content Prod.fst]
    rfl
  unfold verify
  rw [hlinked, hhash]
  rfl

theorem rejected_iff {verifier : ProvenanceVerifier} {chain : ProvenanceChain Value} :
    chain.Rejected sha256 verifier ↔ chain.verify sha256 = false := by
  refine ⟨And.left, fun h => ⟨h, ?_⟩⟩
  simp [ProvenanceVerifier.verifyFederatedChain, h]

/-- A chain with a link is linked from the previous hash of its first link on, and its hash is up
to date. -/
theorem Built.chained {passId : PassId} {satelliteId stationId : String}
    {chain : ProvenanceChain Value} (h : Built sha256 passId satelliteId stationId chain)
    {first : ProvenanceLink Value} (hfirst : chain.links.head? = some first) :
    Chained (·.previousHash) (fun link => some link.hash) first.previousHash chain.links ∧
      (chain.recomputeChainHash sha256).chainHash = chain.chainHash := by
  induction h with
  | new => contradiction
  | @addLink chain chain' link h hadd ih =>
    unfold ProvenanceChain.addLink at hadd
    cases hbreaks : chain.breaks link with
    | true => simp [hbreaks] at hadd
    | false =>
    simp only [hbreaks, Bool.false_eq_true, if_false, Prod.mk.injEq, and_true] at hadd
    subst hadd
    refine ⟨?_, rfl⟩
    show Chained _ _ _ (chain.links ++ [link])
    replace hfirst : (chain.links ++ [link]).head? = some first := hfirst
    cases hlast : chain.links.getLast? with
    | none =>
      rw [List.getLast?_eq_none_iff.mp hlast] at hfirst ⊢
      have hlink : link = first := Option.some.inj hfirst
      rw [hlink]
      exact ⟨rfl, trivial⟩
    | some last =>
      obtain ⟨front, hfront⟩ := List.getLast?_eq_some_iff.mp hlast
      have hprev : link.previousHash = some last.hash := by simpa [breaks, hlast] using hbreaks
      have hhead : chain.links.head? = some first := by
        rw [hfront] at hfirst ⊢
        cases front <;> exact hfirst
      refine chained_append_singleton.mpr ⟨(ih hhead).1, ?_⟩
      rw [hprev, hfront, endpoint_append_singleton]

/-- A chain with a link verifies exactly when its first link has no previous hash. -/
theorem Built.verify_iff {passId : PassId} {satelliteId stationId : String}
    {chain : ProvenanceChain Value} (h : Built sha256 passId satelliteId stationId chain)
    {first : ProvenanceLink Value} (hfirst : chain.links.head? = some first) :
    chain.verify sha256 ↔ first.previousHash = none := by
  obtain ⟨hchained, hhash⟩ := h.chained hfirst
  simp only [verify, hhash, beq_self_eq_true, Bool.and_true]
  rw [linked_iff]
  constructor
  · intro hnone
    cases hlinks : chain.links with
    | nil => simp [hlinks] at hfirst
    | cons head rest =>
      rw [hlinks] at hnone hfirst
      rw [← Option.some.inj hfirst]
      exact hnone.1
  · intro hnone
    rwa [hnone] at hchained

/-- An altered chain is rejected exactly when its first link has a previous hash, so that the chain
was rejected before it was altered. -/
theorem rejected_tamper_iff (verifier : ProvenanceVerifier) {passId : PassId}
    {satelliteId stationId : String} {chain : ProvenanceChain Value}
    (h : Built sha256 passId satelliteId stationId chain) {i : ℕ} (hi : i < chain.links.length)
    (content : ProvenanceLink Value) :
    (chain.tamper i content).Rejected sha256 verifier ↔
      ∃ first, chain.links.head? = some first ∧ first.previousHash ≠ none := by
  rw [rejected_iff, verify_tamper]
  obtain ⟨first, hfirst⟩ : ∃ first, chain.links.head? = some first := by
    cases hlinks : chain.links with
    | nil => simp [hlinks] at hi
    | cons first rest => exact ⟨first, rfl⟩
  rw [← Bool.not_eq_true, h.verify_iff hfirst]
  constructor
  · exact fun hsome => ⟨first, hfirst, hsome⟩
  · rintro ⟨head, hhead, hsome⟩
    rw [hfirst, Option.some.injEq] at hhead
    rwa [hhead]

/-- The content of a link without data, as text. -/
def contentText (link : ProvenanceLink Unit) : String :=
  reprStr link.linkType ++ toString link.eventTime.time ++ toString link.receptionTime.time ++
    link.previousHash.getD "" ++ link.signature.getD ""

/-- A first link, with the hash of its content. -/
def demodulated (sha256 : List UInt8 → List UInt8) (bitsDecoded : UInt64) : ProvenanceLink Unit :=
  let link : ProvenanceLink Unit :=
    { linkType := .demodulation "costas" bitsDecoded
      eventTime := ⟨0⟩
      receptionTime := ⟨0⟩
      data := ()
      hash := ""
      previousHash := none
      signature := none }
  { link with hash := hexLower (sha256 (contentText link).toUTF8.toList) }

/-- The chain of one link. -/
def demodulation (sha256 : List UInt8 → List UInt8) (bitsDecoded : UInt64) : ProvenanceChain Unit :=
  ((new "pass-1" "sat-1" "station-1").addLink sha256 (demodulated sha256 bitsDecoded)).1

theorem built_demodulation (sha256 : List UInt8 → List UInt8) (bitsDecoded : UInt64) :
    Built sha256 "pass-1" "sat-1" "station-1" (demodulation sha256 bitsDecoded) :=
  .addLink .new rfl

theorem not_rejected_demodulation : ¬ ((demodulation Lib.sha256 8).tamper 0
    (demodulated Lib.sha256 9)).Rejected Lib.sha256 ⟨∅⟩ := by
  rw [rejected_tamper_iff ⟨∅⟩ (built_demodulation Lib.sha256 8) Nat.one_pos]
  rintro ⟨first, hfirst, hsome⟩
  rw [← Option.some.inj hfirst] at hsome
  exact hsome rfl

/-- Changing the number of decoded bits of the only link leaves the chain accepted. -/
theorem altered_link_accepted :
    ¬ ∀ (sha256 : List UInt8 → List UInt8) (text : ProvenanceLink Unit → String)
      (verifier : ProvenanceVerifier) (chain : ProvenanceChain Unit)
      (passId : PassId) (satelliteId stationId : String), Function.Injective sha256 →
      Built sha256 passId satelliteId stationId chain →
      (∀ link ∈ chain.links, link.hash = hexLower (sha256 (text link).toUTF8.toList)) →
      ∀ (i : ℕ) (content : ProvenanceLink Unit), chain.tamper i content ≠ chain →
        (chain.tamper i content).Rejected sha256 verifier := by
  intro h
  have hhashed : ∀ link ∈ (demodulation id 8).links,
      link.hash = hexLower (id (contentText link).toUTF8.toList) := by
    intro link hlink
    rw [List.mem_singleton.mp hlink]
    rfl
  have hchanged : (demodulation id 8).tamper 0 (demodulated id 9) ≠ demodulation id 8 := by
    intro heq
    have htypes := congrArg (fun chain => chain.links.map (·.linkType)) heq
    exact absurd htypes (by decide)
  have hrejected := (h id contentText ⟨∅⟩ (demodulation id 8) "pass-1" "sat-1" "station-1"
    Function.injective_id (built_demodulation id 8) hhashed 0 (demodulated id 9) hchanged).1
  rw [verify_tamper] at hrejected
  have haccepted : (demodulation id 8).verify id = true := by
    simp [verify, demodulation, addLink, breaks, new, recomputeChainHash, linked, demodulated]
  rw [haccepted] at hrejected
  contradiction

end ProvenanceChain

end GroundCore.Bitemporal

/-! When the chains that `add_link` builds verify.  The chain hash of a new chain is empty, which is
the hash of nothing, and the first link is taken with any previous hash, where the check wants
none. -/

namespace GroundCore.Bitemporal.ProvenanceChain

open Lib

variable {Value : Type} {sha256 : List UInt8 → List UInt8}

/-- The chain after a call of `add_link`. -/
def added (sha256 : List UInt8 → List UInt8) (chain : ProvenanceChain Value)
    (link : ProvenanceLink Value) : ProvenanceChain Value :=
  (chain.addLink sha256 link).1

/-- The call of `add_link` returns without an error. -/
def Accepts (sha256 : List UInt8 → List UInt8) (chain : ProvenanceChain Value)
    (link : ProvenanceLink Value) : Prop :=
  (chain.addLink sha256 link).2 = .ok ()

variable {passId : PassId} {satelliteId stationId : String} {chain : ProvenanceChain Value}
  {link : ProvenanceLink Value} {links : List (ProvenanceLink Value)}

theorem addLink_of_error {e : GroundStationError} (h : (chain.addLink sha256 link).2 = .error e) :
    (chain.addLink sha256 link).1 = chain := by
  unfold addLink at h ⊢
  split
  · rfl
  · next hbreaks => simp [hbreaks] at h

theorem links_added (h : Accepts sha256 chain link) :
    (added sha256 chain link).links = chain.links ++ [link] := by
  unfold Accepts addLink at h
  unfold added addLink
  split
  · next hbreaks => simp [hbreaks] at h
  · rfl

theorem Built.added (hbuilt : Built sha256 passId satelliteId stationId chain)
    (h : Accepts sha256 chain link) :
    Built sha256 passId satelliteId stationId (added sha256 chain link) :=
  .addLink hbuilt (Prod.ext rfl h)

theorem links_run (h : Along (added sha256) (Accepts sha256) chain links) :
    (run (added sha256) chain links).links = chain.links ++ links := by
  induction links generalizing chain with
  | nil => simp
  | cons link links ih =>
    rw [run_cons, ih h.2, links_added h.1, List.append_assoc, List.singleton_append]

theorem built_run
    (h : Along (added sha256) (Accepts sha256) (new passId satelliteId stationId) links) :
    Built sha256 passId satelliteId stationId
      (run (added sha256) (new passId satelliteId stationId) links) :=
  run_invariant (fun _ _ hbuilt hok => hbuilt.added hok) .new h

/-- The hash of a chain is not empty, as that of a new chain is. -/
theorem verify_new (hdigest : ∀ message, (sha256 message).length = 32) :
    (new passId satelliteId stationId : ProvenanceChain Value).verify sha256 = false := by
  have hhash : ∀ message, hexLower (sha256 message) ≠ "" := by
    intro message hempty
    have hnil : sha256 message = [] := hexLower_inj.mp hempty
    have hlength := hdigest message
    rw [hnil] at hlength
    contradiction
  unfold verify
  rw [Bool.and_eq_false_iff, beq_eq_false_iff_ne]
  exact .inr (hhash _)

/-- A chain verifies exactly when it has a link and the first has no previous hash; a link that is
refused leaves the chain as it was. -/
theorem run_verifies_iff (hdigest : ∀ message, (sha256 message).length = 32) :
    (∀ (passId : PassId) (satelliteId stationId : String) (links : List (ProvenanceLink Value)),
      Along (added sha256) (Accepts sha256) (new passId satelliteId stationId) links →
        ((run (added sha256) (new passId satelliteId stationId) links).verify sha256 ↔
          ∃ first, links.head? = some first ∧ first.previousHash = none)) ∧
      ∀ (chain : ProvenanceChain Value) (link : ProvenanceLink Value) (e : GroundStationError),
        (chain.addLink sha256 link).2 = .error e → (chain.addLink sha256 link).1 = chain := by
  refine ⟨fun passId satelliteId stationId links hok => ?_, fun _ _ _ => addLink_of_error⟩
  cases links with
  | nil => simp [verify_new hdigest]
  | cons first links =>
    have hhead : (run (added sha256) (new passId satelliteId stationId)
        (first :: links)).links.head? = some first := by
      rw [links_run hok]
      rfl
    rw [(built_run hok).verify_iff hhead]
    simp

/-- A chain of one link that continues nothing verifies. -/
theorem demodulated_verifies :
    (run (added Lib.sha256) (new "pass-1" "sat-1" "station-1")
      [demodulated Lib.sha256 8]).verify Lib.sha256 := by
  have h := (@run_verifies_iff Unit _ length_sha256).1 "pass-1" "sat-1" "station-1"
    [demodulated Lib.sha256 8] ⟨rfl, trivial⟩
  exact h.mpr ⟨_, rfl, rfl⟩

/-- A chain without links does not verify. -/
theorem new_not_verified :
    ¬ ((∀ (passId : PassId) (satelliteId stationId : String)
        (links : List (ProvenanceLink Unit)),
      Along (added Lib.sha256) (Accepts Lib.sha256) (new passId satelliteId stationId) links →
        (run (added Lib.sha256) (new passId satelliteId stationId) links).verify Lib.sha256) ∧
      ∀ (chain : ProvenanceChain Unit) (link : ProvenanceLink Unit) (e : GroundStationError),
        (chain.addLink Lib.sha256 link).2 = .error e →
          (chain.addLink Lib.sha256 link).1 = chain) := by
  rintro ⟨h, -⟩
  have hnew := h "pass-1" "sat-1" "station-1" [] trivial
  rw [run_nil, verify_new length_sha256] at hnew
  contradiction

end GroundCore.Bitemporal.ProvenanceChain
