import GroundCore.Federation.Spectrum

/-! One exchange between two stations.  The conflicts of the response are those that the peer finds
from its own side, and the station that asked keeps them as they are. -/

namespace GroundCore.Federation

open Lib FiniteFloat

variable {F64 F32 : Type} [FloatOps F64 F32]

/-- The two entries overlap in time and in frequency. -/
def Overlapping (ours theirs : PassScheduleEntry F64) : Prop :=
  ours.timeOverlap theirs = true ∧
    FloatOps.feq (ours.band.overlapHz theirs.band) (FloatOps.lit 0) = false

theorem conflictBetween_cases (peerId : PeerId) (clock : ConflictClock F64)
    (ours theirs : PassScheduleEntry F64) :
    (¬ Overlapping ours theirs ∧ conflictBetween peerId clock ours theirs = none) ∨
    (Overlapping ours theirs ∧ ∃ conflict, conflictBetween peerId clock ours theirs = some conflict ∧
      conflict.ourEntry = ours ∧ conflict.peerEntry = theirs ∧ conflict.peerId = peerId) := by
  unfold conflictBetween Overlapping
  cases ours.timeOverlap theirs with
  | false => exact .inl ⟨nofun, rfl⟩
  | true =>
    cases hfreq : FloatOps.feq (ours.band.overlapHz theirs.band) (FloatOps.lit 0) with
    | true => exact .inl ⟨nofun, by simp [hfreq]⟩
    | false =>
      simp only [hfreq]
      exact .inr ⟨⟨trivial, trivial⟩, _, rfl, rfl, rfl, rfl⟩

/-- The conflicts that are found are those of the overlapping pairs, with the given peer. -/
theorem mem_detectConflicts {ourEntries theirEntries : List (PassScheduleEntry F64)}
    {peerId : PeerId} {clock : ConflictClock F64} {conflict : SpectrumConflict F64}
    (h : conflict ∈ detectConflicts ourEntries theirEntries peerId clock) :
    conflict.ourEntry ∈ ourEntries ∧ conflict.peerEntry ∈ theirEntries ∧
      conflict.peerId = peerId ∧ Overlapping conflict.ourEntry conflict.peerEntry := by
  obtain ⟨ours, hours, hmem⟩ := List.mem_flatMap.mp h
  obtain ⟨theirs, htheirs, hfound⟩ := List.mem_filterMap.mp hmem
  rcases conflictBetween_cases peerId clock ours theirs with
    ⟨-, hnone⟩ | ⟨hoverlap, conflict', hsome, rfl, rfl, rfl⟩
  · rw [hnone] at hfound
    contradiction
  · obtain rfl := Option.some.inj (hsome.symm.trans hfound)
    exact ⟨hours, htheirs, rfl, hoverlap⟩

theorem detectConflicts_eq_nil_iff {ourEntries theirEntries : List (PassScheduleEntry F64)}
    {peerId : PeerId} {clock : ConflictClock F64} :
    detectConflicts ourEntries theirEntries peerId clock = [] ↔
      ∀ ours ∈ ourEntries, ∀ theirs ∈ theirEntries, ¬ Overlapping ours theirs := by
  simp only [detectConflicts, List.flatMap_eq_nil_iff, List.filterMap_eq_nil_iff]
  refine forall₂_congr fun ours _ => forall₂_congr fun theirs _ => ?_
  rcases conflictBetween_cases peerId clock ours theirs with
    ⟨hnot, hnone⟩ | ⟨hoverlap, conflict, hsome, -⟩
  · exact iff_of_true hnone hnot
  · exact iff_of_false (by rw [hsome]; exact nofun) fun hnot => hnot hoverlap

/-- A conflict without the time at which it was found. -/
def SpectrumConflict.withoutTime (conflict : SpectrumConflict F64) : SpectrumConflict F64 :=
  { conflict with detectedAt := 0 }

def SpectrumConflict.pair (conflict : SpectrumConflict F64) :
    PassScheduleEntry F64 × PassScheduleEntry F64 := (conflict.ourEntry, conflict.peerEntry)

theorem map_withoutTime_conflictBetween (peerId : PeerId) (clock : ConflictClock F64)
    (ours theirs : PassScheduleEntry F64) :
    (conflictBetween peerId clock ours theirs).map (·.withoutTime) =
      conflictBetween peerId (fun _ _ => 0) ours theirs := by
  unfold conflictBetween
  split
  · rfl
  · simp only
    split <;> rfl

/-- The clock decides nothing but the times. -/
theorem map_withoutTime_detectConflicts (ourEntries theirEntries : List (PassScheduleEntry F64))
    (peerId : PeerId) (clock : ConflictClock F64) :
    (detectConflicts ourEntries theirEntries peerId clock).map (·.withoutTime) =
      detectConflicts ourEntries theirEntries peerId fun _ _ => 0 := by
  simp only [detectConflicts, List.map_flatMap, List.map_filterMap, map_withoutTime_conflictBetween]

/-- The readings of the clock and the drawn id of one exchange. -/
structure ExchangeInputs (F64 : Type) where
  requestId : Oisl.Uuid
  createdAt : DateTime
  receivedAt : DateTime
  respondedAt : DateTime
  installedAt : DateTime
  clock : ConflictClock F64

namespace SpectrumCoordinator

variable {a b : SpectrumCoordinator F64}

/-- The station `a` asks `b`, which looks the sender up as `peerA`, and takes its response. -/
def exchange (a b : SpectrumCoordinator F64) (peerA : FederationPeer F64)
    (inputs : ExchangeInputs F64) : Option (SpectrumCoordinator F64 × SpectrumCoordinator F64) := do
  let request ← a.buildRequest b.ourStationId inputs.requestId inputs.createdAt
  let (b, response) :=
    b.receiveRequest request peerA inputs.receivedAt inputs.respondedAt inputs.clock
  return (a.receiveResponse response inputs.installedAt, b)

def activeConflictsFor (c : SpectrumCoordinator F64) (peerId : PeerId) :
    List (SpectrumConflict F64) :=
  ((c.peerState.get? peerId).map (·.activeConflicts)).getD []

/-- The coordinator once it holds the schedule of `b`. -/
def holding (c b : SpectrumCoordinator F64) : SpectrumCoordinator F64 :=
  { c with peerState := c.peerState.modify b.ourStationId fun state =>
      { state with theirSchedule := b.ourSchedule } }

/-- What `c` keeps about `b` is its own view of the conflicts between the two schedules: what it
would find itself, and the pairs that it reports once it holds the schedule of `b`. -/
structure Agreement (c b : SpectrumCoordinator F64) : Prop where
  view : ((c.activeConflictsFor b.ourStationId).map (·.withoutTime)).Perm
    (detectConflicts c.ourSchedule b.ourSchedule b.ourStationId fun _ _ => 0)
  check : ∀ ord clock, ((c.activeConflictsFor b.ourStationId).map (·.pair)).Perm
    ((((c.holding b).checkOurSchedule ord clock).filter fun conflict =>
      conflict.peerId = b.ourStationId).map (·.pair))

/-- What `checkOurSchedule` reports about one peer. -/
theorem filter_checkOurSchedule {c : SpectrumCoordinator F64} {peerId : PeerId}
    {state : PeerCoordinationState F64} (hget : c.peerState.get? peerId = some state)
    (ord : IterOrder (PeerId × PeerCoordinationState F64)) (clock : ConflictClock F64) :
    ((c.checkOurSchedule ord clock).filter fun conflict => conflict.peerId = peerId).Perm
      (detectConflicts c.ourSchedule state.theirSchedule peerId clock) := by
  have hself : ∀ schedule : List (PassScheduleEntry F64),
      (detectConflicts c.ourSchedule schedule peerId clock).filter
          (fun conflict => conflict.peerId = peerId) =
        detectConflicts c.ourSchedule schedule peerId clock := fun schedule =>
    List.filter_eq_self.mpr fun conflict hmem => by simp [(mem_detectConflicts hmem).2.2.1]
  have hothers : ((c.peerState.erase peerId).entries.flatMap fun peer =>
      (detectConflicts c.ourSchedule peer.2.theirSchedule peer.1 clock).filter
        fun conflict => conflict.peerId = peerId) = [] := by
    refine List.flatMap_eq_nil_iff.mpr fun peer hpeer => ?_
    refine List.filter_eq_nil_iff.mpr fun conflict hmem => ?_
    have hget := HashMap.mem_entries.mp hpeer
    rw [HashMap.get?_erase] at hget
    split at hget
    · contradiction
    · next hne => simpa [(mem_detectConflicts hmem).2.2.1] using hne
  unfold checkOurSchedule
  rw [List.filter_flatMap]
  have hperm := (ord.perm c.peerState.entries).trans (HashMap.entries_perm_erase hget)
  refine (hperm.flatMap_right _).trans ?_
  rw [List.flatMap_cons, hothers, List.append_nil, hself]

end SpectrumCoordinator

section Overlap

variable [FiniteFloat F64 F32]

/-- Bands overlap when the greater of their lower ends lies below the lesser of their upper ends. -/
theorem feq_overlapHz_iff (band other : CoordinationBand F64) :
    FloatOps.feq (band.overlapHz other) (FloatOps.lit 0) = false ↔
      max (val (band.centerHz - band.bandwidthHz / FloatOps.lit 2))
          (val (other.centerHz - other.bandwidthHz / FloatOps.lit 2)) <
        min (val (band.centerHz + band.bandwidthHz / FloatOps.lit 2))
          (val (other.centerHz + other.bandwidthHz / FloatOps.lit 2)) := by
  rw [← Bool.not_eq_true, feq_iff, CoordinationBand.overlapHz, val_fmax, val_zero, ← val_fmax,
    ← val_fmin, ← sub_pos_iff]
  constructor
  · intro h
    exact lt_of_not_ge fun hle => h (max_eq_right hle)
  · intro h heq
    rw [max_eq_left h.le] at heq
    exact absurd h heq.not_gt

/-- Overlapping does not depend on the side from which it is seen. -/
theorem overlapping_comm (ours theirs : PassScheduleEntry F64) :
    Overlapping ours theirs ↔ Overlapping theirs ours := by
  unfold Overlapping
  rw [feq_overlapHz_iff, feq_overlapHz_iff, max_comm, min_comm, PassScheduleEntry.timeOverlap,
    PassScheduleEntry.timeOverlap, Bool.and_comm]

end Overlap

namespace SpectrumCoordinator

variable {a b : SpectrumCoordinator F64}

/-- After an exchange the station keeps what the peer found. -/
theorem exchange_eq (a b : SpectrumCoordinator F64) (peerA : FederationPeer F64)
    {state : PeerCoordinationState F64}
    (hregistered : a.peerState.get? b.ourStationId = some state)
    (hstation : peerA.stationId = a.ourStationId) (htrusted : peerA.isTrusted = true)
    (inputs : ExchangeInputs F64) :
    ∃ c b', a.exchange b peerA inputs = some (c, b') ∧ c.ourSchedule = a.ourSchedule ∧
      (∃ state', c.peerState.get? b.ourStationId = some state') ∧
      c.activeConflictsFor b.ourStationId =
        detectConflicts b.ourSchedule a.ourSchedule a.ourStationId inputs.clock := by
  simp only [exchange, buildRequest, hregistered, Option.isSome_some, if_true, Option.bind_eq_bind,
    Option.bind_some, receiveRequest, htrusted, Bool.not_true, Bool.false_eq_true, if_false]
  refine ⟨_, _, rfl, rfl, ?_, ?_⟩
  · simp [receiveResponse, HashMap.get?_modify, hregistered]
  · simp [activeConflictsFor, receiveResponse, HashMap.get?_modify, hregistered, hstation,
      CoordinationRequest.new]

/-- Every conflict of a response is with the station that asked, and every one of its own view with
the peer, so they agree on none. -/
theorem not_overlapping_of_agreement {c : SpectrumCoordinator F64} {ida : String}
    {clock : ConflictClock F64} (hne : ida ≠ b.ourStationId)
    (hactive : c.activeConflictsFor b.ourStationId =
      detectConflicts b.ourSchedule c.ourSchedule ida clock) (hagree : c.Agreement b) :
    ∀ ours ∈ c.ourSchedule, ∀ theirs ∈ b.ourSchedule, ¬ Overlapping ours theirs := by
  have hview := hagree.view
  rw [hactive, map_withoutTime_detectConflicts] at hview
  have hnil : detectConflicts c.ourSchedule b.ourSchedule b.ourStationId (fun _ _ => 0) = [] := by
    refine List.eq_nil_iff_forall_not_mem.mpr fun conflict hmem => hne ?_
    have hpeer := (mem_detectConflicts hmem).2.2.1
    have hpeer' := (mem_detectConflicts (hview.mem_iff.mpr hmem)).2.2.1
    exact hpeer'.symm.trans hpeer
  exact detectConflicts_eq_nil_iff.mp hnil

variable [FiniteFloat F64 F32]

/-- An exchange leads to agreement when no entries of the two schedules overlap, and between two
stations only then. -/
theorem exchange_agreement (a b : SpectrumCoordinator F64) (peerA : FederationPeer F64)
    (hregistered : (a.peerState.get? b.ourStationId).isSome)
    (hstation : peerA.stationId = a.ourStationId) (htrusted : peerA.isTrusted = true)
    (inputs : ExchangeInputs F64) :
    ∃ c b', a.exchange b peerA inputs = some (c, b') ∧
      ((∀ ours ∈ a.ourSchedule, ∀ theirs ∈ b.ourSchedule, ¬ Overlapping ours theirs) →
        c.Agreement b) ∧
      (a.ourStationId ≠ b.ourStationId → c.Agreement b →
        ∀ ours ∈ a.ourSchedule, ∀ theirs ∈ b.ourSchedule, ¬ Overlapping ours theirs) := by
  obtain ⟨state, hstate⟩ := Option.isSome_iff_exists.mp hregistered
  obtain ⟨c, b', hrun, hschedule, ⟨state', hstate'⟩, hactive⟩ :=
    exchange_eq a b peerA hstate hstation htrusted inputs
  refine ⟨c, b', hrun, fun hnone => ?_, fun hne hagree => ?_⟩
  · have hnone' : c.activeConflictsFor b.ourStationId = [] := by
      rw [hactive, detectConflicts_eq_nil_iff]
      exact fun theirs htheirs ours hours => (overlapping_comm theirs ours).not.mpr
        (hnone ours hours theirs htheirs)
    have hview : ∀ clock, detectConflicts c.ourSchedule b.ourSchedule b.ourStationId clock = [] :=
      fun clock => by
        rw [hschedule]
        exact detectConflicts_eq_nil_iff.mpr hnone
    constructor
    · rw [hnone', hview]
      exact List.Perm.refl _
    · intro ord clock
      have hholding : (c.holding b).peerState.get? b.ourStationId =
          some { state' with theirSchedule := b.ourSchedule } := by
        simp [holding, HashMap.get?_modify, hstate']
      have hcheck := filter_checkOurSchedule hholding ord clock
      have hempty : detectConflicts (c.holding b).ourSchedule b.ourSchedule b.ourStationId clock =
        [] := hview clock
      rw [hempty] at hcheck
      rw [hnone', hcheck.eq_nil]
  · rw [← hschedule] at hactive ⊢
    exact not_overlapping_of_agreement hne hactive hagree

end SpectrumCoordinator

section Example

/-- Ten minutes at 2.2 GHz. -/
def sBandEntry (entryId : Oisl.Uuid) (stationId : String) : PassScheduleEntry ℚ :=
  { entryId, stationId, satelliteNoradId := 12345
    band := { centerHz := 2200000000, bandwidthHz := 20000000, polarization := "RHCP" }
    windowStart := 0, windowEnd := Duration.minutes 10, maxEirpDbw := some 43 }

def trustedPeer (stationId : PeerId) : FederationPeer ℚ :=
  { stationId, publicKey := "", attestationHistory := [], trustScore := 9 / 10, status := .trusted
    addedAt := 0, lastVerification := none, totalAttestations := 0 }

/-- A station with a trusted peer and the given schedule. -/
def stationWith (stationId : String) (peerId : PeerId) (entries : List (PassScheduleEntry ℚ)) :
    SpectrumCoordinator ℚ :=
  ((SpectrumCoordinator.new stationId).registerPeer (trustedPeer peerId)).updateOurSchedule entries

def exchangeInputs : ExchangeInputs ℚ :=
  { requestId := 1, createdAt := 0, receivedAt := 1, respondedAt := 2, installedAt := 3
    clock := fun _ _ => 2 }

open SpectrumCoordinator in
theorem overlapping_disagree :
    letI := FloatOps.exact id id
    ∃ c b', (stationWith "a" "b" [sBandEntry 1 "a"]).exchange
        (stationWith "b" "a" [sBandEntry 2 "b"]) (trustedPeer "a") exchangeInputs = some (c, b') ∧
      ¬ c.Agreement (stationWith "b" "a" [sBandEntry 2 "b"]) := by
  let _ := FloatOps.exact id id
  obtain ⟨c, b', hrun, hschedule, -, hactive⟩ := exchange_eq
    (stationWith "a" "b" [sBandEntry 1 "a"]) (stationWith "b" "a" [sBandEntry 2 "b"])
    (trustedPeer "a") rfl rfl rfl exchangeInputs
  refine ⟨c, b', hrun, fun hagree => ?_⟩
  rw [← hschedule] at hactive
  have hnone := not_overlapping_of_agreement (by decide) hactive hagree
  rw [hschedule] at hnone
  refine hnone (sBandEntry 1 "a") List.mem_cons_self (sBandEntry 2 "b") List.mem_cons_self ?_
  exact ⟨by decide +kernel, by decide +kernel⟩

/-- The ten minutes after, and the same ten minutes in a neighbouring band. -/
def entriesApart : List (PassScheduleEntry ℚ) :=
  [{ sBandEntry 2 "b" with windowStart := Duration.minutes 10, windowEnd := Duration.minutes 20 },
    { sBandEntry 3 "b" with
      band := { centerHz := 2220000000, bandwidthHz := 20000000, polarization := "RHCP" } }]

open SpectrumCoordinator in
/-- Entries that only touch, in time or in frequency, do not overlap. -/
theorem apart_agree :
    letI := FloatOps.exact id id
    ∃ c b', (stationWith "a" "b" [sBandEntry 1 "a"]).exchange (stationWith "b" "a" entriesApart)
        (trustedPeer "a") exchangeInputs = some (c, b') ∧
      c.Agreement (stationWith "b" "a" entriesApart) := by
  let _ := FloatOps.exact id id
  let _ := FiniteFloat.exact id id
  obtain ⟨c, b', hrun, hagree, -⟩ := exchange_agreement
    (stationWith "a" "b" [sBandEntry 1 "a"]) (stationWith "b" "a" entriesApart) (trustedPeer "a")
    rfl rfl rfl exchangeInputs
  refine ⟨c, b', hrun, hagree ?_⟩
  refine List.forall_mem_singleton.mpr
    (List.forall_mem_cons.mpr ⟨?_, List.forall_mem_singleton.mpr ?_⟩)
  · rintro ⟨htime, -⟩
    exact absurd htime (by decide +kernel)
  · rintro ⟨-, hfreq⟩
    exact absurd hfreq (by decide +kernel)

end Example

end GroundCore.Federation
