import GroundCore.Federation.Bilateral
import GroundCore.Lib.Run

/-! Coordination rounds over a network that may lose, delay, reorder and duplicate messages: a
message that was sent can be delivered at any later time, any number of times or never.  A station
takes every response of a registered peer, whatever request it answers. -/

namespace GroundCore.Federation

open Lib
open Oisl (Uuid)

variable {F64 F32 : Type}

/-- The stations, the requests that were built, in order, and the responses that were sent, each
with the station that it is for.  `taken` lists the responses that the stations took, the last
one first. -/
structure SpectrumNetwork (F64 : Type) where
  stations : String → SpectrumCoordinator F64
  requests : List (CoordinationRequest F64)
  responses : List (String × CoordinationResponse F64)
  taken : List (String × CoordinationResponse F64)

inductive NetworkStep (F64 : Type)
  | registerPeer (station : String) (peer : FederationPeer F64)
  | updateOurSchedule (station : String) (entries : List (PassScheduleEntry F64))
  | buildRequest (station : String) (peerId : PeerId) (requestId : Uuid) (createdAt : DateTime)
  | deliverRequest (index : ℕ) (peer : FederationPeer F64) (now respondedAt : DateTime)
      (clock : ConflictClock F64)
  | deliverResponse (index : ℕ) (now : DateTime)

namespace SpectrumNetwork

def new : SpectrumNetwork F64 :=
  { stations := fun station => .new station, requests := [], responses := [], taken := [] }

def setStation (n : SpectrumNetwork F64) (station : String) (c : SpectrumCoordinator F64) :
    SpectrumNetwork F64 :=
  { n with stations := fun other => if other = station then c else n.stations other }

/-- The station has registered the peer. -/
def registered (n : SpectrumNetwork F64) (station : String) (peerId : PeerId) : Bool :=
  ((n.stations station).peerState.get? peerId).isSome

variable [FloatOps F64 F32]

/-- A request is delivered to the station that it names, with that station's record of the sender;
a response to the station whose request it answers. -/
def step (n : SpectrumNetwork F64) : NetworkStep F64 → SpectrumNetwork F64
  | .registerPeer station peer => n.setStation station ((n.stations station).registerPeer peer)
  | .updateOurSchedule station entries =>
    n.setStation station ((n.stations station).updateOurSchedule entries)
  | .buildRequest station peerId requestId createdAt =>
    match (n.stations station).buildRequest peerId requestId createdAt with
    | some request => { n with requests := n.requests ++ [request] }
    | none => n
  | .deliverRequest index peer now respondedAt clock =>
    match n.requests[index]? with
    | some request =>
      if peer.stationId = request.fromStation then
        let (c, response) :=
          (n.stations request.toStation).receiveRequest request peer now respondedAt clock
        { n.setStation request.toStation c with
          responses := n.responses ++ [(request.fromStation, response)] }
      else n
    | none => n
  | .deliverResponse index now =>
    match n.responses[index]? with
    | some (station, response) =>
      let taken := if n.registered station response.fromStation
        then (station, response) :: n.taken else n.taken
      { n.setStation station ((n.stations station).receiveResponse response now) with taken }
    | none => n

end SpectrumNetwork

/-- What a coordinator has counted for a peer, and the conflicts that it keeps. -/
def SpectrumCoordinator.ledger (c : SpectrumCoordinator F64) (peerId : PeerId) :
    ℕ × List (SpectrumConflict F64) :=
  ((c.peerState.get? peerId).map fun state =>
    (state.successfulCoordinations, state.activeConflicts)).getD (0, [])

namespace SpectrumCoordinator

variable {c : SpectrumCoordinator F64}

/-- A peer is registered with nothing counted. -/
theorem ledger_registerPeer (c : SpectrumCoordinator F64) (peer : FederationPeer F64)
    (peerId : PeerId) : (c.registerPeer peer).ledger peerId = c.ledger peerId := by
  unfold registerPeer
  split
  · cases hget : c.peerState.get? peer.stationId with
    | some state => rfl
    | none =>
      simp only [ledger, HashMap.get?_insert]
      split
      · next heq =>
        rw [heq, hget]
        rfl
      · rfl
  · rfl

theorem ourStationId_registerPeer (c : SpectrumCoordinator F64) (peer : FederationPeer F64) :
    (c.registerPeer peer).ourStationId = c.ourStationId := by
  unfold registerPeer
  split
  · cases c.peerState.get? peer.stationId <;> rfl
  · rfl

/-- A response of a registered peer is counted when it is accepted, and its conflicts are kept. -/
theorem ledger_receiveResponse (c : SpectrumCoordinator F64) (response : CoordinationResponse F64)
    (now : DateTime) (peerId : PeerId) :
    (c.receiveResponse response now).ledger peerId =
      if peerId = response.fromStation ∧ (c.peerState.get? peerId).isSome then
        ((c.ledger peerId).1 + if response.accepted then 1 else 0, response.conflicts)
      else c.ledger peerId := by
  unfold ledger
  rw [receiveResponse, HashMap.get?_modify]
  by_cases hfrom : peerId = response.fromStation
  · rw [if_pos hfrom]
    cases c.peerState.get? peerId with
    | none =>
      rw [if_neg (by simp)]
      rfl
    | some state =>
      rw [if_pos ⟨hfrom, rfl⟩]
      cases response.accepted <;> rfl
  · rw [if_neg hfrom, if_neg fun h => hfrom h.1]

variable [FloatOps F64 F32]

/-- A request changes nothing that is counted, and its answer carries its id. -/
theorem ledger_receiveRequest (c : SpectrumCoordinator F64) (request : CoordinationRequest F64)
    (peer : FederationPeer F64) (now respondedAt : DateTime) (clock : ConflictClock F64) :
    let after := c.receiveRequest request peer now respondedAt clock
    (∀ peerId, after.1.ledger peerId = c.ledger peerId) ∧
      after.1.ourStationId = c.ourStationId ∧ after.2.requestId = request.requestId ∧
      after.2.fromStation = c.ourStationId := by
  unfold receiveRequest
  split
  · exact ⟨fun _ => rfl, rfl, rfl, rfl⟩
  · refine ⟨fun peerId => ?_, rfl, rfl, rfl⟩
    unfold ledger
    rw [HashMap.get?_modify]
    split
    · cases c.peerState.get? peerId <;> rfl
    · rfl

end SpectrumCoordinator

namespace SpectrumNetwork

variable {n n' : SpectrumNetwork F64}

def ledger (n : SpectrumNetwork F64) (station : String) (peerId : PeerId) :
    ℕ × List (SpectrumConflict F64) := (n.stations station).ledger peerId

theorem ledger_setStation (n : SpectrumNetwork F64) (station other : String)
    (c : SpectrumCoordinator F64) (peerId : PeerId) :
    (n.setStation station c).ledger other peerId =
      if other = station then c.ledger peerId else n.ledger other peerId := by
  unfold ledger setStation
  split
  · next heq => simp only [if_pos heq]
  · next hne => simp only [if_neg hne]

/-- A request was built that the response answers. -/
def Answered (n : SpectrumNetwork F64) (message : String × CoordinationResponse F64) : Prop :=
  ∃ request ∈ n.requests, request.requestId = message.2.requestId ∧
    request.fromStation = message.1 ∧ request.toStation = message.2.fromStation

/-- Every station has its own name. -/
def Named (n : SpectrumNetwork F64) : Prop :=
  ∀ station, (n.stations station).ourStationId = station

/-- A step in which no response is taken: the ledgers stay, and every new response answers a
request. -/
structure Quiet (n n' : SpectrumNetwork F64) : Prop where
  named : n'.Named
  ledger : ∀ station peerId, n'.ledger station peerId = n.ledger station peerId
  taken : n'.taken = n.taken
  requests : n.requests <+: n'.requests
  responses : n.responses ⊆ n'.responses
  answered : ∀ message ∈ n'.responses, message ∈ n.responses ∨ n'.Answered message

/-- A step in which a station takes the response: it counts it when it is accepted and keeps its
conflicts. -/
structure Takes (n n' : SpectrumNetwork F64) (station : String)
    (response : CoordinationResponse F64) : Prop where
  named : n'.Named
  sent : (station, response) ∈ n.responses
  requests : n'.requests = n.requests
  responses : n'.responses = n.responses
  taken : n'.taken = (station, response) :: n.taken
  ledger : ∀ other peerId, n'.ledger other peerId =
    if other = station ∧ peerId = response.fromStation then
      ((n.ledger other peerId).1 + if response.accepted then 1 else 0, response.conflicts)
    else n.ledger other peerId

theorem named_setStation {station : String} {c : SpectrumCoordinator F64} (hn : n.Named)
    (hc : c.ourStationId = (n.stations station).ourStationId) : (n.setStation station c).Named := by
  intro other
  unfold setStation
  simp only
  split
  · next heq => rw [hc, hn, heq]
  · exact hn other

theorem quiet_refl (hn : n.Named) : Quiet n n :=
  ⟨hn, fun _ _ => rfl, rfl, List.prefix_rfl, List.Subset.refl _, fun _ h => Or.inl h⟩

theorem quiet_setStation {station : String} {c : SpectrumCoordinator F64} (hn : n.Named)
    (hc : c.ourStationId = (n.stations station).ourStationId)
    (hledger : ∀ peerId, c.ledger peerId = n.ledger station peerId) :
    Quiet n (n.setStation station c) := by
  refine ⟨named_setStation hn hc, fun other peerId => ?_, rfl, List.prefix_rfl,
    List.Subset.refl _, fun _ h => Or.inl h⟩
  rw [ledger_setStation]
  split
  · next heq => rw [heq, hledger]
  · rfl

section Steps

variable [FloatOps F64 F32]

/-- A station that gets a request sends its answer back. -/
theorem quiet_deliverRequest {index : ℕ} {peer : FederationPeer F64} {now respondedAt : DateTime}
    {clock : ConflictClock F64} (hn : n.Named) :
    Quiet n (n.step (.deliverRequest index peer now respondedAt clock)) := by
  cases hget : n.requests[index]? with
  | none =>
    simp only [step, hget]
    exact quiet_refl hn
  | some request =>
    by_cases hpeer : peer.stationId = request.fromStation
    · simp only [step, hget, if_pos hpeer]
      obtain ⟨hledger, hname, hid, hfrom⟩ := SpectrumCoordinator.ledger_receiveRequest
        (n.stations request.toStation) request peer now respondedAt clock
      have hquiet := quiet_setStation hn hname hledger
      refine ⟨hquiet.named, hquiet.ledger, rfl, List.prefix_rfl,
        List.subset_append_left _ _, fun message hmem => ?_⟩
      rcases List.mem_append.mp hmem with hold | hnew
      · exact Or.inl hold
      · rw [List.mem_singleton.mp hnew]
        refine Or.inr ⟨request, List.mem_of_getElem? hget, hid.symm, rfl, ?_⟩
        exact (hfrom.trans (hn _)).symm
    · simp only [step, hget, if_neg hpeer]
      exact quiet_refl hn

/-- A station takes the response of a registered peer, and drops any other. -/
theorem deliverResponse_cases {index : ℕ} {now : DateTime} {station : String}
    {response : CoordinationResponse F64} (hn : n.Named)
    (hget : n.responses[index]? = some (station, response)) :
    Quiet n (n.step (.deliverResponse index now)) ∨
      n.registered station response.fromStation = true ∧
        Takes n (n.step (.deliverResponse index now)) station response := by
  have hledger := SpectrumCoordinator.ledger_receiveResponse (n.stations station) response now
  cases hreg : n.registered station response.fromStation with
  | false =>
    left
    simp only [step, hget, hreg, Bool.false_eq_true, if_false]
    refine quiet_setStation hn rfl fun peerId => ?_
    rw [hledger, if_neg]
    · rfl
    · rintro ⟨rfl, hsome⟩
      exact Bool.false_ne_true (hreg.symm.trans hsome)
  | true =>
    refine .inr ⟨rfl, ?_⟩
    simp only [step, hget, hreg, if_true]
    refine ⟨named_setStation hn rfl, List.mem_of_getElem? hget, rfl, rfl, rfl,
      fun other peerId => ?_⟩
    refine (ledger_setStation n station other _ peerId).trans ?_
    by_cases heq : other = station
    · rw [if_pos heq, hledger, heq]
      by_cases hpeer : peerId = response.fromStation
      · rw [if_pos ⟨hpeer, hpeer ▸ hreg⟩, if_pos (c := _ ∧ _) ⟨rfl, hpeer⟩]
        rfl
      · rw [if_neg fun h => hpeer h.1, if_neg fun h => hpeer h.2]
        rfl
    · rw [if_neg heq, if_neg fun h => heq h.1]

/-- A step is quiet, or the response that it delivers is taken. -/
theorem step_cases (hn : n.Named) (a : NetworkStep F64) :
    Quiet n (n.step a) ∨
      ∃ index now station response, a = .deliverResponse index now ∧
        n.responses[index]? = some (station, response) ∧
        n.registered station response.fromStation = true ∧
        Takes n (n.step a) station response := by
  cases a with
  | registerPeer station peer =>
    exact .inl (quiet_setStation hn (SpectrumCoordinator.ourStationId_registerPeer _ _)
      (SpectrumCoordinator.ledger_registerPeer _ _))
  | updateOurSchedule station entries =>
    exact .inl (quiet_setStation hn rfl fun _ => rfl)
  | buildRequest station peerId requestId createdAt =>
    left
    cases hbuild : (n.stations station).buildRequest peerId requestId createdAt with
    | none =>
      simp only [step, hbuild]
      exact quiet_refl hn
    | some request =>
      simp only [step, hbuild]
      exact ⟨hn, fun _ _ => rfl, rfl, List.prefix_append _ _, List.Subset.refl _,
        fun _ h => .inl h⟩
  | deliverRequest index peer now respondedAt clock => exact .inl (quiet_deliverRequest hn)
  | deliverResponse index now =>
    cases hget : n.responses[index]? with
    | none =>
      left
      simp only [step, hget]
      exact quiet_refl hn
    | some message =>
      obtain ⟨station, response⟩ := message
      rcases deliverResponse_cases hn hget with hquiet | ⟨hreg, htakes⟩
      · exact .inl hquiet
      · exact .inr ⟨index, now, station, response, rfl, hget, hreg, htakes⟩

end Steps

/-- The requests that the station built for the peer. -/
def built (n : SpectrumNetwork F64) (station : String) (peerId : PeerId) :
    List (CoordinationRequest F64) :=
  n.requests.filter fun request =>
    decide (request.fromStation = station) && decide (request.toStation = peerId)

/-- The responses of the peer that the station took, the last one first. -/
def takenFrom (n : SpectrumNetwork F64) (station : String) (peerId : PeerId) :
    List (CoordinationResponse F64) :=
  (n.taken.filter fun message =>
    decide (message.1 = station) && decide (message.2.fromStation = peerId)).map (·.2)

/-- The ids of the requests that the station counted for the peer. -/
def counted (n : SpectrumNetwork F64) (station : String) (peerId : PeerId) : List Uuid :=
  ((n.takenFrom station peerId).filter (·.accepted)).map (·.requestId)

/-- The place of a request among those that were built: a newer request has a greater one. -/
def age (n : SpectrumNetwork F64) (requestId : Uuid) : ℕ :=
  (n.requests.map (·.requestId)).idxOf requestId

/-- The rounds of every station with every peer: no more are counted than requests were built, none
is counted twice, and no response took the place of one to a newer request. -/
structure RoundsKept (n : SpectrumNetwork F64) : Prop where
  bounded : ∀ station peerId, (n.ledger station peerId).1 ≤ (n.built station peerId).length
  once : ∀ station peerId, (n.counted station peerId).Nodup
  ordered : ∀ station peerId, (n.takenFrom station peerId).Pairwise fun later earlier =>
    n.age earlier.requestId ≤ n.age later.requestId

/-- The response comes in time: the peer answered no newer request before, and when it accepts, the
request is not yet counted. -/
def Timely (n : SpectrumNetwork F64) (station : String) (response : CoordinationResponse F64) :
    Prop :=
  (response.accepted = true → response.requestId ∉ n.counted station response.fromStation) ∧
    ∀ earlier ∈ n.takenFrom station response.fromStation,
      n.age earlier.requestId ≤ n.age response.requestId

/-- A response that is delivered to a station which registered the responder comes in time. -/
def Respects (n : SpectrumNetwork F64) : NetworkStep F64 → Prop
  | .deliverResponse index _ => ∀ station response,
    n.responses[index]? = some (station, response) →
      n.registered station response.fromStation = true → n.Timely station response
  | _ => True

/-- Every response that was sent answers a request, and the ledgers hold what the responses that
were taken say. -/
structure Wired (n : SpectrumNetwork F64) : Prop where
  named : n.Named
  answered : ∀ message ∈ n.responses, n.Answered message
  taken : n.taken ⊆ n.responses
  ledger : ∀ station peerId, n.ledger station peerId =
    ((n.counted station peerId).length,
      ((n.takenFrom station peerId).head?.map (·.conflicts)).getD [])

theorem wired_new : Wired (new : SpectrumNetwork F64) :=
  ⟨fun _ => rfl, fun _ h => absurd h List.not_mem_nil, fun _ h => h, fun _ _ => rfl⟩

theorem Answered.mono {message : String × CoordinationResponse F64} (h : n.Answered message)
    (hsub : n.requests ⊆ n'.requests) : n'.Answered message := by
  obtain ⟨request, hmem, hrest⟩ := h
  exact ⟨request, hsub hmem, hrest⟩

/-- What was taken answers requests of the station to the peer. -/
theorem Wired.answered_of_mem (h : Wired n) {station : String} {peerId : PeerId}
    {response : CoordinationResponse F64} (hmem : response ∈ n.takenFrom station peerId) :
    n.Answered (station, response) ∧ response.fromStation = peerId := by
  obtain ⟨message, hfilter, rfl⟩ := List.mem_map.mp hmem
  obtain ⟨htaken, hfor⟩ := List.mem_filter.mp hfilter
  simp only [Bool.and_eq_true, decide_eq_true_eq] at hfor
  obtain ⟨rfl, hpeer⟩ := hfor
  exact ⟨h.answered message (h.taken htaken), hpeer⟩

/-- The ids that are counted are among those of the requests that were built. -/
theorem Wired.counted_subset (h : Wired n) (station : String) (peerId : PeerId) :
    n.counted station peerId ⊆ (n.built station peerId).map (·.requestId) := by
  intro requestId hmem
  obtain ⟨response, hfilter, rfl⟩ := List.mem_map.mp hmem
  obtain ⟨⟨request, hrequest, hid, hfrom, hto⟩, hpeer⟩ :=
    h.answered_of_mem (List.mem_of_mem_filter hfilter)
  refine List.mem_map.mpr ⟨request, List.mem_filter.mpr ⟨hrequest, ?_⟩, hid⟩
  simp [hfrom, hto, hpeer]

/-- Rounds that are counted once are no more than the requests. -/
theorem Wired.bounded (h : Wired n) {station : String} {peerId : PeerId}
    (honce : (n.counted station peerId).Nodup) :
    (n.ledger station peerId).1 ≤ (n.built station peerId).length := by
  have hle := (List.subperm_of_subset honce (h.counted_subset station peerId)).length_le
  rw [List.length_map] at hle
  rw [h.ledger]
  exact hle

theorem takenFrom_congr (h : n'.taken = n.taken) (station : String) (peerId : PeerId) :
    n'.takenFrom station peerId = n.takenFrom station peerId := by
  rw [takenFrom, h, takenFrom]

theorem takenFrom_cons {station : String} {response : CoordinationResponse F64}
    (h : n'.taken = (station, response) :: n.taken) (other : String) (peerId : PeerId) :
    n'.takenFrom other peerId =
      if other = station ∧ peerId = response.fromStation then
        response :: n.takenFrom other peerId
      else n.takenFrom other peerId := by
  unfold takenFrom
  rw [h, List.filter_cons]
  by_cases hfor : other = station ∧ peerId = response.fromStation
  · rw [if_pos hfor, if_pos (by simp [hfor])]
    rfl
  · rw [if_neg hfor, if_neg]
    simp only [Bool.and_eq_true, decide_eq_true_eq]
    exact fun h => hfor ⟨h.1.symm, h.2.symm⟩

theorem counted_cons {station : String} {response : CoordinationResponse F64}
    (h : n'.taken = (station, response) :: n.taken) (other : String) (peerId : PeerId) :
    n'.counted other peerId =
      if (other = station ∧ peerId = response.fromStation) ∧ response.accepted = true then
        response.requestId :: n.counted other peerId
      else n.counted other peerId := by
  unfold counted
  rw [takenFrom_cons h]
  by_cases hfor : other = station ∧ peerId = response.fromStation
  · rw [if_pos hfor, List.filter_cons]
    by_cases haccepted : response.accepted = true
    · rw [if_pos haccepted, if_pos ⟨hfor, haccepted⟩]
      rfl
    · rw [if_neg haccepted, if_neg fun h => haccepted h.2]
  · rw [if_neg hfor, if_neg fun h => hfor h.1]

/-- The place of a request stays when others are built. -/
theorem age_of_grown (hgrown : n.requests <+: n'.requests)
    {message : String × CoordinationResponse F64} (h : n.Answered message) :
    n'.age message.2.requestId = n.age message.2.requestId := by
  obtain ⟨request, hmem, hid, -⟩ := h
  obtain ⟨more, hmore⟩ := hgrown
  unfold age
  rw [← hmore, List.map_append, List.idxOf_append_of_mem]
  exact List.mem_map.mpr ⟨request, hmem, hid⟩

theorem Quiet.wired (hquiet : Quiet n n') (h : Wired n) : Wired n' := by
  have hanswered : ∀ message ∈ n.responses, n'.Answered message :=
    fun message hmem => (h.answered message hmem).mono hquiet.requests.subset
  refine ⟨hquiet.named, fun message hmem => ?_, ?_, fun station peerId => ?_⟩
  · rcases hquiet.answered message hmem with hold | hnew
    · exact hanswered message hold
    · exact hnew
  · rw [hquiet.taken]
    exact List.Subset.trans h.taken hquiet.responses
  · rw [hquiet.ledger, h.ledger, counted, counted, takenFrom_congr hquiet.taken]

theorem Takes.wired {station : String} {response : CoordinationResponse F64}
    (htakes : Takes n n' station response) (h : Wired n) : Wired n' := by
  refine ⟨htakes.named, fun message hmem => ?_, ?_, fun other peerId => ?_⟩
  · rw [htakes.responses] at hmem
    exact (h.answered message hmem).mono (htakes.requests ▸ List.Subset.refl _)
  · rw [htakes.taken, htakes.responses]
    exact List.cons_subset.mpr ⟨htakes.sent, h.taken⟩
  · rw [htakes.ledger, counted_cons htakes.taken, takenFrom_cons htakes.taken, h.ledger]
    by_cases hfor : other = station ∧ peerId = response.fromStation
    · rw [if_pos hfor, if_pos hfor]
      cases haccepted : response.accepted with
      | true =>
        rw [if_pos rfl, if_pos ⟨hfor, rfl⟩]
        rfl
      | false =>
        rw [if_neg Bool.false_ne_true, if_neg fun h => Bool.false_ne_true h.2]
        rfl
    · rw [if_neg hfor, if_neg hfor, if_neg fun h => hfor h.1]

/-- A quiet step keeps the rounds. -/
theorem Quiet.roundsKept (hquiet : Quiet n n') (h : Wired n) (hkept : RoundsKept n) :
    RoundsKept n' := by
  have honce : ∀ station peerId, (n'.counted station peerId).Nodup := by
    intro station peerId
    rw [counted, takenFrom_congr hquiet.taken]
    exact hkept.once station peerId
  refine ⟨fun station peerId => (hquiet.wired h).bounded (honce station peerId), honce,
    fun station peerId => ?_⟩
  rw [takenFrom_congr hquiet.taken]
  refine (hkept.ordered station peerId).imp_of_mem fun {later earlier} hlater hearlier hle => ?_
  rw [age_of_grown hquiet.requests (h.answered_of_mem hlater).1,
    age_of_grown hquiet.requests (h.answered_of_mem hearlier).1]
  exact hle

/-- A response that is taken keeps the rounds exactly when it comes in time. -/
theorem Takes.roundsKept_iff {station : String} {response : CoordinationResponse F64}
    (htakes : Takes n n' station response) (h : Wired n) (hkept : RoundsKept n) :
    RoundsKept n' ↔ n.Timely station response := by
  have hage : ∀ requestId, n'.age requestId = n.age requestId := by
    intro requestId
    rw [age, htakes.requests, age]
  constructor
  · intro hkept'
    have honce := hkept'.once station response.fromStation
    have hordered := hkept'.ordered station response.fromStation
    rw [counted_cons htakes.taken] at honce
    rw [takenFrom_cons htakes.taken, if_pos ⟨rfl, rfl⟩] at hordered
    simp only [hage] at hordered
    refine ⟨fun haccepted => ?_, (List.pairwise_cons.mp hordered).1⟩
    rw [if_pos ⟨⟨rfl, rfl⟩, haccepted⟩] at honce
    exact (List.nodup_cons.mp honce).1
  · rintro ⟨hfresh, hnewest⟩
    have honce : ∀ other peerId, (n'.counted other peerId).Nodup := by
      intro other peerId
      rw [counted_cons htakes.taken]
      split
      · next hfor =>
        obtain ⟨⟨rfl, rfl⟩, haccepted⟩ := hfor
        exact List.nodup_cons.mpr ⟨hfresh haccepted, hkept.once _ _⟩
      · exact hkept.once other peerId
    refine ⟨fun other peerId => (htakes.wired h).bounded (honce other peerId), honce,
      fun other peerId => ?_⟩
    simp only [hage]
    rw [takenFrom_cons htakes.taken]
    split
    · next hfor =>
      obtain ⟨rfl, rfl⟩ := hfor
      exact List.pairwise_cons.mpr ⟨hnewest, hkept.ordered _ _⟩
    · exact hkept.ordered other peerId

section Runs

variable [FloatOps F64 F32]

theorem wired_step (h : Wired n) (a : NetworkStep F64) : Wired (n.step a) := by
  rcases step_cases h.named a with hquiet | ⟨_, _, _, _, _, _, _, htakes⟩
  · exact hquiet.wired h
  · exact htakes.wired h

theorem roundsKept_new : RoundsKept (new : SpectrumNetwork F64) :=
  ⟨fun _ _ => Nat.zero_le _, fun _ _ => List.nodup_nil, fun _ _ => List.Pairwise.nil⟩

/-- A step keeps the rounds exactly when the response that it delivers comes in time. -/
theorem roundsKept_step_iff (h : Wired n) (a : NetworkStep F64) (hkept : RoundsKept n) :
    RoundsKept (n.step a) ↔ n.Respects a := by
  rcases step_cases h.named a with hquiet | ⟨index, now, station, response, rfl, hget, hreg, htakes⟩
  · refine iff_of_true (hquiet.roundsKept h hkept) ?_
    cases a with
    | deliverResponse index now =>
      intro station response hget hreg
      have htaken := hquiet.taken
      simp only [step, hget, hreg, if_true] at htaken
      exact absurd htaken (List.cons_ne_self _ _)
    | registerPeer | updateOurSchedule | buildRequest | deliverRequest => trivial
  · rw [htakes.roundsKept_iff h hkept]
    constructor
    · intro htimely station' response' hget' _
      rw [hget] at hget'
      obtain ⟨rfl, rfl⟩ := Prod.mk.inj (Option.some.inj hget')
      exact htimely
    · exact fun hrespects => hrespects station response hget hreg

/-- A run keeps the rounds of all stations throughout exactly when every response that is taken
comes in time. -/
theorem roundsKept_iff_respects (steps : List (NetworkStep F64)) :
    (∀ k, RoundsKept (run step new (steps.take k))) ↔ Along step Respects new steps :=
  along_iff_invariant_of_along (I := RoundsKept) (J := Wired) (P := fun _ _ => True)
    (fun _ a h _ => wired_step h a) (fun _ a h _ hkept => roundsKept_step_iff h a hkept)
    wired_new roundsKept_new (along_of_forall fun _ _ => trivial)

end Runs

section Example

def registrations : List (NetworkStep ℚ) :=
  [.registerPeer "a" (trustedPeer "b"), .registerPeer "b" (trustedPeer "a"),
    .updateOurSchedule "a" [sBandEntry 1 "a"], .updateOurSchedule "b" [sBandEntry 2 "b"],
    .buildRequest "a" "b" 1 0, .deliverRequest 0 (trustedPeer "a") 1 1 fun _ _ => 1]

/-- The response is delivered twice. -/
def duplicated : List (NetworkStep ℚ) :=
  registrations ++ [.deliverResponse 0 2, .deliverResponse 0 3]

/-- Station `a` drops its pass and asks again; the answer to this comes first. -/
def overtaken : List (NetworkStep ℚ) :=
  registrations ++ [.updateOurSchedule "a" [], .buildRequest "a" "b" 2 2,
    .deliverRequest 1 (trustedPeer "a") 3 3 fun _ _ => 3, .deliverResponse 1 4,
    .deliverResponse 0 5]

theorem rounds_not_kept :
    letI := FloatOps.exact id id
    ((run step new duplicated).ledger "a" "b").1 = 2 ∧
      ((run step new duplicated).built "a" "b").length = 1 ∧
      (run step new duplicated).counted "a" "b" = [1, 1] ∧
      ((run step new overtaken).takenFrom "a" "b").map
        (fun response => (response.requestId, response.conflicts.length)) = [(1, 1), (2, 0)] ∧
      ((run step new overtaken).ledger "a" "b").2.length = 1 ∧
      (run step new overtaken).age 1 < (run step new overtaken).age 2 ∧
      ¬ RoundsKept (run step new duplicated) ∧ ¬ RoundsKept (run step new overtaken) := by
  let _ := FloatOps.exact id id
  refine ⟨by decide +kernel, by decide +kernel, by decide +kernel, by decide +kernel,
    by decide +kernel, by decide +kernel, fun hkept => ?_, fun hkept => ?_⟩
  · have hbounded := hkept.bounded "a" "b"
    revert hbounded
    decide +kernel
  · have hordered := hkept.ordered "a" "b"
    revert hordered
    decide +kernel

end Example

end SpectrumNetwork

end GroundCore.Federation
