import GroundCore.Lib.Chain
import GroundCore.Lib.Run
import GroundCore.Oisl.Federation.Plane

/-! Runs of the federation plane with the requests that its callers hold.  A request may be
completed late, more than once, out of order, or for another satellite: what a completion keeps is
that handovers lead from node to node, and that the nodes are known to the plane. -/

namespace GroundCore.Oisl.Federation

open Bitemporal Lib

inductive FederationCall
  | addControlNode (controlNode : ControlNode)
  | bindSatellite (satelliteId : SatelliteId) (controlNodeId : NodeId)
      (boundAt : BiTemporal DateTime)
  | initiateHandoff (satelliteId : SatelliteId) (targetControlNodeId : NodeId) (requestId : Uuid)
      (now : DateTime)
  | completeHandoff (satelliteId : SatelliteId) (request : HandoffRequest)
      (handoverAt boundAt : BiTemporal DateTime)

/-- A plane, with the requests that it has issued and those that have been completed. -/
structure Session where
  plane : FederationPlane
  issued : List HandoffRequest
  completed : List HandoffRequest

namespace Session

def new : Session := ⟨.new, [], []⟩

def step (s : Session) : FederationCall → Session
  | .addControlNode node => { s with plane := s.plane.addControlNode node }
  | .bindSatellite satelliteId nodeId boundAt =>
    { s with plane := (s.plane.bindSatellite satelliteId nodeId boundAt).1 }
  | .initiateHandoff satelliteId target requestId now =>
    match s.plane.initiateHandoff satelliteId target requestId now with
    | (plane, .ok request) => { s with plane, issued := s.issued ++ [request] }
    | (plane, .error _) => { s with plane }
  | .completeHandoff satelliteId request handoverAt boundAt =>
    match s.plane.completeHandoff satelliteId request handoverAt boundAt with
    | (plane, .ok ()) => { s with plane, completed := s.completed ++ [request] }
    | (plane, .error _) => { s with plane }

/-- A request is completed by a caller that got it from the plane. -/
def Held (s : Session) : FederationCall → Prop
  | .completeHandoff _ request _ _ => request ∈ s.issued
  | _ => True

/-- The handovers of a binding lead to its control node. -/
def Linked (binding : ControlPlaneBinding) : Prop :=
  ∃ first, Chained (·.fromNode) (·.toNode) first binding.handoverHistory ∧
    binding.controlNodeId = endpoint (·.toNode) first binding.handoverHistory

/-- Every handover history leads to the control node of its binding. -/
def AllLinked (s : Session) : Prop :=
  ∀ satelliteId binding, s.plane.satelliteBindings.get? satelliteId = some binding →
    Linked binding

/-- The control nodes of the bindings and the targets of the requests are known to the plane. -/
structure Known (s : Session) : Prop where
  bindings : ∀ satelliteId binding, s.plane.satelliteBindings.get? satelliteId = some binding →
    s.plane.hasControlNode binding.controlNodeId
  requests : ∀ request ∈ s.issued, s.plane.hasControlNode request.targetControlNodeId

/-- A handoff is initiated only to a known node and for a bound satellite, whose binding then
changes its state. -/
theorem initiate_cases (s : Session) (satelliteId : SatelliteId) (target : NodeId)
    (requestId : Uuid) (now : DateTime) :
    s.step (.initiateHandoff satelliteId target requestId now) = s ∨
    s.plane.hasControlNode target ∧ ∃ before request,
      s.plane.satelliteBindings.get? satelliteId = some before ∧
      request.targetControlNodeId = target ∧
      s.step (.initiateHandoff satelliteId target requestId now) =
        { s with
          plane := { s.plane with
            satelliteBindings := s.plane.satelliteBindings.insert satelliteId
              { before with state := .binding } }
          issued := s.issued ++ [request] } := by
  simp only [step, FederationPlane.initiateHandoff]
  by_cases hknown : s.plane.hasControlNode target
  · cases hget : s.plane.satelliteBindings.get? satelliteId with
    | none => exact .inl (by simp only [hknown]; rfl)
    | some before =>
      let request : HandoffRequest :=
        { requestId, satelliteId, sourceControlNodeId := before.controlNodeId
          targetControlNodeId := target, status := .pending, createdAt := now, completedAt := none }
      simp only [hknown]
      exact .inr ⟨trivial, before, request, rfl, rfl, rfl⟩
  · exact .inl (by simp only [hknown]; rfl)

/-- A binding after a call: one from before it, up to its state; or a new one; or one with another
handover. -/
theorem binding_cases {s : Session} {call : FederationCall} {id : SatelliteId}
    {binding : ControlPlaneBinding}
    (h : (s.step call).plane.satelliteBindings.get? id = some binding) :
    (∃ before, s.plane.satelliteBindings.get? id = some before ∧
      binding.controlNodeId = before.controlNodeId ∧
      binding.handoverHistory = before.handoverHistory) ∨
    (s.plane.hasControlNode binding.controlNodeId ∧ binding.handoverHistory = []) ∨
    (∃ before request handoverAt boundAt handover,
      call = .completeHandoff id request handoverAt boundAt ∧
      s.plane.satelliteBindings.get? id = some before ∧
      binding.controlNodeId = request.targetControlNodeId ∧
      binding.handoverHistory = before.handoverHistory ++ [handover] ∧
      handover.fromNode = before.controlNodeId ∧
      handover.toNode = request.targetControlNodeId) := by
  cases call with
  | addControlNode node => exact .inl ⟨binding, h, rfl, rfl⟩
  | bindSatellite satelliteId nodeId boundAt =>
    simp only [step, FederationPlane.bindSatellite] at h
    split at h
    · exact .inl ⟨binding, h, rfl, rfl⟩
    · next hknown =>
      simp only [HashMap.get?_insert] at h
      split at h
      · rw [← Option.some.inj h]
        exact .inr (.inl ⟨by simpa using hknown, rfl⟩)
      · exact .inl ⟨binding, h, rfl, rfl⟩
  | initiateHandoff satelliteId target requestId now =>
    rcases s.initiate_cases satelliteId target requestId now with
      hstep | ⟨-, before, request, hget, -, hstep⟩ <;> rw [hstep] at h
    · exact .inl ⟨binding, h, rfl, rfl⟩
    · simp only [HashMap.get?_insert] at h
      split at h
      · next hid =>
        rw [← Option.some.inj h, hid]
        exact .inl ⟨before, hget, rfl, rfl⟩
      · exact .inl ⟨binding, h, rfl, rfl⟩
  | completeHandoff satelliteId request handoverAt boundAt =>
    simp only [step, FederationPlane.completeHandoff] at h
    cases hget : s.plane.satelliteBindings.get? satelliteId with
    | none =>
      simp only [hget] at h
      exact .inl ⟨binding, h, rfl, rfl⟩
    | some before =>
      simp only [hget, HashMap.get?_insert] at h
      split at h
      · next hid =>
        subst hid
        rw [← Option.some.inj h]
        exact .inr (.inr ⟨before, request, handoverAt, boundAt, _, rfl, hget, rfl, rfl, rfl, rfl⟩)
      · exact .inl ⟨binding, h, rfl, rfl⟩

theorem hasControlNode_step {s : Session} {nodeId : NodeId} (call : FederationCall)
    (h : s.plane.hasControlNode nodeId) : (s.step call).plane.hasControlNode nodeId := by
  unfold FederationPlane.hasControlNode at h ⊢
  cases call with
  | addControlNode node =>
    simp only [step, FederationPlane.addControlNode, HashMap.get?_insert]
    split
    · rfl
    · exact h
  | bindSatellite satelliteId nodeId boundAt =>
    simp only [step, FederationPlane.bindSatellite]
    split <;> exact h
  | initiateHandoff satelliteId target requestId now =>
    rcases s.initiate_cases satelliteId target requestId now with
      hstep | ⟨-, before, request, -, -, hstep⟩ <;> rw [hstep] <;> exact h
  | completeHandoff satelliteId request handoverAt boundAt =>
    simp only [step, FederationPlane.completeHandoff]
    cases hget : s.plane.satelliteBindings.get? satelliteId <;> exact h

/-- A request that the plane has issued names a known target. -/
theorem issued_cases {s : Session} {call : FederationCall} {request : HandoffRequest}
    (h : request ∈ (s.step call).issued) :
    request ∈ s.issued ∨ s.plane.hasControlNode request.targetControlNodeId := by
  cases call with
  | addControlNode node => exact .inl h
  | bindSatellite satelliteId nodeId boundAt => exact .inl h
  | initiateHandoff satelliteId target requestId now =>
    rcases s.initiate_cases satelliteId target requestId now with
      hstep | ⟨hknown, before, issued, -, htarget, hstep⟩ <;> rw [hstep] at h
    · exact .inl h
    · rcases List.mem_append.mp h with hold | hnew
      · exact .inl hold
      · rw [List.mem_singleton.mp hnew, htarget]
        exact .inr hknown
  | completeHandoff satelliteId completed handoverAt boundAt =>
    simp only [step, FederationPlane.completeHandoff] at h
    cases hget : s.plane.satelliteBindings.get? satelliteId with
    | none =>
      simp only [hget] at h
      exact .inl h
    | some before =>
      simp only [hget] at h
      exact .inl h

theorem allLinked_step (s : Session) (call : FederationCall) (h : s.AllLinked) :
    (s.step call).AllLinked := by
  intro id binding hget
  rcases binding_cases hget with ⟨before, hbefore, hnode, hhistory⟩ | ⟨-, hhistory⟩ |
    ⟨before, request, handoverAt, boundAt, handover, -, hbefore, hnode, hhistory, hfrom, hto⟩
  · obtain ⟨first, hchained, hend⟩ := h id before hbefore
    exact ⟨first, hhistory ▸ hchained, by rw [hnode, hhistory, hend]⟩
  · exact ⟨binding.controlNodeId, by rw [hhistory]; trivial, by rw [hhistory]; rfl⟩
  · obtain ⟨first, hchained, hend⟩ := h id before hbefore
    refine ⟨first, ?_, ?_⟩
    · rw [hhistory]
      exact chained_append_singleton.mpr ⟨hchained, hfrom.trans hend⟩
    · rw [hhistory, endpoint_append_singleton, hnode, hto]

theorem known_step (s : Session) (call : FederationCall) (h : s.Known) (hheld : s.Held call) :
    (s.step call).Known := by
  constructor
  · intro id binding hget
    apply hasControlNode_step
    rcases binding_cases hget with ⟨before, hbefore, hnode, -⟩ | ⟨hknown, -⟩ |
      ⟨before, request, handoverAt, boundAt, handover, rfl, -, hnode, -, -, -⟩
    · rw [hnode]
      exact h.bindings id before hbefore
    · exact hknown
    · rw [hnode]
      exact h.requests request hheld
  · intro request hmem
    apply hasControlNode_step
    rcases issued_cases hmem with hold | hknown
    · exact h.requests request hold
    · exact hknown

/-- A completion succeeds exactly when the satellite is bound, and then binds it to the target of
the request. -/
theorem completeHandoff_spec (plane : FederationPlane) (satelliteId : SatelliteId)
    (request : HandoffRequest) (handoverAt boundAt : BiTemporal DateTime) :
    ((plane.completeHandoff satelliteId request handoverAt boundAt).2.isOk ↔
      (plane.getSatelliteControlNode satelliteId).isSome) ∧
    ((plane.completeHandoff satelliteId request handoverAt boundAt).2.isOk →
      (plane.completeHandoff satelliteId request handoverAt boundAt).1.getSatelliteControlNode
        satelliteId = some request.targetControlNodeId) := by
  unfold FederationPlane.completeHandoff FederationPlane.getSatelliteControlNode
  cases hget : plane.satelliteBindings.get? satelliteId with
  | none => simp [Except.isOk, Except.toBool]
  | some binding => simp [Except.isOk, Except.toBool]

/-- After every run a completion succeeds for every request and every bound satellite, which moves
to the target of the request; the handovers of every binding are a chain to its control node; and if
the requests completed in the run were issued by the plane, every binding's control node is one of
the plane's. -/
theorem handoffs_of_run (calls : List FederationCall) :
    (∀ satelliteId request handoverAt boundAt,
      let after := (run step new calls).plane.completeHandoff satelliteId request handoverAt boundAt
      (after.2.isOk ↔
        ((run step new calls).plane.getSatelliteControlNode satelliteId).isSome) ∧
      (after.2.isOk →
        after.1.getSatelliteControlNode satelliteId = some request.targetControlNodeId)) ∧
    (run step new calls).AllLinked ∧
    (Along step Held new calls → ∀ satelliteId binding,
      (run step new calls).plane.satelliteBindings.get? satelliteId = some binding →
      (run step new calls).plane.hasControlNode binding.controlNodeId) := by
  refine ⟨completeHandoff_spec _, ?_, fun hheld => ?_⟩
  · exact run_preserves (I := AllLinked) allLinked_step
      (fun _ _ h => by simp [new, FederationPlane.new] at h) calls
  · have hnew : Known new := by constructor <;> simp [new, FederationPlane.new]
    exact (run_invariant (I := Known) known_step hnew hheld).bindings

/-- The request for a handoff of `sat-1` from `node-1` to `node-2`. -/
def toNode2 : HandoffRequest :=
  { requestId := 7
    satelliteId := "sat-1"
    sourceControlNodeId := "node-1"
    targetControlNodeId := "node-2"
    status := .pending
    createdAt := 0
    completedAt := none }

/-- The calls that issue the request and complete it. -/
def firstHandoff : List FederationCall :=
  [.addControlNode ⟨"node-1", [], 10⟩, .addControlNode ⟨"node-2", [], 10⟩,
    .bindSatellite "sat-1" "node-1" ⟨0, ⟨0⟩, ⟨0⟩⟩, .initiateHandoff "sat-1" "node-2" 7 0,
    .completeHandoff "sat-1" toNode2 ⟨1, ⟨1⟩, ⟨1⟩⟩ ⟨1, ⟨1⟩, ⟨1⟩⟩]

theorem held_firstHandoff : Along step Held new firstHandoff :=
  ⟨trivial, trivial, trivial, trivial, by show toNode2 ∈ _; decide, trivial⟩

theorem firstHandoff_known : ∀ satelliteId binding,
    (run step new firstHandoff).plane.satelliteBindings.get? satelliteId = some binding →
    (run step new firstHandoff).plane.hasControlNode binding.controlNodeId :=
  (handoffs_of_run firstHandoff).2.2 held_firstHandoff

/-- Completing the request for the satellite succeeds after the calls. -/
def Completes (calls : List FederationCall) (satelliteId : SatelliteId)
    (request : HandoffRequest) : Prop :=
  ((run step new calls).plane.completeHandoff satelliteId request ⟨2, ⟨2⟩, ⟨2⟩⟩
    ⟨2, ⟨2⟩, ⟨2⟩⟩).2.isOk

/-- A completion succeeds for a request that the plane has not issued, that was issued for another
satellite, that has been completed before, or that names another source than the current node; and
a request that the plane has not issued may bind a satellite to a node that the plane lacks. -/
theorem completion_unchecked :
    ¬ (∀ calls satelliteId request, Completes calls satelliteId request →
      request ∈ (run step new calls).issued) ∧
    ¬ (∀ calls satelliteId request, Completes calls satelliteId request →
      request.satelliteId = satelliteId) ∧
    ¬ (∀ calls satelliteId request, Completes calls satelliteId request →
      request ∉ (run step new calls).completed) ∧
    ¬ (∀ calls satelliteId request, Completes calls satelliteId request →
      (run step new calls).plane.getSatelliteControlNode satelliteId =
        some request.sourceControlNodeId) ∧
    ¬ (∀ calls satelliteId binding,
      (run step new calls).plane.satelliteBindings.get? satelliteId = some binding →
        (run step new calls).plane.hasControlNode binding.controlNodeId) := by
  let made : HandoffRequest := { toNode2 with targetControlNodeId := "node-3" }
  let time : BiTemporal DateTime := ⟨2, ⟨2⟩, ⟨2⟩⟩
  let second := firstHandoff ++ [FederationCall.bindSatellite "sat-2" "node-1" time]
  let away := firstHandoff ++ [FederationCall.completeHandoff "sat-1" made time time]
  refine ⟨fun h => ?_, fun h => ?_, fun h => ?_, fun h => ?_, fun h => ?_⟩
  · exact absurd (h firstHandoff "sat-1" made rfl) (by decide)
  · exact absurd (h second "sat-2" toNode2 rfl) (by decide)
  · exact absurd (h firstHandoff "sat-1" toNode2 rfl) (by decide)
  · exact absurd (h firstHandoff "sat-1" toNode2 rfl) (by decide)
  · exact absurd (h away "sat-1" _ rfl) (by decide)

end Session

end GroundCore.Oisl.Federation
