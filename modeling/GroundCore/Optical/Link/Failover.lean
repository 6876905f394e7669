import GroundCore.Lib.Run
import GroundCore.Optical.Attestation.LinkProof

/-! Handoffs between links.  A handoff is found by its identifier, whether or not it was completed
before.  Beside the manager runs a record of what the calls returned. -/

namespace GroundCore.Optical.Link

open Lib Attestation

abbrev LinkId := Uuid

inductive HandoffStrategy
  | seamless (overlapMs : UInt64)
  | makeBeforeBreak (overlapMs : UInt64)
  | breakBeforeMake (gapMs : UInt64)
  | noHandoff
  deriving DecidableEq

structure HandoffExecution where
  handoffId : Uuid
  linkId : LinkId
  strategy : HandoffStrategy
  initiatedAt : DateTime
  completedAt : Option DateTime
  success : Bool
  packetsLost : UInt64
  deriving DecidableEq

inductive FailoverError
  | handoffNotFound (handoffId : Uuid)
  | alreadyCompleted
  deriving DecidableEq

namespace HandoffExecution

/-- `handoffId` is the identifier that is drawn, and `now` the reading of the clock, as in what
follows. -/
def new (linkId : LinkId) (strategy : HandoffStrategy) (handoffId : Uuid) (now : DateTime) :
    HandoffExecution :=
  { handoffId, linkId, strategy, initiatedAt := now, completedAt := none, success := false
    packetsLost := 0 }

def complete (h : HandoffExecution) (success : Bool) (packetsLost : UInt64) (now : DateTime) :
    HandoffExecution :=
  { h with completedAt := some now, success, packetsLost }

end HandoffExecution

structure FailoverManager where
  activeHandoffs : List HandoffExecution

namespace FailoverManager

def new : FailoverManager := { activeHandoffs := [] }

def initiateHandoff (m : FailoverManager) (linkId : LinkId) (strategy : HandoffStrategy)
    (handoffId : Uuid) (now : DateTime) : FailoverManager × HandoffExecution :=
  let execution := HandoffExecution.new linkId strategy handoffId now
  ({ activeHandoffs := m.activeHandoffs ++ [execution] }, execution)

/-- The first handoff with the identifier is completed, also when it was completed before. -/
def completeHandoff (m : FailoverManager) (handoffId : Uuid) (success : Bool)
    (packetsLost : UInt64) (now : DateTime) : FailoverManager × Except FailoverError Unit :=
  match m.activeHandoffs.findIdx? (·.handoffId = handoffId) with
  | some i =>
    ({ activeHandoffs := m.activeHandoffs.modify i (·.complete success packetsLost now) }, .ok ())
  | none => (m, .error (.handoffNotFound handoffId))

def getHandoff (m : FailoverManager) (handoffId : Uuid) : Option HandoffExecution :=
  m.activeHandoffs.find? (·.handoffId = handoffId)

def cleanupCompleted (m : FailoverManager) : FailoverManager :=
  { activeHandoffs := m.activeHandoffs.filter (·.completedAt.isNone) }

/-- The identifiers of the handoffs. -/
def handoffIds (m : FailoverManager) : List Uuid := m.activeHandoffs.map HandoffExecution.handoffId

end FailoverManager

/-- How a handoff ended. -/
structure Outcome where
  completedAt : Option DateTime
  success : Bool
  packetsLost : UInt64
  deriving DecidableEq

def HandoffExecution.outcome (h : HandoffExecution) : Outcome :=
  { completedAt := h.completedAt, success := h.success, packetsLost := h.packetsLost }

inductive FailoverCall
  | initiateHandoff (linkId : LinkId) (strategy : HandoffStrategy) (handoffId : Uuid)
      (now : DateTime)
  | completeHandoff (handoffId : Uuid) (success : Bool) (packetsLost : UInt64) (now : DateTime)
  | cleanupCompleted

/-- A manager, the identifiers that were drawn for it, the outcome with which each handoff was first
completed, and what further completions of these handoffs returned. -/
structure FailoverSession where
  manager : FailoverManager
  issued : List Uuid
  completed : List (Uuid × Outcome)
  repeats : List (Except FailoverError Unit)

namespace FailoverSession

def new : FailoverSession := { manager := .new, issued := [], completed := [], repeats := [] }

/-- A completion of the handoff returned `Ok`. -/
def Completed (s : FailoverSession) (handoffId : Uuid) : Prop :=
  ∃ outcome, (handoffId, outcome) ∈ s.completed

instance (s : FailoverSession) (handoffId : Uuid) : Decidable (s.Completed handoffId) :=
  decidable_of_iff (handoffId ∈ s.completed.map Prod.fst) (by simp [Completed])

def step (s : FailoverSession) : FailoverCall → FailoverSession
  | .initiateHandoff linkId strategy handoffId now =>
    { s with
      manager := (s.manager.initiateHandoff linkId strategy handoffId now).1
      issued := handoffId :: s.issued }
  | .completeHandoff handoffId success packetsLost now =>
    let (manager, result) := s.manager.completeHandoff handoffId success packetsLost now
    if s.Completed handoffId then { s with manager, repeats := result :: s.repeats }
    else
      match result with
      | .ok _ =>
        { s with
          manager := manager
          completed := (handoffId, ⟨some now, success, packetsLost⟩) :: s.completed }
      | .error _ => { s with manager }
  | .cleanupCompleted => { s with manager := s.manager.cleanupCompleted }

/-- The handoffs that are kept have the outcomes with which they were first completed, and every
further completion was refused as such. -/
structure Final (s : FailoverSession) : Prop where
  outcome : ∀ handoffId outcome, (handoffId, outcome) ∈ s.completed →
    ∀ h ∈ s.manager.activeHandoffs, h.handoffId = handoffId → h.outcome = outcome
  refused : ∀ result ∈ s.repeats, result = .error .alreadyCompleted

/-- The identifier that a call draws was not drawn before. -/
def Fresh (s : FailoverSession) : FailoverCall → Prop
  | .initiateHandoff _ _ handoffId _ => handoffId ∉ s.issued
  | _ => True

/-- The call does not complete a handoff that was completed before. -/
def CompletesOnce (s : FailoverSession) : FailoverCall → Prop
  | .completeHandoff handoffId _ _ _ => ¬ s.Completed handoffId
  | _ => True

instance (s : FailoverSession) (call : FailoverCall) : Decidable (s.Fresh call) := by
  cases call <;> unfold Fresh <;> infer_instance

instance (s : FailoverSession) (call : FailoverCall) : Decidable (s.CompletesOnce call) := by
  cases call <;> unfold CompletesOnce <;> infer_instance

/-- What fresh identifiers keep beside: they are those of one handoff each. -/
structure Kept (s : FailoverSession) : Prop extends s.Final where
  nodup : s.manager.handoffIds.Nodup
  issued : s.manager.handoffIds ⊆ s.issued
  issued_completed : ∀ handoffId, s.Completed handoffId → handoffId ∈ s.issued

end FailoverSession

namespace FailoverManager

/-- Where the identifiers are distinct, a completion finds no handoff or changes the outcome of
one. -/
theorem completeHandoff_cases {m : FailoverManager} (hnodup : m.handoffIds.Nodup)
    (handoffId : Uuid) (success : Bool) (packetsLost : UInt64) (now : DateTime) :
    m.completeHandoff handoffId success packetsLost now =
        (m, .error (.handoffNotFound handoffId)) ∨
      ∃ m' : FailoverManager,
        m.completeHandoff handoffId success packetsLost now = (m', .ok ()) ∧
        handoffId ∈ m.handoffIds ∧ m'.handoffIds = m.handoffIds ∧
        ∀ h ∈ m'.activeHandoffs, (h.handoffId = handoffId ∧
          h.outcome = ⟨some now, success, packetsLost⟩) ∨
          h.handoffId ≠ handoffId ∧ h ∈ m.activeHandoffs := by
  unfold completeHandoff
  cases hfind : m.activeHandoffs.findIdx? (·.handoffId = handoffId) with
  | none => exact .inl rfl
  | some i =>
    right
    obtain ⟨hi, hid, -⟩ := List.findIdx?_eq_some_iff_getElem.mp hfind
    have hid : m.activeHandoffs[i].handoffId = handoffId := of_decide_eq_true hid
    have hids : ∀ j (hj : j < m.activeHandoffs.length),
        m.activeHandoffs[j].handoffId = handoffId → j = i := by
      intro j hj heq
      have hsame := List.inj_on_of_nodup_map hnodup (List.getElem_mem hj) (List.getElem_mem hi)
        (heq.trans hid.symm)
      exact (List.Nodup.of_map _ hnodup).getElem_inj_iff.mp hsame
    refine ⟨_, rfl, List.mem_map.mpr ⟨_, List.getElem_mem hi, hid⟩, ?_, fun h hh => ?_⟩
    · refine List.ext_getElem (by simp [handoffIds]) fun j _ _ => ?_
      simp only [handoffIds, List.getElem_map, List.getElem_modify]
      split <;> rfl
    · obtain ⟨j, hj, rfl⟩ := List.getElem_of_mem hh
      rw [List.length_modify] at hj
      rw [List.getElem_modify]
      split
      · next hij =>
        subst hij
        exact .inl ⟨hid, rfl⟩
      · next hij => exact .inr ⟨fun heq => hij (hids j hj heq).symm, List.getElem_mem hj⟩

/-- No completion is refused because the handoff was completed before. -/
theorem completeHandoff_ne_alreadyCompleted (m : FailoverManager) (handoffId : Uuid)
    (success : Bool) (packetsLost : UInt64) (now : DateTime) :
    (m.completeHandoff handoffId success packetsLost now).2 ≠ .error .alreadyCompleted := by
  unfold completeHandoff
  split <;> simp

end FailoverManager

namespace FailoverSession

variable {s : FailoverSession}

/-- What `getHandoff` returns of a completed handoff has the outcome that was reported first. -/
theorem Final.getHandoff (hs : s.Final) {handoffId : Uuid} {outcome : Outcome}
    (hlog : (handoffId, outcome) ∈ s.completed) {h : HandoffExecution}
    (hget : s.manager.getHandoff handoffId = some h) : h.outcome = outcome :=
  hs.outcome handoffId outcome hlog h (List.mem_of_find?_eq_some hget)
    (of_decide_eq_true (List.find?_some hget :))

theorem kept_new : new.Kept where
  outcome := by simp [new]
  refused := by simp [new]
  nodup := List.nodup_nil
  issued := List.nil_subset _
  issued_completed := by simp [new, Completed]

theorem Kept.initiate (hs : s.Kept) (linkId : LinkId) (strategy : HandoffStrategy)
    {handoffId : Uuid} (now : DateTime) (hfresh : handoffId ∉ s.issued) :
    (s.step (.initiateHandoff linkId strategy handoffId now)).Kept := by
  have hids : (s.manager.initiateHandoff linkId strategy handoffId now).1.handoffIds =
      s.manager.handoffIds ++ [handoffId] := by
    simp [FailoverManager.handoffIds, FailoverManager.initiateHandoff, HandoffExecution.new]
  refine { outcome := ?_, refused := hs.refused, nodup := ?_, issued := ?_,
           issued_completed := ?_ }
  · intro id outcome hmem h hh hid
    obtain hh | rfl := (List.mem_append.mp hh).imp_right List.mem_singleton.mp
    · exact hs.outcome id outcome hmem h hh hid
    · subst hid
      exact absurd (hs.issued_completed handoffId ⟨outcome, hmem⟩) hfresh
  · simp only [step, hids, (List.perm_append_singleton _ _).nodup_iff, List.nodup_cons]
    exact ⟨fun hmem => hfresh (hs.issued hmem), hs.nodup⟩
  · intro id hid
    simp only [step, hids, (List.perm_append_singleton _ _).mem_iff] at hid
    exact (List.mem_cons.mp hid).elim (· ▸ List.mem_cons_self)
      fun hid => List.mem_cons_of_mem _ (hs.issued hid)
  · exact fun id hid => List.mem_cons_of_mem _ (hs.issued_completed id hid)

theorem Kept.cleanup (hs : s.Kept) : (s.step .cleanupCompleted).Kept where
  outcome id outcome hmem h hh := hs.outcome id outcome hmem h (List.mem_of_mem_filter hh)
  refused := hs.refused
  nodup := hs.nodup.sublist (List.filter_sublist.map _)
  issued _ hmem := hs.issued ((List.filter_sublist.map _).subset hmem)
  issued_completed := hs.issued_completed

/-- The first completion of a handoff leaves the outcomes of the others. -/
theorem Kept.complete (hs : s.Kept) {handoffId : Uuid} (success : Bool) (packetsLost : UInt64)
    (now : DateTime) (honce : ¬ s.Completed handoffId) :
    (s.step (.completeHandoff handoffId success packetsLost now)).Kept := by
  obtain hnone | ⟨m', hsome, hmem, hids, hhandoffs⟩ :=
    FailoverManager.completeHandoff_cases hs.nodup handoffId success packetsLost now
  · have hstep : s.step (.completeHandoff handoffId success packetsLost now) = s := by
      simp only [step, hnone, if_neg honce]
    rw [hstep]
    exact hs
  · simp only [step, hsome, if_neg honce]
    refine { outcome := ?_, refused := hs.refused, nodup := ?_, issued := ?_,
             issued_completed := ?_ }
    · intro id outcome hlog h hh hid
      rcases List.mem_cons.mp hlog with hlog | hlog
      · obtain ⟨rfl, rfl⟩ := Prod.mk.inj hlog
        exact (hhandoffs h hh).elim And.right fun hother => absurd hid hother.1
      · have hne : id ≠ handoffId := fun heq => honce ⟨outcome, heq ▸ hlog⟩
        rcases hhandoffs h hh with ⟨heq, -⟩ | ⟨-, hold⟩
        · exact absurd (hid.symm.trans heq) hne
        · exact hs.outcome id outcome hlog h hold hid
    · exact hids ▸ hs.nodup
    · exact hids ▸ hs.issued
    · rintro id ⟨outcome, hlog⟩
      rcases List.mem_cons.mp hlog with hlog | hlog
      · obtain ⟨rfl, rfl⟩ := Prod.mk.inj hlog
        exact hs.issued hmem
      · exact hs.issued_completed id ⟨outcome, hlog⟩

theorem Kept.step (hs : s.Kept) (call : FailoverCall) (hfresh : s.Fresh call)
    (honce : s.CompletesOnce call) : (s.step call).Kept := by
  cases call with
  | initiateHandoff linkId strategy handoffId now => exact hs.initiate linkId strategy now hfresh
  | completeHandoff handoffId success packetsLost now =>
    exact hs.complete success packetsLost now honce
  | cleanupCompleted => exact hs.cleanup

/-- A second completion is not refused as such. -/
theorem completesOnce_of_final {call : FailoverCall} (hfinal : (s.step call).Final) :
    s.CompletesOnce call := by
  cases call with
  | completeHandoff handoffId success packetsLost now =>
    intro hcompleted
    refine s.manager.completeHandoff_ne_alreadyCompleted handoffId success packetsLost now
      (hfinal.refused _ ?_)
    simp only [FailoverSession.step, if_pos hcompleted]
    exact List.mem_cons_self
  | initiateHandoff => trivial
  | cleanupCompleted => trivial

/-- The outcomes are final throughout a run exactly when no handoff is completed twice. -/
theorem final_iff_completesOnce {calls : List FailoverCall}
    (hfresh : Along FailoverSession.step Fresh new calls) :
    (∀ n, (run FailoverSession.step new (calls.take n)).Final) ↔
      Along FailoverSession.step CompletesOnce new calls :=
  along_iff_of_imp (I := Kept) (fun _ hs => hs.toFinal)
    (fun _ call hs hfresh honce => hs.step call hfresh honce)
    (fun _ _ _ _ hfinal => completesOnce_of_final hfinal) kept_new hfresh

end FailoverSession

end GroundCore.Optical.Link
