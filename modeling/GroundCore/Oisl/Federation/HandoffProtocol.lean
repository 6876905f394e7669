import GroundCore.Lib.Chain
import GroundCore.Oisl.Federation.HandoffRuns

/-! The protocol of one handoff, read off its history: the transitions form a chain from idle to the
current state, none leaves a final state, a handoff completes from a state in progress only, and
its steps are processed in the declared order. -/

namespace GroundCore.Oisl.Federation

open Lib

namespace ControlPlaneHandoff

/-- A handoff that has reached a final state. -/
def isEnded (handoff : ControlPlaneHandoff) : Bool := handoff.isComplete || handoff.isFailed

/-- The steps that a handoff has processed. -/
def steps (handoff : ControlPlaneHandoff) : List HandoffStep :=
  handoff.stateHistory.filterMap (·.toState.step?)

structure Lawful (handoff : ControlPlaneHandoff) : Prop where
  chained : Chained (·.fromState) (·.toState) .idle handoff.stateHistory
  current : handoff.state = endpoint (·.toState) .idle handoff.stateHistory
  final : ∀ t ∈ handoff.stateHistory, t.fromState.isComplete = false ∧ t.fromState.isFailed = false
  completes : ∀ t ∈ handoff.stateHistory, t.toState.isComplete → t.fromState.isInProgress
  ordered : handoff.steps.Pairwise fun a b => a.index < b.index

/-- What holds of a stored handoff whatever the calls: it has left the idle state, and the step that
it is processing is the last of its steps. -/
structure Started (handoff : ControlPlaneHandoff) : Prop where
  notIdle : handoff.state ≠ .idle
  last : handoff.isInProgress → handoff.steps.getLast? = handoff.state.step?

/-- A transition to `newState` that keeps the protocol. -/
structure Allows (handoff : ControlPlaneHandoff) (newState : HandoffState) : Prop where
  live : handoff.isEnded = false
  completes : newState.isComplete → handoff.isInProgress
  later : ∀ step, newState.step? = some step → ∀ earlier ∈ handoff.steps, earlier.index < step.index

theorem steps_transitionTo (handoff : ControlPlaneHandoff) (newState : HandoffState)
    (trigger : HandoffTrigger) (now : DateTime) :
    (handoff.transitionTo newState trigger now).steps =
      handoff.steps ++ newState.step?.toList := by
  unfold steps transitionTo
  rw [List.filterMap_append]
  cases newState <;> rfl

theorem lawful_transitionTo_iff {handoff : ControlPlaneHandoff} {newState : HandoffState}
    {trigger : HandoffTrigger} {now : DateTime} :
    (handoff.transitionTo newState trigger now).Lawful ↔
      handoff.Lawful ∧ handoff.Allows newState := by
  have hended : handoff.isEnded = false ↔
      handoff.state.isComplete = false ∧ handoff.state.isFailed = false := by
    simp [isEnded, isComplete, isFailed]
  have hsteps := steps_transitionTo handoff newState trigger now
  constructor
  · intro h
    obtain ⟨hchained, hcurrent⟩ := chained_append_singleton.mp h.chained
    have hmem : ∀ t ∈ handoff.stateHistory,
        t ∈ (handoff.transitionTo newState trigger now).stateHistory :=
      fun t ht => List.mem_append_left _ ht
    have hordered := h.ordered
    rw [hsteps, List.pairwise_append] at hordered
    refine ⟨⟨hchained, hcurrent, fun t ht => h.final t (hmem t ht),
      fun t ht => h.completes t (hmem t ht), hordered.1⟩, ?_, ?_, ?_⟩
    · exact hended.mpr (h.final _ (List.mem_append_right _ (List.mem_singleton.mpr rfl)))
    · exact h.completes _ (List.mem_append_right _ (List.mem_singleton.mpr rfl))
    · intro step hstep earlier hearlier
      exact hordered.2.2 earlier hearlier step (by simp [hstep])
  · rintro ⟨h, hallows⟩
    constructor
    · exact chained_append_singleton.mpr ⟨h.chained, h.current⟩
    · show newState = endpoint _ _ (handoff.stateHistory ++ [_])
      rw [endpoint_append_singleton]
    · intro t ht
      rcases List.mem_append.mp ht with hold | hlast
      · exact h.final t hold
      · rw [List.mem_singleton.mp hlast]
        exact hended.mp hallows.live
    · intro t ht
      rcases List.mem_append.mp ht with hold | hlast
      · exact h.completes t hold
      · rw [List.mem_singleton.mp hlast]
        exact hallows.completes
    · rw [hsteps, List.pairwise_append]
      refine ⟨h.ordered, ?_, ?_⟩
      · cases newState.step? <;> simp
      · intro earlier hearlier step hstep
        exact hallows.later step (by simpa using hstep) earlier hearlier

theorem lawful_initiate (s : SatelliteId) (source target : NodeId) (clock : Clock) :
    (initiate s source target clock).Lawful ∧ (initiate s source target clock).Started := by
  refine ⟨lawful_transitionTo_iff.mpr ⟨?_, ?_⟩, ?_⟩
  · constructor <;> simp [new, steps]
  · constructor <;> simp [new, steps, isEnded, isComplete, isFailed, HandoffState.isComplete,
      HandoffState.isFailed]
  · constructor
    · simp [initiate, transitionTo]
    · intro _
      simp [initiate, steps, transitionTo, new, HandoffState.step?]

/-- A handoff in progress has not ended. -/
theorem isEnded_of_isInProgress {handoff : ControlPlaneHandoff} (h : handoff.isInProgress) :
    handoff.isEnded = false := by
  unfold isInProgress at h
  unfold isEnded isComplete isFailed
  cases hstate : handoff.state <;> rw [hstate] at h <;> first | contradiction | rfl

/-- A stored handoff that is not in progress has ended. -/
theorem Started.isEnded {handoff : ControlPlaneHandoff} (h : handoff.Started)
    (hprogress : handoff.isInProgress = false) : handoff.isEnded := by
  have hidle := h.notIdle
  unfold isInProgress at hprogress
  unfold ControlPlaneHandoff.isEnded isComplete isFailed
  cases hstate : handoff.state <;> rw [hstate] at hprogress hidle <;> first | contradiction | rfl

/-- The steps so far are before `next` exactly when the current one is. -/
theorem forall_steps_lt_iff {handoff : ControlPlaneHandoff} (hlawful : handoff.Lawful)
    (hstarted : handoff.Started) (hprogress : handoff.isInProgress) (next : HandoffStep) :
    (∀ earlier ∈ handoff.steps, earlier.index < next.index) ↔
      ∀ current, handoff.state.step? = some current → current.index < next.index := by
  have hlast := hstarted.last hprogress
  constructor
  · intro h current hcurrent
    rw [hcurrent] at hlast
    exact h current (List.mem_of_getLast? hlast)
  · intro h earlier hearlier
    cases hcurrent : handoff.state.step? with
    | none =>
      rw [hcurrent, List.getLast?_eq_none_iff] at hlast
      rw [hlast] at hearlier
      contradiction
    | some current =>
      rw [hcurrent] at hlast
      obtain ⟨front, hfront⟩ := List.getLast?_eq_some_iff.mp hlast
      have hlt := h current hcurrent
      have hordered := hlawful.ordered
      rw [hfront] at hearlier hordered
      rcases List.mem_append.mp hearlier with hold | hsame
      · have := (List.pairwise_append.mp hordered).2.2 earlier hold current (by simp)
        omega
      · rwa [List.mem_singleton.mp hsame]

theorem lawful_advance_iff {handoff : ControlPlaneHandoff} (hlawful : handoff.Lawful)
    (hstarted : handoff.Started) (hprogress : handoff.isInProgress) (next : HandoffStep)
    (clock : Clock) :
    (handoff.advance next clock).Lawful ↔
      ∀ current, handoff.state.step? = some current → current.index < next.index := by
  have hfirst : (handoff.transitionTo (.processing next (stamp clock 0)) .satelliteInitiated
      (clock 3)).Lawful ↔ ∀ current, handoff.state.step? = some current →
        current.index < next.index := by
    rw [lawful_transitionTo_iff, ← forall_steps_lt_iff hlawful hstarted hprogress]
    constructor
    · exact fun h => h.2.later next rfl
    · refine fun h => ⟨hlawful, isEnded_of_isInProgress hprogress, by simp [HandoffState.isComplete],
        ?_⟩
      rintro step ⟨⟩
      exact h
  unfold advance
  dsimp only
  split
  · rw [lawful_transitionTo_iff, ← hfirst]
    refine ⟨And.left, fun h => ⟨h, rfl, fun _ => rfl, ?_⟩⟩
    simp [HandoffState.step?]
  · exact hfirst

/-- A transition to a state that processes no step. -/
theorem started_transitionTo {handoff : ControlPlaneHandoff} {newState : HandoffState}
    {trigger : HandoffTrigger} {now : DateTime} (hidle : newState ≠ .idle)
    (hprogress : newState.isInProgress = false) :
    (handoff.transitionTo newState trigger now).Started := by
  refine ⟨hidle, fun h => ?_⟩
  have h : newState.isInProgress := h
  rw [hprogress] at h
  contradiction

theorem started_advance {handoff : ControlPlaneHandoff} (next : HandoffStep) (clock : Clock) :
    (handoff.advance next clock).Started := by
  unfold advance
  dsimp only
  split
  · exact started_transitionTo (by simp) rfl
  · refine ⟨by simp [transitionTo], fun _ => ?_⟩
    rw [steps_transitionTo]
    exact List.getLast?_concat

theorem lawful_complete_iff {handoff : ControlPlaneHandoff} (hlawful : handoff.Lawful)
    (metrics : HandoffMetrics) (clock : Clock) :
    (handoff.complete metrics clock).Lawful ↔ handoff.isInProgress := by
  have hmetrics : (handoff.updateMetrics metrics).Lawful := { hlawful with }
  unfold complete
  rw [lawful_transitionTo_iff]
  constructor
  · exact fun h => h.2.completes rfl
  · refine fun hprogress => ⟨hmetrics, isEnded_of_isInProgress hprogress, fun _ => hprogress, ?_⟩
    simp [HandoffState.step?]

theorem lawful_fail_iff {handoff : ControlPlaneHandoff} (hlawful : handoff.Lawful)
    (hstarted : handoff.Started) (reason : String) (clock : Clock) :
    (handoff.fail reason clock).Lawful ↔ handoff.isInProgress := by
  unfold fail
  rw [lawful_transitionTo_iff]
  constructor
  · intro h
    by_contra hnot
    have hended := hstarted.isEnded (by simpa using hnot)
    rw [h.2.live] at hended
    contradiction
  · refine fun hprogress => ⟨hlawful, isEnded_of_isInProgress hprogress,
      by simp [HandoffState.isComplete], ?_⟩
    simp [HandoffState.step?]

end ControlPlaneHandoff

namespace HandoffManager

/-- A call that keeps the protocol: an `advance` of a handoff in progress goes to a step after the
current one, and what `complete` and `fail` find is in progress. -/
def Orderly (manager : HandoffManager) : HandoffCall → Prop
  | .advance s nextStep _ => ∀ h, manager.getHandoff s = some h → h.isInProgress →
      ∀ current, h.state.step? = some current → current.index < nextStep.index
  | .complete s _ _ => ∀ h, manager.getHandoff s = some h → h.isInProgress
  | .fail s _ _ => ∀ h, manager.getHandoff s = some h → h.isInProgress
  | .initiate _ _ _ _ => True
  | .cleanup => True

/-- The state and the history of every handoff that has ended are as before. -/
def KeepsEnded (manager : HandoffManager) (call : HandoffCall) : Prop :=
  ∀ i j handoff, manager.activeHandoffs[i]? = some handoff → handoff.isEnded →
    manager.moved i call = some j → ∃ after, (manager.step call).activeHandoffs[j]? = some after ∧
      after.state = handoff.state ∧ after.stateHistory = handoff.stateHistory

/-- After the call every handoff has followed the protocol, and the call has left those alone that
had ended before. -/
def Follows (manager : HandoffManager) (call : HandoffCall) : Prop :=
  (∀ h ∈ (manager.step call).activeHandoffs, h.Lawful) ∧ manager.KeepsEnded call

/-- Whether an update of a handoff that it may update keeps the protocol. -/
theorem orderly_iff_lawful {manager : HandoffManager} {call : HandoffCall} {s : SatelliteId}
    {ready : ControlPlaneHandoff → Bool} {f : ControlPlaneHandoff → ControlPlaneHandoff}
    (hchange : call.change = some (s, ready, f)) {handoff : ControlPlaneHandoff}
    (hget : manager.getHandoff s = some handoff) (hready : ready handoff)
    (hlawful : handoff.Lawful) (hstarted : handoff.Started) :
    manager.Orderly call ↔ (f handoff).Lawful := by
  rcases HandoffCall.change_cases hchange with ⟨nextStep, clock, rfl, rfl, rfl⟩ |
    ⟨metrics, clock, rfl, rfl, rfl⟩ | ⟨reason, clock, rfl, rfl, rfl⟩
  · rw [ControlPlaneHandoff.lawful_advance_iff hlawful hstarted hready]
    simp [Orderly, hget, hready]
  · rw [ControlPlaneHandoff.lawful_complete_iff hlawful]
    simp [Orderly, hget]
  · rw [ControlPlaneHandoff.lawful_fail_iff hlawful hstarted]
    simp [Orderly, hget]

/-- An orderly update finds a handoff that is in progress. -/
theorem Orderly.isInProgress {manager : HandoffManager} {call : HandoffCall}
    (h : manager.Orderly call) {s : SatelliteId}
    {ready : ControlPlaneHandoff → Bool} {f : ControlPlaneHandoff → ControlPlaneHandoff}
    (hchange : call.change = some (s, ready, f)) {handoff : ControlPlaneHandoff}
    (hget : manager.getHandoff s = some handoff) (hready : ready handoff) :
    handoff.isInProgress := by
  rcases HandoffCall.change_cases hchange with ⟨nextStep, clock, -, rfl, -⟩ |
    ⟨metrics, clock, rfl, -, -⟩ | ⟨reason, clock, rfl, -, -⟩
  · exact hready
  · exact h handoff hget
  · exact h handoff hget

/-- A call that finds nothing that it may update is orderly. -/
theorem orderly_of_not_ready {manager : HandoffManager} {call : HandoffCall}
    (h : ∀ s ready f handoff, call.change = some (s, ready, f) →
      manager.getHandoff s = some handoff → ready handoff = false) : manager.Orderly call := by
  cases call with
  | advance s nextStep clock =>
    intro handoff hget hprogress
    have := h s _ _ handoff rfl hget
    rw [hprogress] at this
    contradiction
  | complete s metrics clock | fail s reason clock =>
    intro handoff hget
    have := h s _ _ handoff rfl hget
    contradiction
  | initiate | cleanup => trivial

/-- The handoffs after the update of one of them. -/
theorem mem_modify {α : Type} {l : List α} {i : ℕ} {a b : α} {f : α → α} (h : l[i]? = some a)
    (hmem : b ∈ l.modify i f) : b = f a ∨ b ∈ l := by
  obtain ⟨n, hn⟩ := List.mem_iff_getElem?.mp hmem
  rw [List.getElem?_modify] at hn
  by_cases heq : i = n
  · subst heq
    rw [h] at hn
    simp only [if_true, Option.map_eq_map, Option.map_some, Option.some.injEq] at hn
    exact .inl hn.symm
  · simp only [heq, if_false, id_map'] at hn
    exact .inr (List.mem_of_getElem? hn)

theorem started_step (manager : HandoffManager) (call : HandoffCall)
    (h : ∀ handoff ∈ manager.activeHandoffs, handoff.Started) :
    ∀ handoff ∈ (manager.step call).activeHandoffs, handoff.Started := by
  intro after hafter
  rcases manager.step_cases call with ⟨-, -, hstep⟩ | ⟨s, source, target, clock, rfl, -, hstep⟩ |
    ⟨s, ready, f, i, handoff, hchange, -, hget, -, hstep⟩ | ⟨-, hstep⟩ <;> rw [hstep] at hafter
  · exact h after hafter
  · rcases List.mem_append.mp hafter with hold | hnew
    · exact h after hold
    · rw [List.mem_singleton.mp hnew]
      exact (ControlPlaneHandoff.lawful_initiate s source target clock).2
  · rcases mem_modify hget hafter with rfl | hold
    · rcases HandoffCall.change_cases hchange with ⟨nextStep, clock, -, -, rfl⟩ |
        ⟨metrics, clock, -, -, rfl⟩ | ⟨reason, clock, -, -, rfl⟩
      · exact ControlPlaneHandoff.started_advance nextStep clock
      · exact ControlPlaneHandoff.started_transitionTo (by simp) rfl
      · exact ControlPlaneHandoff.started_transitionTo (by simp) rfl
    · exact h after hold
  · exact h after (List.mem_filter.mp hafter).1

/-- Where the handoffs of the vector are after a cleanup. -/
theorem getElem?_filter {α : Type} {q : α → Bool} {l : List α} {i : ℕ} {a : α}
    (h : l[i]? = some a) (hq : q a) : (l.filter q)[(l.take i).countP q]? = some a := by
  induction l generalizing i with
  | nil => simp at h
  | cons b l ih =>
    cases i with
    | zero =>
      have hab : b = a := by simpa using h
      subst hab
      simp [List.filter_cons_of_pos hq]
    | succ i =>
      have hrest := ih (by simpa using h)
      by_cases hqb : q b
      · simp [List.filter_cons_of_pos hqb, hqb, hrest]
      · simp [List.filter_cons_of_neg hqb, hqb, hrest]

theorem keepsEnded_of_orderly {manager : HandoffManager} {call : HandoffCall}
    (horderly : manager.Orderly call) : manager.KeepsEnded call := by
  intro i j ended hi hended hj
  have hsame : call ≠ .cleanup → i = j := fun hne => eq_of_moved hne hj
  rcases manager.step_cases call with ⟨hne, -, hstep⟩ | ⟨s, source, target, clock, rfl, -, hstep⟩ |
    ⟨s, ready, f, k, handoff, hchange, hlocate, hget, hready, hstep⟩ | ⟨rfl, hstep⟩ <;> rw [hstep]
  · exact ⟨ended, hsame hne ▸ hi, rfl, rfl⟩
  · have hlt := (List.getElem?_eq_some_iff.mp hi).1
    rw [← hsame (by simp)]
    exact ⟨ended, by rw [List.getElem?_append_left hlt, hi], rfl, rfl⟩
  · have hne : call ≠ .cleanup := by
      rintro rfl
      contradiction
    have hdiff : k ≠ i := by
      rintro rfl
      rw [hget, Option.some.injEq] at hi
      subst hi
      have hprogress := horderly.isInProgress hchange (getHandoff_of_locate hlocate ▸ hget) hready
      rw [ControlPlaneHandoff.isEnded_of_isInProgress hprogress] at hended
      contradiction
    rw [← hsame hne]
    exact ⟨ended, by simp [hdiff, hi], rfl, rfl⟩
  · unfold moved at hj
    rw [hi, Option.any_some] at hj
    cases hcomplete : ended.isComplete with
    | true => simp [hcomplete] at hj
    | false =>
      simp only [hcomplete, Bool.false_eq_true, if_false, Option.some.injEq] at hj
      rw [← hj]
      exact ⟨ended, getElem?_filter hi (by simp [hcomplete]), rfl, rfl⟩

theorem follows_iff_orderly {manager : HandoffManager} (call : HandoffCall)
    (hstarted : ∀ h ∈ manager.activeHandoffs, h.Started)
    (hlawful : ∀ h ∈ manager.activeHandoffs, h.Lawful) :
    manager.Follows call ↔ manager.Orderly call := by
  have hafter : (∀ h ∈ (manager.step call).activeHandoffs, h.Lawful) ↔ manager.Orderly call := by
    rcases manager.step_cases call with
      ⟨-, hnot, hstep⟩ | ⟨s, source, target, clock, rfl, -, hstep⟩ |
      ⟨s, ready, f, i, handoff, hchange, hlocate, hget, hready, hstep⟩ | ⟨rfl, hstep⟩ <;> rw [hstep]
    · exact ⟨fun _ => orderly_of_not_ready hnot, fun _ => hlawful⟩
    · refine ⟨fun _ => trivial, fun _ h hmem => ?_⟩
      rcases List.mem_append.mp hmem with hold | hnew
      · exact hlawful h hold
      · rw [List.mem_singleton.mp hnew]
        exact (ControlPlaneHandoff.lawful_initiate s source target clock).1
    · have hmem : handoff ∈ manager.activeHandoffs := List.mem_of_getElem? hget
      rw [orderly_iff_lawful hchange (getHandoff_of_locate hlocate ▸ hget) hready
        (hlawful handoff hmem) (hstarted handoff hmem)]
      constructor
      · intro hall
        refine hall (f handoff) (List.mem_of_getElem? (i := i) ?_)
        simp [hget]
      · intro hf h hmem
        rcases mem_modify hget hmem with rfl | hold
        · exact hf
        · exact hlawful h hold
    · exact ⟨fun _ => trivial, fun _ h hmem => hlawful h (List.mem_filter.mp hmem).1⟩
  exact ⟨fun h => hafter.mp h.1, fun h => ⟨hafter.mpr h, keepsEnded_of_orderly h⟩⟩

/-- Every call of a run keeps the protocol of every handoff exactly when every call is orderly. -/
theorem follows_iff (calls : List HandoffCall) :
    Along step Follows new calls ↔ Along step Orderly new calls := by
  refine along_congr (I := fun manager => (∀ h ∈ manager.activeHandoffs, h.Started) ∧
    ∀ h ∈ manager.activeHandoffs, h.Lawful) ?_ ?_ ?_
  · exact fun manager call h => follows_iff_orderly call h.1 h.2
  · exact fun manager call h hfollows => ⟨started_step manager call h.1, hfollows.1⟩
  · simp [new]

/-- A handoff that has failed becomes complete when it is completed. -/
theorem failed_handoff_completes : ¬ ∀ calls : List HandoffCall, Along step Follows new calls := by
  intro h
  let clock : Clock := fun _ => 0
  have hcompletes := (h [.initiate "sat-1" "node-1" "node-2" clock, .fail "sat-1" "timeout" clock,
    .complete "sat-1" (.default 0) clock]).2.2.1.1 _ (List.mem_singleton.mpr rfl)
  have hfinal := hcompletes.completes _ (List.mem_of_getElem? (i := 2) rfl)
  exact absurd (hfinal rfl) (by decide)

end HandoffManager

end GroundCore.Oisl.Federation
