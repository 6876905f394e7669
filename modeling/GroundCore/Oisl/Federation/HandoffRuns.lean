import Mathlib.Data.List.Basic
import GroundCore.Lib.Run
import GroundCore.Oisl.Federation.ControlPlaneHandoff

/-! Runs of the handoff manager.  A handoff has no id: it is followed through a run by its place in
the vector, which only a cleanup changes.  Every call acts on the first handoff of its satellite, so
a live handoff is the one that is acted on exactly when no finished handoff of the satellite is
stored before it. -/

namespace GroundCore.Oisl.Federation

open Lib

inductive HandoffCall
  | initiate (satelliteId : SatelliteId) (sourceNode targetNode : NodeId) (clock : Clock)
  | advance (satelliteId : SatelliteId) (nextStep : HandoffStep) (clock : Clock)
  | complete (satelliteId : SatelliteId) (metrics : HandoffMetrics) (clock : Clock)
  | fail (satelliteId : SatelliteId) (reason : String) (clock : Clock)
  | cleanup

namespace HandoffManager

def step (manager : HandoffManager) : HandoffCall → HandoffManager
  | .initiate s source target clock => (manager.initiateHandoff s source target clock).1
  | .advance s nextStep clock => (manager.advanceHandoff s nextStep clock).1
  | .complete s metrics clock => (manager.completeHandoff s metrics clock).1
  | .fail s reason clock => (manager.failHandoff s reason clock).1
  | .cleanup => manager.cleanupCompleted

/-- Where the handoff at place `i` is after the call, if it is still stored. -/
def moved (manager : HandoffManager) (i : ℕ) : HandoffCall → Option ℕ
  | .cleanup =>
    if (manager.activeHandoffs[i]?).any (·.isComplete) then none
    else some ((manager.activeHandoffs.take i).countP fun h => !h.isComplete)
  | _ => some i

/-- Only a cleanup moves a handoff. -/
theorem eq_of_moved {manager : HandoffManager} {call : HandoffCall} {i j : ℕ}
    (hne : call ≠ .cleanup) (hj : manager.moved i call = some j) : i = j := by
  cases call with
  | cleanup => contradiction
  | initiate | advance | complete | fail => exact Option.some.inj hj

/-- Where the handoff at place `i` is after a run, if it is still stored. -/
def follow (manager : HandoffManager) (i : ℕ) : List HandoffCall → Option ℕ
  | [] => some i
  | call :: calls => (manager.moved i call).bind fun j => (manager.step call).follow j calls

end HandoffManager

/-! ### What one call does -/

/-- A call that updates the first handoff of a satellite: the satellite, the states in which it may
be updated, and the update. -/
def HandoffCall.change : HandoffCall →
    Option (SatelliteId × (ControlPlaneHandoff → Bool) × (ControlPlaneHandoff → ControlPlaneHandoff))
  | .advance s nextStep clock => some (s, (·.isInProgress), .advance nextStep clock)
  | .complete s metrics clock => some (s, fun _ => true, .complete metrics clock)
  | .fail s reason clock => some (s, fun _ => true, .fail reason clock)
  | _ => none

theorem HandoffCall.change_cases {call : HandoffCall} {s : SatelliteId}
    {ready : ControlPlaneHandoff → Bool} {f : ControlPlaneHandoff → ControlPlaneHandoff}
    (h : call.change = some (s, ready, f)) :
    (∃ nextStep clock, call = .advance s nextStep clock ∧ ready = (·.isInProgress) ∧
      f = .advance nextStep clock) ∨
    (∃ metrics clock, call = .complete s metrics clock ∧ ready = (fun _ => true) ∧
      f = .complete metrics clock) ∨
    (∃ reason clock, call = .fail s reason clock ∧ ready = (fun _ => true) ∧
      f = .fail reason clock) := by
  cases call with
  | advance s nextStep clock =>
    obtain ⟨rfl, rfl, rfl⟩ : _ ∧ _ ∧ _ := by simpa [change] using h
    exact .inl ⟨nextStep, clock, rfl, rfl, rfl⟩
  | complete s metrics clock =>
    obtain ⟨rfl, rfl, rfl⟩ : _ ∧ _ ∧ _ := by simpa [change] using h
    exact .inr (.inl ⟨metrics, clock, rfl, rfl, rfl⟩)
  | fail s reason clock =>
    obtain ⟨rfl, rfl, rfl⟩ : _ ∧ _ ∧ _ := by simpa [change] using h
    exact .inr (.inr ⟨reason, clock, rfl, rfl, rfl⟩)
  | initiate | cleanup => contradiction

namespace ControlPlaneHandoff

@[simp] theorem satelliteId_initiate (s : SatelliteId) (source target : NodeId) (clock : Clock) :
    (initiate s source target clock).satelliteId = s := rfl

@[simp] theorem isInProgress_initiate (s : SatelliteId) (source target : NodeId) (clock : Clock) :
    (initiate s source target clock).isInProgress := rfl

theorem satelliteId_change {call : HandoffCall} {s : SatelliteId}
    {ready : ControlPlaneHandoff → Bool} {f : ControlPlaneHandoff → ControlPlaneHandoff}
    (h : call.change = some (s, ready, f)) (handoff : ControlPlaneHandoff) :
    (f handoff).satelliteId = handoff.satelliteId := by
  rcases HandoffCall.change_cases h with ⟨nextStep, clock, -, -, rfl⟩ | ⟨metrics, clock, -, -, rfl⟩ |
    ⟨reason, clock, -, -, rfl⟩
  · unfold advance
    dsimp only
    split <;> rfl
  · rfl
  · rfl

/-- Only a handoff that was in progress is in progress after an update. -/
theorem isInProgress_of_change {call : HandoffCall} {s : SatelliteId}
    {ready : ControlPlaneHandoff → Bool} {f : ControlPlaneHandoff → ControlPlaneHandoff}
    (h : call.change = some (s, ready, f)) {handoff : ControlPlaneHandoff}
    (hready : ready handoff) (hafter : (f handoff).isInProgress) : handoff.isInProgress := by
  rcases HandoffCall.change_cases h with ⟨nextStep, clock, -, rfl, -⟩ | ⟨metrics, clock, -, -, rfl⟩ |
    ⟨reason, clock, -, -, rfl⟩
  · exact hready
  · contradiction
  · contradiction

end ControlPlaneHandoff

namespace HandoffManager

theorem locate_spec {manager : HandoffManager} {s : SatelliteId} {i : ℕ}
    (h : manager.locate s = some i) :
    ∃ handoff, manager.activeHandoffs[i]? = some handoff ∧ handoff.satelliteId = s := by
  obtain ⟨hi, hs, -⟩ := List.findIdx?_eq_some_iff_getElem.mp h
  exact ⟨_, List.getElem?_eq_getElem hi, by simpa using hs⟩

theorem getHandoff_of_locate {manager : HandoffManager} {s : SatelliteId} {i : ℕ}
    (h : manager.locate s = some i) : manager.getHandoff s = manager.activeHandoffs[i]? := by
  simp [getHandoff, h]

theorem step_of_change (manager : HandoffManager) {call : HandoffCall} {s : SatelliteId}
    {ready : ControlPlaneHandoff → Bool} {f : ControlPlaneHandoff → ControlPlaneHandoff}
    (h : call.change = some (s, ready, f)) :
    manager.step call = (manager.update s ready f).1 := by
  rcases HandoffCall.change_cases h with ⟨nextStep, clock, rfl, rfl, rfl⟩ |
    ⟨metrics, clock, rfl, rfl, rfl⟩ | ⟨reason, clock, rfl, rfl, rfl⟩
  · rfl
  · rfl
  · rfl

/-- An update finds no handoff that is ready, or it updates the first one of the satellite. -/
theorem update_cases (manager : HandoffManager) (s : SatelliteId)
    (ready : ControlPlaneHandoff → Bool) (f : ControlPlaneHandoff → ControlPlaneHandoff) :
    ((∀ handoff, manager.getHandoff s = some handoff → ready handoff = false) ∧
      (manager.update s ready f).1 = manager) ∨
    ∃ i handoff, manager.locate s = some i ∧ manager.activeHandoffs[i]? = some handoff ∧
      ready handoff ∧ (manager.update s ready f).1 = ⟨manager.activeHandoffs.modify i f⟩ := by
  unfold update
  cases hlocate : manager.locate s with
  | none =>
    refine .inl ⟨fun handoff hget => ?_, rfl⟩
    simp [getHandoff, hlocate] at hget
  | some i =>
    obtain ⟨handoff, hget, -⟩ := locate_spec hlocate
    simp only [hget, Option.any_some]
    by_cases hready : ready handoff
    · rw [if_pos hready]
      exact .inr ⟨i, handoff, rfl, hget, hready, rfl⟩
    · rw [if_neg hready]
      refine .inl ⟨fun found hfound => ?_, rfl⟩
      rw [getHandoff_of_locate hlocate, hget, Option.some.injEq] at hfound
      rw [← hfound]
      simpa using hready

/-- A call finds nothing that it may update, or it appends a new handoff, or it updates the first
handoff of its satellite, or it removes the completed handoffs. -/
theorem step_cases (manager : HandoffManager) (call : HandoffCall) :
    (call ≠ .cleanup ∧ (∀ s ready f handoff, call.change = some (s, ready, f) →
        manager.getHandoff s = some handoff → ready handoff = false) ∧
      manager.step call = manager) ∨
    (∃ s source target clock, call = .initiate s source target clock ∧
      (∀ h ∈ manager.activeHandoffs, h.satelliteId = s → h.isInProgress = false) ∧
      manager.step call =
        ⟨manager.activeHandoffs ++ [.initiate s source target clock]⟩) ∨
    (∃ s ready f i handoff, call.change = some (s, ready, f) ∧ manager.locate s = some i ∧
      manager.activeHandoffs[i]? = some handoff ∧ ready handoff ∧
      manager.step call = ⟨manager.activeHandoffs.modify i f⟩) ∨
    (call = .cleanup ∧
      manager.step call = ⟨manager.activeHandoffs.filter fun h => !h.isComplete⟩) := by
  cases hchange : call.change with
  | some change =>
    obtain ⟨s, ready, f⟩ := change
    rw [step_of_change manager hchange]
    rcases manager.update_cases s ready f with
      ⟨hunready, hstep⟩ | ⟨i, handoff, hlocate, hget, hready, hstep⟩
    · refine .inl ⟨?_, ?_, hstep⟩
      · rintro rfl
        contradiction
      · rintro _ _ _ handoff ⟨⟩ hget
        exact hunready handoff hget
    · exact .inr (.inr (.inl ⟨s, ready, f, i, handoff, rfl, hlocate, hget, hready, hstep⟩))
  | none =>
    cases call with
    | initiate s source target clock =>
      by_cases hany : manager.activeHandoffs.any fun h => h.satelliteId = s && h.isInProgress
      · exact .inl ⟨by simp, by simp, by simp only [step, initiateHandoff, if_pos hany]⟩
      · refine .inr (.inl ⟨s, source, target, clock, rfl, ?_, ?_⟩)
        · simpa using hany
        · simp only [step, initiateHandoff, if_neg hany]
    | cleanup => exact .inr (.inr (.inr ⟨rfl, rfl⟩))
    | advance | complete | fail => contradiction

/-! ### Following a handoff -/

theorem findIdx?_filter {α : Type} {p q : α → Bool} {l : List α} {i : ℕ}
    (h : l.findIdx? p = some i) (hq : (l[i]?).any q) :
    (l.filter q).findIdx? p = some ((l.take i).countP q) := by
  induction l generalizing i with
  | nil => contradiction
  | cons a l ih =>
    rw [List.findIdx?_cons] at h
    cases hp : p a with
    | true =>
      simp only [hp, if_true, Option.some.injEq] at h
      subst h
      have hqa : q a := by simpa using hq
      simp [List.filter_cons_of_pos hqa, List.findIdx?_cons, hp]
    | false =>
      simp only [hp, Bool.false_eq_true, if_false, Option.map_eq_some_iff] at h
      obtain ⟨j, hj, rfl⟩ := h
      have hrest := ih hj (by simpa using hq)
      by_cases hqa : q a
      · simp [List.filter_cons_of_pos hqa, List.findIdx?_cons, hp, hrest, hqa]
      · simp [List.filter_cons_of_neg hqa, hrest, hqa]

theorem locate_modify (manager : HandoffManager) (s : SatelliteId) (i : ℕ)
    {f : ControlPlaneHandoff → ControlPlaneHandoff}
    (hf : ∀ h, (f h).satelliteId = h.satelliteId) :
    (HandoffManager.mk (manager.activeHandoffs.modify i f)).locate s = manager.locate s := by
  have hids : (manager.activeHandoffs.modify i f).map (·.satelliteId) =
      manager.activeHandoffs.map (·.satelliteId) := by
    refine List.ext_getElem (by simp) fun n _ _ => ?_
    by_cases hn : i = n
    · simp [hn, hf]
    · simp [hn]
  have hlocate : ∀ m : HandoffManager, m.locate s =
      (m.activeHandoffs.map (·.satelliteId)).findIdx? fun id => id = s := by
    intro m
    rw [List.findIdx?_map]
    rfl
  rw [hlocate, hlocate, hids]

/-- The first handoff of a satellite stays the first while it is stored. -/
theorem locate_step {manager : HandoffManager} {s : SatelliteId} {i j : ℕ} {call : HandoffCall}
    (h : manager.locate s = some i) (hj : manager.moved i call = some j) :
    (manager.step call).locate s = some j := by
  have hsame : call ≠ .cleanup → i = j := fun hne => eq_of_moved hne hj
  rcases manager.step_cases call with ⟨hne, -, hstep⟩ | ⟨s', source, target, clock, rfl, -, hstep⟩ |
    ⟨s', ready, f, k, handoff, hchange, -, -, -, hstep⟩ | ⟨rfl, hstep⟩ <;> rw [hstep]
  · rw [← hsame hne, h]
  · rw [← hsame (by simp)]
    unfold locate
    rw [List.findIdx?_append, ← locate, h]
    rfl
  · have hne : call ≠ .cleanup := by
      rintro rfl
      contradiction
    rw [← hsame hne, locate_modify _ _ _ (ControlPlaneHandoff.satelliteId_change hchange), h]
  · obtain ⟨handoff, hget, -⟩ := locate_spec h
    unfold moved at hj
    rw [hget, Option.any_some] at hj
    cases hcomplete : handoff.isComplete with
    | true => simp [hcomplete] at hj
    | false =>
      simp only [hcomplete, Bool.false_eq_true, if_false, Option.some.injEq] at hj
      rw [← hj]
      exact findIdx?_filter h (by simp [hget, hcomplete])

theorem locate_follow {s : SatelliteId} (calls : List HandoffCall) :
    ∀ {manager : HandoffManager} {i j : ℕ}, manager.locate s = some i →
      manager.follow i calls = some j → (run step manager calls).locate s = some j := by
  induction calls with
  | nil =>
    intro manager i j h hj
    rwa [← Option.some.inj hj]
  | cons call calls ih =>
    intro manager i j h hj
    obtain ⟨k, hk, hj⟩ := Option.bind_eq_some_iff.mp hj
    exact ih (locate_step h hk) hj

/-- Every later call on the satellite acts on the handoff that is now at place `i`, until that
handoff ends. -/
def Operates (manager : HandoffManager) (s : SatelliteId) (i : ℕ) : Prop :=
  ∀ later j, manager.follow i later = some j →
    ((run step manager later).activeHandoffs[j]?).any (·.isInProgress) →
    (run step manager later).locate s = some j

/-- At most one handoff of each satellite is in progress. -/
def Exclusive (manager : HandoffManager) : Prop :=
  ∀ s, (manager.activeHandoffs.countP fun h => h.satelliteId = s && h.isInProgress) ≤ 1

theorem countP_modify_le {α : Type} {p : α → Bool} {f : α → α} {l : List α} {i : ℕ}
    (h : ∀ a, l[i]? = some a → p (f a) → p a) : (l.modify i f).countP p ≤ l.countP p := by
  induction l generalizing i with
  | nil => simp
  | cons a l ih =>
    cases i with
    | zero =>
      have ha := h a (by simp)
      rw [List.modify_zero_cons, List.countP_cons, List.countP_cons]
      by_cases hp : p (f a)
      · simp [hp, ha hp]
      · simp [hp]
    | succ i =>
      rw [List.modify_succ_cons, List.countP_cons, List.countP_cons]
      exact Nat.add_le_add_right (ih fun b hb => h b (by simpa using hb)) _

theorem exclusive_step (manager : HandoffManager) (call : HandoffCall)
    (h : manager.Exclusive) : (manager.step call).Exclusive := by
  intro s
  rcases manager.step_cases call with ⟨-, -, hstep⟩ | ⟨s', source, target, clock, rfl, hnone, hstep⟩ |
    ⟨s', ready, f, i, handoff, hchange, -, hget, hready, hstep⟩ | ⟨-, hstep⟩ <;> rw [hstep]
  · exact h s
  · rw [List.countP_append, List.countP_singleton]
    by_cases hs : s' = s
    · subst hs
      have hzero : (manager.activeHandoffs.countP fun h =>
          h.satelliteId = s' && h.isInProgress) = 0 := by
        refine List.countP_eq_zero.mpr fun h hmem => ?_
        simpa using hnone h hmem
      rw [hzero]
      split <;> omega
    · simpa [hs] using h s
  · refine Nat.le_trans (countP_modify_le ?_) (h s)
    intro a ha hp
    rw [hget, Option.some.injEq] at ha
    subst ha
    rw [ControlPlaneHandoff.satelliteId_change hchange, Bool.and_eq_true] at hp
    rw [Bool.and_eq_true]
    exact ⟨hp.1, ControlPlaneHandoff.isInProgress_of_change hchange hready hp.2⟩
  · exact Nat.le_trans List.filter_sublist.countP_le (h s)

theorem exclusive_run (history : List HandoffCall) : (run step new history).Exclusive :=
  run_preserves (I := Exclusive) exclusive_step (fun s => by simp [new]) history

/-- After every history at most one handoff of each satellite is in progress.  A handoff that is
then initiated is the one that later calls act on exactly when no other handoff of its satellite,
finished or failed, is still stored. -/
theorem operates_iff (history : List HandoffCall) (s : SatelliteId) (source target : NodeId)
    (clock : Clock)
    (hok : ((run step new history).initiateHandoff s source target clock).2.isOk) :
    (run step new history).Exclusive ∧
      (((run step new history).step (.initiate s source target clock)).Operates s
          (run step new history).activeHandoffs.length ↔
        ∀ h ∈ (run step new history).activeHandoffs, h.satelliteId ≠ s) := by
  refine ⟨exclusive_run history, ?_⟩
  generalize run step new history = manager at hok ⊢
  have hstep : manager.step (.initiate s source target clock) =
      ⟨manager.activeHandoffs ++ [.initiate s source target clock]⟩ := by
    simp only [step, initiateHandoff] at hok ⊢
    split at hok
    · contradiction
    · next hnone => rw [if_neg hnone]
  have hlocate : (manager.step (.initiate s source target clock)).locate s =
      some manager.activeHandoffs.length ↔
        ∀ h ∈ manager.activeHandoffs, h.satelliteId ≠ s := by
    rw [hstep]
    unfold locate
    rw [List.findIdx?_append]
    cases hold : manager.activeHandoffs.findIdx? fun h => h.satelliteId = s with
    | none =>
      have hnone := List.findIdx?_eq_none_iff.mp hold
      refine ⟨fun _ h hmem => by simpa using hnone h hmem, fun _ => ?_⟩
      simp
    | some i =>
      obtain ⟨hi, hs, -⟩ := List.findIdx?_eq_some_iff_getElem.mp hold
      constructor
      · intro heq
        have : i = manager.activeHandoffs.length := Option.some.inj heq
        omega
      · exact fun hnone => absurd (by simpa using hs) (hnone _ (List.getElem_mem hi))
  constructor
  · intro h
    exact hlocate.mp (h [] _ rfl (by simp [hstep]))
  · intro hnone later j hj _
    exact locate_follow later (hlocate.mpr hnone) hj

/-- A handoff that is completed and cleaned up, and one of another satellite that goes on. -/
def cleanedUp : List HandoffCall :=
  [.initiate "sat-1" "node-1" "node-2" fun _ => 0, .complete "sat-1" (.default 0) fun _ => 0,
    .initiate "sat-2" "node-1" "node-3" fun _ => 0, .cleanup]

theorem operates_after_cleanup :
    ((run step new cleanedUp).step (.initiate "sat-1" "node-2" "node-3" fun _ => 0)).Operates
      "sat-1" 1 :=
  (operates_iff cleanedUp "sat-1" "node-2" "node-3" (fun _ => 0) rfl).2.mpr (by decide)

/-- A second handoff of a satellite is not acted on while the first, which is complete, is still
stored. -/
theorem second_handoff_not_operated :
    ¬ ∀ (history : List HandoffCall) (s : SatelliteId) (source target : NodeId) (clock : Clock),
      ((run step new history).initiateHandoff s source target clock).2.isOk →
      ((run step new history).step (.initiate s source target clock)).Operates s
        (run step new history).activeHandoffs.length := by
  intro h
  let clock : Clock := fun _ => 0
  have hlocate := h [.initiate "sat-1" "node-1" "node-2" clock, .complete "sat-1" (.default 0) clock]
    "sat-1" "node-2" "node-3" clock rfl [] 1 rfl (by decide)
  exact absurd hlocate (by decide)

end HandoffManager

end GroundCore.Oisl.Federation
