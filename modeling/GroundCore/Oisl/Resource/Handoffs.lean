import Mathlib.Tactic.Linarith
import GroundCore.Lib.Chain
import GroundCore.Oisl.Resource.ControlNodeAssignment

/-! The handoffs that follow from predictions.  The satellite stays with its node until another one
is closer by more than the threshold, so that the node it is assigned to lags behind the nearest
one, but never by more than the threshold. -/

namespace GroundCore.Oisl.Resource

open Lib FloatOps ExactFloat

variable {F64 F32 : Type} [FloatOps F64 F32] [ExactDivision F64 F32]

namespace AssignmentPoint

/-- The nearest node is in the table, at a distance that is not negative. -/
def Measured (point : AssignmentPoint F64) : Prop :=
  ∃ d, point.distances.get? point.nearestNode = some d ∧ 0 ≤ val d

variable {point : AssignmentPoint F64}

theorem Measured.currentDistance_nearest (h : point.Measured) :
    point.currentDistance point.nearestNode = point.newDistance := by
  obtain ⟨d, hd, -⟩ := h
  rw [currentDistance, newDistance, hd]
  rfl

theorem Measured.newDistance_nonneg (h : point.Measured) : 0 ≤ val point.newDistance := by
  obtain ⟨d, hd, hnonneg⟩ := h
  rw [newDistance, hd]
  exact hnonneg

end AssignmentPoint

namespace ControlNodeAssignmentAlgorithm

/-- The node that the satellite is assigned to after the `i`-th point. -/
def assignedAt (start : NodeId) (events : List (HandoffEvent F64)) (i : ℕ) : NodeId :=
  endpoint HandoffEvent.toNode start (events.filter fun e => e.predictionIndex ≤ i)

variable (alg : ControlNodeAssignmentAlgorithm F64)

/-- The event is the handoff at a point to its nearest node, which is closer than the node before by
more than the threshold. -/
structure Gains (point : AssignmentPoint F64) (event : HandoffEvent F64) : Prop where
  time : event.handoffTime = point.timestamp
  toNode : event.toNode = point.nearestNode
  reduction : val event.estimatedDistanceReduction =
    val (point.currentDistance event.fromNode) - val point.newDistance
  gain : val alg.handoffThresholdRatio * val (point.currentDistance event.fromNode) <
    val event.estimatedDistanceReduction

/-- A node that no handoff is required from. -/
def CloseEnough (point : AssignmentPoint F64) (node : NodeId) : Prop :=
  val (point.currentDistance node) ≤
    val point.newDistance / (1 - val alg.handoffThresholdRatio)

/-- What holds of the events for some points, and of the node after the last of them. -/
structure Follows (start : NodeId) (points : List (AssignmentPoint F64))
    (events : List (HandoffEvent F64)) (current : NodeId) : Prop where
  chained : Chained HandoffEvent.fromNode HandoffEvent.toNode start events
  current_eq : endpoint HandoffEvent.toNode start events = current
  increasing : events.Pairwise fun e e' => e.predictionIndex < e'.predictionIndex
  below : ∀ e ∈ events, e.predictionIndex < points.length
  gains : ∀ e ∈ events, ∃ point, points[e.predictionIndex]? = some point ∧ alg.Gains point e
  close : ∀ i point, points[i]? = some point → alg.CloseEnough point (assignedAt start events i)

variable {alg} {start current : NodeId} {points : List (AssignmentPoint F64)}
  {events : List (HandoffEvent F64)} {point : AssignmentPoint F64}

omit [ExactDivision F64 F32] in
theorem assignedAt_of_le {i : ℕ} (h : ∀ e ∈ events, e.predictionIndex ≤ i) :
    assignedAt start events i = endpoint HandoffEvent.toNode start events := by
  rw [assignedAt, List.filter_eq_self.mpr fun e he => decide_eq_true (h e he)]

omit [ExactDivision F64 F32] in
/-- A later event does not change where the satellite is assigned to before. -/
theorem assignedAt_append {i : ℕ} {event : HandoffEvent F64} (h : i < event.predictionIndex) :
    assignedAt start (events ++ [event]) i = assignedAt start events i := by
  have hnot : ¬ event.predictionIndex ≤ i := Nat.not_le.mpr h
  simp [assignedAt, List.filter_append, hnot]

theorem closeEnough_nearest (hmeasured : point.Measured)
    (hratio : 0 ≤ val alg.handoffThresholdRatio ∧ val alg.handoffThresholdRatio < 1) :
    alg.CloseEnough point point.nearestNode := by
  have hpos : 0 < 1 - val alg.handoffThresholdRatio := sub_pos.mpr hratio.2
  have hle : 1 - val alg.handoffThresholdRatio ≤ 1 := sub_le_self 1 hratio.1
  rw [CloseEnough, hmeasured.currentDistance_nearest, le_div_iff₀ hpos]
  exact mul_le_of_le_one_right hmeasured.newDistance_nonneg hle

/-- The comparison of the loop, in numbers. -/
theorem lt_threshold_iff {node : NodeId} :
    lt point.newDistance (point.currentDistance node * (lit 1 - alg.handoffThresholdRatio)) = true ↔
      val point.newDistance <
        val (point.currentDistance node) * (1 - val alg.handoffThresholdRatio) := by
  rw [lt_iff, val_mul, val_sub, val_lit]

omit [FloatOps F64 F32] [ExactDivision F64 F32] in
/-- A point of the list is one of those before, or the last. -/
theorem getElem?_snoc {i : ℕ} {other : AssignmentPoint F64}
    (h : (points ++ [point])[i]? = some other) :
    i < points.length ∧ points[i]? = some other ∨ points.length ≤ i ∧ other = point := by
  rcases Nat.lt_or_ge i points.length with hlt | hge
  · exact .inl ⟨hlt, by rwa [List.getElem?_append_left hlt] at h⟩
  · rw [List.getElem?_append_right hge] at h
    exact .inr ⟨hge, List.mem_singleton.mp (List.mem_of_getElem? h)⟩

/-- After a point without a handoff the satellite stays where it is. -/
theorem Follows.stay (h : alg.Follows start points events current)
    (hclose : alg.CloseEnough point current) :
    alg.Follows start (points ++ [point]) events current := by
  refine ⟨h.chained, h.current_eq, h.increasing, fun e he => ?_, fun e he => ?_, ?_⟩
  · have := h.below e he
    simp only [List.length_append, List.length_singleton]
    omega
  · obtain ⟨before, hget, hgains⟩ := h.gains e he
    exact ⟨before, (List.getElem?_append_left (h.below e he)).trans hget, hgains⟩
  · intro i other hget
    rcases getElem?_snoc hget with ⟨-, hbefore⟩ | ⟨hge, rfl⟩
    · exact h.close i other hbefore
    · rw [assignedAt_of_le fun e he => (h.below e he).le.trans hge, h.current_eq]
      exact hclose

/-- After a point with a handoff it is assigned to the nearest node. -/
theorem Follows.handoff (h : alg.Follows start points events current) {event : HandoffEvent F64}
    (hfrom : event.fromNode = current) (hindex : event.predictionIndex = points.length)
    (hgains : alg.Gains point event) (hclose : alg.CloseEnough point point.nearestNode) :
    alg.Follows start (points ++ [point]) (events ++ [event]) point.nearestNode := by
  have hend : endpoint HandoffEvent.toNode start (events ++ [event]) = point.nearestNode := by
    rw [endpoint_append_singleton, hgains.toNode]
  refine ⟨?_, hend, ?_, fun e he => ?_, fun e he => ?_, ?_⟩
  · exact chained_append_singleton.mpr ⟨h.chained, hfrom.trans h.current_eq.symm⟩
  · refine List.pairwise_append.mpr ⟨h.increasing, List.pairwise_singleton _ _, ?_⟩
    intro e he e' he'
    rw [List.mem_singleton.mp he', hindex]
    exact h.below e he
  · rw [List.length_append, List.length_singleton, Nat.lt_succ_iff]
    rcases List.mem_append.mp he with he | he
    · exact (h.below e he).le
    · rw [List.mem_singleton.mp he, hindex]
  · rcases List.mem_append.mp he with he | he
    · obtain ⟨before, hget, hbefore⟩ := h.gains e he
      exact ⟨before, (List.getElem?_append_left (h.below e he)).trans hget, hbefore⟩
    · rw [List.mem_singleton.mp he, hindex]
      exact ⟨point, by simp, hgains⟩
  · intro i other hget
    rcases getElem?_snoc hget with ⟨hlt, hbefore⟩ | ⟨hge, rfl⟩
    · rw [assignedAt_append (hindex ▸ hlt)]
      exact h.close i other hbefore
    · rw [assignedAt_of_le fun e he => ?_, hend]
      · exact hclose
      · rcases List.mem_append.mp he with he | he
        · exact (h.below e he).le.trans hge
        · rw [List.mem_singleton.mp he, hindex]
          exact hge

/-- One turn of the loop. -/
theorem Follows.step (h : alg.Follows start points events current) (hmeasured : point.Measured)
    (hratio : 0 ≤ val alg.handoffThresholdRatio ∧ val alg.handoffThresholdRatio < 1) :
    ∃ events' current', alg.handoffStep (events, some current) (point, points.length) =
        (events', some current') ∧
      alg.Follows start (points ++ [point]) events' current' := by
  have hnearest := closeEnough_nearest hmeasured hratio
  unfold handoffStep
  by_cases hsame : current = point.nearestNode
  · refine ⟨events, current, by simp [hsame], h.stay ?_⟩
    rw [hsame]
    exact hnearest
  by_cases hlt : lt point.newDistance
      (point.currentDistance current * (lit 1 - alg.handoffThresholdRatio)) = true
  · refine ⟨_, _, by simp only [ne_eq, hsame, not_false_eq_true, if_true, hlt]; rfl, ?_⟩
    refine h.handoff rfl rfl ⟨rfl, rfl, val_sub _ _, ?_⟩ hnearest
    have hgain := lt_threshold_iff.mp hlt
    rw [val_sub]
    linarith
  · refine ⟨events, current, by simp [hsame, hlt], h.stay ?_⟩
    rw [CloseEnough, le_div_iff₀ (sub_pos.mpr hratio.2)]
    exact not_lt.mp (mt lt_threshold_iff.mpr hlt)

/-- A point at which "gs-a" is ten away, and "gs-b" as far as given. -/
def approach (time : DateTime) (nearest : NodeId) (b : ℚ) : AssignmentPoint ℚ :=
  { timestamp := time
    satellitePosition := ⟨0, 0, 0⟩
    nearestNode := nearest
    distances := ((∅ : HashMap NodeId ℚ).insert "gs-a" 10).insert "gs-b" b }

end ControlNodeAssignmentAlgorithm

end GroundCore.Oisl.Resource
