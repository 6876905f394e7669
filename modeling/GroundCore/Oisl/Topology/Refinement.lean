import Mathlib.Tactic.NormNum
import GroundCore.Oisl.Topology.ControlNodePlacement

/-! The score of a placement of control nodes.  It is a number in every order of iteration, and
below `f64::MAX` exactly when every satellite of every snapshot sees one of the stations. -/

namespace GroundCore.Oisl.Topology

open Lib FloatOps RankedFloat

namespace ControlNodePlacementAlgorithm

variable {F64 F32 : Type} [SqrtOps F64 F32]

/-- The satellites of a snapshot, with their states. -/
def IsSatellite (topology : StateSnapshot F64) (state : NodeState F64) : Prop :=
  ∃ nodeId satelliteId, topology.states.get? nodeId = some state ∧
    state.nodeType = .satellite satelliteId

/-- The station is in the snapshot, at a distance from the satellite that is a number. -/
def Sees (topology : StateSnapshot F64) (satellite : NodeState F64) (station : NodeId) : Prop :=
  ∃ state, topology.states.get? station = some state ∧
    lt (distance3d satellite.position state.position) (lit f64Max) = true

/-- Every satellite of every snapshot sees a station. -/
def Covers (topologies : List (StateSnapshot F64)) (stations : NodeId → Prop) : Prop :=
  ∀ topology ∈ topologies, ∀ satellite, IsSatellite topology satellite →
    ∃ station, stations station ∧ Sees topology satellite station

theorem Covers.mono {topologies : List (StateSnapshot F64)} {stations stations' : NodeId → Prop}
    (h : Covers topologies stations) (hsub : ∀ station, stations station → stations' station) :
    Covers topologies stations' := by
  intro topology htopology satellite hsatellite
  obtain ⟨station, hstation, hsees⟩ := h topology htopology satellite hsatellite
  exact ⟨station, hsub station hstation, hsees⟩

variable [RankedFloat F64 F32] {ord : PlacementOrder F64} {topologies : List (StateSnapshot F64)}
  {selected : HashSet NodeId} {topology : StateSnapshot F64}

/-! ### Scores -/

omit [RankedFloat F64 F32] in
theorem mem_satelliteDistances {d : F64} :
    d ∈ satelliteDistances ord selected topology ↔
      ∃ satellite, IsSatellite topology satellite ∧
        minDistanceToControlNodes ord satellite.position topology selected = d := by
  simp only [satelliteDistances, List.mem_filterMap, IterOrder.mem_order, Prod.exists,
    HashMap.mem_entries, IsSatellite]
  constructor
  · rintro ⟨nodeId, state, hget, hsome⟩
    split at hsome
    · next satelliteId htype =>
      exact ⟨state, ⟨nodeId, satelliteId, hget, htype⟩, Option.some.inj hsome⟩
    · contradiction
  · rintro ⟨state, ⟨nodeId, satelliteId, hget, htype⟩, rfl⟩
    exact ⟨nodeId, state, hget, by rw [htype]⟩

theorem zero_lt_f64Max : (((0 : ℚ) : WithTop ℚ) : Rank) < ((f64Max : ℚ) : WithTop ℚ) := by
  rw [WithBot.coe_lt_coe, WithTop.coe_lt_coe]
  norm_num [f64Max]

/-- The distance of a satellite to the nearest of the selected stations that it sees. -/
theorem exists_rank_minDistance (ord : PlacementOrder F64) (satellite : NodeState F64)
    (topology : StateSnapshot F64) (selected : HashSet NodeId) :
    ∃ m, rank (minDistanceToControlNodes ord satellite.position topology selected) = some m ∧
      ∀ c, m < c ↔ ((f64Max : ℚ) : WithTop ℚ) < c ∨ ∃ station ∈ selected, ∃ state,
        topology.states.get? station = some state ∧
        ∃ b ∈ rank (distance3d satellite.position state.position),
          b < ((f64Max : ℚ) : WithTop ℚ) ∧ b < c := by
  have hranked : ∀ d ∈ ((ord.stations.order selected.elems).filterMap fun nodeId =>
      (topology.states.get? nodeId).map fun state =>
        distance3d satellite.position state.position).filter fun d => lt d (lit f64Max),
      (rank d).isSome := by
    intro d hd
    obtain ⟨a, ha, -⟩ := (lt_iff _ _).mp (by simpa using (List.mem_filter.mp hd).2)
    exact Option.isSome_iff_exists.mpr ⟨a, ha⟩
  obtain ⟨m, hm, hbelow⟩ := exists_rank_foldl_nanMin rank_max hranked
  refine ⟨m, hm, fun c => (hbelow c).trans (or_congr_right ⟨?_, ?_⟩)⟩
  · rintro ⟨d, hd, b, hb, hbc⟩
    obtain ⟨hmem, hlt⟩ := List.mem_filter.mp hd
    obtain ⟨station, hstation, hsome⟩ := List.mem_filterMap.mp hmem
    obtain ⟨state, hget, rfl⟩ := Option.map_eq_some_iff.mp hsome
    exact ⟨station, ord.stations.mem_order.mp hstation, state, hget, b, hb,
      (lt_iff_of_rank hb rank_max).mp hlt, hbc⟩
  · rintro ⟨station, hstation, state, hget, b, hb, hmax, hbc⟩
    refine ⟨distance3d satellite.position state.position, ?_, b, hb, hbc⟩
    refine List.mem_filter.mpr ⟨List.mem_filterMap.mpr ⟨station, ?_, ?_⟩,
      (lt_iff_of_rank hb rank_max).mpr hmax⟩
    · exact ord.stations.mem_order.mpr hstation
    · rw [hget]
      rfl

theorem minDistance_lt_f64Max_iff {satellite : NodeState F64} {m : Rank}
    (hm : rank (minDistanceToControlNodes ord satellite.position topology selected) = some m) :
    m < ((f64Max : ℚ) : WithTop ℚ) ↔ ∃ station ∈ selected, Sees topology satellite station := by
  obtain ⟨m', hm', hbelow⟩ := exists_rank_minDistance ord satellite topology selected
  obtain rfl := Option.some.inj (hm.symm.trans hm')
  rw [hbelow, or_iff_right (lt_irrefl _)]
  constructor
  · rintro ⟨station, hstation, state, hget, b, hb, hmax, -⟩
    exact ⟨station, hstation, state, hget, (lt_iff_of_rank hb rank_max).mpr hmax⟩
  · rintro ⟨station, hstation, state, hget, hlt⟩
    obtain ⟨b, hb, -⟩ := (lt_iff _ _).mp hlt
    have hmax := (lt_iff_of_rank hb rank_max).mp hlt
    exact ⟨station, hstation, state, hget, b, hb, hmax, hmax⟩

theorem rank_minDistance_order (ord ord' : PlacementOrder F64) (satellite : NodeState F64) :
    rank (minDistanceToControlNodes ord satellite.position topology selected) =
      rank (minDistanceToControlNodes ord' satellite.position topology selected) := by
  obtain ⟨m, hm, hbelow⟩ := exists_rank_minDistance ord satellite topology selected
  obtain ⟨m', hm', hbelow'⟩ := exists_rank_minDistance ord' satellite topology selected
  have heq : m = m' := eq_of_forall_gt_iff fun c => (hbelow c).trans (hbelow' c).symm
  rw [hm, hm', heq]

/-- The score is the distance of the satellite that is farthest from the stations. -/
theorem exists_rank_evaluatePlacement (ord : PlacementOrder F64)
    (topologies : List (StateSnapshot F64)) (selected : HashSet NodeId) :
    ∃ m, rank (evaluatePlacement ord topologies selected) = some m ∧
      ∀ c, m < c ↔ (((0 : ℚ) : WithTop ℚ) : Rank) < c ∧
        ∀ topology ∈ topologies, ∀ satellite, IsSatellite topology satellite →
          ∀ b ∈ rank (minDistanceToControlNodes ord satellite.position topology selected),
            b < c := by
  have hranked : ∀ d ∈ topologies.flatMap (satelliteDistances ord selected),
      (rank d).isSome := by
    intro d hd
    obtain ⟨topology, -, hmem⟩ := List.mem_flatMap.mp hd
    obtain ⟨satellite, -, rfl⟩ := mem_satelliteDistances.mp hmem
    obtain ⟨m, hm, -⟩ := exists_rank_minDistance ord satellite topology selected
    exact Option.isSome_iff_exists.mpr ⟨m, hm⟩
  obtain ⟨m, hm, hbelow⟩ := exists_rank_foldl_nanMax rank_zero hranked
  refine ⟨m, hm, fun c => (hbelow c).trans (and_congr_right fun _ => ⟨?_, ?_⟩)⟩
  · intro hall topology htopology satellite hsatellite
    exact hall _ (List.mem_flatMap.mpr ⟨topology, htopology,
      mem_satelliteDistances.mpr ⟨satellite, hsatellite, rfl⟩⟩)
  · intro hall d hd
    obtain ⟨topology, htopology, hmem⟩ := List.mem_flatMap.mp hd
    obtain ⟨satellite, hsatellite, rfl⟩ := mem_satelliteDistances.mp hmem
    exact hall topology htopology satellite hsatellite

/-- The orders of iteration do not matter to the score. -/
theorem rank_evaluatePlacement_order (ord ord' : PlacementOrder F64)
    (topologies : List (StateSnapshot F64)) (selected : HashSet NodeId) :
    rank (evaluatePlacement ord topologies selected) =
      rank (evaluatePlacement ord' topologies selected) := by
  obtain ⟨m, hm, hbelow⟩ := exists_rank_evaluatePlacement ord topologies selected
  obtain ⟨m', hm', hbelow'⟩ := exists_rank_evaluatePlacement ord' topologies selected
  have heq : m = m' := eq_of_forall_gt_iff fun c => by
    rw [hbelow, hbelow']
    simp only [rank_minDistance_order ord ord']
  rw [hm, hm', heq]

theorem lt_f64Max_iff_covers :
    lt (evaluatePlacement ord topologies selected) (lit f64Max) = true ↔
      Covers topologies (· ∈ selected) := by
  obtain ⟨m, hm, hbelow⟩ := exists_rank_evaluatePlacement ord topologies selected
  rw [lt_iff_of_rank hm rank_max, hbelow, and_iff_right zero_lt_f64Max]
  refine forall₄_congr fun topology _ satellite _ => ?_
  obtain ⟨m', hm', -⟩ := exists_rank_minDistance ord satellite topology selected
  rw [← minDistance_lt_f64Max_iff hm', hm']
  simp

end ControlNodePlacementAlgorithm

end GroundCore.Oisl.Topology

/-! The local search of the placement of control nodes: each turn swaps a selected station for an
unselected candidate, if a swap makes the score smaller. -/

namespace GroundCore.Oisl.Topology

open Lib FloatOps

namespace ControlNodePlacementAlgorithm

variable {F64 F32 : Type} [SqrtOps F64 F32] {ord : PlacementOrder F64}
  {topologies : List (StateSnapshot F64)} {selected candidates current better : HashSet NodeId}

/-- A station makes room for a candidate. -/
def Swap (current candidates better : HashSet NodeId) : Prop :=
  ∃ station candidate, station ∈ current ∧ candidate ∈ candidates ∧ ¬ candidate ∈ current ∧
    better = (current.erase station).insert candidate

/-- A swap that makes the score smaller. -/
def Improves (ord : PlacementOrder F64) (topologies : List (StateSnapshot F64))
    (current better : HashSet NodeId) : Prop :=
  lt (evaluatePlacement ord topologies better) (evaluatePlacement ord topologies current) = true

theorem of_findImprovement
    (h : findImprovement ord topologies candidates current = some better) :
    Swap current candidates better ∧ Improves ord topologies current better := by
  obtain ⟨station, hstation, htry⟩ := List.exists_of_findSome?_eq_some h
  obtain ⟨candidate, hcandidate, hsome⟩ := List.exists_of_findSome?_eq_some htry
  by_cases hin : candidate ∈ current
  · simp [hin] at hsome
  · rw [if_neg hin] at hsome
    simp only at hsome
    split at hsome
    · next hlt =>
      obtain rfl := Option.some.inj hsome
      exact ⟨⟨station, candidate, ord.stations.mem_order.mp hstation,
        ord.stations.mem_order.mp hcandidate, hin, rfl⟩, hlt⟩
    · contradiction

/-- Where the two loops find nothing, no swap makes the score smaller. -/
theorem findImprovement_eq_none (h : findImprovement ord topologies candidates current = none)
    (hswap : Swap current candidates better) : ¬ Improves ord topologies current better := by
  obtain ⟨station, candidate, hstation, hcandidate, hnew, rfl⟩ := hswap
  have htry := List.findSome?_eq_none_iff.mp h station (ord.stations.mem_order.mpr hstation)
  have hnone := List.findSome?_eq_none_iff.mp htry candidate
    (ord.stations.mem_order.mpr hcandidate)
  rw [if_neg hnew] at hnone
  intro himproves
  simp only [Improves] at hnone himproves
  rw [if_pos himproves] at hnone
  contradiction

/-! ### What a swap keeps -/

theorem Swap.len (h : Swap current candidates better) : better.len = current.len := by
  obtain ⟨station, candidate, hstation, -, hnew, rfl⟩ := h
  exact HashSet.len_swap hstation hnew

theorem Swap.subset (h : Swap current candidates better) {station : NodeId}
    (hmem : station ∈ better) : station ∈ current ∨ station ∈ candidates := by
  obtain ⟨removed, candidate, -, hcandidate, -, rfl⟩ := h
  rcases HashSet.mem_swap.mp hmem with rfl | ⟨-, hcurrent⟩
  · exact .inr hcandidate
  · exact .inl hcurrent

variable [RankedFloat F64 F32]

/-- Whether a swap is better does not depend on the orders of iteration. -/
theorem Improves.order (h : Improves ord topologies current better) (ord' : PlacementOrder F64) :
    Improves ord' topologies current better := by
  unfold Improves at h ⊢
  rw [RankedFloat.lt_iff] at h ⊢
  rwa [rank_evaluatePlacement_order ord' ord, rank_evaluatePlacement_order ord' ord]

/-- No larger than another score. -/
def NoWorse (ord : PlacementOrder F64) (topologies : List (StateSnapshot F64))
    (current better : HashSet NodeId) : Prop :=
  le (evaluatePlacement ord topologies better) (evaluatePlacement ord topologies current) = true

theorem NoWorse.refl (ord : PlacementOrder F64) (topologies : List (StateSnapshot F64))
    (current : HashSet NodeId) : NoWorse ord topologies current current := by
  obtain ⟨m, hm, -⟩ := exists_rank_evaluatePlacement ord topologies current
  exact (RankedFloat.le_iff_of_rank hm hm).mpr (le_refl m)

theorem NoWorse.improve (h : NoWorse ord topologies selected current)
    (himproves : Improves ord topologies current better) :
    NoWorse ord topologies selected better := by
  obtain ⟨a, ha, -⟩ := exists_rank_evaluatePlacement ord topologies selected
  obtain ⟨b, hb, -⟩ := exists_rank_evaluatePlacement ord topologies current
  obtain ⟨c, hc, -⟩ := exists_rank_evaluatePlacement ord topologies better
  have hle := (RankedFloat.le_iff_of_rank hb ha).mp h
  have hlt := (RankedFloat.lt_iff_of_rank hc hb).mp himproves
  exact (RankedFloat.le_iff_of_rank hc ha).mpr (hlt.le.trans hle)

/-! ### The search -/

/-- The stations that a search may get to from a selection. -/
structure Refines (topologies : List (StateSnapshot F64)) (selected candidates current :
    HashSet NodeId) : Prop where
  len : current.len = selected.len
  subset : ∀ station ∈ current, station ∈ selected ∨ station ∈ candidates
  noWorse : ∀ ord : PlacementOrder F64, NoWorse ord topologies selected current

theorem refines_of_reaches
    (h : Relation.ReflTransGen
      (fun before after => findImprovement ord topologies candidates before = some after)
      selected current) : Refines topologies selected candidates current := by
  induction h with
  | refl => exact ⟨rfl, fun _ h => .inl h, fun ord => .refl ord topologies selected⟩
  | tail _ hnext ih =>
    obtain ⟨hswap, himproves⟩ := of_findImprovement hnext
    refine ⟨hswap.len.trans ih.len, fun station hmem => ?_,
      fun ord' => (ih.noWorse ord').improve (himproves.order ord')⟩
    rcases hswap.subset hmem with hcurrent | hcandidate
    · exact ih.subset station hcurrent
    · exact .inr hcandidate

theorem refines_localSearch (ord : PlacementOrder F64) (topologies : List (StateSnapshot F64))
    (alg : ControlNodePlacementAlgorithm) (selected candidates : HashSet NodeId) :
    Refines topologies selected candidates
      (localSearchRefinement ord topologies alg selected candidates) :=
  refines_of_reaches (LocalSearch.descend_reaches (findImprovement ord topologies candidates)
    alg.localSearchIterations true selected)

/-- The local search exchanges stations for candidates, ends with a score no larger than it has
started with, and when it stops early, no single swap makes the score smaller. -/
theorem localSearch_never_hurts (ord : PlacementOrder F64)
    (topologies : List (StateSnapshot F64)) (alg : ControlNodePlacementAlgorithm)
    (selected candidates : HashSet NodeId) :
    let result := localSearchRefinement ord topologies alg selected candidates
    result.len = selected.len ∧
    (∀ station ∈ result, station ∈ selected ∨ station ∈ candidates) ∧
    ∀ ord' : PlacementOrder F64,
      le (evaluatePlacement ord' topologies result)
        (evaluatePlacement ord' topologies selected) = true ∧
      (0 < (localSearch ord topologies alg selected candidates).2 →
        ∀ station ∈ result, ∀ candidate ∈ candidates, ¬ candidate ∈ result →
          lt (evaluatePlacement ord' topologies ((result.erase station).insert candidate))
            (evaluatePlacement ord' topologies result) = false) := by
  have hrefines := refines_localSearch ord topologies alg selected candidates
  refine ⟨hrefines.len, hrefines.subset, fun ord' => ⟨hrefines.noWorse ord', ?_⟩⟩
  intro hleft station hstation candidate hcandidate hnew
  have hnone := LocalSearch.next_descend (by simp) hleft
  rw [← Bool.not_eq_true]
  intro himproves
  exact findImprovement_eq_none hnone ⟨station, candidate, hstation, hcandidate, hnew, rfl⟩
    (Improves.order himproves ord)

end ControlNodePlacementAlgorithm

end GroundCore.Oisl.Topology
