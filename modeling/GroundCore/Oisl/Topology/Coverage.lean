import GroundCore.Lib.ExceptLoops
import GroundCore.Oisl.Topology.Refinement

/-! How many stations the placement of control nodes selects.  The greedy selection only adds a
station that brings the score below `f64::MAX`, so that all depends on whether there is a station
that covers the snapshots together with the first. -/

namespace GroundCore.Oisl.Topology

open Lib FloatOps

namespace ControlNodePlacementAlgorithm

variable {F64 F32 : Type} [SqrtOps F64 F32] [RankedFloat F64 F32] {ord : PlacementOrder F64}
  {topologies : List (StateSnapshot F64)} {selected candidates : HashSet NodeId}

/-! ### Greedy selection -/

/-- Among the stations seen, the best one covers the snapshots, and there is none when none does. -/
def BestOf (ord : PlacementOrder F64) (topologies : List (StateSnapshot F64))
    (selected : HashSet NodeId) (seen : List NodeId) : Option NodeId × F64 → Prop
  | (some station, score) => score = evaluatePlacement ord topologies (selected.insert station) ∧
      station ∈ seen ∧ Covers topologies (· ∈ selected.insert station)
  | (none, score) => score = lit f64Max ∧
      ∀ station ∈ seen, ¬ Covers topologies (· ∈ selected.insert station)

theorem BestOf.betterStation {seen : List NodeId} {best : Option NodeId × F64}
    (h : BestOf ord topologies selected seen best) (station : NodeId) :
    BestOf ord topologies selected (seen ++ [station])
      (betterStation ord topologies selected best station) := by
  obtain ⟨chosen, score⟩ := best
  unfold ControlNodePlacementAlgorithm.betterStation
  cases chosen with
  | none =>
    obtain ⟨rfl, hnone⟩ := h
    simp only
    split
    · next hlt => exact ⟨rfl, by simp, lt_f64Max_iff_covers.mp hlt⟩
    · next hnot =>
      refine ⟨rfl, fun other hother => ?_⟩
      rcases List.mem_append.mp hother with hother | hother
      · exact hnone other hother
      · rw [List.mem_singleton.mp hother]
        exact mt lt_f64Max_iff_covers.mpr hnot
  | some chosen =>
    obtain ⟨rfl, hmem, hcovers⟩ := h
    simp only
    split
    · next hlt =>
      exact ⟨rfl, by simp,
        lt_f64Max_iff_covers.mp (RankedFloat.lt_trans hlt (lt_f64Max_iff_covers.mpr hcovers))⟩
    · exact ⟨rfl, List.mem_append_left _ hmem, hcovers⟩

theorem bestOf_foldl (ord : PlacementOrder F64) (topologies : List (StateSnapshot F64))
    (selected : HashSet NodeId) (remaining : List NodeId) :
    BestOf ord topologies selected remaining
      (remaining.foldl (betterStation ord topologies selected) (none, lit f64Max)) := by
  induction remaining using List.reverseRecOn with
  | nil => exact ⟨rfl, fun _ hmem => absurd hmem List.not_mem_nil⟩
  | append_singleton remaining station ih =>
    rw [List.foldl_append]
    exact ih.betterStation station

/-- A selected station is one of those that remain, and covers the snapshots together with the
others. -/
theorem of_selectBestStation {remaining : List NodeId} {best : NodeId}
    (h : selectBestStation ord topologies selected remaining = some best) :
    best ∈ remaining ∧ Covers topologies (· ∈ selected.insert best) := by
  have hbest := bestOf_foldl ord topologies selected remaining
  unfold selectBestStation at h
  rw [← Prod.eta (List.foldl _ _ _), h] at hbest
  exact hbest.2

theorem selectBestStation_eq_none {remaining : List NodeId}
    (h : selectBestStation ord topologies selected remaining = none) :
    ∀ station ∈ remaining, ¬ Covers topologies (· ∈ selected.insert station) := by
  have hbest := bestOf_foldl ord topologies selected remaining
  unfold selectBestStation at h
  rw [← Prod.eta (List.foldl _ _ _), h] at hbest
  exact hbest.2

/-- What the loop keeps of the selection. -/
structure Selection (candidates selected : HashSet NodeId) (remaining : List NodeId) : Prop where
  nodup : remaining.Nodup
  disjoint : ∀ station ∈ remaining, station ∈ candidates ∧ ¬ station ∈ selected
  subset : ∀ station ∈ selected, station ∈ candidates
  total : selected.len + remaining.length = candidates.len

theorem Selection.select {remaining : List NodeId}
    (h : Selection candidates selected remaining) {best : NodeId} (hbest : best ∈ remaining) :
    Selection candidates (selected.insert best) (remaining.filter (· != best)) := by
  obtain ⟨hcandidate, hnew⟩ := h.disjoint best hbest
  constructor
  · exact h.nodup.filter _
  · intro station hstation
    obtain ⟨hmem, hne⟩ := List.mem_filter.mp hstation
    obtain ⟨hin, hout⟩ := h.disjoint station hmem
    refine ⟨hin, fun hinsert => ?_⟩
    rcases HashSet.mem_insert.mp hinsert with heq | hselected
    · exact bne_iff_ne.mp hne heq
    · exact hout hselected
  · intro station hstation
    rcases HashSet.mem_insert.mp hstation with rfl | hselected
    · exact hcandidate
    · exact h.subset station hselected
  · have hlength : (remaining.filter (· != best)).length + 1 = remaining.length := by
      have herase := List.length_erase_add_one hbest
      rwa [h.nodup.erase_eq_filter] at herase
    rw [HashSet.len_insert hnew, ← h.total]
    omega

omit [RankedFloat F64 F32] in
theorem selectRemaining_of_le {k : ℕ} (turns : ℕ) (remaining : List NodeId)
    (h : k ≤ selected.len) :
    selectRemaining ord topologies k turns selected remaining = selected := by
  cases turns with
  | zero => rfl
  | succ turns => simp [selectRemaining, Nat.not_lt.mpr h]

omit [RankedFloat F64 F32] in
/-- A turn with stations to add and to choose from. -/
theorem selectRemaining_succ {k turns : ℕ} {remaining : List NodeId} (hmore : selected.len < k)
    (hremaining : remaining ≠ []) :
    selectRemaining ord topologies k (turns + 1) selected remaining =
      match selectBestStation ord topologies selected remaining with
      | some best => selectRemaining ord topologies k turns (selected.insert best)
          (remaining.filter (· != best))
      | none => selected := by
  have hguard : (decide (selected.len < k) && !remaining.isEmpty) = true := by
    simp [hmore, hremaining]
  exact if_pos hguard

/-- Once the stations cover the snapshots, every turn adds one. -/
theorem len_selectRemaining_of_covers {k turns : ℕ} {remaining : List NodeId}
    (hselection : Selection candidates selected remaining) (hk : k ≤ candidates.len)
    (hlen : selected.len ≤ k) (hturns : remaining.length ≤ turns)
    (hcovers : Covers topologies (· ∈ selected)) :
    (selectRemaining ord topologies k turns selected remaining).len = k := by
  have htotal := hselection.total
  induction turns generalizing selected remaining with
  | zero =>
    rw [selectRemaining]
    omega
  | succ turns ih =>
    rcases Nat.lt_or_ge selected.len k with hmore | hfull
    · have hremaining : remaining ≠ [] := List.ne_nil_of_length_pos (by omega)
      rw [selectRemaining_succ hmore hremaining]
      cases hbest : selectBestStation ord topologies selected remaining with
      | none =>
        obtain ⟨station, hstation⟩ := List.exists_mem_of_ne_nil _ hremaining
        exact absurd (hcovers.mono fun _ h => HashSet.mem_insert.mpr (.inr h))
          (selectBestStation_eq_none hbest station hstation)
      | some best =>
        obtain ⟨hmem, hcovers'⟩ := of_selectBestStation hbest
        have hnext := hselection.select hmem
        have hlen' : (selected.insert best).len = selected.len + 1 :=
          HashSet.len_insert (hselection.disjoint best hmem).2
        have htotal' := hnext.total
        exact ih hnext (by omega) (by omega) hcovers' htotal'
    · rw [selectRemaining_of_le _ _ hfull]
      omega

theorem selectRemaining_subset {k turns : ℕ} {remaining : List NodeId}
    (hselection : Selection candidates selected remaining) :
    ∀ station ∈ selectRemaining ord topologies k turns selected remaining,
      station ∈ candidates := by
  induction turns generalizing selected remaining with
  | zero => exact hselection.subset
  | succ turns ih =>
    unfold selectRemaining
    split
    · split
      · next hbest => exact ih (hselection.select (of_selectBestStation hbest).1)
      · exact hselection.subset
    · exact hselection.subset

/-- From a single station, the loop selects as many as it is to exactly when one of the others
covers the snapshots together with it. -/
theorem len_selectRemaining_iff {k : ℕ} {remaining : List NodeId}
    (hselection : Selection candidates selected remaining) (hk : k ≤ candidates.len)
    (hlen : selected.len = 1) (hpos : 1 ≤ k) :
    (selectRemaining ord topologies k remaining.length selected remaining).len = k ↔
      k = 1 ∨ ∃ second ∈ remaining, Covers topologies (· ∈ selected.insert second) := by
  have htotal := hselection.total
  rcases Nat.eq_or_lt_of_le hpos with rfl | hmore
  · rw [selectRemaining_of_le _ _ hlen.ge]
    exact iff_of_true hlen (.inl rfl)
  · have hremaining : remaining ≠ [] := List.ne_nil_of_length_pos (by omega)
    obtain ⟨turns, hturns⟩ := Nat.exists_eq_succ_of_ne_zero
      (List.length_pos_iff.mpr hremaining).ne'
    rw [hturns, selectRemaining_succ (by omega) hremaining]
    cases hbest : selectBestStation ord topologies selected remaining with
    | none =>
      refine iff_of_false (show selected.len ≠ k by omega) ?_
      rintro (rfl | ⟨second, hsecond, hcovers⟩)
      · omega
      · exact selectBestStation_eq_none hbest second hsecond hcovers
    | some best =>
      obtain ⟨hmem, hcovers⟩ := of_selectBestStation hbest
      have hnext := hselection.select hmem
      have hlen' : (selected.insert best).len = selected.len + 1 :=
        HashSet.len_insert (hselection.disjoint best hmem).2
      have htotal' := hnext.total
      refine iff_of_true ?_ (.inr ⟨best, hmem, hcovers⟩)
      exact len_selectRemaining_of_covers hnext hk (by omega) (by omega) hcovers

/-! ### Representatives -/

omit [RankedFloat F64 F32] in
theorem index_foldl_closerVector (centroid : List F64) (vectors : List (List F64 × ℕ))
    (closest : F64 × ℕ) :
    (vectors.foldl (closerVector centroid) closest).2 ∈ closest.2 :: vectors.map (·.2) := by
  induction vectors generalizing closest with
  | nil => exact List.mem_cons_self
  | cons v vectors ih =>
    rw [List.foldl_cons, List.map_cons]
    rcases List.mem_cons.mp (ih (closerVector centroid closest v)) with heq | hmem
    · rw [heq, closerVector]
      split
      · exact List.mem_cons_of_mem _ List.mem_cons_self
      · exact List.mem_cons_self
    · exact List.mem_cons_of_mem _ (List.mem_cons_of_mem _ hmem)

omit [RankedFloat F64 F32] in
theorem exists_findClosestToCentroid {snapshots : List (StateSnapshot F64)}
    {vectors : List (List F64)} (hlength : vectors.length = snapshots.length)
    (hpos : 0 < snapshots.length) (centroid : List F64) :
    ∃ closest, findClosestToCentroid snapshots vectors centroid = some closest := by
  have hbound : (vectors.zipIdx.foldl (closerVector centroid) (lit f64Max, 0)).2 <
      snapshots.length := by
    rcases List.mem_cons.mp (index_foldl_closerVector centroid vectors.zipIdx (lit f64Max, 0)) with
      heq | hmem
    · rw [heq]
      exact hpos
    · obtain ⟨v, hv, heq⟩ := List.mem_map.mp hmem
      have := List.mem_zipIdx hv
      omega
  exact ⟨_, List.getElem?_eq_getElem hbound⟩

omit [RankedFloat F64 F32] in
theorem exists_clusterRepresentative {alg : ControlNodePlacementAlgorithm}
    {snapshots : List (StateSnapshot F64)} (hmany : alg.numClusters < snapshots.length) {i : ℕ}
    (hi : i < alg.numClusters) :
    ∃ representative, alg.clusterRepresentative snapshots i = some representative := by
  have hsize : 0 < snapshots.length / alg.numClusters := Nat.div_pos hmany.le (by omega)
  have hall : alg.numClusters * (snapshots.length / alg.numClusters) ≤ snapshots.length :=
    Nat.mul_div_le _ _
  have hend : (i + 1) * (snapshots.length / alg.numClusters) ≤ snapshots.length :=
    (Nat.mul_le_mul_right _ hi).trans hall
  rw [Nat.add_mul, Nat.one_mul] at hend
  refine exists_findClosestToCentroid ?_ ?_ _
  · simp
  · simp only [List.length_drop, List.length_take, Nat.add_mul, Nat.one_mul]
    split <;> omega

omit [RankedFloat F64 F32] in
/-- Few snapshots represent themselves. -/
theorem selectRepresentatives_of_le {alg : ControlNodePlacementAlgorithm}
    {snapshots : List (StateSnapshot F64)} (hsnapshots : snapshots ≠ [])
    (hfew : snapshots.length ≤ alg.numClusters) :
    alg.selectRepresentatives snapshots = some (.ok snapshots) := by
  unfold selectRepresentatives
  rw [if_neg (by simpa using hsnapshots), if_pos hfew]

omit [RankedFloat F64 F32] in
/-- With a cluster or more, a forecast with a snapshot has representatives. -/
theorem exists_selectRepresentatives {alg : ControlNodePlacementAlgorithm}
    {snapshots : List (StateSnapshot F64)} (hsnapshots : snapshots ≠ [])
    (hclusters : 1 ≤ alg.numClusters) :
    ∃ representatives, alg.selectRepresentatives snapshots = some (.ok representatives) := by
  by_cases hfew : snapshots.length ≤ alg.numClusters
  · exact ⟨snapshots, selectRepresentatives_of_le hsnapshots hfew⟩
  · unfold selectRepresentatives
    rw [if_neg (by simpa using hsnapshots), if_neg hfew, if_neg (by omega)]
    obtain ⟨representatives, hall, -⟩ := exists_mapM (m := Option) (R := fun _ _ => True)
      (f := alg.clusterRepresentative snapshots) (l := List.range alg.numClusters)
      fun i hi => (exists_clusterRepresentative (by omega) (List.mem_range.mp hi)).imp
        fun _ h => ⟨h, trivial⟩
    exact ⟨representatives, congrArg (Option.map Except.ok) hall⟩

/-! ### Selection -/

theorem selection_start {rest : List NodeId} {first : NodeId}
    (h : ord.stations.order candidates.elems = rest ++ [first]) :
    Selection candidates ((∅ : HashSet NodeId).insert first) rest := by
  have hperm : (rest ++ [first]).Perm candidates.elems := h ▸ ord.stations.perm _
  have hnodup : (rest ++ [first]).Nodup := hperm.nodup_iff.mpr candidates.nodup
  have hmem : ∀ station, station ∈ rest ++ [first] → station ∈ candidates :=
    fun station hstation => hperm.mem_iff.mp hstation
  constructor
  · exact hnodup.of_append_left
  · intro station hstation
    refine ⟨hmem station (List.mem_append_left _ hstation), fun hselected => ?_⟩
    rcases HashSet.mem_insert.mp hselected with rfl | hempty
    · exact List.disjoint_of_nodup_append hnodup hstation List.mem_cons_self
    · exact HashSet.not_mem_empty hempty
  · intro station hselected
    rcases HashSet.mem_insert.mp hselected with rfl | hempty
    · exact hmem station (List.mem_append_right _ List.mem_cons_self)
    · exact absurd hempty HashSet.not_mem_empty
  · have hlength : rest.length + 1 = candidates.len := by
      have := hperm.length_eq
      rwa [List.length_append] at this
    rw [HashSet.len_insert HashSet.not_mem_empty, HashSet.len_empty]
    omega

variable {alg : ControlNodePlacementAlgorithm} {k : ℕ} {rest : List NodeId} {first : NodeId}

omit [RankedFloat F64 F32] in
theorem kCenter_eq (h : ord.stations.order candidates.elems = rest ++ [first]) :
    kCenterWithLocalSearch ord topologies alg candidates k =
      localSearchRefinement ord topologies alg
        (selectRemaining ord topologies k rest.length ((∅ : HashSet NodeId).insert first) rest)
        candidates := by
  simp [kCenterWithLocalSearch, h]

theorem kCenter_subset (h : ord.stations.order candidates.elems = rest ++ [first]) :
    ∀ station ∈ kCenterWithLocalSearch ord topologies alg candidates k, station ∈ candidates := by
  intro station hstation
  rw [kCenter_eq h] at hstation
  rcases (refines_localSearch ord topologies alg _ candidates).subset station hstation with
    hselected | hcandidate
  · exact selectRemaining_subset (selection_start h) station hselected
  · exact hcandidate

/-- From the station that is selected first, the placement gets to as many as it is to exactly when
that is one, or another candidate covers the snapshots together with it. -/
theorem len_kCenter_iff (hpos : 1 ≤ k) (hk : k ≤ candidates.len)
    (h : ord.stations.order candidates.elems = rest ++ [first]) :
    (kCenterWithLocalSearch ord topologies alg candidates k).len = k ↔
      k = 1 ∨ ∃ second ∈ candidates, second ≠ first ∧
        Covers topologies fun station => station = first ∨ station = second := by
  have hstart := selection_start h
  have hlen : ((∅ : HashSet NodeId).insert first).len = 1 :=
    HashSet.len_insert HashSet.not_mem_empty
  have hmem : ∀ second, second ∈ rest ↔ second ∈ candidates ∧ second ≠ first := by
    intro second
    have hperm : (rest ++ [first]).Perm candidates.elems := h ▸ ord.stations.perm _
    constructor
    · intro hrest
      obtain ⟨hcandidate, hnot⟩ := hstart.disjoint second hrest
      exact ⟨hcandidate, fun heq => hnot (HashSet.mem_insert.mpr (.inl heq))⟩
    · rintro ⟨hcandidate, hne⟩
      rcases List.mem_append.mp (hperm.mem_iff.mpr hcandidate) with hrest | hlast
      · exact hrest
      · exact absurd (List.mem_singleton.mp hlast) hne
  have hpair : ∀ second, Covers topologies
      (· ∈ ((∅ : HashSet NodeId).insert first).insert second) ↔
        Covers topologies fun station => station = first ∨ station = second := by
    intro second
    simp [Or.comm]
  rw [kCenter_eq h, (refines_localSearch ord topologies alg _ candidates).len,
    len_selectRemaining_iff hstart hk hlen hpos]
  simp only [hmem, hpair, and_assoc]

theorem exists_last (ord : PlacementOrder F64) (hpos : 0 < candidates.len) :
    ∃ rest first, ord.stations.order candidates.elems = rest ++ [first] := by
  have hne : ord.stations.order candidates.elems ≠ [] := by
    intro hnil
    have := (ord.stations.perm candidates.elems).length_eq
    rw [hnil] at this
    exact hpos.ne this
  exact ⟨_, _, (List.dropLast_append_getLast hne).symm⟩

omit [RankedFloat F64 F32] in
theorem selectControlNodes_eq {snapshots : List (StateSnapshot F64)} (ord : PlacementOrder F64)
    (hreps : alg.selectRepresentatives snapshots = some (.ok topologies)) (hpos : 1 ≤ k)
    (hk : k ≤ candidates.len) :
    alg.selectControlNodes ord snapshots candidates k =
      some (.ok (kCenterWithLocalSearch ord topologies alg candidates k)) := by
  unfold selectControlNodes
  rw [if_neg (by omega), if_neg (by omega), hreps]
  rfl

/-- Whatever the orders of iteration, the placement selects as many stations as it is to exactly
when that is one, or every candidate has another with which it covers the representatives. -/
theorem len_selectControlNodes_iff {snapshots : List (StateSnapshot F64)}
    (hsnapshots : snapshots ≠ []) (hclusters : 1 ≤ alg.numClusters) (hpos : 1 ≤ k)
    (hk : k ≤ candidates.len) :
    ∃ representatives, alg.selectRepresentatives snapshots = some (.ok representatives) ∧
      ((∀ ord : PlacementOrder F64, ∃ selected,
          alg.selectControlNodes ord snapshots candidates k = some (.ok selected) ∧
          selected.len = k ∧ ∀ station ∈ selected, station ∈ candidates) ↔
        k = 1 ∨ ∀ first ∈ candidates, ∃ second ∈ candidates, second ≠ first ∧
          Covers representatives fun station => station = first ∨ station = second) := by
  obtain ⟨representatives, hreps⟩ := exists_selectRepresentatives hsnapshots hclusters
  refine ⟨representatives, hreps, ?_⟩
  constructor
  · intro hall
    refine or_iff_not_imp_left.mpr fun hone first hfirst => ?_
    let ord : PlacementOrder F64 := ⟨.endingWith first, .stored _⟩
    obtain ⟨selected, hselected, hlen, -⟩ := hall ord
    rw [selectControlNodes_eq ord hreps hpos hk] at hselected
    obtain rfl := Except.ok.inj (Option.some.inj hselected)
    exact ((len_kCenter_iff hpos hk (if_pos hfirst)).mp hlen).resolve_left hone
  · intro hcovers ord
    obtain ⟨rest, first, hlast⟩ := exists_last ord (hpos.trans hk)
    have hfirst : first ∈ candidates :=
      ord.stations.mem_order.mp (hlast ▸ List.mem_append_right _ List.mem_cons_self)
    exact ⟨_, selectControlNodes_eq ord hreps hpos hk,
      (len_kCenter_iff hpos hk hlast).mpr (hcovers.imp_right fun h => h first hfirst),
      kCenter_subset hlast⟩

/-! ### Two candidates -/

def origin : Position3D ℚ := ⟨0, 0, 0⟩

def satelliteState : NodeState ℚ := ⟨"sat-1", .satellite "sat-1", origin⟩

/-- A satellite, and the given stations. -/
def satelliteOver (stations : List NodeId) : StateSnapshot ℚ :=
  let states := stations.foldr
    (fun id states => states.insert id ⟨id, .groundStation id, origin⟩)
    ((∅ : HashMap NodeId (NodeState ℚ)).insert "sat-1" satelliteState)
  { timestamp := 0, nodes := states.keys, potentialEdges := [], states, nodes_eq := rfl }

def twoCandidates : HashSet NodeId := ⟨["gs-1", "gs-2"], by simp⟩

/-- Exact arithmetic with squared distances. -/
@[reducible] def squaredDistance : SqrtOps ℚ ℚ := .exact id

theorem sees_station {station : NodeId} (h : station ∈ twoCandidates) :
    letI := squaredDistance
    Sees (satelliteOver ["gs-1", "gs-2"]) satelliteState station := by
  let := squaredDistance
  have hdistance : lt (distance3d origin origin) (lit f64Max : ℚ) = true := by decide +kernel
  rcases List.mem_pair.mp h with rfl | rfl
  · exact ⟨⟨"gs-1", .groundStation "gs-1", origin⟩, by simp [satelliteOver], hdistance⟩
  · exact ⟨⟨"gs-2", .groundStation "gs-2", origin⟩, by simp [satelliteOver], hdistance⟩

theorem eq_of_isSatellite {stations : List NodeId} {state : NodeState ℚ}
    (h : IsSatellite (satelliteOver stations) state) : state = satelliteState := by
  obtain ⟨nodeId, satelliteId, hget, htype⟩ := h
  induction stations with
  | nil =>
    simp only [satelliteOver, List.foldr_nil, HashMap.get?_insert] at hget
    split at hget
    · exact (Option.some.inj hget).symm
    · simp at hget
  | cons station stations ih =>
    simp only [satelliteOver, List.foldr_cons, HashMap.get?_insert] at hget
    split at hget
    · obtain rfl := Option.some.inj hget
      contradiction
    · exact ih hget

/-- Both candidates are selected when the satellite sees them. -/
theorem seen_candidates_selected : letI := squaredDistance
    2 ≤ twoCandidates.len ∧ ∀ ord : PlacementOrder ℚ, ∃ selected,
      (⟨5, 10⟩ : ControlNodePlacementAlgorithm).selectControlNodes ord
        [satelliteOver ["gs-1", "gs-2"]] twoCandidates 2 = some (.ok selected) ∧
      selected.len = 2 ∧ ∀ station ∈ selected, station ∈ twoCandidates := by
  let := squaredDistance
  let : RankedFloat ℚ ℚ := .exact (fun _ => 1) fun _ => 0
  have hclusters : 1 ≤ (⟨5, 10⟩ : ControlNodePlacementAlgorithm).numClusters := by decide
  have hcandidates : 2 ≤ twoCandidates.len := by decide
  obtain ⟨representatives, hreps, hiff⟩ := len_selectControlNodes_iff
    (List.cons_ne_nil (satelliteOver ["gs-1", "gs-2"]) []) hclusters one_le_two hcandidates
  rw [selectRepresentatives_of_le (List.cons_ne_nil _ _) (by decide)] at hreps
  obtain rfl := Except.ok.inj (Option.some.inj hreps)
  refine ⟨hcandidates, hiff.mpr (.inr fun first hfirst => ?_)⟩
  obtain ⟨second, hsecond, hne⟩ : ∃ second ∈ twoCandidates, second ≠ first := by
    rcases List.mem_pair.mp hfirst with rfl | rfl
    · exact ⟨"gs-2", by decide, by decide⟩
    · exact ⟨"gs-1", by decide, by decide⟩
  refine ⟨second, hsecond, hne, fun topology htopology satellite hsatellite => ?_⟩
  obtain rfl := List.mem_singleton.mp htopology
  obtain rfl := eq_of_isSatellite hsatellite
  exact ⟨first, .inl rfl, sees_station hfirst⟩

/-- One is selected when it does not see any. -/
theorem unseen_candidates_missing : letI := squaredDistance
    ¬ ∀ (alg : ControlNodePlacementAlgorithm) (snapshots : List (StateSnapshot ℚ))
      (candidates : HashSet NodeId) (k : ℕ) (ord : PlacementOrder ℚ), snapshots ≠ [] →
      1 ≤ alg.numClusters → 1 ≤ k → k ≤ candidates.len → ∃ selected,
        alg.selectControlNodes ord snapshots candidates k = some (.ok selected) ∧
        selected.len = k ∧ ∀ station ∈ selected, station ∈ candidates := by
  let := squaredDistance
  let : RankedFloat ℚ ℚ := .exact (fun _ => 1) fun _ => 0
  intro hall
  let ord : PlacementOrder ℚ := ⟨.stored _, .stored _⟩
  obtain ⟨selected, hselected, hlen, -⟩ := hall ⟨5, 10⟩ [satelliteOver []] twoCandidates 2 ord
    (List.cons_ne_nil _ _) (by decide) (by decide) (by decide)
  rw [selectControlNodes_eq ord (selectRepresentatives_of_le (List.cons_ne_nil _ _) (by decide))
    (by decide) (by decide)] at hselected
  obtain rfl := Except.ok.inj (Option.some.inj hselected)
  have hlast : ord.stations.order twoCandidates.elems = ["gs-1"] ++ ["gs-2"] := rfl
  obtain hone | ⟨second, hsecond, -, hcovers⟩ :=
    (len_kCenter_iff (by decide) (by decide) hlast).mp hlen
  · exact absurd hone (by decide)
  · obtain ⟨station, hstation, state, hget, -⟩ := hcovers _ List.mem_cons_self satelliteState
      ⟨"sat-1", "sat-1", by simp [satelliteOver], rfl⟩
    have hmem : station ∈ twoCandidates := by
      rcases hstation with rfl | rfl
      · decide
      · exact hsecond
    rcases List.mem_pair.mp hmem with rfl | rfl <;> simp [satelliteOver] at hget

end ControlNodePlacementAlgorithm

end GroundCore.Oisl.Topology
