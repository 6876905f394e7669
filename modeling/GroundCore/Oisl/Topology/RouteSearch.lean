import Mathlib.Algebra.BigOperators.Group.List.Basic
import Mathlib.Algebra.Order.Ring.Rat
import Mathlib.Order.Interval.Finset.Basic
import Mathlib.Data.Finset.Order
import Mathlib.Data.Int.Interval
import Mathlib.Tactic.Linarith
import GroundCore.Oisl.Topology.Routing

/-! The route search against walks through the forecast.  A walk is a list of edges, each taken 30
seconds after the one before it and visible at that time; the states that the search can reach are
the walks from its source, and two states of one node and time have taken equally long. -/

namespace GroundCore.Oisl.Topology

open Caching Lib BestFirst

/-- From node `a` at time `t`, the edges lead to node `b`, each of them in the snapshot of its time
and visible then. -/
def IsWalk (topology : TopologyForecast) : NodeId → DateTime → List PotentialEdge → NodeId → Prop
  | a, _, [], b => a = b
  | a, t, edge :: edges, b =>
    edge ∈ (topology.queryAt t).potentialEdges ∧ edge.endpoints.1 = a ∧
      edge.visibilityWindow.contains t ∧
      IsWalk topology edge.endpoints.2 (t + hopDuration) edges b

def walkCost (costModel : CostModel) (edges : List PotentialEdge) : ℚ :=
  (edges.map fun edge => calculateHopCost edge costModel).sum

def walkLatency (edges : List PotentialEdge) : Duration := edges.length * hopDuration

/-- The hops over the edges of a walk from a time on. -/
def routedHops : DateTime → List PotentialEdge → List RoutedHop
  | _, [] => []
  | t, edge :: edges => routedHop t edge :: routedHops (t + hopDuration) edges

/-- A walk is within the bound on the latency, if there is one. -/
def Within (constraints : IntentConstraints) (edges : List PotentialEdge) : Prop :=
  ∀ maxLatency, constraints.maxLatency = some maxLatency → walkLatency edges ≤ maxLatency

/-! ### The search as an instance of best-first search -/

def routeProblem (destination : NodeId) (topology : TopologyForecast)
    (constraints : IntentConstraints) : Problem RouteState (NodeId × DateTime) where
  key state := (state.currentNode, state.currentTime)
  accept state :=
    state.currentNode = destination && satisfiesConstraints (buildRoute state) constraints
  expand := neighbors topology

theorem searchRoute_eq (heap : RouteHeap) (destination : NodeId) (topology : TopologyForecast)
    (constraints : IntentConstraints) (fuel : ℕ) (visited : List (NodeId × DateTime))
    (states : List RouteState) :
    searchRoute heap destination topology constraints fuel visited states =
      (search heap (routeProblem destination topology constraints) fuel visited states).map
        (·.map buildRoute) := by
  induction fuel generalizing visited states with
  | zero => rfl
  | succ fuel ih =>
    unfold searchRoute search
    cases heap.pop states with
    | none => rfl
    | some top =>
      obtain ⟨state, rest⟩ := top
      by_cases hvisited : (state.currentNode, state.currentTime) ∈ visited
      · simp only [routeProblem, hvisited, if_true]
        exact ih _ _
      by_cases haccept : state.currentNode = destination &&
          satisfiesConstraints (buildRoute state) constraints
      · simp only [routeProblem, hvisited, haccept, if_true, if_false]
        rfl
      · simp only [routeProblem, hvisited, haccept, if_false]
        exact ih _ _

/-! ### States and walks -/

namespace RouteState

/-- The state after the edges of a walk. -/
def walk (state : RouteState) (edges : List PotentialEdge) : RouteState := edges.foldl hop state

@[simp] theorem walk_nil (state : RouteState) : state.walk [] = state := rfl

@[simp] theorem walk_cons (state : RouteState) (edge : PotentialEdge)
    (edges : List PotentialEdge) : state.walk (edge :: edges) = (state.hop edge).walk edges := rfl

theorem walk_concat (state : RouteState) (edges : List PotentialEdge) (edge : PotentialEdge) :
    state.walk (edges ++ [edge]) = (state.walk edges).hop edge := by
  simp [walk]

@[simp] theorem costModel_walk (state : RouteState) (edges : List PotentialEdge) :
    (state.walk edges).costModel = state.costModel := by
  induction edges generalizing state with
  | nil => rfl
  | cons edge edges ih => exact ih _

theorem cost_walk (state : RouteState) (edges : List PotentialEdge) :
    (state.walk edges).cost = state.cost + walkCost state.costModel edges := by
  induction edges generalizing state with
  | nil => simp [walkCost]
  | cons edge edges ih =>
    rw [walk_cons, ih]
    simp only [walkCost, hop, List.map_cons, List.sum_cons]
    ring

theorem currentTime_walk (state : RouteState) (edges : List PotentialEdge) :
    (state.walk edges).currentTime = state.currentTime + walkLatency edges := by
  induction edges generalizing state with
  | nil => simp [walkLatency]
  | cons edge edges ih =>
    rw [walk_cons, ih]
    simp only [walkLatency, hop, List.length_cons, Nat.cast_add, Nat.cast_one]
    ring

theorem hops_walk (state : RouteState) (edges : List PotentialEdge) :
    (state.walk edges).hops = state.hops ++ routedHops state.currentTime edges := by
  induction edges generalizing state with
  | nil => simp [routedHops]
  | cons edge edges ih =>
    rw [walk_cons, ih]
    simp [hop, routedHops]

end RouteState

theorem duration_routedHops (t : DateTime) (edges : List PotentialEdge) :
    ((routedHops t edges).map (·.useWindow.duration)).sum = walkLatency edges := by
  induction edges generalizing t with
  | nil => simp [routedHops, walkLatency]
  | cons edge edges ih =>
    simp only [routedHops, List.map_cons, List.sum_cons, ih]
    simp only [walkLatency, routedHop, TimeWindow.new, TimeWindow.duration, List.length_cons,
      Nat.cast_add, Nat.cast_one]
    ring

theorem isWalk_concat {topology : TopologyForecast} {a b : NodeId} {t : DateTime}
    {edges : List PotentialEdge} {edge : PotentialEdge} :
    IsWalk topology a t (edges ++ [edge]) b ↔ ∃ c, IsWalk topology a t edges c ∧
      edge ∈ (topology.queryAt (t + walkLatency edges)).potentialEdges ∧ edge.endpoints.1 = c ∧
      edge.visibilityWindow.contains (t + walkLatency edges) ∧ edge.endpoints.2 = b := by
  induction edges generalizing a t with
  | nil =>
    simp only [List.nil_append, IsWalk, walkLatency, List.length_nil, Nat.cast_zero, zero_mul,
      add_zero]
    exact ⟨fun ⟨hmem, ha, hvisible, hb⟩ => ⟨a, rfl, hmem, ha, hvisible, hb⟩,
      fun ⟨_, hc, hmem, ha, hvisible, hb⟩ => ⟨hmem, ha.trans hc.symm, hvisible, hb⟩⟩
  | cons first edges ih =>
    have htime : t + hopDuration + walkLatency edges = t + walkLatency (first :: edges) := by
      simp only [walkLatency, List.length_cons, Nat.cast_add, Nat.cast_one]
      ring
    rw [List.cons_append]
    simp only [IsWalk]
    rw [ih, htime]
    constructor
    · rintro ⟨hmem, ha, hvisible, c, hwalk, hrest⟩
      exact ⟨c, ⟨hmem, ha, hvisible, hwalk⟩, hrest⟩
    · rintro ⟨c, ⟨hmem, ha, hvisible, hwalk⟩, hrest⟩
      exact ⟨hmem, ha, hvisible, c, hwalk, hrest⟩

theorem mem_neighbors {topology : TopologyForecast} {state next : RouteState} :
    next ∈ neighbors topology state ↔
      ∃ edge ∈ (topology.queryAt state.currentTime).potentialEdges,
        edge.endpoints.1 = state.currentNode ∧
        edge.visibilityWindow.contains state.currentTime ∧ state.hop edge = next := by
  simp [neighbors, and_assoc]

/-- A walk of edges ends where it ends as a walk of states. -/
theorem IsWalk.currentNode_walk {topology : TopologyForecast} {t : DateTime} {b : NodeId}
    {edges : List PotentialEdge} {state : RouteState}
    (h : IsWalk topology state.currentNode t edges b) : (state.walk edges).currentNode = b := by
  induction edges generalizing state t with
  | nil => exact h
  | cons edge edges ih => exact ih h.2.2.2

section

variable {destination : NodeId} {topology : TopologyForecast} {constraints : IntentConstraints}
  {init : RouteState}

/-- The states that the search can reach are the walks from its initial state. -/
theorem reachable_iff {state : RouteState} :
    Reachable (routeProblem destination topology constraints) init state ↔
      ∃ edges, IsWalk topology init.currentNode init.currentTime edges state.currentNode ∧
        state = init.walk edges := by
  constructor
  · intro h
    induction h with
    | init => exact ⟨[], rfl, rfl⟩
    | @step state next h hnext ih =>
      obtain ⟨edges, hwalk, rfl⟩ := ih
      obtain ⟨edge, hmem, hfrom, hvisible, rfl⟩ := mem_neighbors.mp hnext
      rw [RouteState.currentTime_walk] at hmem hvisible
      exact ⟨edges ++ [edge], isWalk_concat.mpr ⟨_, hwalk, hmem, hfrom, hvisible, rfl⟩,
        (RouteState.walk_concat _ _ _).symm⟩
  · rintro ⟨edges, hwalk, rfl⟩
    induction edges using List.reverseRecOn with
    | nil => exact .init
    | append_singleton edges edge ih =>
      obtain ⟨c, hwalk', hmem, hfrom, hvisible, -⟩ := isWalk_concat.mp hwalk
      have hc := hwalk'.currentNode_walk
      rw [← hc] at hwalk' hfrom
      rw [← RouteState.currentTime_walk] at hmem hvisible
      rw [RouteState.walk_concat]
      exact .step (ih hwalk') (mem_neighbors.mpr ⟨edge, hmem, hfrom, hvisible, rfl⟩)

/-- A walk that the search takes, from an initial state without hops: it is accepted if it leads to
the destination within the bound. -/
theorem accept_walk {edges : List PotentialEdge} (hhops : init.hops = []) :
    (routeProblem destination topology constraints).accept (init.walk edges) ↔
      (init.walk edges).currentNode = destination ∧ Within constraints edges := by
  have hlatency : (buildRoute (init.walk edges)).latency = walkLatency edges := by
    simp only [buildRoute, Route.latency, RouteState.hops_walk, hhops, List.nil_append]
    exact duration_routedHops _ _
  simp only [routeProblem, Bool.and_eq_true, decide_eq_true_eq, satisfiesConstraints, hlatency]
  refine and_congr_right fun _ => ?_
  unfold Within
  cases constraints.maxLatency with
  | none => simp
  | some maxLatency => simp

/-- Two walks to states of one key have taken equally long, and they go on alike. -/
theorem consistent (hhops : init.hops = [])
    (hcost : ∀ edge ∈ topology.allEdges, 0 ≤ calculateHopCost edge init.costModel) :
    Consistent RouteState.cost (routeProblem destination topology constraints) init := by
  have hmodel : ∀ {s}, Reachable (routeProblem destination topology constraints) init s →
      s.costModel = init.costModel := by
    intro s hs
    obtain ⟨edges, -, rfl⟩ := reachable_iff.mp hs
    exact RouteState.costModel_walk _ _
  constructor
  · intro s hs t ht
    obtain ⟨edge, hmem, -, -, rfl⟩ := mem_neighbors.mp ht
    have hedge := hcost edge (TopologyForecast.mem_allEdges_of_queryAt hmem)
    rw [← hmodel hs] at hedge
    simp only [RouteState.hop]
    linarith
  · intro s t hs ht hkey
    obtain ⟨edges, -, rfl⟩ := reachable_iff.mp hs
    obtain ⟨edges', -, rfl⟩ := reachable_iff.mp ht
    obtain ⟨hnode, htime⟩ := Prod.mk.inj hkey
    have hlatency : walkLatency edges = walkLatency edges' := by
      simp only [RouteState.currentTime_walk] at htime
      linarith
    rw [Bool.eq_iff_iff, accept_walk hhops, accept_walk hhops, hnode]
    simp only [Within, hlatency]
  · intro s t hs ht hkey hle t' ht'
    obtain ⟨hnode, htime⟩ := Prod.mk.inj hkey
    obtain ⟨edge, hmem, hfrom, hvisible, rfl⟩ := mem_neighbors.mp ht'
    rw [← htime] at hmem hvisible
    refine ⟨s.hop edge, mem_neighbors.mpr ⟨edge, hmem, hfrom.trans hnode.symm, hvisible, rfl⟩, ?_, ?_⟩
    · simp only [routeProblem, RouteState.hop, htime]
    · simp only [RouteState.hop, hmodel hs, hmodel ht]
      linarith

variable (destination topology constraints init) in
/-- The search visits the source and the targets of edges, up to the time when the last hop that
starts in a window of visibility ends. -/
theorem keys_finite : ∃ keys : Finset (NodeId × DateTime),
    ∀ state, Reachable (routeProblem destination topology constraints) init state →
      (routeProblem destination topology constraints).key state ∈ keys := by
  obtain ⟨last, hlast⟩ := (topology.allEdges.map fun edge =>
    edge.visibilityWindow.end).toFinset.exists_le
  let nodes := (init.currentNode :: topology.allEdges.map fun edge => edge.endpoints.2).toFinset
  refine ⟨nodes ×ˢ Finset.Icc init.currentTime (max init.currentTime (last + hopDuration)), ?_⟩
  intro state h
  rw [Finset.mem_product, Finset.mem_Icc]
  induction h with
  | init => exact ⟨by simp [nodes, routeProblem], le_rfl, le_max_left _ _⟩
  | @step state next _ hnext ih =>
    obtain ⟨edge, hmem, -, hvisible, rfl⟩ := mem_neighbors.mp hnext
    have hedge := TopologyForecast.mem_allEdges_of_queryAt hmem
    have hend : edge.visibilityWindow.end ≤ last :=
      hlast _ (List.mem_toFinset.mpr (List.mem_map_of_mem hedge))
    have hbefore : state.currentTime ≤ edge.visibilityWindow.end := by
      simp only [TimeWindow.contains, Bool.and_eq_true, decide_eq_true_eq] at hvisible
      exact hvisible.2
    have hstart : init.currentTime ≤ state.currentTime := ih.2.1
    refine ⟨?_, ?_, ?_⟩
    · exact List.mem_toFinset.mpr (List.mem_cons_of_mem _ (List.mem_map_of_mem hedge))
    · have : (0 : ℤ) ≤ hopDuration := by decide
      exact hstart.trans (by simp only [routeProblem, RouteState.hop]; linarith)
    · exact le_max_of_le_right (by simp only [routeProblem, RouteState.hop]; linarith)

theorem search_ends (heap : RouteHeap) : ∃ fuel result, ∀ more ≥ fuel,
    search heap (routeProblem destination topology constraints) more [] [init] = some result := by
  obtain ⟨keys, hkeys⟩ := keys_finite destination topology constraints init
  obtain ⟨fuel, result, hrun⟩ : ∃ fuel result,
      search heap (routeProblem destination topology constraints) fuel [] [init] = some result :=
    search_terminates hkeys reachable_singleton
  exact ⟨fuel, result, fun more hmore => search_le hrun hmore⟩

end

/-! ### The answers of the router -/

namespace RouteQuery

/-- A walk that the query asks for. -/
def Admits (query : RouteQuery) (edges : List PotentialEdge) : Prop :=
  IsWalk query.topology query.source query.topology.horizonStart edges query.destination ∧
    Within query.constraints edges

/-- A route along a walk of least cost, or an error if there is no walk. -/
def Optimal (query : RouteQuery) (costModel : CostModel) : Except RoutingError Route → Prop
  | .ok route => ∃ edges, query.Admits edges ∧
      route.hops = routedHops query.topology.horizonStart edges ∧
      route.totalCost = walkCost costModel edges ∧
      ∀ other, query.Admits other → route.totalCost ≤ walkCost costModel other
  | .error error => error = .noRouteFound query.source query.destination ∧
      ∀ edges, ¬ query.Admits edges

def problem (query : RouteQuery) : Problem RouteState (NodeId × DateTime) :=
  routeProblem query.destination query.topology query.constraints

end RouteQuery

namespace SpatiotemporalRouter

variable {router : SpatiotemporalRouter} {query : RouteQuery}

/-- The router and its answer after a search that ends with `result`. -/
def answer (router : SpatiotemporalRouter) (query : RouteQuery) :
    Option RouteState → SpatiotemporalRouter × Except RoutingError Route
  | none => (router, .error (.noRouteFound query.source query.destination))
  | some state =>
    ({ router with
        routeCache :=
          router.routeCache.put query.order query.cacheKey (buildRoute state) query.putTimes },
      .ok (buildRoute state))

theorem computeRoute_of_miss (heap : RouteHeap) (fuel : ℕ)
    (hmiss : router.routeCache.stored? query.cacheKey = none) :
    router.computeRoute heap fuel query =
      (search heap query.problem fuel [] [router.initialState query]).map (router.answer query) := by
  have hinit : heap.push [] (router.initialState query) = [router.initialState query] :=
    List.perm_singleton.mp (heap.push_perm [] _)
  unfold computeRoute
  rw [LruCache.get_of_stored?_eq_none hmiss, hinit]
  simp only [searchRoute_eq, RouteQuery.problem]
  cases search heap (routeProblem query.destination query.topology query.constraints) fuel []
      [router.initialState query] with
  | none => rfl
  | some result =>
    cases result with
    | none => rfl
    | some state => rfl

theorem computeRoute_of_hit (heap : RouteHeap) (fuel : ℕ) {route : Route}
    (hhit : router.routeCache.stored? query.cacheKey = some route) :
    router.computeRoute heap fuel query =
      some ({ router with routeCache := (router.routeCache.get query.cacheKey query.getTime).1 },
        .ok route) := by
  rw [← LruCache.get_snd router.routeCache query.cacheKey query.getTime] at hhit
  unfold computeRoute
  split
  · next heq =>
    rw [heq] at hhit ⊢
    rw [Option.some.inj hhit]
  · next heq =>
    rw [heq] at hhit
    contradiction

theorem computeRoute_le {heap : RouteHeap} {fuel more : ℕ}
    {result : SpatiotemporalRouter × Except RoutingError Route}
    (h : router.computeRoute heap fuel query = some result) (hle : fuel ≤ more) :
    router.computeRoute heap more query = some result := by
  cases hstored : router.routeCache.stored? query.cacheKey with
  | none =>
    rw [computeRoute_of_miss heap _ hstored] at h ⊢
    obtain ⟨found, hsearch, rfl⟩ := Option.map_eq_some_iff.mp h
    rw [search_le hsearch hle]
    rfl
  | some route =>
    rw [computeRoute_of_hit heap _ hstored] at h ⊢
    exact h

/-- Every query is answered, whatever the costs of the hops. -/
theorem computeRoute_ends (heap : RouteHeap) (router : SpatiotemporalRouter) (query : RouteQuery) :
    ∃ fuel, (router.computeRoute heap fuel query).isSome := by
  cases hstored : router.routeCache.stored? query.cacheKey with
  | none =>
    obtain ⟨fuel, result, hrun⟩ : ∃ fuel result, ∀ more ≥ fuel,
        search heap query.problem more [] [router.initialState query] = some result :=
      search_ends heap
    refine ⟨fuel, ?_⟩
    rw [computeRoute_of_miss heap fuel hstored, hrun fuel le_rfl]
    rfl
  | some route =>
    refine ⟨0, ?_⟩
    rw [computeRoute_of_hit heap 0 hstored]
    rfl

/-- What the search may answer is the walks that the query asks for. -/
theorem reachable_accept_iff {state : RouteState} :
    Reachable query.problem (router.initialState query) state ∧ query.problem.accept state ↔
      ∃ edges, query.Admits edges ∧ state = (router.initialState query).walk edges := by
  have haccept : ∀ edges, query.problem.accept ((router.initialState query).walk edges) ↔
      ((router.initialState query).walk edges).currentNode = query.destination ∧
        Within query.constraints edges := fun _ => accept_walk rfl
  constructor
  · rintro ⟨hreach, hacc⟩
    obtain ⟨edges, hwalk, rfl⟩ := reachable_iff.mp hreach
    obtain ⟨hend, hwithin⟩ := (haccept edges).mp hacc
    rw [hend] at hwalk
    exact ⟨edges, ⟨hwalk, hwithin⟩, rfl⟩
  · rintro ⟨edges, ⟨hwalk, hwithin⟩, rfl⟩
    have hend : ((router.initialState query).walk edges).currentNode = query.destination :=
      hwalk.currentNode_walk
    refine ⟨reachable_iff.mpr ⟨edges, ?_, rfl⟩, (haccept edges).mpr ⟨hend, hwithin⟩⟩
    rw [hend]
    exact hwalk

theorem optimal_of_least {result : Option RouteState}
    (h : Least RouteState.cost query.problem (router.initialState query) result) :
    query.Optimal router.costModel (router.answer query result).2 := by
  have hcost : ∀ edges, ((router.initialState query).walk edges).cost =
      walkCost router.costModel edges := by
    intro edges
    rw [RouteState.cost_walk]
    simp [initialState]
  cases result with
  | none =>
    refine ⟨rfl, fun edges hadmits => ?_⟩
    obtain ⟨hreach, hacc⟩ := reachable_accept_iff.mpr ⟨edges, hadmits, rfl⟩
    rw [h _ hreach] at hacc
    contradiction
  | some state =>
    obtain ⟨hreach, hacc, hleast⟩ := h
    obtain ⟨edges, hadmits, rfl⟩ := reachable_accept_iff.mp ⟨hreach, hacc⟩
    refine ⟨edges, hadmits, RouteState.hops_walk _ _, hcost edges, fun other hother => ?_⟩
    obtain ⟨hreach', hacc'⟩ := reachable_accept_iff.mpr ⟨other, hother, rfl⟩
    have hle := hleast _ hreach' hacc'
    rw [hcost other] at hle
    exact hle

/-- A query that misses the cache is answered, by a route of least cost among all walks that it asks
for, or by an error exactly when there are none. -/
theorem computeRoute_optimal (heap : RouteHeap) (router : SpatiotemporalRouter) (query : RouteQuery)
    (hmiss : router.routeCache.stored? query.cacheKey = none)
    (hcost : ∀ edge ∈ query.topology.allEdges, 0 ≤ calculateHopCost edge router.costModel) :
    ∃ fuel router' answer,
      (∀ more ≥ fuel, router.computeRoute heap more query = some (router', answer)) ∧
      query.Optimal router.costModel answer ∧
      (answer = .error (.noRouteFound query.source query.destination) ↔
        ¬ ∃ edges, query.Admits edges) := by
  obtain ⟨fuel, result, hrun⟩ : ∃ fuel result, ∀ more ≥ fuel,
      search heap query.problem more [] [router.initialState query] = some result :=
    search_ends heap
  have hconsistent : Consistent RouteState.cost query.problem (router.initialState query) :=
    consistent rfl hcost
  have hoptimal := optimal_of_least (search_least hconsistent (hrun fuel le_rfl))
  refine ⟨fuel, (router.answer query result).1, (router.answer query result).2, ?_, hoptimal, ?_⟩
  · intro more hmore
    rw [computeRoute_of_miss heap more hmiss, hrun more hmore]
    rfl
  · cases result with
    | none => exact ⟨fun _ ⟨edges, hadmits⟩ => hoptimal.2 edges hadmits, fun _ => rfl⟩
    | some state =>
      obtain ⟨edges, hadmits, -⟩ := hoptimal
      exact ⟨fun h => by simp [answer] at h, fun h => absurd ⟨edges, hadmits⟩ h⟩

/-- An edge that is visible for five minutes. -/
def shortEdge (a b : NodeId) (requiredPointingAccuracyRad : ℚ) : PotentialEdge :=
  { endpoints := (a, b)
    visibilityWindow := ⟨0, Duration.seconds 300⟩
    geometricQuality := ⟨0, 0, 0⟩
    expectedCapacity := ⟨999⟩
    atmosphericAttenuation := none
    requiredPointingAccuracyRad }

/-- Two hops over `relay` cost less than the direct one. -/
def relayForecast : TopologyForecast :=
  { TopologyForecast.new 0 (Duration.seconds 300) with
    snapshots := [(0, {
      timestamp := 0
      nodes := ["a", "b", "relay"]
      potentialEdges :=
        [shortEdge "a" "b" 1, shortEdge "a" "relay" 0, shortEdge "relay" "b" 0] })]
    sorted := List.pairwise_singleton _ _ }

/-- The query for a route from `a` to `b`. -/
def relayQuery (topology : TopologyForecast) (maxLatency : Option Duration) : RouteQuery :=
  { source := "a"
    destination := "b"
    topology
    constraints := ⟨maxLatency⟩
    order := .stored _
    getTime := 0
    putTimes := (0, 0) }

theorem optimal_relayQuery : ∃ fuel router' answer,
    (∀ more ≥ fuel, (new .default).computeRoute (.scan _) more
      (relayQuery relayForecast (some (Duration.seconds 60))) = some (router', answer)) ∧
    (relayQuery relayForecast (some (Duration.seconds 60))).Optimal .default answer ∧
    (answer = .error (.noRouteFound "a" "b") ↔
      ¬ ∃ edges, (relayQuery relayForecast (some (Duration.seconds 60))).Admits edges) :=
  computeRoute_optimal (.scan _) (new .default) _ rfl (by decide +kernel)

end SpatiotemporalRouter

end GroundCore.Oisl.Topology
