import Mathlib.Data.Finset.Image
import Mathlib.Logic.Relation
import GroundCore.Core.Types
import GroundCore.Lib.BreadthFirst

/-! The forecast of the optical topology, directed edges between terminals, each visible in some
windows of time, and the search for an optical route, which finds a route of the fewest hops over
the edges that are visible at one time. -/

namespace GroundCore.Optical.Routing

structure VisibilityWindow where
  start : DateTime
  «end» : DateTime
  deriving DecidableEq

def VisibilityWindow.contains (w : VisibilityWindow) (timestamp : DateTime) : Bool :=
  decide (w.start ≤ timestamp ∧ timestamp ≤ w.end)

structure TopologyEdge where
  edgeId : String
  endpoints : String × String
  visibilityWindows : List VisibilityWindow
  maxDataRate : ℕ
  deriving DecidableEq

def TopologyEdge.isVisibleAt (edge : TopologyEdge) (timestamp : DateTime) : Bool :=
  edge.visibilityWindows.any (·.contains timestamp)

structure OpticalTopology where
  edges : List TopologyEdge
  deriving DecidableEq

namespace OpticalTopology

variable (topology : OpticalTopology) (timestamp : DateTime)

def findEdgesFrom (nodeId : String) : List TopologyEdge :=
  topology.edges.filter fun edge => decide (edge.endpoints.1 = nodeId)

/-- The ends and the identifiers of the visible edges from a node, in the order of the topology. -/
def visibleEdges (nodeId : String) : List (String × String) :=
  ((topology.findEdgesFrom nodeId).filter (·.isVisibleAt timestamp)).map fun edge =>
    (edge.endpoints.2, edge.edgeId)

/-- A visible edge leads from one node to the other. -/
def Linked (u v : String) : Prop :=
  ∃ edge ∈ topology.edges, edge.isVisibleAt timestamp = true ∧ edge.endpoints = (u, v)

variable {topology timestamp}

theorem mem_visibleEdges {u v id : String} :
    (v, id) ∈ topology.visibleEdges timestamp u ↔
      ∃ edge ∈ topology.edges, edge.isVisibleAt timestamp = true ∧ edge.endpoints = (u, v) ∧
        edge.edgeId = id := by
  simp only [visibleEdges, findEdgesFrom, List.mem_map, List.mem_filter, decide_eq_true_eq,
    Prod.mk.injEq]
  constructor
  · rintro ⟨edge, ⟨⟨hmem, rfl⟩, hvisible⟩, rfl, rfl⟩
    exact ⟨edge, hmem, hvisible, rfl, rfl⟩
  · rintro ⟨edge, hmem, hvisible, hends, rfl⟩
    exact ⟨edge, ⟨⟨hmem, congrArg Prod.fst hends⟩, hvisible⟩, congrArg Prod.snd hends, rfl⟩

theorem linked_iff {u v : String} :
    topology.Linked timestamp u v ↔ ∃ id, (v, id) ∈ topology.visibleEdges timestamp u := by
  simp only [mem_visibleEdges, Linked]
  constructor
  · rintro ⟨edge, hmem, hvisible, hends⟩
    exact ⟨edge.edgeId, edge, hmem, hvisible, hends, rfl⟩
  · rintro ⟨id, edge, hmem, hvisible, hends, -⟩
    exact ⟨edge, hmem, hvisible, hends⟩

end OpticalTopology

open Lib BreadthFirst OpticalTopology

structure RouteConstraints where
  maxHops : ℕ
  minDataRate : ℕ
  maxLatencyMs : ℕ
  requireRedundancy : Bool
  deriving DecidableEq

def RouteConstraints.default : RouteConstraints :=
  { maxHops := 5, minDataRate := 1000000000, maxLatencyMs := 100, requireRedundancy := false }

structure OpticalRoute where
  path : List (Hop String String)
  constraints : RouteConstraints
  estimatedLatencyMs : ℕ
  deriving DecidableEq

def OpticalRoute.new (path : List (Hop String String)) (constraints : RouteConstraints) :
    OpticalRoute :=
  { path, constraints, estimatedLatencyMs := path.length * 10 }

/-- The path back from `node` to the source, as far as there are parents.  The result is `none` if
the loop takes more than `fuel` turns. -/
def reconstruct (source : String) (parentMap : HashMap String (String × String)) :
    ℕ → String → List (Hop String String) → Option (List (Hop String String))
  | 0, _, _ => none
  | fuel + 1, node, path =>
    if node = source then some path.reverse
    else
      match parentMap.get? node with
      | some (prevNode, edgeId) =>
        reconstruct source parentMap fuel prevNode (path ++ [(prevNode, node, edgeId)])
      | none => some path.reverse

/-- The turn of the inner loop for one edge. -/
def exploreEdge (atTime : DateTime) (current : String) (f : Frontier String String)
    (edge : TopologyEdge) : Frontier String String :=
  if !edge.isVisibleAt atTime then f
  else
    let neighbor := edge.endpoints.2
    if neighbor ∈ f.visited then f
    else
      { visited := neighbor :: f.visited
        parents := f.parents.insert neighbor (current, edge.edgeId)
        queue := f.queue ++ [neighbor] }

section FindRoute

variable (topology : OpticalTopology) (source destination : String)
  (constraints : RouteConstraints) (atTime : DateTime)

/-- The outer loop: a route, or none when the queue is empty.  The result is `none` if one of the
loops takes more turns than it has fuel. -/
def searchRoute (limit : ℕ) : ℕ → Frontier String String → Option (Option OpticalRoute)
  | 0, _ => none
  | fuel + 1, f =>
    match f.queue with
    | [] => some none
    | current :: queue =>
      if current = destination then
        (reconstruct source f.parents limit destination []).map fun path =>
          some (.new path constraints)
      else
        searchRoute limit fuel
          ((topology.findEdgesFrom current).foldl (exploreEdge atTime current) { f with queue })

def findRoute (fuel : ℕ) : Option (Option OpticalRoute) :=
  searchRoute topology source destination constraints atTime fuel fuel
    { queue := [source], visited := [source], parents := ∅ }

def findAllRoutes (fuel : ℕ) : Option (List OpticalRoute) :=
  (findRoute topology source destination constraints atTime fuel).map fun
    | some route => [route]
    | none => []

end FindRoute

/-! ### What the search finds -/

variable {topology : OpticalTopology} {source destination : String}
  {constraints : RouteConstraints} {atTime : DateTime}

/-- The path is followed back to the source along the hops that the parents trace. -/
theorem reconstruct_of_traced {parentMap : HashMap String (String × String)} {node : String}
    {w : List (Hop String String)} (htraced : Traced parentMap source w node) {fuel : ℕ}
    (hfuel : w.length < fuel) (path : List (Hop String String)) :
    reconstruct source parentMap fuel node path = some (w ++ path.reverse) := by
  induction htraced generalizing fuel path with
  | nil =>
    cases fuel with
    | zero => omega
    | succ fuel => exact if_pos rfl
  | @snoc u v w id _ hne hget ih =>
    rw [List.length_append, List.length_singleton] at hfuel
    cases fuel with
    | zero => omega
    | succ fuel =>
      rw [reconstruct, if_neg hne, hget]
      dsimp only
      rw [ih (by omega)]
      simp

theorem foldl_exploreEdge (current : String) (f : Frontier String String) :
    (topology.findEdgesFrom current).foldl (exploreEdge atTime current) f =
      (topology.visibleEdges atTime current).foldl (visit current) f := by
  rw [visibleEdges, List.foldl_map, List.foldl_filter]
  refine List.foldl_ext _ _ _ fun f edge _ => ?_
  cases h : edge.isVisibleAt atTime <;> simp [exploreEdge, visit, h]

theorem searchRoute_eq (limit fuel : ℕ) (f : Frontier String String) :
    searchRoute topology source destination constraints atTime limit fuel f =
      (search (topology.visibleEdges atTime) destination fuel f).bind fun
        | none => some none
        | some parents => (reconstruct source parents limit destination []).map fun path =>
            some (.new path constraints) := by
  induction fuel generalizing f with
  | zero => rfl
  | succ fuel ih =>
    rw [searchRoute, search]
    cases f.queue with
    | nil => rfl
    | cons current queue =>
      dsimp only
      split
      · rfl
      · rw [ih, foldl_exploreEdge]

/-- The nodes that a route from the source can pass. -/
def nodesFrom (topology : OpticalTopology) (source : String) : Finset String :=
  insert source (topology.edges.map (·.endpoints.2)).toFinset

theorem card_nodesFrom_le (topology : OpticalTopology) (source : String) :
    (nodesFrom topology source).card ≤ topology.edges.length + 1 := by
  refine (Finset.card_insert_le _ _).trans (Nat.succ_le_succ ?_)
  exact (List.toFinset_card_le _).trans (List.length_map _).le

theorem visibleEdges_subset_nodesFrom (u : String) :
    ∀ e ∈ topology.visibleEdges atTime u, e.1 ∈ nodesFrom topology source := by
  intro e he
  obtain ⟨edge, hmem, -, hends, -⟩ := mem_visibleEdges.mp he
  refine Finset.mem_insert_of_mem (List.mem_toFinset.mpr (List.mem_map.mpr ⟨edge, hmem, ?_⟩))
  exact congrArg Prod.snd hends

/-- A turn for every edge and two more are enough.  The route that is found is the first of all in
the order of their lengths and of the edges of the topology. -/
theorem findRoute_spec {fuel : ℕ} (hfuel : topology.edges.length + 2 ≤ fuel) :
    (∃ path, findRoute topology source destination constraints atTime fuel =
        some (some (.new path constraints)) ∧
      First (topology.visibleEdges atTime) source path destination) ∨
    findRoute topology source destination constraints atTime fuel = some none ∧
      ∀ path, ¬ IsWalk (topology.visibleEdges atTime) source path destination := by
  have hcard : (nodesFrom topology source).card < fuel :=
    (card_nodesFrom_le topology source).trans_lt hfuel
  have hstart : Reached (topology.visibleEdges atTime) source [] (.start source) :=
    reached_start source
  rw [findRoute, searchRoute_eq]
  rcases hstart.search (Finset.mem_insert_self source _)
      (fun u _ => visibleEdges_subset_nodesFrom u) (List.not_mem_nil (a := destination))
      (by rwa [List.length_nil, Nat.zero_add]) with
    ⟨parents, path, hsearch, hfirst, htraced, hshort⟩ | ⟨hsearch, hnone⟩
  · refine .inl ⟨path, ?_, hfirst⟩
    rw [Frontier.start] at hsearch
    rw [hsearch, Option.bind_some]
    dsimp only
    rw [reconstruct_of_traced htraced (hshort.trans hcard)]
    simp
  · rw [Frontier.start] at hsearch
    exact .inr ⟨by rw [hsearch, Option.bind_some], hnone⟩

theorem findRoute_of_first {path : List (Hop String String)}
    (hfirst : First (topology.visibleEdges atTime) source path destination) {fuel : ℕ}
    (hfuel : topology.edges.length + 2 ≤ fuel) :
    findRoute topology source destination constraints atTime fuel =
      some (some (.new path constraints)) := by
  rcases findRoute_spec hfuel with ⟨path', hfind, hfirst'⟩ | ⟨-, hnone⟩
  · rw [hfind, hfirst.unique hfirst']
  · exact absurd hfirst.1 (hnone path)

theorem findRoute_of_not_isWalk
    (hnone : ∀ path, ¬ IsWalk (topology.visibleEdges atTime) source path destination) {fuel : ℕ}
    (hfuel : topology.edges.length + 2 ≤ fuel) :
    findRoute topology source destination constraints atTime fuel = some none := by
  rcases findRoute_spec hfuel with ⟨path, -, hfirst⟩ | ⟨hfind, -⟩
  · exact absurd hfirst.1 (hnone path)
  · exact hfind

/-- Either a first walk leads to the destination, or none at all. -/
theorem exists_first_or_not_isWalk (topology : OpticalTopology) (source destination : String)
    (atTime : DateTime) :
    (∃ path, First (topology.visibleEdges atTime) source path destination) ∨
      ∀ path, ¬ IsWalk (topology.visibleEdges atTime) source path destination := by
  rcases @findRoute_spec topology source destination .default atTime _ le_rfl with
    ⟨path, -, hfirst⟩ | ⟨-, hnone⟩
  · exact .inl ⟨path, hfirst⟩
  · exact .inr hnone

/-- A destination that a route leads to is one that visible edges lead to. -/
theorem exists_isWalk_iff :
    (∃ path, IsWalk (topology.visibleEdges atTime) source path destination) ↔
      Relation.ReflTransGen (topology.Linked atTime) source destination := by
  constructor
  · rintro ⟨path, hwalk⟩
    induction path generalizing source with
    | nil => exact hwalk ▸ .refl
    | cons hop path ih =>
      exact .head (linked_iff.mpr ⟨hop.2.2, hwalk.2.1⟩) (ih hwalk.2.2)
  · intro h
    induction h with
    | refl => exact ⟨[], rfl⟩
    | tail _ hlinked ih =>
      obtain ⟨path, hwalk⟩ := ih
      obtain ⟨id, hedge⟩ := linked_iff.mp hlinked
      exact ⟨_, isWalk_snoc hwalk hedge⟩

/-- The search ends.  It finds no route exactly if visible edges do not lead to the destination, and
a route that it finds follows visible edges there with the fewest hops. -/
theorem findRoute_shortest (topology : OpticalTopology) (source destination : String)
    (constraints : RouteConstraints) (atTime : DateTime) :
    ∃ result, (∀ fuel, topology.edges.length + 2 ≤ fuel →
        findRoute topology source destination constraints atTime fuel = some result) ∧
      (result = none ↔ ¬ Relation.ReflTransGen (topology.Linked atTime) source destination) ∧
      ∀ route, result = some route →
        IsWalk (topology.visibleEdges atTime) source route.path destination ∧
        ∀ path, IsWalk (topology.visibleEdges atTime) source path destination →
          route.path.length ≤ path.length := by
  rw [← exists_isWalk_iff]
  rcases exists_first_or_not_isWalk topology source destination atTime with ⟨path, hfirst⟩ | hnone
  · refine ⟨some (.new path constraints), fun fuel => findRoute_of_first hfirst, ?_, ?_⟩
    · simp only [reduceCtorEq, false_iff, not_not]
      exact ⟨path, hfirst.1⟩
    · rintro route ⟨rfl⟩
      exact ⟨hfirst.1, fun path' hwalk => hfirst.length_le hwalk⟩
  · refine ⟨none, fun fuel => findRoute_of_not_isWalk hnone, ?_, fun route h => by contradiction⟩
    simpa using hnone

end GroundCore.Optical.Routing

/-! The constraints of a route.  The search stores them in the route and does not read them, so they
hold exactly where the route that it finds anyway happens to meet them. -/

namespace GroundCore.Optical.Routing

open Lib BreadthFirst OpticalTopology

/-- The route has few enough hops and a low enough latency, and every hop is over a visible edge with
a high enough rate. -/
structure OpticalRoute.Satisfies (topology : OpticalTopology) (atTime : DateTime)
    (constraints : RouteConstraints) (route : OpticalRoute) : Prop where
  hops : route.path.length ≤ constraints.maxHops
  latency : route.estimatedLatencyMs ≤ constraints.maxLatencyMs
  rate : ∀ hop ∈ route.path, ∃ edge ∈ topology.edges, edge.isVisibleAt atTime = true ∧
    edge.endpoints = (hop.1, hop.2.1) ∧ edge.edgeId = hop.2.2 ∧
    constraints.minDataRate ≤ edge.maxDataRate

/-- Every route that is returned meets the constraints, and one is returned if any route from the
source to the destination does. -/
def Honours (topology : OpticalTopology) (source destination : String)
    (constraints : RouteConstraints) (atTime : DateTime) (routes : List OpticalRoute) : Prop :=
  (∀ route ∈ routes, route.Satisfies topology atTime constraints) ∧
    ((∃ path, IsWalk (topology.visibleEdges atTime) source path destination ∧
      (OpticalRoute.new path constraints).Satisfies topology atTime constraints) → routes ≠ [])

variable {topology : OpticalTopology} {source destination : String}
  {constraints : RouteConstraints} {atTime : DateTime}

/-- Both searches end, and they honour the constraints exactly if the first of the shortest routes to
the destination, in the order of the edges of the topology, meets them or there is no route. -/
theorem honours_iff (topology : OpticalTopology) (source destination : String)
    (constraints : RouteConstraints) (atTime : DateTime) :
    ∃ result routes, (∀ fuel, topology.edges.length + 2 ≤ fuel →
        findRoute topology source destination constraints atTime fuel = some result ∧
        findAllRoutes topology source destination constraints atTime fuel = some routes) ∧
      (Honours topology source destination constraints atTime result.toList ∧
          Honours topology source destination constraints atTime routes ↔
        ∀ path, First (topology.visibleEdges atTime) source path destination →
          (OpticalRoute.new path constraints).Satisfies topology atTime constraints) := by
  rcases exists_first_or_not_isWalk topology source destination atTime with ⟨path, hfirst⟩ | hnone
  · refine ⟨some (.new path constraints), [.new path constraints], fun fuel hfuel => ?_, ?_⟩
    · rw [findAllRoutes, findRoute_of_first hfirst hfuel]
      exact ⟨rfl, rfl⟩
    · have hhonours : Honours topology source destination constraints atTime
            [.new path constraints] ↔
          (OpticalRoute.new path constraints).Satisfies topology atTime constraints :=
        ⟨fun h => h.1 _ List.mem_cons_self,
          fun h => ⟨by simpa using h, fun _ => List.cons_ne_nil _ _⟩⟩
      rw [Option.toList_some, and_self, hhonours]
      exact ⟨fun h path' hfirst' => hfirst.unique hfirst' ▸ h, fun h => h path hfirst⟩
  · refine ⟨none, [], fun fuel hfuel => ?_, ?_⟩
    · rw [findAllRoutes, findRoute_of_not_isWalk hnone hfuel]
      exact ⟨rfl, rfl⟩
    · have hhonours : Honours topology source destination constraints atTime [] :=
        ⟨by simp, fun ⟨path, hwalk, _⟩ => absurd hwalk (hnone path)⟩
      exact iff_of_true ⟨hhonours, hhonours⟩ fun path hfirst => absurd hfirst.1 (hnone path)

/-- A link of a low rate and, over another node, two links of a high one. -/
def detour : OpticalTopology :=
  let always : List VisibilityWindow := [⟨0, 10⟩]
  { edges := [⟨"slow", ("A", "C"), always, 1⟩, ⟨"up", ("A", "B"), always, 1000⟩,
      ⟨"down", ("B", "C"), always, 1000⟩] }

/-- The search returns the slow link although the detour meets the constraints. -/
theorem slow_link_returned :
    let constraints : RouteConstraints := { RouteConstraints.default with minDataRate := 1000 }
    let fast : List (Hop String String) := [("A", "B", "up"), ("B", "C", "down")]
    findRoute detour "A" "C" constraints 5 5 =
        some (some (.new [("A", "C", "slow")] constraints)) ∧
      ¬ (OpticalRoute.new [("A", "C", "slow")] constraints).Satisfies detour 5 constraints ∧
      IsWalk (detour.visibleEdges 5) "A" fast "C" ∧
      (OpticalRoute.new fast constraints).Satisfies detour 5 constraints := by
  refine ⟨by decide, fun h => absurd h.rate (by decide), ⟨rfl, by decide, rfl, by decide, rfl⟩, ?_⟩
  exact ⟨by decide, by decide, by decide⟩

end GroundCore.Optical.Routing
