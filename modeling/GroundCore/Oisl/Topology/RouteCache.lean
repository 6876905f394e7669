import GroundCore.Lib.Run
import GroundCore.Oisl.Topology.RouteSearch

/-! The calls of one router.  A route that the search finds respects its query; a route from the
cache respects the query that stored it, of which the key of the cache keeps the endpoints and the
bucket of the start only. -/

namespace GroundCore.Oisl.Topology

open Caching Lib BestFirst

/-- From node `a` at time `t`, the hops lead to node `b`: each starts when the one before it ends,
over an edge of the snapshot of its start that is visible then. -/
def Follows (topology : TopologyForecast) : NodeId → DateTime → List RoutedHop → NodeId → Prop
  | a, _, [], b => a = b
  | a, t, hop :: hops, b =>
    hop.useWindow.start = t ∧ hop.edge.endpoints.1 = a ∧
      hop.edge ∈ (topology.queryAt hop.useWindow.start).potentialEdges ∧
      hop.edge.visibilityWindow.contains hop.useWindow.start ∧
      Follows topology hop.edge.endpoints.2 hop.useWindow.end hops b

theorem IsWalk.follows {topology : TopologyForecast} {a b : NodeId} {t : DateTime}
    {edges : List PotentialEdge} (h : IsWalk topology a t edges b) :
    Follows topology a t (routedHops t edges) b := by
  induction edges generalizing a t with
  | nil => exact h
  | cons edge edges ih =>
    obtain ⟨hmem, hfrom, hvisible, hrest⟩ := h
    exact ⟨rfl, hfrom, hmem, hvisible, ih hrest⟩

/-- Hops over edges that another forecast has at the same times follow that one too. -/
theorem Follows.mono {topology other : TopologyForecast}
    (hedges : ∀ t, ∀ edge ∈ (topology.queryAt t).potentialEdges,
      edge ∈ (other.queryAt t).potentialEdges)
    {a b : NodeId} {t : DateTime} {hops : List RoutedHop} (h : Follows topology a t hops b) :
    Follows other a t hops b := by
  induction hops generalizing a t with
  | nil => exact h
  | cons hop hops ih =>
    obtain ⟨hstart, hfrom, hmem, hvisible, hrest⟩ := h
    exact ⟨hstart, hfrom, hedges _ _ hmem, hvisible, ih hrest⟩

namespace RouteQuery

/-- The route answers the query. -/
structure RespectedBy (query : RouteQuery) (route : Route) : Prop where
  follows : Follows query.topology query.source query.topology.horizonStart route.hops
    query.destination
  latency : ∀ maxLatency, query.constraints.maxLatency = some maxLatency →
    route.latency ≤ maxLatency

/-- The later query starts at the same time, sees every edge that the earlier one sees, and its
bound on the latency is no tighter. -/
structure Relaxes (later earlier : RouteQuery) : Prop where
  horizonStart : earlier.topology.horizonStart = later.topology.horizonStart
  edges : ∀ t, ∀ edge ∈ (earlier.topology.queryAt t).potentialEdges,
    edge ∈ (later.topology.queryAt t).potentialEdges
  maxLatency : ∀ later', later.constraints.maxLatency = some later' →
    ∃ earlier', earlier.constraints.maxLatency = some earlier' ∧ earlier' ≤ later'

theorem RespectedBy.of_relaxes {earlier later : RouteQuery} {route : Route}
    (h : earlier.RespectedBy route) (hkey : earlier.cacheKey = later.cacheKey)
    (hrelaxes : later.Relaxes earlier) : later.RespectedBy route := by
  obtain ⟨hsource, hrest⟩ := Prod.mk.inj hkey
  obtain ⟨hdestination, -⟩ := Prod.mk.inj hrest
  constructor
  · rw [← hsource, ← hdestination, ← hrelaxes.horizonStart]
    exact h.follows.mono hrelaxes.edges
  · intro later' hlater
    obtain ⟨earlier', hearlier, hle⟩ := hrelaxes.maxLatency later' hlater
    exact (h.latency earlier' hearlier).trans hle

end RouteQuery

namespace SpatiotemporalRouter

variable {heap : RouteHeap} {router : SpatiotemporalRouter} {query : RouteQuery}

/-- A query, answered with as much fuel as it takes. -/
def respond (heap : RouteHeap) (router : SpatiotemporalRouter) (query : RouteQuery) :
    SpatiotemporalRouter × Except RoutingError Route :=
  (router.computeRoute heap (Nat.find (computeRoute_ends heap router query)) query).get
    (Nat.find_spec (computeRoute_ends heap router query))

theorem respond_eq {fuel : ℕ} {result : SpatiotemporalRouter × Except RoutingError Route}
    (h : router.computeRoute heap fuel query = some result) :
    router.respond heap query = result := by
  have hle : Nat.find (computeRoute_ends heap router query) ≤ fuel :=
    Nat.find_min' _ (by rw [h]; rfl)
  have hrespond : router.computeRoute heap (Nat.find (computeRoute_ends heap router query)) query =
      some (router.respond heap query) := (Option.some_get _).symm
  exact Option.some.inj ((computeRoute_le hrespond hle).symm.trans h)

theorem respond_of_hit (heap : RouteHeap) {route : Route}
    (hhit : router.routeCache.stored? query.cacheKey = some route) :
    router.respond heap query =
      ({ router with routeCache := (router.routeCache.get query.cacheKey query.getTime).1 },
        .ok route) :=
  respond_eq (computeRoute_of_hit heap 0 hhit)

/-- A query that misses the cache gets what the search finds, which respects it. -/
theorem respond_of_miss (heap : RouteHeap)
    (hmiss : router.routeCache.stored? query.cacheKey = none) :
    ∃ result, router.respond heap query = router.answer query result ∧
      ∀ state, result = some state → query.RespectedBy (buildRoute state) ∧
        ∃ edges, state.hops = routedHops query.topology.horizonStart edges := by
  obtain ⟨fuel, hfuel⟩ := computeRoute_ends heap router query
  obtain ⟨response, hresponse⟩ := Option.isSome_iff_exists.mp hfuel
  rw [computeRoute_of_miss heap fuel hmiss] at hresponse
  obtain ⟨result, hsearch, rfl⟩ := Option.map_eq_some_iff.mp hresponse
  refine ⟨result, ?_, ?_⟩
  · exact respond_eq ((computeRoute_of_miss heap fuel hmiss).trans hresponse)
  · rintro state rfl
    obtain ⟨edges, ⟨hwalk, hwithin⟩, rfl⟩ :=
      reachable_accept_iff.mp (search_sound reachable_singleton hsearch)
    have hhops := RouteState.hops_walk (router.initialState query) edges
    rw [show (router.initialState query).hops = [] from rfl, List.nil_append] at hhops
    refine ⟨?_, edges, hhops⟩
    constructor
    · simp only [buildRoute, hhops]
      exact hwalk.follows
    · intro maxLatency hmax
      simp only [Route.latency, buildRoute, hhops, duration_routedHops]
      exact hwithin maxLatency hmax

end SpatiotemporalRouter

/-! ### Sequences of calls -/

/-- A router, and the query that each route of its cache was stored for. -/
structure RouterSession where
  router : SpatiotemporalRouter
  storedFor : RouteCacheKey → Option RouteQuery

namespace RouterSession

def new (costModel : CostModel) : RouterSession := ⟨.new costModel, fun _ => none⟩

def step (heap : RouteHeap) (session : RouterSession) (query : RouteQuery) : RouterSession :=
  let (router, answer) := session.router.respond heap query
  { router
    storedFor :=
      match session.router.routeCache.stored? query.cacheKey, answer with
      | none, .ok _ => Function.update session.storedFor query.cacheKey (some query)
      | _, _ => session.storedFor }

/-- The query misses the cache, or it relaxes the one that the cached route was stored for. -/
def Served (session : RouterSession) (query : RouteQuery) : Prop :=
  session.router.routeCache.stored? query.cacheKey = none ∨
    ∀ earlier, session.storedFor query.cacheKey = some earlier → query.Relaxes earlier

/-- An answer to the query respects it. -/
def Answers (heap : RouteHeap) (session : RouterSession) (query : RouteQuery) : Prop :=
  ∀ route, (session.router.respond heap query).2 = .ok route → query.RespectedBy route

/-- Every cached route respects the query that it was stored for, which has its key. -/
def Provenant (session : RouterSession) : Prop :=
  ∀ key route, session.router.routeCache.stored? key = some route →
    ∃ earlier, session.storedFor key = some earlier ∧ earlier.cacheKey = key ∧
      earlier.RespectedBy route

variable {heap : RouteHeap} {session : RouterSession} {query : RouteQuery}

theorem provenant_step (h : Provenant session) : Provenant (step heap session query) := by
  intro key route hstored
  cases hcached : session.router.routeCache.stored? query.cacheKey with
  | some cached =>
    have hrespond := SpatiotemporalRouter.respond_of_hit heap hcached
    simp only [step, hrespond, hcached, LruCache.stored?_get] at hstored ⊢
    exact h key route hstored
  | none =>
    obtain ⟨result, hrespond, hrespects⟩ :=
      SpatiotemporalRouter.respond_of_miss heap hcached
    cases result with
    | none =>
      simp only [step, hrespond, hcached, SpatiotemporalRouter.answer] at hstored ⊢
      exact h key route hstored
    | some state =>
      simp only [step, hrespond, hcached, SpatiotemporalRouter.answer] at hstored ⊢
      rcases LruCache.stored?_of_put hstored with ⟨rfl, rfl⟩ | ⟨hne, hold⟩
      · exact ⟨query, Function.update_self _ _ _, rfl, (hrespects state rfl).1⟩
      · rw [Function.update_of_ne hne]
        exact h key route hold

theorem answers_of_served (h : Provenant session) (hserved : Served session query) :
    Answers heap session query := by
  intro route hroute
  cases hcached : session.router.routeCache.stored? query.cacheKey with
  | some cached =>
    rw [SpatiotemporalRouter.respond_of_hit heap hcached, Except.ok.injEq] at hroute
    subst hroute
    obtain ⟨earlier, hfor, hkey, hrespects⟩ := h _ _ hcached
    rcases hserved with hmiss | hrelaxes
    · rw [hmiss] at hcached
      contradiction
    · exact hrespects.of_relaxes hkey (hrelaxes earlier hfor)
  | none =>
    obtain ⟨result, hrespond, hrespects⟩ :=
      SpatiotemporalRouter.respond_of_miss heap hcached
    rw [hrespond] at hroute
    cases result with
    | none => contradiction
    | some state =>
      rw [SpatiotemporalRouter.answer, Except.ok.injEq] at hroute
      exact hroute ▸ (hrespects state rfl).1

/-- In a run whose queries are served as `Served` says, every answer respects its query. -/
theorem answers_of_run (heap : RouteHeap) (costModel : CostModel) (queries : List RouteQuery)
    (hserved : Along (step heap) Served (new costModel) queries) :
    Along (step heap) (Answers heap) (new costModel) queries := by
  have hnew : Provenant (new costModel) := by
    intro key route hstored
    contradiction
  exact along_imp (fun _ _ h _ => provenant_step h) (fun _ _ => answers_of_served) hnew hserved

/-- What a query leaves stored was stored for it or for an earlier one. -/
theorem storedFor_of_step {key : RouteCacheKey} {earlier : RouteQuery}
    (h : (step heap session query).storedFor key = some earlier) :
    earlier = query ∨ session.storedFor key = some earlier := by
  cases hcached : session.router.routeCache.stored? query.cacheKey with
  | some cached =>
    simp only [step, hcached] at h
    exact .inr h
  | none =>
    cases hrespond : session.router.respond heap query with
    | mk router answer =>
      simp only [step, hcached, hrespond] at h
      cases answer with
      | error error => exact .inr h
      | ok route =>
        simp only [Function.update_apply] at h
        split at h
        · exact .inl (Option.some.inj h).symm
        · exact .inr h

open SpatiotemporalRouter in
/-- A bound of one minute relaxes one of half a minute. -/
theorem answers_relayQuery : Along (step (.scan _)) (Answers (.scan _)) (new .default)
    [relayQuery relayForecast (some (Duration.seconds 30)),
      relayQuery relayForecast (some (Duration.seconds 60))] := by
  refine answers_of_run (.scan _) .default _ ⟨.inl rfl, .inr fun earlier hearlier => ?_, trivial⟩
  rcases storedFor_of_step hearlier with rfl | hnone
  · refine ⟨rfl, fun _ _ h => h, fun later' hlater => ⟨_, rfl, ?_⟩⟩
    rw [← Option.some.inj hlater]
    decide
  · contradiction

/-- The latency of the answer to the second of two queries. -/
theorem latency_second {first second : RouteQuery} {latency : Duration} (fuel : ℕ)
    (h : ((session.router.computeRoute heap fuel first).bind fun response =>
      (response.1.computeRoute heap fuel second).bind fun response =>
        response.2.toOption.map Route.latency) = some latency) :
    ∃ route, ((step heap session first).router.respond heap second).2 = .ok route ∧
      route.latency = latency := by
  obtain ⟨⟨router, answer⟩, hfirst, h⟩ := Option.bind_eq_some_iff.mp h
  obtain ⟨⟨router', answer'⟩, hsecond, h⟩ := Option.bind_eq_some_iff.mp h
  obtain ⟨route, hroute, hlatency⟩ := Option.map_eq_some_iff.mp h
  have hstep : (step heap session first).router = router :=
    congrArg Prod.fst (SpatiotemporalRouter.respond_eq hfirst)
  refine ⟨route, ?_, hlatency⟩
  rw [hstep, SpatiotemporalRouter.respond_eq hsecond]
  cases answer' with
  | error error => contradiction
  | ok route' => exact congrArg Except.ok (Option.some.inj hroute)

open SpatiotemporalRouter in
/-- The route that was found without a bound is answered to a query whose bound it exceeds. -/
theorem tighter_bound_not_respected : ¬ ∀ heap costModel queries,
    Along (step heap) (Answers heap) (new costModel) queries := by
  intro hall
  obtain ⟨route, hroute, hlatency⟩ : ∃ route,
      ((step (.scan _) (new .default) (relayQuery relayForecast none)).router.respond (.scan _)
        (relayQuery relayForecast (some (Duration.seconds 30)))).2 = .ok route ∧
      route.latency = Duration.seconds 60 :=
    latency_second 10 (by decide +kernel)
  have hanswers := (hall (.scan _) .default [relayQuery relayForecast none,
    relayQuery relayForecast (some (Duration.seconds 30))]).2.1
  have hle := (hanswers route hroute).latency (Duration.seconds 30) rfl
  rw [hlatency] at hle
  exact absurd hle (by decide)

end RouterSession

end GroundCore.Oisl.Topology

/-! The times of a router's answers.  Whatever the queries were, the hops of an answer take half a
minute each, one after another, and the bandwidth of each is given for its window. -/

namespace GroundCore.Oisl.Topology

open Caching Lib

def Route.Timed (route : Route) : Prop := ∃ t edges, route.hops = routedHops t edges

theorem getElem?_routedHops {t : DateTime} {edges : List PotentialEdge} {i : ℕ} {hop : RoutedHop}
    (h : (routedHops t edges)[i]? = some hop) :
    hop.useWindow = ⟨t + i * hopDuration, t + i * hopDuration + hopDuration⟩ ∧
      hop.bandwidthReservation.validWindow = hop.useWindow := by
  induction edges generalizing t i with
  | nil => contradiction
  | cons edge edges ih =>
    cases i with
    | zero =>
      obtain rfl : routedHop t edge = hop := Option.some.inj h
      simp [routedHop, TimeWindow.new]
    | succ i =>
      obtain ⟨hwindow, hvalid⟩ := ih h
      refine ⟨hwindow.trans ?_, hvalid⟩
      have hstart : t + hopDuration + i * hopDuration = t + ((i + 1 : ℕ) : ℤ) * hopDuration := by
        push_cast
        ring
      rw [hstart]

namespace SpatiotemporalRouter

/-- The router after a query. -/
def ask (heap : RouteHeap) (router : SpatiotemporalRouter) (query : RouteQuery) :
    SpatiotemporalRouter := (router.respond heap query).1

def AllTimed (router : SpatiotemporalRouter) : Prop :=
  ∀ key route, router.routeCache.stored? key = some route → route.Timed

variable {heap : RouteHeap} {router : SpatiotemporalRouter} {query : RouteQuery}

theorem AllTimed.respond (h : router.AllTimed) :
    (router.ask heap query).AllTimed ∧
      ∀ route, (router.respond heap query).2 = .ok route → route.Timed := by
  unfold ask
  cases hcached : router.routeCache.stored? query.cacheKey with
  | some cached =>
    rw [respond_of_hit heap hcached]
    refine ⟨fun key route hstored => h key route (by simpa using hstored), ?_⟩
    rintro _ ⟨⟩
    exact h _ _ hcached
  | none =>
    obtain ⟨result, hrespond, hfound⟩ := respond_of_miss heap hcached
    rw [hrespond]
    cases result with
    | none =>
      refine ⟨h, ?_⟩
      rintro _ ⟨⟩
    | some state =>
      obtain ⟨-, edges, hhops⟩ := hfound state rfl
      refine ⟨fun key route hstored => ?_, ?_⟩
      · rcases LruCache.stored?_of_put hstored with ⟨-, rfl⟩ | ⟨-, hold⟩
        · exact ⟨_, edges, hhops⟩
        · exact h key route hold
      · rintro _ ⟨⟩
        exact ⟨_, edges, hhops⟩

theorem allTimed_of_run (heap : RouteHeap) (costModel : CostModel) (queries : List RouteQuery) :
    (run (ask heap) (new costModel) queries).AllTimed :=
  run_preserves (fun _ _ h => h.respond.1) (fun _ _ hstored => nomatch hstored) queries

end SpatiotemporalRouter

end GroundCore.Oisl.Topology
