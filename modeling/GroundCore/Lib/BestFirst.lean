import Mathlib.Data.Finset.Card
import Mathlib.Data.List.MinMax
import Mathlib.Order.Basic

/-! Best-first search over a graph that is discovered on the fly.  States are taken from a queue in
the order of their costs; a state is expanded if no state with its key has been before, and the
search ends at the first one that is accepted.  Two states with one key may differ in cost, and in
whatever else a state carries. -/

namespace GroundCore.Lib

/-- A priority queue that keeps its elements in a list. -/
structure MinQueue {σ C : Type} [LE C] (cost : σ → C) where
  push : List σ → σ → List σ
  pop : List σ → Option (σ × List σ)
  push_perm : ∀ l a, (push l a).Perm (a :: l)
  eq_nil_of_pop : ∀ l, pop l = none → l = []
  pop_perm : ∀ l a rest, pop l = some (a, rest) → l.Perm (a :: rest)
  pop_le : ∀ l a rest, pop l = some (a, rest) → ∀ b ∈ rest, cost a ≤ cost b

/-- The queue that looks through its list for the first element of least cost. -/
def MinQueue.scan {σ C : Type} [DecidableEq σ] [LinearOrder C] (cost : σ → C) : MinQueue cost where
  push l a := a :: l
  pop l := (l.argmin cost).map fun a => (a, l.erase a)
  push_perm l a := List.Perm.refl (a :: l)
  eq_nil_of_pop l h := List.argmin_eq_none.mp (Option.map_eq_none_iff.mp h)
  pop_perm l a rest h := by
    obtain ⟨b, hb, heq⟩ := Option.map_eq_some_iff.mp h
    obtain ⟨rfl, rfl⟩ := Prod.mk.inj heq
    exact List.perm_cons_erase (List.argmin_mem hb)
  pop_le l a rest h b hmem := by
    obtain ⟨c, hc, heq⟩ := Option.map_eq_some_iff.mp h
    obtain ⟨rfl, rfl⟩ := Prod.mk.inj heq
    exact List.le_of_mem_argmin (List.mem_of_mem_erase hmem) hc

theorem MinQueue.mem_of_pop {σ C : Type} [LE C] {cost : σ → C} (queue : MinQueue cost)
    {heap rest : List σ} {s : σ} (h : queue.pop heap = some (s, rest)) :
    s ∈ heap ∧ ∀ u ∈ rest, u ∈ heap := by
  have hperm := queue.pop_perm heap s rest h
  exact ⟨hperm.mem_iff.mpr List.mem_cons_self,
    fun u hu => hperm.mem_iff.mpr (List.mem_cons_of_mem s hu)⟩

namespace BestFirst

variable {σ κ C : Type}

/-- What is searched: a state of a key is accepted or expanded. -/
structure Problem (σ κ : Type) where
  key : σ → κ
  accept : σ → Bool
  expand : σ → List σ

/-- The states that can be reached from `init`. -/
inductive Reachable (p : Problem σ κ) (init : σ) : σ → Prop
  | init : Reachable p init init
  | step {s t : σ} (hs : Reachable p init s) (ht : t ∈ p.expand s) : Reachable p init t

/-- The search starts with a queue of reachable states. -/
theorem reachable_singleton {p : Problem σ κ} {init : σ} : ∀ s ∈ [init], Reachable p init s := by
  intro s hs
  rw [List.mem_singleton.mp hs]
  exact .init

section Search

variable [DecidableEq κ] [LE C] {cost : σ → C}

/-- The search with the keys visited so far: the state that is accepted, or none when the queue is
empty.  The result is `none` if it takes more than `fuel` states from the queue. -/
def search (queue : MinQueue cost) (p : Problem σ κ) : ℕ → List κ → List σ → Option (Option σ)
  | 0, _, _ => none
  | fuel + 1, visited, heap =>
    match queue.pop heap with
    | none => some none
    | some (s, heap) =>
      if p.key s ∈ visited then search queue p fuel visited heap
      else if p.accept s then some (some s)
      else search queue p fuel (p.key s :: visited) ((p.expand s).foldl queue.push heap)

variable {queue : MinQueue cost} {p : Problem σ κ} {init : σ}

theorem foldl_push_perm (queue : MinQueue cost) (l heap : List σ) :
    (l.foldl queue.push heap).Perm (l ++ heap) := by
  induction l generalizing heap with
  | nil => exact List.Perm.refl _
  | cons a l ih =>
    exact (ih _).trans (((queue.push_perm heap a).append_left l).trans List.perm_middle)

theorem mem_foldl_push {queue : MinQueue cost} {l heap : List σ} {a : σ} :
    a ∈ l.foldl queue.push heap ↔ a ∈ l ∨ a ∈ heap := by
  rw [(foldl_push_perm queue l heap).mem_iff, List.mem_append]

omit [DecidableEq κ] in
/-- The expansion of a reachable state is reachable. -/
theorem Reachable.forall_mem_push (queue : MinQueue cost) {s : σ} {rest : List σ}
    (hs : Reachable p init s) (hrest : ∀ u ∈ rest, Reachable p init u) :
    ∀ u ∈ (p.expand s).foldl queue.push rest, Reachable p init u := by
  intro u hu
  rcases mem_foldl_push.mp hu with hnew | hold
  · exact hs.step hnew
  · exact hrest u hold

/-- A search that ends takes no more fuel to end in the same way. -/
theorem search_le {fuel more : ℕ} {visited : List κ} {heap : List σ} {result : Option σ}
    (h : search queue p fuel visited heap = some result) (hle : fuel ≤ more) :
    search queue p more visited heap = some result := by
  induction fuel generalizing more visited heap with
  | zero => contradiction
  | succ fuel ih =>
    cases more with
    | zero => omega
    | succ more =>
      have hmore : fuel ≤ more := by omega
      unfold search at h ⊢
      cases hpop : queue.pop heap with
      | none => simpa [hpop] using h
      | some top =>
        obtain ⟨s, rest⟩ := top
        simp only [hpop] at h ⊢
        by_cases hvisited : p.key s ∈ visited
        · rw [if_pos hvisited] at h ⊢
          exact ih h hmore
        · rw [if_neg hvisited] at h ⊢
          by_cases haccept : p.accept s
          · rwa [if_pos haccept] at h ⊢
          · rw [if_neg haccept] at h ⊢
            exact ih h hmore

/-- What the search returns has been reached and accepted. -/
theorem search_sound {fuel : ℕ} {visited : List κ} {heap : List σ} {s : σ}
    (hheap : ∀ t ∈ heap, Reachable p init t)
    (h : search queue p fuel visited heap = some (some s)) :
    Reachable p init s ∧ p.accept s := by
  induction fuel generalizing visited heap with
  | zero => contradiction
  | succ fuel ih =>
    unfold search at h
    cases hpop : queue.pop heap with
    | none => simp [hpop] at h
    | some top =>
      obtain ⟨t, rest⟩ := top
      obtain ⟨hmem, hmemRest⟩ := queue.mem_of_pop hpop
      have ht := hheap t hmem
      have hrest : ∀ u ∈ rest, Reachable p init u := fun u hu => hheap u (hmemRest u hu)
      simp only [hpop] at h
      by_cases hvisited : p.key t ∈ visited
      · rw [if_pos hvisited] at h
        exact ih hrest h
      · rw [if_neg hvisited] at h
        by_cases haccept : p.accept t
        · rw [if_pos haccept, Option.some.injEq, Option.some.injEq] at h
          exact h ▸ ⟨ht, haccept⟩
        · rw [if_neg haccept] at h
          exact ih (ht.forall_mem_push queue hrest) h

/-- The search ends if the reachable keys are finitely many: each turn visits a new key, or it
leaves the queue shorter. -/
theorem search_terminates {keys : Finset κ} (hkeys : ∀ s, Reachable p init s → p.key s ∈ keys)
    {visited : List κ} {heap : List σ} (hheap : ∀ t ∈ heap, Reachable p init t) :
    ∃ fuel result, search queue p fuel visited heap = some result := by
  induction hn : (keys.filter (· ∉ visited)).card using Nat.strong_induction_on
    generalizing visited heap with
  | _ n ihkeys =>
    induction hlen : heap.length generalizing heap with
    | zero =>
      refine ⟨1, none, ?_⟩
      unfold search
      cases hpop : queue.pop heap with
      | none => rfl
      | some top =>
        have hlength := (queue.pop_perm heap _ _ hpop).length_eq
        simp [hlen] at hlength
    | succ len ihheap =>
      cases hpop : queue.pop heap with
      | none => exact ⟨1, none, by simp [search, hpop]⟩
      | some top =>
        obtain ⟨t, rest⟩ := top
        obtain ⟨hmem, hmemRest⟩ := queue.mem_of_pop hpop
        have ht := hheap t hmem
        have hrest : ∀ u ∈ rest, Reachable p init u := fun u hu => hheap u (hmemRest u hu)
        have hlength : rest.length = len := by
          have := (queue.pop_perm heap t rest hpop).length_eq
          simp only [List.length_cons] at this
          omega
        by_cases hvisited : p.key t ∈ visited
        · obtain ⟨fuel, result, hrun⟩ := ihheap hrest hlength
          exact ⟨fuel + 1, result, by simpa [search, hpop, hvisited] using hrun⟩
        by_cases haccept : p.accept t
        · exact ⟨1, some t, by simp [search, hpop, hvisited, haccept]⟩
        -- the key of the expanded state is no longer among those to visit
        have hfewer : (keys.filter (· ∉ p.key t :: visited)).card < n := by
          rw [← hn]
          refine Finset.card_lt_card (Finset.ssubset_iff_of_subset ?_ |>.mpr ⟨p.key t, ?_, ?_⟩)
          · intro key hkey
            rw [Finset.mem_filter] at hkey ⊢
            exact ⟨hkey.1, fun hmem => hkey.2 (List.mem_cons_of_mem _ hmem)⟩
          · exact Finset.mem_filter.mpr ⟨hkeys t ht, hvisited⟩
          · simp
        obtain ⟨fuel, result, hrun⟩ := ihkeys _ hfewer (ht.forall_mem_push queue hrest) rfl
        exact ⟨fuel + 1, result, by simpa [search, hpop, hvisited, haccept] using hrun⟩

end Search

/-! ### Least cost -/

section Least

variable [Preorder C] {cost : σ → C} {queue : MinQueue cost} {p : Problem σ κ} {init : σ}

/-- What makes the first state of a key that is taken from the queue stand for the others: costs do
not fall along the edges, and the state of a key that costs less can do all that another can. -/
structure Consistent (cost : σ → C) (p : Problem σ κ) (init : σ) : Prop where
  mono : ∀ s, Reachable p init s → ∀ t ∈ p.expand s, cost s ≤ cost t
  accept_eq : ∀ s t, Reachable p init s → Reachable p init t → p.key s = p.key t →
    p.accept s = p.accept t
  expand_le : ∀ s t, Reachable p init s → Reachable p init t → p.key s = p.key t →
    cost s ≤ cost t → ∀ t' ∈ p.expand t, ∃ s' ∈ p.expand s, p.key s' = p.key t' ∧ cost s' ≤ cost t'

/-- A state of the list has the key of `t` and costs no more. -/
def Covers (cost : σ → C) (p : Problem σ κ) (l : List σ) (t : σ) : Prop :=
  ∃ s ∈ l, p.key s = p.key t ∧ cost s ≤ cost t

/-- The invariant of the search with the expanded states `done`. -/
structure Invariant (cost : σ → C) (p : Problem σ κ) (init : σ) (done heap : List σ) : Prop where
  reachable : ∀ s ∈ done ++ heap, Reachable p init s
  rejected : ∀ s ∈ done, p.accept s = false
  init : Covers cost p (done ++ heap) init
  closed : ∀ s ∈ done, ∀ t ∈ p.expand s, Covers cost p (done ++ heap) t
  le : ∀ s ∈ done, ∀ t ∈ heap, cost s ≤ cost t

/-- Every reachable state is covered by an expanded one, or it costs at least as much as some state
of the queue. -/
theorem Invariant.covers (hp : Consistent cost p init) {done heap : List σ}
    (h : Invariant cost p init done heap) {t : σ} (ht : Reachable p init t) :
    Covers cost p done t ∨ ∃ s ∈ heap, cost s ≤ cost t := by
  have hsplit : ∀ u, Covers cost p (done ++ heap) u →
      Covers cost p done u ∨ ∃ s ∈ heap, cost s ≤ cost u := by
    rintro u ⟨s, hs, hkey, hle⟩
    rcases List.mem_append.mp hs with hdone | hheap
    · exact .inl ⟨s, hdone, hkey, hle⟩
    · exact .inr ⟨s, hheap, hle⟩
  induction ht with
  | init => exact hsplit init h.init
  | @step t t' ht hmem ih =>
    rcases ih with ⟨s, hs, hkey, hle⟩ | ⟨s, hs, hle⟩
    · have hsreach := h.reachable s (List.mem_append_left _ hs)
      obtain ⟨s', hs', hkey', hle'⟩ := hp.expand_le s t hsreach ht hkey hle t' hmem
      rcases hsplit s' (h.closed s hs s' hs') with ⟨u, hu, hukey, hule⟩ | ⟨u, hu, hule⟩
      · exact .inl ⟨u, hu, hukey.trans hkey', hule.trans hle'⟩
      · exact .inr ⟨u, hu, hule.trans hle'⟩
    · exact .inr ⟨s, hs, hle.trans (hp.mono t ht t' hmem)⟩

/-- A state taken from the queue whose key has been visited changes nothing. -/
theorem Invariant.skip {done heap rest : List σ} {s : σ} (h : Invariant cost p init done heap)
    (hpop : queue.pop heap = some (s, rest)) (hvisited : p.key s ∈ done.map p.key) :
    Invariant cost p init done rest := by
  have hperm := queue.pop_perm heap s rest hpop
  obtain ⟨v, hv, hkey⟩ := List.mem_map.mp hvisited
  obtain ⟨-, hmem⟩ := queue.mem_of_pop hpop
  have hcovers : ∀ t, Covers cost p (done ++ heap) t → Covers cost p (done ++ rest) t := by
    rintro t ⟨u, hu, hukey, hule⟩
    rcases List.mem_append.mp hu with hdone | hheap
    · exact ⟨u, List.mem_append_left _ hdone, hukey, hule⟩
    · rcases List.mem_cons.mp (hperm.mem_iff.mp hheap) with rfl | hrest
      · exact ⟨v, List.mem_append_left _ hv, hkey.trans hukey, (h.le v hv u hheap).trans hule⟩
      · exact ⟨u, List.mem_append_right _ hrest, hukey, hule⟩
  constructor
  · intro u hu
    rcases List.mem_append.mp hu with hdone | hrest
    · exact h.reachable u (List.mem_append_left _ hdone)
    · exact h.reachable u (List.mem_append_right _ (hmem u hrest))
  · exact h.rejected
  · exact hcovers init h.init
  · exact fun u hu t ht => hcovers t (h.closed u hu t ht)
  · exact fun u hu t ht => h.le u hu t (hmem t ht)

theorem Invariant.expand (hp : Consistent cost p init) {done heap rest : List σ} {s : σ}
    (h : Invariant cost p init done heap) (hpop : queue.pop heap = some (s, rest))
    (hreject : p.accept s = false) :
    Invariant cost p init (s :: done) ((p.expand s).foldl queue.push rest) := by
  have hperm := queue.pop_perm heap s rest hpop
  obtain ⟨hs, hmem⟩ := queue.mem_of_pop hpop
  have hreach := h.reachable s (List.mem_append_right _ hs)
  have hcovers : ∀ t, Covers cost p (done ++ heap) t →
      Covers cost p (s :: done ++ (p.expand s).foldl queue.push rest) t := by
    rintro t ⟨u, hu, hukey, hule⟩
    refine ⟨u, ?_, hukey, hule⟩
    rcases List.mem_append.mp hu with hdone | hheap
    · simp [hdone]
    · rcases List.mem_cons.mp (hperm.mem_iff.mp hheap) with rfl | hrest
      · simp
      · exact List.mem_append_right _ (mem_foldl_push.mpr (.inr hrest))
  constructor
  · intro u hu
    rcases List.mem_append.mp hu with hdone | hheap
    · rcases List.mem_cons.mp hdone with rfl | hold
      · exact hreach
      · exact h.reachable u (List.mem_append_left _ hold)
    · exact hreach.forall_mem_push queue
        (fun v hv => h.reachable v (List.mem_append_right _ (hmem v hv))) u hheap
  · exact List.forall_mem_cons.mpr ⟨hreject, h.rejected⟩
  · exact hcovers init h.init
  · refine List.forall_mem_cons.mpr ⟨fun t ht => ?_, fun u hu t ht => hcovers t (h.closed u hu t ht)⟩
    exact ⟨t, List.mem_append_right _ (mem_foldl_push.mpr (.inl ht)), rfl, le_rfl⟩
  · intro u hu t ht
    have hbelow : cost u ≤ cost s := by
      rcases List.mem_cons.mp hu with rfl | hold
      · exact le_rfl
      · exact h.le u hold s hs
    rcases mem_foldl_push.mp ht with hnew | hold
    · exact hbelow.trans (hp.mono s hreach t hnew)
    · exact hbelow.trans (queue.pop_le heap s rest hpop t hold)

variable [DecidableEq κ]

/-- A state of least cost among the accepted ones, or the fact that none is accepted. -/
def Least (cost : σ → C) (p : Problem σ κ) (init : σ) : Option σ → Prop
  | some s => Reachable p init s ∧ p.accept s ∧
      ∀ t, Reachable p init t → p.accept t → cost s ≤ cost t
  | none => ∀ t, Reachable p init t → p.accept t = false

theorem Invariant.least (hp : Consistent cost p init) {done heap : List σ}
    (h : Invariant cost p init done heap) {fuel : ℕ} {result : Option σ}
    (hrun : search queue p fuel (done.map p.key) heap = some result) :
    Least cost p init result := by
  -- a covered state is rejected like the state that covers it
  have hcovered : ∀ {done heap}, Invariant cost p init done heap → ∀ {t}, Reachable p init t →
      Covers cost p done t → p.accept t = false := by
    rintro done heap h t ht ⟨s, hs, hkey, -⟩
    rw [← hp.accept_eq s t (h.reachable s (List.mem_append_left _ hs)) ht hkey]
    exact h.rejected s hs
  induction fuel generalizing done heap with
  | zero => contradiction
  | succ fuel ih =>
    unfold search at hrun
    cases hpop : queue.pop heap with
    | none =>
      simp only [hpop, Option.some.injEq] at hrun
      subst hrun
      intro t ht
      rcases h.covers hp ht with hcov | ⟨s, hs, -⟩
      · exact hcovered h ht hcov
      · rw [queue.eq_nil_of_pop heap hpop] at hs
        contradiction
    | some top =>
      obtain ⟨s, rest⟩ := top
      have hperm := queue.pop_perm heap s rest hpop
      simp only [hpop] at hrun
      by_cases hvisited : p.key s ∈ done.map p.key
      · rw [if_pos hvisited] at hrun
        exact ih (h.skip hpop hvisited) hrun
      · rw [if_neg hvisited] at hrun
        cases haccept : p.accept s with
        | true =>
          simp only [haccept, if_true, Option.some.injEq] at hrun
          subst hrun
          refine ⟨h.reachable s (List.mem_append_right _ (hperm.mem_iff.mpr (by simp))), haccept, ?_⟩
          intro t ht hacc
          rcases h.covers hp ht with hcov | ⟨u, hu, hle⟩
          · rw [hcovered h ht hcov] at hacc
            contradiction
          · rcases List.mem_cons.mp (hperm.mem_iff.mp hu) with rfl | hrest
            · exact hle
            · exact (queue.pop_le heap s rest hpop u hrest).trans hle
        | false =>
          simp only [haccept, Bool.false_eq_true, if_false] at hrun
          exact ih (h.expand hp hpop haccept) hrun

/-- The search from `init` finds an accepted state of least cost, or shows that there is none. -/
theorem search_least (hp : Consistent cost p init) {fuel : ℕ} {result : Option σ}
    (hrun : search queue p fuel [] [init] = some result) : Least cost p init result := by
  have hinit : Invariant cost p init [] [init] := by
    constructor
    · exact reachable_singleton
    · simp
    · exact ⟨init, by simp, rfl, le_rfl⟩
    · simp
    · simp
  exact hinit.least hp hrun

end Least

end BestFirst

end GroundCore.Lib
