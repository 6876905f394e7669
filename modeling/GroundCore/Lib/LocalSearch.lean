import Mathlib.Logic.Relation
import Mathlib.Order.Lattice

/-! Local search: from the current solution to a neighbour, with the best solution met so far kept
apart.  When a neighbour that beats the best is always taken, the best is a greatest one of the
first solution and all neighbours, whatever else is taken; and what no move breaks holds of every
solution of the search.  A descent only ever moves to something better, and stops at the turn after
one that finds nothing. -/

namespace GroundCore.Lib.LocalSearch

variable {σ ι β : Type*} [LinearOrder β]

structure State (σ β : Type*) where
  current : σ
  best : σ
  bestScore : β

/-- The start of a search. -/
def start (score : σ → β) (x : σ) : State σ β := ⟨x, x, score x⟩

/-- What a search may do with a neighbour `n`: take it as the best, take it as the current
solution, or leave it. -/
inductive Step (score : σ → β) (s : State σ β) (n : σ) : State σ β → Prop
  | improve (h : s.bestScore < score n) : Step score s n ⟨n, n, score n⟩
  | move (h : score n ≤ s.bestScore) : Step score s n ⟨n, s.best, s.bestScore⟩
  | stay (h : score n ≤ s.bestScore) : Step score s n s

/-- A search with the moves `is`, which meets the neighbours `ns`. -/
inductive Search (neighbour : ι → σ → σ) (score : σ → β) :
    State σ β → List ι → List σ → State σ β → Prop
  | nil (s : State σ β) : Search neighbour score s [] [] s
  | cons {s s' s'' : State σ β} {i : ι} {is : List ι} {ns : List σ}
      (hstep : Step score s (neighbour i s.current) s')
      (hrest : Search neighbour score s' is ns s'') :
      Search neighbour score s (i :: is) (neighbour i s.current :: ns) s''

variable {neighbour : ι → σ → σ} {score : σ → β} {s s' : State σ β} {is : List ι} {ns : List σ}

theorem Search.bestScore_eq (h : Search neighbour score s is ns s')
    (hs : s.bestScore = score s.best) : s'.bestScore = score s'.best := by
  induction h with
  | nil => exact hs
  | cons hstep hrest ih =>
    apply ih
    cases hstep with
    | improve => rfl
    | move => exact hs
    | stay => exact hs

theorem Step.le {n : σ} (h : Step score s n s') : s.bestScore ≤ s'.bestScore ∧
    score n ≤ s'.bestScore := by
  cases h with
  | improve h => exact ⟨h.le, le_refl _⟩
  | move h => exact ⟨le_refl _, h⟩
  | stay h => exact ⟨le_refl _, h⟩

/-- The best score only grows, and no neighbour has a greater one. -/
theorem Search.le (h : Search neighbour score s is ns s') :
    s.bestScore ≤ s'.bestScore ∧ ∀ n ∈ ns, score n ≤ s'.bestScore := by
  induction h with
  | nil => exact ⟨le_refl _, fun _ hmem => absurd hmem List.not_mem_nil⟩
  | cons hstep hrest ih =>
    obtain ⟨hgrow, hn⟩ := hstep.le
    refine ⟨hgrow.trans ih.1, fun n hmem => ?_⟩
    rcases List.mem_cons.mp hmem with rfl | hmem
    · exact hn.trans ih.1
    · exact ih.2 n hmem

/-- The best solution is the one at the start or one of the neighbours. -/
theorem Search.best_mem (h : Search neighbour score s is ns s') : s'.best ∈ s.best :: ns := by
  induction h with
  | nil => exact List.mem_cons_self
  | @cons s s' s'' i is ns hstep hrest ih =>
    rcases List.mem_cons.mp ih with heq | hmem
    · rw [heq]
      cases hstep with
      | improve => exact List.mem_cons_of_mem _ List.mem_cons_self
      | move => exact List.mem_cons_self
      | stay => exact List.mem_cons_self
    · exact List.mem_cons_of_mem _ (List.mem_cons_of_mem _ hmem)

/-- A search from a start ends with a solution of the greatest score. -/
theorem Search.best_greatest {x : σ} (h : Search neighbour score (start score x) is ns s') :
    s'.best ∈ x :: ns ∧ ∀ n ∈ x :: ns, score n ≤ score s'.best := by
  obtain ⟨hgrow, hall⟩ := h.le
  rw [h.bestScore_eq rfl] at hgrow hall
  refine ⟨h.best_mem, fun n hmem => ?_⟩
  rcases List.mem_cons.mp hmem with rfl | hmem
  · exact hgrow
  · exact hall n hmem

/-- What the moves of a search keep holds of its current and its best solution. -/
theorem Search.invariant {P : σ → Prop} (h : Search neighbour score s is ns s')
    (hmove : ∀ i ∈ is, ∀ x, P x → P (neighbour i x)) (hcurrent : P s.current) (hbest : P s.best) :
    P s'.current ∧ P s'.best := by
  induction h with
  | nil => exact ⟨hcurrent, hbest⟩
  | @cons s s' s'' i is ns hstep hrest ih =>
    have hn := hmove i List.mem_cons_self s.current hcurrent
    have hmoves := fun j hj => hmove j (List.mem_cons_of_mem i hj)
    cases hstep with
    | improve => exact ih hmoves hn hn
    | move => exact ih hmoves hn hbest
    | stay => exact ih hmoves hcurrent hbest

/-! ### Descent -/

/-- The solution after at most so many turns, each of which looks for something better as long as
the one before it has found something, and the turns that are left when the loop stops before. -/
def descend (next : σ → Option σ) : ℕ → Bool → σ → σ × ℕ
  | 0, _, s => (s, 0)
  | n + 1, false, s => (s, n + 1)
  | n + 1, true, s =>
    match next s with
    | some t => descend next n true t
    | none => descend next n false s

variable {next : σ → Option σ} {improved : Bool} {n : ℕ} {x : σ}

/-- A descent gets from a solution to a better one and from there to the next. -/
theorem descend_reaches (next : σ → Option σ) (n : ℕ) (improved : Bool) (x : σ) :
    Relation.ReflTransGen (fun x y => next x = some y) x (descend next n improved x).1 := by
  induction n generalizing improved x with
  | zero => exact .refl
  | succ n ih =>
    cases improved with
    | false => exact .refl
    | true =>
      unfold descend
      cases hnext : next x with
      | none => exact ih false x
      | some y => exact .head hnext (ih true y)

/-- A descent that stops before its turns are over has found nothing better. -/
theorem next_descend (hflag : improved = false → next x = none)
    (hleft : 0 < (descend next n improved x).2) :
    next (descend next n improved x).1 = none := by
  induction n generalizing improved x with
  | zero => exact absurd hleft (Nat.lt_irrefl 0)
  | succ n ih =>
    cases improved with
    | false => exact hflag rfl
    | true =>
      unfold descend at hleft ⊢
      cases hnext : next x with
      | none =>
        rw [hnext] at hleft
        exact ih (fun _ => hnext) hleft
      | some y =>
        rw [hnext] at hleft
        exact ih (fun h => absurd h (by simp)) hleft

end GroundCore.Lib.LocalSearch
