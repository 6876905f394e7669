import Mathlib.Data.Fintype.Card
import Mathlib.Data.List.Basic
import Mathlib.Data.Set.Finite.List
import Mathlib.Logic.Relation
import Mathlib.Order.WellFounded

/-! A queue whose items are handled as they come to its front.  An item is placed, or goes back to
the end of the queue until others are placed, or ends the work with an error. -/

namespace GroundCore.Lib

/-- What becomes of the item at the front of the queue. -/
inductive Turn (σ ε : Type)
  | requeued
  | placed (s : σ)
  | failed (e : ε)

variable {σ α ε : Type}

/-- The queue is worked off, from the state `s`; `none` if that takes more than `fuel` turns. -/
def drain (handle : σ → α → Turn σ ε) : ℕ → σ → List α → Option (σ × List α × Except ε Unit)
  | 0, _, _ => none
  | _ + 1, s, [] => some (s, [], .ok ())
  | fuel + 1, s, a :: queue =>
    match handle s a with
    | .requeued => drain handle fuel s (queue ++ [a])
    | .placed s' => drain handle fuel s' queue
    | .failed e => some (s, queue, .error e)

/-- One turn after another, none of which fails, leads from a state and a queue to others. -/
inductive Leads (handle : σ → α → Turn σ ε) : σ → List α → σ → List α → Prop
  | refl (s : σ) (queue : List α) : Leads handle s queue s queue
  | requeue {s s' : σ} {a : α} {queue queue' : List α} (hturn : handle s a = .requeued)
      (hrest : Leads handle s (queue ++ [a]) s' queue') : Leads handle s (a :: queue) s' queue'
  | place {s t s' : σ} {a : α} {queue queue' : List α} (hturn : handle s a = .placed t)
      (hrest : Leads handle t queue s' queue') : Leads handle s (a :: queue) s' queue'

/-- Every item waits for others. -/
def Stuck (handle : σ → α → Turn σ ε) (s : σ) (queue : List α) : Prop :=
  queue ≠ [] ∧ ∀ a ∈ queue, handle s a = .requeued

variable {handle : σ → α → Turn σ ε} {s s' t : σ} {queue queue' : List α} {fuel : ℕ}

theorem Leads.trans {queue₁ queue₂ : List α} (h : Leads handle s queue t queue₁)
    (h' : Leads handle t queue₁ s' queue₂) : Leads handle s queue s' queue₂ := by
  induction h with
  | refl => exact h'
  | requeue hturn _ ih => exact .requeue hturn (ih h')
  | place hturn _ ih => exact .place hturn (ih h')

/-- What every turn that does not fail preserves, holds wherever they lead. -/
theorem Leads.invariant {I : σ → List α → Prop} (h : Leads handle s queue s' queue')
    (hrequeue : ∀ s a queue, handle s a = .requeued → I s (a :: queue) → I s (queue ++ [a]))
    (hplace : ∀ s t a queue, handle s a = .placed t → I s (a :: queue) → I t queue)
    (hI : I s queue) : I s' queue' := by
  induction h with
  | refl => exact hI
  | requeue hturn _ ih => exact ih (hrequeue _ _ _ hturn hI)
  | place hturn _ ih => exact ih (hplace _ _ _ _ hturn hI)

theorem leads_nil : Leads handle s [] s' queue' ↔ s' = s ∧ queue' = [] := by
  constructor
  · intro h
    cases h
    exact ⟨rfl, rfl⟩
  · rintro ⟨rfl, rfl⟩
    exact .refl _ _

theorem leads_of_requeued {a : α} (hturn : handle s a = .requeued) :
    Leads handle s (a :: queue) s' queue' ↔
      (s' = s ∧ queue' = a :: queue) ∨ Leads handle s (queue ++ [a]) s' queue' := by
  constructor
  · intro h
    cases h with
    | refl => exact .inl ⟨rfl, rfl⟩
    | requeue _ hrest => exact .inr hrest
    | place hplaced _ =>
      rw [hturn] at hplaced
      contradiction
  · rintro (⟨rfl, rfl⟩ | hrest)
    · exact .refl _ _
    · exact .requeue hturn hrest

theorem leads_of_placed {a : α} (hturn : handle s a = .placed t) :
    Leads handle s (a :: queue) s' queue' ↔
      (s' = s ∧ queue' = a :: queue) ∨ Leads handle t queue s' queue' := by
  constructor
  · intro h
    cases h with
    | refl => exact .inl ⟨rfl, rfl⟩
    | requeue hrequeued _ =>
      rw [hturn] at hrequeued
      contradiction
    | place hplaced hrest =>
      rw [hturn] at hplaced
      cases hplaced
      exact .inr hrest
  · rintro (⟨rfl, rfl⟩ | hrest)
    · exact .refl _ _
    · exact .place hturn hrest

/-- When a placement keeps `Q` exactly if `P` holds of it, the work that ends has kept `Q` exactly
if `P` holds on every turn. -/
theorem Leads.keeps_iff {I : σ → List α → Prop} {Q : σ → Prop} {P : σ → α → Prop}
    (h : Leads handle s queue s' [])
    (hrequeue : ∀ s a queue, handle s a = .requeued → I s (a :: queue) →
      I s (queue ++ [a]) ∧ P s a)
    (hplace : ∀ s t a queue, handle s a = .placed t → I s (a :: queue) →
      I t queue ∧ (Q t ↔ Q s ∧ P s a))
    (hI : I s queue) :
    Q s' ↔ Q s ∧ ∀ t a rest, Leads handle s queue t (a :: rest) → P t a := by
  generalize hend : ([] : List α) = queue' at h
  induction h with
  | refl s queue =>
    subst hend
    refine ⟨fun hQ => ⟨hQ, fun t a rest hleads => ?_⟩, And.left⟩
    exact absurd (leads_nil.mp hleads).2 (List.cons_ne_nil a rest)
  | @requeue s s' a queue queue' hturn _ ih =>
    obtain ⟨hI', hP⟩ := hrequeue s a queue hturn hI
    rw [ih hI' hend]
    refine and_congr_right fun _ => forall_congr' fun t => forall_congr' fun b =>
      forall_congr' fun rest => ?_
    rw [leads_of_requeued hturn]
    refine ⟨?_, fun hall hleads => hall (.inr hleads)⟩
    rintro hall (⟨rfl, hcons⟩ | hleads)
    · obtain ⟨rfl, rfl⟩ := List.cons.inj hcons
      exact hP
    · exact hall hleads
  | @place s t s' a queue queue' hturn _ ih =>
    obtain ⟨hI', hQ⟩ := hplace s t a queue hturn hI
    rw [ih hI' hend, hQ, and_assoc]
    refine and_congr_right fun _ => ⟨?_, fun hall => ⟨?_, ?_⟩⟩
    · rintro ⟨hP, hall⟩ t' b rest hleads
      rcases (leads_of_placed hturn).mp hleads with ⟨rfl, hcons⟩ | hleads
      · obtain ⟨rfl, rfl⟩ := List.cons.inj hcons
        exact hP
      · exact hall t' b rest hleads
    · exact hall s a queue (.refl _ _)
    · exact fun t' b rest hleads => hall t' b rest ((leads_of_placed hturn).mpr (.inr hleads))

theorem Leads.exists_drain (h : Leads handle s queue s' queue') :
    ∃ n, ∀ fuel, drain handle (fuel + n) s queue = drain handle fuel s' queue' := by
  induction h with
  | refl => exact ⟨0, fun _ => rfl⟩
  | requeue hturn _ ih =>
    obtain ⟨n, hn⟩ := ih
    refine ⟨n + 1, fun fuel => ?_⟩
    rw [← Nat.add_assoc, drain, hturn]
    exact hn fuel
  | place hturn _ ih =>
    obtain ⟨n, hn⟩ := ih
    refine ⟨n + 1, fun fuel => ?_⟩
    rw [← Nat.add_assoc, drain, hturn]
    exact hn fuel

/-- The work ends when the queue is empty or when an item at its front fails. -/
theorem drain_cases {result : Except ε Unit}
    (h : drain handle fuel s queue = some (s', queue', result)) :
    (result = .ok () ∧ queue' = [] ∧ Leads handle s queue s' []) ∨
    ∃ a e, result = .error e ∧ Leads handle s queue s' (a :: queue') ∧
      handle s' a = .failed e := by
  induction fuel generalizing s queue with
  | zero => contradiction
  | succ fuel ih =>
    cases queue with
    | nil =>
      cases h
      exact .inl ⟨rfl, rfl, .refl _ _⟩
    | cons a queue =>
      rw [drain] at h
      cases hturn : handle s a with
      | requeued =>
        rw [hturn] at h
        rcases ih h with ⟨hok, hnil, hleads⟩ | ⟨b, e, herror, hleads, hfailed⟩
        · exact .inl ⟨hok, hnil, .requeue hturn hleads⟩
        · exact .inr ⟨b, e, herror, .requeue hturn hleads, hfailed⟩
      | placed t =>
        rw [hturn] at h
        rcases ih h with ⟨hok, hnil, hleads⟩ | ⟨b, e, herror, hleads, hfailed⟩
        · exact .inl ⟨hok, hnil, .place hturn hleads⟩
        · exact .inr ⟨b, e, herror, .place hturn hleads, hfailed⟩
      | failed e =>
        rw [hturn] at h
        cases h
        exact .inr ⟨a, e, rfl, .refl _ _, hturn⟩

theorem Leads.drain_ok (h : Leads handle s queue s' []) :
    ∃ fuel, drain handle fuel s queue = some (s', [], .ok ()) := by
  obtain ⟨n, hn⟩ := h.exists_drain
  exact ⟨1 + n, hn 1⟩

theorem Leads.drain_error {a : α} {e : ε} (h : Leads handle s queue s' (a :: queue'))
    (hturn : handle s' a = .failed e) :
    ∃ fuel, drain handle fuel s queue = some (s', queue', .error e) := by
  obtain ⟨n, hn⟩ := h.exists_drain
  refine ⟨1 + n, (hn 1).trans ?_⟩
  rw [drain, hturn]

/-- More turns than the work takes change nothing. -/
theorem drain_add {result : σ × List α × Except ε Unit}
    (h : drain handle fuel s queue = some result) (n : ℕ) :
    drain handle (fuel + n) s queue = some result := by
  induction fuel generalizing s queue with
  | zero => contradiction
  | succ fuel ih =>
    rw [Nat.succ_add]
    cases queue with
    | nil => exact h
    | cons a queue =>
      rw [drain] at h ⊢
      cases hturn : handle s a <;> rw [hturn] at h
      · exact ih h
      · exact ih h
      · exact h

theorem drain_eq_none_of_stuck (h : Stuck handle s queue) (fuel : ℕ) :
    drain handle fuel s queue = none := by
  induction fuel generalizing queue with
  | zero => rfl
  | succ fuel ih =>
    obtain ⟨hne, hall⟩ := h
    cases queue with
    | nil => contradiction
    | cons a queue =>
      rw [drain, hall a List.mem_cons_self]
      refine ih ⟨by simp, fun b hb => hall b ?_⟩
      simpa [or_comm] using hb

/-- When every item that waits does so for another of the queue, the items of a stuck queue wait for
each other in a circle. -/
theorem Stuck.exists_circle {R : α → α → Prop} (h : Stuck handle s queue)
    (hwait : ∀ a ∈ queue, handle s a = .requeued → ∃ b ∈ queue, R a b) :
    ∃ a ∈ queue, Relation.TransGen R a a := by
  by_contra hnot
  have hacyclic : ∀ a ∈ queue, ¬ Relation.TransGen R a a := by simpa using hnot
  have hfinite : Finite {a // a ∈ queue} := (List.finite_toSet queue).to_subtype
  let After (b a : {a // a ∈ queue}) : Prop := Relation.TransGen R a.1 b.1
  have htrans : IsTrans _ After := ⟨fun c b a hcb hba => hba.trans hcb⟩
  have hirrefl : Std.Irrefl After := ⟨fun a => hacyclic a.1 a.2⟩
  have hwf : WellFounded After := Finite.wellFounded_of_trans_of_irrefl After
  obtain ⟨a, ha⟩ := List.exists_mem_of_ne_nil _ h.1
  -- an item that waits for none of the queue
  obtain ⟨last, -, hlast⟩ := hwf.has_min Set.univ ⟨⟨a, ha⟩, trivial⟩
  obtain ⟨b, hb, hR⟩ := hwait last.1 last.2 (h.2 last.1 last.2)
  exact hlast ⟨b, hb⟩ trivial (.single hR)

/-- Items that wait go behind those after them. -/
theorem leads_rotate {front : List α} (h : ∀ a ∈ front, handle s a = .requeued) (back : List α) :
    Leads handle s (front ++ back) s (back ++ front) := by
  induction front generalizing back with
  | nil => simpa using Leads.refl s back
  | cons a front ih =>
    refine .requeue (h a List.mem_cons_self) ?_
    simpa using ih (fun b hb => h b (List.mem_cons_of_mem a hb)) (back ++ [a])

/-- From every state, the turns lead to an empty queue, to an item that fails or to a queue whose
items all wait. -/
theorem exists_leads_settled (handle : σ → α → Turn σ ε) (s : σ) (queue : List α) :
    ∃ s' queue', Leads handle s queue s' queue' ∧
      (queue' = [] ∨ (∃ a rest e, queue' = a :: rest ∧ handle s' a = .failed e) ∨
        Stuck handle s' queue') := by
  classical
  -- each placement makes the queue shorter
  induction hlength : queue.length using Nat.strongRecOn generalizing s queue with
  | ind length ih =>
    cases hfind : queue.find? fun a => decide (handle s a ≠ .requeued) with
    | none =>
      have hwait : ∀ a ∈ queue, handle s a = .requeued := by simpa using hfind
      by_cases hnil : queue = []
      · exact ⟨s, queue, .refl _ _, .inl hnil⟩
      · exact ⟨s, queue, .refl _ _, .inr (.inr ⟨hnil, hwait⟩)⟩
    | some a =>
      obtain ⟨ha, front, back, rfl, hfront⟩ := List.find?_eq_some_iff_append.mp hfind
      have hrotate : Leads handle s (front ++ a :: back) s (a :: back ++ front) :=
        leads_rotate (by simpa using hfront) (a :: back)
      cases hturn : handle s a with
      | requeued => exact absurd hturn (of_decide_eq_true ha)
      | placed t =>
        obtain ⟨s', queue', hleads, hsettled⟩ :=
          ih (back ++ front).length (by simp at hlength ⊢; omega) t (back ++ front) rfl
        exact ⟨s', queue', hrotate.trans (.place hturn hleads), hsettled⟩
      | failed e => exact ⟨s, _, hrotate, .inr (.inl ⟨a, _, e, rfl, hturn⟩)⟩

/-- The work ends unless it leads to a queue whose items all wait. -/
theorem exists_drain_iff :
    (∃ fuel result, drain handle fuel s queue = some result) ↔
      ¬ ∃ s' queue', Leads handle s queue s' queue' ∧ Stuck handle s' queue' := by
  constructor
  · rintro ⟨fuel, result, hdrain⟩ ⟨s', queue', hleads, hstuck⟩
    obtain ⟨n, hn⟩ := hleads.exists_drain
    have hnone := (hn fuel).trans (drain_eq_none_of_stuck hstuck fuel)
    rw [drain_add hdrain n] at hnone
    contradiction
  · intro hnot
    obtain ⟨s', queue', hleads, rfl | ⟨a, rest, e, rfl, hturn⟩ | hstuck⟩ :=
      exists_leads_settled handle s queue
    · obtain ⟨fuel, h⟩ := hleads.drain_ok
      exact ⟨fuel, _, h⟩
    · obtain ⟨fuel, h⟩ := hleads.drain_error hturn
      exact ⟨fuel, _, h⟩
    · exact absurd ⟨s', queue', hleads, hstuck⟩ hnot

end GroundCore.Lib
