import Mathlib.Data.List.Basic
import Mathlib.Data.List.Perm.Basic
import GroundCore.Lib.HashMap

/-! Priority queues of distinct items.  Which of the entries with a greatest priority is popped is
not known of such a queue: it is read through a `PeekOrder`, which may choose any of them. -/

namespace GroundCore.Lib

open Std

section

variable {K P : Type} [Ord P]

/-- The last entry of a list among those with a greatest priority. -/
def greatest : List (K × P) → Option (K × P)
  | [] => none
  | e :: es =>
    match greatest es with
    | none => some e
    | some best => if (compare e.2 best.2).isLE then some best else some e

theorem isSome_greatest {es : List (K × P)} {e : K × P} (h : e ∈ es) : (greatest es).isSome := by
  cases es with
  | nil => contradiction
  | cons e' es =>
    unfold greatest
    cases greatest es with
    | none => rfl
    | some best => dsimp only; split <;> rfl

theorem greatest_spec [TransOrd P] {es : List (K × P)} {best : K × P}
    (h : greatest es = some best) : best ∈ es ∧ ∀ e ∈ es, (compare e.2 best.2).isLE := by
  induction es generalizing best with
  | nil => contradiction
  | cons e es ih =>
    unfold greatest at h
    cases hrest : greatest es with
    | none =>
      have hnil : es = [] := List.eq_nil_iff_forall_not_mem.mpr fun e' he' => by
        simpa [hrest] using isSome_greatest he'
      rw [hrest] at h
      obtain rfl := Option.some.inj h
      subst hnil
      simp
    | some best' =>
      obtain ⟨hmem, hle⟩ := ih hrest
      simp only [hrest] at h
      split at h
      · next hbest =>
        obtain rfl := Option.some.inj h
        refine ⟨List.mem_cons_of_mem e hmem, fun e' he' => ?_⟩
        rcases List.mem_cons.mp he' with rfl | he'
        · exact hbest
        · exact hle e' he'
      · next hbest =>
        obtain rfl := Option.some.inj h
        have hlt : compare best'.2 e.2 = .lt :=
          OrientedCmp.lt_of_gt (Ordering.isLE_eq_false.mp (Bool.not_eq_true _ ▸ hbest))
        refine ⟨List.mem_cons_self, fun e' he' => ?_⟩
        rcases List.mem_cons.mp he' with rfl | he'
        · simp
        · exact TransCmp.isLE_trans (hle e' he') (by simp [hlt])

end

/-- A choice of an entry with a greatest priority, for every queue that has one. -/
structure PeekOrder (K P : Type) [DecidableEq K] [Ord P] where
  peek : HashMap K P → Option (K × P)
  get?_of_peek : ∀ {q k p}, peek q = some (k, p) → q.get? k = some p
  isLE_of_peek : ∀ {q k p}, peek q = some (k, p) → ∀ {k' p'}, q.get? k' = some p' →
    (compare p' p).isLE
  isSome_of_get? : ∀ {q k p}, q.get? k = some p → (peek q).isSome

namespace PeekOrder

variable {K P : Type} [DecidableEq K] [Ord P]

/-- An entry with a greatest priority is removed and returned. -/
def pop (ord : PeekOrder K P) (q : HashMap K P) : Option ((K × P) × HashMap K P) :=
  (ord.peek q).map fun e => (e, q.erase e.1)

theorem peek_eq_none_iff (ord : PeekOrder K P) {q : HashMap K P} :
    ord.peek q = none ↔ ∀ k, q.get? k = none := by
  constructor
  · intro h k
    cases hget : q.get? k with
    | none => rfl
    | some p => exact absurd (ord.isSome_of_get? hget) (by simp [h])
  · intro h
    cases hpeek : ord.peek q with
    | none => rfl
    | some e => exact absurd (ord.get?_of_peek hpeek) (by simp [h])

/-- Two queues with the same entries, of which one is above all others, have the same peek. -/
theorem peek_eq_some {ord : PeekOrder K P} {q : HashMap K P} {k : K} {p : P}
    (hget : q.get? k = some p)
    (habove : ∀ k' p', q.get? k' = some p' → (compare p p').isLE → k' = k) :
    ord.peek q = some (k, p) := by
  obtain ⟨⟨k', p'⟩, hpeek⟩ := Option.isSome_iff_exists.mp (ord.isSome_of_get? hget)
  have hget' := ord.get?_of_peek hpeek
  obtain rfl := habove k' p' hget' (ord.isLE_of_peek hpeek hget)
  obtain rfl := Option.some.inj (hget.symm.trans hget')
  exact hpeek

/-- The choice by a scan of the stored entries. -/
def scan [TransOrd P] : PeekOrder K P where
  peek q := greatest q.entries
  get?_of_peek h := HashMap.mem_entries.mp (greatest_spec h).1
  isLE_of_peek h := fun hget => (greatest_spec h).2 _ (HashMap.mem_entries.mpr hget)
  isSome_of_get? h := isSome_greatest (HashMap.mem_entries.mpr h)

end PeekOrder

end GroundCore.Lib

/-! Binary heaps as lists of their elements.  Of several greatest elements it is not known which a
heap pops, so each pop is read through a `PopOrder`, which may choose any of them. -/

namespace GroundCore.Lib

open Std

/-- A choice of a greatest element of every heap that has one. -/
structure PopOrder (α : Type) [Ord α] where
  peek : List α → Option α
  mem_of_peek : ∀ {xs a}, peek xs = some a → a ∈ xs
  isLE_of_peek : ∀ {xs a}, peek xs = some a → ∀ b ∈ xs, (compare b a).isLE
  isSome_of_mem : ∀ {xs a}, a ∈ xs → (peek xs).isSome

namespace PopOrder

variable {α : Type} [Ord α] [DecidableEq α] (ord : PopOrder α)

/-- A greatest element and the others. -/
def pop (xs : List α) : Option (α × List α) := (ord.peek xs).map fun a => (a, xs.erase a)

/-- The elements in the order in which they are popped. -/
def drain (xs : List α) : List α :=
  let rec go : ℕ → List α → List α
    | 0, _ => []
    | n + 1, xs =>
      match ord.pop xs with
      | none => []
      | some (a, rest) => a :: go n rest
  go xs.length xs

variable {ord} {xs rest : List α} {a : α}

theorem pop_eq_none_iff : ord.pop xs = none ↔ xs = [] := by
  unfold pop
  rw [Option.map_eq_none_iff]
  constructor
  · intro h
    refine List.eq_nil_iff_forall_not_mem.mpr fun b hb => ?_
    have hsome := ord.isSome_of_mem hb
    simp [h] at hsome
  · rintro rfl
    by_contra hne
    obtain ⟨b, hb⟩ := Option.ne_none_iff_exists'.mp hne
    exact absurd (ord.mem_of_peek hb) List.not_mem_nil

/-- What is popped is one of the elements, none is greater, and the others are left. -/
theorem pop_eq_some (h : ord.pop xs = some (a, rest)) :
    xs.Perm (a :: rest) ∧ ∀ b ∈ xs, (compare b a).isLE := by
  obtain ⟨b, hpeek, heq⟩ := Option.map_eq_some_iff.mp h
  obtain ⟨rfl, rfl⟩ := Prod.mk.inj heq
  exact ⟨List.perm_cons_erase (ord.mem_of_peek hpeek), ord.isLE_of_peek hpeek⟩

/-- Popping until nothing is left pops every element once. -/
theorem drain_perm (ord : PopOrder α) (xs : List α) : (ord.drain xs).Perm xs := by
  suffices h : ∀ n (xs : List α), xs.length = n → (drain.go ord n xs).Perm xs from h _ xs rfl
  intro n
  induction n with
  | zero =>
    intro xs hlength
    rw [List.length_eq_zero_iff.mp hlength]
    exact List.Perm.refl _
  | succ n ih =>
    intro xs hlength
    unfold drain.go
    cases hpop : ord.pop xs with
    | none => simp [pop_eq_none_iff.mp hpop]
    | some popped =>
      obtain ⟨a, rest⟩ := popped
      have hperm := (pop_eq_some hpop).1
      have hrest : rest.length = n := by
        have := hperm.length_eq
        simp only [List.length_cons] at this
        omega
      exact ((ih rest hrest).cons a).trans hperm.symm

/-- The choice by a scan of the list. -/
def scan [TransOrd α] : PopOrder α where
  peek xs := (greatest (xs.map fun a => ((), a))).map Prod.snd
  mem_of_peek h := by
    obtain ⟨best, hbest, rfl⟩ := Option.map_eq_some_iff.mp h
    obtain ⟨a, ha, rfl⟩ := List.mem_map.mp (greatest_spec hbest).1
    exact ha
  isLE_of_peek h b hb := by
    obtain ⟨best, hbest, rfl⟩ := Option.map_eq_some_iff.mp h
    exact (greatest_spec hbest).2 _ (List.mem_map_of_mem hb)
  isSome_of_mem h := by
    rw [Option.isSome_map]
    exact isSome_greatest (List.mem_map_of_mem h)

end PopOrder

end GroundCore.Lib
