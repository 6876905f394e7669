import Mathlib.Data.List.Range
import Mathlib.Data.Multiset.Bind
import Mathlib.Algebra.BigOperators.Group.List.Lemmas
import Mathlib.Algebra.GroupWithZero.Nat
import Mathlib.Logic.Function.Basic

/-! The pairs of elements of two lists, in either order of the lists, and the elements of a list
paired with their places. -/

namespace GroundCore.Lib

variable {α β γ : Type*}

/-- Two nested loops collect the same elements whichever of the two is the outer one. -/
theorem flatMap_comm_perm (f : α → β → List γ) (l₁ : List α) (l₂ : List β) :
    (l₁.flatMap fun a => l₂.flatMap (f a)).Perm (l₂.flatMap fun b => l₁.flatMap (f · b)) := by
  rw [← Multiset.coe_eq_coe]
  simp only [← Multiset.coe_bind]
  exact Multiset.bind_bind _ _

theorem filterMap_comm_perm (f : α → β → Option γ) (l₁ : List α) (l₂ : List β) :
    (l₁.flatMap fun a => l₂.filterMap (f a)).Perm (l₂.flatMap fun b => l₁.filterMap (f · b)) := by
  simp only [List.filterMap_eq_flatMap_toList]
  exact flatMap_comm_perm (fun a b => (f a b).toList) l₁ l₂

/-- The places grow along a list. -/
theorem pairwise_zipIdx (l : List α) : l.zipIdx.Pairwise fun e e' => e.2 < e'.2 := by
  have h : (l.zipIdx.map Prod.snd).Pairwise (· < ·) := by
    rw [List.zipIdx_map_snd]
    exact List.pairwise_lt_range'
  exact List.pairwise_map.mp h

end GroundCore.Lib

/-! The elements of two lists that are related: how many pairs there are, how many elements have no
counterpart in the other list, and how many counterparts there are past the first ones. -/

namespace GroundCore.Lib

variable {α β : Type*}

/-- The number of counterparts of `a` in a list. -/
def counterparts (r : α → β → Bool) (l₂ : List β) (a : α) : ℕ := l₂.countP (r a)

/-- The number of related pairs. -/
def pairCount (r : α → β → Bool) (l₁ : List α) (l₂ : List β) : ℕ :=
  (l₁.map (counterparts r l₂)).sum

/-- The number of elements of the first list without a counterpart in the second. -/
def unmatched (r : α → β → Bool) (l₁ : List α) (l₂ : List β) : ℕ :=
  l₁.countP fun a => counterparts r l₂ a = 0

/-- The number of counterparts of the elements of the first list, without the first of each. -/
def surplus (r : α → β → Bool) (l₁ : List α) (l₂ : List β) : ℕ :=
  (l₁.map fun a => counterparts r l₂ a - 1).sum

variable {r : α → β → Bool} {l₁ : List α} {l₂ : List β}

theorem counterparts_eq_zero_iff {a : α} :
    counterparts r l₂ a = 0 ↔ ¬ ∃ b ∈ l₂, r a b := by
  rw [counterparts, List.countP_eq_zero]
  push Not
  rfl

theorem counterparts_eq_sum (a : α) :
    counterparts r l₂ a = (l₂.map fun b => if r a b then 1 else 0).sum := by
  unfold counterparts
  induction l₂ with
  | nil => rfl
  | cons b l₂ ih => rw [List.countP_cons, ih, List.map_cons, List.sum_cons, add_comm]

theorem unmatched_eq_zero_iff : unmatched r l₁ l₂ = 0 ↔ ∀ a ∈ l₁, ∃ b ∈ l₂, r a b := by
  simp only [unmatched, List.countP_eq_zero, decide_eq_true_eq, counterparts_eq_zero_iff, not_not]

theorem pairCount_add_unmatched :
    pairCount r l₁ l₂ + unmatched r l₁ l₂ = l₁.length + surplus r l₁ l₂ := by
  induction l₁ with
  | nil => rfl
  | cons a l₁ ih =>
    simp only [pairCount, unmatched, surplus, List.map_cons, List.sum_cons, List.countP_cons,
      List.length_cons, decide_eq_true_eq] at ih ⊢
    split <;> omega

theorem pairCount_cons_right {b : β} :
    pairCount r l₁ (b :: l₂) = pairCount r l₁ l₂ + counterparts (flip r) l₁ b := by
  induction l₁ with
  | nil => rfl
  | cons a l₁ ih =>
    have hsecond : counterparts r (b :: l₂) a = counterparts r l₂ a + if r a b then 1 else 0 :=
      List.countP_cons
    have hfirst : counterparts (flip r) (a :: l₁) b =
        counterparts (flip r) l₁ b + if r a b then 1 else 0 := List.countP_cons
    simp only [pairCount, List.map_cons, List.sum_cons, hfirst, hsecond] at ih ⊢
    omega

/-- The pairs can be counted from either list. -/
theorem pairCount_flip : pairCount (flip r) l₂ l₁ = pairCount r l₁ l₂ := by
  induction l₂ with
  | nil =>
    have hnone : counterparts r [] = fun _ => 0 := rfl
    simp [pairCount, hnone]
  | cons b l₂ ih =>
    rw [pairCount_cons_right, ← ih, pairCount, pairCount, List.map_cons, List.sum_cons, add_comm]

theorem pairCount_of_length_eq_zero (h : l₁.length + l₂.length = 0) : pairCount r l₁ l₂ = 0 := by
  rw [List.eq_nil_of_length_eq_zero (Nat.add_eq_zero_iff.mp h).1]
  rfl

/-- Either no element has two counterparts, or the elements without one outnumber the counterparts
past the first ones. -/
def Sparse (r : α → β → Bool) (l₁ : List α) (l₂ : List β) : Prop :=
  surplus r l₁ l₂ + surplus (flip r) l₂ l₁ = 0 ∨
    surplus r l₁ l₂ + surplus (flip r) l₂ l₁ < unmatched r l₁ l₂ + unmatched (flip r) l₂ l₁

instance : Decidable (Sparse r l₁ l₂) := inferInstanceAs (Decidable (_ ∨ _))

/-- The pairs cover no more than all elements, and all only if each has a counterpart. -/
theorem sparse_iff :
    Sparse r l₁ l₂ ↔
      2 * pairCount r l₁ l₂ ≤ l₁.length + l₂.length ∧
        (2 * pairCount r l₁ l₂ = l₁.length + l₂.length →
          (∀ a ∈ l₁, ∃ b ∈ l₂, r a b) ∧ ∀ b ∈ l₂, ∃ a ∈ l₁, r a b) := by
  have hfirst : pairCount r l₁ l₂ + unmatched r l₁ l₂ = l₁.length + surplus r l₁ l₂ :=
    pairCount_add_unmatched
  have hsecond : pairCount r l₁ l₂ + unmatched (flip r) l₂ l₁ =
      l₂.length + surplus (flip r) l₂ l₁ := by
    rw [← pairCount_flip]
    exact pairCount_add_unmatched
  have hall : (∀ b ∈ l₂, ∃ a ∈ l₁, r a b) ↔ unmatched (flip r) l₂ l₁ = 0 :=
    unmatched_eq_zero_iff.symm
  rw [← unmatched_eq_zero_iff, hall, Sparse]
  omega

end GroundCore.Lib
