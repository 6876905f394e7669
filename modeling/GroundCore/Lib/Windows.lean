import Mathlib.Algebra.Order.Group.Basic
import Mathlib.Algebra.Order.Monoid.Unbundled.Pow
import Mathlib.Order.Interval.Set.LinearOrder
import Mathlib.Tactic.Abel

/-! Windows of one length with equally spaced starts: where two neighbours meet, and what the first
of them cover together. -/

namespace GroundCore.Lib

variable {α : Type*} [AddCommGroup α] [LinearOrder α]

/-- The `i`-th window of length `length`, from `i` strides after `start`. -/
def window (start stride length : α) (i : ℕ) : Set α :=
  Set.Icc (start + i • stride) (start + i • stride + length)

variable {start stride length t d : α} {n : ℕ} [IsOrderedAddMonoid α]

theorem window_start_le_succ (hstride : 0 ≤ stride) (i : ℕ) :
    start + i • stride ≤ start + (i + 1) • stride :=
  add_le_add_right (nsmul_le_nsmul_left hstride (Nat.le_succ i)) start

/-- As long as no stride leaves a gap, the windows cover all from the start of the first to the end
of the last. -/
theorem exists_mem_window_iff (hstride : 0 ≤ stride) (hgap : stride ≤ length) :
    (∃ i < n + 1, t ∈ window start stride length i) ↔
      t ∈ Set.Icc start (start + n • stride + length) := by
  induction n with
  | zero => simp [window]
  | succ n ih =>
    have hsplit : (∃ i < n + 1 + 1, t ∈ window start stride length i) ↔
        (∃ i < n + 1, t ∈ window start stride length i) ∨
          t ∈ window start stride length (n + 1) := by
      simp [Nat.lt_succ_iff_lt_or_eq (n := n + 1), or_and_right, exists_or]
    have hstart : start ≤ start + (n + 1) • stride :=
      le_add_of_nonneg_right (nsmul_nonneg hstride _)
    have hmeet : start + (n + 1) • stride ≤ start + n • stride + length := by
      rw [succ_nsmul, ← add_assoc]
      exact add_le_add_right hgap _
    have hlater : start + n • stride + length ≤ start + (n + 1) • stride + length :=
      add_le_add_left (window_start_le_succ hstride n) length
    rw [hsplit, ih, window, ← Set.mem_union, Set.Icc_union_Icc' hmeet (hstart.trans ?_),
      min_eq_left hstart, max_eq_right hlater]
    exact le_add_of_nonneg_right (hstride.trans hgap)

/-- The windows cover a stretch from the start exactly when the last of them ends no earlier. -/
theorem forall_mem_window_iff (hstride : 0 ≤ stride) (hgap : stride ≤ length) :
    (∀ t ∈ Set.Icc start (start + d), ∃ i < n + 1, t ∈ window start stride length i) ↔
      d ≤ n • stride + length := by
  simp only [exists_mem_window_iff hstride hgap]
  have hlast : 0 ≤ n • stride + length :=
    add_nonneg (nsmul_nonneg hstride n) (hstride.trans hgap)
  constructor
  · intro hcover
    rcases le_total 0 d with hd | hd
    · have := (hcover _ ⟨le_add_of_nonneg_right hd, le_refl _⟩).2
      rwa [add_assoc, add_le_add_iff_left] at this
    · exact hd.trans hlast
  · rintro hd t ⟨hlow, hhigh⟩
    refine ⟨hlow, hhigh.trans ?_⟩
    rw [add_assoc]
    exact add_le_add_right hd start

end GroundCore.Lib
