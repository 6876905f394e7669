import Mathlib.Algebra.BigOperators.Ring.List
import Mathlib.Algebra.Order.BigOperators.Group.List
import Mathlib.Algebra.Order.Field.Basic

/-! The mean of some values with positive weights: it lies between the least and the greatest of the
values. -/

namespace GroundCore.Lib

section WeightedMean

variable {K α : Type*} [Field K] [LinearOrder K] [IsStrictOrderedRing K]
  {value weight : α → K} {l : List α}

theorem weight_sum_pos (hne : l ≠ []) (hweight : ∀ a ∈ l, 0 < weight a) :
    0 < (l.map weight).sum := by
  have h := List.sum_lt_sum_of_ne_nil hne (fun _ => 0) weight hweight
  simpa using h

theorem weighted_mean_eq {v : K} (hne : l ≠ []) (hweight : ∀ a ∈ l, 0 < weight a)
    (hvalue : ∀ a ∈ l, value a = v) :
    (l.map fun a => value a * weight a).sum / (l.map weight).sum = v := by
  have hsum : (l.map fun a => value a * weight a) = l.map fun a => v * weight a :=
    List.map_congr_left fun a ha => by rw [hvalue a ha]
  rw [hsum, List.sum_map_mul_left, mul_div_cancel_right₀ _ (weight_sum_pos hne hweight).ne']

theorem exists_le_weighted_mean (hne : l ≠ []) (hweight : ∀ a ∈ l, 0 < weight a) :
    ∃ a ∈ l, value a ≤ (l.map fun a => value a * weight a).sum / (l.map weight).sum := by
  by_contra hall
  push Not at hall
  have hlt := List.sum_lt_sum_of_ne_nil hne _ (fun a => value a * weight a) fun a ha =>
    mul_lt_mul_of_pos_right (hall a ha) (hweight a ha)
  rw [List.sum_map_mul_left, div_mul_cancel₀ _ (weight_sum_pos hne hweight).ne'] at hlt
  exact lt_irrefl _ hlt

theorem exists_weighted_mean_le (hne : l ≠ []) (hweight : ∀ a ∈ l, 0 < weight a) :
    ∃ a ∈ l, (l.map fun a => value a * weight a).sum / (l.map weight).sum ≤ value a := by
  by_contra hall
  push Not at hall
  have hlt := List.sum_lt_sum_of_ne_nil hne (fun a => value a * weight a) _ fun a ha =>
    mul_lt_mul_of_pos_right (hall a ha) (hweight a ha)
  rw [List.sum_map_mul_left, div_mul_cancel₀ _ (weight_sum_pos hne hweight).ne'] at hlt
  exact lt_irrefl _ hlt

end WeightedMean

end GroundCore.Lib
