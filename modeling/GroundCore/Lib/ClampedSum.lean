import Mathlib.Algebra.Order.Group.Basic
import Mathlib.Algebra.BigOperators.Group.List.Basic
import Mathlib.Data.List.Induction
import Mathlib.Data.List.Infix

/-! Sums that are cut off below at zero, the statistic of a one-sided CUSUM test.  The sum that is
carried from one element to the next is the greatest sum of a suffix, and so reaches a positive
bound exactly when some suffix does. -/

namespace GroundCore.Lib

variable {α K : Type*} [AddCommGroup K] [LinearOrder K] {f : α → K} {c : K} {xs : List α} {x : α}

/-- The sum of `f` over the list, with zero in the place of every negative sum on the way. -/
def clampedSum (f : α → K) (xs : List α) : K := xs.foldl (fun s x => max (s + f x) 0) 0

@[simp] theorem clampedSum_nil : clampedSum f [] = 0 := rfl

@[simp] theorem clampedSum_append_singleton :
    clampedSum f (xs ++ [x]) = max (clampedSum f xs + f x) 0 := by
  simp [clampedSum, List.foldl_append]

/-! ### Crossing a bound -/

/-- Over some nonempty suffix `f` sums up to at least `c`. -/
def Crosses (f : α → K) (c : K) (xs : List α) : Prop :=
  ∃ s, s ≠ [] ∧ s <:+ xs ∧ c ≤ (s.map f).sum

/-- The list crosses the bound, and none of its proper beginnings does. -/
def FirstCrosses (f : α → K) (c : K) (xs : List α) : Prop :=
  Crosses f c xs ∧ ∀ p, p <+: xs → p ≠ xs → ¬ Crosses f c p

/-- Some beginning of the list crosses the bound. -/
def HasCrossed (f : α → K) (c : K) (xs : List α) : Prop := ∃ p, p <+: xs ∧ Crosses f c p

theorem not_hasCrossed_nil : ¬ HasCrossed f c [] := by
  rintro ⟨p, hp, s, hne, hs, -⟩
  rw [List.prefix_nil.mp hp] at hs
  exact hne (List.suffix_nil.mp hs)

theorem firstCrosses_append_singleton :
    FirstCrosses f c (xs ++ [x]) ↔ Crosses f c (xs ++ [x]) ∧ ¬ HasCrossed f c xs := by
  refine and_congr_right fun _ => ⟨?_, ?_⟩
  · rintro hfirst ⟨p, hp, hcross⟩
    refine hfirst p (hp.trans (List.prefix_append _ _)) ?_ hcross
    rintro rfl
    have hlength := hp.length_le
    rw [List.length_append, List.length_singleton] at hlength
    omega
  · intro hnot p hp hne hcross
    rcases List.prefix_concat_iff.mp hp with heq | hp
    · exact hne heq
    · exact hnot ⟨p, hp, hcross⟩

theorem hasCrossed_append_singleton :
    HasCrossed f c (xs ++ [x]) ↔ HasCrossed f c xs ∨ Crosses f c (xs ++ [x]) := by
  constructor
  · rintro ⟨p, hp, hcross⟩
    rcases List.prefix_concat_iff.mp hp with rfl | hp
    · exact .inr hcross
    · exact .inl ⟨p, hp, hcross⟩
  · rintro (⟨p, hp, hcross⟩ | hcross)
    · exact ⟨p, hp.trans (List.prefix_append _ _), hcross⟩
    · exact ⟨_, List.prefix_refl _, hcross⟩

/-- A list that has crossed the bound did so for the first time at some beginning. -/
theorem exists_firstCrosses (h : HasCrossed f c xs) :
    ∃ n < xs.length, FirstCrosses f c (xs.take (n + 1)) := by
  induction xs using List.reverseRecOn with
  | nil => exact absurd h not_hasCrossed_nil
  | append_singleton xs x ih =>
    by_cases hbefore : HasCrossed f c xs
    · obtain ⟨n, hn, hfirst⟩ := ih hbefore
      have hlt : n < (xs ++ [x]).length := by
        rw [List.length_append]
        omega
      exact ⟨n, hlt, by rwa [List.take_append_of_le_length hn]⟩
    · have hcross := (hasCrossed_append_singleton.mp h).resolve_left hbefore
      refine ⟨xs.length, by simp, ?_⟩
      rw [List.take_of_length_le (by simp)]
      exact firstCrosses_append_singleton.mpr ⟨hcross, hbefore⟩

/-! ### The clamped sum as a greatest suffix sum -/

theorem exists_suffix_sum_eq (f : α → K) (xs : List α) :
    ∃ s, s <:+ xs ∧ (s.map f).sum = clampedSum f xs := by
  induction xs using List.reverseRecOn with
  | nil => exact ⟨[], List.suffix_refl _, rfl⟩
  | append_singleton xs x ih =>
    obtain ⟨s, hs, hsum⟩ := ih
    rw [clampedSum_append_singleton]
    rcases max_choice (clampedSum f xs + f x) 0 with hmax | hmax
    · refine ⟨s ++ [x], List.suffix_concat_iff.mpr (.inr ⟨s, rfl, hs⟩), ?_⟩
      rw [hmax, List.map_append, List.sum_append, List.map_singleton, List.sum_singleton, hsum]
    · exact ⟨[], List.nil_suffix, hmax.symm⟩

variable [IsOrderedAddMonoid K]

theorem sum_le_clampedSum {s : List α} (h : s <:+ xs) : (s.map f).sum ≤ clampedSum f xs := by
  induction xs using List.reverseRecOn generalizing s with
  | nil => rw [List.suffix_nil.mp h]; exact le_refl _
  | append_singleton xs x ih =>
    rw [clampedSum_append_singleton]
    rcases List.suffix_concat_iff.mp h with rfl | ⟨t, rfl, ht⟩
    · exact le_max_right _ _
    · rw [List.map_append, List.sum_append, List.map_singleton, List.sum_singleton]
      exact (add_le_add_left (ih ht) (f x)).trans (le_max_left _ _)

theorem le_clampedSum_iff (hc : 0 < c) : c ≤ clampedSum f xs ↔ Crosses f c xs := by
  constructor
  · intro h
    obtain ⟨s, hs, hsum⟩ := exists_suffix_sum_eq f xs
    rw [← hsum] at h
    refine ⟨s, ?_, hs, h⟩
    rintro rfl
    exact absurd h (not_le_of_gt hc)
  · rintro ⟨s, -, hs, hle⟩
    exact hle.trans (sum_le_clampedSum hs)

/-- An element that adds nothing takes no list across a bound that it had not crossed. -/
theorem not_crosses_append_singleton (hc : 0 < c) (hx : f x ≤ 0) (h : ¬ HasCrossed f c xs) :
    ¬ Crosses f c (xs ++ [x]) := by
  have hxs : ¬ Crosses f c xs := fun hcross => h ⟨xs, List.prefix_refl _, hcross⟩
  rw [← le_clampedSum_iff hc, not_le] at hxs ⊢
  rw [clampedSum_append_singleton, max_lt_iff]
  exact ⟨(add_le_of_nonpos_right hx).trans_lt hxs, hc⟩

variable {β : Type*} {g : β → K} {ys : List β}

/-- Greater elements make a greater sum. -/
theorem clampedSum_mono (h : List.Forall₂ (fun x y => f x ≤ g y) xs ys) :
    clampedSum f xs ≤ clampedSum g ys := by
  have hfrom : ∀ s t : K, s ≤ t → xs.foldl (fun s x => max (s + f x) 0) s ≤
      ys.foldl (fun s y => max (s + g y) 0) t := by
    induction h with
    | nil => exact fun s t hst => hst
    | cons hxy _ ih => exact fun s t hst => ih _ _ (max_le_max (add_le_add hst hxy) (le_refl 0))
  exact hfrom 0 0 (le_refl 0)

theorem HasCrossed.mono (hc : 0 < c) (h : List.Forall₂ (fun x y => f x ≤ g y) xs ys)
    (hcrossed : HasCrossed f c xs) : HasCrossed g c ys := by
  obtain ⟨p, hp, hcross⟩ := hcrossed
  refine ⟨ys.take p.length, List.take_prefix _ _, ?_⟩
  have hbefore : List.Forall₂ (fun x y => f x ≤ g y) p (ys.take p.length) := by
    rw [List.prefix_iff_eq_take.mp hp, List.length_take]
    have hlength := hp.length_le
    rw [min_eq_left hlength]
    exact List.forall₂_take p.length h
  rw [← le_clampedSum_iff hc] at hcross ⊢
  exact hcross.trans (clampedSum_mono hbefore)

end GroundCore.Lib
