import Mathlib.Data.Finset.Lattice.Fold
import Mathlib.Tactic.Linarith

/-! Progressive filling: of finitely many levels, one that is least is raised at a time.  When no
raise is higher than `d`, the gap between the greatest and the least level never grows past `d` and
what it was at first. -/

namespace GroundCore.Lib

variable {ι 𝕜 : Type*} [Field 𝕜] [LinearOrder 𝕜]

/-- The gap between the greatest and the least of the levels of `s`, zero when there are none. -/
def levelGap (level : ι → 𝕜) (s : Finset ι) : 𝕜 :=
  if h : s.Nonempty then s.sup' h level - s.inf' h level else 0

variable {level level' : ι → 𝕜} {s : Finset ι} {g d : 𝕜}

theorem levelGap_le (hg : 0 ≤ g) (h : ∀ i ∈ s, ∀ j ∈ s, level i - level j ≤ g) :
    levelGap level s ≤ g := by
  unfold levelGap
  split
  · next hs =>
    obtain ⟨i, hi, hmax⟩ := Finset.exists_mem_eq_sup' hs level
    obtain ⟨j, hj, hmin⟩ := Finset.exists_mem_eq_inf' hs level
    rw [hmax, hmin]
    exact h i hi j hj
  · exact hg

theorem levelGap_congr (h : ∀ i ∈ s, level' i = level i) : levelGap level' s = levelGap level s := by
  unfold levelGap
  split
  · next hs => rw [Finset.sup'_congr hs rfl h, Finset.inf'_congr hs rfl h]
  · rfl

variable [IsStrictOrderedRing 𝕜]

theorem sub_le_levelGap {i j : ι} (hi : i ∈ s) (hj : j ∈ s) :
    level i - level j ≤ levelGap level s := by
  rw [levelGap, dif_pos ⟨i, hi⟩]
  have hmax := Finset.le_sup' level hi
  have hmin := Finset.inf'_le level hj
  linarith

theorem levelGap_nonneg : 0 ≤ levelGap level s := by
  rcases s.eq_empty_or_nonempty with rfl | ⟨i, hi⟩
  · simp [levelGap]
  · have hself : level i - level i ≤ levelGap level s := sub_le_levelGap hi hi
    simpa using hself

/-- A least level raised by at most `d`. -/
theorem levelGap_raise {i : ι} (hleast : ∀ j ∈ s, level i ≤ level j) (hi : i ∈ s)
    (hother : ∀ j ∈ s, j ≠ i → level' j = level j) (hup : level i ≤ level' i)
    (hby : level' i ≤ level i + d) : levelGap level' s ≤ max (levelGap level s) d := by
  have hnonneg : 0 ≤ max (levelGap level s) d := le_max_of_le_left levelGap_nonneg
  refine levelGap_le hnonneg fun j hj k hk => ?_
  by_cases hji : j = i
  · subst hji
    by_cases hkj : k = j
    · subst hkj
      simpa using hnonneg
    · -- The raised level stands above the least by no more than the raise.
      rw [hother k hk hkj]
      have hk := hleast k hk
      exact le_max_of_le_right (by linarith)
  · rw [hother j hj hji]
    have hgap : level j - level k ≤ levelGap level s := sub_le_levelGap hj hk
    by_cases hki : k = i
    · subst hki
      exact le_max_of_le_left (by linarith)
    · rw [hother k hk hki]
      exact le_max_of_le_left hgap

end GroundCore.Lib
