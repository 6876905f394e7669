import Mathlib.Data.List.Basic
import Mathlib.Order.Lattice

/-! A binary search by what its callers may rely on: which of several equal elements it finds is
left open. -/

namespace GroundCore.Lib

variable {α : Type} [LinearOrder α]

/-- The position of an element, or else the position where it would keep a sorted list sorted. -/
structure BinarySearch (α : Type) [LinearOrder α] where
  search : List α → α → Except ℕ ℕ
  found : ∀ l a i, search l a = .ok i → l[i]? = some a
  missing : ∀ l a i, l.Pairwise (· ≤ ·) → search l a = .error i →
    i ≤ l.length ∧ (∀ j x, j < i → l[j]? = some x → x < a) ∧
      ∀ j x, i ≤ j → l[j]? = some x → a < x

namespace BinarySearch

/-- The search that finds the first of several equal elements. -/
def first : BinarySearch α where
  search l a :=
    let i := l.findIdx fun x => decide (a ≤ x)
    if l[i]? = some a then .ok i else .error i
  found l a i h := by
    dsimp only at h
    split at h
    · next hfound =>
      cases h
      exact hfound
    · contradiction
  missing l a i hsorted h := by
    dsimp only at h
    split at h
    · contradiction
    · next hother =>
      rw [Except.error.injEq] at h
      subst h
      refine ⟨List.findIdx_le_length, fun j x hj hx => ?_, fun j x hj hx => ?_⟩
      · have hbelow := List.not_of_lt_findIdx hj
        obtain ⟨hlt, rfl⟩ := List.getElem?_eq_some_iff.mp hx
        simpa using hbelow
      · obtain ⟨hlt, rfl⟩ := List.getElem?_eq_some_iff.mp hx
        have hi := Nat.lt_of_le_of_lt hj hlt
        have hreached := List.findIdx_getElem (w := hi)
        rw [List.getElem?_eq_getElem hi, Option.some_inj] at hother
        have hfirst : a < l[l.findIdx fun x => decide (a ≤ x)] :=
          lt_of_le_of_ne (by simpa using hreached) (Ne.symm hother)
        rcases Nat.eq_or_lt_of_le hj with heq | hlt'
        · simpa only [← heq] using hfirst
        · exact hfirst.trans_le (List.pairwise_iff_getElem.mp hsorted _ _ hi hlt hlt')

end BinarySearch

end GroundCore.Lib
