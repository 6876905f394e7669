import Mathlib.Data.List.Basic

/-! The maximal runs of a list: the stretches of places whose elements have a property and that no
neighbour could be added to.  A list that is read element by element has the runs that have ended,
and the run that is still open. -/

namespace GroundCore.Lib

variable {α : Type*}

/-- The places from `i` on and before `j` are a maximal run of elements with `p`. -/
structure MaximalRun (p : α → Prop) (l : List α) (i j : ℕ) : Prop where
  lt : i < j
  inside : ∀ k, i ≤ k → k < j → ∃ a, l[k]? = some a ∧ p a
  before : ∀ k a, k + 1 = i → l[k]? = some a → ¬ p a
  after : ∀ a, l[j]? = some a → ¬ p a

/-- All from `start` on have `p`, and the one before does not. -/
structure OpenFrom (p : α → Prop) (l : List α) (start : ℕ) : Prop where
  le : start ≤ l.length
  inside : ∀ k a, start ≤ k → l[k]? = some a → p a
  before : ∀ k a, k + 1 = start → l[k]? = some a → ¬ p a

variable {p : α → Prop} {l : List α} {i j start : ℕ} {a : α}

theorem MaximalRun.le (h : MaximalRun p l i j) : j ≤ l.length := by
  obtain ⟨a, ha, -⟩ := h.inside (j - 1) (by have := h.lt; omega) (by have := h.lt; omega)
  have := (List.getElem?_eq_some_iff.mp ha).1
  omega

theorem openFrom_nil : OpenFrom p [] 0 :=
  ⟨Nat.le_refl 0, fun _ _ _ h => by simp at h, fun _ _ _ h => by simp at h⟩

/-- The run that has not ended yet is the one from the start on. -/
theorem OpenFrom.maximalRun_iff (h : OpenFrom p l start) :
    MaximalRun p l i l.length ↔ i = start ∧ start < l.length := by
  constructor
  · intro hrun
    have hlt := hrun.lt
    rcases Nat.lt_trichotomy i start with hi | rfl | hi
    · obtain ⟨a, hget, ha⟩ := hrun.inside (start - 1) (by omega) (by have := h.le; omega)
      exact absurd ha (h.before _ a (by omega) hget)
    · exact ⟨rfl, hlt⟩
    · have hget : l[i - 1]? = some l[i - 1] := List.getElem?_eq_getElem (by omega)
      exact absurd (h.inside _ _ (by omega) hget) (hrun.before _ _ (by omega) hget)
  · rintro ⟨rfl, hlt⟩
    refine ⟨hlt, fun k hi hk => ?_, h.before, fun a ha => by simp at ha⟩
    have hget : l[k]? = some l[k] := List.getElem?_eq_getElem hk
    exact ⟨_, hget, h.inside k _ hi hget⟩

theorem getElem?_concat_eq_some_iff {k : ℕ} {b : α} :
    (l ++ [a])[k]? = some b ↔ l[k]? = some b ∨ k = l.length ∧ a = b := by
  rw [List.getElem?_append]
  split
  · next hlt =>
    exact ⟨.inl, fun h => h.resolve_right fun heq => absurd heq.1 (Nat.ne_of_lt hlt)⟩
  · next hge =>
    rw [List.getElem?_eq_none (l := l) (Nat.le_of_not_lt hge), List.getElem?_singleton]
    simp only [reduceCtorEq, false_or, Option.ite_none_right_eq_some, Option.some.injEq]
    exact and_congr_left fun _ => by omega

/-- A run stays as it is when an element is added, unless it reaches that element and could have it
too. -/
theorem maximalRun_append (h : j ≤ l.length) :
    MaximalRun p (l ++ [a]) i j ↔ MaximalRun p l i j ∧ (j = l.length → ¬ p a) := by
  have hsame : ∀ k, k < j → (l ++ [a])[k]? = l[k]? := fun k hk =>
    List.getElem?_append_left (Nat.lt_of_lt_of_le hk h)
  constructor
  · intro hrun
    have hlt := hrun.lt
    refine ⟨⟨hlt, fun k hi hk => hsame k hk ▸ hrun.inside k hi hk, fun k b hk hb => ?_,
      fun b hb => ?_⟩, fun hj => hrun.after a (getElem?_concat_eq_some_iff.mpr (.inr ⟨hj, rfl⟩))⟩
    · exact hrun.before k b hk ((hsame k (by omega)).trans hb)
    · exact hrun.after b (getElem?_concat_eq_some_iff.mpr (.inl hb))
  · rintro ⟨hrun, hlast⟩
    have hlt := hrun.lt
    refine ⟨hlt, fun k hi hk => (hsame k hk).symm ▸ hrun.inside k hi hk, fun k b hk hb => ?_,
      fun b hb => ?_⟩
    · exact hrun.before k b hk ((hsame k (by omega)).symm.trans hb)
    · rcases getElem?_concat_eq_some_iff.mp hb with hb | ⟨hj, rfl⟩
      · exact hrun.after b hb
      · exact hlast hj

theorem OpenFrom.append (h : OpenFrom p l start) (ha : p a) : OpenFrom p (l ++ [a]) start := by
  refine ⟨?_, fun k b hk hb => ?_, fun k b hk hb => ?_⟩
  · rw [List.length_append]
    exact Nat.le_add_right_of_le h.le
  · rcases getElem?_concat_eq_some_iff.mp hb with hb | ⟨-, rfl⟩
    · exact h.inside k b hk hb
    · exact ha
  · rcases getElem?_concat_eq_some_iff.mp hb with hb | ⟨rfl, -⟩
    · exact h.before k b hk hb
    · have := h.le
      omega

theorem openFrom_append_length (ha : ¬ p a) : OpenFrom p (l ++ [a]) (l.length + 1) := by
  refine ⟨by simp, fun k b hk hb => ?_, fun k b hk hb => ?_⟩
  · have := (List.getElem?_eq_some_iff.mp hb).1
    simp at this
    omega
  · obtain rfl : k = l.length := by omega
    rw [List.getElem?_concat_length] at hb
    rwa [← Option.some.inj hb]

/-! ### The list of all runs -/

/-- The runs that meet a condition on where they end, in order. -/
structure RunsOf (p : α → Prop) (ended : ℕ → Prop) (l : List α) (runs : List (ℕ × ℕ)) : Prop where
  mem_iff : ∀ run, run ∈ runs ↔ MaximalRun p l run.1 run.2 ∧ ended run.2
  sorted : runs.Pairwise fun first second => first.2 < second.1

/-- The runs before the last element. -/
abbrev EndedRuns (p : α → Prop) (l : List α) : List (ℕ × ℕ) → Prop := RunsOf p (· < l.length) l

abbrev AllRuns (p : α → Prop) (l : List α) : List (ℕ × ℕ) → Prop := RunsOf p (fun _ => True) l

/-- The run that is open at the end of the list, if there is one. -/
def openRun (l : List α) (start : ℕ) : List (ℕ × ℕ) :=
  if start < l.length then [(start, l.length)] else []

variable {runs : List (ℕ × ℕ)}

theorem mem_openRun_iff {run : ℕ × ℕ} :
    run ∈ openRun l start ↔ run = (start, l.length) ∧ start < l.length := by
  unfold openRun
  split <;> simp [*]

theorem endedRuns_nil : EndedRuns p [] [] :=
  ⟨fun run => by simp, .nil⟩

/-- The runs that have ended and the open one are all runs. -/
theorem EndedRuns.all (h : EndedRuns p l runs) (hopen : OpenFrom p l start) :
    AllRuns p l (runs ++ openRun l start) := by
  constructor
  · rintro ⟨i, j⟩
    rw [List.mem_append, h.mem_iff, mem_openRun_iff, Prod.mk.injEq]
    constructor
    · rintro (⟨hrun, -⟩ | ⟨⟨rfl, rfl⟩, hlt⟩)
      · exact ⟨hrun, trivial⟩
      · exact ⟨hopen.maximalRun_iff.mpr ⟨rfl, hlt⟩, trivial⟩
    · rintro ⟨hrun, -⟩
      rcases Nat.lt_or_eq_of_le hrun.le with hlt | rfl
      · exact .inl ⟨hrun, hlt⟩
      · obtain ⟨rfl, hlt⟩ := hopen.maximalRun_iff.mp hrun
        exact .inr ⟨⟨rfl, rfl⟩, hlt⟩
  · refine List.pairwise_append.mpr ⟨h.sorted, ?_, fun run hrun last hlast => ?_⟩
    · unfold openRun
      split <;> simp
    · obtain ⟨rfl, -⟩ := mem_openRun_iff.mp hlast
      obtain ⟨hmax, hlt⟩ := (h.mem_iff run).mp hrun
      -- The element after an ended run does not have `p`, so it comes before the open run.
      by_contra hle
      have hget : l[run.2]? = some l[run.2] := List.getElem?_eq_getElem hlt
      exact hmax.after _ hget (hopen.inside _ _ (Nat.le_of_not_lt hle) hget)

theorem EndedRuns.append (h : EndedRuns p l runs) (ha : p a) : EndedRuns p (l ++ [a]) runs := by
  refine ⟨fun run => ?_, h.sorted⟩
  rw [h.mem_iff, List.length_append, List.length_singleton]
  constructor
  · rintro ⟨hrun, hlt⟩
    exact ⟨(maximalRun_append (Nat.le_of_lt hlt)).mpr
      ⟨hrun, fun heq => absurd heq (Nat.ne_of_lt hlt)⟩, by omega⟩
  · rintro ⟨hrun, hlt⟩
    obtain ⟨hrun, hlast⟩ := (maximalRun_append (Nat.le_of_lt_succ hlt)).mp hrun
    exact ⟨hrun, Nat.lt_of_le_of_ne (Nat.le_of_lt_succ hlt) fun heq => hlast heq ha⟩

/-- An element without `p` ends the open run. -/
theorem AllRuns.append (h : AllRuns p l runs) (ha : ¬ p a) : EndedRuns p (l ++ [a]) runs := by
  refine ⟨fun run => ?_, h.sorted⟩
  rw [h.mem_iff, List.length_append, List.length_singleton]
  constructor
  · rintro ⟨hrun, -⟩
    exact ⟨(maximalRun_append hrun.le).mpr ⟨hrun, fun _ => ha⟩, Nat.lt_succ_of_le hrun.le⟩
  · rintro ⟨hrun, hlt⟩
    exact ⟨((maximalRun_append (Nat.le_of_lt_succ hlt)).mp hrun).1, trivial⟩

end GroundCore.Lib
