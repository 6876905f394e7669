import Mathlib.Data.List.DropRight
import Mathlib.Tactic.Linarith
import GroundCore.Lib.Run

/-! Buffers that are added to and emptied.  What a buffer holds is told from the calls that were
made: all that was added since it was last emptied, or the last so many of it when the buffer is
bounded. -/

namespace GroundCore.Lib.Buffer

variable {α : Type*}

inductive Call (α : Type*)
  | add (a : α)
  | empty

/-- What was added, in the order of the calls. -/
def added : List (Call α) → List α
  | [] => []
  | .add a :: calls => a :: added calls
  | .empty :: calls => added calls

/-- What was added before each call that empties the buffer and since the one before it; `held` was
there at first. -/
def batches (held : List α) : List (Call α) → List (List α)
  | [] => []
  | .add a :: calls => batches (held ++ [a]) calls
  | .empty :: calls => held :: batches [] calls

/-- What was added since the last call that empties the buffer. -/
def pending (held : List α) : List (Call α) → List α
  | [] => held
  | .add a :: calls => pending (held ++ [a]) calls
  | .empty :: calls => pending [] calls

/-! ### Bounded buffers -/

/-- A buffer of so many elements keeps the last of them when one is added. -/
theorem rtake_rtake_append_singleton (limit : ℕ) (l : List α) (a : α) :
    (l.rtake limit ++ [a]).rtake limit = (l ++ [a]).rtake limit := by
  cases limit with
  | zero => simp
  | succ n =>
    rw [List.rtake_concat_succ, List.rtake_concat_succ]
    congr 1
    simp only [List.rtake, List.length_drop, List.drop_drop]
    congr 1
    omega

theorem length_rtake (limit : ℕ) (l : List α) :
    (l.rtake limit).length = min limit l.length := by
  simp only [List.rtake, List.length_drop]
  omega

/-- Dropping the first element of a full buffer makes room for one more. -/
theorem rtake_append_singleton_of_full {limit : ℕ} {l : List α} (hpos : 0 < limit)
    (hfull : limit ≤ (l.rtake limit).length) (a : α) :
    (l ++ [a]).rtake limit = (l.rtake limit).drop 1 ++ [a] := by
  rw [length_rtake] at hfull
  obtain ⟨n, rfl⟩ := Nat.exists_eq_succ_of_ne_zero hpos.ne'
  have hlong : n + 1 ≤ l.length := by omega
  rw [List.rtake_concat_succ]
  simp only [List.rtake, List.drop_drop]
  congr 2
  omega

/-- A buffer that is not full keeps all that it holds. -/
theorem rtake_append_singleton_of_room {limit : ℕ} {l : List α}
    (hroom : (l.rtake limit).length < limit) (a : α) :
    (l ++ [a]).rtake limit = l.rtake limit ++ [a] := by
  have hlength := length_rtake limit l
  rw [← rtake_rtake_append_singleton, List.rtake, List.length_append, List.length_singleton,
    Nat.sub_eq_zero_of_le hroom, List.drop_zero]

theorem rtake_append_of_le_length {limit : ℕ} {l l' : List α} (h : limit ≤ l'.length) :
    (l ++ l').rtake limit = l'.rtake limit := by
  have hlength : (l ++ l').length - limit = l.length + (l'.length - limit) := by
    rw [List.length_append]
    omega
  rw [List.rtake, hlength, List.rtake, List.drop_length_add_append]

theorem rtake_append_of_length_le {limit : ℕ} {l l' : List α} (h : l'.length ≤ limit) :
    (l ++ l').rtake limit = l.rtake (limit - l'.length) ++ l' := by
  have hlength : (l ++ l').length - limit = l.length - (limit - l'.length) := by
    rw [List.length_append]
    omega
  have hle : l.length - (limit - l'.length) ≤ l.length := Nat.sub_le _ _
  rw [List.rtake, hlength, List.drop_append_of_le_length hle, List.rtake]

/-- Dropping from the front of a list while it is too long. -/
def trim (limit : ℕ) : List α → List α
  | [] => []
  | a :: l => if limit < (a :: l).length then trim limit l else a :: l

theorem trim_eq_rtake (limit : ℕ) (l : List α) : trim limit l = l.rtake limit := by
  induction l with
  | nil => simp [trim]
  | cons a l ih =>
    rw [trim]
    split
    · next hlong =>
      rw [List.length_cons] at hlong
      rw [ih, List.rtake, List.rtake, List.length_cons,
        show l.length + 1 - limit = l.length - limit + 1 by omega, List.drop_succ_cons]
    · next hfits => rw [List.rtake, Nat.sub_eq_zero_of_le (not_lt.mp hfits), List.drop_zero]

/-- What a filter keeps is the end of a list, when an element that is kept is followed by none that
is not. -/
theorem suffix_filter {p : α → Bool} {l : List α} (h : l.Pairwise fun a b => p a = true → p b = true) :
    l.filter p <:+ l := by
  induction l with
  | nil => exact List.suffix_rfl
  | cons a l ih =>
    obtain ⟨hhead, htail⟩ := List.pairwise_cons.mp h
    cases hkept : p a with
    | true =>
      have hall : (a :: l).filter p = a :: l :=
        List.filter_eq_self.mpr (List.forall_mem_cons.mpr ⟨hkept, fun b hb => hhead b hb hkept⟩)
      exact ⟨[], hall⟩
    | false =>
      rw [List.filter_cons_of_neg (by simp [hkept])]
      exact (ih htail).trans (List.suffix_cons a l)

end GroundCore.Lib.Buffer
