import Mathlib.Data.List.Induction
import GroundCore.Lib.FloatOps

/-! The greatest and the least of some numbers, and what the arithmetic of `f64` keeps of the order
of the rational numbers.  Rounding is monotone, so the laws hold of rounded arithmetic as of exact
one, as long as no result overflows and none is undefined. -/

namespace GroundCore.Lib

namespace FloatOps

variable {F64 F32 : Type} [FloatOps F64 F32]

/-- The greater of two numbers, the first when neither is. -/
def fmax (x y : F64) : F64 := if lt x y then y else x

/-- The lesser of two numbers, the first when neither is. -/
def fmin (x y : F64) : F64 := if lt y x then y else x

/-- `==` on numbers, which holds of no undefined one. -/
def feq (x y : F64) : Bool := le x y && le y x

/-- One pass over a list that keeps what was picked until `replace` prefers the next element. -/
def pick {α : Type} (replace : α → α → Bool) (xs : List α) : Option α :=
  xs.foldl (fun picked x => match picked with
    | none => some x
    | some y => if replace x y then some x else some y) none

/-- `max_by` on what an iterator yields: of equal elements the last. -/
def maxBy {α : Type} (key : α → F64) (xs : List α) : Option α :=
  pick (fun x y => !lt (key x) (key y)) xs

/-- `min_by` on what an iterator yields: of equal elements the first. -/
def minBy {α : Type} (key : α → F64) (xs : List α) : Option α :=
  pick (fun x y => lt (key x) (key y)) xs

section Pick

variable {α : Type} {replace : α → α → Bool} {xs : List α} {m : α}

theorem pick_append_singleton (xs : List α) (x : α) :
    pick replace (xs ++ [x]) = match pick replace xs with
      | none => some x
      | some y => if replace x y then some x else some y := by
  rw [pick, List.foldl_append]
  rfl

theorem pick_eq_none_iff : pick replace xs = none ↔ xs = [] := by
  induction xs using List.reverseRecOn with
  | nil => exact iff_of_true rfl rfl
  | append_singleton xs x ih =>
    refine iff_of_false ?_ (by simp)
    rw [pick_append_singleton]
    cases pick replace xs with
    | none => exact nofun
    | some y =>
      show (if replace x y then some x else some y) ≠ none
      split <;> exact nofun

/-- What is picked comes before every element in an order that agrees with the preference. -/
theorem of_pick {R : α → α → Prop} (hrefl : ∀ x, R x x)
    (htrans : ∀ {x y z}, R x y → R y z → R x z) (hnew : ∀ x y, replace x y = true → R x y)
    (hold : ∀ x y, replace x y = false → R y x) (h : pick replace xs = some m) :
    m ∈ xs ∧ ∀ x ∈ xs, R m x := by
  induction xs using List.reverseRecOn generalizing m with
  | nil => contradiction
  | append_singleton xs x ih =>
    rw [pick_append_singleton] at h
    cases hpick : pick replace xs with
    | none =>
      rw [hpick] at h
      obtain rfl := Option.some.inj h
      obtain rfl := pick_eq_none_iff.mp hpick
      exact ⟨by simp, fun z hz => by rw [List.mem_singleton.mp hz]; exact hrefl x⟩
    | some y =>
      obtain ⟨hmem, hfirst⟩ := ih hpick
      rw [hpick] at h
      cases hreplace : replace x y with
      | true =>
        have hx : x = m := by simpa [hreplace] using h
        subst hx
        refine ⟨by simp, fun z hz => ?_⟩
        rcases List.mem_append.mp hz with hz | hz
        · exact htrans (hnew x y hreplace) (hfirst z hz)
        · rw [List.mem_singleton.mp hz]
          exact hrefl x
      | false =>
        have hy : y = m := by simpa [hreplace] using h
        subst hy
        refine ⟨List.mem_append_left _ hmem, fun z hz => ?_⟩
        rcases List.mem_append.mp hz with hz | hz
        · exact hfirst z hz
        · rw [List.mem_singleton.mp hz]
          exact hold x y hreplace

/-- What no later element replaces is picked. -/
theorem pick_cons_of_forall {x : α} (h : ∀ y ∈ xs, replace y x = false) :
    pick replace (x :: xs) = some x := by
  induction xs using List.reverseRecOn with
  | nil => rfl
  | append_singleton xs y ih =>
    rw [← List.cons_append, pick_append_singleton,
      ih fun z hz => h z (List.mem_append_left _ hz)]
    simp only [h y (by simp)]
    rfl

theorem maxBy_eq_none_iff {key : α → F64} : maxBy key xs = none ↔ xs = [] := pick_eq_none_iff

end Pick

/-- The sum of the numbers of an iterator. -/
def sum (xs : List F64) : F64 := xs.foldl (· + ·) (lit 0)

end FloatOps

class ExpOps (F64 : Type) (F32 : outParam Type) extends FloatOps F64 F32 where
  exp : F64 → F64

/-- Exact arithmetic, with the given functions. -/
@[reducible] def ExpOps.exact (cos sin exp : ℚ → ℚ) : ExpOps ℚ ℚ :=
  { FloatOps.exact cos sin with exp }

/-- `val x` is the number that `x` stands for. -/
class FiniteFloat (F64 : Type) (F32 : outParam Type) [FloatOps F64 F32] where
  val : F64 → ℚ
  lt_iff (x y : F64) : FloatOps.lt x y = true ↔ val x < val y
  le_iff (x y : F64) : FloatOps.le x y = true ↔ val x ≤ val y
  val_zero : val (FloatOps.lit 0 : F64) = 0
  sub_pos_iff (x y : F64) : 0 < val (x - y) ↔ val y < val x
  le_add (x a : F64) : 0 ≤ val a → val x ≤ val (x + a)
  div_le_div (x y c : F64) : 0 < val c → val x ≤ val y → val (x / c) ≤ val (y / c)
  lit_zero_div (c : F64) : 0 < val c → val (FloatOps.lit 0 / c) = 0

namespace FiniteFloat

@[reducible] def exact (cos sin : ℚ → ℚ) :
    letI := FloatOps.exact cos sin
    FiniteFloat ℚ ℚ :=
  letI := FloatOps.exact cos sin
  { val := id
    lt_iff := fun x y => decide_eq_true_iff
    le_iff := fun x y => decide_eq_true_iff
    val_zero := rfl
    sub_pos_iff := fun x y => sub_pos
    le_add := fun x a h => le_add_of_nonneg_right h
    div_le_div := fun x y c hc h => div_le_div_of_nonneg_right h hc.le
    lit_zero_div := fun c _ => by show (0 : ℚ) / c = 0; simp }

variable {F64 F32 : Type} [FloatOps F64 F32] [FiniteFloat F64 F32]

theorem lt_eq_false_iff (x y : F64) : FloatOps.lt x y = false ↔ val y ≤ val x := by
  rw [← Bool.not_eq_true, lt_iff, not_lt]

theorem feq_iff (x y : F64) : FloatOps.feq x y = true ↔ val x = val y := by
  rw [FloatOps.feq, Bool.and_eq_true, le_iff, le_iff, le_antisymm_iff]

theorem val_fmax (x y : F64) : val (FloatOps.fmax x y) = max (val x) (val y) := by
  unfold FloatOps.fmax
  split
  · next h => rw [max_eq_right ((lt_iff _ _).mp h).le]
  · next h => rw [max_eq_left ((lt_eq_false_iff _ _).mp (Bool.not_eq_true _ ▸ h))]

theorem val_fmin (x y : F64) : val (FloatOps.fmin x y) = min (val x) (val y) := by
  unfold FloatOps.fmin
  split
  · next h => rw [min_eq_right ((lt_iff _ _).mp h).le]
  · next h => rw [min_eq_left ((lt_eq_false_iff _ _).mp (Bool.not_eq_true _ ▸ h))]

variable {α : Type} {key : α → F64} {xs : List α} {m : α}

theorem of_maxBy (h : FloatOps.maxBy key xs = some m) :
    m ∈ xs ∧ ∀ x ∈ xs, val (key x) ≤ val (key m) := by
  refine FloatOps.of_pick (R := fun x y => val (key y) ≤ val (key x)) (fun _ => le_refl _)
    (fun hxy hyz => hyz.trans hxy) (fun x y h => ?_) (fun x y h => ?_) h
  · rw [Bool.not_eq_true'] at h
    exact (lt_eq_false_iff _ _).mp h
  · rw [Bool.not_eq_false'] at h
    exact ((lt_iff _ _).mp h).le

theorem of_minBy (h : FloatOps.minBy key xs = some m) :
    m ∈ xs ∧ ∀ x ∈ xs, val (key m) ≤ val (key x) :=
  FloatOps.of_pick (R := fun x y => val (key x) ≤ val (key y)) (fun _ => le_refl _)
    (fun hxy hyz => hxy.trans hyz) (fun _ _ h => ((lt_iff _ _).mp h).le)
    (fun _ _ h => (lt_eq_false_iff _ _).mp h) h

end FiniteFloat

/-- Arithmetic without rounding: `val x` is the number that `x` stands for. -/
class ExactFloat (F64 : Type) (F32 : outParam Type) [FloatOps F64 F32] where
  val : F64 → ℚ
  lt_iff (x y : F64) : FloatOps.lt x y = true ↔ val x < val y
  le_iff (x y : F64) : FloatOps.le x y = true ↔ val x ≤ val y
  val_lit (q : ℚ) : val (FloatOps.lit q : F64) = q
  val_add (x y : F64) : val (x + y) = val x + val y
  val_sub (x y : F64) : val (x - y) = val x - val y
  val_mul (x y : F64) : val (x * y) = val x * val y

namespace ExactFloat

@[reducible] def exact (cos sin : ℚ → ℚ) :
    letI := FloatOps.exact cos sin
    ExactFloat ℚ ℚ :=
  letI := FloatOps.exact cos sin
  { val := id
    lt_iff := fun _ _ => decide_eq_true_iff
    le_iff := fun _ _ => decide_eq_true_iff
    val_lit := fun _ => rfl
    val_add := fun _ _ => rfl
    val_sub := fun _ _ => rfl
    val_mul := fun _ _ => rfl }

variable {F64 F32 : Type} [FloatOps F64 F32] [ExactFloat F64 F32]

theorem feq_iff (x y : F64) : FloatOps.feq x y = true ↔ val x = val y := by
  rw [FloatOps.feq, Bool.and_eq_true, le_iff, le_iff, le_antisymm_iff]

theorem val_fmax (x y : F64) : val (FloatOps.fmax x y) = max (val x) (val y) := by
  unfold FloatOps.fmax
  by_cases h : FloatOps.lt x y = true
  · rw [if_pos h, max_eq_right ((lt_iff _ _).mp h).le]
  · rw [if_neg h, max_eq_left (not_lt.mp (mt (lt_iff _ _).mpr h))]

theorem val_fmin (x y : F64) : val (FloatOps.fmin x y) = min (val x) (val y) := by
  unfold FloatOps.fmin
  by_cases h : FloatOps.lt y x = true
  · rw [if_pos h, min_eq_right ((lt_iff _ _).mp h).le]
  · rw [if_neg h, min_eq_left (not_lt.mp (mt (lt_iff _ _).mpr h))]

theorem val_foldl_add (xs : List F64) (x : F64) :
    val (xs.foldl (· + ·) x) = val x + (xs.map val).sum := by
  induction xs generalizing x with
  | nil => simp
  | cons y xs ih => rw [List.foldl_cons, ih, val_add, List.map_cons, List.sum_cons, add_assoc]

end ExactFloat

/-- Exact arithmetic with exact quotients. -/
class ExactDivision (F64 : Type) (F32 : outParam Type) [FloatOps F64 F32] extends
    ExactFloat F64 F32 where
  val_div (x y : F64) : val y ≠ 0 → val (x / y) = val x / val y

@[reducible] def ExactDivision.exact (cos sin : ℚ → ℚ) :
    letI := FloatOps.exact cos sin
    ExactDivision ℚ ℚ :=
  letI := FloatOps.exact cos sin
  { ExactFloat.exact cos sin with val_div := fun _ _ _ => rfl }

end GroundCore.Lib
