import Mathlib.Order.WithBot
import GroundCore.Lib.FloatOps

/-! The order of the floating-point numbers, among which some are undefined: no comparison with such
a number holds. -/

namespace GroundCore.Lib

class NanFloat (F64 : Type) (F32 : outParam Type) [FloatOps F64 F32] where
  isNan : F64 → Bool
  le_iff (x y : F64) :
    FloatOps.le x y = true ↔ isNan x = false ∧ isNan y = false ∧ FloatOps.lt y x = false
  isNan_lit (q : ℚ) : isNan (FloatOps.lit q : F64) = false

/-- Comparisons follow each other. -/
class ComparableFloat (F64 : Type) (F32 : outParam Type) [FloatOps F64 F32] : Prop where
  lt_of_lt_of_le {x y z : F64} : FloatOps.lt x y = true → FloatOps.le y z = true →
    FloatOps.lt x z = true
  lt_of_le_of_lt {x y z : F64} : FloatOps.le x y = true → FloatOps.lt y z = true →
    FloatOps.lt x z = true

/-- The maximum passes over undefined numbers, and a number above a literal is above the smaller
literals. -/
class OrderedMax (F64 : Type) (F32 : outParam Type) [MaxOps F64 F32] : Prop where
  lt_max_iff (t x y : F64) :
    FloatOps.lt t (MaxOps.max x y) = true ↔ FloatOps.lt t x = true ∨ FloatOps.lt t y = true
  lt_lit_of_le {q r : ℚ} {x : F64} : q ≤ r → FloatOps.lt (FloatOps.lit r) x = true →
    FloatOps.lt (FloatOps.lit q) x = true
  lit_lt_lit_eq_false {q r : ℚ} : r ≤ q → FloatOps.lt (FloatOps.lit q : F64) (FloatOps.lit r) = false

namespace OrderedMax

theorem exact (cos sin : ℚ → ℚ) (lowest : ℚ) :
    letI := MaxOps.exact cos sin lowest
    OrderedMax ℚ ℚ := by
  let _ := MaxOps.exact cos sin lowest
  refine ⟨fun t x y => ?_, fun {q r x} hle hlt => ?_, fun {q r} hle => ?_⟩
  · show decide (t < if x ≤ y then y else x) = true ↔ decide (t < x) = true ∨ decide (t < y) = true
    simp only [decide_eq_true_eq]
    split
    · next h => exact ⟨.inr, fun ht => ht.elim (fun ht => ht.trans_le h) id⟩
    · next h => exact ⟨.inl, fun ht => ht.elim id fun ht => ht.trans (not_le.mp h)⟩
  · exact decide_eq_true (hle.trans_lt (of_decide_eq_true hlt))
  · exact decide_eq_false hle.not_gt

variable {F64 F32 : Type} [MaxOps F64 F32] [OrderedMax F64 F32]

theorem lt_foldl_max_iff (t x : F64) (xs : List F64) :
    FloatOps.lt t (xs.foldl MaxOps.max x) = true ↔
      FloatOps.lt t x = true ∨ ∃ y ∈ xs, FloatOps.lt t y = true := by
  induction xs generalizing x with
  | nil => simp
  | cons y xs ih =>
    rw [List.foldl_cons, ih, lt_max_iff, List.exists_mem_cons_iff, or_assoc]

/-- The greatest of some numbers and a literal is above no smaller literal than one of the numbers
is. -/
theorem lit_lt_foldl_max_iff {q r : ℚ} (hle : r ≤ q) (xs : List F64) :
    FloatOps.lt (FloatOps.lit q) (xs.foldl MaxOps.max (FloatOps.lit r)) = true ↔
      ∃ y ∈ xs, FloatOps.lt (FloatOps.lit q) y = true := by
  rw [lt_foldl_max_iff, lit_lt_lit_eq_false hle]
  simp

end OrderedMax

/-- Exact arithmetic with one undefined number, which every operation passes on, and with the given
cosine and sine. -/
@[reducible] def FloatOps.withNan (cos sin : ℚ → ℚ) : FloatOps (Option ℚ) (Option ℚ) where
  add := Option.map₂ (· + ·)
  sub := Option.map₂ (· - ·)
  mul := Option.map₂ (· * ·)
  div := Option.map₂ (· / ·)
  neg := Option.map (- ·)
  lit := some
  lt x y := match x, y with
    | some x, some y => decide (x < y)
    | _, _ => false
  le x y := match x, y with
    | some x, some y => decide (x ≤ y)
    | _, _ => false
  abs := Option.map (|·|)
  cos := Option.map cos
  sin := Option.map sin
  remEuclid := Option.map₂ fun x y => x - |y| * ⌊x / |y|⌋
  toI64 x := Int64.ofInt (max (-2 ^ 63) (min (2 ^ 63 - 1) ((x.getD 0).num.tdiv (x.getD 0).den)))
  toBits x := (x.map FloatOps.doubleBits).getD 0x7ff8000000000000
  toF32 := id
  ofF32 := id

@[reducible] def NanFloat.withNan (cos sin : ℚ → ℚ) :
    letI := FloatOps.withNan cos sin
    NanFloat (Option ℚ) (Option ℚ) :=
  letI := FloatOps.withNan cos sin
  { isNan := Option.isNone
    le_iff := fun x y => by
      cases x <;> cases y <;> simp [FloatOps.le, FloatOps.lt]
    isNan_lit := fun _ => rfl }

theorem ComparableFloat.withNan (cos sin : ℚ → ℚ) :
    letI := FloatOps.withNan cos sin
    ComparableFloat (Option ℚ) (Option ℚ) :=
  letI := FloatOps.withNan cos sin
  { lt_of_lt_of_le := fun {x y z} => by
      cases x <;> cases y <;> cases z <;> simp [FloatOps.le, FloatOps.lt]
      exact LT.lt.trans_le
    lt_of_le_of_lt := fun {x y z} => by
      cases x <;> cases y <;> cases z <;> simp [FloatOps.le, FloatOps.lt]
      exact LE.le.trans_lt }

end GroundCore.Lib

/-! The place of every floating-point number among the rational numbers and the two infinities; an
undefined number has none.  Whatever the rounding, comparisons, minima and maxima only depend on the
places of their operands. -/

namespace GroundCore.Lib

/-- The rational numbers between `-∞` and `∞`. -/
abbrev Rank := WithBot (WithTop ℚ)

namespace FloatOps

/-- `f64::MAX`. -/
def f64Max : ℚ := (2 ^ 53 - 1) * 2 ^ 971

class SqrtOps (F64 : Type) (F32 : outParam Type) extends FloatOps F64 F32 where
  sqrt : F64 → F64

/-- Exact arithmetic with the given roots. -/
@[reducible] def SqrtOps.exact (sqrt : ℚ → ℚ) : SqrtOps ℚ ℚ :=
  { FloatOps.exact (fun _ => 1) (fun _ => 0) with sqrt }

variable {F64 F32 : Type} [FloatOps F64 F32]

/-- Only an undefined number differs from itself. -/
def isUndefined (x : F64) : Bool := !le x x

/-- `f64::max`, which passes over an undefined number. -/
def nanMax (x y : F64) : F64 := if lt x y || isUndefined x then y else x

/-- `f64::min`, which passes over an undefined number. -/
def nanMin (x y : F64) : F64 := if lt y x || isUndefined x then y else x

end FloatOps

class RankedFloat (F64 : Type) (F32 : outParam Type) [FloatOps F64 F32] where
  rank : F64 → Option Rank
  lt_iff (x y : F64) : FloatOps.lt x y = true ↔ ∃ a ∈ rank x, ∃ b ∈ rank y, a < b
  le_iff (x y : F64) : FloatOps.le x y = true ↔ ∃ a ∈ rank x, ∃ b ∈ rank y, a ≤ b
  rank_zero : rank (FloatOps.lit 0 : F64) = some ((0 : ℚ) : WithTop ℚ)
  rank_max : rank (FloatOps.lit FloatOps.f64Max : F64) = some ((FloatOps.f64Max : ℚ) : WithTop ℚ)

namespace RankedFloat

/-- Exact arithmetic. -/
@[reducible] def exact (cos sin : ℚ → ℚ) :
    letI := FloatOps.exact cos sin
    RankedFloat ℚ ℚ :=
  letI := FloatOps.exact cos sin
  { rank := fun x => some ((x : WithTop ℚ) : Rank)
    lt_iff := fun x y => by
      show decide (x < y) = true ↔ _
      simp
    le_iff := fun x y => by
      show decide (x ≤ y) = true ↔ _
      simp
    rank_zero := rfl
    rank_max := rfl }

variable {F64 F32 : Type} [FloatOps F64 F32] [RankedFloat F64 F32] {x y : F64} {a b : Rank}

theorem lt_iff_of_rank (hx : rank x = some a) (hy : rank y = some b) :
    FloatOps.lt x y = true ↔ a < b := by
  simp [lt_iff, hx, hy]

theorem le_iff_of_rank (hx : rank x = some a) (hy : rank y = some b) :
    FloatOps.le x y = true ↔ a ≤ b := by
  simp [le_iff, hx, hy]

/-- The finite number that stands for a rational one. -/
def Stands (x : F64) (q : ℚ) : Prop := rank x = some ((q : WithTop ℚ) : Rank)

theorem Stands.unique {q r : ℚ} (hq : Stands x q) (hr : Stands x r) : q = r := by
  have h := Option.some.inj (hq.symm.trans hr)
  exact WithTop.coe_injective (WithBot.coe_injective h)

theorem lt_irrefl (x : F64) : FloatOps.lt x x = false := by
  refine Bool.eq_false_iff.mpr fun h => ?_
  obtain ⟨a, ha, b, hb, hab⟩ := (lt_iff x x).mp h
  obtain rfl := Option.some.inj (ha.symm.trans hb)
  exact hab.false

theorem lt_trans {z : F64} (hxy : FloatOps.lt x y = true) (hyz : FloatOps.lt y z = true) :
    FloatOps.lt x z = true := by
  obtain ⟨a, ha, b, hb, hab⟩ := (lt_iff x y).mp hxy
  obtain ⟨b', hb', c, hc, hbc⟩ := (lt_iff y z).mp hyz
  obtain rfl := Option.some.inj (hb.symm.trans hb')
  exact (lt_iff x z).mpr ⟨a, ha, c, hc, hab.trans hbc⟩

theorem isUndefined_eq_false_iff : FloatOps.isUndefined x = false ↔ (rank x).isSome := by
  rw [FloatOps.isUndefined, Bool.not_eq_false', le_iff, Option.isSome_iff_exists]
  constructor
  · rintro ⟨a, ha, -⟩
    exact ⟨a, ha⟩
  · rintro ⟨a, ha⟩
    exact ⟨a, ha, a, ha, le_refl a⟩

theorem rank_nanMax (hx : rank x = some a) (hy : rank y = some b) :
    rank (FloatOps.nanMax x y) = some (max a b) := by
  have hnan : FloatOps.isUndefined x = false := isUndefined_eq_false_iff.mpr (by simp [hx])
  unfold FloatOps.nanMax
  rw [hnan, Bool.or_false]
  by_cases h : FloatOps.lt x y = true
  · rw [if_pos h, hy, max_eq_right ((lt_iff_of_rank hx hy).mp h).le]
  · rw [if_neg h, hx, max_eq_left (not_lt.mp (mt (lt_iff_of_rank hx hy).mpr h))]

theorem rank_nanMin (hx : rank x = some a) (hy : rank y = some b) :
    rank (FloatOps.nanMin x y) = some (min a b) := by
  have hnan : FloatOps.isUndefined x = false := isUndefined_eq_false_iff.mpr (by simp [hx])
  unfold FloatOps.nanMin
  rw [hnan, Bool.or_false]
  by_cases h : FloatOps.lt y x = true
  · rw [if_pos h, hy, min_eq_right ((lt_iff_of_rank hy hx).mp h).le]
  · rw [if_neg h, hx, min_eq_left (not_lt.mp (mt (lt_iff_of_rank hy hx).mpr h))]

/-- The greatest of some defined numbers is below what they are all below. -/
theorem exists_rank_foldl_nanMax {ys : List F64} (hx : rank x = some a)
    (hys : ∀ y ∈ ys, (rank y).isSome) :
    ∃ m, rank (ys.foldl FloatOps.nanMax x) = some m ∧
      ∀ c, m < c ↔ a < c ∧ ∀ y ∈ ys, ∀ b ∈ rank y, b < c := by
  induction ys generalizing x a with
  | nil => exact ⟨a, hx, by simp⟩
  | cons y ys ih =>
    obtain ⟨b, hb⟩ := Option.isSome_iff_exists.mp (hys y List.mem_cons_self)
    obtain ⟨m, hm, hbelow⟩ := ih (rank_nanMax hx hb) fun z hz => hys z (List.mem_cons_of_mem y hz)
    refine ⟨m, hm, fun c => ?_⟩
    rw [hbelow, max_lt_iff]
    simp [hb, and_assoc]

/-- The least of some defined numbers is below what one of them is below. -/
theorem exists_rank_foldl_nanMin {ys : List F64} (hx : rank x = some a)
    (hys : ∀ y ∈ ys, (rank y).isSome) :
    ∃ m, rank (ys.foldl FloatOps.nanMin x) = some m ∧
      ∀ c, m < c ↔ a < c ∨ ∃ y ∈ ys, ∃ b ∈ rank y, b < c := by
  induction ys generalizing x a with
  | nil => exact ⟨a, hx, by simp⟩
  | cons y ys ih =>
    obtain ⟨b, hb⟩ := Option.isSome_iff_exists.mp (hys y List.mem_cons_self)
    obtain ⟨m, hm, hbelow⟩ := ih (rank_nanMin hx hb) fun z hz => hys z (List.mem_cons_of_mem y hz)
    refine ⟨m, hm, fun c => ?_⟩
    rw [hbelow, min_lt_iff]
    simp [hb, or_assoc]

end RankedFloat

end GroundCore.Lib
