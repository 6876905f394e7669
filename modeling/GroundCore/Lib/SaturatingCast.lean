import Mathlib.Algebra.Order.Floor.Ring

/-! The casts of a number to the integers of 64 bits and to the unsigned ones of 64 and of 32 bits,
which cut off the fraction and stop at the bounds, and the remainder that goes with the cut. -/

namespace GroundCore.Lib.SaturatingCast

variable {K : Type*} [Field K] [LinearOrder K] [FloorRing K] {x y : K} {n : ℤ}

/-- The integer next to `x` on the side of zero. -/
def truncate (x : K) : ℤ := if 0 ≤ x then ⌊x⌋ else ⌈x⌉

def toI64 (x : K) : ℤ := max (-2 ^ 63) (min (2 ^ 63 - 1) (truncate x))

def toU64 (x : K) : UInt64 := UInt64.ofNat (min (2 ^ 64 - 1) (truncate x).toNat)

def toU32 (x : K) : UInt32 := UInt32.ofNat (min (2 ^ 32 - 1) (truncate x).toNat)

/-- The remainder of a division, with the sign of `x`. -/
def rem (x y : K) : K := x - y * truncate (x / y)

/-- The integers of 64 bits. -/
def InI64 (n : ℤ) : Prop := -2 ^ 63 ≤ n ∧ n ≤ 2 ^ 63 - 1

theorem inI64_toI64 : InI64 (toI64 x) :=
  ⟨le_max_left _ _, max_le (by norm_num) (min_le_left _ _)⟩

theorem truncate_mono (h : x ≤ y) : truncate x ≤ truncate y := by
  unfold truncate
  split
  · next hx => rw [if_pos (hx.trans h)]; exact Int.floor_mono h
  · next hx =>
    split
    · next hy => exact (Int.ceil_nonpos.mpr (not_le.mp hx).le).trans (Int.floor_nonneg.mpr hy)
    · exact Int.ceil_mono h

theorem toI64_mono (h : x ≤ y) : toI64 x ≤ toI64 y :=
  max_le_max le_rfl (min_le_min le_rfl (truncate_mono h))

theorem toNat_toU32 (x : K) : (toU32 x).toNat = min (2 ^ 32 - 1) (truncate x).toNat := by
  have hsize : UInt32.size = 2 ^ 32 := rfl
  exact UInt32.toNat_ofNat_of_lt' (by omega)

/-- The cast of a number below one is zero. -/
theorem toU32_eq_zero_iff : toU32 x = 0 ↔ x < 1 := by
  rw [← UInt32.toNat_inj, toNat_toU32]
  have htrunc : (truncate x).toNat = 0 ↔ x < 1 := by
    rw [Int.toNat_eq_zero, truncate]
    split
    · rw [← Int.lt_add_one_iff, zero_add, Int.floor_lt, Int.cast_one]
    · next hx =>
      exact iff_of_true (Int.ceil_nonpos.mpr (not_le.mp hx).le)
        ((not_le.mp hx).trans one_pos)
  rw [← htrunc]
  show min (2 ^ 32 - 1) (truncate x).toNat = 0 ↔ _
  omega

variable [IsStrictOrderedRing K]

@[simp] theorem truncate_intCast : truncate (n : K) = n := by
  unfold truncate
  split
  · exact Int.floor_intCast n
  · exact Int.ceil_intCast n

theorem toI64_intCast (h : InI64 n) : toI64 (n : K) = n := by
  rw [toI64, truncate_intCast, min_eq_right h.2, max_eq_right h.1]

@[simp] theorem truncate_natCast (m : ℕ) : truncate (m : K) = m := by
  rw [← Int.cast_natCast, truncate_intCast]

theorem toNat_toU64_natCast {m : ℕ} (h : m < 2 ^ 64) : (toU64 (m : K)).toNat = m := by
  rw [toU64, truncate_natCast, Int.toNat_natCast, UInt64.toNat_ofNat_of_lt' (by
    show min (2 ^ 64 - 1) m < UInt64.size
    have hsize : UInt64.size = 2 ^ 64 := rfl
    omega)]
  omega

theorem rem_natCast (a b : ℕ) : rem (a : K) (b : K) = ((a % b : ℕ) : K) := by
  have htrunc : truncate ((a : K) / b) = ((a / b : ℕ) : ℤ) := by
    rw [truncate, if_pos (div_nonneg (Nat.cast_nonneg a) (Nat.cast_nonneg b)),
      Int.floor_div_natCast, Int.floor_natCast, Int.natCast_ediv]
  rw [rem, htrunc, Int.cast_natCast, sub_eq_iff_eq_add, ← Nat.cast_mul, ← Nat.cast_add,
    Nat.mod_add_div]

/-- The cast stays between integers of 64 bits. -/
theorem toI64_between {a b : ℤ} (ha : InI64 a) (hb : InI64 b) (hx : (a : K) ≤ x ∧ x ≤ b) :
    a ≤ toI64 x ∧ toI64 x ≤ b := by
  have hlow := toI64_mono hx.1
  have hhigh := toI64_mono hx.2
  rw [toI64_intCast ha] at hlow
  rw [toI64_intCast hb] at hhigh
  exact ⟨hlow, hhigh⟩

end GroundCore.Lib.SaturatingCast
