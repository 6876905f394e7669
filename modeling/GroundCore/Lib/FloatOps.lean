import Mathlib.Data.Int.Log
import Mathlib.Data.Rat.Floor

/-! The operations on `f64` and `f32` of a signal-processing program, with nothing assumed about
them: a result for every `FloatOps` holds for the rounded arithmetic of the machine.  The greatest
of some `f64` is found by a fold from `-∞` that passes over undefined numbers. -/

namespace GroundCore.Lib

class FloatOps (F64 : Type) (F32 : outParam Type) extends
    Add F64, Sub F64, Mul F64, Div F64, Neg F64 where
  lit : ℚ → F64
  lt : F64 → F64 → Bool
  le : F64 → F64 → Bool
  abs : F64 → F64
  cos : F64 → F64
  sin : F64 → F64
  remEuclid : F64 → F64 → F64
  toI64 : F64 → Int64
  toBits : F64 → UInt64
  toF32 : F64 → F32
  ofF32 : F32 → F64

namespace FloatOps

/-- `std::f64::consts::PI`, the nearest `f64` to π. -/
def f64Pi : ℚ := 884279719003555 / 281474976710656

variable {F64 F32 : Type} [FloatOps F64 F32]

def pi : F64 := lit f64Pi

def clamp (x low high : F64) : F64 :=
  let x := if lt x low then low else x
  if lt high x then high else x

/-- The bit pattern of the double next to `x` toward zero, for `x` in the range of the normal
doubles. -/
def doubleBits (x : ℚ) : UInt64 :=
  if x = 0 then 0
  else
    let exponent := Int.log 2 |x|
    let significand := ⌊|x| / 2 ^ exponent * 2 ^ 52⌋.toNat
    let sign := if x < 0 then 2 ^ 63 else 0
    UInt64.ofNat (sign + (exponent + 1023).toNat * 2 ^ 52 + (significand - 2 ^ 52))

/-- Exact arithmetic, with the given cosine and sine. -/
@[reducible] def exact (cos sin : ℚ → ℚ) : FloatOps ℚ ℚ where
  lit := id
  lt x y := decide (x < y)
  le x y := decide (x ≤ y)
  abs x := |x|
  cos := cos
  sin := sin
  remEuclid x y := x - |y| * ⌊x / |y|⌋
  toI64 x := Int64.ofInt (max (-2 ^ 63) (min (2 ^ 63 - 1) (x.num.tdiv x.den)))
  toBits := doubleBits
  toF32 := id
  ofF32 := id

end FloatOps

class TrigOps (F64 : Type) (F32 : outParam Type) extends FloatOps F64 F32 where
  acos : F64 → F64

namespace TrigOps

variable {F64 F32 : Type} [TrigOps F64 F32]

def toRadians (x : F64) : F64 := x * (FloatOps.pi / FloatOps.lit 180)

def toDegrees (x : F64) : F64 := x * (FloatOps.lit 180 / FloatOps.pi)

/-- Exact arithmetic, with the given functions of an angle. -/
@[reducible] def exact (cos sin acos : ℚ → ℚ) : TrigOps ℚ ℚ :=
  { FloatOps.exact cos sin with acos }

end TrigOps

class MaxOps (F64 : Type) (F32 : outParam Type) extends FloatOps F64 F32 where
  negInfinity : F64
  max : F64 → F64 → F64

namespace MaxOps

/-- Exact arithmetic on the numbers above `lowest`, which stands for `-∞`. -/
@[reducible] def exact (cos sin : ℚ → ℚ) (lowest : ℚ) : MaxOps ℚ ℚ :=
  { FloatOps.exact cos sin with negInfinity := lowest, max := fun x y => if x ≤ y then y else x }

end MaxOps

/-- The maximum is the one of two numbers that is defined, or the greater one. -/
class LawfulMax (F64 : Type) (F32 : outParam Type) [MaxOps F64 F32] : Prop where
  le_max_iff (t x y : F64) :
    FloatOps.le t (MaxOps.max x y) = true ↔ FloatOps.le t x = true ∨ FloatOps.le t y = true

namespace LawfulMax

theorem exact (cos sin : ℚ → ℚ) (lowest : ℚ) :
    letI := MaxOps.exact cos sin lowest
    LawfulMax ℚ ℚ := by
  let _ := MaxOps.exact cos sin lowest
  constructor
  intro t x y
  show decide (t ≤ if x ≤ y then y else x) = true ↔ decide (t ≤ x) = true ∨ decide (t ≤ y) = true
  simp only [decide_eq_true_eq]
  split
  · next h => exact ⟨.inr, fun ht => ht.elim (fun ht => ht.trans h) id⟩
  · next h => exact ⟨.inl, fun ht => ht.elim id fun ht => ht.trans (not_le.mp h).le⟩

variable {F64 F32 : Type} [MaxOps F64 F32] [LawfulMax F64 F32]

/-- A bound is reached by the maximum when it is reached by the start or by a number of the list. -/
theorem le_foldl_max_iff (t x : F64) (xs : List F64) :
    FloatOps.le t (xs.foldl MaxOps.max x) = true ↔
      FloatOps.le t x = true ∨ ∃ y ∈ xs, FloatOps.le t y = true := by
  induction xs generalizing x with
  | nil => simp
  | cons y xs ih =>
    rw [List.foldl_cons, ih, le_max_iff, List.exists_mem_cons_iff, or_assoc]

end LawfulMax

end GroundCore.Lib
