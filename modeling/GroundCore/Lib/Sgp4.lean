import Mathlib.Data.Fin.VecNotation
import Mathlib.Data.Real.Basic

/-! The SGP4 orbit propagator, a library, as what a program sees of it. -/

namespace GroundCore.Lib

abbrev Vector3 := Fin 3 → ℝ

namespace Vector3

open Matrix (vecHead vecTail)

variable (v : Vector3)

def x : ℝ := vecHead v

def y : ℝ := vecHead (vecTail v)

def z : ℝ := vecHead (vecTail (vecTail v))

@[simp] theorem x_eq : v.x = v 0 := rfl

@[simp] theorem y_eq : v.y = v 1 := rfl

@[simp] theorem z_eq : v.z = v 2 := rfl

end Vector3

/-- Elements are read from the two lines of a TLE, and constants computed from the elements. -/
structure Sgp4 where
  Elements : Type
  Constants : Type
  fromTle : (name line1 line2 : String) → Except String Elements
  /-- The epoch, in nanoseconds since the beginning of 1970. -/
  datetime : Elements → ℤ
  fromElements : Elements → Except String Constants
  /-- Position in km and velocity in km/s, so many minutes after the epoch. -/
  propagate : Constants → ℝ → Except String (Vector3 × Vector3)

/-- The propagator on machine numbers, as far as the position goes. -/
structure PositionSgp4 (F64 : Type) where
  Elements : Type
  Constants : Type
  fromTle : (name : Option String) → (line1 line2 : String) → Except String Elements
  fromElements : Elements → Except String Constants
  /-- The position in km, so many minutes after the epoch. -/
  propagate : Constants → F64 → Except String (F64 × F64 × F64)

end GroundCore.Lib
