import Mathlib.Algebra.Order.Ring.Int

/-! The types that every layer of the ground station shares: identifiers, times and errors; and the
whole seconds of a duration, which `num_seconds` rounds toward zero. -/

namespace GroundCore

abbrev PassId := String

abbrev SatelliteId := String

abbrev StationId := String

abbrev CustomerId := String

/-- A `DateTime<Utc>`, in nanoseconds from the epoch. -/
abbrev DateTime := ℤ

/-- A `chrono::Duration`, in nanoseconds. -/
abbrev Duration := ℤ

def Duration.milliseconds (n : ℤ) : Duration := n * 1000000

def Duration.seconds (n : ℤ) : Duration := n * 1000000000

def Duration.minutes (n : ℤ) : Duration := Duration.seconds (n * 60)

def Duration.hours (n : ℤ) : Duration := Duration.seconds (n * 3600)

/-- The kinds of `GroundStationError` that the modelled functions return. -/
inductive GroundStationError
  | rfProcessing (message : String)
  | hardware (message : String)
  | database (message : String)
  | notFound (message : String)
  | validation (message : String)
  | federation (message : String)
  | tracking (message : String)
  | invalidConfiguration (message : String)
  deriving DecidableEq, Repr

abbrev Result (α : Type) := Except GroundStationError α

end GroundCore

namespace GroundCore.Duration

def numSeconds (d : Duration) : ℤ := Int.tdiv d (seconds 1)

variable {d d' : ℤ}

/-- The whole seconds by the division that rounds down. -/
theorem numSeconds_of_nonneg (h : 0 ≤ d) : numSeconds d = d / 1000000000 :=
  Int.tdiv_eq_ediv_of_nonneg h

theorem numSeconds_of_neg (h : d < 0) : numSeconds d = -(-d / 1000000000) := by
  have hneg : Int.tdiv (-d) (seconds 1) = -d / 1000000000 :=
    Int.tdiv_eq_ediv_of_nonneg (by omega)
  rw [← hneg, Int.neg_tdiv, neg_neg]
  rfl

/-- Less than a second before zero still counts as no second before it. -/
theorem numSeconds_nonneg_iff : 0 ≤ numSeconds d ↔ -seconds 1 < d := by
  show 0 ≤ numSeconds d ↔ (-1000000000 : ℤ) < d
  rcases lt_or_ge d 0 with h | h
  · rw [numSeconds_of_neg h]
    omega
  · rw [numSeconds_of_nonneg h]
    omega

/-- Less than a second above a bound still counts as within it. -/
theorem numSeconds_le_iff {n : ℤ} (hn : 0 ≤ n) : numSeconds d ≤ n ↔ d < seconds (n + 1) := by
  rw [seconds]
  rcases lt_or_ge d 0 with h | h
  · rw [numSeconds_of_neg h]
    omega
  · rw [numSeconds_of_nonneg h]
    omega

theorem numSeconds_pos_iff : 0 < numSeconds d ↔ seconds 1 ≤ d := by
  rw [← not_le, numSeconds_le_iff le_rfl, zero_add, not_lt]

theorem numSeconds_mono (h : d ≤ d') : numSeconds d ≤ numSeconds d' :=
  Int.tdiv_le_tdiv (by decide) h

theorem seconds_numSeconds_le (h : 0 ≤ d) : seconds (numSeconds d) ≤ d := by
  rw [numSeconds_of_nonneg h]
  show d / 1000000000 * 1000000000 ≤ d
  omega

end GroundCore.Duration
