import Mathlib.Data.Int.Log
import Mathlib.Data.Rat.Floor
import Mathlib.Tactic.FieldSimp
import Mathlib.Tactic.Linarith
import Mathlib.Tactic.NormNum
import Mathlib.Tactic.Positivity
import GroundCore.Lib.FiniteFloat
import GroundCore.Lib.SaturatingCast

/-! The numbers of `f64`, where an exact result is rounded to the nearest of them, and of two to the
even one.  The two zeros are not told apart. -/

namespace GroundCore.Lib

inductive Double
  | nan
  | infinite (negative : Bool)
  | finite (value : ℚ)
  deriving DecidableEq

namespace Double

/-- The distance between neighbouring numbers around `q`. -/
def ulp (q : ℚ) : ℚ := 2 ^ max (Int.log 2 |q| - 52) (-1074)

/-- The nearest integer, of two the even one. -/
def roundHalfEven (r : ℚ) : ℤ :=
  let below := ⌊r⌋
  if r - below < 1 / 2 then below
  else if 1 / 2 < r - below then below + 1
  else if below % 2 = 0 then below
  else below + 1

def nearest (q : ℚ) : ℚ := roundHalfEven (q / ulp q) * ulp q

def round (q : ℚ) : Double :=
  if 2 ^ 1024 ≤ |nearest q| then infinite (decide (q < 0)) else finite (nearest q)

def add : Double → Double → Double
  | finite x, finite y => round (x + y)
  | finite _, infinite negative => infinite negative
  | infinite negative, finite _ => infinite negative
  | infinite negative, infinite negative' => if negative = negative' then infinite negative else nan
  | nan, _ => nan
  | _, nan => nan

def sub : Double → Double → Double
  | finite x, finite y => round (x - y)
  | finite _, infinite negative => infinite (!negative)
  | infinite negative, finite _ => infinite negative
  | infinite negative, infinite negative' => if negative = negative' then nan else infinite negative
  | nan, _ => nan
  | _, nan => nan

def mul : Double → Double → Double
  | finite x, finite y => round (x * y)
  | finite x, infinite negative =>
    if x = 0 then nan else infinite (decide (x < 0) != negative)
  | infinite negative, finite y =>
    if y = 0 then nan else infinite (negative != decide (y < 0))
  | infinite negative, infinite negative' => infinite (negative != negative')
  | nan, _ => nan
  | _, nan => nan

/-- Division, where zero is the positive zero. -/
def div : Double → Double → Double
  | finite x, finite y =>
    if y = 0 then if x = 0 then nan else infinite (decide (x < 0)) else round (x / y)
  | finite _, infinite _ => finite 0
  | infinite negative, finite y => infinite (negative != decide (y < 0))
  | infinite _, infinite _ => nan
  | nan, _ => nan
  | _, nan => nan

def lt : Double → Double → Bool
  | finite x, finite y => x < y
  | finite _, infinite negative => !negative
  | infinite negative, finite _ => negative
  | infinite negative, infinite negative' => negative && !negative'
  | _, _ => false

def le : Double → Double → Bool
  | finite x, finite y => x ≤ y
  | finite _, infinite negative => !negative
  | infinite negative, finite _ => negative
  | infinite negative, infinite negative' => negative || !negative'
  | _, _ => false

def floor : Double → Double
  | finite x => finite ⌊x⌋
  | x => x

/-- `as u32` -/
def toU32 : Double → UInt32
  | nan => 0
  | infinite negative => if negative then 0 else UInt32.ofNat (2 ^ 32 - 1)
  | finite x => SaturatingCast.toU32 x

/-- `as i64` -/
def toI64 : Double → ℤ
  | nan => 0
  | infinite negative => if negative then -2 ^ 63 else 2 ^ 63 - 1
  | finite x => SaturatingCast.toI64 x

/-- `as f64`, of a number that is one of them. -/
def ofU32 (n : UInt32) : Double := finite n.toNat

instance : Add Double := ⟨add⟩
instance : Sub Double := ⟨sub⟩
instance : Mul Double := ⟨mul⟩
instance : Div Double := ⟨div⟩
instance : LT Double := ⟨fun x y => lt x y = true⟩
instance : DecidableLT Double := fun x y => inferInstanceAs (Decidable (lt x y = true))

/-- `as f64`, of a whole number. -/
instance : NatCast Double := ⟨fun n => round n⟩

instance (n : ℕ) : OfNat Double n := ⟨round n⟩

theorem zero_eq : (0 : Double) = finite 0 := by decide +kernel

@[simp] theorem finite_add_finite (x y : ℚ) : finite x + finite y = round (x + y) := rfl

@[simp] theorem finite_sub_finite (x y : ℚ) : finite x - finite y = round (x - y) := rfl

theorem finite_div_finite {x y : ℚ} (h : y ≠ 0) : finite x / finite y = round (x / y) := if_neg h

@[simp] theorem finite_le_finite {x y : ℚ} : le (finite x) (finite y) = true ↔ x ≤ y :=
  decide_eq_true_iff

@[simp] theorem finite_lt_finite {x y : ℚ} : finite x < finite y ↔ x < y := decide_eq_true_iff

/-! ### The error of rounding -/

variable {q r : ℚ}

theorem roundHalfEven_cases (r : ℚ) :
    (roundHalfEven r = ⌊r⌋ ∧ r - ⌊r⌋ ≤ 1 / 2) ∨ (roundHalfEven r = ⌊r⌋ + 1 ∧ 1 / 2 ≤ r - ⌊r⌋) := by
  unfold roundHalfEven
  dsimp only
  split
  · next h => exact .inl ⟨rfl, h.le⟩
  · next h =>
    split
    · next h' => exact .inr ⟨rfl, h'.le⟩
    · next h' =>
      split
      · exact .inl ⟨rfl, not_lt.mp h'⟩
      · exact .inr ⟨rfl, not_lt.mp h⟩

theorem abs_roundHalfEven_sub_le (r : ℚ) : |(roundHalfEven r : ℚ) - r| ≤ 1 / 2 := by
  have hfloor := Int.floor_le r
  have hlt := Int.lt_floor_add_one r
  rw [abs_le]
  rcases roundHalfEven_cases r with ⟨heq, hle⟩ | ⟨heq, hle⟩ <;> rw [heq] <;> push_cast
  · constructor <;> linarith
  · constructor <;> linarith

@[simp] theorem roundHalfEven_intCast (n : ℤ) : roundHalfEven n = n := by
  rcases roundHalfEven_cases n with ⟨heq, -⟩ | ⟨-, hle⟩
  · rw [heq, Int.floor_intCast]
  · rw [Int.floor_intCast, sub_self] at hle
    norm_num at hle

theorem ulp_pos (q : ℚ) : 0 < ulp q := zpow_pos two_pos _

theorem abs_nearest_sub_le (q : ℚ) : |nearest q - q| ≤ ulp q / 2 := by
  have hulp := ulp_pos q
  have hscaled := mul_le_mul_of_nonneg_right (abs_roundHalfEven_sub_le (q / ulp q)) hulp.le
  rw [← abs_of_pos hulp, ← abs_mul, abs_of_pos hulp, sub_mul, div_mul_cancel₀ _ hulp.ne'] at hscaled
  rw [nearest]
  linarith

@[simp] theorem nearest_zero : nearest 0 = 0 := by
  have hround := roundHalfEven_intCast 0
  rw [Int.cast_zero] at hround
  rw [nearest, zero_div, hround, Int.cast_zero, zero_mul]

/-- Below a power of two, rounding moves a number by at most that power over `2 ^ 54`. -/
theorem abs_nearest_sub_le_zpow {n : ℤ} (h : |q| < 2 ^ n) (hn : -1021 ≤ n) :
    |nearest q - q| ≤ 2 ^ (n - 54) := by
  rcases eq_or_ne q 0 with rfl | hne
  · rw [nearest_zero, sub_self, abs_zero]
    exact (zpow_pos two_pos _).le
  · have hlog := (Int.lt_zpow_iff_log_lt one_lt_two (abs_pos.mpr hne)).mp (by exact_mod_cast h)
    have hulp : ulp q ≤ 2 ^ (n - 53) := zpow_le_zpow_right₀ one_le_two (by omega)
    have hhalf : (2 : ℚ) ^ (n - 53) = 2 ^ (n - 54) * 2 := by
      rw [← zpow_add_one₀ two_ne_zero]
      congr 1
      omega
    have hle := abs_nearest_sub_le q
    linarith

/-- A whole number of 53 bits is not rounded. -/
theorem nearest_natCast {n : ℕ} (h : n < 2 ^ 53) : nearest n = n := by
  rcases Nat.eq_zero_or_pos n with rfl | hpos
  · simp
  · have hlog : Int.log 2 |(n : ℚ)| < 53 := by
      rw [← Int.lt_zpow_iff_log_lt one_lt_two (by positivity), Nat.abs_cast]
      exact_mod_cast h
    have hnonneg : 0 ≤ Int.log 2 |(n : ℚ)| := by
      rw [Nat.abs_cast, Int.log_natCast]
      exact Int.natCast_nonneg _
    obtain ⟨k, hk⟩ : ∃ k : ℕ, max (Int.log 2 |(n : ℚ)| - 52) (-1074) = -(k : ℤ) :=
      ⟨(-max (Int.log 2 |(n : ℚ)| - 52) (-1074)).toNat, by omega⟩
    have hulp : ulp (n : ℚ) = ((2 : ℚ) ^ k)⁻¹ := by rw [ulp, hk, zpow_neg, zpow_natCast]
    have hscaled : (n : ℚ) / ulp n = ((n * 2 ^ k : ℤ) : ℚ) := by
      rw [hulp, div_inv_eq_mul]
      push_cast
      rfl
    rw [nearest, hscaled, roundHalfEven_intCast, ← hscaled, div_mul_cancel₀ _ (ulp_pos _).ne']

/-- Away from zero, rounding moves a number by a small part of itself. -/
theorem abs_nearest_sub_le_mul (h : 1 ≤ q) : |nearest q - q| ≤ q / 2 ^ 53 := by
  have hpos : 0 < |q| := abs_pos.mpr (zero_lt_one.trans_le h).ne'
  have hlog : 0 ≤ Int.log 2 |q| := by
    rw [abs_of_pos (zero_lt_one.trans_le h), ← Int.zpow_le_iff_le_log one_lt_two (by linarith)]
    simpa using h
  have hulp : ulp q = 2 ^ Int.log 2 |q| / 2 ^ 52 := by
    rw [ulp, max_eq_left (by omega), zpow_sub₀ two_ne_zero]
    rfl
  have hle : (2 : ℚ) ^ Int.log 2 |q| ≤ q := by
    have := Int.zpow_log_le_self one_lt_two hpos
    rwa [abs_of_pos (zero_lt_one.trans_le h)] at this ⊢
  have hround := abs_nearest_sub_le q
  rw [hulp] at hround
  calc |nearest q - q| ≤ 2 ^ Int.log 2 |q| / 2 ^ 52 / 2 := hround
    _ = 2 ^ Int.log 2 |q| / 2 ^ 53 := by ring
    _ ≤ q / 2 ^ 53 := by gcongr

theorem nearest_nonneg (h : 0 ≤ q) : 0 ≤ nearest q := by
  have hfloor : 0 ≤ ⌊q / ulp q⌋ := Int.floor_nonneg.mpr (div_nonneg h (ulp_pos q).le)
  refine mul_nonneg ?_ (ulp_pos q).le
  rcases roundHalfEven_cases (q / ulp q) with ⟨heq, -⟩ | ⟨heq, -⟩ <;> rw [heq] <;> norm_cast
  omega

/-- Nothing overflows far below the greatest number. -/
theorem round_eq_finite (h : |q| < 2 ^ 64) : round q = finite (nearest q) := by
  have herror := abs_nearest_sub_le_zpow (n := 64) (by exact_mod_cast h) (by norm_num)
  have htriangle : |nearest q| ≤ |nearest q - q| + |q| := by
    simpa using abs_add_le (nearest q - q) q
  refine if_neg (not_le.mpr (htriangle.trans_lt ?_))
  calc |nearest q - q| + |q| < 2 ^ (10 : ℤ) + 2 ^ 64 := add_lt_add_of_le_of_lt herror h
    _ < 2 ^ 65 := by norm_num
    _ < 2 ^ 1024 := pow_lt_pow_right₀ one_lt_two (by norm_num)

/-- A whole number of 53 bits is one of the numbers. -/
theorem natCast_eq_finite {n : ℕ} (h : n < 2 ^ 53) : (n : Double) = finite n := by
  show round n = finite n
  rw [round_eq_finite, nearest_natCast h]
  rw [Nat.abs_cast]
  exact_mod_cast h.trans (by norm_num)

/-! ### The quotient of two counts -/

theorem nearest_lt_one (h0 : 0 ≤ q) (h : q ≤ 1 - 1 / 2 ^ 32) : nearest q < 1 := by
  have habs : |q| < 2 ^ (0 : ℤ) := by
    rw [abs_of_nonneg h0]
    norm_num
    linarith
  have herror := (abs_le.mp (abs_nearest_sub_le_zpow habs (by norm_num))).2
  norm_num at herror h ⊢
  linarith

theorem one_lt_nearest (h : 1 + 1 / 2 ^ 32 ≤ q) : 1 < nearest q := by
  have herror := (abs_le.mp (abs_nearest_sub_le_mul (by norm_num at h; linarith))).1
  norm_num at herror h ⊢
  linarith

theorem nearest_div_natCast {a b : ℕ} (ha : a < 2 ^ 31) (hb : 0 < b) :
    (nearest (a / b) ≤ 1 ↔ a ≤ b) ∧ (nearest (a / b) = 1 ↔ a = b) := by
  have hb' : (0 : ℚ) < b := by exact_mod_cast hb
  rcases lt_trichotomy a b with hlt | rfl | hlt
  · have hroom : a * 2 ^ 32 + b ≤ b * 2 ^ 32 := by omega
    have hquotient : (a / b : ℚ) ≤ 1 - 1 / 2 ^ 32 := by
      have hroom : (a * 2 ^ 32 + b : ℚ) ≤ b * 2 ^ 32 := by exact_mod_cast hroom
      rw [div_le_iff₀ hb']
      linarith
    have hone := nearest_lt_one (by positivity) hquotient
    exact ⟨⟨fun _ => hlt.le, fun _ => hone.le⟩, ⟨fun h => absurd h hone.ne, fun h => by omega⟩⟩
  · rw [div_self hb'.ne']
    have hone := nearest_natCast (n := 1) (by norm_num)
    rw [Nat.cast_one] at hone
    simp [hone]
  · have hroom : b * 2 ^ 32 + b ≤ a * 2 ^ 32 := by omega
    have hquotient : 1 + 1 / 2 ^ 32 ≤ (a / b : ℚ) := by
      have hroom : (b * 2 ^ 32 + b : ℚ) ≤ a * 2 ^ 32 := by exact_mod_cast hroom
      rw [le_div_iff₀ hb']
      linarith
    have hone := one_lt_nearest hquotient
    exact ⟨⟨fun h => absurd h (not_le.mpr hone), fun h => by omega⟩,
      ⟨fun h => absurd h hone.ne', fun h => by omega⟩⟩

/-- A count below `2 ^ 31` over another count is at most one, or one, exactly when the counts say
so. -/
theorem div_natCast {a b : ℕ} (ha : a < 2 ^ 31) (hb : 0 < b) :
    ∃ value, div (finite a) (round b) = finite value ∧ 0 ≤ value ∧ (value ≤ 1 ↔ a ≤ b) ∧
      (value = 1 ↔ a = b) := by
  have ha' : (a : ℚ) < 2 ^ 31 := by exact_mod_cast ha
  rcases lt_or_ge b (2 ^ 53) with hsmall | hlarge
  · have hround : round b = finite b := natCast_eq_finite hsmall
    have hb' : (1 : ℚ) ≤ b := by exact_mod_cast hb
    have hquotient : |(a / b : ℚ)| < 2 ^ 64 := by
      rw [abs_of_nonneg (by positivity)]
      calc (a / b : ℚ) ≤ a := div_le_self (by positivity) hb'
        _ < 2 ^ 64 := ha'.trans (by norm_num)
    refine ⟨nearest (a / b), ?_, nearest_nonneg (by positivity), nearest_div_natCast ha hb⟩
    rw [hround, div, if_neg (by positivity), round_eq_finite hquotient]
  · have hle : a ≤ b := by omega
    have hne : a ≠ b := by omega
    have hsmall : ∀ value : ℚ, value < 1 → (value ≤ 1 ↔ a ≤ b) ∧ (value = 1 ↔ a = b) := fun _ hlt =>
      ⟨⟨fun _ => hle, fun _ => hlt.le⟩, ⟨fun h => absurd h hlt.ne, fun h => absurd h hne⟩⟩
    rw [round]
    split
    · exact ⟨0, rfl, le_rfl, hsmall 0 one_pos⟩
    · have hdivisor : (2 : ℚ) ^ 52 ≤ nearest b := by
        have hb' : (2 : ℚ) ^ 53 ≤ b := by exact_mod_cast hlarge
        have herror := (abs_le.mp (abs_nearest_sub_le_mul (q := b) (by linarith))).1
        linarith
      have hquotient : (a / nearest b : ℚ) ≤ 1 / 2 ^ 21 := by
        rw [div_le_iff₀ (by linarith)]
        linarith
      have hbounds : 0 ≤ (a / nearest b : ℚ) := div_nonneg (by positivity) (by linarith)
      refine ⟨nearest (a / nearest b), ?_, nearest_nonneg hbounds,
        hsmall _ (nearest_lt_one hbounds (by linarith))⟩
      rw [div, if_neg (by linarith), round_eq_finite]
      rw [abs_of_nonneg hbounds]
      linarith

/-! ### The numbers that are not rounded -/

/-- A multiple of the unit in its last place. -/
def Representable (q : ℚ) : Prop := ∃ k : ℤ, q = k * ulp q

theorem ulp_neg (q : ℚ) : ulp (-q) = ulp q := by rw [ulp, ulp, abs_neg]

theorem Representable.neg (h : Representable q) : Representable (-q) := by
  obtain ⟨k, hk⟩ := h
  exact ⟨-k, by rw [ulp_neg, Int.cast_neg, neg_mul, ← hk]⟩

/-- The larger of two units in the last place is a multiple of the other. -/
theorem exists_ulp_eq_mul (h : ulp q ≤ ulp x) : ∃ n : ℤ, ulp x = n * ulp q := by
  have hexponent := (zpow_le_zpow_iff_right₀ (one_lt_two (α := ℚ))).mp h
  refine ⟨2 ^ (max (Int.log 2 |x| - 52) (-1074) - max (Int.log 2 |q| - 52) (-1074)).toNat, ?_⟩
  rw [ulp, ulp, Int.cast_pow, Int.cast_ofNat, ← zpow_natCast, ← zpow_add₀ two_ne_zero]
  congr 1
  omega

/-- A number with a smaller unit in the last place is below the power of two under `q`. -/
theorem abs_lt_of_ulp_lt (hx : x ≠ 0) (h : ulp x < ulp q) :
    |x| < 2 ^ Int.log 2 |q| ∧ (2 : ℚ) ^ Int.log 2 |q| = (2 ^ 52 : ℤ) * ulp q := by
  have hexponent := (zpow_lt_zpow_iff_right₀ (one_lt_two (α := ℚ))).mp h
  have hlog : Int.log 2 |x| < Int.log 2 |q| := by omega
  have hmax : max (Int.log 2 |q| - 52) (-1074) = Int.log 2 |q| - 52 := by omega
  refine ⟨?_, ?_⟩
  · exact_mod_cast (Int.lt_zpow_iff_log_lt one_lt_two (abs_pos.mpr hx)).mpr hlog
  · rw [ulp, hmax, Int.cast_pow, Int.cast_ofNat, ← zpow_natCast, ← zpow_add₀ two_ne_zero]
    congr 1
    omega

/-- A number of the format that is not above `q` is not above the multiple below `q`. -/
theorem Representable.le_floor (hx : Representable x) (h : x ≤ q) :
    x ≤ ⌊q / ulp q⌋ * ulp q := by
  obtain ⟨k, hk⟩ := hx
  have hulp := ulp_pos q
  rcases eq_or_ne x 0 with rfl | hne
  · exact mul_nonneg (by exact_mod_cast Int.floor_nonneg.mpr (div_nonneg h hulp.le)) hulp.le
  · rcases le_or_gt (ulp q) (ulp x) with hle | hlt
    · obtain ⟨n, hn⟩ := exists_ulp_eq_mul hle
      have hgrid : x = (k * n : ℤ) * ulp q := by
        rw [Int.cast_mul, mul_assoc, ← hn]
        exact hk
      have hfloor : k * n ≤ ⌊q / ulp q⌋ := by
        rw [Int.le_floor, le_div_iff₀ hulp, ← hgrid]
        exact h
      rw [hgrid]
      exact mul_le_mul_of_nonneg_right (by exact_mod_cast hfloor) hulp.le
    · obtain ⟨hbelow, hbinade⟩ := abs_lt_of_ulp_lt hne hlt
      rcases lt_trichotomy q 0 with hneg | rfl | hpos
      · have hlog : (2 : ℚ) ^ Int.log 2 |q| ≤ |q| :=
          Int.zpow_log_le_self one_lt_two (abs_pos.mpr hneg.ne)
        rw [abs_of_neg (h.trans_lt hneg)] at hbelow
        rw [abs_of_neg hneg] at hlog hbelow
        linarith
      · rw [zero_div, Int.floor_zero, Int.cast_zero, zero_mul]
        exact h
      · have hlog : (2 : ℚ) ^ Int.log 2 |q| ≤ |q| :=
          Int.zpow_log_le_self one_lt_two (abs_pos.mpr hpos.ne')
        rw [hbinade, abs_of_pos hpos, ← le_div_iff₀ hulp] at hlog
        have hfloor : (2 ^ 52 : ℤ) ≤ ⌊q / ulp q⌋ := Int.le_floor.mpr hlog
        rw [hbinade] at hbelow
        calc x ≤ |x| := le_abs_self x
          _ ≤ (2 ^ 52 : ℤ) * ulp q := hbelow.le
          _ ≤ ⌊q / ulp q⌋ * ulp q :=
            mul_le_mul_of_nonneg_right (by exact_mod_cast hfloor) hulp.le

/-- A number of the format that is not below `q` is not below the multiple above `q`. -/
theorem Representable.ceil_le (hx : Representable x) (h : q ≤ x) :
    ⌈q / ulp q⌉ * ulp q ≤ x := by
  have hneg := hx.neg.le_floor (neg_le_neg h)
  rw [ulp_neg, neg_div, Int.floor_neg, Int.cast_neg, neg_mul] at hneg
  exact neg_le_neg_iff.mp hneg

theorem floor_le_roundHalfEven (r : ℚ) : ⌊r⌋ ≤ roundHalfEven r := by
  rcases roundHalfEven_cases r with ⟨heq, -⟩ | ⟨heq, -⟩ <;> omega

theorem roundHalfEven_le_ceil (r : ℚ) : roundHalfEven r ≤ ⌈r⌉ := by
  rcases roundHalfEven_cases r with ⟨heq, -⟩ | ⟨heq, hle⟩ <;> rw [heq]
  · exact Int.floor_le_ceil r
  · rw [← Int.lt_iff_add_one_le, Int.lt_ceil]
    linarith

/-- Rounding does not cross a number of the format. -/
theorem Representable.le_nearest (hx : Representable x) (h : x ≤ q) : x ≤ nearest q :=
  (hx.le_floor h).trans
    (mul_le_mul_of_nonneg_right (by exact_mod_cast floor_le_roundHalfEven _) (ulp_pos q).le)

theorem Representable.nearest_le (hx : Representable x) (h : q ≤ x) : nearest q ≤ x :=
  (mul_le_mul_of_nonneg_right (by exact_mod_cast roundHalfEven_le_ceil _) (ulp_pos q).le).trans
    (hx.ceil_le h)

theorem Representable.nearest_eq (h : Representable q) : nearest q = q :=
  le_antisymm (h.nearest_le le_rfl) (h.le_nearest le_rfl)

theorem representable_mul_zpow {k e : ℤ} (hk : |k| < 2 ^ 53) (he : -1074 ≤ e) :
    Representable (k * 2 ^ e) := by
  rcases eq_or_ne k 0 with rfl | hne
  · exact ⟨0, by simp⟩
  · have hscale : (0 : ℚ) < 2 ^ e := zpow_pos two_pos e
    have hpos : 0 < |(k * 2 ^ e : ℚ)| :=
      abs_pos.mpr (mul_ne_zero (Int.cast_ne_zero.mpr hne) hscale.ne')
    have hlog : Int.log 2 |(k * 2 ^ e : ℚ)| < 53 + e := by
      rw [← Int.lt_zpow_iff_log_lt one_lt_two hpos, abs_mul, abs_of_pos hscale, Nat.cast_ofNat,
        zpow_add₀ two_ne_zero]
      exact mul_lt_mul_of_pos_right (by exact_mod_cast hk) hscale
    refine ⟨k * 2 ^ (e - max (Int.log 2 |(k * 2 ^ e : ℚ)| - 52) (-1074)).toNat, ?_⟩
    rw [ulp, Int.cast_mul, Int.cast_pow, Int.cast_ofNat, ← zpow_natCast, mul_assoc,
      ← zpow_add₀ two_ne_zero]
    congr 2
    omega

theorem abs_div_ulp_lt (q : ℚ) : |q / ulp q| < 2 ^ 53 := by
  have hulp := ulp_pos q
  rw [abs_div, abs_of_pos hulp, div_lt_iff₀ hulp]
  have hlog : |q| < 2 ^ (Int.log 2 |q| + 1) := by
    exact_mod_cast Int.lt_zpow_succ_log_self one_lt_two |q|
  refine hlog.trans_le ?_
  rw [ulp, ← zpow_natCast, ← zpow_add₀ two_ne_zero]
  exact zpow_le_zpow_right₀ one_le_two (by push_cast; omega)

/-- What rounding returns is not rounded again. -/
theorem representable_nearest (q : ℚ) : Representable (nearest q) := by
  have hbound := abs_lt.mp (abs_div_ulp_lt q)
  have hlow : -2 ^ 53 ≤ roundHalfEven (q / ulp q) :=
    le_trans (Int.le_floor.mpr (by exact_mod_cast hbound.1.le)) (floor_le_roundHalfEven _)
  have hhigh : roundHalfEven (q / ulp q) ≤ 2 ^ 53 :=
    (roundHalfEven_le_ceil _).trans (Int.ceil_le.mpr (by exact_mod_cast hbound.2.le))
  rcases (abs_le.mpr ⟨hlow, hhigh⟩).lt_or_eq with hlt | heq
  · exact representable_mul_zpow hlt (le_max_right _ _)
  · -- the next power of two has a greater unit in its last place
    obtain ⟨half, hhalf, hround⟩ : ∃ half : ℤ, |half| < 2 ^ 53 ∧
        roundHalfEven (q / ulp q) = half * 2 := by
      rcases abs_choice (roundHalfEven (q / ulp q)) with h | h
      · exact ⟨2 ^ 52, by norm_num, by omega⟩
      · exact ⟨-2 ^ 52, by norm_num, by omega⟩
    have hnext : nearest q = half * 2 ^ (max (Int.log 2 |q| - 52) (-1074) + 1) := by
      rw [nearest, hround, ulp, zpow_add_one₀ two_ne_zero]
      push_cast
      ring
    rw [hnext]
    exact representable_mul_zpow hhalf (by omega)

theorem representable_iff : Representable q ↔ nearest q = q :=
  ⟨Representable.nearest_eq, fun h => h ▸ representable_nearest q⟩

/-- A multiple of the unit in the last place of `q`, within half a unit of `q`, and an even one of
two such. -/
def RoundsTo (q x : ℚ) : Prop :=
  ∃ m : ℤ, x = m * ulp q ∧ (2 * |q - x| < ulp q ∨ 2 * |q - x| = ulp q ∧ Even m)

theorem roundHalfEven_spec (r : ℚ) :
    2 * |r - roundHalfEven r| < 1 ∨ 2 * |r - roundHalfEven r| = 1 ∧ Even (roundHalfEven r) := by
  have hfloor := Int.floor_le r
  have hlt := Int.lt_floor_add_one r
  have hbelow : |r - (⌊r⌋ : ℚ)| = r - ⌊r⌋ := abs_of_nonneg (by linarith)
  have habove : |r - ((⌊r⌋ + 1 : ℤ) : ℚ)| = 1 - (r - ⌊r⌋) := by
    rw [abs_of_nonpos (by push_cast; linarith)]
    push_cast
    ring
  unfold roundHalfEven
  dsimp only
  split
  · next h => exact .inl (by rw [hbelow]; linarith)
  · next h =>
    split
    · next h' => exact .inl (by rw [habove]; linarith)
    · next h' =>
      have hhalf : r - ⌊r⌋ = 1 / 2 := le_antisymm (not_lt.mp h') (not_lt.mp h)
      split
      · next heven => exact .inr ⟨by rw [hbelow, hhalf]; norm_num, Int.even_iff.mpr heven⟩
      · next hodd =>
        exact .inr ⟨by rw [habove, hhalf]; norm_num, Int.even_iff.mpr (by omega)⟩

theorem roundHalfEven_eq_iff {n : ℤ} :
    roundHalfEven r = n ↔ 2 * |r - n| < 1 ∨ 2 * |r - n| = 1 ∧ Even n := by
  refine ⟨fun h => h ▸ roundHalfEven_spec r, fun h => ?_⟩
  have hspec := roundHalfEven_spec r
  have htriangle : |((roundHalfEven r - n : ℤ) : ℚ)| ≤ |r - roundHalfEven r| + |r - n| := by
    have := abs_add_le (roundHalfEven r - r : ℚ) (r - n)
    rw [abs_sub_comm (roundHalfEven r : ℚ) r] at this
    simpa using this
  by_contra hne
  have hone : (1 : ℚ) ≤ |((roundHalfEven r - n : ℤ) : ℚ)| := by
    exact_mod_cast Int.one_le_abs (sub_ne_zero.mpr hne)
  rcases hspec with hspec | ⟨hspec, heven⟩ <;> rcases h with h | ⟨h, heven'⟩
  · linarith
  · linarith
  · linarith
  · -- two neighbours are not both even
    have hle : |((roundHalfEven r - n : ℤ) : ℚ)| ≤ 1 := by linarith
    have heq : |roundHalfEven r - n| = 1 := by exact_mod_cast le_antisymm hle hone
    have hparity := Int.even_sub.mpr (iff_of_true heven heven')
    rcases abs_eq_abs.mp (heq.trans abs_one.symm) with h | h <;> rw [h] at hparity <;>
      exact absurd hparity (by decide)

theorem nearest_eq_iff : nearest q = x ↔ RoundsTo q x := by
  have hulp := ulp_pos q
  have hscaled : ∀ m : ℤ, 2 * |q - m * ulp q| = 2 * |q / ulp q - m| * ulp q := fun m => by
    rw [mul_assoc, ← abs_of_pos hulp, ← abs_mul, abs_of_pos hulp, sub_mul,
      div_mul_cancel₀ _ hulp.ne']
  constructor
  · rintro rfl
    refine ⟨roundHalfEven (q / ulp q), rfl, ?_⟩
    rw [nearest, hscaled]
    refine (roundHalfEven_spec (q / ulp q)).imp (fun h => ?_) fun h => ⟨?_, h.2⟩
    · exact mul_lt_of_lt_one_left hulp h
    · rw [h.1, one_mul]
  · rintro ⟨m, rfl, h⟩
    have hround : roundHalfEven (q / ulp q) = m := by
      rw [hscaled] at h
      refine roundHalfEven_eq_iff.mpr (h.imp (fun h => ?_) fun h => ⟨?_, h.2⟩)
      · exact lt_of_mul_lt_mul_right (by rwa [one_mul]) hulp.le
      · exact mul_right_cancel₀ hulp.ne' (by rw [h.1, one_mul])
    rw [nearest, hround]

/-! ### Rounding and the order -/

/-- One of the numbers of `f64`. -/
def Valid : Double → Prop
  | finite x => Representable x ∧ |x| < 2 ^ 1024
  | nan | infinite _ => True

instance : DecidablePred Valid
  | finite x =>
    decidable_of_iff (nearest x = x ∧ |x| < 2 ^ 1024) (and_congr_left' representable_iff.symm)
  | nan | infinite _ => isTrue trivial

theorem valid_round (q : ℚ) : (round q).Valid := by
  unfold round
  split
  · trivial
  · next h => exact ⟨representable_nearest q, not_le.mp h⟩

theorem valid_div (x y : Double) : (div x y).Valid := by
  have hzero : (finite 0).Valid := ⟨⟨0, by simp⟩, by norm_num⟩
  cases x <;> cases y <;> simp only [div]
  case finite.finite =>
    split
    · split <;> trivial
    · exact valid_round _
  case finite.infinite => exact hzero
  all_goals trivial

theorem round_of_valid (h : (finite q).Valid) : round q = finite q := by
  unfold round
  rw [h.1.nearest_eq, if_neg (not_le.mpr h.2)]

theorem le_of_le_of_le {x y z : Double} (hxy : le x y = true) (hyz : le y z = true) :
    le x z = true := by
  cases x <;> cases y <;> cases z <;> simp_all [le]
  case finite.finite.finite => linarith
  case infinite.infinite.infinite => rcases hxy with rfl | rfl <;> simp_all

theorem eq_of_le_of_le {x y : Double} (hxy : le x y = true) (hyx : le y x = true) : x = y := by
  cases x <;> cases y <;> simp_all [le]
  case finite.finite => linarith
  case infinite.infinite => rcases hxy with rfl | rfl <;> simp_all

theorem Valid.le_round (hx : (finite x).Valid) (h : x ≤ q) : le (finite x) (round q) = true := by
  have hle : x ≤ nearest q := hx.1.le_nearest h
  have hlow := (abs_lt.mp hx.2).1
  unfold round
  split
  · next hlarge =>
    have hnonneg : ¬ q < 0 := fun hneg => by
      have hround : nearest q ≤ 0 := Representable.nearest_le ⟨0, by simp⟩ hneg.le
      rw [abs_of_nonpos hround] at hlarge
      exact absurd hlow (not_lt.mpr (hle.trans (le_neg_of_le_neg hlarge)))
    simp [le, hnonneg]
  · simpa [le] using hle

theorem Valid.round_le (hx : (finite x).Valid) (h : q ≤ x) : le (round q) (finite x) = true := by
  have hle : nearest q ≤ x := hx.1.nearest_le h
  have hhigh := (abs_lt.mp hx.2).2
  unfold round
  split
  · next hlarge =>
    have hneg : q < 0 := by
      by_contra hnonneg
      have hround : 0 ≤ nearest q := nearest_nonneg (not_lt.mp hnonneg)
      rw [abs_of_nonneg hround] at hlarge
      exact absurd hhigh (not_lt.mpr (hlarge.trans hle))
    simp [le, hneg]
  · simpa [le] using hle

theorem round_eq_finite_iff (hx : (finite x).Valid) : round q = finite x ↔ RoundsTo q x := by
  rw [← nearest_eq_iff]
  unfold round
  constructor
  · split
    · exact nofun
    · exact fun h => finite.inj h
  · rintro rfl
    rw [if_neg (not_le.mpr hx.2)]

/-- A rounded number is not below `x` when the number itself is not, or when it is rounded up
to `x`. -/
theorem le_round_iff (hx : (finite x).Valid) :
    le (finite x) (round q) = true ↔ x ≤ q ∨ RoundsTo q x := by
  rw [← round_eq_finite_iff hx]
  constructor
  · intro h
    rcases le_or_gt x q with hle | hlt
    · exact .inl hle
    · exact .inr (eq_of_le_of_le (hx.round_le hlt.le) h)
  · rintro (hle | heq)
    · exact hx.le_round hle
    · simp [heq, le]

theorem round_le_iff (hx : (finite x).Valid) :
    le (round q) (finite x) = true ↔ q ≤ x ∨ RoundsTo q x := by
  rw [← round_eq_finite_iff hx]
  constructor
  · intro h
    rcases le_or_gt q x with hle | hlt
    · exact .inl hle
    · exact .inr (eq_of_le_of_le h (hx.le_round hlt.le))
  · rintro (hle | heq)
    · exact hx.round_le hle
    · simp [heq, le]

/-- The number `q` is at most `x`, or it is rounded to it. -/
def AtMost (q : ℚ) : Double → Prop
  | finite x => q ≤ x ∨ RoundsTo q x
  | infinite negative => negative = false
  | nan => False

def AtLeast (q : ℚ) : Double → Prop
  | finite x => x ≤ q ∨ RoundsTo q x
  | infinite negative => negative = true
  | nan => False

theorem round_ne_nan (q : ℚ) : round q ≠ nan := by
  unfold round
  split <;> exact nofun

/-- A positive whole number is rounded to a number that is at least one. -/
theorem natCast_cases {n : ℕ} (h : 0 < n) :
    (n : Double) = infinite false ∨ ∃ x, 1 ≤ x ∧ (n : Double) = finite x := by
  have hone : (1 : ℚ) ≤ n := by exact_mod_cast h
  show round n = infinite false ∨ ∃ x, 1 ≤ x ∧ round n = finite x
  unfold round
  split
  · exact .inl (by rw [decide_eq_false (not_lt.mpr (Nat.cast_nonneg n))])
  · refine .inr ⟨nearest n, Representable.le_nearest ?_ hone, rfl⟩
    exact representable_iff.mpr (by decide +kernel)

theorem atMost_iff {y : Double} (hy : y.Valid) (hlow : y ≠ infinite true) :
    AtMost q y ↔ le (round q) y = true := by
  cases y with
  | nan => exact iff_of_false id (by cases round q <;> exact nofun)
  | infinite negative =>
    obtain rfl : negative = false := by simpa using hlow
    refine iff_of_true rfl ?_
    cases hq : round q with
    | nan => exact absurd hq (round_ne_nan q)
    | _ => simp [le]
  | finite x => exact (round_le_iff hy).symm

theorem atLeast_iff {y : Double} (hy : y.Valid) (hhigh : y ≠ infinite false) :
    AtLeast q y ↔ le y (round q) = true := by
  cases y with
  | nan => exact iff_of_false id (by cases round q <;> exact nofun)
  | infinite negative =>
    obtain rfl : negative = true := by simpa using hhigh
    refine iff_of_true rfl ?_
    cases hq : round q with
    | nan => exact absurd hq (round_ne_nan q)
    | _ => simp [le]
  | finite x => exact (le_round_iff hy).symm

/-! ### The order of the defined numbers -/

theorem le_self_of_le {x y : Double} (h : le x y = true) : le x x = true ∧ le y y = true := by
  cases x <;> cases y <;> simp_all [le]

theorem le_of_lt {x y : Double} (h : lt x y = true) : le x y = true := by
  cases x <;> cases y <;> simp_all [le, lt]
  case finite.finite => exact h.le

/-- Of two defined numbers the first is the greater one when it is not less. -/
theorem le_of_lt_eq_false {x y : Double} (h : lt x y = false) (hx : le x x = true)
    (hy : le y y = true) : le y x = true := by
  cases x <;> cases y <;> simp_all [le, lt]
  case infinite.infinite negative negative' => cases negative <;> simp_all

theorem zero_le_sub {x y : Double} (hx : le (finite 0) x = true) (hy : le y (finite 1) = true)
    (h : le y x = true) : le (finite 0) (x - y) = true := by
  show le (finite 0) (sub x y) = true
  cases x <;> cases y <;> simp_all [le, sub]
  case finite.finite =>
    have hzero : (finite 0).Valid := ⟨⟨0, by simp⟩, by norm_num⟩
    exact hzero.le_round (sub_nonneg.mpr h)

/-- What is left of a number is at most the number. -/
theorem sub_le_of_nonneg {y : Double} (hx : (finite x).Valid) (h : le (finite 0) y = true) :
    le (finite x - y) (finite x) = true := by
  show le (sub (finite x) y) (finite x) = true
  cases y with
  | nan => exact absurd h Bool.false_ne_true
  | infinite negative =>
    obtain rfl : negative = false := by simpa [le] using h
    rfl
  | finite y =>
    rw [finite_le_finite] at h
    exact hx.round_le (by linarith)

theorem mul_le_of_le_one {y : Double} (hpos : 0 < x) (hx : (finite x).Valid)
    (h : le y (finite 1) = true) : le (y * finite x) (finite x) = true := by
  show le (mul y (finite x)) (finite x) = true
  cases y with
  | nan => exact absurd h Bool.false_ne_true
  | infinite negative =>
    obtain rfl : negative = true := h
    simp [mul, le, hpos.ne', hpos.le]
  | finite y =>
    rw [finite_le_finite] at h
    exact hx.round_le (mul_le_of_le_one_left hpos.le h)

/-- The operations on these numbers, with the given functions for those that are not arithmetic. -/
@[reducible] def floatOps (cos sin toF32 : Double → Double) (remEuclid : Double → Double → Double)
    (toBits : Double → UInt64) : FloatOps Double Double where
  neg := sub (finite 0)
  lit := round
  lt := lt
  le := le
  abs x := if lt x (finite 0) then sub (finite 0) x else x
  cos := cos
  sin := sin
  remEuclid := remEuclid
  toI64 x := Int64.ofInt (toI64 x)
  toBits := toBits
  toF32 := toF32
  ofF32 := id

end Double

/-- Arithmetic with the rounding of `f64`: `toDouble x` is the number that `x` stands for. -/
class IeeeFloat (F64 : Type) (F32 : outParam Type) [FloatOps F64 F32] where
  toDouble : F64 → Double
  lt_eq (x y : F64) : FloatOps.lt x y = (toDouble x).lt (toDouble y)
  le_eq (x y : F64) : FloatOps.le x y = (toDouble x).le (toDouble y)
  toDouble_lit (q : ℚ) : toDouble (FloatOps.lit q : F64) = .round q
  toDouble_add (x y : F64) : toDouble (x + y) = toDouble x + toDouble y
  toDouble_sub (x y : F64) : toDouble (x - y) = toDouble x - toDouble y
  toDouble_mul (x y : F64) : toDouble (x * y) = toDouble x * toDouble y
  toDouble_div (x y : F64) : toDouble y ≠ .finite 0 → toDouble (x / y) = toDouble x / toDouble y

/-- The numbers themselves. -/
@[reducible] def IeeeFloat.double (cos sin toF32 : Double → Double)
    (remEuclid : Double → Double → Double) (toBits : Double → UInt64) :
    letI := Double.floatOps cos sin toF32 remEuclid toBits
    IeeeFloat Double Double :=
  letI := Double.floatOps cos sin toF32 remEuclid toBits
  { toDouble := id
    lt_eq := fun _ _ => rfl
    le_eq := fun _ _ => rfl
    toDouble_lit := fun _ => rfl
    toDouble_add := fun _ _ => rfl
    toDouble_sub := fun _ _ => rfl
    toDouble_mul := fun _ _ => rfl
    toDouble_div := fun _ _ _ => rfl }

namespace IeeeFloat

variable {F64 F32 : Type} [FloatOps F64 F32] [IeeeFloat F64 F32]

theorem toDouble_lit_of_valid {q : ℚ} (h : (Double.finite q).Valid) :
    toDouble (FloatOps.lit q : F64) = .finite q :=
  (toDouble_lit q).trans (Double.round_of_valid h)

/-- A fold by an operation that chooses one of two numbers, which bounds those of them that are
defined, chooses one that bounds all defined ones. -/
theorem foldl_choice {op : F64 → F64 → F64} {R : Double → Double → Prop}
    (hright : ∀ {x y}, R x y → R y y) (htrans : ∀ {x y z}, R x y → R y z → R x z)
    (hop : ∀ x y, R (toDouble x) (toDouble x) → R (toDouble x) (toDouble (op x y)) ∧
      (R (toDouble y) (toDouble y) → R (toDouble y) (toDouble (op x y))) ∧
      (op x y = x ∨ op x y = y)) (xs : List F64) {x : F64} (hx : R (toDouble x) (toDouble x)) :
    R (toDouble x) (toDouble (xs.foldl op x)) ∧
      (∀ y ∈ xs, R (toDouble y) (toDouble y) → R (toDouble y) (toDouble (xs.foldl op x))) ∧
      (xs.foldl op x = x ∨ xs.foldl op x ∈ xs) := by
  induction xs generalizing x with
  | nil => exact ⟨hx, nofun, .inl rfl⟩
  | cons y xs ih =>
    obtain ⟨hfirst, hsecond, hchoice⟩ := hop x y hx
    obtain ⟨hstart, hall, hmem⟩ := ih (hright hfirst)
    rw [List.foldl_cons]
    refine ⟨htrans hfirst hstart, ?_, ?_⟩
    · rw [List.forall_mem_cons]
      exact ⟨fun hy => htrans (hsecond hy) hstart, hall⟩
    · rcases hmem with hmem | hmem
      · rw [hmem]
        exact hchoice.imp_right fun h => by rw [h]; exact List.mem_cons_self
      · exact .inr (List.mem_cons_of_mem y hmem)

theorem foldl_fmax (xs : List F64) {x : F64} (hx : (toDouble x).le (toDouble x) = true) :
    (toDouble x).le (toDouble (xs.foldl FloatOps.fmax x)) = true ∧
      (∀ y ∈ xs, (toDouble y).le (toDouble y) = true →
        (toDouble y).le (toDouble (xs.foldl FloatOps.fmax x)) = true) ∧
      (xs.foldl FloatOps.fmax x = x ∨ xs.foldl FloatOps.fmax x ∈ xs) := by
  refine foldl_choice (R := fun x y => x.le y = true) (fun h => (Double.le_self_of_le h).2)
    Double.le_of_le_of_le (fun x y hx => ?_) xs hx
  unfold FloatOps.fmax
  rw [lt_eq]
  cases hlt : (toDouble x).lt (toDouble y) with
  | true =>
    rw [if_pos rfl]
    exact ⟨Double.le_of_lt hlt, id, .inr rfl⟩
  | false =>
    rw [if_neg Bool.false_ne_true]
    exact ⟨hx, Double.le_of_lt_eq_false hlt hx, .inl rfl⟩

theorem foldl_fmin (xs : List F64) {x : F64} (hx : (toDouble x).le (toDouble x) = true) :
    (toDouble (xs.foldl FloatOps.fmin x)).le (toDouble x) = true ∧
      (∀ y ∈ xs, (toDouble y).le (toDouble y) = true →
        (toDouble (xs.foldl FloatOps.fmin x)).le (toDouble y) = true) ∧
      (xs.foldl FloatOps.fmin x = x ∨ xs.foldl FloatOps.fmin x ∈ xs) := by
  refine foldl_choice (R := fun x y => y.le x = true) (fun h => (Double.le_self_of_le h).1)
    (fun hxy hyz => Double.le_of_le_of_le hyz hxy) (fun x y hx => ?_) xs hx
  unfold FloatOps.fmin
  rw [lt_eq]
  cases hlt : (toDouble y).lt (toDouble x) with
  | true =>
    rw [if_pos rfl]
    exact ⟨Double.le_of_lt hlt, id, .inr rfl⟩
  | false =>
    rw [if_neg Bool.false_ne_true]
    exact ⟨hx, fun hy => Double.le_of_lt_eq_false hlt hy hx, .inl rfl⟩

/-- A sum is rounded at each number. -/
theorem toDouble_sum (xs : List F64) :
    toDouble (FloatOps.sum xs) = (xs.map toDouble).foldl (· + ·) 0 := by
  have hfold : ∀ x : F64, toDouble (xs.foldl (· + ·) x) =
      (xs.map toDouble).foldl (· + ·) (toDouble x) := by
    induction xs with
    | nil => exact fun _ => rfl
    | cons y xs ih =>
      intro x
      rw [List.foldl_cons, ih, toDouble_add, List.map_cons, List.foldl_cons]
  rw [FloatOps.sum, hfold, toDouble_lit]
  rfl

end IeeeFloat

end GroundCore.Lib
