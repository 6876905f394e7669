import Mathlib.Algebra.Order.Field.Power
import Mathlib.Data.List.TakeWhile
import Mathlib.Data.Rat.Floor
import Mathlib.Tactic.FieldSimp
import Mathlib.Tactic.NormNum
import Mathlib.Tactic.Positivity
import Mathlib.Tactic.Ring
import GroundCore.Lib.Double

/-! What a program reads out of text: the characters between two byte positions, whole numbers and
the decimal numbers that `f64` is parsed from.  A text is its list of characters. -/

namespace GroundCore.Lib.NumberText

/-- The characters of the first `n` bytes and those after them.  There are none when the text is
shorter, or when the position is inside of a character. -/
def splitBytes : ℕ → List Char → Option (List Char × List Char)
  | 0, text => some ([], text)
  | _ + 1, [] => none
  | n + 1, c :: text =>
    if c.utf8Size ≤ n + 1 then
      (splitBytes (n + 1 - c.utf8Size) text).map fun (front, back) => (c :: front, back)
    else none

/-- `&text[start..stop]`, which panics where there is no result. -/
def slice (start stop : ℕ) (text : List Char) : Option (List Char) :=
  (splitBytes start text).bind fun (_, rest) => (splitBytes (stop - start) rest).map Prod.fst

/-- The number with the given digits. -/
def decimalValue (digits : List Char) : ℕ :=
  digits.foldl (fun n c => 10 * n + (c.toNat - '0'.toNat)) 0

/-- `parse::<u32>` -/
def parseU32 (text : List Char) : Option ℕ :=
  let digits := match text with
    | '+' :: c :: rest => c :: rest
    | _ => text
  if digits ≠ [] ∧ digits.all Char.isDigit ∧ decimalValue digits < 2 ^ 32 then
    some (decimalValue digits)
  else none

inductive FloatLiteral
  | nan
  | infinite (negative : Bool)
  | decimal (value : ℚ)
  deriving DecidableEq

def FloatLiteral.toDouble : FloatLiteral → Double
  | nan => .nan
  | infinite negative => .infinite negative
  | decimal value => .round value

/-- The exponent after the `e` of a number. -/
def parseScientific (text : List Char) : Option ℤ :=
  let (negative, digits) := match text with
    | '-' :: rest => (true, rest)
    | '+' :: rest => (false, rest)
    | _ => (false, text)
  if digits ≠ [] ∧ digits.all Char.isDigit then
    some (if negative then -(decimalValue digits : ℤ) else decimalValue digits)
  else none

/-- The decimal number of a text without a sign. -/
def parseDecimal (text : List Char) : Option ℚ :=
  let whole := text.takeWhile Char.isDigit
  let rest := text.dropWhile Char.isDigit
  let (fraction, rest) := match rest with
    | '.' :: rest => (rest.takeWhile Char.isDigit, rest.dropWhile Char.isDigit)
    | _ => ([], rest)
  if whole ++ fraction = [] then none
  else
    let exponent := match rest with
      | [] => some 0
      | c :: rest => if c = 'e' ∨ c = 'E' then parseScientific rest else none
    exponent.map fun exponent =>
      (decimalValue (whole ++ fraction) : ℚ) * 10 ^ (exponent - (fraction.length : ℤ))

/-- The number that is not a decimal one, in letters of any case. -/
def parseInfNan (negative : Bool) (text : List Char) : Option FloatLiteral :=
  let lower := text.map Char.toLower
  if lower = "inf".toList ∨ lower = "infinity".toList then some (.infinite negative)
  else if lower = "nan".toList then some .nan
  else none

/-- The number of a text after its sign. -/
def parseUnsigned (negative : Bool) (text : List Char) : Option FloatLiteral :=
  match parseDecimal text with
  | some value => some (.decimal (if negative then -value else value))
  | none => parseInfNan negative text

/-- What `parse::<f64>` reads, before it is rounded. -/
def parseFloat : List Char → Option FloatLiteral
  | '-' :: text => parseUnsigned true text
  | '+' :: text => parseUnsigned false text
  | text => parseUnsigned false text

def parseF64 (text : List Char) : Option Double := (parseFloat text).map FloatLiteral.toDouble

/-- The characters that `trim` takes away. -/
def isWhitespace (c : Char) : Bool :=
  let n := c.toNat
  (0x9 ≤ n && n ≤ 0xd) || n = 0x20 || n = 0x85 || n = 0xa0 || n = 0x1680 ||
    (0x2000 ≤ n && n ≤ 0x200a) || n = 0x2028 || n = 0x2029 || n = 0x202f || n = 0x205f || n = 0x3000

def trim (text : List Char) : List Char :=
  ((text.dropWhile isWhitespace).reverse.dropWhile isWhitespace).reverse

/-! ### The size of what is read -/

variable {text front back : List Char} {n : ℕ}

theorem splitBytes_spec (h : splitBytes n text = some (front, back)) :
    text = front ++ back ∧ (front.map Char.utf8Size).sum = n := by
  induction text generalizing n front with
  | nil =>
    cases n with
    | zero =>
      cases h
      exact ⟨rfl, rfl⟩
    | succ n => contradiction
  | cons c text ih =>
    cases n with
    | zero =>
      cases h
      exact ⟨rfl, rfl⟩
    | succ n =>
      rw [splitBytes] at h
      split at h
      · next hsize =>
        obtain ⟨⟨rest, back'⟩, hrest, heq⟩ := Option.map_eq_some_iff.mp h
        obtain ⟨rfl, rfl⟩ := Prod.mk.inj heq
        obtain ⟨htext, hsum⟩ := ih hrest
        refine ⟨by rw [htext]; rfl, ?_⟩
        rw [List.map_cons, List.sum_cons, hsum]
        omega
      · contradiction

/-- A text has at least as many bytes as characters. -/
theorem length_le_sum_utf8Size (text : List Char) : text.length ≤ (text.map Char.utf8Size).sum := by
  induction text with
  | nil => exact le_rfl
  | cons c text ih =>
    have hpos := Char.utf8Size_pos c
    rw [List.length_cons, List.map_cons, List.sum_cons]
    omega

theorem decimalValue_lt {digits : List Char} (h : digits.all Char.isDigit) :
    decimalValue digits < 10 ^ digits.length := by
  have hfold : ∀ n, digits.foldl (fun n c => 10 * n + (c.toNat - '0'.toNat)) n <
      (n + 1) * 10 ^ digits.length := by
    induction digits with
    | nil => simp
    | cons c digits ih =>
      intro n
      rw [List.all_cons, Bool.and_eq_true] at h
      have hdigit : c.toNat - '0'.toNat ≤ 9 := by
        have := h.1
        simp only [Char.isDigit, Bool.and_eq_true, decide_eq_true_eq] at this
        have hle : c.toNat ≤ '9'.toNat := this.2
        show c.toNat - 48 ≤ 9
        have : '9'.toNat = 57 := rfl
        omega
      refine (ih h.2 (10 * n + (c.toNat - '0'.toNat))).trans_le ?_
      rw [List.length_cons, pow_succ, ← mul_assoc, mul_right_comm]
      exact Nat.mul_le_mul_right _ (by omega)
  simpa [decimalValue] using hfold 0

theorem parseU32_lt (h : parseU32 text = some n) : n < 10 ^ text.length := by
  unfold parseU32 at h
  dsimp only at h
  split at h
  · next c rest =>
    split at h
    · next hdigits =>
      obtain rfl := Option.some.inj h
      refine (decimalValue_lt hdigits.2.1).trans_le ?_
      exact Nat.pow_le_pow_right (by norm_num) (by simp)
    · contradiction
  · split at h
    · next hdigits =>
      obtain rfl := Option.some.inj h
      exact decimalValue_lt hdigits.2.1
    · contradiction

theorem all_takeWhile (text : List Char) : (text.takeWhile Char.isDigit).all Char.isDigit := by
  rw [List.all_eq_true]
  exact fun c hc => List.mem_takeWhile_imp hc

/-- A decimal number has at most as many digits as its text has characters. -/
theorem parseDecimal_spec {value : ℚ} (h : parseDecimal text = some value) :
    ∃ mantissa : ℕ, ∃ exponent : ℤ, value = mantissa * 10 ^ exponent ∧
      mantissa < 10 ^ text.length := by
  have hlength : (text.takeWhile Char.isDigit).length + (text.dropWhile Char.isDigit).length =
      text.length := by
    rw [← List.length_append, List.takeWhile_append_dropWhile]
  have hwhole := all_takeWhile text
  unfold parseDecimal at h
  dsimp only at h
  split at h
  · next rest hrest =>
    split at h
    · contradiction
    · obtain ⟨exponent, -, rfl⟩ := Option.map_eq_some_iff.mp h
      refine ⟨_, _, rfl, (decimalValue_lt ?_).trans_le (Nat.pow_le_pow_right (by norm_num) ?_)⟩
      · rw [List.all_append, hwhole, all_takeWhile, Bool.and_self]
      · have hfraction := (List.takeWhile_prefix Char.isDigit (l := rest)).length_le
        rw [hrest, List.length_cons] at hlength
        dsimp only
        rw [List.length_append]
        omega
  · split at h
    · contradiction
    · obtain ⟨exponent, -, rfl⟩ := Option.map_eq_some_iff.mp h
      refine ⟨_, _, rfl, (decimalValue_lt ?_).trans_le (Nat.pow_le_pow_right (by norm_num) ?_)⟩
      · rw [List.append_nil]
        exact hwhole
      · rw [List.append_nil]
        omega

theorem parseUnsigned_spec {negative : Bool} {value : ℚ}
    (h : parseUnsigned negative text = some (.decimal value)) (hpos : 0 < value) :
    ∃ mantissa : ℕ, ∃ exponent : ℤ, value = mantissa * 10 ^ exponent ∧
      mantissa < 10 ^ text.length := by
  unfold parseUnsigned at h
  cases hdecimal : parseDecimal text with
  | none =>
    rw [hdecimal] at h
    unfold parseInfNan at h
    dsimp only at h
    split at h
    · simp at h
    · split at h <;> simp at h
  | some unsigned =>
    rw [hdecimal] at h
    obtain ⟨mantissa, exponent, rfl, hlt⟩ := parseDecimal_spec hdecimal
    have hvalue := FloatLiteral.decimal.inj (Option.some.inj h)
    cases negative with
    | false => exact ⟨mantissa, exponent, hvalue.symm, hlt⟩
    | true =>
      -- a text with a minus has no positive value
      have hnonneg : (0 : ℚ) ≤ mantissa * 10 ^ exponent := by positivity
      rw [if_pos rfl] at hvalue
      exact absurd hpos (by rw [← hvalue]; exact not_lt.mpr (neg_nonpos.mpr hnonneg))

theorem parseFloat_spec {value : ℚ} (h : parseFloat text = some (.decimal value))
    (hpos : 0 < value) :
    ∃ mantissa : ℕ, ∃ exponent : ℤ, value = mantissa * 10 ^ exponent ∧
      mantissa < 10 ^ text.length := by
  have hlonger : ∀ {c : Char} {rest : List Char}, 10 ^ rest.length ≤ 10 ^ (c :: rest).length :=
    fun {c rest} => Nat.pow_le_pow_right (by norm_num) (by simp)
  unfold parseFloat at h
  split at h
  · obtain ⟨mantissa, exponent, heq, hlt⟩ := parseUnsigned_spec h hpos
    exact ⟨mantissa, exponent, heq, hlt.trans_le hlonger⟩
  · obtain ⟨mantissa, exponent, heq, hlt⟩ := parseUnsigned_spec h hpos
    exact ⟨mantissa, exponent, heq, hlt.trans_le hlonger⟩
  · exact parseUnsigned_spec h hpos

/-- A decimal number from one on, of at most `n + 1` characters, has at most `n` decimal places. -/
theorem exists_natCast_of_parseFloat {value : ℚ} (h : parseFloat text = some (.decimal value))
    (hone : 1 ≤ value) (hlength : text.length ≤ n + 1) : ∃ units : ℕ, value * 10 ^ n = units := by
  obtain ⟨mantissa, exponent, rfl, hlt⟩ := parseFloat_spec h (one_pos.trans_le hone)
  have hmantissa : (mantissa : ℚ) < 10 ^ (n + 1) := by
    exact_mod_cast hlt.trans_le (Nat.pow_le_pow_right (by norm_num) hlength)
  have hexponent : -(n : ℤ) ≤ exponent := by
    by_contra hnot
    have hle : (10 : ℚ) ^ exponent ≤ 10 ^ (-(n + 1 : ℕ) : ℤ) :=
      zpow_le_zpow_right₀ (by norm_num) (by push_cast; omega)
    have hsmall : (mantissa : ℚ) * 10 ^ exponent < 1 := by
      calc (mantissa : ℚ) * 10 ^ exponent ≤ mantissa * 10 ^ (-(n + 1 : ℕ) : ℤ) :=
            mul_le_mul_of_nonneg_left hle (by positivity)
        _ < 10 ^ (n + 1) * 10 ^ (-(n + 1 : ℕ) : ℤ) :=
            mul_lt_mul_of_pos_right hmantissa (by positivity)
        _ = 1 := by rw [zpow_neg, zpow_natCast, mul_inv_cancel₀ (by positivity)]
    exact absurd hone (not_le.mpr hsmall)
  refine ⟨mantissa * 10 ^ (exponent + n).toNat, ?_⟩
  have hpower : (10 : ℚ) ^ exponent * 10 ^ n = 10 ^ (exponent + n).toNat := by
    rw [← zpow_natCast, ← zpow_natCast, ← zpow_add₀ (by norm_num), Int.toNat_of_nonneg (by omega)]
  rw [mul_assoc, hpower]
  push_cast
  rfl

end GroundCore.Lib.NumberText
