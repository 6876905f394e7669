import Mathlib.Data.Fintype.Prod
import Mathlib.Data.Rat.Floor
import Mathlib.Tactic.IntervalCases
import Mathlib.Tactic.Linarith
import Mathlib.Tactic.Ring
import GroundCore.Lib.SaturatingCast

/-! The raster by which a terminal searches its field of uncertainty.  The line and the column of a
step are both remainders of the step, so most rasters miss points of the field. -/

namespace GroundCore.Optical.Pat

open Lib SaturatingCast

structure RasterPattern (K : Type) where
  widthUrad : K
  heightUrad : K
  lineSpacingUrad : K

namespace RasterPattern

variable {K : Type} [Field K] [LinearOrder K] [FloorRing K]

/-- `none` if the step divides by zero. -/
def positionAtStep (p : RasterPattern K) (step : UInt32) : Option (K × K) :=
  let lines := toU32 (p.heightUrad / p.lineSpacingUrad)
  if lines = 0 then none
  else
    let line := step % lines
    let direction : K := if step / lines % 2 = 0 then 1 else -1
    let x := rem (step.toNat : K) (p.widthUrad / p.lineSpacingUrad) * p.lineSpacingUrad * direction
    let y := (line.toNat : K) * p.lineSpacingUrad - p.heightUrad / 2.0
    some (x, y)

/-- The field of uncertainty, which lies around the predicted pointing. -/
def InField (p : RasterPattern K) (q : K × K) : Prop :=
  |q.1| ≤ p.widthUrad / 2.0 ∧ |q.2| ≤ p.heightUrad / 2.0

/-- A raster of `c` columns and `l` lines. -/
def ofLines (c l : ℕ) (s : K) : RasterPattern K :=
  { widthUrad := c * s, heightUrad := l * s, lineSpacingUrad := s }

/-- The point in a column and a line of the grid with the given corner. -/
def gridPoint (s : K) (corner : K × K) (i j : ℕ) : K × K := (corner.1 + i * s, corner.2 + j * s)

/-- The first `l * c` steps stay in the field and visit every point of a grid of `c` columns and `l`
lines exactly once. -/
def Covers (c l : ℕ) (s : K) : Prop :=
  (∀ step : UInt32, step.toNat < l * c →
    ∃ q, (ofLines c l s).positionAtStep step = some q ∧ (ofLines c l s).InField q) ∧
  ∃ corner, ∀ i < c, ∀ j < l, ∃! step : UInt32, step.toNat < l * c ∧
    (ofLines c l s).positionAtStep step = some (gridPoint s corner i j)

/-- The column of a step, counted from the middle of the field. -/
def column (c lines step : ℕ) : ℤ := (if step / lines % 2 = 0 then 1 else -1) * (step % c : ℕ)

theorem abs_column {c lines step : ℕ} (hstep : step < c) :
    |column c lines step| = (step : ℤ) := by
  unfold column
  rw [Nat.mod_eq_of_lt hstep]
  split <;> simp

theorem column_two {l r step : ℕ} (hstep : step < l * 2) (hr : step % l = r) :
    column 2 l step = (r % 2 : ℕ) ∨ column 2 l step = -((r + l) % 2 : ℕ) := by
  have hdiv := Nat.div_add_mod step l
  have hquot : step / l < 2 := Nat.div_lt_of_lt_mul hstep
  unfold column
  rcases Nat.le_one_iff_eq_zero_or_eq_one.mp (Nat.le_of_lt_succ hquot) with h | h
  · rw [h, mul_zero, zero_add] at hdiv
    left
    rw [h, ← hdiv, hr]
    simp
  · rw [h, mul_one] at hdiv
    right
    rw [h, ← hdiv, hr, add_comm]
    simp

variable [IsStrictOrderedRing K]

/-- No step divides by zero exactly if the field is at least as high as one line. -/
theorem positionAtStep_ne_none_iff {p : RasterPattern K} (hspacing : 0 < p.lineSpacingUrad) :
    (∀ step, p.positionAtStep step ≠ none) ↔ p.lineSpacingUrad ≤ p.heightUrad := by
  have hlines : toU32 (p.heightUrad / p.lineSpacingUrad) = 0 ↔
      ¬ p.lineSpacingUrad ≤ p.heightUrad := by
    rw [toU32_eq_zero_iff, div_lt_one hspacing, not_le]
  unfold positionAtStep
  constructor
  · intro h
    by_contra hlow
    exact h 0 (if_pos (hlines.mpr hlow))
  · intro hhigh step
    rw [if_neg fun h => hlines.mp h hhigh]
    exact Option.some_ne_none _

theorem positionAtStep_ofLines {c l : ℕ} {s : K} (hl : 0 < l) (hs : 0 < s) (step : UInt32) :
    (ofLines c l s).positionAtStep step =
      some ((column c (min (2 ^ 32 - 1) l) step.toNat : ℤ) * s,
        (step.toNat % min (2 ^ 32 - 1) l : ℕ) * s - l * s / 2) := by
  have hlines : (toU32 (l : K)).toNat = min (2 ^ 32 - 1) l := by
    rw [toNat_toU32, truncate_natCast, Int.toNat_natCast]
  have hne : toU32 (l : K) ≠ 0 := by
    rw [← UInt32.toNat_inj.ne, hlines]
    show min (2 ^ 32 - 1) l ≠ 0
    omega
  have heven : step / toU32 (l : K) % 2 = 0 ↔ step.toNat / min (2 ^ 32 - 1) l % 2 = 0 := by
    rw [← UInt32.toNat_inj, UInt32.toNat_mod, UInt32.toNat_div, hlines]
    rfl
  have htwo : (2.0 : K) = 2 := by norm_num
  dsimp only [positionAtStep, ofLines]
  rw [mul_div_cancel_right₀ _ hs.ne', mul_div_cancel_right₀ _ hs.ne', if_neg hne, rem_natCast,
    UInt32.toNat_mod, hlines, htwo, column]
  simp only [heven]
  split
  · rw [mul_one, one_mul, Int.cast_natCast]
  · rw [mul_neg_one, neg_one_mul, Int.cast_neg, Int.cast_natCast, neg_mul]

/-- A grid point is visited at a step exactly in its column and its line. -/
theorem visits_iff {c l : ℕ} {s : K} (hl : 0 < l) (hs : 0 < s) {step : UInt32} {q : K × K} :
    (ofLines c l s).positionAtStep step = some q ↔
      q.1 = (column c (min (2 ^ 32 - 1) l) step.toNat : ℤ) * s ∧
        q.2 = (step.toNat % min (2 ^ 32 - 1) l : ℕ) * s - l * s / 2 := by
  rw [positionAtStep_ofLines hl hs, Option.some.injEq, Prod.ext_iff]
  exact and_congr eq_comm eq_comm

/-- Multiples of the spacing on the same side of a point differ in their factors. -/
theorem factor_inj {s x : K} (hs : 0 < s) {i j : ℕ} (h : x + i * s = x + j * s) : i = j :=
  Nat.cast_injective (R := K) (mul_right_cancel₀ hs.ne' (add_left_cancel h))

section Covered

variable {c l : ℕ} {s : K}

/-- A number of a step for every column and line of the grid. -/
theorem Covers.exists_steps (hl : 0 < l) (hs : 0 < s) (h : Covers c l s) :
    ∃ (corner : K × K) (t : Fin c → Fin l → ℕ), ∀ i j, (t i j < 2 ^ 32 ∧ t i j < l * c) ∧
      corner.1 + (i : ℕ) * s = (column c (min (2 ^ 32 - 1) l) (t i j) : ℤ) * s ∧
      corner.2 + (j : ℕ) * s = (t i j % min (2 ^ 32 - 1) l : ℕ) * s - l * s / 2 := by
  obtain ⟨-, corner, hgrid⟩ := h
  choose step hstep using fun (i : Fin c) (j : Fin l) => (hgrid i i.2 j j.2).exists
  exact ⟨corner, fun i j => (step i j).toNat, fun i j =>
    ⟨⟨(step i j).toNat_lt, (hstep i j).1⟩, (visits_iff hl hs).mp (hstep i j).2⟩⟩

/-- A grid that is covered has no more lines than a raster can have, and no more points than there
are steps. -/
theorem Covers.bounds (hc : 0 < c) (hl : 0 < l) (hs : 0 < s) (h : Covers c l s) :
    l ≤ 2 ^ 32 - 1 ∧ c * l ≤ 2 ^ 32 := by
  obtain ⟨corner, t, ht⟩ := h.exists_steps hl hs
  have hlines : 0 < min (2 ^ 32 - 1) l := by omega
  constructor
  · have hinj : Function.Injective fun j => (⟨t ⟨0, hc⟩ j % min (2 ^ 32 - 1) l,
        Nat.mod_lt _ hlines⟩ : Fin (min (2 ^ 32 - 1) l)) := by
      intro j j' heq
      refine Fin.ext (factor_inj (x := corner.2) hs ?_)
      rw [(ht ⟨0, hc⟩ j).2.2, (ht ⟨0, hc⟩ j').2.2, Fin.mk.inj heq]
    have hcard := Fintype.card_le_of_injective _ hinj
    rw [Fintype.card_fin, Fintype.card_fin] at hcard
    exact hcard.trans (min_le_left _ _)
  · have hinj : Function.Injective fun p : Fin c × Fin l =>
        (⟨t p.1 p.2, (ht p.1 p.2).1.1⟩ : Fin (2 ^ 32)) := by
      rintro ⟨i, j⟩ ⟨i', j'⟩ heq
      have heq := Fin.mk.inj heq
      refine Prod.ext (Fin.ext (factor_inj (x := corner.1) hs ?_))
        (Fin.ext (factor_inj (x := corner.2) hs ?_))
      · rw [(ht i j).2.1, (ht i' j').2.1, heq]
      · rw [(ht i j).2.2, (ht i' j').2.2, heq]
    have hcard := Fintype.card_le_of_injective _ hinj
    rwa [Fintype.card_prod, Fintype.card_fin, Fintype.card_fin, Fintype.card_fin] at hcard

/-- The last column of a grid of three or more lies outside the field. -/
theorem Covers.columns_le (hc : 0 < c) (hl : 0 < l) (hs : 0 < s) (h : Covers c l s) : c ≤ 2 := by
  have hbound : c ≤ c * l := Nat.le_mul_of_pos_right c hl
  have hlast : c - 1 < 2 ^ 32 := by have := (h.bounds hc hl hs).2; omega
  have hnat : (UInt32.ofNat (c - 1)).toNat = c - 1 := UInt32.toNat_ofNat_of_lt' hlast
  obtain ⟨q, hq, hfield, -⟩ := h.1 (UInt32.ofNat (c - 1)) (by rw [hnat, mul_comm]; omega)
  rw [((visits_iff hl hs).mp hq).1, hnat, abs_mul, abs_of_pos hs, ← Int.cast_abs,
    abs_column (by omega), Int.cast_natCast] at hfield
  have hhalf : ((2 * (c - 1) : ℕ) : K) * s ≤ (c : K) * s := by
    have htwo : (2.0 : K) = 2 := by norm_num
    rw [ofLines, htwo, le_div_iff₀ two_pos] at hfield
    push_cast
    linarith
  have hle := Nat.cast_le.mp (le_of_mul_le_mul_right hhalf hs)
  omega

/-- A line of a grid of two columns is visited at two steps, in neighbouring columns. -/
theorem Covers.exists_pair (hl : 0 < l) (hs : 0 < s) (h : Covers 2 l s) :
    ∃ corner : K × K, ∀ r < l, ∃ a b, (a < l * 2 ∧ a % l = r) ∧ (b < l * 2 ∧ b % l = r) ∧
      corner.1 = (column 2 l a : ℤ) * s ∧ column 2 l b = column 2 l a + 1 := by
  have hmin : min (2 ^ 32 - 1) l = l := min_eq_right (h.bounds (by omega) hl hs).1
  obtain ⟨corner, t, ht⟩ := h.exists_steps hl hs
  rw [hmin] at ht
  have hrow : ∀ i j j', t i j % l = t i j' % l → j = j' := fun i j j' heq => by
    refine Fin.ext (factor_inj (x := corner.2) hs ?_)
    rw [(ht i j).2.2, (ht i j').2.2, heq]
  have hsurj : Function.Surjective fun j => (⟨t 0 j % l, Nat.mod_lt _ hl⟩ : Fin l) :=
    Finite.surjective_of_injective fun j j' heq => hrow 0 j j' (Fin.mk.inj heq)
  refine ⟨corner, fun r hr => ?_⟩
  obtain ⟨j, hj⟩ := hsurj ⟨r, hr⟩
  have hj : t 0 j % l = r := Fin.mk.inj hj
  obtain ⟨⟨-, ha⟩, hax, hay⟩ := ht 0 j
  obtain ⟨⟨-, hb⟩, hbx, hby⟩ := ht 1 j
  have hline : t 1 j % l = t 0 j % l :=
    factor_inj (x := 0) hs (by linarith)
  refine ⟨t 0 j, t 1 j, ⟨ha, hj⟩, ⟨hb, hline.trans hj⟩, by simpa using hax, ?_⟩
  have hcolumn : (column 2 l (t 1 j) : K) * s = (column 2 l (t 0 j) + 1 : ℤ) * s := by
    push_cast
    have hone : ((1 : Fin 2) : ℕ) = 1 := rfl
    rw [hone] at hbx
    simp at hax hbx
    linarith
  exact Int.cast_injective (mul_right_cancel₀ hs.ne' hcolumn)

/-- Of two columns the first two lines would begin in different ones. -/
theorem Covers.lines_eq_one (hl : 0 < l) (hs : 0 < s) (h : Covers 2 l s) : l = 1 := by
  obtain ⟨corner, hpair⟩ := h.exists_pair hl hs
  by_contra hne
  obtain ⟨a, b, ⟨ha, har⟩, ⟨hb, hbr⟩, hcorner, hnext⟩ := hpair 0 (by omega)
  obtain ⟨a', b', ⟨ha', har'⟩, ⟨hb', hbr'⟩, hcorner', hnext'⟩ := hpair 1 (by omega)
  have hsame : column 2 l a = column 2 l a' :=
    Int.cast_injective (mul_right_cancel₀ hs.ne' (hcorner.symm.trans hcorner'))
  have h₁ := column_two ha har
  have h₂ := column_two hb hbr
  have h₃ := column_two ha' har'
  have h₄ := column_two hb' hbr'
  omega

end Covered

/-! ### Rasters that cover their field -/

/-- Every line lies in the field. -/
theorem abs_line_le {s : K} (hs : 0 < s) {line l : ℕ} (hle : line ≤ l) :
    |(line : K) * s - l * s / 2| ≤ l * s / 2 := by
  have hline : (line : K) * s ≤ l * s :=
    mul_le_mul_of_nonneg_right (Nat.cast_le.mpr hle) hs.le
  have hnonneg : 0 ≤ (line : K) * s := mul_nonneg (Nat.cast_nonneg line) hs.le
  rw [abs_le]
  constructor <;> linarith

/-- A raster covers its field if the steps pair off with the places of a grid. -/
theorem covers_of_places {c l : ℕ} {s : K} (hl : 0 < l) (hs : 0 < s) (hlt : l < 2 ^ 32)
    (left : ℤ) (hfield : ∀ t < l * c, 2 * |column c l t| ≤ c)
    (hplaces : ∀ i < c, ∀ j < l, ∃ t < 2 ^ 32, ∀ t',
      t' < l * c ∧ column c l t' = left + i ∧ t' % l = j ↔ t' = t) : Covers c l s := by
  have hmin : min (2 ^ 32 - 1) l = l := min_eq_right (by omega)
  have htwo : (2.0 : K) = 2 := by norm_num
  constructor
  · intro step hstep
    refine ⟨_, positionAtStep_ofLines hl hs step, ?_, ?_⟩
    · have hcolumn : ((2 * |column c l step.toNat| : ℤ) : K) ≤ ((c : ℤ) : K) :=
        Int.cast_le.mpr (hfield step.toNat hstep)
      have hscaled := mul_le_mul_of_nonneg_right hcolumn hs.le
      push_cast at hscaled
      rw [hmin, abs_mul, abs_of_pos hs, ofLines, htwo, le_div_iff₀ two_pos]
      linarith
    · rw [hmin, ofLines, htwo]
      exact abs_line_le hs (Nat.mod_lt _ hl).le
  · refine ⟨((left : K) * s, -(l * s / 2)), fun i hi j hj => ?_⟩
    obtain ⟨t, ht, hunique⟩ := hplaces i hi j hj
    have hvisit : ∀ step : UInt32, step.toNat < l * c ∧
        (ofLines c l s).positionAtStep step =
          some (gridPoint s ((left : K) * s, -(l * s / 2)) i j) ↔ step.toNat = t := by
      intro step
      rw [← hunique, visits_iff hl hs, hmin]
      refine and_congr_right fun _ => and_congr ?_ ?_
      · rw [gridPoint, ← add_mul, mul_left_inj' hs.ne', eq_comm, ← Int.cast_natCast i,
          ← Int.cast_add, Int.cast_inj]
      · rw [gridPoint, neg_add_eq_sub, sub_left_inj, mul_left_inj' hs.ne', Nat.cast_inj, eq_comm]
    have hnat : (UInt32.ofNat t).toNat = t := UInt32.toNat_ofNat_of_lt' ht
    refine ⟨UInt32.ofNat t, (hvisit _).mpr hnat, fun step hstep => ?_⟩
    exact UInt32.toNat_inj.mp (((hvisit step).mp hstep).trans hnat.symm)

theorem covers_one {l : ℕ} {s : K} (hl : 0 < l) (hs : 0 < s) (hlt : l < 2 ^ 32) :
    Covers 1 l s := by
  have hcolumn : ∀ t, column 1 l t = 0 := fun t => by rw [column, Nat.mod_one]; simp
  refine covers_of_places hl hs hlt 0 (fun t _ => by rw [hcolumn]; decide) ?_
  intro i hi j hj
  refine ⟨j, hj.trans hlt, fun t => ?_⟩
  rw [hcolumn, mul_one]
  constructor
  · rintro ⟨ht, -, hmod⟩
    rwa [Nat.mod_eq_of_lt ht] at hmod
  · rintro rfl
    exact ⟨hj, by omega, Nat.mod_eq_of_lt hj⟩

theorem covers_two {s : K} (hs : 0 < s) : Covers 2 1 s := by
  refine covers_of_places one_pos hs (by norm_num) (-1) (by decide) fun i hi j hj => ?_
  refine ⟨1 - i, by omega, fun t => ?_⟩
  obtain rfl : j = 0 := by omega
  constructor
  · rintro ⟨ht, hcolumn, -⟩
    interval_cases t <;> interval_cases i <;> simp [column] at hcolumn ⊢
  · rintro rfl
    interval_cases i <;> decide

/-- A raster of `c` columns and `l` lines covers its field exactly if it has one column, or two of
one line, and its lines can be counted; and no step divides by zero exactly if the field is at least
as high as one line. -/
theorem covers_iff :
    (∀ (c l : ℕ) (s : K), 0 < c → 0 < l → 0 < s →
      (Covers c l s ↔ (c = 1 ∨ c = 2 ∧ l = 1) ∧ l < 2 ^ 32)) ∧
    ∀ p : RasterPattern K, 0 < p.widthUrad → 0 < p.heightUrad → 0 < p.lineSpacingUrad →
      ((∀ step, p.positionAtStep step ≠ none) ↔ p.lineSpacingUrad ≤ p.heightUrad) := by
  refine ⟨fun c l s hc hl hs => ⟨fun h => ?_, ?_⟩,
    fun p _ _ hspacing => positionAtStep_ne_none_iff hspacing⟩
  · have hlines := (h.bounds hc hl hs).1
    refine ⟨?_, by omega⟩
    rcases (by have := h.columns_le hc hl hs; omega : c = 1 ∨ c = 2) with rfl | rfl
    · exact .inl rfl
    · exact .inr ⟨rfl, h.lines_eq_one hl hs⟩
  · rintro ⟨rfl | ⟨rfl, rfl⟩, hlt⟩
    · exact covers_one hl hs hlt
    · exact covers_two hs

/-- In a field of two lines and two columns the third step comes back to the point of the first; a
field that is less high than a line has no positions at all. -/
theorem square_not_covered :
    (ofLines 2 2 (1 : ℚ)).positionAtStep 2 = (ofLines 2 2 (1 : ℚ)).positionAtStep 0 ∧
      ¬ Covers 2 2 (1 : ℚ) ∧ (RasterPattern.mk 4 1 (2 : ℚ)).positionAtStep 0 = none := by
  refine ⟨by decide +kernel, fun h => absurd (h.lines_eq_one two_pos one_pos) (by decide), ?_⟩
  decide +kernel

theorem covers_iff_ones :
    (Covers 1 3 (1 : ℚ) ∧ Covers 2 1 (1 / 2 : ℚ)) ∧
      (RasterPattern.mk 4 2 (2 : ℚ)).positionAtStep 7 ≠ none :=
  have h := covers_iff (K := ℚ)
  ⟨⟨(h.1 1 3 1 one_pos (by norm_num) one_pos).mpr (by norm_num),
    (h.1 2 1 (1 / 2) two_pos one_pos (by norm_num)).mpr (by norm_num)⟩,
    (h.2 ⟨4, 2, 2⟩ (by norm_num) (by norm_num) (by norm_num)).mpr le_rfl 7⟩

end RasterPattern

end GroundCore.Optical.Pat
