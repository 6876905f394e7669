import Mathlib.Algebra.Order.Field.Basic
import Mathlib.Data.Set.Finite.Lemmas
import Mathlib.Tactic.FieldSimp
import Mathlib.Tactic.Ring

/-! Piecewise-linear interpolation through a set of points, constant outside their range: the value
at an argument depends on the points next to it on either side. -/

namespace GroundCore.Lib.PiecewiseLinear

variable {K : Type*}

section Line

variable [Field K] {p q : K × K}

/-- The value at `c` of the line through `p` and `q`. -/
def through (p q : K × K) (c : K) : K := p.2 + (c - p.1) / (q.1 - p.1) * (q.2 - p.2)

/-- The value at `c` between its neighbours; a single one is taken as it is, and without a
neighbour the value is `c` itself. -/
def blend (c : K) : Option (K × K) → Option (K × K) → K
  | some p, some q => through p q c
  | some p, none => p.2
  | none, some q => q.2
  | none, none => c

@[simp] theorem through_left (p q : K × K) : through p q p.1 = p.2 := by simp [through]

theorem through_right (h : p.1 ≠ q.1) : through p q q.1 = q.2 := by
  rw [through, div_self (sub_ne_zero.mpr h.symm), one_mul, add_sub_cancel]

/-- The line through two points of a line is that line. -/
theorem through_eq {o q p r : K × K} (hoq : o.1 ≠ q.1) (hpr : p.1 ≠ r.1)
    (hp : through o q p.1 = p.2) (hr : through o q r.1 = r.2) (c : K) :
    through p r c = through o q c := by
  have hq : q.1 - o.1 ≠ 0 := sub_ne_zero.mpr hoq.symm
  have hr' : r.1 - p.1 ≠ 0 := sub_ne_zero.mpr hpr.symm
  rw [through, ← hp, ← hr]
  unfold through
  field_simp
  ring

end Line

section Neighbours

variable [LinearOrder K] {P : Set (K × K)} {c c' : K} {p q : K × K}
  {lower upper : Option (K × K)}

/-- The last of the points that are not beyond `c`. -/
def IsLower (P : Set (K × K)) (c : K) (p : K × K) : Prop :=
  p ∈ P ∧ p.1 ≤ c ∧ ∀ q ∈ P, q.1 ≤ c → q.1 ≤ p.1

/-- The first of the points beyond `c`. -/
def IsUpper (P : Set (K × K)) (c : K) (p : K × K) : Prop :=
  p ∈ P ∧ c < p.1 ∧ ∀ q ∈ P, c < q.1 → p.1 ≤ q.1

structure Neighbours (P : Set (K × K)) (c : K) (lower upper : Option (K × K)) : Prop where
  lower_iff : ∀ p, lower = some p ↔ IsLower P c p
  upper_iff : ∀ p, upper = some p ↔ IsUpper P c p

theorem exists_isLower (hfin : P.Finite) (h : ∃ p ∈ P, p.1 ≤ c) : ∃ p, IsLower P c p := by
  obtain ⟨p, ⟨hp, hle⟩, hmax⟩ := Set.exists_max_image {p ∈ P | p.1 ≤ c} Prod.fst
    (hfin.subset (Set.sep_subset _ _)) h
  exact ⟨p, hp, hle, fun q hq hqc => hmax q ⟨hq, hqc⟩⟩

theorem exists_isUpper (hfin : P.Finite) (h : ∃ p ∈ P, c < p.1) : ∃ p, IsUpper P c p := by
  obtain ⟨p, ⟨hp, hlt⟩, hmin⟩ := Set.exists_min_image {p ∈ P | c < p.1} Prod.fst
    (hfin.subset (Set.sep_subset _ _)) h
  exact ⟨p, hp, hlt, fun q hq hqc => hmin q ⟨hq, hqc⟩⟩

theorem IsLower.unique (hinj : P.InjOn Prod.fst) (hp : IsLower P c p) (hq : IsLower P c q) :
    p = q :=
  hinj hp.1 hq.1 (le_antisymm (hq.2.2 p hp.1 hp.2.1) (hp.2.2 q hq.1 hq.2.1))

theorem IsUpper.unique (hinj : P.InjOn Prod.fst) (hp : IsUpper P c p) (hq : IsUpper P c q) :
    p = q :=
  hinj hp.1 hq.1 (le_antisymm (hp.2.2 q hq.1 hq.2.1) (hq.2.2 p hp.1 hp.2.1))

/-- Among points with distinct arguments the neighbours are determined. -/
theorem exists_neighbours (hinj : P.InjOn Prod.fst) (c : K) :
    ∃ lower upper, Neighbours P c lower upper := by
  have hlower : ∃ lower : Option (K × K), ∀ p, lower = some p ↔ IsLower P c p := by
    by_cases h : ∃ p, IsLower P c p
    · obtain ⟨p, hp⟩ := h
      exact ⟨some p, fun q => ⟨fun heq => Option.some.inj heq ▸ hp,
        fun hq => congrArg some (hp.unique hinj hq)⟩⟩
    · exact ⟨none, fun q => iff_of_false nofun fun hq => h ⟨q, hq⟩⟩
  have hupper : ∃ upper : Option (K × K), ∀ p, upper = some p ↔ IsUpper P c p := by
    by_cases h : ∃ p, IsUpper P c p
    · obtain ⟨p, hp⟩ := h
      exact ⟨some p, fun q => ⟨fun heq => Option.some.inj heq ▸ hp,
        fun hq => congrArg some (hp.unique hinj hq)⟩⟩
    · exact ⟨none, fun q => iff_of_false nofun fun hq => h ⟨q, hq⟩⟩
  obtain ⟨lower, hlower⟩ := hlower
  obtain ⟨upper, hupper⟩ := hupper
  exact ⟨lower, upper, hlower, hupper⟩

theorem Neighbours.unique {lower' upper' : Option (K × K)} (h : Neighbours P c lower upper)
    (h' : Neighbours P c lower' upper') : lower = lower' ∧ upper = upper' :=
  ⟨Option.ext fun p => (h.lower_iff p).trans (h'.lower_iff p).symm,
    Option.ext fun p => (h.upper_iff p).trans (h'.upper_iff p).symm⟩

/-- Arguments that no point separates have the same neighbours. -/
theorem Neighbours.of_not_separated (h : Neighbours P c lower upper) (hle : c ≤ c')
    (hsep : ¬ ∃ p ∈ P, c < p.1 ∧ p.1 ≤ c') : Neighbours P c' lower upper := by
  have hside : ∀ p ∈ P, p.1 ≤ c' ↔ p.1 ≤ c := fun p hp =>
    ⟨fun hpc => not_lt.mp fun hlt => hsep ⟨p, hp, hlt, hpc⟩, fun hpc => hpc.trans hle⟩
  refine ⟨fun p => (h.lower_iff p).trans ?_, fun p => (h.upper_iff p).trans ?_⟩
  · refine and_congr_right fun hp => ?_
    rw [hside p hp]
    exact and_congr_right fun _ => forall₂_congr fun q hq => by rw [hside q hq]
  · refine and_congr_right fun hp => ?_
    rw [← not_le, ← not_le, hside p hp]
    exact and_congr_right fun _ => forall₂_congr fun q hq => by rw [← not_le, ← not_le, hside q hq]

/-- The points have distinct arguments, and their values do not fall. -/
structure Rising (P : Set (K × K)) : Prop where
  injOn : P.InjOn Prod.fst
  le : ∀ p ∈ P, ∀ q ∈ P, p.1 < q.1 → p.2 ≤ q.2

theorem Rising.le_of_le (h : Rising P) (hp : p ∈ P) (hq : q ∈ P) (hle : p.1 ≤ q.1) :
    p.2 ≤ q.2 := by
  rcases hle.lt_or_eq with hlt | heq
  · exact h.le p hp q hq hlt
  · rw [h.injOn hp hq heq]

end Neighbours

variable [Field K] [LinearOrder K] {P : Set (K × K)} {c c' y y' : K} {p q r : K × K}

/-- `y` is the value at `c` of the interpolation through `P`. -/
def Interpolates (P : Set (K × K)) (c y : K) : Prop :=
  ∃ lower upper, Neighbours P c lower upper ∧ blend c lower upper = y

theorem Interpolates.unique (h : Interpolates P c y) (h' : Interpolates P c y') : y = y' := by
  obtain ⟨lower, upper, hnext, rfl⟩ := h
  obtain ⟨lower', upper', hnext', rfl⟩ := h'
  obtain ⟨rfl, rfl⟩ := hnext.unique hnext'
  rfl

/-- At a point the interpolation has the value of the point. -/
theorem Interpolates.at_point (hp : p ∈ P)
    (h : Interpolates P p.1 y) : y = p.2 := by
  obtain ⟨lower, upper, hnext, rfl⟩ := h
  have hlower : lower = some p := (hnext.lower_iff p).mpr ⟨hp, le_refl _, fun q _ hq => hq⟩
  rw [hlower]
  cases upper with
  | none => rfl
  | some q => exact through_left p q

variable [IsStrictOrderedRing K]

theorem through_mono (hlt : p.1 < q.1) (hle : p.2 ≤ q.2) (hc : c ≤ c') :
    through p q c ≤ through p q c' := by
  have hratio : (c - p.1) / (q.1 - p.1) ≤ (c' - p.1) / (q.1 - p.1) :=
    div_le_div_of_nonneg_right (sub_le_sub_right hc _) (sub_pos.mpr hlt).le
  exact add_le_add_right (mul_le_mul_of_nonneg_right hratio (sub_nonneg.mpr hle)) _

/-- The value is not above those of the points beyond. -/
theorem Interpolates.le_of_lt (h : Interpolates P c y) (hfin : P.Finite) (hrising : Rising P)
    (hr : r ∈ P) (hlt : c < r.1) : y ≤ r.2 := by
  obtain ⟨lower, upper, hnext, rfl⟩ := h
  obtain ⟨q, hq⟩ := exists_isUpper hfin ⟨r, hr, hlt⟩
  have hqr : q.2 ≤ r.2 := hrising.le_of_le hq.1 hr (hq.2.2 r hr hlt)
  rw [(hnext.upper_iff q).mpr hq]
  cases lower with
  | none => exact hqr
  | some p =>
    have hp : IsLower P c p := (hnext.lower_iff p).mp rfl
    have hpq : p.1 < q.1 := hp.2.1.trans_lt hq.2.1
    calc through p q c
      _ ≤ through p q q.1 := through_mono hpq (hrising.le p hp.1 q hq.1 hpq) hq.2.1.le
      _ = q.2 := through_right hpq.ne
      _ ≤ r.2 := hqr

/-- The value is not below those of the points that are not beyond. -/
theorem Interpolates.ge_of_le (h : Interpolates P c y) (hfin : P.Finite) (hrising : Rising P)
    (hr : r ∈ P) (hle : r.1 ≤ c) : r.2 ≤ y := by
  obtain ⟨lower, upper, hnext, rfl⟩ := h
  obtain ⟨p, hp⟩ := exists_isLower hfin ⟨r, hr, hle⟩
  have hrp : r.2 ≤ p.2 := hrising.le_of_le hr hp.1 (hp.2.2 r hr hle)
  rw [(hnext.lower_iff p).mpr hp]
  cases upper with
  | none => exact hrp
  | some q =>
    have hq : IsUpper P c q := (hnext.upper_iff q).mp rfl
    have hpq : p.1 < q.1 := hp.2.1.trans_lt hq.2.1
    calc r.2 ≤ p.2 := hrp
      _ = through p q p.1 := (through_left p q).symm
      _ ≤ through p q c := through_mono hpq (hrising.le p hp.1 q hq.1 hpq) hp.2.1

/-- Where the values of the points do not fall, the interpolation does not fall. -/
theorem Interpolates.mono (h : Interpolates P c y) (h' : Interpolates P c' y') (hfin : P.Finite)
    (hrising : Rising P) (hle : c ≤ c') : y ≤ y' := by
  by_cases hsep : ∃ r ∈ P, c < r.1 ∧ r.1 ≤ c'
  · obtain ⟨r, hr, hlt, hrle⟩ := hsep
    exact (h.le_of_lt hfin hrising hr hlt).trans (h'.ge_of_le hfin hrising hr hrle)
  · obtain ⟨lower, upper, hnext, rfl⟩ := h
    have hblend : y' = blend c' lower upper :=
      h'.unique ⟨lower, upper, hnext.of_not_separated hle hsep, rfl⟩
    rw [hblend]
    rcases lower with - | p <;> rcases upper with - | q
    · exact hle
    · exact le_refl _
    · exact le_refl _
    · have hp : IsLower P c p := (hnext.lower_iff p).mp rfl
      have hq : IsUpper P c q := (hnext.upper_iff q).mp rfl
      have hpq : p.1 < q.1 := hp.2.1.trans_lt hq.2.1
      exact through_mono hpq (hrising.le p hp.1 q hq.1 hpq) hle

end GroundCore.Lib.PiecewiseLinear
