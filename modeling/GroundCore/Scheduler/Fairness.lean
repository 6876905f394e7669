import GroundCore.Lib.Double
import GroundCore.Scheduler.Optimization

/-! What the fairness statistics say of the dominant shares.  The greatest share is folded from 0
and the least from 1, so they are shares of tenants when one share is not below 0 and one not above
1.  Without a tenant the least share is 1 and the greatest 0.  The average is a quotient of a sum
that is rounded at every share, so it may leave the shares by what is rounded. -/

namespace GroundCore.Scheduler

open Lib FloatOps IeeeFloat

variable {F64 F32 : Type}

/-- The quotient of the rounded sum of some shares and their number lies between two of them, or it
is rounded to one of them. -/
def AverageWithin (shares : List Double) : Prop :=
  match shares.foldl (· + ·) 0, (shares.length : Double) with
  | .finite sum, .finite n =>
    (∃ x ∈ shares, Double.AtLeast (sum / n) x) ∧ ∃ x ∈ shares, Double.AtMost (sum / n) x
  | .infinite negative, .finite _ => .infinite negative ∈ shares
  | .finite _, .infinite _ => ∃ x ∈ shares, x.le 0 = true
  | _, _ => False

/-- A list of shares with bounds for all that are defined, which are shares themselves. -/
structure Extrema (shares : List Double) (least greatest : Double) : Prop where
  valid : ∀ x ∈ shares, x.Valid
  least_mem : least ∈ shares
  greatest_mem : greatest ∈ shares
  least_le_one : least.le (.finite 1) = true
  zero_le_greatest : Double.le (.finite 0) greatest = true
  least_le : ∀ x ∈ shares, x.le x = true → least.le x = true
  le_greatest : ∀ x ∈ shares, x.le x = true → x.le greatest = true

namespace Extrema

variable {shares : List Double} {least greatest : Double}

theorem atLeast_iff (h : Extrema shares least greatest) {q : ℚ} :
    (∃ x ∈ shares, Double.AtLeast q x) ↔ least.le (.round q) = true := by
  have hleast : least ≠ .infinite false := by
    rintro rfl
    exact absurd h.least_le_one (by decide)
  constructor
  · rintro ⟨x, hx, hatLeast⟩
    cases x with
    | nan => exact hatLeast.elim
    | infinite negative =>
      obtain rfl : negative = true := hatLeast
      have hle := (Double.atLeast_iff (q := q) (h.valid _ hx) (by decide)).mp rfl
      exact Double.le_of_le_of_le (h.least_le _ hx rfl) hle
    | finite x =>
      have hle := (Double.atLeast_iff (h.valid _ hx) nofun).mp hatLeast
      exact Double.le_of_le_of_le (h.least_le _ hx (Double.le_self_of_le hle).1) hle
  · exact fun hle =>
      ⟨least, h.least_mem, (Double.atLeast_iff (h.valid _ h.least_mem) hleast).mpr hle⟩

theorem atMost_iff (h : Extrema shares least greatest) {q : ℚ} :
    (∃ x ∈ shares, Double.AtMost q x) ↔ (Double.round q).le greatest = true := by
  have hgreatest : greatest ≠ .infinite true := by
    rintro rfl
    exact absurd h.zero_le_greatest (by decide)
  constructor
  · rintro ⟨x, hx, hatMost⟩
    cases x with
    | nan => exact hatMost.elim
    | infinite negative =>
      obtain rfl : negative = false := hatMost
      have hle := (Double.atMost_iff (q := q) (h.valid _ hx) (by decide)).mp rfl
      exact Double.le_of_le_of_le hle (h.le_greatest _ hx rfl)
    | finite x =>
      have hle := (Double.atMost_iff (h.valid _ hx) nofun).mp hatMost
      exact Double.le_of_le_of_le hle (h.le_greatest _ hx (Double.le_self_of_le hle).2)
  · exact fun hle =>
      ⟨greatest, h.greatest_mem, (Double.atMost_iff (h.valid _ h.greatest_mem) hgreatest).mpr hle⟩

theorem defined (h : Extrema shares least greatest) :
    least.le least = true ∧ greatest.le greatest = true :=
  ⟨(Double.le_self_of_le h.least_le_one).1, (Double.le_self_of_le h.zero_le_greatest).2⟩

/-- An infinity lies between the least and the greatest share when it is one of the shares. -/
theorem infinite_mem_iff (h : Extrema shares least greatest) {negative : Bool} :
    .infinite negative ∈ shares ↔ least.le (.infinite negative) = true ∧
      Double.le (.infinite negative) greatest = true := by
  constructor
  · intro hmem
    have hself : Double.le (.infinite negative) (.infinite negative) = true := by
      cases negative <;> rfl
    exact ⟨h.least_le _ hmem hself, h.le_greatest _ hmem hself⟩
  · rintro ⟨hlow, hhigh⟩
    cases negative with
    | false =>
      have heq : greatest = .infinite false := by
        cases greatest <;> simp_all [Double.le]
      exact heq ▸ h.greatest_mem
    | true =>
      have heq : least = .infinite true := by
        cases least <;> simp_all [Double.le]
      exact heq ▸ h.least_mem

/-- The average lies between the least and the greatest share exactly when the condition on the
rounded sum holds. -/
theorem averageWithin_iff (h : Extrema shares least greatest) : AverageWithin shares ↔
    least.le (shares.foldl (· + ·) 0 / (shares.length : Double)) = true ∧
      (shares.foldl (· + ·) 0 / (shares.length : Double)).le greatest = true := by
  obtain ⟨hleast, hgreatest⟩ := h.defined
  have hnan : ¬ (least.le .nan = true ∧ Double.le .nan greatest = true) :=
    fun hle => Bool.false_ne_true hle.2
  unfold AverageWithin
  rcases Double.natCast_cases (List.length_pos_of_mem h.least_mem) with hn | ⟨n, hone, hn⟩ <;>
    rw [hn]
  · -- so many tenants that their number is infinite
    cases shares.foldl (· + ·) 0 with
    | nan => exact iff_of_false id hnan
    | infinite negative => exact iff_of_false id hnan
    | finite sum =>
      refine Iff.trans ?_ (and_iff_left h.zero_le_greatest).symm
      rw [Double.zero_eq]
      refine ⟨fun ⟨x, hx, hle⟩ => ?_, fun hle => ⟨least, h.least_mem, hle⟩⟩
      exact Double.le_of_le_of_le (h.least_le x hx (Double.le_self_of_le hle).1) hle
  · cases shares.foldl (· + ·) 0 with
    | nan => exact iff_of_false id hnan
    | infinite negative =>
      have haverage : Double.infinite negative / .finite n = .infinite negative := by
        show Double.infinite (negative != decide (n < 0)) = .infinite negative
        rw [decide_eq_false (by linarith), Bool.bne_false]
      rw [haverage]
      exact h.infinite_mem_iff
    | finite sum =>
      rw [Double.finite_div_finite (by linarith)]
      exact and_congr h.atLeast_iff h.atMost_iff

end Extrema

/-- The average of three equal shares may be rounded to more than each. -/
example : Double.lt (.round 0.1) ((.round 0.1 + .round 0.1 + .round 0.1) / 3) = true := by
  decide +kernel

section Ieee

variable [FloatOps F64 F32] [IeeeFloat F64 F32]

/-- A share is 0 or a quotient by a positive capacity. -/
theorem ResourceAllocation.valid_dominantShare (a : ResourceAllocation F64) :
    (toDouble a.dominantShare).Valid := by
  have hzero : (toDouble (lit 0 : F64)).Valid := by
    rw [toDouble_lit]
    exact Double.valid_round 0
  have hshare : ∀ s : ResourceShare F64, (toDouble s.share).Valid := by
    intro s
    unfold ResourceShare.share
    split
    · next hpos =>
      have hne : toDouble s.totalCapacity ≠ .finite 0 := by
        intro heq
        rw [lt_eq, toDouble_lit, heq] at hpos
        exact absurd hpos (by decide +kernel)
      rw [toDouble_div _ _ hne]
      exact Double.valid_div _ _
    · exact hzero
  unfold dominantShare
  cases a.dominantResource with
  | none => exact hzero
  | some dominant =>
    simp only
    cases a.shares.get? dominant with
    | none => exact hzero
    | some s => exact hshare s

namespace DominantResourceFairness

variable (d : DominantResourceFairness F64) (ord : IterOrder (ResourceAllocation F64))

/-- The dominant shares of the tenants, in the order in which they are iterated. -/
def dominantShares : List Double :=
  (ord.order d.allocations.values).map fun a => toDouble a.dominantShare

theorem mem_dominantShares {x : Double} : x ∈ d.dominantShares ord ↔
    ∃ tenantId a, d.getAllocation tenantId = some a ∧ toDouble a.dominantShare = x := by
  simp only [dominantShares, List.mem_map, IterOrder.mem_order, HashMap.mem_values, getAllocation]
  constructor
  · rintro ⟨a, ⟨tenantId, hget⟩, hx⟩
    exact ⟨tenantId, a, hget, hx⟩
  · rintro ⟨tenantId, a, hget, hx⟩
    exact ⟨a, ⟨tenantId, hget⟩, hx⟩

theorem length_dominantShares :
    (d.dominantShares ord).length = d.allocations.values.length := by
  rw [dominantShares, List.length_map, (ord.perm _).length_eq]

theorem map_dominantShare :
    ((ord.order d.allocations.values).map (·.dominantShare)).map toDouble =
      d.dominantShares ord := by
  rw [List.map_map]
  rfl

/-- The greatest share, raised to 0. -/
theorem maxDominantShare_spec :
    Double.le (.finite 0) (toDouble (d.fairnessStats ord).maxDominantShare) = true ∧
      (∀ x ∈ d.dominantShares ord, x.le x = true →
        x.le (toDouble (d.fairnessStats ord).maxDominantShare) = true) ∧
      (toDouble (d.fairnessStats ord).maxDominantShare = .finite 0 ∨
        toDouble (d.fairnessStats ord).maxDominantShare ∈ d.dominantShares ord) := by
  have hzero : toDouble (lit 0 : F64) = .finite 0 := toDouble_lit_of_valid (by decide +kernel)
  obtain ⟨hstart, hall, hmem⟩ :=
    foldl_fmax ((ord.order d.allocations.values).map (·.dominantShare)) (x := (lit 0 : F64))
      (by rw [hzero]; rfl)
  rw [hzero] at hstart
  refine ⟨hstart, fun x hx hself => ?_, hmem.imp (fun h => ?_) fun h => ?_⟩
  · rw [← map_dominantShare, List.mem_map] at hx
    obtain ⟨y, hy, rfl⟩ := hx
    exact hall y hy hself
  · exact (congrArg toDouble h).trans hzero
  · rw [← map_dominantShare]
    exact List.mem_map_of_mem h

/-- The least share, lowered to 1. -/
theorem minDominantShare_spec :
    (toDouble (d.fairnessStats ord).minDominantShare).le (.finite 1) = true ∧
      (∀ x ∈ d.dominantShares ord, x.le x = true →
        (toDouble (d.fairnessStats ord).minDominantShare).le x = true) ∧
      (toDouble (d.fairnessStats ord).minDominantShare = .finite 1 ∨
        toDouble (d.fairnessStats ord).minDominantShare ∈ d.dominantShares ord) := by
  have hone : toDouble (lit 1 : F64) = .finite 1 := toDouble_lit_of_valid (by decide +kernel)
  obtain ⟨hstart, hall, hmem⟩ :=
    foldl_fmin ((ord.order d.allocations.values).map (·.dominantShare)) (x := (lit 1 : F64))
      (by rw [hone]; rfl)
  rw [hone] at hstart
  refine ⟨hstart, fun x hx hself => ?_, hmem.imp (fun h => ?_) fun h => ?_⟩
  · rw [← map_dominantShare, List.mem_map] at hx
    obtain ⟨y, hy, rfl⟩ := hx
    exact hall y hy hself
  · exact (congrArg toDouble h).trans hone
  · rw [← map_dominantShare]
    exact List.mem_map_of_mem h

/-- The extrema are those of the shares when a share is not below 0 and a share is not above 1. -/
theorem extrema (hnonneg : ∃ x ∈ d.dominantShares ord, Double.le (.finite 0) x = true)
    (hle : ∃ x ∈ d.dominantShares ord, x.le (.finite 1) = true) :
    Extrema (d.dominantShares ord) (toDouble (d.fairnessStats ord).minDominantShare)
      (toDouble (d.fairnessStats ord).maxDominantShare) := by
  obtain ⟨hzero, hmax, hmaxMem⟩ := d.maxDominantShare_spec ord
  obtain ⟨hone, hmin, hminMem⟩ := d.minDominantShare_spec ord
  refine ⟨fun x hx => ?_, ?_, ?_, hone, hzero, hmin, hmax⟩
  · obtain ⟨tenantId, a, -, rfl⟩ := (d.mem_dominantShares ord).mp hx
    exact a.valid_dominantShare
  · obtain ⟨x, hx, hx1⟩ := hle
    rcases hminMem with heq | hmem
    · have hx1' := hmin x hx (Double.le_self_of_le hx1).1
      rw [heq] at hx1' ⊢
      rwa [Double.eq_of_le_of_le hx1' hx1]
    · exact hmem
  · obtain ⟨x, hx, hx0⟩ := hnonneg
    rcases hmaxMem with heq | hmem
    · have hx0' := hmax x hx (Double.le_self_of_le hx0).2
      rw [heq] at hx0' ⊢
      rwa [Double.eq_of_le_of_le hx0 hx0']
    · exact hmem

theorem toDouble_avgDominantShare (h : d.dominantShares ord ≠ []) :
    toDouble (d.fairnessStats ord).avgDominantShare =
      (d.dominantShares ord).foldl (· + ·) 0 / ((d.dominantShares ord).length : Double) := by
  have hpos := List.length_pos_of_ne_nil h
  have hcount : toDouble (lit (d.dominantShares ord).length : F64) =
      ((d.dominantShares ord).length : Double) := toDouble_lit _
  have hne : toDouble (lit (d.dominantShares ord).length : F64) ≠ .finite 0 := by
    rw [hcount]
    rcases Double.natCast_cases hpos with hn | ⟨n, hone, hn⟩ <;> rw [hn]
    · exact nofun
    · intro heq
      linarith [Double.finite.inj heq]
  have havg : (d.fairnessStats ord).avgDominantShare =
      sum ((ord.order d.allocations.values).map (·.dominantShare)) /
        lit (d.dominantShares ord).length := by
    rw [length_dominantShares] at hpos ⊢
    exact if_pos hpos
  rw [havg, toDouble_div _ _ hne, toDouble_sum, map_dominantShare, hcount]

end DominantResourceFairness

namespace ScheduleOptimizer

variable (o : ScheduleOptimizer F64)

/-- What the fairness of the shares adds to the score of every schedule. -/
def fairnessTerm : F64 :=
  (lit 1 - (o.drf.fairnessStats o.allocationOrder).fairnessGap) * lit 100

omit [IeeeFloat F64 F32] in
theorem evaluateSchedule_eq_fairnessTerm (ord : IterOrder (List ℕ)) (schedule : Schedule F64) :
    o.evaluateSchedule ord schedule = (schedule.passes.filterMap keyholeTerm).foldl (· + ·)
      (lit 0 + o.fairnessTerm + (o.reputation.stats o.tenantOrder).avgReputation * lit 50 -
        lit (schedule.checkConflicts ord).length * lit 200 +
        computeFulfilledRatio schedule * lit 30) := rfl

/-- The dominant shares of the tenants. -/
def dominantShares : List Double := o.drf.dominantShares o.allocationOrder

/-- The statistics are about the tenants: the least, the average and the greatest of their shares,
and a fairness of at most 1. -/
structure TrueExtrema : Prop where
  min_le_avg : (toDouble (o.drf.fairnessStats o.allocationOrder).minDominantShare).le
    (toDouble (o.drf.fairnessStats o.allocationOrder).avgDominantShare) = true
  avg_le_max : (toDouble (o.drf.fairnessStats o.allocationOrder).avgDominantShare).le
    (toDouble (o.drf.fairnessStats o.allocationOrder).maxDominantShare) = true
  attained : o.dominantShares ≠ [] →
    toDouble (o.drf.fairnessStats o.allocationOrder).minDominantShare ∈ o.dominantShares ∧
      toDouble (o.drf.fairnessStats o.allocationOrder).maxDominantShare ∈ o.dominantShares
  gap_nonneg :
    Double.le (.finite 0) (toDouble (o.drf.fairnessStats o.allocationOrder).fairnessGap) = true
  fairnessTerm_le : (toDouble o.fairnessTerm).le (.finite 100) = true

/-- A gap that is not negative leaves at most the whole fairness. -/
theorem fairnessTerm_le_of_gap (h : Double.le (.finite 0)
    (toDouble (o.drf.fairnessStats o.allocationOrder).fairnessGap) = true) :
    (toDouble o.fairnessTerm).le (.finite 100) = true := by
  have hone : toDouble (lit 1 : F64) = .finite 1 := toDouble_lit_of_valid (by decide +kernel)
  have hhundred : toDouble (lit 100 : F64) = .finite 100 :=
    toDouble_lit_of_valid (by decide +kernel)
  rw [fairnessTerm, toDouble_mul, toDouble_sub, hone, hhundred]
  exact Double.mul_le_of_le_one (by norm_num) (by decide +kernel)
    (Double.sub_le_of_nonneg (by decide +kernel) h)

/-- Without a tenant the gap is -1. -/
theorem gap_of_no_tenants (h : o.dominantShares = []) :
    toDouble (o.drf.fairnessStats o.allocationOrder).fairnessGap = .finite (-1) := by
  obtain ⟨-, -, hmax⟩ := o.drf.maxDominantShare_spec o.allocationOrder
  obtain ⟨-, -, hmin⟩ := o.drf.minDominantShare_spec o.allocationOrder
  have hempty : o.drf.dominantShares o.allocationOrder = [] := h
  rw [hempty] at hmax hmin
  have hgap : toDouble (o.drf.fairnessStats o.allocationOrder).fairnessGap =
      toDouble (o.drf.fairnessStats o.allocationOrder).maxDominantShare -
        toDouble (o.drf.fairnessStats o.allocationOrder).minDominantShare := toDouble_sub _ _
  rw [hgap, hmax.resolve_right List.not_mem_nil, hmin.resolve_right List.not_mem_nil]
  decide +kernel

/-- The statistics are about the tenants exactly when a share is not below 0 and a share is not
above 1, where the folds start, and the quotient of the rounded sum of the shares leaves them by no
more than is rounded off. -/
theorem trueExtrema_iff : o.TrueExtrema ↔
    (∃ x ∈ o.dominantShares, Double.le (.finite 0) x = true) ∧
      (∃ x ∈ o.dominantShares, x.le (.finite 1) = true) ∧ AverageWithin o.dominantShares := by
  constructor
  · intro h
    have htenant : o.dominantShares ≠ [] := by
      intro hnone
      have hnonneg := h.gap_nonneg
      rw [o.gap_of_no_tenants hnone] at hnonneg
      exact absurd hnonneg (by decide)
    obtain ⟨hleast, hgreatest⟩ := h.attained htenant
    have hzero := (o.drf.maxDominantShare_spec o.allocationOrder).1
    have hone := (o.drf.minDominantShare_spec o.allocationOrder).1
    have hextrema := o.drf.extrema o.allocationOrder ⟨_, hgreatest, hzero⟩ ⟨_, hleast, hone⟩
    have havg := o.drf.toDouble_avgDominantShare o.allocationOrder htenant
    refine ⟨⟨_, hgreatest, hzero⟩, ⟨_, hleast, hone⟩, hextrema.averageWithin_iff.mpr ?_⟩
    exact havg ▸ ⟨h.min_le_avg, h.avg_le_max⟩
  · rintro ⟨hnonneg, hle, hwithin⟩
    have hextrema := o.drf.extrema o.allocationOrder hnonneg hle
    have havg := o.drf.toDouble_avgDominantShare o.allocationOrder
      (List.ne_nil_of_mem hextrema.least_mem)
    have hbetween := hextrema.averageWithin_iff.mp hwithin
    rw [← havg] at hbetween
    have hgap : Double.le (.finite 0)
        (toDouble (o.drf.fairnessStats o.allocationOrder).fairnessGap) = true := by
      have hsub : toDouble (o.drf.fairnessStats o.allocationOrder).fairnessGap =
          toDouble (o.drf.fairnessStats o.allocationOrder).maxDominantShare -
            toDouble (o.drf.fairnessStats o.allocationOrder).minDominantShare := toDouble_sub _ _
      rw [hsub]
      exact Double.zero_le_sub hextrema.zero_le_greatest hextrema.least_le_one
        (Double.le_of_le_of_le hbetween.1 hbetween.2)
    exact ⟨hbetween.1, hbetween.2, fun _ => ⟨hextrema.least_mem, hextrema.greatest_mem⟩, hgap,
      o.fairnessTerm_le_of_gap hgap⟩

end ScheduleOptimizer

end Ieee

/-- A new optimizer, in which no tenant has an allocation. -/
def noTenants : ScheduleOptimizer Double where
  drf := .new
  reputation := .new (.round 0.1)
  config := { maxIterations := 10000, initialTemperature := 1000, coolingRate := .round 0.995
              timeout := .seconds 30 }
  hardware := { sdrDevices := [], shadowSdrDevices := [], antennaIds := [], rotatorIds := [] }
  allocationOrder := .stored _
  tenantOrder := .stored _

/-- The gap of the shares of no tenant is -1, and the fairness counts twice what it may. -/
theorem noTenants_not_trueExtrema :
    letI := Double.floatOps id id id (fun x _ => x) fun _ => 0
    letI := IeeeFloat.double id id id (fun x _ => x) fun _ => 0
    (noTenants.drf.fairnessStats noTenants.allocationOrder).fairnessGap = .finite (-1) ∧
      noTenants.fairnessTerm = .finite 200 ∧ ¬ noTenants.TrueExtrema := by
  let _ := Double.floatOps id id id (fun x _ => x) fun _ => 0
  let _ := IeeeFloat.double id id id (fun x _ => x) fun _ => 0
  have hterm : noTenants.fairnessTerm = .finite 200 := by decide +kernel
  refine ⟨by decide +kernel, hterm, fun h => ?_⟩
  have hle : (noTenants.fairnessTerm).le (.finite 100) = true := h.fairnessTerm_le
  rw [hterm] at hle
  exact absurd hle (by decide)

end GroundCore.Scheduler
