import Mathlib.Tactic.Linarith
import Mathlib.Tactic.NormNum
import GroundCore.Core.Types
import GroundCore.Lib.FiniteFloat
import GroundCore.Lib.HashMap
import GroundCore.Lib.Run

/-! The reputation of the tenants, how much of what they were given they have used, and what becomes
of it over whole histories, in exact arithmetic.  It stays above one half, and between
the two thresholds it stands still, so a tenant who uses more never falls behind one who uses less
when the two take different branches. -/

namespace GroundCore.Scheduler

open Lib FloatOps

variable {F64 F32 : Type}

structure ResourceUsage (F64 : Type) where
  allocated : F64
  used : F64

structure TenantReputation (F64 : Type) where
  tenantId : CustomerId
  dominantResource : Option String
  historicalUtilization : F64
  reputation : F64
  currentAllocation : ResourceUsage F64
  totalRequests : ℕ
  totalFulfilled : ℕ
  totalWasted : F64

structure ReputationTracker (F64 : Type) where
  tenants : HashMap CustomerId (TenantReputation F64)
  alpha : F64

structure ReputationStats (F64 : Type) where
  numTenants : ℕ
  avgReputation : F64
  highReputationCount : ℕ
  lowReputationCount : ℕ

variable [FloatOps F64 F32]

namespace TenantReputation

def new (tenantId : CustomerId) : TenantReputation F64 :=
  { tenantId, dominantResource := none
    historicalUtilization := lit 0.5
    reputation := lit 1
    currentAllocation := { allocated := lit 100, used := lit 0 }
    totalRequests := 0, totalFulfilled := 0, totalWasted := lit 0 }

/-- An exponential moving average, which the reputation follows with some hysteresis. -/
def updateUtilization (t : TenantReputation F64) (utilization : F64) : TenantReputation F64 :=
  let historicalUtilization := lit 0.1 * utilization + lit 0.9 * t.historicalUtilization
  let reputation :=
    if lt (lit 0.8) historicalUtilization then
      fmin (t.reputation * lit 0.9 + lit 1 * lit 0.1) (lit 1)
    else if lt historicalUtilization (lit 0.5) then
      fmax (t.reputation * lit 0.9 + lit 0.5 * lit 0.1) (lit 0)
    else t.reputation
  { t with historicalUtilization, reputation }

def recordRequest (t : TenantReputation F64) : TenantReputation F64 :=
  { t with totalRequests := t.totalRequests + 1 }

def recordFulfilled (t : TenantReputation F64) (allocated used : F64) : TenantReputation F64 :=
  let waste := fmax (allocated - used) (lit 0)
  let utilization := if lt (lit 0) allocated then used / allocated else lit 0
  { t with
    totalFulfilled := t.totalFulfilled + 1
    currentAllocation := { allocated := t.currentAllocation.allocated + allocated
                           used := t.currentAllocation.used + used }
    totalWasted := t.totalWasted + waste }.updateUtilization utilization

def schedulingPriority (t : TenantReputation F64) : F64 :=
  let base := lit 1 / (t.currentAllocation.allocated + lit 1)
  base * t.reputation

end TenantReputation

def ReputationTracker.new (alpha : F64) : ReputationTracker F64 := { tenants := ∅, alpha }

def ReputationTracker.stats (t : ReputationTracker F64) (ord : IterOrder (TenantReputation F64)) :
    ReputationStats F64 :=
  let numTenants := t.tenants.values.length
  let reputations := (ord.order t.tenants.values).map (·.reputation)
  { numTenants
    avgReputation := if numTenants > 0 then sum reputations / lit numTenants else lit 0
    highReputationCount := reputations.countP fun r => lt (lit 0.8) r
    lowReputationCount := reputations.countP fun r => lt r (lit 0.5) }

namespace ReputationTracker

/-- `f` is applied to the reputation of a tenant, which is new where there is none. -/
def modifyOrCreate (t : ReputationTracker F64) (tenantId : CustomerId)
    (f : TenantReputation F64 → TenantReputation F64) : ReputationTracker F64 :=
  let reputation := (t.tenants.get? tenantId).getD (.new tenantId)
  { t with tenants := t.tenants.insert tenantId (f reputation) }

def updateUtilization (t : ReputationTracker F64) (tenantId : CustomerId) (utilization : F64) :
    ReputationTracker F64 :=
  { t with tenants := t.tenants.modify tenantId (·.updateUtilization utilization) }

def recordRequest (t : ReputationTracker F64) (tenantId : CustomerId) : ReputationTracker F64 :=
  t.modifyOrCreate tenantId (·.recordRequest)

def recordFulfilled (t : ReputationTracker F64) (tenantId : CustomerId) (allocated used : F64) :
    ReputationTracker F64 :=
  t.modifyOrCreate tenantId (·.recordFulfilled allocated used)

end ReputationTracker

open ExactFloat

/-- A call that changes the reputation of a tenant. -/
inductive UtilizationCall (F64 : Type)
  | recordFulfilled (allocated used : F64)
  | updateUtilization (utilization : F64)

def TenantReputation.step (t : TenantReputation F64) : UtilizationCall F64 → TenantReputation F64
  | .recordFulfilled allocated used => t.recordFulfilled allocated used
  | .updateUtilization utilization => t.updateUtilization utilization

inductive TrackerCall (F64 : Type)
  | recordRequest (tenantId : CustomerId)
  | recordFulfilled (tenantId : CustomerId) (allocated used : F64)
  | updateUtilization (tenantId : CustomerId) (utilization : F64)

def ReputationTracker.step (t : ReputationTracker F64) : TrackerCall F64 → ReputationTracker F64
  | .recordRequest tenantId => t.recordRequest tenantId
  | .recordFulfilled tenantId allocated used => t.recordFulfilled tenantId allocated used
  | .updateUtilization tenantId utilization => t.updateUtilization tenantId utilization

/-! ### The bounds -/

section Bounds

variable [ExactFloat F64 F32]

namespace TenantReputation

variable {t : TenantReputation F64}

/-- The reputation lies in the half-open interval from one half to one. -/
def InBounds (t : TenantReputation F64) : Prop :=
  1 / 2 < val t.reputation ∧ val t.reputation ≤ 1

theorem inBounds_new (tenantId : CustomerId) : (new tenantId : TenantReputation F64).InBounds := by
  simp only [InBounds, new, val_lit]
  norm_num

theorem val_historicalUtilization (t : TenantReputation F64) (utilization : F64) :
    val (t.updateUtilization utilization).historicalUtilization =
      0.1 * val utilization + 0.9 * val t.historicalUtilization := by
  simp only [updateUtilization, val_add, val_mul, val_lit]

/-- The next reputation, without the cuts at one and at zero. -/
theorem val_reputation (h : t.InBounds) (utilization : F64) :
    val (t.updateUtilization utilization).reputation =
      if 0.8 < 0.1 * val utilization + 0.9 * val t.historicalUtilization then
        val t.reputation * 0.9 + 0.1
      else if 0.1 * val utilization + 0.9 * val t.historicalUtilization < 0.5 then
        val t.reputation * 0.9 + 0.05
      else val t.reputation := by
  obtain ⟨hlow, hhigh⟩ := h
  have hhigh' : val t.reputation * 0.9 + 1 * 0.1 ≤ 1 := by linarith
  have hlow' : 0 ≤ val t.reputation * 0.9 + 0.5 * 0.1 := by linarith
  simp only [updateUtilization, lt_iff, val_add, val_mul, val_lit, apply_ite val, val_fmin,
    val_fmax, min_eq_left hhigh', max_eq_left hlow']
  norm_num

theorem inBounds_updateUtilization (h : t.InBounds) (utilization : F64) :
    (t.updateUtilization utilization).InBounds := by
  rw [InBounds, val_reputation h]
  obtain ⟨hlow, hhigh⟩ := h
  split
  · constructor <;> linarith
  · split
    · constructor <;> linarith
    · exact ⟨hlow, hhigh⟩

theorem inBounds_step (h : t.InBounds) (call : UtilizationCall F64) : (t.step call).InBounds := by
  cases call with
  | recordFulfilled allocated used => exact inBounds_updateUtilization h _
  | updateUtilization utilization => exact inBounds_updateUtilization h utilization

theorem inBounds_run (tenantId : CustomerId) (calls : List (UtilizationCall F64)) :
    (run step (new tenantId) calls).InBounds :=
  run_preserves (I := InBounds) (fun _ call h => inBounds_step h call) (inBounds_new tenantId) calls

end TenantReputation

namespace ReputationTracker

def AllInBounds (t : ReputationTracker F64) : Prop :=
  ∀ tenantId reputation, t.tenants.get? tenantId = some reputation → reputation.InBounds

variable {t : ReputationTracker F64}

theorem allInBounds_modifyOrCreate (h : t.AllInBounds) (tenantId : CustomerId)
    {f : TenantReputation F64 → TenantReputation F64}
    (hf : ∀ reputation, reputation.InBounds → (f reputation).InBounds) :
    (t.modifyOrCreate tenantId f).AllInBounds := by
  intro id reputation hget
  rw [modifyOrCreate, HashMap.get?_insert] at hget
  split at hget
  · obtain rfl := Option.some.inj hget
    apply hf
    cases hstored : t.tenants.get? tenantId with
    | none => exact TenantReputation.inBounds_new tenantId
    | some stored => exact h tenantId stored hstored
  · exact h id reputation hget

theorem allInBounds_step (h : t.AllInBounds) (call : TrackerCall F64) :
    (t.step call).AllInBounds := by
  cases call with
  | recordRequest tenantId => exact allInBounds_modifyOrCreate h tenantId fun _ hbounds => hbounds
  | recordFulfilled tenantId allocated used =>
    exact allInBounds_modifyOrCreate h tenantId fun _ hbounds =>
      TenantReputation.inBounds_updateUtilization hbounds _
  | updateUtilization tenantId utilization =>
    intro id reputation hget
    rw [step, ReputationTracker.updateUtilization, HashMap.get?_modify] at hget
    split at hget
    · obtain ⟨stored, hstored, rfl⟩ := Option.map_eq_some_iff.mp hget
      exact TenantReputation.inBounds_updateUtilization (h id stored hstored) utilization
    · exact h id reputation hget

/-- No tenant counts as one of low reputation. -/
theorem lowReputationCount_eq_zero (h : t.AllInBounds) (ord : IterOrder (TenantReputation F64)) :
    (t.stats ord).lowReputationCount = 0 := by
  rw [stats, List.countP_eq_zero]
  intro r hr
  obtain ⟨reputation, hmem, rfl⟩ := List.mem_map.mp hr
  obtain ⟨tenantId, hget⟩ := HashMap.mem_values.mp (ord.mem_order.mp hmem)
  have hlow := (h tenantId reputation hget).1
  rw [lt_iff, val_lit]
  linarith

theorem lowReputationCount_run (alpha : F64) (calls : List (TrackerCall F64))
    (ord : IterOrder (TenantReputation F64)) :
    ((run step (new alpha) calls).stats ord).lowReputationCount = 0 := by
  apply lowReputationCount_eq_zero
  refine run_preserves (I := AllInBounds) (fun _ call h => allInBounds_step h call) ?_ calls
  intro tenantId reputation hget
  rw [new, HashMap.get?_empty] at hget
  contradiction

end ReputationTracker

end Bounds

/-! ### Two tenants -/

section Monotone

variable [ExactDivision F64 F32]

/-- Both calls allocate the same positive amount, and the first uses at least as much. -/
def UtilizationCall.Dominates : UtilizationCall F64 → UtilizationCall F64 → Prop
  | .recordFulfilled allocated used, .recordFulfilled allocated' used' =>
    allocated = allocated' ∧ 0 < val allocated ∧ val used' ≤ val used
  | .updateUtilization utilization, .updateUtilization utilization' =>
    val utilization' ≤ val utilization
  | _, _ => False

namespace TenantReputation

variable {t t' : TenantReputation F64}

/-- The first tenant stands at least as well as the second, at the same allocation. -/
structure Above (t t' : TenantReputation F64) : Prop where
  inBounds : t.InBounds
  inBounds' : t'.InBounds
  historicalUtilization : val t'.historicalUtilization ≤ val t.historicalUtilization
  reputation : val t'.reputation ≤ val t.reputation
  allocated : t.currentAllocation.allocated = t'.currentAllocation.allocated
  allocated_nonneg : 0 ≤ val t.currentAllocation.allocated

theorem above_new (tenantId tenantId' : CustomerId) :
    Above (new tenantId : TenantReputation F64) (new tenantId') :=
  { inBounds := inBounds_new tenantId
    inBounds' := inBounds_new tenantId'
    historicalUtilization := le_rfl
    reputation := le_rfl
    allocated := rfl
    allocated_nonneg := by
      rw [new, val_lit]
      norm_num }

/-- The next reputation grows with the utilization and with the reputation before. -/
theorem nextReputation_mono {x x' r r' : ℚ} (hx : x' ≤ x) (hr : r' ≤ r) (hlow : 1 / 2 < r')
    (hhigh : r ≤ 1) :
    (if 0.8 < x' then r' * 0.9 + 0.1 else if x' < 0.5 then r' * 0.9 + 0.05 else r') ≤
      if 0.8 < x then r * 0.9 + 0.1 else if x < 0.5 then r * 0.9 + 0.05 else r := by
  split_ifs <;> linarith

/-- A better average never leads to a branch that is worse for the reputation. -/
theorem Above.updateUtilization (h : t.Above t') {utilization utilization' : F64}
    (hle : val utilization' ≤ val utilization) :
    (t.updateUtilization utilization).Above (t'.updateUtilization utilization') := by
  have haverage : 0.1 * val utilization' + 0.9 * val t'.historicalUtilization ≤
      0.1 * val utilization + 0.9 * val t.historicalUtilization := by
    linarith [h.historicalUtilization]
  refine ⟨inBounds_updateUtilization h.inBounds _, inBounds_updateUtilization h.inBounds' _,
    ?_, ?_, h.allocated, h.allocated_nonneg⟩
  · rwa [val_historicalUtilization, val_historicalUtilization]
  · rw [val_reputation h.inBounds, val_reputation h.inBounds']
    exact nextReputation_mono haverage h.reputation h.inBounds'.1 h.inBounds.2

theorem Above.step (h : t.Above t') {call call' : UtilizationCall F64}
    (hcall : call.Dominates call') : (t.step call).Above (t'.step call') := by
  cases call with
  | recordFulfilled allocated used =>
    cases call' with
    | recordFulfilled allocated' used' =>
      obtain ⟨rfl, hpos, hused⟩ := hcall
      have hgiven : lt (lit 0) allocated = true := by
        rw [lt_iff, val_lit]
        exact hpos
      have hrate : val (used' / allocated) ≤ val (used / allocated) := by
        rw [ExactDivision.val_div _ _ hpos.ne', ExactDivision.val_div _ _ hpos.ne']
        exact div_le_div_of_nonneg_right hused hpos.le
      simp only [TenantReputation.step, recordFulfilled, hgiven, if_true]
      refine Above.updateUtilization ?_ hrate
      refine ⟨h.inBounds, h.inBounds', h.historicalUtilization, h.reputation,
        congrArg (· + allocated) h.allocated, ?_⟩
      show 0 ≤ val (t.currentAllocation.allocated + allocated)
      rw [val_add]
      exact add_nonneg h.allocated_nonneg hpos.le
    | updateUtilization utilization' => exact hcall.elim
  | updateUtilization utilization =>
    cases call' with
    | recordFulfilled allocated' used' => exact hcall.elim
    | updateUtilization utilization' => exact h.updateUtilization hcall

theorem val_schedulingPriority (h : 0 ≤ val t.currentAllocation.allocated) :
    val t.schedulingPriority =
      1 / (val t.currentAllocation.allocated + 1) * val t.reputation := by
  have hne : val (t.currentAllocation.allocated + lit 1) ≠ 0 := by
    rw [val_add, val_lit]
    positivity
  rw [schedulingPriority, val_mul, ExactDivision.val_div _ _ hne, val_add, val_lit]

theorem Above.schedulingPriority (h : t.Above t') :
    val t'.schedulingPriority ≤ val t.schedulingPriority := by
  have hpos := h.allocated_nonneg
  rw [val_schedulingPriority h.allocated_nonneg,
    val_schedulingPriority (h.allocated ▸ h.allocated_nonneg), ← h.allocated]
  exact mul_le_mul_of_nonneg_left h.reputation (by positivity)

/-- The reputation stays above one half and not above one, no tenant of a tracker counts as one of
low reputation, and a tenant who uses at least as much at every step stays at least as well off. -/
theorem reputation_bounded_monotone :
    (∀ tenantId (calls : List (UtilizationCall F64)) n,
      (run TenantReputation.step (new tenantId) (calls.take n)).InBounds) ∧
    (∀ (alpha : F64) calls ord,
      ((run ReputationTracker.step (.new alpha) calls).stats ord).lowReputationCount = 0) ∧
    ∀ tenantId tenantId' (calls calls' : List (UtilizationCall F64)),
      List.Forall₂ UtilizationCall.Dominates calls calls' → ∀ n,
        let t := run TenantReputation.step (new tenantId) (calls.take n)
        let t' := run TenantReputation.step (new tenantId') (calls'.take n)
        val t'.historicalUtilization ≤ val t.historicalUtilization ∧
          val t'.reputation ≤ val t.reputation ∧
          val t'.schedulingPriority ≤ val t.schedulingPriority := by
  refine ⟨fun tenantId calls n => inBounds_run tenantId _, fun alpha calls ord =>
    ReputationTracker.lowReputationCount_run alpha calls ord, ?_⟩
  intro tenantId tenantId' calls calls' hcalls n t t'
  have habove : t.Above t' := run_related (R := Above) (S := UtilizationCall.Dominates)
    (fun _ _ _ _ h hcall => h.step hcall) (above_new tenantId tenantId')
    (List.forall₂_take n hcalls)
  exact ⟨habove.historicalUtilization, habove.reputation, habove.schedulingPriority⟩

/-- A tenant who uses 95 of 100 stays ahead of one who uses 30. -/
theorem reputation_bounded_monotone_pair :
    letI := FloatOps.exact id id
    (run TenantReputation.step (new "b") [.recordFulfilled (100 : ℚ) 30]).reputation ≤
      (run TenantReputation.step (new "a") [.recordFulfilled (100 : ℚ) 95]).reputation := by
  let _ := FloatOps.exact id id
  let _ := ExactDivision.exact id id
  exact (reputation_bounded_monotone.2.2 "a" "b" [.recordFulfilled (100 : ℚ) 95]
    [.recordFulfilled (100 : ℚ) 30] (.cons ⟨rfl, by decide +kernel, by decide +kernel⟩ .nil) 1).2.1

end TenantReputation

end Monotone

end GroundCore.Scheduler
