import GroundCore.Lib.ProgressiveFilling
import GroundCore.Scheduler.Drf

/-! Progressive filling by dominant shares: the tenant that is selected gets the next amount.  The
dominant resource of an allocation is recomputed whenever a share changes, so the dominant share is
always the greatest of the shares. -/

namespace GroundCore.Scheduler

open Lib FiniteFloat

variable {F64 F32 : Type} [FloatOps F64 F32] [FiniteFloat F64 F32]

namespace ResourceAllocation

variable {a : ResourceAllocation F64}

/-- The dominant share is the greatest share, and zero when there are no shares. -/
structure Dominated (a : ResourceAllocation F64) : Prop where
  share_le : ∀ r s, a.shares.get? r = some s → val s.share ≤ val a.dominantShare
  attained : (∃ r s, a.shares.get? r = some s ∧ s.share = a.dominantShare) ∨
    ((∀ r, a.shares.get? r = none) ∧ a.dominantShare = FloatOps.lit 0)

theorem dominated_new : (new : ResourceAllocation F64).Dominated where
  share_le r s h := by rw [new, HashMap.get?_empty] at h; contradiction
  attained := .inr ⟨fun r => HashMap.get?_empty r, rfl⟩

theorem dominated_recomputeDominant (a : ResourceAllocation F64) (ord : ShareOrder F64) :
    (a.recomputeDominant ord).Dominated := by
  unfold recomputeDominant
  cases hmax : FloatOps.maxBy (fun e => e.2.share) (ord.order a.shares.entries) with
  | none =>
    have hempty : ∀ r, a.shares.get? r = none := fun r => by
      cases hget : a.shares.get? r with
      | none => rfl
      | some s =>
        have hmem := ord.mem_order.mpr (HashMap.mem_entries.mpr hget)
        rw [FloatOps.maxBy_eq_none_iff.mp hmax] at hmem
        exact absurd hmem List.not_mem_nil
    exact ⟨fun r s hget => by rw [hempty r] at hget; contradiction, .inr ⟨hempty, rfl⟩⟩
  | some e =>
    obtain ⟨hmem, hgreatest⟩ := of_maxBy hmax
    have hget : a.shares.get? e.1 = some e.2 := HashMap.mem_entries.mp (ord.mem_order.mp hmem)
    have hdominant : { a with dominantResource := some e.1 }.dominantShare = e.2.share := by
      simp only [dominantShare, hget]
      rfl
    refine ⟨fun r s h => ?_, .inl ⟨e.1, e.2, hget, hdominant.symm⟩⟩
    exact hdominant ▸ hgreatest (r, s) (ord.mem_order.mpr (HashMap.mem_entries.mpr h))

theorem dominated_addShare (a : ResourceAllocation F64) (share : ResourceShare F64)
    (ord : ShareOrder F64) : (a.addShare share ord).Dominated :=
  dominated_recomputeDominant _ ord

theorem Dominated.allocate (ha : a.Dominated) (r : ResourceType) (amount : F64)
    (ord : ShareOrder F64) : (a.allocate r amount ord).Dominated := by
  unfold ResourceAllocation.allocate
  cases a.shares.get? r with
  | none => exact ha
  | some share => exact dominated_recomputeDominant _ ord

/-- The use of a resource is no part of its share. -/
theorem Dominated.useResource (ha : a.Dominated) (r : ResourceType) (amount : F64) :
    (a.useResource r amount).Dominated := by
  have hshare : ∀ r', ((a.useResource r amount).shares.get? r').map (·.share) =
      (a.shares.get? r').map (·.share) := fun r' => by
    rw [ResourceAllocation.get?_useResource]
    split
    · cases a.shares.get? r' <;> rfl
    · rfl
  have hdominant : (a.useResource r amount).dominantShare = a.dominantShare := by
    have hsame : (a.useResource r amount).dominantResource = a.dominantResource := rfl
    unfold dominantShare
    rw [hsame]
    cases a.dominantResource with
    | none => rfl
    | some dominant => exact congrArg (Option.getD · (FloatOps.lit 0)) (hshare dominant)
  constructor
  · intro r' s hget
    have hbefore := hshare r'
    rw [hget] at hbefore
    obtain ⟨s', hget', heq⟩ := Option.map_eq_some_iff.mp hbefore.symm
    have hle := ha.share_le r' s' hget'
    rw [heq] at hle
    rwa [hdominant]
  · rw [hdominant]
    rcases ha.attained with ⟨r', s, hget, heq⟩ | ⟨hempty, hzero⟩
    · have hafter := hshare r'
      rw [hget] at hafter
      obtain ⟨s', hget', heq'⟩ := Option.map_eq_some_iff.mp hafter
      exact .inl ⟨r', s', hget', heq'.trans heq⟩
    · refine .inr ⟨fun r' => ?_, hzero⟩
      have := hshare r'
      rw [hempty r'] at this
      exact Option.map_eq_none_iff.mp this

end ResourceAllocation

namespace DominantResourceFairness

variable {d : DominantResourceFairness F64}

def Dominated (d : DominantResourceFairness F64) : Prop :=
  ∀ tenantId a, d.getAllocation tenantId = some a → a.Dominated

theorem dominated_getOrCreateAllocation (hd : d.Dominated)
    {f : ResourceAllocation F64 → ResourceAllocation F64} (hf : ∀ a, a.Dominated → (f a).Dominated)
    (tenantId : CustomerId) : (d.getOrCreateAllocation tenantId f).Dominated := by
  intro other a hget
  rw [getAllocation_getOrCreateAllocation, getAllocation] at hget
  split at hget
  · obtain rfl := Option.some.inj hget
    cases hold : d.allocations.get? tenantId with
    | none => exact hf _ ResourceAllocation.dominated_new
    | some a => exact hf a (hd tenantId a hold)
  · exact hd other a hget

theorem dominated_step (hd : d.Dominated) (call : DrfCall F64) : (d.step call).Dominated := by
  cases call with
  | setCapacity resourceType capacity => exact hd
  | addShare tenantId share ord =>
    exact dominated_getOrCreateAllocation hd (fun a _ => a.dominated_addShare share ord) tenantId
  | allocate tenantId resourceType amount ord =>
    exact dominated_getOrCreateAllocation hd (fun a ha => ha.allocate resourceType amount ord)
      tenantId
  | useResource tenantId resourceType amount =>
    exact dominated_getOrCreateAllocation hd (fun a ha => ha.useResource resourceType amount)
      tenantId

theorem dominated_run (calls : List (DrfCall F64)) : (run step new calls).Dominated :=
  run_preserves (I := Dominated) (fun _ call hd => dominated_step hd call)
    (fun tenantId a hget => by rw [getAllocation, new, HashMap.get?_empty] at hget; contradiction)
    calls

end DominantResourceFairness

/-- One step of progressive filling: the candidates, and what the selected one gets. -/
structure FillingStep (F64 : Type) where
  candidates : List CustomerId
  resourceType : ResourceType
  amount : F64
  ord : ShareOrder F64

namespace DominantResourceFairness

def fill (d : DominantResourceFairness F64) (f : FillingStep F64) : DominantResourceFairness F64 :=
  match d.selectNextTenant f.candidates with
  | some tenantId => d.step (.allocate tenantId f.resourceType f.amount f.ord)
  | none => d

/-- The step selects from all the tenants, and what it allocates is not negative and raises the
share by no more than `raise`. -/
structure Fills (tenants : Finset CustomerId) (raise : ℚ) (d : DominantResourceFairness F64)
    (f : FillingStep F64) : Prop where
  whole : ∀ tenantId, tenantId ∈ f.candidates ↔ tenantId ∈ tenants
  nonneg : 0 ≤ val f.amount
  raises : ∀ tenantId a s, d.selectNextTenant f.candidates = some tenantId →
    d.getAllocation tenantId = some a → a.getShare f.resourceType = some s →
    val { s with allocated := s.allocated + f.amount }.share ≤ val s.share + raise

/-- The gap between the dominant shares of the tenants. -/
def gap (d : DominantResourceFairness F64) (tenants : Finset CustomerId) : ℚ :=
  levelGap (fun tenantId => val (d.schedulingPriority tenantId)) tenants

variable {d : DominantResourceFairness F64}

end DominantResourceFairness

theorem ResourceShare.share_le_of_nonneg (s : ResourceShare F64) {amount : F64}
    (h : 0 ≤ val amount) : val s.share ≤ val { s with allocated := s.allocated + amount }.share := by
  unfold share
  split
  · next hcapacity =>
    have hpos := (lt_iff _ _).mp hcapacity
    rw [val_zero] at hpos
    exact div_le_div _ _ _ hpos (le_add _ _ h)
  · exact le_refl _

/-- What an amount that raises a share by at most `raise` does to the dominant share. -/
theorem ResourceAllocation.Dominated.dominantShare_allocate {a : ResourceAllocation F64}
    (ha : a.Dominated) {r : ResourceType} {s : ResourceShare F64} {amount : F64} {raise : ℚ}
    (ord : ShareOrder F64) (hget : a.shares.get? r = some s) (hamount : 0 ≤ val amount)
    (hraise : val { s with allocated := s.allocated + amount }.share ≤ val s.share + raise) :
    val a.dominantShare ≤ val (a.allocate r amount ord).dominantShare ∧
      val (a.allocate r amount ord).dominantShare ≤ val a.dominantShare + raise := by
  have hafter := ha.allocate r amount ord
  have hup := s.share_le_of_nonneg hamount
  have hsame : ∀ r', r' ≠ r → (a.allocate r amount ord).shares.get? r' = a.shares.get? r' :=
    fun r' hne => by rw [ResourceAllocation.get?_allocate, if_neg hne]
  have hself : (a.allocate r amount ord).shares.get? r =
      some { s with allocated := s.allocated + amount } := by
    rw [ResourceAllocation.get?_allocate, if_pos rfl, hget]
    rfl
  constructor
  · rcases ha.attained with ⟨r', s', hget', heq⟩ | ⟨hempty, -⟩
    · by_cases hr : r' = r
      · subst hr
        obtain rfl := Option.some.inj (hget.symm.trans hget')
        rw [← heq]
        exact hup.trans (hafter.share_le r' _ hself)
      · rw [← heq]
        exact hafter.share_le r' s' ((hsame r' hr).trans hget')
    · rw [hempty r] at hget
      contradiction
  · rcases hafter.attained with ⟨r', s', hget', heq⟩ | ⟨hempty, -⟩
    · rw [← heq]
      by_cases hr : r' = r
      · subst hr
        obtain rfl := Option.some.inj (hself.symm.trans hget')
        have := ha.share_le r' s hget
        linarith
      · have := ha.share_le r' s' ((hsame r' hr).symm.trans hget')
        linarith
    · rw [hempty r] at hself
      contradiction

namespace DominantResourceFairness

variable {d : DominantResourceFairness F64} {tenants : Finset CustomerId} {raise : ℚ}
  {f : FillingStep F64}

/-- A step of progressive filling leaves no greater gap than there was, or than the raise. -/
theorem gap_fill (hd : d.Dominated) (hf : d.Fills tenants raise f) :
    (d.fill f).gap tenants ≤ max (d.gap tenants) raise := by
  unfold fill
  cases hselect : d.selectNextTenant f.candidates with
  | none => exact le_max_left _ _
  | some tenantId =>
    obtain ⟨hmem, hleast⟩ := of_minBy hselect
    have hother : ∀ other ∈ tenants, other ≠ tenantId →
        val ((d.step (.allocate tenantId f.resourceType f.amount f.ord)).schedulingPriority other) =
          val (d.schedulingPriority other) := fun other _ hne => by
      rw [step, schedulingPriority_getOrCreateAllocation, if_neg hne]
    have hself : (d.step (.allocate tenantId f.resourceType f.amount f.ord)).schedulingPriority
        tenantId = (((d.getAllocation tenantId).getD .new).allocate f.resourceType f.amount
          f.ord).dominantShare := by
      rw [step, schedulingPriority_getOrCreateAllocation, if_pos rfl]
    -- Only an allocation that has a share of the resource takes the amount.
    by_cases htakes : ∃ a s, d.getAllocation tenantId = some a ∧
        a.shares.get? f.resourceType = some s
    · obtain ⟨a, s, hget, hshare⟩ := htakes
      obtain ⟨hup, hby⟩ := (hd tenantId a hget).dominantShare_allocate f.ord hshare hf.nonneg
        (hf.raises tenantId a s hselect hget hshare)
      have hbefore : d.schedulingPriority tenantId = a.dominantShare := by
        rw [schedulingPriority, hget]
      rw [hget, Option.getD_some] at hself
      apply levelGap_raise (fun other hother => hleast other ((hf.whole other).mpr hother))
        ((hf.whole tenantId).mp hmem) hother
      · rw [hself, hbefore]
        exact hup
      · rw [hself, hbefore]
        exact hby
    · refine le_max_of_le_left (le_of_eq (levelGap_congr fun other hmem => ?_))
      by_cases hne : other = tenantId
      · rw [hne, hself, dominantShare_allocate_of_not_shared htakes]
      · exact hother other hmem hne

theorem dominated_fill (hd : d.Dominated) (f : FillingStep F64) : (d.fill f).Dominated := by
  unfold fill
  cases d.selectNextTenant f.candidates with
  | none => exact hd
  | some tenantId => exact dominated_step hd _

/-- Progressive filling from any state of the program: the gap between the dominant shares stays
within the first gap and the highest raise, and each dominant share is the greatest share. -/
theorem gap_run_fill_le (calls : List (DrfCall F64)) (tenants : Finset CustomerId) (raise : ℚ)
    (steps : List (FillingStep F64))
    (hsteps : Along fill (Fills tenants raise) (run step new calls) steps) :
    (run fill (run step new calls) steps).gap tenants ≤
        max ((run step new calls).gap tenants) raise ∧
      (run fill (run step new calls) steps).Dominated := by
  generalize hbound : max ((run step new calls).gap tenants) raise = bound
  have hkeep : ∀ (d : DominantResourceFairness F64) f, d.gap tenants ≤ bound ∧ d.Dominated →
      Fills tenants raise d f → (d.fill f).gap tenants ≤ bound ∧ (d.fill f).Dominated := by
    intro d f hd hf
    have hraise : raise ≤ bound := hbound ▸ le_max_right _ _
    exact ⟨(gap_fill hd.2 hf).trans (max_le hd.1 hraise), dominated_fill hd.2 f⟩
  have hstart : (run step new calls).gap tenants ≤ bound ∧ (run step new calls).Dominated :=
    ⟨hbound ▸ le_max_left _ _, dominated_run calls⟩
  exact run_invariant hkeep hstart hsteps

/-- Two tenants with a share of one resource, of which the first has thirty of a hundred. -/
def twoTenants : List (DrfCall ℚ) :=
  letI := FloatOps.exact id id
  [.addShare "a" (.new .lBandSdrTime 100) (.stored _),
   .addShare "b" (.new .lBandSdrTime 100) (.stored _),
   .allocate "a" .lBandSdrTime 30 (.stored _)]

def tenToLeast : FillingStep ℚ :=
  { candidates := ["a", "b"], resourceType := .lBandSdrTime, amount := 10, ord := .stored _ }

theorem twoTenants_filled :
    letI := FloatOps.exact id id
    letI := FiniteFloat.exact id id
    (run fill (run step new twoTenants) [tenToLeast]).gap {"a", "b"} ≤
        max ((run step new twoTenants).gap {"a", "b"}) (1 / 10) ∧
      (run fill (run step new twoTenants) [tenToLeast]).Dominated := by
  let _ := FloatOps.exact id id
  let _ := FiniteFloat.exact id id
  refine gap_run_fill_le twoTenants {"a", "b"} (1 / 10) [tenToLeast] ⟨?_, trivial⟩
  refine ⟨fun tenantId => by simp [tenToLeast], by decide +kernel, ?_⟩
  intro tenantId a s hselect ha hs
  have hleast : (run step new twoTenants).selectNextTenant tenToLeast.candidates = some "b" := by
    decide +kernel
  obtain rfl := Option.some.inj (hselect.symm.trans hleast)
  have hshare : ((run step new twoTenants).getAllocation "b").bind (fun a =>
      (a.getShare tenToLeast.resourceType).map fun s =>
        ({ s with allocated := s.allocated + tenToLeast.amount }.share, s.share)) =
        some (1 / 10, 0) := by
    decide +kernel
  rw [ha, Option.bind_some, hs, Option.map_some, Option.some.injEq, Prod.mk.injEq] at hshare
  rw [hshare.1, hshare.2]
  decide +kernel

end DominantResourceFairness

end GroundCore.Scheduler
