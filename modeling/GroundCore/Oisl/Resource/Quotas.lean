import Mathlib.Algebra.Order.BigOperators.Group.List
import Mathlib.Tactic.Linarith
import GroundCore.Oisl.Resource.AllocatorRuns

/-! The quota of a tenant over runs of the allocator.  Of the four limits, an allocation is checked
against the power alone. -/

namespace GroundCore.Oisl.Resource

open Lib

namespace TenantQuota

def bandwidthBps (a : ResourceAllocation) : ℕ := (a.resources.bandwidth.map (·.bitsPerSecond)).getD 0

def storageBytes (a : ResourceAllocation) : ℕ := a.resources.storageBytes.getD 0

/-- The limits that no check reads. -/
structure Unchecked (quota : TenantQuota) (live : List ResourceAllocation) : Prop where
  bandwidth : (live.map bandwidthBps).sum ≤ quota.maxBandwidthBps
  storage : (live.map storageBytes).sum ≤ quota.maxStorageBytes
  count : live.length ≤ quota.maxAllocations

/-- The allocations together satisfy all limits of the quota. -/
structure Satisfied (quota : TenantQuota) (live : List ResourceAllocation) : Prop extends
    Unchecked quota live where
  power : (live.map (·.resources.powerWatts)).sum ≤ quota.maxPowerWatts

theorem Unchecked.sublist {quota : TenantQuota} {live rest : List ResourceAllocation}
    (h : quota.Unchecked live) (hrest : rest.Sublist live) : quota.Unchecked rest where
  bandwidth := ((hrest.map _).sum_le_sum fun _ _ => Nat.zero_le _).trans h.bandwidth
  storage := ((hrest.map _).sum_le_sum fun _ _ => Nat.zero_le _).trans h.storage
  count := hrest.length_le.trans h.count

end TenantQuota

namespace AllocatorCall

/-- The call allocates for the tenant. -/
def Serves (tenantId : TenantId) : AllocatorCall → Prop
  | .allocate _ _ tenantId' _ _ _ => tenantId' = tenantId
  | _ => False

/-- The call does not change the tenant's quota. -/
def Keeps (tenantId : TenantId) (quota : TenantQuota) : AllocatorCall → Prop
  | .setTenantQuota tenantId' quota' => tenantId' = tenantId → quota' = quota
  | _ => True

/-- The demand for power is not negative. -/
def Nonneg : AllocatorCall → Prop
  | .allocate claim _ _ _ _ _ => 0 ≤ claim.powerWatts
  | _ => True

end AllocatorCall

namespace ResourceAllocator

/-- An allocation for the tenant that passes the checks leaves the other limits satisfied. -/
def Room (tenantId : TenantId) (quota : TenantQuota) (allocator : ResourceAllocator) :
    AllocatorCall → Prop
  | .allocate claim taskId tenantId' priority window id =>
    tenantId' = tenantId → allocator.exceedsQuota claim tenantId = false →
      allocator.checkConflicts claim window tenantId = none →
      quota.Unchecked (allocator.getTenantAllocations tenantId ++
        [⟨id, taskId, tenantId, claim, window, priority, true⟩])
  | _ => True

/-- What a run keeps while the quota of the tenant stays. -/
structure Quoted (tenantId : TenantId) (quota : TenantQuota) (allocator : ResourceAllocator) :
    Prop where
  indexed : allocator.Indexed
  quota : allocator.tenantQuotas.get? tenantId = some quota
  nonneg : ∀ a ∈ allocator.getTenantAllocations tenantId, 0 ≤ a.resources.powerWatts

/-- The calls of such a run. -/
def Admits (tenantId : TenantId) (quota : TenantQuota) (allocator : ResourceAllocator)
    (call : AllocatorCall) : Prop :=
  allocator.Fresh call ∧ call.Keeps tenantId quota ∧ call.Nonneg

variable {tenantId : TenantId} {quota : TenantQuota} {allocator : ResourceAllocator}

/-- The usage that the quota check reads is the power of the tenant's live allocations. -/
theorem Indexed.tenantUsage_eq (h : allocator.Indexed) (tenantId : TenantId) :
    allocator.tenantUsage tenantId =
      ((allocator.getTenantAllocations tenantId).map (·.resources.powerWatts)).sum := by
  have hids : allocator.tenantIndex.ids tenantId =
      (allocator.getTenantAllocations tenantId).map (·.allocationId) := by
    simpa [getTenantAllocations] using h.tenant tenantId
  have hfind : ((allocator.getTenantAllocations tenantId).map (·.allocationId)).filterMap
      allocator.find? = allocator.getTenantAllocations tenantId := by
    rw [List.filterMap_map]
    have hsome : ∀ a ∈ allocator.getTenantAllocations tenantId,
        (allocator.find? ∘ fun a => a.allocationId) a = some a :=
      fun a ha => h.find?_eq_some (List.mem_of_mem_filter ha)
    rw [List.filterMap_congr hsome, List.filterMap_some]
  have husage : allocator.tenantUsage tenantId = (((allocator.tenantIndex.ids tenantId).filterMap
      allocator.find?).map fun a => a.resources.powerWatts).sum := by
    unfold tenantUsage HashMap.ids
    cases allocator.tenantIndex.get? tenantId <;> rfl
  rw [husage, hids, hfind]

theorem getTenantAllocations_pushed (a : ResourceAllocation) :
    (allocator.pushed a).getTenantAllocations tenantId =
      allocator.getTenantAllocations tenantId ++ if a.tenantId = tenantId then [a] else [] := by
  unfold getTenantAllocations pushed
  rw [List.filter_append]
  by_cases h : a.tenantId = tenantId
  · simp [h]
  · simp [h]

theorem getTenantAllocations_dropped (a : ResourceAllocation) :
    ((allocator.dropped a).getTenantAllocations tenantId).Sublist
      (allocator.getTenantAllocations tenantId) :=
  List.eraseP_sublist.filter _

theorem Quoted.step {call : AllocatorCall} (h : Quoted tenantId quota allocator)
    (hcall : Admits tenantId quota allocator call) : Quoted tenantId quota (allocator.step call) := by
  obtain ⟨hfresh, hkept, hnonneg⟩ := hcall
  refine ⟨h.indexed.step hfresh, ?_, ?_⟩ <;> unfold ResourceAllocator.step <;>
    rcases allocator.call_cases call with ⟨e, hcall⟩ | ⟨tenantId', quota', rfl, hcall⟩ |
      ⟨claim, taskId, tenantId', priority, window, id, rfl, -, -, hcall⟩ | ⟨a, ha, -, hcall⟩ <;>
    rw [hcall]
  · exact h.quota
  · show (allocator.tenantQuotas.insert tenantId' quota').get? tenantId = some quota
    rw [HashMap.get?_insert]
    split
    · next heq => rw [hkept heq.symm]
    · exact h.quota
  · exact h.quota
  · exact h.quota
  · exact h.nonneg
  · exact h.nonneg
  · intro a ha
    rw [getTenantAllocations_pushed, List.mem_append] at ha
    rcases ha with hold | hnew
    · exact h.nonneg a hold
    · split at hnew
      · rw [List.mem_singleton.mp hnew]
        exact hnonneg
      · contradiction
  · exact fun b hb => h.nonneg b ((getTenantAllocations_dropped a).subset hb)

theorem satisfied_step_iff {call : AllocatorCall} (h : Quoted tenantId quota allocator)
    (hsatisfied : quota.Satisfied (allocator.getTenantAllocations tenantId)) :
    quota.Satisfied ((allocator.step call).getTenantAllocations tenantId) ↔
      Room tenantId quota allocator call := by
  unfold ResourceAllocator.step
  rcases allocator.call_cases call with ⟨e, hcall⟩ | ⟨tenantId', quota', rfl, hcall⟩ |
    ⟨claim, taskId, tenantId', priority, window, id, rfl, hpower, hconflict, hcall⟩ |
    ⟨a, ha, hdrawn, hcall⟩
  · rw [hcall]
    refine ⟨fun _ => ?_, fun _ => hsatisfied⟩
    cases call with
    | allocate claim taskId tenantId' priority window id =>
      rintro rfl hpower hconflict
      have hok : (allocator.call (.allocate claim taskId tenantId' priority window id)).2 =
          .ok () := by
        simp only [ResourceAllocator.call, allocate_eq_pushed hpower hconflict]
        rfl
      rw [hcall] at hok
      contradiction
    | setTenantQuota | release | preempt => trivial
  · rw [hcall]
    exact ⟨fun _ => trivial, fun _ => hsatisfied⟩
  · rw [hcall, getTenantAllocations_pushed]
    by_cases hserved : tenantId' = tenantId
    · subst hserved
      rw [if_pos rfl]
      constructor
      · exact fun hafter _ _ _ => hafter.toUnchecked
      · intro hroom
        refine ⟨hroom rfl hpower hconflict, ?_⟩
        have husage := h.indexed.tenantUsage_eq tenantId'
        simp only [exceedsQuota, h.quota, decide_eq_false_iff_not, not_lt, husage] at hpower
        simpa using hpower
    · rw [if_neg hserved, List.append_nil]
      exact ⟨fun _ heq => absurd heq hserved, fun _ => hsatisfied⟩
  · rw [hcall]
    have hsub : ((allocator.dropped a).getTenantAllocations tenantId).Sublist
        (allocator.getTenantAllocations tenantId) := getTenantAllocations_dropped a
    constructor
    · intro _
      cases call with
      | allocate => contradiction
      | setTenantQuota | release | preempt => trivial
    · intro _
      refine ⟨hsatisfied.toUnchecked.sublist hsub, ?_⟩
      refine ((hsub.map _).sum_le_sum fun power hmem => ?_).trans hsatisfied.power
      obtain ⟨b, hb, rfl⟩ := List.mem_map.mp hmem
      exact h.nonneg b hb

theorem satisfied_iff_of_along {calls : List AllocatorCall}
    (h : Quoted tenantId quota allocator)
    (hnone : allocator.getTenantAllocations tenantId = [])
    (hcalls : Along step (Admits tenantId quota) allocator calls) :
    (∀ n, quota.Satisfied ((run step allocator (calls.take n)).getTenantAllocations tenantId)) ↔
      0 ≤ quota.maxPowerWatts ∧ Along step (Room tenantId quota) allocator calls := by
  have hstart : quota.Satisfied (allocator.getTenantAllocations tenantId) ↔
      0 ≤ quota.maxPowerWatts := by
    rw [hnone]
    refine ⟨fun h => by simpa using h.power, fun h => ⟨⟨?_, ?_, ?_⟩, by simpa using h⟩⟩
    · exact Nat.zero_le _
    · exact Nat.zero_le _
    · exact Nat.zero_le _
  have hiff := fun hsatisfied => along_iff_invariant_of_along (J := Quoted tenantId quota)
    (I := fun allocator => quota.Satisfied (allocator.getTenantAllocations tenantId))
    (fun _ _ h hcall => h.step hcall) (fun _ _ h _ => satisfied_step_iff h) h hsatisfied
    hcalls
  constructor
  · intro hall
    have hzero := hall 0
    rw [List.take_zero] at hzero
    exact ⟨hstart.mp hzero, (hiff hzero).mp hall⟩
  · rintro ⟨hpower, hroom⟩
    exact (hiff (hstart.mpr hpower)).mpr hroom

/-- While no call has allocated for a tenant, it has no live allocations. -/
theorem getTenantAllocations_of_along {calls : List AllocatorCall}
    (h : Along step (fun allocator call => call.Serves tenantId →
      (allocator.call call).2 ≠ .ok ()) new calls) :
    (run step new calls).getTenantAllocations tenantId = [] := by
  refine run_invariant (I := fun allocator => allocator.getTenantAllocations tenantId = [])
    (fun allocator call hnone hfails => ?_) rfl h
  unfold step
  rcases allocator.call_cases call with ⟨e, hcall⟩ | ⟨tenantId', quota', rfl, hcall⟩ |
    ⟨claim, taskId, tenantId', priority, window, id, rfl, -, -, hcall⟩ | ⟨a, -, -, hcall⟩
  · rw [hcall]
    exact hnone
  · rw [hcall]
    exact hnone
  · rw [hcall, getTenantAllocations_pushed, hnone, if_neg]
    · rfl
    · exact fun heq => hfails heq (by rw [hcall])
  · rw [hcall]
    exact List.sublist_nil.mp (hnone ▸ getTenantAllocations_dropped a)

/-- A quota that is set before the first allocation of its tenant is satisfied throughout exactly
when its power is not negative and every allocation for the tenant leaves the limits satisfied that
are not checked. -/
theorem satisfied_iff (tenantId : TenantId) (quota : TenantQuota)
    (before after : List AllocatorCall)
    (hdrawn : ((before ++ after).filterMap AllocatorCall.drawn).Nodup)
    (hfirst : Along step (fun allocator call => call.Serves tenantId →
      (allocator.call call).2 ≠ .ok ()) new before)
    (hkept : ∀ call ∈ after, call.Keeps tenantId quota) (hnonneg : ∀ call ∈ after, call.Nonneg) :
    (∀ n, quota.Satisfied ((run step new (before ++ .setTenantQuota tenantId quota ::
        after.take n)).getTenantAllocations tenantId)) ↔
      0 ≤ quota.maxPowerWatts ∧ Along step (Room tenantId quota)
        ((run step new before).setTenantQuota tenantId quota) after := by
  have hfresh : Along step Fresh new (before ++ .setTenantQuota tenantId quota :: after) := by
    refine fresh_of_nodup ?_ fun _ _ => List.not_mem_nil
    rw [List.filterMap_append, List.filterMap_cons_none rfl, ← List.filterMap_append]
    exact hdrawn
  obtain ⟨hbefore, -, hafter⟩ := along_append.mp hfresh
  have hindexed : (run step new before).Indexed :=
    run_invariant (fun _ _ h => h.step) Indexed.new hbefore
  have hnone := getTenantAllocations_of_along hfirst
  have hquoted : Quoted tenantId quota ((run step new before).setTenantQuota tenantId quota) := by
    refine ⟨{ hindexed with }, ?_, ?_⟩
    · exact (HashMap.get?_insert _ _ _ _).trans (if_pos rfl)
    · intro a ha
      have : a ∈ (run step new before).getTenantAllocations tenantId := ha
      rw [hnone] at this
      contradiction
  have hadmits : Along step (Admits tenantId quota)
      ((run step new before).setTenantQuota tenantId quota) after :=
    along_and.mpr ⟨hafter, along_of_forall fun call hcall =>
      ⟨hkept call hcall, hnonneg call hcall⟩⟩
  rw [← satisfied_iff_of_along hquoted hnone hadmits]
  simp only [run_append, run_cons]
  exact Iff.rfl

/-- A claim on nothing but storage. -/
def storageClaim (bytes : ℕ) : ResourceClaim :=
  { opticalTerminal := none, bandwidth := none, duration := 0, powerWatts := 0,
    storageBytes := some bytes, computeCycles := none }

def smallQuota : TenantQuota :=
  { maxPowerWatts := 100, maxBandwidthBps := 1000, maxStorageBytes := 10, maxAllocations := 1 }

def storeBytes (bytes : ℕ) (id : AllocationId) : AllocatorCall :=
  .allocate (storageClaim bytes) 1 "tenant" .medium ⟨0, 10⟩ id

theorem satisfied_storeBytes : (∀ n, smallQuota.Satisfied
      ((run step new ([] ++ .setTenantQuota "tenant" smallQuota ::
        [storeBytes 5 1].take n)).getTenantAllocations "tenant")) ↔
    0 ≤ smallQuota.maxPowerWatts ∧ Along step (Room "tenant" smallQuota)
      ((run step new []).setTenantQuota "tenant" smallQuota) [storeBytes 5 1] :=
  satisfied_iff "tenant" smallQuota [] [storeBytes 5 1] (by decide) trivial
    (by simp [storeBytes, AllocatorCall.Keeps])
    (by simp [storeBytes, storageClaim, AllocatorCall.Nonneg])

/-- The calls that set a quota first, with distinct ids and claims that are not negative, may exceed
it. -/
theorem storage_quota_exceeded : ¬ ∀ (tenantId : TenantId) (quota : TenantQuota)
    (calls : List AllocatorCall), (calls.filterMap AllocatorCall.drawn).Nodup →
    (∀ call ∈ calls, call.Keeps tenantId quota ∧ call.Nonneg) →
    quota.Satisfied ((run step new (.setTenantQuota tenantId quota :: calls)).getTenantAllocations
      tenantId) := by
  intro hall
  have h := hall "tenant" smallQuota [storeBytes 50 1] (by decide)
    (by simp [storeBytes, storageClaim, AllocatorCall.Keeps, AllocatorCall.Nonneg])
  exact absurd h.storage (by decide +kernel)

end ResourceAllocator

end GroundCore.Oisl.Resource
