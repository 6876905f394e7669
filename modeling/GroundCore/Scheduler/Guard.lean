import GroundCore.Scheduler.Drf

/-! What the check before an allocation promises.  It compares the share that the tenant would
have with the threshold, except for a tenant that has no allocation yet, which it always lets
through. -/

namespace GroundCore.Scheduler

open Lib FiniteFloat

variable {F64 F32 : Type} [FloatOps F64 F32]

/-- What is done for a tenant once the capacities are set.  The first allocation creates the
tenant, gives it a share of the resource and then the amount. -/
inductive TenantCall (F64 : Type)
  | addShare (tenantId : CustomerId) (resourceType : ResourceType) (ord : ShareOrder F64)
  | allocate (tenantId : CustomerId) (resourceType : ResourceType) (amount : F64)
      (ord : ShareOrder F64)
  | firstAllocate (tenantId : CustomerId) (resourceType : ResourceType) (amount : F64)
      (ord ord' : ShareOrder F64)
  | useResource (tenantId : CustomerId) (resourceType : ResourceType) (amount : F64)

namespace DominantResourceFairness

/-- The state with the given capacities and no tenant. -/
def withCapacities (capacities : List (ResourceType × F64)) : DominantResourceFairness F64 :=
  capacities.foldl (fun d capacity => d.setCapacity capacity.1 capacity.2) new

/-- A share is created with the capacity of its resource. -/
def tenantStep (d : DominantResourceFairness F64) : TenantCall F64 → DominantResourceFairness F64
  | .addShare tenantId resourceType ord =>
    match d.totalCapacity.get? resourceType with
    | some capacity =>
      d.getOrCreateAllocation tenantId (·.addShare (.new resourceType capacity) ord)
    | none => d
  | .allocate tenantId resourceType amount ord =>
    d.getOrCreateAllocation tenantId (·.allocate resourceType amount ord)
  | .firstAllocate tenantId resourceType amount ord ord' =>
    match d.totalCapacity.get? resourceType with
    | some capacity => d.getOrCreateAllocation tenantId fun allocation =>
      (allocation.addShare (.new resourceType capacity) ord).allocate resourceType amount ord'
    | none => d
  | .useResource tenantId resourceType amount =>
    d.getOrCreateAllocation tenantId (·.useResource resourceType amount)

/-- Every allocation follows a `canAllocate` that returned `true` in the same state. -/
def Guarded (threshold : F64) (d : DominantResourceFairness F64) : TenantCall F64 → Prop
  | .allocate tenantId resourceType amount _ =>
    d.canAllocate tenantId resourceType amount threshold = true
  | .firstAllocate tenantId resourceType amount _ _ => d.getAllocation tenantId = none ∧
    d.canAllocate tenantId resourceType amount threshold = true
  | .addShare _ _ _ | .useResource _ _ _ => True

def shareOf (d : DominantResourceFairness F64) (tenantId : CustomerId)
    (resourceType : ResourceType) : Option (ResourceShare F64) :=
  (d.getAllocation tenantId).bind (·.getShare resourceType)

/-- The share of an allocation made to a new tenant. -/
def firstShare (resourceType : ResourceType) (capacity amount : F64) : ResourceShare F64 :=
  { ResourceShare.new resourceType capacity with allocated := FloatOps.lit 0 + amount }

variable {d : DominantResourceFairness F64}

theorem shareOf_getOrCreateAllocation (d : DominantResourceFairness F64)
    (tenantId other : CustomerId) (f : ResourceAllocation F64 → ResourceAllocation F64)
    (r : ResourceType) : (d.getOrCreateAllocation tenantId f).shareOf other r =
      if other = tenantId then (f ((d.getAllocation tenantId).getD .new)).shares.get? r
      else d.shareOf other r := by
  unfold shareOf
  rw [getAllocation_getOrCreateAllocation]
  by_cases heq : other = tenantId
  · rw [if_pos heq, if_pos heq]
    rfl
  · rw [if_neg heq, if_neg heq]

theorem get?_getD_getAllocation (d : DominantResourceFairness F64) (tenantId : CustomerId)
    (r : ResourceType) :
    ((d.getAllocation tenantId).getD .new).shares.get? r = d.shareOf tenantId r := by
  unfold shareOf
  cases d.getAllocation tenantId with
  | none => exact HashMap.get?_empty r
  | some a => rfl

/-- The shares carry the capacities of their resources. -/
def Capacitated (d : DominantResourceFairness F64) : Prop :=
  ∀ tenantId r s, d.shareOf tenantId r = some s → d.totalCapacity.get? r = some s.totalCapacity

variable {tenantId : CustomerId} {r : ResourceType}
  {s : ResourceShare F64}

/-- A change of one resource of one tenant leaves every other share as it was. -/
theorem shareOf_getOrCreateAllocation_cases {tenantId' : CustomerId} {r' : ResourceType}
    {f : ResourceAllocation F64 → ResourceAllocation F64}
    (hf : ∀ a r, r ≠ r' → (f a).shares.get? r = a.shares.get? r)
    (h : (d.getOrCreateAllocation tenantId' f).shareOf tenantId r = some s) :
    d.shareOf tenantId r = some s ∨ tenantId = tenantId' ∧ r = r' ∧
      (f ((d.getAllocation tenantId').getD .new)).shares.get? r' = some s := by
  rw [shareOf_getOrCreateAllocation] at h
  split at h
  · next heq =>
    subst heq
    by_cases hr : r = r'
    · subst hr
      exact .inr ⟨rfl, rfl, h⟩
    · rw [hf _ r hr, get?_getD_getAllocation] at h
      exact .inl h
  · exact .inl h

/-- A share that is made for a resource of known capacity is new, or none is made. -/
theorem shareOf_elim_cases {tenantId' : CustomerId} {r' : ResourceType}
    {f : F64 → ResourceAllocation F64 → ResourceAllocation F64} {fresh : F64 → ResourceShare F64}
    (hf : ∀ capacity a r, (f capacity a).shares.get? r =
      if r = r' then some (fresh capacity) else a.shares.get? r)
    (h : ((d.totalCapacity.get? r').elim d fun capacity =>
      d.getOrCreateAllocation tenantId' (f capacity)).shareOf tenantId r = some s) :
    d.shareOf tenantId r = some s ∨ tenantId = tenantId' ∧ r = r' ∧
      ∃ capacity, d.totalCapacity.get? r' = some capacity ∧ s = fresh capacity := by
  cases hcapacity : d.totalCapacity.get? r' with
  | none =>
    rw [hcapacity] at h
    exact .inl h
  | some capacity =>
    rw [hcapacity] at h
    rcases shareOf_getOrCreateAllocation_cases (fun a r hr => (hf capacity a r).trans (if_neg hr))
      h with hold | ⟨htenant, hr, hget⟩
    · exact .inl hold
    · rw [hf, if_pos rfl] at hget
      exact .inr ⟨htenant, hr, capacity, rfl, (Option.some.inj hget).symm⟩

/-- Where a share comes from that a tenant has after a call: it is the one from before, with another
use or with what the check allowed, or it is new. -/
theorem shareOf_tenantStep {call : TenantCall F64}
    (h : (d.tenantStep call).shareOf tenantId r = some s) :
    (∃ s₀, d.shareOf tenantId r = some s₀ ∧ s.totalCapacity = s₀.totalCapacity ∧
      (s.allocated = s₀.allocated ∨ ∃ amount ord, call = .allocate tenantId r amount ord ∧
        s.allocated = s₀.allocated + amount)) ∨
    ∃ capacity, d.totalCapacity.get? r = some capacity ∧ (s = .new r capacity ∨
      ∃ amount ord ord', call = .firstAllocate tenantId r amount ord ord' ∧
        s = firstShare r capacity amount) := by
  cases call with
  | addShare tenantId' r' ord =>
    have hf : ∀ (capacity : F64) (a : ResourceAllocation F64) (r : ResourceType),
        (a.addShare (.new r' capacity) ord).shares.get? r =
          if r = r' then some (.new r' capacity) else a.shares.get? r :=
      fun capacity a r => a.get?_addShare (.new r' capacity) ord r
    have hshare : ((d.totalCapacity.get? r').elim d fun capacity => d.getOrCreateAllocation tenantId'
        (·.addShare (.new r' capacity) ord)).shareOf tenantId r = some s := by
      rw [tenantStep] at h
      cases hcapacity : d.totalCapacity.get? r' <;> rwa [hcapacity] at h
    rcases shareOf_elim_cases hf hshare with hold | ⟨rfl, rfl, capacity, hcapacity, hs⟩
    · exact .inl ⟨s, hold, rfl, .inl rfl⟩
    · exact .inr ⟨capacity, hcapacity, .inl hs⟩
  | allocate tenantId' r' amount ord =>
    rw [tenantStep] at h
    rcases shareOf_getOrCreateAllocation_cases (fun a r hr => by
      rw [ResourceAllocation.get?_allocate, if_neg hr]) h with hold | ⟨rfl, rfl, hget⟩
    · exact .inl ⟨s, hold, rfl, .inl rfl⟩
    · rw [ResourceAllocation.get?_allocate, if_pos rfl, get?_getD_getAllocation] at hget
      obtain ⟨s₀, hbefore, rfl⟩ := Option.map_eq_some_iff.mp hget
      exact .inl ⟨s₀, hbefore, rfl, .inr ⟨amount, ord, rfl, rfl⟩⟩
  | firstAllocate tenantId' r' amount ord ord' =>
    have hf : ∀ (capacity : F64) (a : ResourceAllocation F64) (r : ResourceType),
        ((a.addShare (.new r' capacity) ord).allocate r' amount ord').shares.get? r =
          if r = r' then some (firstShare r' capacity amount) else a.shares.get? r := by
      intro capacity a r
      rw [ResourceAllocation.get?_allocate]
      split
      · next hr =>
        rw [ResourceAllocation.get?_addShare, ResourceShare.resourceType_new, if_pos hr]
        rfl
      · next hr => rw [ResourceAllocation.get?_addShare, ResourceShare.resourceType_new, if_neg hr]
    have hshare : ((d.totalCapacity.get? r').elim d fun capacity => d.getOrCreateAllocation tenantId'
        fun a => (a.addShare (.new r' capacity) ord).allocate r' amount ord').shareOf tenantId r =
          some s := by
      rw [tenantStep] at h
      cases hcapacity : d.totalCapacity.get? r' <;> rwa [hcapacity] at h
    rcases shareOf_elim_cases hf hshare with hold | ⟨rfl, rfl, capacity, hcapacity, hs⟩
    · exact .inl ⟨s, hold, rfl, .inl rfl⟩
    · exact .inr ⟨capacity, hcapacity, .inr ⟨amount, ord, ord', rfl, hs⟩⟩
  | useResource tenantId' r' amount =>
    rw [tenantStep] at h
    rcases shareOf_getOrCreateAllocation_cases (fun a r hr => by
      rw [ResourceAllocation.get?_useResource, if_neg hr]) h with
      hold | ⟨rfl, rfl, hget⟩
    · exact .inl ⟨s, hold, rfl, .inl rfl⟩
    · rw [ResourceAllocation.get?_useResource, if_pos rfl, get?_getD_getAllocation] at hget
      obtain ⟨s₀, hbefore, rfl⟩ := Option.map_eq_some_iff.mp hget
      exact .inl ⟨s₀, hbefore, rfl, .inl rfl⟩

theorem totalCapacity_tenantStep (d : DominantResourceFairness F64) (call : TenantCall F64) :
    (d.tenantStep call).totalCapacity = d.totalCapacity := by
  cases call with
  | addShare tenantId r ord =>
    simp only [tenantStep]
    cases d.totalCapacity.get? r <;> rfl
  | firstAllocate tenantId r amount ord ord' =>
    simp only [tenantStep]
    cases d.totalCapacity.get? r <;> rfl
  | allocate tenantId r amount ord => rfl
  | useResource tenantId r amount => rfl

theorem Capacitated.tenantStep (hd : d.Capacitated) (call : TenantCall F64) :
    (d.tenantStep call).Capacitated := by
  intro tenantId r s hget
  rw [totalCapacity_tenantStep]
  rcases shareOf_tenantStep hget with ⟨s₀, hbefore, hcapacity, -⟩ |
    ⟨capacity, hcapacity, rfl | ⟨amount, ord, ord', -, rfl⟩⟩
  · rw [hcapacity]
    exact hd tenantId r s₀ hbefore
  · exact hcapacity
  · exact hcapacity

theorem shareOf_withCapacities (capacities : List (ResourceType × F64)) (tenantId : CustomerId)
    (r : ResourceType) : (withCapacities capacities).shareOf tenantId r = none := by
  have hnone : (withCapacities capacities).allocations = ∅ := by
    unfold withCapacities
    induction capacities using List.reverseRecOn with
    | nil => rfl
    | append_singleton capacities capacity ih =>
      rw [List.foldl_append]
      exact ih
  rw [shareOf, getAllocation, hnone, HashMap.get?_empty]
  rfl

theorem capacitated_run (capacities : List (ResourceType × F64)) (calls : List (TenantCall F64)) :
    (run tenantStep (withCapacities capacities) calls).Capacitated :=
  run_preserves (I := Capacitated) (fun _ call hd => hd.tenantStep call)
    (fun tenantId r s hget => by rw [shareOf_withCapacities] at hget; contradiction) calls

theorem share_congr {s₀ : ResourceShare F64} (hcapacity : s.totalCapacity = s₀.totalCapacity)
    (hallocated : s.allocated = s₀.allocated) : s.share = s₀.share := by
  rw [ResourceShare.share, ResourceShare.share, hcapacity, hallocated]

variable [FiniteFloat F64 F32]

/-- What the check compares with the threshold is the share after the allocation. -/
theorem share_le_of_canAllocate (hd : d.Capacitated) {amount threshold : F64}
    (hs : d.shareOf tenantId r = some s) (h : d.canAllocate tenantId r amount threshold = true) :
    val { s with allocated := s.allocated + amount }.share ≤ val threshold := by
  obtain ⟨a, ha, hget⟩ := Option.bind_eq_some_iff.mp hs
  simp only [canAllocate, ha, hd tenantId r s hs, hget, Option.map_some, Option.getD_some] at h
  split at h
  · next hpositive =>
    rw [ResourceShare.share, if_pos hpositive]
    exact (le_iff _ _).mp h
  · contradiction

theorem share_new (r : ResourceType) (capacity : F64) :
    val (ResourceShare.new r capacity).share = 0 := by
  unfold ResourceShare.share
  split
  · next hpositive =>
    apply lit_zero_div
    have := (lt_iff _ _).mp hpositive
    rwa [val_zero] at this
  · exact val_zero

/-- The tenant was created by an allocation of the resource that gave at least the share `s`. -/
def FirstAllocated (capacities : List (ResourceType × F64)) (calls : List (TenantCall F64))
    (tenantId : CustomerId) (r : ResourceType) (s : ResourceShare F64) : Prop :=
  ∃ before amount ord ord' after,
    calls = before ++ .firstAllocate tenantId r amount ord ord' :: after ∧
    (run tenantStep (withCapacities capacities) before).getAllocation tenantId = none ∧
    val s.share ≤ val (firstShare r s.totalCapacity amount).share

/-- When every allocation passes the check, a share is within the threshold (or zero, when the
threshold is negative), unless its tenant was created by an allocation of the resource that gave
as much. -/
theorem share_le_or_firstAllocated (capacities : List (ResourceType × F64)) (threshold : F64)
    (calls : List (TenantCall F64))
    (hguarded : Along tenantStep (Guarded threshold) (withCapacities capacities) calls)
    (tenantId : CustomerId) (r : ResourceType) (s : ResourceShare F64)
    (hs : (run tenantStep (withCapacities capacities) calls).shareOf tenantId r = some s) :
    val s.share ≤ max (val threshold) 0 ∨ FirstAllocated capacities calls tenantId r s := by
  induction calls using List.reverseRecOn generalizing s with
  | nil =>
    rw [run_nil, shareOf_withCapacities] at hs
    contradiction
  | append_singleton calls call ih =>
    obtain ⟨hbefore, hcall, -⟩ := along_append.mp hguarded
    rw [run_append] at hs
    have hcapacitated := capacitated_run capacities calls
    rcases shareOf_tenantStep hs with
      ⟨s₀, hs₀, hcapacity, hallocated | ⟨amount, ord, rfl, hallocated⟩⟩ |
      ⟨capacity, -, rfl | ⟨amount, ord, ord', rfl, rfl⟩⟩
    · rw [share_congr hcapacity hallocated]
      rcases ih hbefore s₀ hs₀ with hle | ⟨before, amount, ord, ord', after, rfl, hnew, hle⟩
      · exact .inl hle
      · refine .inr ⟨before, amount, ord, ord', after ++ [call], by simp, hnew, ?_⟩
        rw [share_congr hcapacity hallocated, hcapacity]
        exact hle
    · have hshare : s.share = { s₀ with allocated := s₀.allocated + amount }.share :=
        share_congr hcapacity hallocated
      rw [hshare]
      exact .inl (le_max_of_le_left (share_le_of_canAllocate hcapacitated hs₀ hcall))
    · rw [share_new]
      exact .inl (le_max_right _ _)
    · exact .inr ⟨calls, amount, ord, ord', [], rfl, hcall.1, le_refl _⟩

/-- A capacity of a hundred, of which a new tenant asks for more than there is. -/
def overCapacity : List (TenantCall ℚ) :=
  [.firstAllocate "a" .lBandSdrTime 150 (.stored _) (.stored _)]

theorem overCapacity_guarded :
    letI := FloatOps.exact id id
    Along tenantStep (Guarded (1 / 2)) (withCapacities [(.lBandSdrTime, 100)]) overCapacity :=
  ⟨⟨rfl, rfl⟩, trivial⟩

theorem overCapacity_shareOf :
    letI := FloatOps.exact id id
    (run tenantStep (withCapacities [(.lBandSdrTime, 100)]) overCapacity).shareOf "a"
      .lBandSdrTime = some (firstShare .lBandSdrTime 100 150) := rfl

/-- The first allocation of a tenant exceeds the threshold, and so does a new share when the
threshold is negative. -/
theorem guarded_exceeds :
    letI := FloatOps.exact id id
    (∃ calls s, Along tenantStep (Guarded (1 / 2)) (withCapacities [(.lBandSdrTime, (100 : ℚ))])
        calls ∧ (run tenantStep (withCapacities [(.lBandSdrTime, 100)]) calls).shareOf "a"
          .lBandSdrTime = some s ∧ 1 / 2 < s.share) ∧
      ∃ calls s, Along tenantStep (Guarded (-1)) (withCapacities [(.lBandSdrTime, (100 : ℚ))])
        calls ∧ (run tenantStep (withCapacities [(.lBandSdrTime, 100)]) calls).shareOf "a"
          .lBandSdrTime = some s ∧ -1 < s.share := by
  let _ := FloatOps.exact id id
  refine ⟨⟨overCapacity, _, overCapacity_guarded, overCapacity_shareOf, by decide +kernel⟩, ?_⟩
  exact ⟨[.addShare "a" .lBandSdrTime (.stored _)], .new .lBandSdrTime 100, ⟨trivial, trivial⟩, rfl,
    by decide +kernel⟩

theorem overCapacity_firstAllocated :
    letI := FloatOps.exact id id
    letI := FiniteFloat.exact id id
    val (firstShare .lBandSdrTime (100 : ℚ) 150).share ≤ max (1 / 2) 0 ∨
      FirstAllocated [(.lBandSdrTime, 100)] overCapacity "a" .lBandSdrTime
        (firstShare .lBandSdrTime (100 : ℚ) 150) := by
  let _ := FloatOps.exact id id
  let _ := FiniteFloat.exact id id
  exact share_le_or_firstAllocated [(.lBandSdrTime, 100)] (1 / 2) overCapacity overCapacity_guarded
    "a" .lBandSdrTime _ overCapacity_shareOf

end DominantResourceFairness

end GroundCore.Scheduler
