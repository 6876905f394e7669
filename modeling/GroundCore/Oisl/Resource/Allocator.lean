import Mathlib.Algebra.Order.Field.Rat
import GroundCore.Lib.HashMap
import GroundCore.Oisl.Types

/-! The constellation-wide allocator: the allocations that are live, the tenants' quotas, and the
indexes of allocations by terminal and by tenant.  The allocator adds watts as exact numbers.  A
function that draws a random id takes that id as an argument. -/

namespace GroundCore.Oisl.Resource

open Lib

structure ResourceClaim (F64 : Type := ℚ) where
  opticalTerminal : Option TerminalId
  bandwidth : Option DataRate
  duration : Duration
  powerWatts : F64
  storageBytes : Option ℕ
  computeCycles : Option ℕ
  deriving DecidableEq

structure ResourceAllocation (F64 : Type := ℚ) where
  allocationId : AllocationId
  taskId : TaskId
  tenantId : TenantId
  resources : ResourceClaim F64
  validWindow : TimeWindow
  priority : Priority
  preemptible : Bool
  deriving DecidableEq

def ResourceAllocation.canPreempt {F64 : Type} (allocation : ResourceAllocation F64) : Bool :=
  allocation.preemptible && allocation.priority ≠ .critical

structure TenantQuota where
  maxPowerWatts : ℚ
  maxBandwidthBps : ℕ
  maxStorageBytes : ℕ
  maxAllocations : ℕ

inductive AllocationError
  | notFound (allocationId : AllocationId)
  | quotaExceeded (tenantId : TenantId) (resource : String)
  | resourceConflict (conflictingAllocation : AllocationId)
  | notPreemptible (allocationId : AllocationId)
  deriving DecidableEq

def AllocationError.toString : AllocationError → String
  | .notFound id => s!"Allocation not found: {id.hyphenated}"
  | .quotaExceeded tenantId resource =>
    s!"Tenant quota exceeded for {tenantId}: resource {resource}"
  | .resourceConflict id => s!"Resource conflict with allocation {id.hyphenated}"
  | .notPreemptible id => s!"Allocation {id.hyphenated} is not preemptible"

structure ResourceAllocator where
  allocations : List ResourceAllocation
  tenantQuotas : HashMap TenantId TenantQuota
  terminalIndex : HashMap TerminalId (List AllocationId)
  tenantIndex : HashMap TenantId (List AllocationId)

namespace ResourceAllocator

def new : ResourceAllocator := ⟨[], ∅, ∅, ∅⟩

def find? (allocator : ResourceAllocator) (id : AllocationId) : Option ResourceAllocation :=
  allocator.allocations.find? fun a => a.allocationId = id

def setTenantQuota (allocator : ResourceAllocator) (tenantId : TenantId) (quota : TenantQuota) :
    ResourceAllocator :=
  { allocator with tenantQuotas := allocator.tenantQuotas.insert tenantId quota }

def tenantUsage (allocator : ResourceAllocator) (tenantId : TenantId) : ℚ :=
  match allocator.tenantIndex.get? tenantId with
  | none => 0
  | some ids => ((ids.filterMap allocator.find?).map fun a => a.resources.powerWatts).sum

/-- The first allocation on the claim's terminal whose window overlaps. -/
def checkConflicts (allocator : ResourceAllocator) (claim : ResourceClaim) (window : TimeWindow)
    (_tenantId : TenantId) : Option AllocationId := do
  let terminal ← claim.opticalTerminal
  let ids ← allocator.terminalIndex.get? terminal
  ids.findSome? fun id =>
    (allocator.allocations.find? fun a =>
      a.allocationId = id && a.validWindow.overlaps window).map (·.allocationId)

/-- Whether a tenant's quota leaves no room for a claim. -/
def exceedsQuota (allocator : ResourceAllocator) (claim : ResourceClaim) (tenantId : TenantId) :
    Bool :=
  match allocator.tenantQuotas.get? tenantId with
  | none => false
  | some quota => quota.maxPowerWatts < allocator.tenantUsage tenantId + claim.powerWatts

def allocate (allocator : ResourceAllocator) (claim : ResourceClaim) (taskId : TaskId)
    (tenantId : TenantId) (priority : Priority) (validWindow : TimeWindow)
    (allocationId : AllocationId) : ResourceAllocator × Except AllocationError AllocationId :=
  if allocator.exceedsQuota claim tenantId then
    (allocator, .error (.quotaExceeded tenantId "power"))
  else
    match allocator.checkConflicts claim validWindow tenantId with
    | some conflict => (allocator, .error (.resourceConflict conflict))
    | none =>
      let allocation : ResourceAllocation :=
        { allocationId, taskId, tenantId, resources := claim, validWindow, priority,
          preemptible := true }
      let push (ids : Option (List AllocationId)) := ids.getD [] ++ [allocationId]
      ({ allocator with
        terminalIndex :=
          match claim.opticalTerminal with
          | none => allocator.terminalIndex
          | some terminal =>
            allocator.terminalIndex.insert terminal (push (allocator.terminalIndex.get? terminal))
        tenantIndex :=
          allocator.tenantIndex.insert tenantId (push (allocator.tenantIndex.get? tenantId))
        allocations := allocator.allocations ++ [allocation] }, .ok allocationId)

def release (allocator : ResourceAllocator) (allocationId : AllocationId) :
    ResourceAllocator × Except AllocationError Unit :=
  match allocator.find? allocationId with
  | none => (allocator, .error (.notFound allocationId))
  | some removed =>
    let retain (ids : List AllocationId) := ids.filter (· ≠ allocationId)
    ({ allocator with
      allocations := allocator.allocations.eraseP fun a => a.allocationId = allocationId
      terminalIndex :=
        match removed.resources.opticalTerminal with
        | none => allocator.terminalIndex
        | some terminal => allocator.terminalIndex.modify terminal retain
      tenantIndex := allocator.tenantIndex.modify removed.tenantId retain }, .ok ())

def preempt (allocator : ResourceAllocator) (allocationId : AllocationId)
    (_reason : PreemptionReason) : ResourceAllocator × Except AllocationError Unit :=
  match allocator.find? allocationId with
  | none => (allocator, .error (.notFound allocationId))
  | some allocation =>
    if !allocation.canPreempt then (allocator, .error (.notPreemptible allocationId))
    else allocator.release allocationId

/-- An allocation fails and changes nothing, or it adds one live allocation of the claim. -/
theorem allocate_cases (allocator : ResourceAllocator) (claim : ResourceClaim) (taskId : TaskId)
    (tenantId : TenantId) (priority : Priority) (window : TimeWindow) (id : AllocationId) :
    ((allocator.exceedsQuota claim tenantId ∨
        (allocator.checkConflicts claim window tenantId).isSome) ∧
      ∃ e, allocator.allocate claim taskId tenantId priority window id = (allocator, .error e)) ∨
    (allocator.exceedsQuota claim tenantId = false ∧
      allocator.checkConflicts claim window tenantId = none ∧ ∃ allocator' allocation,
        allocator.allocate claim taskId tenantId priority window id = (allocator', .ok id) ∧
        allocator'.allocations = allocator.allocations ++ [allocation] ∧
        allocation.allocationId = id ∧ allocation.resources = claim ∧
        allocator'.tenantQuotas = allocator.tenantQuotas) := by
  unfold allocate
  by_cases hquota : allocator.exceedsQuota claim tenantId
  · rw [if_pos hquota]
    exact .inl ⟨.inl hquota, _, rfl⟩
  rw [if_neg hquota]
  cases hconflict : allocator.checkConflicts claim window tenantId with
  | some conflict => exact .inl ⟨.inr rfl, _, rfl⟩
  | none => exact .inr ⟨by simpa using hquota, rfl, _, _, rfl, rfl, rfl, rfl, rfl⟩

theorem release_of_find?_eq_none {allocator : ResourceAllocator} {id : AllocationId}
    (h : allocator.find? id = none) :
    allocator.release id = (allocator, .error (.notFound id)) := by
  simp [release, h]

/-- A preemption fails and changes nothing, or it removes the allocation of that id. -/
theorem preempt_cases (allocator : ResourceAllocator) (id : AllocationId)
    (reason : PreemptionReason) :
    ((∀ allocation, allocator.find? id = some allocation → allocation.canPreempt = false) ∧
      ∃ e, allocator.preempt id reason = (allocator, .error e)) ∨
    (∃ allocator' allocation, allocator.find? id = some allocation ∧
      allocation.canPreempt = true ∧ allocator.preempt id reason = (allocator', .ok ()) ∧
      allocator'.allocations = allocator.allocations.eraseP (fun a => a.allocationId = id) ∧
      allocator'.tenantQuotas = allocator.tenantQuotas) := by
  unfold preempt
  cases hfind : allocator.find? id with
  | none => exact .inl ⟨by simp, _, rfl⟩
  | some allocation =>
    by_cases hcan : allocation.canPreempt
    · simp only [hcan, release, hfind, Bool.not_true, Bool.false_eq_true, if_false]
      exact .inr ⟨_, allocation, rfl, hcan, rfl, rfl, rfl⟩
    · refine .inl ⟨?_, .notPreemptible id, by simp [hcan]⟩
      rintro found ⟨⟩
      simpa using hcan

end ResourceAllocator

end GroundCore.Oisl.Resource
