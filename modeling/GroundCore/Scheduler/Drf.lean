import GroundCore.Core.Types
import GroundCore.Lib.FiniteFloat
import GroundCore.Lib.HashMap
import GroundCore.Lib.Run

/-! Dominant Resource Fairness: the shares that a tenant holds of the resources, the one of these
that is dominant, and the tenant whose dominant share is least.  A hash map is read through an order
of its own, so between equal shares the order decides which resource is dominant. -/

namespace GroundCore.Scheduler

open Lib

inductive ResourceType
  | lBandSdrTime
  | sBandSdrTime
  | rotatorHours
  | egressBandwidth
  | totalPasses
  deriving DecidableEq, Repr

variable {F64 F32 : Type}

structure ResourceShare (F64 : Type) where
  resourceType : ResourceType
  totalCapacity : F64
  allocated : F64
  used : F64

structure ResourceAllocation (F64 : Type) where
  shares : HashMap ResourceType (ResourceShare F64)
  dominantResource : Option ResourceType

structure DominantResourceFairness (F64 : Type) where
  allocations : HashMap CustomerId (ResourceAllocation F64)
  totalCapacity : HashMap ResourceType F64

abbrev ShareOrder (F64 : Type) := IterOrder (ResourceType × ResourceShare F64)

/-- A change that a program makes to the state. -/
inductive DrfCall (F64 : Type)
  | setCapacity (resourceType : ResourceType) (capacity : F64)
  | addShare (tenantId : CustomerId) (share : ResourceShare F64) (ord : ShareOrder F64)
  | allocate (tenantId : CustomerId) (resourceType : ResourceType) (amount : F64)
      (ord : ShareOrder F64)
  | useResource (tenantId : CustomerId) (resourceType : ResourceType) (amount : F64)

section Operations

variable [FloatOps F64 F32]

open FloatOps

namespace ResourceShare

def new (resourceType : ResourceType) (totalCapacity : F64) : ResourceShare F64 :=
  { resourceType, totalCapacity, allocated := lit 0, used := lit 0 }

def share (s : ResourceShare F64) : F64 :=
  if lt (lit 0) s.totalCapacity then s.allocated / s.totalCapacity else lit 0

@[simp] theorem resourceType_new (r : ResourceType) (capacity : F64) :
    (new r capacity).resourceType = r := rfl

end ResourceShare

namespace ResourceAllocation

def new : ResourceAllocation F64 := { shares := ∅, dominantResource := none }

def recomputeDominant (a : ResourceAllocation F64) (ord : ShareOrder F64) :
    ResourceAllocation F64 :=
  { a with dominantResource :=
      (maxBy (fun e => e.2.share) (ord.order a.shares.entries)).map (·.1) }

def addShare (a : ResourceAllocation F64) (share : ResourceShare F64) (ord : ShareOrder F64) :
    ResourceAllocation F64 :=
  { a with shares := a.shares.insert share.resourceType share }.recomputeDominant ord

def getShare (a : ResourceAllocation F64) (resourceType : ResourceType) :
    Option (ResourceShare F64) := a.shares.get? resourceType

def allocate (a : ResourceAllocation F64) (resourceType : ResourceType) (amount : F64)
    (ord : ShareOrder F64) : ResourceAllocation F64 :=
  match a.shares.get? resourceType with
  | some share =>
    let share := { share with allocated := share.allocated + amount }
    { a with shares := a.shares.insert resourceType share }.recomputeDominant ord
  | none => a

def useResource (a : ResourceAllocation F64) (resourceType : ResourceType) (amount : F64) :
    ResourceAllocation F64 :=
  { a with shares := a.shares.modify resourceType fun share =>
      { share with used := share.used + amount } }

def dominantShare (a : ResourceAllocation F64) : F64 :=
  match a.dominantResource with
  | some dominant => ((a.shares.get? dominant).map (·.share)).getD (lit 0)
  | none => lit 0

theorem get?_addShare (a : ResourceAllocation F64) (share : ResourceShare F64)
    (ord : ShareOrder F64) (r : ResourceType) : (a.addShare share ord).shares.get? r =
      if r = share.resourceType then some share else a.shares.get? r :=
  HashMap.get?_insert _ _ _ _

theorem get?_allocate (a : ResourceAllocation F64) (r r' : ResourceType) (amount : F64)
    (ord : ShareOrder F64) : (a.allocate r amount ord).shares.get? r' =
      if r' = r then (a.shares.get? r').map fun s => { s with allocated := s.allocated + amount }
      else a.shares.get? r' := by
  unfold allocate
  by_cases heq : r' = r
  · subst heq
    rw [if_pos rfl]
    cases hget : a.shares.get? r' with
    | none => exact hget
    | some s => exact (HashMap.get?_insert _ _ _ _).trans (if_pos rfl)
  · rw [if_neg heq]
    cases a.shares.get? r with
    | none => rfl
    | some s => exact (HashMap.get?_insert _ _ _ _).trans (if_neg heq)

theorem get?_useResource (a : ResourceAllocation F64) (r r' : ResourceType) (amount : F64) :
    (a.useResource r amount).shares.get? r' =
      if r' = r then (a.shares.get? r').map fun s => { s with used := s.used + amount }
      else a.shares.get? r' :=
  HashMap.get?_modify _ _ _ _

end ResourceAllocation

structure FairnessStats (F64 : Type) where
  numTenants : ℕ
  maxDominantShare : F64
  minDominantShare : F64
  avgDominantShare : F64
  fairnessGap : F64

namespace DominantResourceFairness

def new : DominantResourceFairness F64 := { allocations := ∅, totalCapacity := ∅ }

def setCapacity (d : DominantResourceFairness F64) (resourceType : ResourceType) (capacity : F64) :
    DominantResourceFairness F64 :=
  { d with totalCapacity := d.totalCapacity.insert resourceType capacity }

/-- The state after `f` is applied to the allocation of a tenant, which is created when the tenant
has none. -/
def getOrCreateAllocation (d : DominantResourceFairness F64) (tenantId : CustomerId)
    (f : ResourceAllocation F64 → ResourceAllocation F64) : DominantResourceFairness F64 :=
  { d with allocations :=
      d.allocations.insert tenantId (f ((d.allocations.get? tenantId).getD .new)) }

def getAllocation (d : DominantResourceFairness F64) (tenantId : CustomerId) :
    Option (ResourceAllocation F64) := d.allocations.get? tenantId

def schedulingPriority (d : DominantResourceFairness F64) (tenantId : CustomerId) : F64 :=
  match d.getAllocation tenantId with
  | some allocation => allocation.dominantShare
  | none => lit 0

def selectNextTenant (d : DominantResourceFairness F64) (candidates : List CustomerId) :
    Option CustomerId := minBy d.schedulingPriority candidates

def canAllocate (d : DominantResourceFairness F64) (tenantId : CustomerId)
    (resourceType : ResourceType) (amount fairnessThreshold : F64) : Bool :=
  match d.getAllocation tenantId with
  | some allocation =>
    let totalCap := (d.totalCapacity.get? resourceType).getD (lit 0)
    if lt (lit 0) totalCap then
      let newAllocated :=
        ((allocation.getShare resourceType).map fun s => s.allocated + amount).getD amount
      le (newAllocated / totalCap) fairnessThreshold
    else false
  | none => true

def fairnessStats (d : DominantResourceFairness F64) (ord : IterOrder (ResourceAllocation F64)) :
    FairnessStats F64 :=
  let numTenants := d.allocations.values.length
  let dominantShares := (ord.order d.allocations.values).map (·.dominantShare)
  let maxShare := dominantShares.foldl fmax (lit 0)
  let minShare := dominantShares.foldl fmin (lit 1)
  { numTenants
    maxDominantShare := maxShare
    minDominantShare := minShare
    avgDominantShare := if numTenants > 0 then sum dominantShares / lit numTenants else lit 0
    fairnessGap := maxShare - minShare }

end DominantResourceFairness

namespace DominantResourceFairness

def step (d : DominantResourceFairness F64) : DrfCall F64 → DominantResourceFairness F64
  | .setCapacity resourceType capacity => d.setCapacity resourceType capacity
  | .addShare tenantId share ord => d.getOrCreateAllocation tenantId (·.addShare share ord)
  | .allocate tenantId resourceType amount ord =>
    d.getOrCreateAllocation tenantId (·.allocate resourceType amount ord)
  | .useResource tenantId resourceType amount =>
    d.getOrCreateAllocation tenantId (·.useResource resourceType amount)

theorem getAllocation_getOrCreateAllocation (d : DominantResourceFairness F64)
    (tenantId other : CustomerId) (g : ResourceAllocation F64 → ResourceAllocation F64) :
    (d.getOrCreateAllocation tenantId g).getAllocation other =
      if other = tenantId then some (g ((d.getAllocation tenantId).getD .new))
      else d.getAllocation other :=
  HashMap.get?_insert _ _ _ _

theorem schedulingPriority_getOrCreateAllocation (d : DominantResourceFairness F64)
    (tenantId other : CustomerId) (g : ResourceAllocation F64 → ResourceAllocation F64) :
    (d.getOrCreateAllocation tenantId g).schedulingPriority other =
      if other = tenantId then (g ((d.getAllocation tenantId).getD .new)).dominantShare
      else d.schedulingPriority other := by
  unfold schedulingPriority
  rw [getAllocation_getOrCreateAllocation]
  by_cases heq : other = tenantId
  · rw [if_pos heq, if_pos heq]
  · rw [if_neg heq, if_neg heq]

/-- An allocation that has no share of the resource stays as it was. -/
theorem dominantShare_allocate_of_not_shared {d : DominantResourceFairness F64}
    {tenantId : CustomerId} {r : ResourceType} {amount : F64} {ord : ShareOrder F64}
    (h : ¬ ∃ a s, d.getAllocation tenantId = some a ∧ a.shares.get? r = some s) :
    (((d.getAllocation tenantId).getD .new).allocate r amount ord).dominantShare =
      d.schedulingPriority tenantId := by
  rw [schedulingPriority]
  cases hget : d.getAllocation tenantId with
  | none => rfl
  | some a =>
    have hnone : a.shares.get? r = none := by
      cases hshare : a.shares.get? r with
      | none => rfl
      | some s => exact absurd ⟨a, s, hget, hshare⟩ h
    simp only [Option.getD_some, ResourceAllocation.allocate, hnone]

end DominantResourceFairness

end Operations

end GroundCore.Scheduler
