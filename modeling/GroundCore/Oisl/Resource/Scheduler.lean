import GroundCore.Oisl.Resource.Allocator

/-! The resources of one satellite: what its terminals, processor, storage and power budget can
take, and the ledger of the allocations charged to it, with any arithmetic for the watts and the
cores.

The scheduler over the satellites of a constellation.  Every call gets the order in which the
map of satellites is iterated, the readings of the clock, and a supply of random ids. -/

namespace GroundCore.Oisl.Resource

open Lib

structure TerminalCapability where
  terminalId : TerminalId
  maxDataRate : DataRate
  available : Bool

structure ComputeResources (F64 : Type := ℚ) where
  cpuCores : ℕ
  allocatedCpu : F64

def ComputeResources.default {F64 : Type} [OfNat F64 0] : ComputeResources F64 :=
  { cpuCores := 4, allocatedCpu := 0 }

structure StorageResources where
  totalBytes : ℕ
  usedBytes : ℕ
  availableBytes : ℕ

def StorageResources.default : StorageResources :=
  { totalBytes := 1000000000000, usedBytes := 0, availableBytes := 1000000000000 }

structure PowerBudget (F64 : Type := ℚ) where
  totalWatts : F64
  allocatedWatts : F64
  availableWatts : F64

def PowerBudget.default {F64 : Type} [OfNat F64 0] [OfNat F64 500] : PowerBudget F64 :=
  { totalWatts := 500, allocatedWatts := 0, availableWatts := 500 }

structure SatelliteNode (F64 : Type := ℚ) where
  satelliteId : SatelliteId
  opticalTerminals : HashMap TerminalId TerminalCapability
  compute : ComputeResources F64
  storage : StorageResources
  powerBudget : PowerBudget F64
  currentAllocations : List (ResourceAllocation F64)

/-- The cores that some cycles take for a second. -/
def coreSeconds {F64 : Type} [NatCast F64] [Div F64] [OfNat F64 1000000000] (cycles : ℕ) : F64 :=
  (cycles : F64) / 1000000000

namespace SatelliteNode

section

variable {F64 : Type}

def new [OfNat F64 0] [OfNat F64 500] (satelliteId : SatelliteId) : SatelliteNode F64 :=
  { satelliteId
    opticalTerminals := ∅
    compute := .default
    storage := .default
    powerBudget := .default
    currentAllocations := [] }

def addOpticalTerminal (node : SatelliteNode F64) (capability : TerminalCapability) :
    SatelliteNode F64 :=
  { node with
    opticalTerminals := node.opticalTerminals.insert capability.terminalId capability }

def canSatisfy [LT F64] [DecidableLT F64] (node : SatelliteNode F64) (claim : ResourceClaim F64) :
    Bool :=
  let terminal :=
    match claim.opticalTerminal with
    | none => true
    | some id => (node.opticalTerminals.get? id).any (·.available)
  let cycles :=
    match claim.computeCycles with
    | none => true
    | some cycles => cycles ≤ node.compute.cpuCores * 1000000000
  let bytes :=
    match claim.storageBytes with
    | none => true
    | some bytes => bytes ≤ node.storage.availableBytes
  !decide (node.powerBudget.availableWatts < claim.powerWatts) && terminal && cycles && bytes

variable [Add F64] [Sub F64] [Div F64] [NatCast F64] [OfNat F64 1000000000]

/-- Charges a claim to the satellite.  `now` has the two readings of the clock. -/
def allocate (node : SatelliteNode F64) (claim : ResourceClaim F64) (taskId : TaskId)
    (tenantId : TenantId) (allocationId : AllocationId) (now : DateTime × DateTime) :
    SatelliteNode F64 × ResourceAllocation F64 :=
  let allocation : ResourceAllocation F64 :=
    { allocationId
      taskId
      tenantId
      resources := claim
      validWindow := TimeWindow.new now.1 (now.2 + Duration.hours 1)
      priority := .medium
      preemptible := true }
  ({ node with
    powerBudget := { node.powerBudget with
      allocatedWatts := node.powerBudget.allocatedWatts + claim.powerWatts
      availableWatts := node.powerBudget.availableWatts - claim.powerWatts }
    compute := { node.compute with
      allocatedCpu :=
        match claim.computeCycles with
        | none => node.compute.allocatedCpu
        | some cycles => node.compute.allocatedCpu + coreSeconds cycles }
    storage := { node.storage with
      usedBytes := node.storage.usedBytes + claim.storageBytes.getD 0
      availableBytes := node.storage.availableBytes - claim.storageBytes.getD 0 }
    currentAllocations := node.currentAllocations ++ [allocation] }, allocation)

/-- Takes an allocation off the ledger; nothing happens for an id that is not on it. -/
def release (node : SatelliteNode F64) (allocationId : AllocationId) : SatelliteNode F64 :=
  match node.currentAllocations.find? fun a => a.allocationId = allocationId with
  | none => node
  | some allocation =>
    let claim := allocation.resources
    { node with
      currentAllocations := node.currentAllocations.eraseP fun a => a.allocationId = allocationId
      powerBudget := { node.powerBudget with
        allocatedWatts := node.powerBudget.allocatedWatts - claim.powerWatts
        availableWatts := node.powerBudget.availableWatts + claim.powerWatts }
      compute := { node.compute with
        allocatedCpu :=
          match claim.computeCycles with
          | none => node.compute.allocatedCpu
          | some cycles => node.compute.allocatedCpu - coreSeconds cycles }
      storage := { node.storage with
        usedBytes := node.storage.usedBytes - claim.storageBytes.getD 0
        availableBytes := node.storage.availableBytes + claim.storageBytes.getD 0 } }

def availableBandwidth (node : SatelliteNode F64) : DataRate :=
  let totalCapacity :=
    ((node.opticalTerminals.values.filter (·.available)).map (·.maxDataRate.bitsPerSecond)).sum
  let allocated :=
    ((node.currentAllocations.filterMap (·.resources.bandwidth)).map (·.bitsPerSecond)).sum
  ⟨totalCapacity - allocated⟩

end

end SatelliteNode

inductive ScheduleError
  | noAvailableNode
  | allocationFailed (message : String)
  | preemptionFailed (message : String)
  deriving DecidableEq

structure RebalanceReport where
  allocationsMoved : ℕ
  failedMigrations : ℕ
  timestamp : DateTime

structure DefaultSatelliteScheduler where
  satellites : HashMap SatelliteId SatelliteNode
  allocator : ResourceAllocator

abbrev SatelliteOrder := IterOrder (SatelliteId × SatelliteNode)

namespace DefaultSatelliteScheduler

def new : DefaultSatelliteScheduler := ⟨∅, .new⟩

def addSatellite (scheduler : DefaultSatelliteScheduler) (satellite : SatelliteNode) :
    DefaultSatelliteScheduler :=
  { scheduler with
    satellites := scheduler.satellites.insert satellite.satelliteId satellite }

/-- The earlier of two satellites unless the later one has more power available. -/
def better (best satellite : SatelliteNode) : SatelliteNode :=
  if best.powerBudget.availableWatts < satellite.powerBudget.availableWatts then satellite
  else best

def findBestSatellite (scheduler : DefaultSatelliteScheduler) (order : SatelliteOrder)
    (claim : ResourceClaim) : Option SatelliteNode :=
  match ((order.order scheduler.satellites.entries).map Prod.snd).filter (·.canSatisfy claim) with
  | [] => none
  | satellite :: satellites => some (satellites.foldl better satellite)

/-- The readings of the clock in `allocate`. -/
structure AllocateClock where
  windowStart : DateTime
  windowBase : DateTime
  satellite : DateTime × DateTime

/-- The ids drawn in `allocate`, in this order. -/
structure AllocateIds where
  task : TaskId
  allocation : AllocationId
  satellite : AllocationId

def allocate (scheduler : DefaultSatelliteScheduler) (order : SatelliteOrder)
    (clock : AllocateClock) (ids : AllocateIds) (claim : ResourceClaim) :
    DefaultSatelliteScheduler × Except ScheduleError AllocationId :=
  match scheduler.findBestSatellite order claim with
  | none => (scheduler, .error .noAvailableNode)
  | some satellite =>
    let tenantId := "default"
    let validWindow := TimeWindow.new clock.windowStart (clock.windowBase + claim.duration)
    match scheduler.allocator.allocate claim ids.task tenantId .medium validWindow
        ids.allocation with
    | (allocator, .error e) =>
      ({ scheduler with allocator }, .error (.allocationFailed e.toString))
    | (allocator, .ok allocationId) =>
      ({ satellites := scheduler.satellites.modify satellite.satelliteId fun sat =>
          (sat.allocate claim ids.task tenantId ids.satellite clock.satellite).1
         allocator }, .ok allocationId)

def preempt (scheduler : DefaultSatelliteScheduler) (allocationId : AllocationId)
    (reason : PreemptionReason) : DefaultSatelliteScheduler × Except ScheduleError Unit :=
  match scheduler.allocator.preempt allocationId reason with
  | (allocator, .error e) => ({ scheduler with allocator }, .error (.preemptionFailed e.toString))
  | (allocator, .ok ()) =>
    ({ satellites := scheduler.satellites.mapValues fun sat => sat.release allocationId
       allocator }, .ok ())

/-- Whether the utilization is above 0.8; watts over a budget of zero are an infinite one. -/
def overloaded (satellite : SatelliteNode) : Bool :=
  let budget := satellite.powerBudget
  if budget.totalWatts = 0 then 0 < budget.allocatedWatts
  else 0.8 < budget.allocatedWatts / budget.totalWatts

/-- The preemptible allocations of the overloaded satellites, with their satellites. -/
def allocationsToMove (scheduler : DefaultSatelliteScheduler) (order : SatelliteOrder) :
    List (SatelliteId × ResourceAllocation) :=
  (order.order scheduler.satellites.entries).flatMap fun (satId, satellite) =>
    if overloaded satellite then
      (satellite.currentAllocations.filter (·.canPreempt)).map fun a => (satId, a)
    else []

/-- One turn of the second loop of `rebalance`, with the ids of the new task and allocation.  The
result of the release is ignored, and the satellites are not touched. -/
def moveAllocation (order : SatelliteOrder) (ids : TaskId × AllocationId)
    (state : DefaultSatelliteScheduler × RebalanceReport)
    (move : SatelliteId × ResourceAllocation) : DefaultSatelliteScheduler × RebalanceReport :=
  let (scheduler, report) := state
  let (sourceSat, allocation) := move
  let claim := allocation.resources
  match scheduler.findBestSatellite order claim with
  | none => state
  | some target =>
    if target.satelliteId = sourceSat then state
    else
      let released := (scheduler.allocator.release allocation.allocationId).1
      match released.allocate claim ids.1 allocation.tenantId allocation.priority
          allocation.validWindow ids.2 with
      | (allocator, .ok _) =>
        ({ scheduler with allocator },
          { report with allocationsMoved := report.allocationsMoved + 1 })
      | (allocator, .error _) =>
        ({ scheduler with allocator },
          { report with failedMigrations := report.failedMigrations + 1 })

/-- The second loop of `rebalance`: turn `i` draws the ids `ids i`. -/
def moveAllocations (order : SatelliteOrder) :
    (ℕ → TaskId × AllocationId) → DefaultSatelliteScheduler × RebalanceReport →
    List (SatelliteId × ResourceAllocation) → DefaultSatelliteScheduler × RebalanceReport
  | _, state, [] => state
  | ids, state, move :: moves =>
    moveAllocations order (fun i => ids (i + 1)) (moveAllocation order (ids 0) state move) moves

def rebalance (scheduler : DefaultSatelliteScheduler) (order : SatelliteOrder)
    (ids : ℕ → TaskId × AllocationId) (now : DateTime) :
    DefaultSatelliteScheduler × RebalanceReport :=
  let report : RebalanceReport := { allocationsMoved := 0, failedMigrations := 0, timestamp := now }
  moveAllocations order ids (scheduler, report) (scheduler.allocationsToMove order)

end DefaultSatelliteScheduler

end GroundCore.Oisl.Resource
