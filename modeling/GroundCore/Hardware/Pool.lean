import GroundCore.Core.Types
import GroundCore.Lib.HashMap

/-! The hardware pool: devices, the devices' allocations to passes, and the table of allocation
records.  `HardwarePool.allocate` and `HardwarePool.release` are the two calls with no other call
in between; the steps in which they take their locks are in `GroundCore.Hardware.PoolSteps`. -/

namespace GroundCore.Hardware

open Lib

inductive HardwareType
  | sdr
  | rotator
  | antenna
  | amplifier
  deriving DecidableEq, Repr

inductive FrequencyBand
  | lBand
  | sBand
  | cBand
  | xBand
  | kuBand
  | kaBand
  deriving DecidableEq, Repr

structure HardwareCapabilities where
  frequencyRange : Nat × Nat
  maxSampleRate : Nat
  supportedBands : List FrequencyBand
  canTransmit : Bool
  deriving DecidableEq, Repr

def HardwareCapabilities.new (frequencyRange : Nat × Nat) (maxSampleRate : Nat) :
    HardwareCapabilities :=
  { frequencyRange, maxSampleRate, supportedBands := [], canTransmit := false }

structure HardwareDevice where
  deviceId : String
  hardwareType : HardwareType
  healthy : Bool
  currentAllocation : Option PassId
  capabilities : HardwareCapabilities
  lastHealthCheck : DateTime
  deriving DecidableEq, Repr

namespace HardwareDevice

def new (deviceId : String) (hardwareType : HardwareType) (capabilities : HardwareCapabilities)
    (now : DateTime) : HardwareDevice :=
  { deviceId, hardwareType, healthy := true, currentAllocation := none, capabilities,
    lastHealthCheck := now }

def isAvailable (device : HardwareDevice) : Bool :=
  device.healthy && device.currentAllocation.isNone

def allocate (device : HardwareDevice) (passId : PassId) : Result HardwareDevice :=
  if !device.isAvailable then
    .error (.hardware s!"Device {device.deviceId} not available")
  else
    .ok { device with currentAllocation := some passId }

def release (device : HardwareDevice) (passId : PassId) : Result HardwareDevice :=
  if device.currentAllocation ≠ some passId then
    .error (.hardware s!"Device {device.deviceId} not allocated to pass {passId}")
  else
    .ok { device with currentAllocation := none }

end HardwareDevice

structure HardwareAllocation where
  passId : PassId
  devices : List String
  allocatedAt : DateTime
  expectedDurationSec : Nat
  deriving DecidableEq, Repr

abbrev Devices := HashMap String HardwareDevice

abbrev Allocations := HashMap PassId HardwareAllocation

/-- The loop of `allocate` over the device ids: it stops at the first id that fails, and the
devices before it stay allocated. -/
def allocateEach (passId : PassId) : Devices → List String → Devices × Result Unit
  | devices, [] => (devices, .ok ())
  | devices, id :: ids =>
    match devices.get? id with
    | none => (devices, .error (.hardware s!"Device {id} not found"))
    | some device =>
      match device.allocate passId with
      | .error e => (devices, .error e)
      | .ok device => allocateEach passId (devices.insert id device) ids

/-- The loop of `release` over the devices of a record: errors are ignored. -/
def releaseEach (passId : PassId) (devices : Devices) (ids : List String) : Devices :=
  ids.foldl (fun devices id =>
    match devices.get? id with
    | none => devices
    | some device =>
      match device.release passId with
      | .error _ => devices
      | .ok device => devices.insert id device) devices

/-- The device map and the allocation map of a pool. -/
structure HardwarePool where
  devices : Devices
  allocations : Allocations

namespace HardwarePool

def new : HardwarePool := ⟨∅, ∅⟩

def addDevice (pool : HardwarePool) (device : HardwareDevice) : HardwarePool :=
  { pool with devices := pool.devices.insert device.deviceId device }

def allocate (pool : HardwarePool) (passId : PassId) (deviceIds : List String)
    (durationSec : Nat) (now : DateTime) : HardwarePool × Result HardwareAllocation :=
  match allocateEach passId pool.devices deviceIds with
  | (devices, .error e) => ({ pool with devices }, .error e)
  | (devices, .ok ()) =>
    let allocation : HardwareAllocation :=
      { passId, devices := deviceIds, allocatedAt := now, expectedDurationSec := durationSec }
    ({ devices, allocations := pool.allocations.insert passId allocation }, .ok allocation)

def release (pool : HardwarePool) (passId : PassId) : HardwarePool × Result Unit :=
  match pool.allocations.get? passId with
  | none => (pool, .error (.hardware s!"No allocation for pass {passId}"))
  | some allocation =>
    ({ devices := releaseEach passId pool.devices allocation.devices
       allocations := pool.allocations.erase passId }, .ok ())

end HardwarePool

end GroundCore.Hardware
