import GroundCore.Hardware.Pool
import GroundCore.Lib.Run

/-! The hardware pool under concurrent callers.  `allocate` holds the write lock on the devices
from its loop to its return, and takes the lock on the allocations inside; `release` reads its
record under the lock on the allocations alone, and then takes the two locks as `allocate` does.
A state records what the holder of the devices' lock has left to do, and which releases have read
their record.  The invariant is that the devices and the records agree once the holder is done.

What a failed `allocate` leaves behind.  The devices before the one at which it stops stay
allocated to the pass. -/

namespace GroundCore.Hardware

open Lib

/-- What the holder of the write lock on the devices does to the allocations before it returns. -/
inductive Pending
  | insert (allocation : HardwareAllocation)
  | remove (passId : PassId)
  deriving DecidableEq, Repr

def Pending.apply : Pending → Allocations → Allocations
  | .insert allocation, allocations => allocations.insert allocation.passId allocation
  | .remove passId, allocations => allocations.erase passId

/-- A pool with its callers: `holder` has the write lock on the devices, and each of `readers` is
a release that has read its record and has yet to take that lock. -/
structure PoolState where
  pool : HardwarePool
  holder : Option Pending
  readers : List (PassId × HardwareAllocation)

def PoolState.new : PoolState := ⟨HardwarePool.new, none, []⟩

/-- The steps between which another caller can run: `allocate` and `releaseDevices` go up to the
lock on the allocations (or to a return with an error), and with `finish` the holder takes that
lock, updates the allocations and returns. -/
inductive Event
  | addDevice (device : HardwareDevice)
  | allocate (passId : PassId) (deviceIds : List String) (durationSec : Nat) (now : DateTime)
  | readAllocation (passId : PassId)
  | releaseDevices (passId : PassId) (allocation : HardwareAllocation)
  | finish
  deriving DecidableEq, Repr

/-- One step.  A caller that needs the devices' lock while another holds it waits. -/
def step (s : PoolState) : Event → PoolState
  | .addDevice device =>
    match s.holder with
    | some _ => s
    | none => { s with pool := s.pool.addDevice device }
  | .allocate passId deviceIds durationSec now =>
    match s.holder with
    | some _ => s
    | none =>
      match allocateEach passId s.pool.devices deviceIds with
      | (devices, .error _) => { s with pool := { s.pool with devices } }
      | (devices, .ok ()) =>
        { s with
          pool := { s.pool with devices }
          holder := some (.insert { passId, devices := deviceIds, allocatedAt := now,
                                    expectedDurationSec := durationSec }) }
  | .readAllocation passId =>
    match s.pool.allocations.get? passId with
    | none => s
    | some allocation => { s with readers := (passId, allocation) :: s.readers }
  | .releaseDevices passId allocation =>
    if s.holder = none ∧ (passId, allocation) ∈ s.readers then
      { pool := { s.pool with devices := releaseEach passId s.pool.devices allocation.devices }
        holder := some (.remove passId)
        readers := s.readers.erase (passId, allocation) }
    else s
  | .finish =>
    match s.holder with
    | none => s
    | some pending =>
      { s with
        pool := { s.pool with allocations := pending.apply s.pool.allocations }
        holder := none }

/-- `allocate` either fails, with the marks of its loop left in place, or keeps the lock. -/
theorem step_allocate (pool : HardwarePool) (readers : List (PassId × HardwareAllocation))
    (passId : PassId) (deviceIds : List String) (durationSec : Nat) (now : DateTime) :
    (∃ devices err, allocateEach passId pool.devices deviceIds = (devices, .error err) ∧
      step ⟨pool, none, readers⟩ (.allocate passId deviceIds durationSec now) =
        ⟨{ pool with devices }, none, readers⟩) ∨
    (∃ devices, allocateEach passId pool.devices deviceIds = (devices, .ok ()) ∧
      step ⟨pool, none, readers⟩ (.allocate passId deviceIds durationSec now) =
        ⟨{ pool with devices }, some (.insert ⟨passId, deviceIds, now, durationSec⟩), readers⟩) := by
  rcases h : allocateEach passId pool.devices deviceIds with ⟨devices, err | _⟩
  · exact .inl ⟨devices, err, rfl, by simp only [step, h]⟩
  · exact .inr ⟨devices, rfl, by simp only [step, h]⟩

/-- The steps of `allocate`, with no other step between them, are the call. -/
theorem run_allocate (pool : HardwarePool) (readers : List (PassId × HardwareAllocation))
    (passId : PassId) (deviceIds : List String) (durationSec : Nat) (now : DateTime) :
    run step ⟨pool, none, readers⟩ [.allocate passId deviceIds durationSec now, .finish] =
      ⟨(pool.allocate passId deviceIds durationSec now).1, none, readers⟩ := by
  simp only [run_cons, run_nil, step, HardwarePool.allocate]
  rcases allocateEach passId pool.devices deviceIds with ⟨devices, _ | _⟩ <;> rfl

/-- The steps of `release`, with no other step between them, are the call. -/
theorem run_release (pool : HardwarePool) (readers : List (PassId × HardwareAllocation))
    {passId : PassId} {allocation : HardwareAllocation}
    (h : pool.allocations.get? passId = some allocation) :
    run step ⟨pool, none, readers⟩
        [.readAllocation passId, .releaseDevices passId allocation, .finish] =
      ⟨(pool.release passId).1, none, readers⟩ := by
  simp [step, HardwarePool.release, h, Pending.apply]

/-! ### Devices and records -/

/-- The pass that the device with id `id` is allocated to. -/
def allocatedTo (devices : Devices) (id : String) : Option PassId :=
  (devices.get? id).bind HardwareDevice.currentAllocation

/-- The devices that the record of `passId` lists. -/
def listed (allocations : Allocations) (passId : PassId) : List String :=
  match allocations.get? passId with
  | none => []
  | some allocation => allocation.devices

def available (devices : Devices) (id : String) : Bool :=
  (devices.get? id).any HardwareDevice.isAvailable

/-- A device is allocated to a pass exactly when the record of the pass lists it. -/
def Agree (devices : Devices) (allocations : Allocations) : Prop :=
  ∀ id passId, allocatedTo devices id = some passId ↔ id ∈ listed allocations passId

theorem mem_listed {allocations : Allocations} {passId : PassId} {id : String} :
    id ∈ listed allocations passId ↔
      ∃ allocation, allocations.get? passId = some allocation ∧ id ∈ allocation.devices := by
  unfold listed
  cases allocations.get? passId <;> simp

theorem allocatedTo_insert (devices : Devices) (key : String) (device : HardwareDevice)
    (id : String) : allocatedTo (devices.insert key device) id =
      if id = key then device.currentAllocation else allocatedTo devices id := by
  simp only [allocatedTo, HashMap.get?_insert]
  split <;> rfl

theorem listed_insert (allocations : Allocations) (key : PassId) (allocation : HardwareAllocation)
    (passId : PassId) : listed (allocations.insert key allocation) passId =
      if passId = key then allocation.devices else listed allocations passId := by
  by_cases h : passId = key
  · simp [listed, h]
  · simp [listed, h]

theorem listed_erase (allocations : Allocations) (key passId : PassId) :
    listed (allocations.erase key) passId =
      if passId = key then [] else listed allocations passId := by
  by_cases h : passId = key
  · simp [listed, h]
  · simp [listed, h]

theorem allocatedTo_of_available {devices : Devices} {id : String}
    (h : available devices id = true) : allocatedTo devices id = none := by
  unfold available at h
  unfold allocatedTo
  cases hd : devices.get? id with
  | none => rfl
  | some device =>
    simp only [hd, Option.any_some, HardwareDevice.isAvailable, Bool.and_eq_true,
      Option.isNone_iff_eq_none] at h
    exact h.2

/-! ### The loops -/

/-- The loop of `allocate` at an available device marks it and goes on. -/
theorem allocateEach_cons (passId : PassId) {devices : Devices} {id : String}
    (h : available devices id = true) (ids : List String) :
    ∃ device : HardwareDevice, device.currentAllocation = some passId ∧
      allocateEach passId devices (id :: ids) =
        allocateEach passId (devices.insert id device) ids := by
  unfold available at h
  cases hd : devices.get? id with
  | none => simp [hd] at h
  | some device =>
    simp only [hd, Option.any_some] at h
    exact ⟨{ device with currentAllocation := some passId }, rfl,
      by simp [allocateEach, hd, HardwareDevice.allocate, h]⟩

/-- The loop of `allocate` stops at a device that is missing or not available. -/
theorem allocateEach_stop (passId : PassId) {devices : Devices} {id : String}
    (h : available devices id = false) (ids : List String) :
    ∃ e, allocateEach passId devices (id :: ids) = (devices, .error e) := by
  unfold available at h
  cases hd : devices.get? id with
  | none => exact ⟨_, by simp [allocateEach, hd]; rfl⟩
  | some device =>
    simp only [hd, Option.any_some] at h
    exact ⟨_, by simp [allocateEach, hd, HardwareDevice.allocate, h]; rfl⟩

theorem available_insert_ne {devices : Devices} {key id : String} (device : HardwareDevice)
    (h : id ≠ key) : available (devices.insert key device) id = available devices id := by
  simp [available, h]

theorem available_insert_allocated {devices : Devices} {key : String} {device : HardwareDevice}
    {passId : PassId} (h : device.currentAllocation = some passId) :
    available (devices.insert key device) key = false := by
  simp [available, HardwareDevice.isAvailable, h]

/-- The ids that `allocate` can mark: distinct, and each that of an available device. -/
def Allocatable (devices : Devices) (ids : List String) : Prop :=
  ids.Nodup ∧ ∀ id ∈ ids, available devices id = true

instance (devices : Devices) (ids : List String) : Decidable (Allocatable devices ids) :=
  inferInstanceAs (Decidable (_ ∧ _))

/-- The loop of `allocate` succeeds exactly on allocatable ids, and then marks them all. -/
theorem allocateEach_spec (passId : PassId) (devices : Devices) (ids : List String) :
    ((allocateEach passId devices ids).2 = .ok () ↔ Allocatable devices ids) ∧
    ((allocateEach passId devices ids).2 = .ok () →
      ∀ id, allocatedTo (allocateEach passId devices ids).1 id =
        if id ∈ ids then some passId else allocatedTo devices id) := by
  induction ids generalizing devices with
  | nil => simp [allocateEach, Allocatable]
  | cons id ids ih =>
    cases ha : available devices id with
    | false =>
      obtain ⟨e, he⟩ := allocateEach_stop passId ha ids
      simp [he, Allocatable, ha]
    | true =>
      obtain ⟨device, hdev, hrun⟩ := allocateEach_cons passId ha ids
      obtain ⟨hok, hmarked⟩ := ih (devices.insert id device)
      rw [hrun]
      refine ⟨hok.trans ?_, fun h other => ?_⟩
      · -- after the first mark, the rest is allocatable exactly when `id` is not in it
        constructor
        · rintro ⟨hnodup, hall⟩
          have hid : id ∉ ids := fun hmem => by
            have := hall id hmem
            rw [available_insert_allocated hdev] at this
            contradiction
          refine ⟨List.nodup_cons.mpr ⟨hid, hnodup⟩, fun other hother => ?_⟩
          rcases List.mem_cons.mp hother with rfl | hmem
          · exact ha
          · rw [← available_insert_ne device (ne_of_mem_of_not_mem hmem hid)]
            exact hall other hmem
        · rintro ⟨hnodup, hall⟩
          obtain ⟨hid, hnodup⟩ := List.nodup_cons.mp hnodup
          refine ⟨hnodup, fun other hmem => ?_⟩
          rw [available_insert_ne device (ne_of_mem_of_not_mem hmem hid)]
          exact hall other (List.mem_cons_of_mem _ hmem)
      · rw [hmarked h other, allocatedTo_insert]
        by_cases hmem : other ∈ ids
        · simp [hmem]
        · by_cases heq : other = id
          · simp [heq, hdev]
          · simp [hmem, heq]

/-- Once the loop of `allocate` has marked a device, the device stays marked. -/
theorem allocatedTo_allocateEach {passId : PassId} {devices : Devices} {id : String}
    (h : allocatedTo devices id = some passId) (ids : List String) :
    allocatedTo (allocateEach passId devices ids).1 id = some passId := by
  induction ids generalizing devices with
  | nil => exact h
  | cons head ids ih =>
    cases ha : available devices head with
    | false =>
      obtain ⟨e, he⟩ := allocateEach_stop passId ha ids
      simp [he, h]
    | true =>
      obtain ⟨device, hdev, hrun⟩ := allocateEach_cons passId ha ids
      rw [hrun]
      refine ih ?_
      rw [allocatedTo_insert]
      split
      · exact hdev
      · exact h

/-- The loop of `release` clears the listed devices that are allocated to the pass. -/
theorem allocatedTo_releaseEach (passId : PassId) (devices : Devices) (ids : List String)
    (id : String) : allocatedTo (releaseEach passId devices ids) id =
      if id ∈ ids ∧ allocatedTo devices id = some passId then none
      else allocatedTo devices id := by
  induction ids generalizing devices with
  | nil => simp [releaseEach]
  | cons head ids ih =>
    simp only [releaseEach, List.foldl_cons] at ih ⊢
    rw [ih]
    cases hd : devices.get? head with
    | none =>
      have hnone : allocatedTo devices head = none := by simp [allocatedTo, hd]
      by_cases heq : id = head
      · simp [heq, hnone]
      · simp [heq]
    | some device =>
      have hhead : allocatedTo devices head = device.currentAllocation := by
        simp [allocatedTo, hd]
      by_cases hcur : device.currentAllocation = some passId
      · by_cases heq : id = head
        · simp [HardwareDevice.release, hcur, allocatedTo_insert, heq, hhead]
        · simp [HardwareDevice.release, hcur, allocatedTo_insert, heq]
      · by_cases heq : id = head
        · simp [HardwareDevice.release, hcur, heq, hhead]
        · simp [HardwareDevice.release, hcur, heq]

variable {devices : Devices} {pool : HardwarePool} {passId : PassId}

/-- The loop that fails has marked the devices before the one at which it stops, which is one of
them or was not available. -/
theorem allocateEach_error {ids : List String} {e : GroundStationError}
    (h : (allocateEach passId devices ids).2 = .error e) :
    ∃ front id back, ids = front ++ id :: back ∧ Allocatable devices front ∧
      (id ∈ front ∨ available devices id = false) ∧
      ∀ other, allocatedTo (allocateEach passId devices ids).1 other =
        if other ∈ front then some passId else allocatedTo devices other := by
  induction ids generalizing devices with
  | nil => simp [allocateEach] at h
  | cons id ids ih =>
    cases ha : available devices id with
    | false =>
      obtain ⟨_, hstop⟩ := allocateEach_stop passId ha ids
      refine ⟨[], id, ids, rfl, ⟨List.nodup_nil, by simp⟩, .inr ha, fun other => ?_⟩
      rw [hstop, if_neg List.not_mem_nil]
    | true =>
      obtain ⟨device, hdev, hrun⟩ := allocateEach_cons passId ha ids
      rw [hrun] at h ⊢
      obtain ⟨front, stop, back, rfl, ⟨hnodup, hall⟩, hstop, hmarked⟩ := ih h
      have hid : id ∉ front := fun hmem => by
        have := hall id hmem
        rw [available_insert_allocated hdev] at this
        contradiction
      refine ⟨id :: front, stop, back, rfl, ⟨List.nodup_cons.mpr ⟨hid, hnodup⟩, ?_⟩, ?_, ?_⟩
      · intro other hmem
        rcases List.mem_cons.mp hmem with rfl | hmem
        · exact ha
        · rw [← available_insert_ne device (ne_of_mem_of_not_mem hmem hid)]
          exact hall other hmem
      · by_cases heq : stop = id
        · exact .inl (heq ▸ List.mem_cons_self)
        · rw [available_insert_ne device heq] at hstop
          exact hstop.imp_left (List.mem_cons_of_mem id)
      · intro other
        rw [hmarked other, allocatedTo_insert, hdev]
        by_cases hmem : other ∈ front
        · simp [hmem]
        · by_cases heq : other = id
          · simp [heq]
          · simp [hmem, heq]

/-- If the call fails, the allocations of the devices and the table are those before the call. -/
def AllocatesAtomically (pool : HardwarePool) (passId : PassId) (deviceIds : List String)
    (durationSec : ℕ) (now : DateTime) : Prop :=
  ∀ e, (pool.allocate passId deviceIds durationSec now).2 = .error e →
    (∀ id, ((pool.allocate passId deviceIds durationSec now).1.devices.get? id).map
        (·.currentAllocation) = (pool.devices.get? id).map (·.currentAllocation)) ∧
      (pool.allocate passId deviceIds durationSec now).1.allocations = pool.allocations

theorem allocatedTo_eq_of_map_eq {after : Devices} {id : String}
    (h : (after.get? id).map (·.currentAllocation) =
      (devices.get? id).map (·.currentAllocation)) :
    allocatedTo after id = allocatedTo devices id := by
  have hjoin : ∀ devices : Devices,
      allocatedTo devices id = ((devices.get? id).map (·.currentAllocation)).join := by
    intro devices
    rw [allocatedTo]
    cases devices.get? id <;> rfl
  rw [hjoin, hjoin, h]

/-- The call changes nothing when it fails exactly when it succeeds, or fails at the first
device. -/
theorem allocatesAtomically_iff (pool : HardwarePool) (passId : PassId) (deviceIds : List String)
    (durationSec : ℕ) (now : DateTime) :
    AllocatesAtomically pool passId deviceIds durationSec now ↔
      Allocatable pool.devices deviceIds ∨
        ∀ id ∈ deviceIds.head?, available pool.devices id = false := by
  have hok := (allocateEach_spec passId pool.devices deviceIds).1
  unfold AllocatesAtomically HardwarePool.allocate
  rcases hrun : allocateEach passId pool.devices deviceIds with ⟨devices, err | _⟩
  · simp only [hrun, reduceCtorEq, false_iff] at hok
    simp only [hok, false_or, Except.error.injEq, forall_eq', and_true]
    obtain ⟨front, id, back, rfl, hfront, hstop, hmarked⟩ :=
      allocateEach_error (e := err) (by rw [hrun])
    rw [hrun] at hmarked
    cases front with
    | nil =>
      have ha := hstop.resolve_left List.not_mem_nil
      obtain ⟨_, hfirst⟩ := allocateEach_stop passId ha back
      obtain ⟨rfl, -⟩ := Prod.ext_iff.mp (hrun.symm.trans hfirst)
      simpa using ha
    | cons first front =>
      have ha := hfront.2 first List.mem_cons_self
      refine iff_of_false (fun hsame => ?_) (by simpa using ha)
      have hfirst := allocatedTo_eq_of_map_eq (hsame first)
      rw [hmarked, if_pos List.mem_cons_self, allocatedTo_of_available ha] at hfirst
      contradiction
  · have hids : Allocatable pool.devices deviceIds := hok.mp (by rw [hrun])
    refine iff_of_true (fun e he => ?_) (.inl hids)
    contradiction

/-- An `allocate` whose second device is missing leaves its first device allocated. -/
theorem not_allocatesAtomically : ¬ AllocatesAtomically
    (HardwarePool.new.addDevice (.new "sdr-1" .sdr (.new (2000000000, 2300000000) 10000000) 0))
    "pass-1" ["sdr-1", "sdr-2"] 600 0 := by
  intro hatomic
  have hsame := (hatomic _ rfl).1 "sdr-1"
  revert hsame
  decide

end GroundCore.Hardware
