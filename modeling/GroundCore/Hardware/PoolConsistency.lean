import GroundCore.Hardware.PoolSteps

/-! When the devices and the records of a hardware pool correspond.  Four steps can break the
correspondence: an `allocate` that fails after it has marked a device, an `allocate` for a pass
whose record still lists devices, a `release` whose record has been replaced since it was read,
and an `add_device` that changes the allocation of its id.  A run without such steps keeps it. -/

namespace GroundCore.Hardware

open Lib

/-- A device is allocated to a pass if and only if the record stored for the pass lists its id,
and no id is in the records of two passes. -/
structure Consistent (pool : HardwarePool) : Prop where
  iff_listed : ∀ id device passId, pool.devices.get? id = some device →
    (device.currentAllocation = some passId ↔
      ∃ allocation, pool.allocations.get? passId = some allocation ∧ id ∈ allocation.devices)
  disjoint : ∀ passId₁ passId₂ allocation₁ allocation₂ id,
    pool.allocations.get? passId₁ = some allocation₁ →
    pool.allocations.get? passId₂ = some allocation₂ →
    id ∈ allocation₁.devices → id ∈ allocation₂.devices → passId₁ = passId₂

theorem Agree.consistent {pool : HardwarePool} (h : Agree pool.devices pool.allocations) :
    Consistent pool := by
  constructor
  · intro id device passId hdev
    have hid := h id passId
    simpa [allocatedTo, hdev, mem_listed] using hid
  · intro passId₁ passId₂ allocation₁ allocation₂ id h₁ h₂ hmem₁ hmem₂
    have hid₁ := (h id passId₁).mpr (mem_listed.mpr ⟨_, h₁, hmem₁⟩)
    have hid₂ := (h id passId₂).mpr (mem_listed.mpr ⟨_, h₂, hmem₂⟩)
    rw [hid₁] at hid₂
    exact Option.some.inj hid₂

/-- The allocations once the holder of the devices' lock has finished. -/
def PoolState.settled (s : PoolState) : Allocations :=
  match s.holder with
  | none => s.pool.allocations
  | some pending => pending.apply s.pool.allocations

def PoolState.Settles (s : PoolState) : Prop := Agree s.pool.devices s.settled

@[simp] theorem settles_free (pool : HardwarePool) (readers) :
    PoolState.Settles ⟨pool, none, readers⟩ ↔ Agree pool.devices pool.allocations := Iff.rfl

@[simp] theorem settles_held (pool : HardwarePool) (pending : Pending) (readers) :
    PoolState.Settles ⟨pool, some pending, readers⟩ ↔
      Agree pool.devices (pending.apply pool.allocations) := Iff.rfl

/-- The steps that keep the correspondence.  A step that waits for the devices' lock does, and so
do `readAllocation` and `finish`. -/
def Keeps (s : PoolState) : Event → Prop
  | .addDevice device => s.holder = none →
    device.currentAllocation = allocatedTo s.pool.devices device.deviceId
  | .allocate passId deviceIds _ _ => s.holder = none →
    (Allocatable s.pool.devices deviceIds ∧ listed s.pool.allocations passId = []) ∨
    deviceIds.head?.any (fun id => !available s.pool.devices id) = true
  | .releaseDevices passId allocation => s.holder = none → (passId, allocation) ∈ s.readers →
    ∀ id ∈ listed s.pool.allocations passId, id ∈ allocation.devices
  | .readAllocation _ | .finish => True

instance (s : PoolState) : (e : Event) → Decidable (Keeps s e)
  | .addDevice _ => inferInstanceAs (Decidable (_ → _))
  | .allocate _ _ _ _ => inferInstanceAs (Decidable (_ → _ ∨ _))
  | .releaseDevices _ _ => inferInstanceAs (Decidable (_ → _ → ∀ _ ∈ _, _))
  | .readAllocation _ | .finish => isTrue trivial

/-! ### One step -/

section Step

variable {devices : Devices} {allocations : Allocations}

theorem Agree.addDevice_iff (h : Agree devices allocations) (device : HardwareDevice) :
    Agree (devices.insert device.deviceId device) allocations ↔
      device.currentAllocation = allocatedTo devices device.deviceId := by
  constructor
  · intro hafter
    apply Option.ext
    intro passId
    have hid := hafter device.deviceId passId
    rw [allocatedTo_insert, if_pos rfl] at hid
    exact hid.trans (h _ _).symm
  · intro hdev id passId
    rw [allocatedTo_insert]
    split
    · next heq => rw [hdev, heq]; exact h _ _
    · exact h id passId

/-- An `allocate` that succeeds keeps the correspondence exactly when the pass had no devices. -/
theorem Agree.allocate_iff (h : Agree devices allocations) (allocation : HardwareAllocation)
    (hids : Allocatable devices allocation.devices) :
    Agree (allocateEach allocation.passId devices allocation.devices).1
      (allocations.insert allocation.passId allocation) ↔
        listed allocations allocation.passId = [] := by
  obtain ⟨hok, hmarked⟩ := allocateEach_spec allocation.passId devices allocation.devices
  have hmarked := hmarked (hok.mpr hids)
  constructor
  · intro hafter
    rw [List.eq_nil_iff_forall_not_mem]
    intro id hmem
    have hcur := (h id _).mpr hmem
    have hid := hafter id allocation.passId
    rw [hmarked, listed_insert, if_pos rfl] at hid
    by_cases hnew : id ∈ allocation.devices
    · rw [allocatedTo_of_available (hids.2 id hnew)] at hcur
      contradiction
    · rw [if_neg hnew] at hid
      exact hnew (hid.mp hcur)
  · intro hlist id passId
    rw [hmarked id, listed_insert]
    have hid := h id passId
    by_cases hmem : id ∈ allocation.devices <;> by_cases hpass : passId = allocation.passId
    · simp [hmem, hpass]
    · -- a device that was available is in no other record
      rw [allocatedTo_of_available (hids.2 id hmem)] at hid
      simp only [reduceCtorEq, false_iff] at hid
      simp [hmem, hpass, Ne.symm hpass, hid]
    · subst hpass
      rw [hlist] at hid
      simpa [hmem] using hid
    · simpa [hmem, hpass] using hid

/-- An `allocate` that has marked its first device and then fails breaks the correspondence. -/
theorem Agree.not_allocate (h : Agree devices allocations) (passId : PassId) {id : String}
    (ha : available devices id = true) (ids : List String) :
    ¬ Agree (allocateEach passId devices (id :: ids)).1 allocations := by
  intro hafter
  obtain ⟨device, hdev, hrun⟩ := allocateEach_cons passId ha ids
  have hcur : allocatedTo (allocateEach passId devices (id :: ids)).1 id = some passId := by
    rw [hrun]
    exact allocatedTo_allocateEach (by rw [allocatedTo_insert, if_pos rfl, hdev]) ids
  have hmem := (hafter id passId).mp hcur
  rw [← h id passId, allocatedTo_of_available ha] at hmem
  contradiction

theorem Agree.release_iff (h : Agree devices allocations) (passId : PassId) (ids : List String) :
    Agree (releaseEach passId devices ids) (allocations.erase passId) ↔
      ∀ id ∈ listed allocations passId, id ∈ ids := by
  constructor
  · intro hafter id hmem
    have hcur := (h id passId).mpr hmem
    have hid := hafter id passId
    rw [allocatedTo_releaseEach, listed_erase, if_pos rfl] at hid
    by_contra hnot
    rw [if_neg (fun hand => hnot hand.1)] at hid
    exact List.not_mem_nil (hid.mp hcur)
  · intro hsub id other
    rw [allocatedTo_releaseEach, listed_erase]
    have hid := h id other
    by_cases hother : other = passId
    · subst hother
      by_cases hcur : allocatedTo devices id = some other
      · simp [hcur, hsub id (hid.mp hcur)]
      · simp [hcur]
    · by_cases hcur : allocatedTo devices id = some passId
      · have : id ∉ listed allocations other := fun hmem => by
          rw [hid.mpr hmem] at hcur
          exact hother (Option.some.inj hcur)
        by_cases hmem : id ∈ ids
        · simp [hcur, hmem, hother, this]
        · simp [hcur, hmem, hother, this, Ne.symm hother]
      · simpa [hcur, hother] using hid

end Step

/-- An allocation that starts with an unavailable device changes nothing, one that stops later
leaves devices without a record. -/
theorem settles_allocate_iff (pool : HardwarePool) (readers : List (PassId × HardwareAllocation))
    (h : Agree pool.devices pool.allocations) (passId : PassId) (deviceIds : List String)
    (durationSec : ℕ) (now : DateTime) :
    (step ⟨pool, none, readers⟩ (.allocate passId deviceIds durationSec now)).Settles ↔
      Keeps ⟨pool, none, readers⟩ (.allocate passId deviceIds durationSec now) := by
  obtain ⟨hok, -⟩ := allocateEach_spec passId pool.devices deviceIds
  rcases step_allocate pool readers passId deviceIds durationSec now with
    ⟨devices, err, hrun, hstep⟩ | ⟨devices, hrun, hstep⟩ <;> rw [hstep]
  · have hids : ¬ Allocatable pool.devices deviceIds := fun hids => by
      simpa [hrun] using hok.mpr hids
    cases deviceIds with
    | nil => simp [allocateEach] at hrun
    | cons id ids =>
      cases ha : available pool.devices id with
      | false =>
        obtain ⟨_, hstop⟩ := allocateEach_stop passId ha ids
        obtain ⟨rfl, -⟩ := Prod.ext_iff.mp (hrun.symm.trans hstop)
        simpa [Keeps, hids, ha] using h
      | true =>
        have hnot := Agree.not_allocate h passId ha ids
        simp only [hrun] at hnot
        simpa [Keeps, hids, ha] using hnot
  · have hids : Allocatable pool.devices deviceIds := hok.mp (by rw [hrun])
    have hiff := Agree.allocate_iff h ⟨passId, deviceIds, now, durationSec⟩ hids
    have hhead : deviceIds.head?.any (fun id => !available pool.devices id) = false := by
      cases deviceIds with
      | nil => rfl
      | cons id ids => simpa using hids.2 id List.mem_cons_self
    simp only [hrun] at hiff
    simpa [Keeps, hids, hhead, Pending.apply] using hiff

/-- The steps that preserve the correspondence are those that meet `Keeps`. -/
theorem settles_step_iff (s : PoolState) (e : Event) (h : s.Settles) :
    (step s e).Settles ↔ Keeps s e := by
  obtain ⟨pool, holder, readers⟩ := s
  cases e with
  | addDevice device =>
    cases holder with
    | some pending => simpa [Keeps, step] using h
    | none =>
      have hiff := Agree.addDevice_iff ((settles_free _ _).mp h) device
      simpa [Keeps, step, HardwarePool.addDevice] using hiff
  | allocate passId deviceIds durationSec now =>
    cases holder with
    | some pending => simpa [Keeps, step] using h
    | none =>
      exact settles_allocate_iff pool readers ((settles_free _ _).mp h) passId deviceIds durationSec
        now
  | readAllocation passId =>
    simp only [step, Keeps, iff_true]
    split <;> exact h
  | releaseDevices passId allocation =>
    by_cases hready : holder = none ∧ (passId, allocation) ∈ readers
    · obtain ⟨rfl, hmem⟩ := hready
      have hiff := Agree.release_iff ((settles_free _ _).mp h) passId allocation.devices
      simpa [Keeps, step, hmem, Pending.apply] using hiff
    · have hkeeps : Keeps ⟨pool, holder, readers⟩ (.releaseDevices passId allocation) :=
        fun hholder hmem => absurd ⟨hholder, hmem⟩ hready
      simpa [step, hready, hkeeps] using h
  | finish => cases holder <;> simpa [Keeps, step] using h

/-! ### Runs -/

/-- Every id that a record lists is the id of a device. -/
def PoolState.Known (s : PoolState) : Prop :=
  ∀ passId, ∀ id ∈ listed s.settled passId, (s.pool.devices.get? id).isSome

theorem isSome_of_allocatedTo {devices : Devices} {id : String} {passId : PassId}
    (h : allocatedTo devices id = some passId) : (devices.get? id).isSome := by
  unfold allocatedTo at h
  cases hdev : devices.get? id with
  | none => simp [hdev] at h
  | some device => rfl

theorem isSome_insert {devices : Devices} {id : String} (h : (devices.get? id).isSome)
    (key : String) (device : HardwareDevice) : ((devices.insert key device).get? id).isSome := by
  rw [HashMap.get?_insert]
  split
  · rfl
  · exact h

theorem isSome_allocateEach {devices : Devices} {id : String} (h : (devices.get? id).isSome)
    (passId : PassId) (ids : List String) :
    ((allocateEach passId devices ids).1.get? id).isSome := by
  induction ids generalizing devices with
  | nil => exact h
  | cons head ids ih =>
    simp only [allocateEach]
    split
    · exact h
    · split
      · exact h
      · exact ih (isSome_insert h _ _)

theorem isSome_releaseEach {devices : Devices} {id : String} (h : (devices.get? id).isSome)
    (passId : PassId) (ids : List String) :
    ((releaseEach passId devices ids).get? id).isSome := by
  refine run_preserves (I := fun devices : Devices => (devices.get? id).isSome) ?_ h ids
  intro devices head hdev
  split
  · exact hdev
  · split
    · exact hdev
    · exact isSome_insert hdev _ _

theorem known_step (s : PoolState) (e : Event) (h : s.Known) : (step s e).Known := by
  obtain ⟨pool, holder, readers⟩ := s
  cases e with
  | addDevice device =>
    cases holder with
    | some pending => exact h
    | none => exact fun passId id hmem => isSome_insert (h passId id hmem) _ _
  | allocate passId deviceIds durationSec now =>
    cases holder with
    | some pending => exact h
    | none =>
      have hkeep : ∀ id, (pool.devices.get? id).isSome →
          ((allocateEach passId pool.devices deviceIds).1.get? id).isSome :=
        fun id hid => isSome_allocateEach hid passId deviceIds
      rcases step_allocate pool readers passId deviceIds durationSec now with
        ⟨devices, err, hrun, hstep⟩ | ⟨devices, hrun, hstep⟩ <;> rw [hstep] <;> rw [hrun] at hkeep
      · exact fun other id hmem => hkeep id (h other id hmem)
      · intro other id hmem
        simp only [PoolState.settled, Pending.apply, listed_insert] at hmem
        split at hmem
        · have hid := (allocateEach_spec passId pool.devices deviceIds).2 (by rw [hrun]) id
          rw [if_pos hmem, hrun] at hid
          exact isSome_of_allocatedTo hid
        · exact hkeep id (h other id hmem)
  | readAllocation passId =>
    simp only [step]
    split <;> exact h
  | releaseDevices passId allocation =>
    by_cases hready : holder = none ∧ (passId, allocation) ∈ readers
    · obtain ⟨rfl, hmem⟩ := hready
      simp only [step, hmem, and_self, if_true]
      intro other id hlist
      simp only [PoolState.settled, Pending.apply, listed_erase] at hlist
      split at hlist
      · contradiction
      · exact isSome_releaseEach (h other id hlist) _ _
    · simpa only [step, if_neg hready] using h
  | finish => cases holder <;> exact h

theorem settles_iff_consistent {s : PoolState} (h : s.Known) :
    s.Settles ↔ Consistent (step s .finish).pool := by
  have hfinish : (step s .finish).pool = { s.pool with allocations := s.settled } := by
    obtain ⟨pool, holder, readers⟩ := s
    cases holder <;> rfl
  rw [hfinish]
  refine ⟨fun hs => Agree.consistent hs, fun hc id passId => ?_⟩
  cases hdev : s.pool.devices.get? id with
  | none =>
    have hnot : id ∉ listed s.settled passId := fun hmem => by simpa [hdev] using h passId id hmem
    simpa [allocatedTo, hdev] using hnot
  | some device =>
    have hid := hc.iff_listed id device passId hdev
    simpa [allocatedTo, hdev, mem_listed] using hid

/-- Over every interleaving of callers: the devices and the records correspond in every state
reached, once the holder of the devices' lock has finished, if and only if every step of the run
meets `Keeps`. -/
theorem consistent_iff_keeps (events : List Event) :
    (∀ n, Consistent (step (run step PoolState.new (events.take n)) .finish).pool) ↔
      Along step Keeps PoolState.new events := by
  have hsettles : PoolState.new.Settles := by
    intro id passId
    simp [PoolState.new, HardwarePool.new, PoolState.settled, allocatedTo, listed]
  have hknown : PoolState.new.Known := by
    intro passId id hmem
    simp [PoolState.new, HardwarePool.new, PoolState.settled, listed] at hmem
  rw [← along_iff_invariant settles_step_iff hsettles]
  exact forall_congr' fun n => (settles_iff_consistent (run_preserves known_step hknown _)).symm

/-- An `allocate` whose second device is missing fails, and leaves its first device allocated to
a pass without a record. -/
theorem failed_allocate_inconsistent :
    ¬ ∀ (events : List Event) (n : Nat),
      Consistent (step (run step PoolState.new (events.take n)) .finish).pool := by
  intro h
  let sdr := HardwareDevice.new "sdr-1" .sdr (.new (2000000000, 2300000000) 10000000) 0
  have hrun := h [.addDevice sdr, .allocate "pass-1" ["sdr-1", "sdr-2"] 600 0] 2
  obtain ⟨allocation, hrecord, -⟩ :=
    (hrun.iff_listed "sdr-1" { sdr with currentAllocation := some "pass-1" } "pass-1"
      (by decide)).mp rfl
  have hnone : (step (run step PoolState.new
      ([Event.addDevice sdr, .allocate "pass-1" ["sdr-1", "sdr-2"] 600 0].take 2))
      .finish).pool.allocations.get? "pass-1" = none := by decide
  rw [hnone] at hrecord
  contradiction

end GroundCore.Hardware
