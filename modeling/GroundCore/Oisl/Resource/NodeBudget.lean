import Mathlib.Data.Rat.Cast.Order
import GroundCore.Lib.Double
import GroundCore.Oisl.Resource.Conservation

/-! The budget of one satellite over runs in which every allocation passes the check of the
satellite first.  Watts and cores are added and taken away with rounding, so power adds up as long
as no call rounds it. -/

namespace GroundCore.Oisl.Resource

open Lib

inductive NodeCall
  | allocate (claim : ResourceClaim Double) (taskId : TaskId) (tenantId : TenantId)
      (allocationId : AllocationId) (now : DateTime × DateTime)
  | release (allocationId : AllocationId)

/-- Watts are taken from one number and added to another without rounding. -/
def Transfers (source target watts : Double) : Prop :=
  ∃ s t w, source = .finite s ∧ target = .finite t ∧ watts = .finite w ∧
    (Double.finite (s - w)).Valid ∧ (Double.finite (t + w)).Valid

/-- What is not rounded leaves the sum as it was. -/
theorem Transfers.add_eq {source target watts : Double} (h : Transfers source target watts) :
    target + watts + (source - watts) = target + source ∧
      source - watts + (target + watts) = source + target := by
  obtain ⟨s, t, w, rfl, rfl, rfl, hsub, hadd⟩ := h
  simp only [Double.finite_add_finite, Double.finite_sub_finite, Double.round_of_valid hsub,
    Double.round_of_valid hadd, add_add_sub_cancel, sub_add_add_cancel, and_self]

namespace SatelliteNode

def step (node : SatelliteNode Double) : NodeCall → SatelliteNode Double
  | .allocate claim taskId tenantId allocationId now =>
    (node.allocate claim taskId tenantId allocationId now).1
  | .release allocationId => node.release allocationId

/-- The bytes add up to what the satellite has. -/
structure StorageBalanced (node : SatelliteNode Double) : Prop where
  storage : node.storage.usedBytes + node.storage.availableBytes = node.storage.totalBytes
  used_le : node.storage.usedBytes ≤ node.storage.totalBytes

structure PowerBalanced (node : SatelliteNode Double) : Prop where
  power : node.powerBudget.allocatedWatts + node.powerBudget.availableWatts =
    node.powerBudget.totalWatts
  allocated_le : node.powerBudget.allocatedWatts.le node.powerBudget.totalWatts = true

def CpuWithin (node : SatelliteNode Double) : Prop :=
  node.compute.allocatedCpu.le (node.compute.cpuCores : Double) = true

structure NotOversubscribed (node : SatelliteNode Double) : Prop extends
    StorageBalanced node, PowerBalanced node where
  cpu_le : node.CpuWithin

/-- No byte counter leaves the range of a `u64` in the call. -/
def NoWrap (node : SatelliteNode Double) : NodeCall → Prop
  | .allocate claim _ _ _ _ =>
    node.storage.usedBytes + claim.bytes < 2 ^ 64 ∧ claim.bytes ≤ node.storage.availableBytes
  | .release id => ∀ a, node.currentAllocations.find? (fun a => a.allocationId = id) = some a →
    a.resources.bytes ≤ node.storage.usedBytes ∧
      node.storage.availableBytes + a.resources.bytes < 2 ^ 64

/-- An allocation is checked first, and its demand for power is not negative. -/
def Guarded (node : SatelliteNode Double) : NodeCall → Prop
  | .allocate claim _ _ _ _ => node.canSatisfy claim = true ∧ Double.le 0 claim.powerWatts = true
  | .release _ => True

/-- No watts are rounded in the call. -/
def Unrounded (node : SatelliteNode Double) : NodeCall → Prop
  | .allocate claim _ _ _ _ =>
    Transfers node.powerBudget.availableWatts node.powerBudget.allocatedWatts claim.powerWatts
  | .release id => ∀ a, node.currentAllocations.find? (fun a => a.allocationId = id) = some a →
    Transfers node.powerBudget.allocatedWatts node.powerBudget.availableWatts a.resources.powerWatts

/-- The cores that are left can take an allocation, or take it when the sum is rounded. -/
def CpuRoom (node : SatelliteNode Double) : NodeCall → Prop
  | .allocate claim _ _ _ _ => ∀ cycles, claim.computeCycles = some cycles →
    ∀ allocated, node.compute.allocatedCpu = .finite allocated →
    ∀ demand, (coreSeconds cycles : Double) = .finite demand →
      allocated + demand ≤ node.compute.cpuCores ∨
        Double.RoundsTo (allocated + demand) node.compute.cpuCores
  | .release _ => True

/-- What guarded calls keep. -/
structure Ledgered (node : SatelliteNode Double) : Prop extends StorageBalanced node where
  capacity : node.storage.totalBytes < 2 ^ 64
  cores : node.compute.cpuCores < 2 ^ 32
  nonneg : ∀ a ∈ node.currentAllocations, Double.le 0 a.resources.powerWatts = true
  cycles_lt : ∀ a ∈ node.currentAllocations, ∀ cycles,
    a.resources.computeCycles = some cycles → cycles < 2 ^ 63
  charged : (node.currentAllocations.map (·.resources.bytes)).sum ≤ node.storage.usedBytes

variable {node : SatelliteNode Double}

theorem canSatisfy_iff {claim : ResourceClaim Double} : node.canSatisfy claim = true ↔
    ¬ node.powerBudget.availableWatts < claim.powerWatts ∧
      (∀ id, claim.opticalTerminal = some id →
        (node.opticalTerminals.get? id).any (·.available) = true) ∧
      (∀ cycles, claim.computeCycles = some cycles →
        cycles ≤ node.compute.cpuCores * 1000000000) ∧
      ∀ bytes, claim.storageBytes = some bytes → bytes ≤ node.storage.availableBytes := by
  simp only [canSatisfy, Bool.and_eq_true, Bool.not_eq_true', decide_eq_false_iff_not, and_assoc]
  refine and_congr_right' (and_congr ?_ (and_congr ?_ ?_))
  · cases claim.opticalTerminal <;> simp
  · cases claim.computeCycles <;> simp
  · cases claim.storageBytes <;> simp

theorem bytes_le_of_canSatisfy {claim : ResourceClaim Double} (h : node.canSatisfy claim = true) :
    claim.bytes ≤ node.storage.availableBytes := by
  have hbytes := (canSatisfy_iff.mp h).2.2.2
  unfold ResourceClaim.bytes
  cases hclaim : claim.storageBytes with
  | none => exact Nat.zero_le _
  | some bytes => exact hbytes bytes hclaim

/-- A release finds nothing and changes nothing, or it takes the first allocation of that id off the
ledger and the counters. -/
theorem release_cases (node : SatelliteNode Double) (id : AllocationId) :
    (node.currentAllocations.find? (fun a => a.allocationId = id) = none ∧
      node.release id = node) ∨
    ∃ a, node.currentAllocations.find? (fun a => a.allocationId = id) = some a ∧
      node.release id = { node with
        currentAllocations := node.currentAllocations.eraseP fun a => a.allocationId = id
        powerBudget := { node.powerBudget with
          allocatedWatts := node.powerBudget.allocatedWatts - a.resources.powerWatts
          availableWatts := node.powerBudget.availableWatts + a.resources.powerWatts }
        compute := { node.compute with
          allocatedCpu :=
            match a.resources.computeCycles with
            | none => node.compute.allocatedCpu
            | some cycles => node.compute.allocatedCpu - coreSeconds cycles }
        storage := { node.storage with
          usedBytes := node.storage.usedBytes - a.resources.bytes
          availableBytes := node.storage.availableBytes + a.resources.bytes } } := by
  unfold release
  cases hfind : node.currentAllocations.find? fun a => a.allocationId = id with
  | none => exact .inl ⟨rfl, rfl⟩
  | some a => exact .inr ⟨a, rfl, rfl⟩

/-! ### Bytes -/

/-- An allocation on the ledger is among the bytes that are used. -/
theorem Ledgered.bytes_le (h : node.Ledgered) {id : AllocationId} {a : ResourceAllocation Double}
    (hfind : node.currentAllocations.find? (fun a => a.allocationId = id) = some a) :
    a.resources.bytes + ((node.currentAllocations.eraseP fun a => a.allocationId = id).map
      (·.resources.bytes)).sum ≤ node.storage.usedBytes := by
  rw [sum_eraseP hfind fun a => a.resources.bytes]
  exact h.charged

theorem Ledgered.noWrap {call : NodeCall} (h : node.Ledgered) (hcall : node.Guarded call) :
    node.NoWrap call := by
  have hstorage := h.storage
  have hcapacity := h.capacity
  cases call with
  | allocate claim taskId tenantId id now =>
    have hbytes := bytes_le_of_canSatisfy hcall.1
    exact ⟨by omega, hbytes⟩
  | release id =>
    intro a hfind
    have hbytes := h.bytes_le hfind
    exact ⟨by omega, by omega⟩

theorem Ledgered.step {call : NodeCall} (h : node.Ledgered) (hcall : node.Guarded call) :
    (node.step call).Ledgered := by
  have hstorage := h.storage
  have hcores := h.cores
  cases call with
  | allocate claim taskId tenantId id now =>
    obtain ⟨hcheck, hnonneg⟩ := hcall
    have hbytes := bytes_le_of_canSatisfy hcheck
    have hunfold : claim.bytes = claim.storageBytes.getD 0 := rfl
    have hcharged := h.charged
    refine ⟨⟨?_, ?_⟩, h.capacity, hcores, fun a ha => ?_, fun a ha cycles hcycles => ?_, ?_⟩
    · simp only [SatelliteNode.step, allocate, ← hunfold]
      omega
    · simp only [SatelliteNode.step, allocate, ← hunfold]
      omega
    · rcases List.mem_append.mp ha with hold | hnew
      · exact h.nonneg a hold
      · rw [List.mem_singleton.mp hnew]
        exact hnonneg
    · rcases List.mem_append.mp ha with hold | hnew
      · exact h.cycles_lt a hold cycles hcycles
      · rw [List.mem_singleton.mp hnew] at hcycles
        have hle := (canSatisfy_iff.mp hcheck).2.2.1 cycles hcycles
        omega
    · simp only [SatelliteNode.step, allocate, List.map_append, List.sum_append, List.map_cons,
        List.map_nil, List.sum_singleton, ← hunfold]
      omega
  | release id =>
    simp only [SatelliteNode.step]
    rcases node.release_cases id with ⟨-, hrelease⟩ | ⟨a, hfind, hrelease⟩ <;> rw [hrelease]
    · exact h
    · have hbytes := h.bytes_le hfind
      refine ⟨⟨?_, ?_⟩, h.capacity, hcores, ?_, ?_, Nat.le_sub_of_add_le' hbytes⟩
      · show _ - _ + (_ + _) = node.storage.totalBytes
        omega
      · show _ - _ ≤ node.storage.totalBytes
        omega
      · exact fun b hb => h.nonneg b (List.mem_of_mem_eraseP hb)
      · exact fun b hb => h.cycles_lt b (List.mem_of_mem_eraseP hb)

/-! ### Watts -/

theorem PowerBalanced.allocate (h : node.PowerBalanced) {claim : ResourceClaim Double}
    (hcheck : node.canSatisfy claim = true)
    (hexact : Transfers node.powerBudget.availableWatts node.powerBudget.allocatedWatts
      claim.powerWatts) (taskId : TaskId) (tenantId : TenantId) (id : AllocationId)
    (now : DateTime × DateTime) :
    (node.allocate claim taskId tenantId id now).1.PowerBalanced := by
  have hsum := hexact.add_eq.1.trans h.power
  refine ⟨hsum, ?_⟩
  obtain ⟨available, allocated, watts, havailable, hallocated, hwatts, -, hvalid⟩ := hexact
  have hroom : watts ≤ available := by
    have hnot := (canSatisfy_iff.mp hcheck).1
    rw [havailable, hwatts, Double.finite_lt_finite] at hnot
    exact not_lt.mp hnot
  have htotal : node.powerBudget.totalWatts = .round (allocated + available) := by
    rw [← h.power, hallocated, havailable, Double.finite_add_finite]
  have hafter : node.powerBudget.allocatedWatts + claim.powerWatts =
      .finite (allocated + watts) := by
    rw [hallocated, hwatts, Double.finite_add_finite, Double.round_of_valid hvalid]
  show (node.powerBudget.allocatedWatts + claim.powerWatts).le node.powerBudget.totalWatts = true
  rw [hafter, htotal]
  exact hvalid.le_round (by linarith)

theorem PowerBalanced.release (h : node.PowerBalanced) (hledger : node.Ledgered)
    {id : AllocationId} (hexact : node.Unrounded (.release id)) :
    (node.release id).PowerBalanced := by
  rcases node.release_cases id with ⟨-, hrelease⟩ | ⟨a, hfind, hrelease⟩ <;> rw [hrelease]
  · exact h
  · have htransfer := hexact a hfind
    refine ⟨htransfer.add_eq.2.trans h.power, ?_⟩
    have hnonneg := hledger.nonneg a (List.mem_of_find?_eq_some hfind)
    have hle := h.allocated_le
    obtain ⟨allocated, available, watts, hallocated, -, hwatts, hvalid, -⟩ := htransfer
    have hafter : node.powerBudget.allocatedWatts - a.resources.powerWatts =
        .finite (allocated - watts) := by
      rw [hallocated, hwatts, Double.finite_sub_finite, Double.round_of_valid hvalid]
    rw [hwatts, Double.zero_eq, Double.finite_le_finite] at hnonneg
    have hless : (Double.finite (allocated - watts)).le (.finite allocated) = true :=
      Double.finite_le_finite.mpr (sub_le_self _ hnonneg)
    rw [hallocated] at hle
    show (node.powerBudget.allocatedWatts - a.resources.powerWatts).le
      node.powerBudget.totalWatts = true
    rw [hafter]
    exact Double.le_of_le_of_le hless hle

/-! ### Cores -/

/-- The cores that checked cycles take are a number, and not a negative one. -/
theorem coreSeconds_eq {cycles : ℕ} (h : cycles < 2 ^ 63) :
    ∃ seconds, 0 ≤ seconds ∧ (coreSeconds cycles : Double) = .finite seconds := by
  have hcycles : (cycles : ℚ) < 2 ^ 63 := by exact_mod_cast h
  have habs : |(cycles : ℚ)| < 2 ^ 64 := by
    rw [Nat.abs_cast]
    exact hcycles.trans (by norm_num)
  have hnonneg : 0 ≤ Double.nearest cycles := Double.nearest_nonneg (Nat.cast_nonneg _)
  have hle : Double.nearest cycles ≤ 2 ^ 63 :=
    Double.Representable.nearest_le (Double.representable_iff.mpr (by decide +kernel)) hcycles.le
  have hquotient : |Double.nearest cycles / 1000000000| < 2 ^ 64 := by
    rw [abs_of_nonneg (div_nonneg hnonneg (by norm_num)), div_lt_iff₀ (by norm_num)]
    linarith
  refine ⟨Double.nearest (Double.nearest cycles / 1000000000),
    Double.nearest_nonneg (div_nonneg hnonneg (by norm_num)), ?_⟩
  have hcast : (cycles : Double) = .finite (Double.nearest cycles) := Double.round_eq_finite habs
  have hdivisor : (1000000000 : Double) = .finite 1000000000 := by decide +kernel
  rw [coreSeconds, hcast, hdivisor, Double.finite_div_finite (by norm_num),
    Double.round_eq_finite hquotient]

theorem cores_eq (h : node.compute.cpuCores < 2 ^ 32) :
    (node.compute.cpuCores : Double) = .finite node.compute.cpuCores ∧
      (Double.finite node.compute.cpuCores).Valid := by
  have hcast := Double.natCast_eq_finite (h.trans (by norm_num : 2 ^ 32 < 2 ^ 53))
  exact ⟨hcast, hcast ▸ Double.valid_round _⟩

theorem cpuWithin_allocate_iff (h : node.CpuWithin) (hcores : node.compute.cpuCores < 2 ^ 32)
    {claim : ResourceClaim Double} (hcheck : node.canSatisfy claim = true) (taskId : TaskId)
    (tenantId : TenantId) (id : AllocationId) (now : DateTime × DateTime) :
    (node.allocate claim taskId tenantId id now).1.CpuWithin ↔
      node.CpuRoom (.allocate claim taskId tenantId id now) := by
  obtain ⟨hround, hvalid⟩ := cores_eq hcores
  unfold CpuWithin at h ⊢
  rw [hround] at h
  simp only [SatelliteNode.allocate, CpuRoom, hround]
  cases hcycles : claim.computeCycles with
  | none => simpa using h
  | some cycles =>
    have hlt : cycles < 2 ^ 63 := by
      have hle := (canSatisfy_iff.mp hcheck).2.2.1 cycles hcycles
      omega
    obtain ⟨seconds, -, hseconds⟩ := coreSeconds_eq hlt
    simp only [Option.some.injEq, forall_eq', hseconds, Double.finite.injEq]
    cases hcpu : node.compute.allocatedCpu with
    | nan => rw [hcpu] at h; contradiction
    | infinite negative =>
      rw [hcpu] at h
      simp only [reduceCtorEq, false_implies, implies_true, iff_true]
      exact h
    | finite allocated =>
      simp only [Double.finite.injEq, forall_eq', Double.finite_add_finite]
      exact Double.round_le_iff hvalid

theorem CpuWithin.release (h : node.CpuWithin) (hledger : node.Ledgered) (id : AllocationId) :
    (node.release id).CpuWithin := by
  rcases node.release_cases id with ⟨-, hrelease⟩ | ⟨a, hfind, hrelease⟩ <;> rw [hrelease]
  · exact h
  · obtain ⟨hround, hvalid⟩ := cores_eq hledger.cores
    unfold CpuWithin at h ⊢
    simp only [hround] at h ⊢
    cases hcycles : a.resources.computeCycles with
    | none => exact h
    | some cycles =>
      obtain ⟨seconds, hnonneg, hseconds⟩ :=
        coreSeconds_eq (hledger.cycles_lt a (List.mem_of_find?_eq_some hfind) cycles hcycles)
      simp only [hseconds]
      cases hcpu : node.compute.allocatedCpu with
      | nan => rw [hcpu] at h; contradiction
      | infinite negative =>
        rw [hcpu] at h
        exact h
      | finite allocated =>
        rw [hcpu, Double.finite_le_finite] at h
        rw [Double.finite_sub_finite]
        exact hvalid.round_le (by linarith)

/-! ### Runs -/

theorem ledgered_of_empty (h : node.StorageBalanced) (hledger : node.currentAllocations = [])
    (hcapacity : node.storage.totalBytes < 2 ^ 64) (hcores : node.compute.cpuCores < 2 ^ 32) :
    node.Ledgered := by
  refine ⟨h, hcapacity, hcores, ?_, ?_, ?_⟩ <;> rw [hledger]
  · exact fun a ha => absurd ha List.not_mem_nil
  · exact fun a ha => absurd ha List.not_mem_nil
  · exact Nat.zero_le _

theorem powerBalanced_step {call : NodeCall} (h : node.Ledgered) (hcall : node.Guarded call)
    (hpower : node.PowerBalanced) (hexact : node.Unrounded call) :
    (node.step call).PowerBalanced := by
  cases call with
  | allocate claim taskId tenantId id now =>
    exact hpower.allocate hcall.1 hexact taskId tenantId id now
  | release id => exact hpower.release h hexact

theorem cpuWithin_step_iff {call : NodeCall} (h : node.Ledgered) (hcall : node.Guarded call)
    (hcpu : node.CpuWithin) : (node.step call).CpuWithin ↔ node.CpuRoom call := by
  cases call with
  | allocate claim taskId tenantId id now =>
    exact cpuWithin_allocate_iff hcpu h.cores hcall.1 taskId tenantId id now
  | release id => exact iff_of_true (hcpu.release h id) trivial

/-- From a satellite without allocations, guarded calls wrap no counter.  When no watts are rounded
and every allocation leaves room on the cores, they keep it from being oversubscribed, and without
that room they do not. -/
theorem notOversubscribed_of_run (hnode : node.NotOversubscribed)
    (hledger : node.currentAllocations = []) (hcapacity : node.storage.totalBytes < 2 ^ 64)
    (hcores : node.compute.cpuCores < 2 ^ 32) {calls : List NodeCall}
    (hcalls : Along step Guarded node calls) :
    Along step NoWrap node calls ∧
      (Along step Unrounded node calls → Along step CpuRoom node calls →
        ∀ n, (run step node (calls.take n)).NotOversubscribed) ∧
      ((∀ n, (run step node (calls.take n)).NotOversubscribed) →
        Along step CpuRoom node calls) := by
  have hstart : node.Ledgered :=
    ledgered_of_empty hnode.toStorageBalanced hledger hcapacity hcores
  have hcpu : (∀ n, (run step node (calls.take n)).CpuWithin) ↔ Along step CpuRoom node calls :=
    along_iff_invariant_of_along (J := Ledgered) (fun _ _ h hcall => h.step hcall)
      (fun _ _ h hcall hnode => cpuWithin_step_iff h hcall hnode) hstart hnode.cpu_le hcalls
  refine ⟨?_, fun hexact hroom n => ?_, fun hall => hcpu.mp fun n => (hall n).cpu_le⟩
  · exact along_imp (fun _ _ h hcall => h.step hcall) (fun _ _ h hcall => h.noWrap hcall) hstart
      hcalls
  · have hkept : ∀ n, (run step node (calls.take n)).Ledgered ∧
        (run step node (calls.take n)).PowerBalanced :=
      (along_iff_of_imp (I := fun node => node.Ledgered ∧ node.PowerBalanced) (fun _ h => h)
        (fun _ _ h hcall _ => ⟨h.1.step hcall.1, powerBalanced_step h.1 hcall.1 h.2 hcall.2⟩)
        (fun _ _ _ _ _ => trivial) ⟨hstart, hnode.toPowerBalanced⟩
        (along_and.mpr ⟨hcalls, hexact⟩)).mpr (along_of_forall fun _ _ => trivial)
    obtain ⟨hledgered, hpower⟩ := hkept n
    exact ⟨hledgered.toStorageBalanced, hpower, hcpu.mpr hroom n⟩

def claimOf (watts : Double) (bytes cycles : Option ℕ) : ResourceClaim Double :=
  { opticalTerminal := none, bandwidth := none, duration := 0, powerWatts := watts,
    storageBytes := bytes, computeCycles := cycles }

def callOf (watts : Double) (bytes cycles : Option ℕ) (id : AllocationId) : NodeCall :=
  .allocate (claimOf watts bytes cycles) 1 "tenant" id (0, 0)

theorem new_notOversubscribed (id : SatelliteId) :
    (SatelliteNode.new id : SatelliteNode Double).NotOversubscribed where
  storage := Nat.zero_add _
  used_le := Nat.zero_le _
  power := by
    show (0 + 500 : Double) = 500
    decide +kernel
  allocated_le := by
    show (0 : Double).le 500 = true
    decide +kernel
  cpu_le := by
    show (0 : Double).le (4 : ℕ) = true
    decide +kernel

theorem cpuRoom_callOf {watts : Double} {bytes : Option ℕ} {cycles : ℕ} {id : AllocationId}
    (allocated demand : ℚ) (hcpu : node.compute.allocatedCpu = .finite allocated)
    (hdemand : (coreSeconds cycles : Double) = .finite demand)
    (hle : allocated + demand ≤ node.compute.cpuCores) :
    node.CpuRoom (callOf watts bytes (some cycles) id) := by
  rintro _ ⟨⟩ allocated' hcpu' demand' hdemand'
  obtain rfl := Double.finite.inj (hcpu.symm.trans hcpu')
  obtain rfl := Double.finite.inj (hdemand.symm.trans hdemand')
  exact .inl hle

/-- The cores are taken, given back and taken again. -/
def takenAgain : List NodeCall :=
  [callOf 100 (some 5000) (some 3000000000) 1, callOf (.finite (125 / 2)) none (some 1000000000) 2,
    .release 1, callOf 300 (some 7000) (some 2500000000) 3]

theorem takenAgain_notOversubscribed :
    Along step NoWrap (.new "sat-1") takenAgain ∧
      ∀ n, (run step (.new "sat-1") (takenAgain.take n)).NotOversubscribed := by
  have hguarded : Along step Guarded (.new "sat-1") takenAgain :=
    ⟨⟨by decide +kernel, by decide +kernel⟩, ⟨by decide +kernel, by decide +kernel⟩, trivial,
      ⟨by decide +kernel, by decide +kernel⟩, trivial⟩
  obtain ⟨hwrap, henough, -⟩ := notOversubscribed_of_run (new_notOversubscribed "sat-1") rfl
    (by decide) (by decide) hguarded
  refine ⟨hwrap, henough ⟨?_, ?_, ?_, ?_, trivial⟩ ⟨?_, ?_, trivial, ?_, trivial⟩⟩
  · exact ⟨500, 0, 100, by decide +kernel, by decide +kernel, by decide +kernel, by decide +kernel,
      by decide +kernel⟩
  · exact ⟨400, 100, 125 / 2, by decide +kernel, by decide +kernel, by decide +kernel,
      by decide +kernel, by decide +kernel⟩
  · rintro _ ⟨⟩
    exact ⟨325 / 2, 675 / 2, 100, by decide +kernel, by decide +kernel, by decide +kernel,
      by decide +kernel, by decide +kernel⟩
  · exact ⟨875 / 2, 125 / 2, 300, by decide +kernel, by decide +kernel, by decide +kernel,
      by decide +kernel, by decide +kernel⟩
  · exact cpuRoom_callOf 0 3 (by decide +kernel) (by decide +kernel) (by decide +kernel)
  · exact cpuRoom_callOf 3 1 (by decide +kernel) (by decide +kernel) (by decide +kernel)
  · exact cpuRoom_callOf 1 (5 / 2) (by decide +kernel) (by decide +kernel) (by decide +kernel)

/-- Two allocations of three seconds of four cores each pass the check one after the other, and
after two of a tenth of a watt each the power does not add up. -/
theorem cores_oversubscribed :
    (¬ ∀ (node : SatelliteNode Double) (calls : List NodeCall), node.NotOversubscribed →
      node.currentAllocations = [] → node.storage.totalBytes < 2 ^ 64 →
      node.compute.cpuCores < 2 ^ 32 → Along step Guarded node calls →
      (run step node calls).CpuWithin) ∧
    ¬ ∀ (node : SatelliteNode Double) (calls : List NodeCall), node.NotOversubscribed →
      node.currentAllocations = [] → node.storage.totalBytes < 2 ^ 64 →
      node.compute.cpuCores < 2 ^ 32 → Along step Guarded node calls →
      (run step node calls).PowerBalanced := by
  constructor
  · intro hall
    have h := hall (.new "sat-1")
      [callOf 0 none (some 3000000000) 1, callOf 0 none (some 3000000000) 2]
      (new_notOversubscribed "sat-1") rfl (by decide) (by decide)
      ⟨⟨by decide +kernel, by decide +kernel⟩, ⟨by decide +kernel, by decide +kernel⟩, trivial⟩
    exact absurd h (by unfold CpuWithin; decide +kernel)
  · intro hall
    have h := hall (.new "sat-1")
      [callOf (.round 0.1) none none 1, callOf (.round 0.1) none none 2]
      (new_notOversubscribed "sat-1") rfl (by decide) (by decide)
      ⟨⟨by decide +kernel, by decide +kernel⟩, ⟨by decide +kernel, by decide +kernel⟩, trivial⟩
    exact absurd h.power (by decide +kernel)

end SatelliteNode

end GroundCore.Oisl.Resource
