import GroundCore.Lib.Run
import GroundCore.Lib.SecondaryIndex
import GroundCore.Oisl.Resource.Allocator

/-! Runs of the constellation-wide allocator.  The checks of an allocation read the indexes: what
makes them right is that both indexes list the live allocations, in the order in which these were
allocated. -/

namespace GroundCore.Oisl.Resource

open Lib

inductive AllocatorCall
  | setTenantQuota (tenantId : TenantId) (quota : TenantQuota)
  | allocate (claim : ResourceClaim) (taskId : TaskId) (tenantId : TenantId) (priority : Priority)
      (validWindow : TimeWindow) (allocationId : AllocationId)
  | release (allocationId : AllocationId)
  | preempt (allocationId : AllocationId) (reason : PreemptionReason)

/-- The random id that a call draws. -/
def AllocatorCall.drawn : AllocatorCall → Option AllocationId
  | .allocate _ _ _ _ _ allocationId => some allocationId
  | _ => none

namespace ResourceAllocator

def call (allocator : ResourceAllocator) :
    AllocatorCall → ResourceAllocator × Except AllocationError Unit
  | .setTenantQuota tenantId quota => (allocator.setTenantQuota tenantId quota, .ok ())
  | .allocate claim taskId tenantId priority validWindow allocationId =>
    match allocator.allocate claim taskId tenantId priority validWindow allocationId with
    | (allocator, result) => (allocator, result.map fun _ => ())
  | .release allocationId => allocator.release allocationId
  | .preempt allocationId reason => allocator.preempt allocationId reason

def step (allocator : ResourceAllocator) (call : AllocatorCall) : ResourceAllocator :=
  (allocator.call call).1

def getTenantAllocations (allocator : ResourceAllocator) (tenantId : TenantId) :
    List ResourceAllocation :=
  allocator.allocations.filter fun a => a.tenantId = tenantId

/-- No two live allocations have one id, and the indexes list exactly the live allocations of each
terminal and tenant. -/
structure Indexed (allocator : ResourceAllocator) : Prop where
  distinct : (allocator.allocations.map (·.allocationId)).Nodup
  terminal : Indexes allocator.terminalIndex (fun a => a.resources.opticalTerminal)
    (·.allocationId) allocator.allocations
  tenant : Indexes allocator.tenantIndex (fun a => some a.tenantId) (·.allocationId)
    allocator.allocations

/-- No two allocations on one terminal overlap. -/
def Exclusive (allocations : List ResourceAllocation) : Prop :=
  allocations.Pairwise fun a b => ∀ terminal, a.resources.opticalTerminal = some terminal →
    b.resources.opticalTerminal = some terminal → a.validWindow.overlaps b.validWindow = false

/-! ### What one call does -/

/-- The allocator with one more live allocation. -/
def pushed (allocator : ResourceAllocator) (a : ResourceAllocation) : ResourceAllocator :=
  { allocator with
    terminalIndex := Indexes.push allocator.terminalIndex a.resources.opticalTerminal a.allocationId
    tenantIndex := Indexes.push allocator.tenantIndex (some a.tenantId) a.allocationId
    allocations := allocator.allocations ++ [a] }

/-- The allocator without a live allocation. -/
def dropped (allocator : ResourceAllocator) (a : ResourceAllocation) : ResourceAllocator :=
  { allocator with
    terminalIndex := Indexes.drop allocator.terminalIndex a.resources.opticalTerminal a.allocationId
    tenantIndex := Indexes.drop allocator.tenantIndex (some a.tenantId) a.allocationId
    allocations := allocator.allocations.eraseP fun b => b.allocationId = a.allocationId }

theorem find?_spec {allocator : ResourceAllocator} {id : AllocationId} {a : ResourceAllocation}
    (h : allocator.find? id = some a) : a ∈ allocator.allocations ∧ a.allocationId = id :=
  ⟨List.mem_of_find?_eq_some h, by simpa using List.find?_some h⟩

theorem release_of_find? {allocator : ResourceAllocator} {id : AllocationId}
    {a : ResourceAllocation} (h : allocator.find? id = some a) :
    allocator.release id = (allocator.dropped a, .ok ()) := by
  obtain rfl := (find?_spec h).2
  unfold release dropped Indexes.drop
  rw [h]
  cases hterminal : a.resources.opticalTerminal with
  | none => simp only [hterminal]
  | some terminal => simp only [hterminal]

theorem allocate_eq_pushed {allocator : ResourceAllocator} {claim : ResourceClaim}
    {taskId : TaskId} {tenantId : TenantId} {priority : Priority} {window : TimeWindow}
    {id : AllocationId} (hquota : allocator.exceedsQuota claim tenantId = false)
    (hconflict : allocator.checkConflicts claim window tenantId = none) :
    allocator.allocate claim taskId tenantId priority window id =
      (allocator.pushed ⟨id, taskId, tenantId, claim, window, priority, true⟩, .ok id) := by
  unfold allocate pushed Indexes.push
  rw [if_neg (by simpa using hquota), hconflict]
  cases claim.opticalTerminal with
  | none => rfl
  | some terminal => rfl

/-- A call fails and changes nothing, or it sets a quota, or it adds an allocation that the quota
and the index leave room for, or it drops a live allocation. -/
theorem call_cases (allocator : ResourceAllocator) (call : AllocatorCall) :
    (∃ e, allocator.call call = (allocator, .error e)) ∨
    (∃ tenantId quota, call = .setTenantQuota tenantId quota ∧
      allocator.call call = (allocator.setTenantQuota tenantId quota, .ok ())) ∨
    (∃ claim taskId tenantId priority window id,
      call = .allocate claim taskId tenantId priority window id ∧
      allocator.exceedsQuota claim tenantId = false ∧
      allocator.checkConflicts claim window tenantId = none ∧
      allocator.call call =
        (allocator.pushed ⟨id, taskId, tenantId, claim, window, priority, true⟩, .ok ())) ∨
    (∃ a ∈ allocator.allocations, call.drawn = none ∧
      allocator.call call = (allocator.dropped a, .ok ())) := by
  cases call with
  | setTenantQuota tenantId quota => exact .inr (.inl ⟨tenantId, quota, rfl, rfl⟩)
  | allocate claim taskId tenantId priority window id =>
    by_cases hquota : allocator.exceedsQuota claim tenantId
    · exact .inl ⟨_, by simp only [ResourceAllocator.call, allocate, if_pos hquota]; rfl⟩
    cases hconflict : allocator.checkConflicts claim window tenantId with
    | some conflict =>
      exact .inl ⟨.resourceConflict conflict, by
        simp only [ResourceAllocator.call, allocate, if_neg hquota, hconflict]; rfl⟩
    | none =>
      refine .inr (.inr (.inl ⟨claim, taskId, tenantId, priority, window, id, rfl,
        by simpa using hquota, hconflict, ?_⟩))
      simp only [ResourceAllocator.call, allocate_eq_pushed (by simpa using hquota) hconflict]
      rfl
  | release id =>
    cases hfind : allocator.find? id with
    | none => exact .inl ⟨_, release_of_find?_eq_none hfind⟩
    | some a => exact .inr (.inr (.inr ⟨a, (find?_spec hfind).1, rfl, release_of_find? hfind⟩))
  | preempt id reason =>
    cases hfind : allocator.find? id with
    | none => exact .inl ⟨.notFound id, by simp only [ResourceAllocator.call, preempt, hfind]⟩
    | some a =>
      by_cases hcan : a.canPreempt
      · refine .inr (.inr (.inr ⟨a, (find?_spec hfind).1, rfl, ?_⟩))
        simp only [ResourceAllocator.call, preempt, hfind, hcan, Bool.not_true,
          Bool.false_eq_true, if_false]
        exact release_of_find? hfind
      · exact .inl ⟨.notPreemptible id, by simp [ResourceAllocator.call, preempt, hfind, hcan]⟩

/-! ### The indexes -/

section

variable {allocator : ResourceAllocator}

theorem Indexed.new : ResourceAllocator.new.Indexed :=
  ⟨List.nodup_nil, Indexes.empty, Indexes.empty⟩

theorem Indexed.pushed (h : allocator.Indexed) {a : ResourceAllocation}
    (hnew : a.allocationId ∉ allocator.allocations.map (·.allocationId)) :
    (allocator.pushed a).Indexed := by
  refine ⟨?_, h.terminal.append a, h.tenant.append a⟩
  show ((allocator.allocations ++ [a]).map (·.allocationId)).Nodup
  rw [List.map_append]
  exact List.nodup_append.mpr ⟨h.distinct, List.nodup_singleton _, by simpa using hnew⟩

theorem Indexed.dropped (h : allocator.Indexed) {a : ResourceAllocation}
    (ha : a ∈ allocator.allocations) : (allocator.dropped a).Indexed :=
  ⟨h.distinct.sublist (List.eraseP_sublist.map _), h.terminal.erase h.distinct ha,
    h.tenant.erase h.distinct ha⟩

theorem Indexed.find?_eq_some (h : allocator.Indexed) {a : ResourceAllocation}
    (ha : a ∈ allocator.allocations) : allocator.find? a.allocationId = some a := by
  cases hfind : allocator.find? a.allocationId with
  | none =>
    have := List.find?_eq_none.mp hfind a ha
    simp at this
  | some b =>
    obtain ⟨hb, hid⟩ := find?_spec hfind
    rw [List.inj_on_of_nodup_map h.distinct hb ha hid]

/-- The conflict check passes exactly when no live allocation on the claim's terminal overlaps. -/
theorem Indexed.checkConflicts_eq_none_iff (h : allocator.Indexed) {claim : ResourceClaim}
    {window : TimeWindow} {tenantId : TenantId} :
    allocator.checkConflicts claim window tenantId = none ↔
      ∀ a ∈ allocator.allocations, ∀ terminal, claim.opticalTerminal = some terminal →
        a.resources.opticalTerminal = some terminal → a.validWindow.overlaps window = false := by
  unfold checkConflicts
  cases hterminal : claim.opticalTerminal with
  | none => simp
  | some terminal =>
    have hids : (allocator.terminalIndex.get? terminal).bind (fun ids => ids.findSome? fun id =>
          (allocator.allocations.find? fun a =>
            a.allocationId = id && a.validWindow.overlaps window).map (·.allocationId)) =
        (allocator.terminalIndex.ids terminal).findSome? fun id =>
          (allocator.allocations.find? fun a =>
            a.allocationId = id && a.validWindow.overlaps window).map (·.allocationId) := by
      unfold HashMap.ids
      cases allocator.terminalIndex.get? terminal <;> rfl
    simp only [Option.bind_eq_bind, Option.bind_some, hids, List.findSome?_eq_none_iff,
      Option.map_eq_none_iff, List.find?_eq_none, Option.some.injEq, forall_eq']
    constructor
    · intro hnone a ha hon
      have := hnone _ (h.terminal.mem_iff.mpr ⟨a, ha, hon, rfl⟩) a ha
      simpa using this
    · intro hfree id hid a ha hboth
      obtain ⟨b, hb, hon, rfl⟩ := h.terminal.mem_iff.mp hid
      rw [Bool.and_eq_true, decide_eq_true_eq] at hboth
      rw [List.inj_on_of_nodup_map h.distinct ha hb hboth.1, hfree b hb hon] at hboth
      exact absurd hboth.2 (by simp)

/-! ### Runs -/

/-- The id that the call draws is not the id of a live allocation. -/
def Fresh (allocator : ResourceAllocator) (call : AllocatorCall) : Prop :=
  ∀ id, call.drawn = some id → id ∉ allocator.allocations.map (·.allocationId)

/-- A call adds at most the id that it draws to the live ones. -/
theorem mem_ids_of_step {call : AllocatorCall} {id : AllocationId}
    (h : id ∈ (allocator.step call).allocations.map (·.allocationId)) :
    id ∈ allocator.allocations.map (·.allocationId) ∨ call.drawn = some id := by
  unfold step at h
  rcases allocator.call_cases call with ⟨e, hcall⟩ | ⟨tenantId, quota, -, hcall⟩ |
    ⟨claim, taskId, tenantId, priority, window, drawn, rfl, -, -, hcall⟩ | ⟨a, -, -, hcall⟩ <;>
    rw [hcall] at h
  · exact .inl h
  · exact .inl h
  · unfold pushed at h
    rw [List.map_append, List.mem_append] at h
    rcases h with hold | hnew
    · exact .inl hold
    · exact .inr (congrArg some (List.mem_singleton.mp hnew).symm)
  · exact .inl ((List.eraseP_sublist.map _).subset h)

theorem fresh_of_nodup {calls : List AllocatorCall} (hdrawn : (calls.filterMap (·.drawn)).Nodup)
    (hlive : ∀ id ∈ calls.filterMap (·.drawn), id ∉ allocator.allocations.map (·.allocationId)) :
    Along step Fresh allocator calls := by
  induction calls generalizing allocator with
  | nil => trivial
  | cons call calls ih =>
    have hrest : (calls.filterMap (·.drawn)).Sublist ((call :: calls).filterMap (·.drawn)) :=
      (List.sublist_cons_self call calls).filterMap _
    refine ⟨fun id hid => hlive id ?_, ih (hdrawn.sublist hrest) fun id hid hmem => ?_⟩
    · rw [List.filterMap_cons_some hid]
      exact List.mem_cons_self
    · rcases mem_ids_of_step hmem with hold | hnew
      · exact hlive id (hrest.subset hid) hold
      · rw [List.filterMap_cons_some hnew, List.nodup_cons] at hdrawn
        exact hdrawn.1 hid

theorem Indexed.step {call : AllocatorCall} (h : allocator.Indexed) (hfresh : allocator.Fresh call) :
    (allocator.step call).Indexed := by
  unfold ResourceAllocator.step
  rcases allocator.call_cases call with ⟨e, hcall⟩ | ⟨tenantId, quota, -, hcall⟩ |
    ⟨claim, taskId, tenantId, priority, window, id, rfl, -, -, hcall⟩ | ⟨a, ha, -, hcall⟩ <;>
    rw [hcall]
  · exact h
  · exact { h with }
  · exact h.pushed (hfresh id rfl)
  · exact h.dropped ha

theorem exclusive_step {call : AllocatorCall} (h : allocator.Indexed)
    (hexclusive : Exclusive allocator.allocations) :
    Exclusive (allocator.step call).allocations := by
  unfold ResourceAllocator.step
  rcases allocator.call_cases call with ⟨e, hcall⟩ | ⟨tenantId, quota, -, hcall⟩ |
    ⟨claim, taskId, tenantId, priority, window, id, rfl, -, hconflict, hcall⟩ | ⟨a, -, -, hcall⟩ <;>
    rw [hcall]
  · exact hexclusive
  · exact hexclusive
  · have hfree := h.checkConflicts_eq_none_iff.mp hconflict
    refine List.pairwise_append.mpr ⟨hexclusive, List.pairwise_singleton _ _, ?_⟩
    intro a ha b hb terminal hon hclaim
    rw [List.mem_singleton.mp hb] at hclaim ⊢
    exact hfree a ha terminal hclaim hon
  · exact hexclusive.sublist List.eraseP_sublist

theorem invariant_of_run {calls : List AllocatorCall}
    (hdrawn : (calls.filterMap (·.drawn)).Nodup) :
    (run step new calls).Indexed ∧ Exclusive (run step new calls).allocations :=
  run_invariant (I := fun allocator => allocator.Indexed ∧ Exclusive allocator.allocations)
    (fun _ _ h hfresh => ⟨h.1.step hfresh, exclusive_step h.1 h.2⟩)
    ⟨Indexed.new, by unfold Exclusive; exact .nil⟩ (fresh_of_nodup hdrawn fun _ _ => List.not_mem_nil)

/-- In a run whose random ids are distinct, no two live allocations on one terminal overlap, the
indexes list exactly the live allocations, and a call that fails changes nothing. -/
theorem exclusive_of_run (calls : List AllocatorCall)
    (hdrawn : (calls.filterMap AllocatorCall.drawn).Nodup) :
    Exclusive (run step new calls).allocations ∧ (run step new calls).Indexed ∧
      ∀ call e, ((run step new calls).call call).2 = .error e →
        (run step new calls).step call = run step new calls := by
  obtain ⟨hindexed, hexclusive⟩ := invariant_of_run hdrawn
  refine ⟨hexclusive, hindexed, fun call e herror => ?_⟩
  show ((run step new calls).call call).1 = _
  rcases call_cases (run step new calls) call with ⟨e, hcall⟩ | ⟨_, _, -, hcall⟩ |
    ⟨_, _, _, _, _, _, -, -, -, hcall⟩ | ⟨_, -, -, hcall⟩
  · rw [hcall]
  · simp [hcall] at herror
  · simp [hcall] at herror
  · simp [hcall] at herror

/-- A claim on terminal 1 alone. -/
def terminalClaim : ResourceClaim :=
  { opticalTerminal := some 1, bandwidth := none, duration := 0, powerWatts := 1,
    storageBytes := none, computeCycles := none }

/-- Two allocations on a terminal, the first of which is released. -/
def terminalCalls : List AllocatorCall :=
  [.allocate terminalClaim 1 "tenant" .medium ⟨0, 10⟩ 1,
    .allocate terminalClaim 2 "tenant" .medium ⟨10, 20⟩ 2, .release 1]

theorem exclusive_terminalCalls : Exclusive (run step new terminalCalls).allocations ∧
    (run step new terminalCalls).Indexed ∧
    ∀ call e, ((run step new terminalCalls).call call).2 = .error e →
      (run step new terminalCalls).step call = run step new terminalCalls :=
  exclusive_of_run terminalCalls (by decide)

end

end ResourceAllocator

end GroundCore.Oisl.Resource
