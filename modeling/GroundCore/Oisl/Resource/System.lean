import GroundCore.Lib.Run
import GroundCore.Oisl.Resource.Scheduler

/-! A scheduler that draws its ids from a random source.  The satellites and the constellation-wide
allocator each draw their own id for an allocation, so an id that one level knows is unknown to the
other: a preemption releases nothing on the satellites, and the release with which a rebalance
starts a move finds nothing in the allocator. -/

namespace GroundCore.Oisl.Resource

open Lib

/-! ### What one call of the scheduler does -/

namespace DefaultSatelliteScheduler

def Keyed (scheduler : DefaultSatelliteScheduler) : Prop :=
  ∀ id sat, scheduler.satellites.get? id = some sat → sat.satelliteId = id

theorem Keyed.insert {scheduler : DefaultSatelliteScheduler} (h : scheduler.Keyed)
    {id : SatelliteId} {sat : SatelliteNode} (hid : sat.satelliteId = id)
    (allocator : ResourceAllocator) :
    Keyed { satellites := scheduler.satellites.insert id sat, allocator } := by
  intro id' node hnode
  rw [HashMap.get?_insert] at hnode
  split at hnode
  · next heq =>
    rw [← Option.some.inj hnode, hid]
    exact heq.symm
  · exact h id' node hnode

theorem foldl_better_mem (satellite : SatelliteNode) (satellites : List SatelliteNode) :
    satellites.foldl better satellite ∈ satellite :: satellites := by
  induction satellites generalizing satellite with
  | nil => simp
  | cons next satellites ih =>
    have h := ih (better satellite next)
    simp only [List.foldl_cons, List.mem_cons] at h ⊢
    rcases h with h | h
    · rw [h]
      unfold better
      split
      · exact .inr (.inl rfl)
      · exact .inl rfl
    · exact .inr (.inr h)

theorem mem_of_findBestSatellite {scheduler : DefaultSatelliteScheduler} {order : SatelliteOrder}
    {claim : ResourceClaim} {sat : SatelliteNode}
    (h : scheduler.findBestSatellite order claim = some sat) :
    sat ∈ scheduler.satellites.values := by
  unfold findBestSatellite at h
  split at h
  · contradiction
  · next satellite satellites heq =>
    rw [Option.some.injEq] at h
    have hmem := foldl_better_mem satellite satellites
    rw [h, ← heq, List.mem_filter, List.mem_map] at hmem
    obtain ⟨⟨entry, hentry, hsnd⟩, -⟩ := hmem
    exact List.mem_map.mpr ⟨entry, order.mem_order.mp hentry, hsnd⟩

theorem allocate_cases {scheduler : DefaultSatelliteScheduler} (hkeyed : scheduler.Keyed)
    (order : SatelliteOrder) (clock : AllocateClock) (ids : AllocateIds) (claim : ResourceClaim) :
    (∃ e, scheduler.allocate order clock ids claim = (scheduler, .error e)) ∨
    (∃ sat allocator allocation,
      scheduler.satellites.get? sat.satelliteId = some sat ∧
      scheduler.allocate order clock ids claim =
        ({ satellites := scheduler.satellites.insert sat.satelliteId
             (sat.allocate claim ids.task "default" ids.satellite clock.satellite).1
           allocator }, .ok ids.allocation) ∧
      allocator.allocations = scheduler.allocator.allocations ++ [allocation] ∧
      allocation.allocationId = ids.allocation ∧ allocation.resources = claim ∧
      allocator.tenantQuotas = scheduler.allocator.tenantQuotas) := by
  unfold allocate
  cases hbest : scheduler.findBestSatellite order claim with
  | none => exact .inl ⟨_, rfl⟩
  | some sat =>
    obtain ⟨id, hget⟩ := HashMap.mem_values.mp (mem_of_findBestSatellite hbest)
    have hid := hkeyed id sat hget
    subst hid
    rcases scheduler.allocator.allocate_cases claim ids.task "default" .medium
        (TimeWindow.new clock.windowStart (clock.windowBase + claim.duration)) ids.allocation with
      ⟨-, e, hrun⟩ | ⟨-, -, allocator, allocation, hrun, hlist, hid, hres, hquota⟩
    · left
      simp only [hrun]
      exact ⟨_, rfl⟩
    · right
      refine ⟨sat, allocator, allocation, hget, ?_, hlist, hid, hres, hquota⟩
      simp only [hrun, HashMap.modify, hget]

theorem allocationsToMove_mem {scheduler : DefaultSatelliteScheduler} {order : SatelliteOrder}
    {move : SatelliteId × ResourceAllocation} (h : move ∈ scheduler.allocationsToMove order) :
    ∃ sat ∈ scheduler.satellites.values, move.2 ∈ sat.currentAllocations := by
  obtain ⟨⟨id, sat⟩, hentry, hmove⟩ := List.mem_flatMap.mp h
  refine ⟨sat, List.mem_map.mpr ⟨(id, sat), order.mem_order.mp hentry, rfl⟩, ?_⟩
  dsimp only at hmove
  split at hmove
  · obtain ⟨a, ha, rfl⟩ := List.mem_map.mp hmove
    exact (List.mem_filter.mp ha).1
  · contradiction

/-- A move that a rebalance does not carry out: there is no other satellite for the allocation, or
the allocator sees a conflict. -/
def Stays (scheduler : DefaultSatelliteScheduler) (order : SatelliteOrder)
    (move : SatelliteId × ResourceAllocation) : Prop :=
  ∀ target, scheduler.findBestSatellite order move.2.resources = some target →
    target.satelliteId ≠ move.1 →
    (scheduler.allocator.checkConflicts move.2.resources move.2.validWindow
      move.2.tenantId).isSome

/-- A turn with an id unknown to the allocator changes nothing, or it adds a live allocation of the
same claim and leaves the satellites alone. -/
theorem moveAllocation_cases {scheduler : DefaultSatelliteScheduler}
    (hquota : scheduler.allocator.tenantQuotas = ∅) (order : SatelliteOrder)
    (ids : TaskId × AllocationId) (report : RebalanceReport)
    {move : SatelliteId × ResourceAllocation}
    (hnew : scheduler.allocator.find? move.2.allocationId = none) :
    (scheduler.Stays order move ∧
      (moveAllocation order ids (scheduler, report) move).1 = scheduler) ∨
    (¬ scheduler.Stays order move ∧ ∃ allocator allocation,
      (moveAllocation order ids (scheduler, report) move).1 = { scheduler with allocator } ∧
      allocator.allocations = scheduler.allocator.allocations ++ [allocation] ∧
      allocation.allocationId = ids.2 ∧ allocation.resources = move.2.resources ∧
      allocator.tenantQuotas = ∅) := by
  have hroom : scheduler.allocator.exceedsQuota move.2.resources move.2.tenantId = false := by
    simp [ResourceAllocator.exceedsQuota, hquota]
  obtain ⟨source, a⟩ := move
  unfold moveAllocation Stays
  dsimp only at hnew hroom ⊢
  cases hbest : scheduler.findBestSatellite order a.resources with
  | none => exact .inl ⟨by simp, rfl⟩
  | some target =>
    by_cases hsame : target.satelliteId = source
    · refine .inl ⟨?_, by simp [hsame]⟩
      rintro _ ⟨⟩ hne
      exact absurd hsame hne
    simp only [hsame, if_false, ResourceAllocator.release_of_find?_eq_none hnew]
    rcases scheduler.allocator.allocate_cases a.resources ids.1 a.tenantId a.priority
        a.validWindow ids.2 with
      ⟨hwhy, e, hrun⟩ | ⟨-, hnone, allocator, allocation, hrun, hlist, hid, hres, hq⟩
    · left
      rw [hrun]
      refine ⟨?_, rfl⟩
      rintro _ ⟨⟩ -
      rcases hwhy with hexceeds | hconflict
      · rw [hroom] at hexceeds
        contradiction
      · exact hconflict
    · right
      rw [hrun]
      refine ⟨?_, allocator, allocation, rfl, hlist, hid, hres, hq.trans hquota⟩
      intro hall
      have := hall target rfl hsame
      rw [hnone] at this
      contradiction

theorem find?_eq_none_of_append {allocator allocator' : ResourceAllocator}
    {allocation : ResourceAllocation} {id : AllocationId}
    (hlist : allocator'.allocations = allocator.allocations ++ [allocation])
    (hnone : allocator.find? id = none) (hne : allocation.allocationId ≠ id) :
    allocator'.find? id = none := by
  unfold ResourceAllocator.find? at hnone ⊢
  rw [hlist, List.find?_append, hnone]
  simp [hne]

theorem drawn_succ {ids : ℕ → TaskId × AllocationId} {n : ℕ} {id : AllocationId}
    (h : ∃ i < n, id = (ids (i + 1)).2) : ∃ i < n + 1, id = (ids i).2 := by
  obtain ⟨i, hi, heq⟩ := h
  exact ⟨i + 1, by omega, heq⟩

/-- What the second loop of a rebalance does to the live allocations: they stay, and each move that
does not stay adds one.  The ids of the moves are not among those that the loop draws. -/
theorem moveAllocations_spec (order : SatelliteOrder) (report : RebalanceReport)
    (moves : List (SatelliteId × ResourceAllocation)) :
    ∀ (ids : ℕ → TaskId × AllocationId) (scheduler : DefaultSatelliteScheduler),
      scheduler.allocator.tenantQuotas = ∅ →
      (∀ move ∈ moves, scheduler.allocator.find? move.2.allocationId = none ∧
        ∀ i, move.2.allocationId ≠ (ids i).2) →
      ∃ extra, (moveAllocations order ids (scheduler, report) moves).1.allocator.allocations =
          scheduler.allocator.allocations ++ extra ∧
        (moveAllocations order ids (scheduler, report) moves).1.satellites =
          scheduler.satellites ∧
        (moveAllocations order ids (scheduler, report) moves).1.allocator.tenantQuotas = ∅ ∧
        (∀ a ∈ extra, ∃ i < moves.length, a.allocationId = (ids i).2) ∧
        (extra = [] ↔ ∀ move ∈ moves, scheduler.Stays order move) := by
  induction moves generalizing report with
  | nil => exact fun ids scheduler hquota _ => ⟨[], by simp [moveAllocations, hquota]⟩
  | cons move moves ih =>
    intro ids scheduler hquota hnew
    obtain ⟨hmove, hmoves⟩ := List.forall_mem_cons.mp hnew
    obtain ⟨next, report', hturn⟩ : ∃ next report',
        moveAllocation order (ids 0) (scheduler, report) move = (next, report') := ⟨_, _, rfl⟩
    simp only [moveAllocations, hturn]
    rcases moveAllocation_cases hquota order (ids 0) report hmove.1 with
      ⟨hstays, hnext⟩ | ⟨hgoes, allocator, allocation, hnext, hlist, hid, -, hquota'⟩
    · -- the state is as before the turn, so the rest of the loop decides
      rw [hturn] at hnext
      subst hnext
      obtain ⟨extra, hextra, hsats, hq, hids, hiff⟩ :=
        ih report' (fun i => ids (i + 1)) next hquota
          fun m hm => ⟨(hmoves m hm).1, fun i => (hmoves m hm).2 (i + 1)⟩
      refine ⟨extra, hextra, hsats, hq, fun a ha => drawn_succ (hids a ha), ?_⟩
      rw [hiff, List.forall_mem_cons]
      exact ⟨fun h => ⟨hstays, h⟩, And.right⟩
    · rw [hturn] at hnext
      dsimp only at hnext
      subst hnext
      have hunknown : ∀ m ∈ moves, allocator.find? m.2.allocationId = none ∧
          ∀ i, m.2.allocationId ≠ (ids (i + 1)).2 := by
        intro m hm
        obtain ⟨hold, hfree⟩ := hmoves m hm
        have hne : allocation.allocationId ≠ m.2.allocationId := hid ▸ (hfree 0).symm
        exact ⟨find?_eq_none_of_append hlist hold hne, fun i => hfree (i + 1)⟩
      obtain ⟨extra, hextra, hsats, hq, hids, -⟩ :=
        ih report' (fun i => ids (i + 1)) { scheduler with allocator } hquota' hunknown
      refine ⟨allocation :: extra, ?_, hsats, hq, ?_, ?_⟩
      · rw [hextra, hlist, List.append_assoc]
        rfl
      · rintro a (_ | ⟨_, ha⟩)
        · exact ⟨0, by simp, hid⟩
        · exact drawn_succ (hids a ha)
      · simp only [reduceCtorEq, false_iff]
        exact fun hall => hgoes (hall move (by simp))

end DefaultSatelliteScheduler

/-! ### Runs -/

/-- A scheduler, and how many of the ids of the random source are used up. -/
structure System where
  scheduler : DefaultSatelliteScheduler
  issued : ℕ

inductive Call
  | allocate (order : SatelliteOrder) (clock : DefaultSatelliteScheduler.AllocateClock)
      (claim : ResourceClaim)
  | preempt (allocationId : AllocationId) (reason : PreemptionReason)
  | rebalance (order : SatelliteOrder) (now : DateTime)

/-- The ids that an allocation draws from `gen`. -/
def drawIds (gen : ℕ → Uuid) (issued : ℕ) : DefaultSatelliteScheduler.AllocateIds :=
  { task := gen issued, allocation := gen (issued + 1), satellite := gen (issued + 2) }

/-- The ids that the turns of a rebalance draw from `gen`. -/
def drawMoveIds (gen : ℕ → Uuid) (issued turn : ℕ) : TaskId × AllocationId :=
  (gen (issued + 2 * turn), gen (issued + 2 * turn + 1))

/-- The state after a call, where `gen` is the random source of ids. -/
def step (gen : ℕ → Uuid) (s : System) : Call → System
  | .allocate order clock claim =>
    { scheduler := (s.scheduler.allocate order clock (drawIds gen s.issued) claim).1
      issued := s.issued + 3 }
  | .preempt id reason => { s with scheduler := (s.scheduler.preempt id reason).1 }
  | .rebalance order now =>
    { scheduler := (s.scheduler.rebalance order (drawMoveIds gen s.issued) now).1
      issued := s.issued + 2 * (s.scheduler.allocationsToMove order).length }

/-- A satellite without allocations. -/
structure SatelliteNode.Idle (node : SatelliteNode) : Prop where
  ledger : node.currentAllocations = []
  watts : node.powerBudget.allocatedWatts = 0
  bytes : node.storage.usedBytes = 0

/-- A scheduler over satellites without allocations, with none of its own. -/
structure DefaultSatelliteScheduler.Vacant (scheduler : DefaultSatelliteScheduler) : Prop where
  keyed : scheduler.Keyed
  allocator : scheduler.allocator = .new
  idle : ∀ sat ∈ scheduler.satellites.values, sat.Idle

theorem DefaultSatelliteScheduler.Vacant.addSatellite {scheduler : DefaultSatelliteScheduler}
    (h : scheduler.Vacant) {sat : SatelliteNode} (hsat : sat.Idle) :
    (scheduler.addSatellite sat).Vacant := by
  constructor
  · exact h.keyed.insert rfl _
  · exact h.allocator
  · intro node hnode
    rcases HashMap.mem_values_of_insert hnode with rfl | hold
    · exact hsat
    · exact h.idle node hold

def System.new (satellites : List SatelliteNode) : System :=
  { scheduler := satellites.foldl (·.addSatellite ·) .new, issued := 0 }

theorem System.vacant_new {satellites : List SatelliteNode} (hidle : ∀ sat ∈ satellites, sat.Idle) :
    (System.new satellites).scheduler.Vacant := by
  refine List.foldlRecOn (motive := DefaultSatelliteScheduler.Vacant) satellites _ ?_ ?_
  · constructor
    · simp [DefaultSatelliteScheduler.Keyed, DefaultSatelliteScheduler.new]
    · rfl
    · simp [DefaultSatelliteScheduler.new, HashMap.values]
  · exact fun scheduler h sat hsat => h.addSatellite (hidle sat hsat)

/-- What holds in every run: the ids of the two levels are distinct, and all from the source. -/
structure Sound (gen : ℕ → Uuid) (s : System) : Prop where
  keyed : s.scheduler.Keyed
  noQuota : s.scheduler.allocator.tenantQuotas = ∅
  liveIssued : ∀ a ∈ s.scheduler.allocator.allocations, ∃ i < s.issued, a.allocationId = gen i
  ledgerIssued : ∀ sat ∈ s.scheduler.satellites.values, ∀ a ∈ sat.currentAllocations,
    ∃ i < s.issued, a.allocationId = gen i
  disjoint : ∀ a ∈ s.scheduler.allocator.allocations, ∀ sat ∈ s.scheduler.satellites.values,
    ∀ b ∈ sat.currentAllocations, a.allocationId ≠ b.allocationId

namespace Sound

variable {gen : ℕ → Uuid} {s : System}

theorem find?_eq_none (h : Sound gen s) {sat : SatelliteNode}
    (hsat : sat ∈ s.scheduler.satellites.values) {b : ResourceAllocation}
    (hb : b ∈ sat.currentAllocations) : s.scheduler.allocator.find? b.allocationId = none := by
  refine List.find?_eq_none.mpr fun a ha => ?_
  simpa using h.disjoint a ha sat hsat b hb

/-- An id that the allocator knows is on no satellite's ledger. -/
theorem release_eq_self (h : Sound gen s) {id : AllocationId} {a : ResourceAllocation}
    (hfind : s.scheduler.allocator.find? id = some a) :
    s.scheduler.satellites.mapValues (·.release id) = s.scheduler.satellites := by
  refine HashMap.mapValues_eq_self fun sat hsat => ?_
  have hnone : sat.currentAllocations.find? (fun b => b.allocationId = id) = none := by
    refine List.find?_eq_none.mpr fun b hb => ?_
    have hid : a.allocationId = id := by simpa using List.find?_some hfind
    have hne := h.disjoint a (List.mem_of_find?_eq_some hfind) sat hsat b hb
    rw [hid] at hne
    simpa using hne.symm
  simp [SatelliteNode.release, hnone]

theorem ne_gen (hgen : Function.Injective gen) {a : ResourceAllocation}
    (h : ∃ i < s.issued, a.allocationId = gen i) {n : ℕ} (hn : s.issued ≤ n) :
    a.allocationId ≠ gen n := by
  obtain ⟨i, hi, heq⟩ := h
  rw [heq]
  exact fun hsame => by have := hgen hsame; omega

/-- What a rebalance does: it adds a live allocation for each move that does not stay. -/
theorem rebalance_spec (hgen : Function.Injective gen) (h : Sound gen s) (order : SatelliteOrder)
    (now : DateTime) :
    ∃ extra, (Resource.step gen s (.rebalance order now)).scheduler.allocator.allocations =
        s.scheduler.allocator.allocations ++ extra ∧
      (Resource.step gen s (.rebalance order now)).scheduler.satellites =
        s.scheduler.satellites ∧
      (Resource.step gen s (.rebalance order now)).scheduler.allocator.tenantQuotas = ∅ ∧
      (∀ a ∈ extra, ∃ i < (s.scheduler.allocationsToMove order).length,
        a.allocationId = gen (s.issued + 2 * i + 1)) ∧
      (extra = [] ↔ ∀ move ∈ s.scheduler.allocationsToMove order,
        s.scheduler.Stays order move) := by
  refine DefaultSatelliteScheduler.moveAllocations_spec order _ _ _ _ h.noQuota ?_
  intro move hmove
  obtain ⟨sat, hsat, ha⟩ := DefaultSatelliteScheduler.allocationsToMove_mem hmove
  exact ⟨h.find?_eq_none hsat ha, fun i =>
    ne_gen hgen (h.ledgerIssued sat hsat _ ha) (by omega)⟩

/-- An id that was drawn stays one when more are drawn. -/
theorem issued_mono {m n : ℕ} {id : Uuid} (hle : m ≤ n) (h : ∃ i < m, id = gen i) :
    ∃ i < n, id = gen i := by
  obtain ⟨i, hi, heq⟩ := h
  exact ⟨i, by omega, heq⟩

/-- What is on the ledgers after an allocation on one of the satellites. -/
theorem mem_currentAllocations_of_insert {satellites : HashMap SatelliteId SatelliteNode}
    {sat node : SatelliteNode} {claim : ResourceClaim} {taskId : TaskId} {tenantId : TenantId}
    {id : AllocationId} {now : DateTime × DateTime} {b : ResourceAllocation}
    (hget : satellites.get? sat.satelliteId = some sat)
    (hnode : node ∈ (satellites.insert sat.satelliteId
      (sat.allocate claim taskId tenantId id now).1).values)
    (hb : b ∈ node.currentAllocations) :
    b.allocationId = id ∨ ∃ node ∈ satellites.values, b ∈ node.currentAllocations := by
  rcases HashMap.mem_values_of_insert hnode with rfl | hold
  · rcases List.mem_append.mp hb with hb | hb
    · exact .inr ⟨sat, HashMap.mem_values.mpr ⟨_, hget⟩, hb⟩
    · rw [List.mem_singleton.mp hb]
      exact .inl rfl
  · exact .inr ⟨node, hold, hb⟩

/-- An allocation draws three ids, of which each level keeps one. -/
theorem step_allocate (hgen : Function.Injective gen) (h : Sound gen s) (order : SatelliteOrder)
    (clock : DefaultSatelliteScheduler.AllocateClock) (claim : ResourceClaim) :
    Sound gen (Resource.step gen s (.allocate order clock claim)) := by
  obtain ⟨scheduler, issued⟩ := s
  have hlater : ∀ a : ResourceAllocation, (∃ i < issued, a.allocationId = gen i) →
      ∃ i < issued + 3, a.allocationId = gen i :=
    fun a => issued_mono (Nat.le_add_right issued 3)
  rcases DefaultSatelliteScheduler.allocate_cases h.keyed order clock (drawIds gen issued)
      claim with ⟨e, hrun⟩ | ⟨sat, allocator, allocation, hget, hrun, hlist, hid, -, hquota⟩
  · simp only [Resource.step, hrun]
    exact { h with
      liveIssued := fun a ha => hlater a (h.liveIssued a ha)
      ledgerIssued := fun sat hsat a ha => hlater a (h.ledgerIssued sat hsat a ha) }
  simp only [Resource.step, hrun]
  have hlive : ∀ a ∈ allocator.allocations,
      a.allocationId = gen (issued + 1) ∨ a ∈ scheduler.allocator.allocations := by
    intro a ha
    rw [hlist] at ha
    rcases List.mem_append.mp ha with ha | ha
    · exact .inr ha
    · rw [List.mem_singleton.mp ha]
      exact .inl hid
  constructor
  · refine h.keyed.insert ?_ allocator
    rfl
  · exact hquota.trans h.noQuota
  · intro a ha
    rcases hlive a ha with heq | hold
    · exact ⟨issued + 1, by dsimp only; omega, heq⟩
    · exact hlater a (h.liveIssued a hold)
  · intro node hnode b hb
    rcases mem_currentAllocations_of_insert hget hnode hb with heq | ⟨old, hold, hb⟩
    · exact ⟨issued + 2, by dsimp only; omega, heq⟩
    · exact hlater b (h.ledgerIssued old hold b hb)
  · intro a ha node hnode b hb
    rcases hlive a ha with heq | holda <;>
      rcases mem_currentAllocations_of_insert hget hnode hb with heqb | ⟨old, hold, hb⟩
    · rw [heq, heqb]
      exact fun hsame => by have := hgen hsame; omega
    · rw [heq]
      exact (ne_gen (s := ⟨scheduler, issued⟩) hgen (h.ledgerIssued old hold b hb)
        (by dsimp only; omega)).symm
    · rw [heqb]
      exact ne_gen (s := ⟨scheduler, issued⟩) hgen (h.liveIssued a holda) (by dsimp only; omega)
    · exact h.disjoint a holda old hold b hb

theorem step_preempt (h : Sound gen s) (id : AllocationId) (reason : PreemptionReason) :
    Sound gen (Resource.step gen s (.preempt id reason)) := by
  rcases s.scheduler.allocator.preempt_cases id reason with
    ⟨-, e, hrun⟩ | ⟨allocator, a, hfind, -, hrun, hlist, hquota⟩
  · simpa only [Resource.step, DefaultSatelliteScheduler.preempt, hrun] using h
  · simp only [Resource.step, DefaultSatelliteScheduler.preempt, hrun, h.release_eq_self hfind]
    have hlive : ∀ a ∈ allocator.allocations, a ∈ s.scheduler.allocator.allocations := by
      intro a ha
      rw [hlist] at ha
      exact List.mem_of_mem_eraseP ha
    exact {
      keyed := h.keyed
      noQuota := hquota.trans h.noQuota
      liveIssued := fun a ha => h.liveIssued a (hlive a ha)
      ledgerIssued := h.ledgerIssued
      disjoint := fun a ha => h.disjoint a (hlive a ha) }

theorem step_rebalance (hgen : Function.Injective gen) (h : Sound gen s) (order : SatelliteOrder)
    (now : DateTime) : Sound gen (Resource.step gen s (.rebalance order now)) := by
  obtain ⟨extra, hlist, hsats, hquota, hids, -⟩ := rebalance_spec hgen h order now
  have hissued : (Resource.step gen s (.rebalance order now)).issued =
      s.issued + 2 * (s.scheduler.allocationsToMove order).length := rfl
  have hle : s.issued ≤ s.issued + 2 * (s.scheduler.allocationsToMove order).length :=
    Nat.le_add_right _ _
  constructor
  · intro id node hnode
    rw [hsats] at hnode
    exact h.keyed id node hnode
  · exact hquota
  · intro a ha
    rw [hlist] at ha
    rw [hissued]
    rcases List.mem_append.mp ha with hold | hnew
    · exact issued_mono hle (h.liveIssued a hold)
    · obtain ⟨i, hi, heq⟩ := hids a hnew
      exact ⟨s.issued + 2 * i + 1, by omega, heq⟩
  · intro node hnode b hb
    rw [hsats] at hnode
    rw [hissued]
    exact issued_mono hle (h.ledgerIssued node hnode b hb)
  · intro a ha node hnode b hb
    rw [hlist] at ha
    rw [hsats] at hnode
    rcases List.mem_append.mp ha with hold | hnew
    · exact h.disjoint a hold node hnode b hb
    · obtain ⟨i, -, heq⟩ := hids a hnew
      rw [heq]
      exact (ne_gen hgen (h.ledgerIssued node hnode b hb) (by omega)).symm

theorem step (hgen : Function.Injective gen) (h : Sound gen s) (call : Call) :
    Sound gen (Resource.step gen s call) := by
  cases call with
  | allocate order clock claim => exact h.step_allocate hgen order clock claim
  | preempt id reason => exact h.step_preempt id reason
  | rebalance order now => exact h.step_rebalance hgen order now

theorem of_vacant (gen : ℕ → Uuid) (h : s.scheduler.Vacant) : Sound gen s := by
  have hlive : s.scheduler.allocator.allocations = [] := by rw [h.allocator]; rfl
  constructor
  · exact h.keyed
  · rw [h.allocator]
    rfl
  · simp [hlive]
  · intro sat hsat b hb
    rw [(h.idle sat hsat).ledger] at hb
    contradiction
  · simp [hlive]

end Sound

end GroundCore.Oisl.Resource
