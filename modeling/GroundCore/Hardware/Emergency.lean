import Mathlib.Data.List.Nodup
import GroundCore.Core.Types
import GroundCore.Lib.Run

/-! The pool of emergency shards.  A claim takes the first shard that is not in use; who holds it
is known to the caller alone. -/

namespace GroundCore.Hardware

open Lib

structure EmergencyShard where
  inUse : Bool
  /-- Seconds from the epoch, as a `usize`. -/
  lastClaimed : UInt64
  size : ℕ
  deriving DecidableEq

namespace EmergencyShard

def new (size : ℕ) : EmergencyShard := { inUse := false, lastClaimed := 0, size }

def claim (shard : EmergencyShard) (now : DateTime) : EmergencyShard × Result Unit :=
  if shard.inUse then
    ({ shard with inUse := true }, .error (.hardware "Emergency shard already in use"))
  else
    let timestamp : ℤ := now / 1000000000
    ({ shard with inUse := true, lastClaimed := UInt64.ofInt timestamp }, .ok ())

def release (shard : EmergencyShard) : EmergencyShard := { shard with inUse := false }

def isAvailable (shard : EmergencyShard) : Bool := !shard.inUse

end EmergencyShard

structure EmergencyShardPool where
  shards : List EmergencyShard
  totalSize : ℕ

namespace EmergencyShardPool

def new (shardCount shardSize : ℕ) : EmergencyShardPool :=
  { shards := List.replicate shardCount (.new shardSize), totalSize := shardCount * shardSize }

/-- The loop of `claim` over the shards from the index `i` on. -/
def claimFrom (now : DateTime) (i : ℕ) : List EmergencyShard → List EmergencyShard × Result ℕ
  | [] => ([], .error (.hardware "No emergency shards available"))
  | shard :: shards =>
    if shard.isAvailable then
      match shard.claim now with
      | (shard, .ok _) => (shard :: shards, .ok i)
      | (shard, .error e) => (shard :: shards, .error e)
    else
      let (shards, result) := claimFrom now (i + 1) shards
      (shard :: shards, result)

def claim (pool : EmergencyShardPool) (now : DateTime) : EmergencyShardPool × Result ℕ :=
  let (shards, result) := claimFrom now 0 pool.shards
  ({ pool with shards }, result)

/-- An index without a shard is passed over. -/
def release (pool : EmergencyShardPool) (index : ℕ) : EmergencyShardPool :=
  { pool with shards := pool.shards.modify index EmergencyShard.release }

def availableCount (pool : EmergencyShardPool) : ℕ := pool.shards.countP (·.isAvailable)

def totalCount (pool : EmergencyShardPool) : ℕ := pool.shards.length

/-- Which shards are in use. -/
def flags (pool : EmergencyShardPool) : List Bool := pool.shards.map (·.inUse)

variable {pool : EmergencyShardPool} {shards : List EmergencyShard}

theorem availableCount_eq (pool : EmergencyShardPool) :
    pool.availableCount = pool.flags.count false := by
  rw [flags, List.count, List.countP_map]
  refine List.countP_congr fun shard _ => ?_
  cases h : shard.inUse <;> simp [EmergencyShard.isAvailable, h]

theorem totalCount_eq (pool : EmergencyShardPool) : pool.totalCount = pool.flags.length :=
  (List.length_map _).symm

/-- The first shard that is not in use is claimed, if there is one. -/
theorem claimFrom_cases (now : DateTime) (i : ℕ) (shards : List EmergencyShard) :
    (∃ k, (shards.map (·.inUse))[k]? = some false ∧ (claimFrom now i shards).2 = .ok (i + k) ∧
      (claimFrom now i shards).1.map (·.inUse) = (shards.map (·.inUse)).set k true) ∨
    (∀ shard ∈ shards, shard.inUse = true) ∧ (claimFrom now i shards).1 = shards ∧
      ∃ e, (claimFrom now i shards).2 = .error e := by
  induction shards generalizing i with
  | nil => exact .inr ⟨nofun, rfl, _, rfl⟩
  | cons shard shards ih =>
    cases huse : shard.inUse with
    | false =>
      exact .inl ⟨0, by simp [claimFrom, EmergencyShard.isAvailable, EmergencyShard.claim, huse]⟩
    | true =>
      have hstep : claimFrom now i (shard :: shards) =
          (shard :: (claimFrom now (i + 1) shards).1, (claimFrom now (i + 1) shards).2) := by
        simp [claimFrom, EmergencyShard.isAvailable, huse]
      rw [hstep]
      rcases ih (i + 1) with ⟨k, hget, hresult, hflags⟩ | ⟨hall, hsame, hresult⟩
      · refine .inl ⟨k + 1, by simpa using hget, ?_, by simp [hflags]⟩
        rw [hresult, Nat.add_assoc, Nat.add_comm 1 k]
      · refine .inr ⟨List.forall_mem_cons.mpr ⟨huse, hall⟩, ?_, hresult⟩
        rw [hsame]

/-- What a claim does to the pool. -/
theorem claim_cases (pool : EmergencyShardPool) (now : DateTime) :
    (∃ k, pool.flags[k]? = some false ∧ (pool.claim now).2 = .ok k ∧
      (pool.claim now).1.flags = pool.flags.set k true) ∨
    pool.availableCount = 0 ∧ (pool.claim now).1 = pool ∧ ∃ e, (pool.claim now).2 = .error e := by
  rcases claimFrom_cases now 0 pool.shards with ⟨k, hget, hresult, hflags⟩ | ⟨hall, hsame, hresult⟩
  · exact .inl ⟨k, hget, by rw [claim, hresult, Nat.zero_add], hflags⟩
  · have hpool : (pool.claim now).1 = pool :=
      congrArg (fun shards => { pool with shards }) hsame
    refine .inr ⟨?_, hpool, hresult⟩
    refine List.countP_eq_zero.mpr fun shard hshard => ?_
    simp [EmergencyShard.isAvailable, hall shard hshard]

theorem flags_release (pool : EmergencyShardPool) (index : ℕ) :
    (pool.release index).flags = pool.flags.set index false := by
  refine List.ext_getElem? fun i => ?_
  simp only [flags, release, List.getElem?_map, List.getElem?_modify, List.getElem?_set]
  by_cases h : index = i
  · subst h
    cases hget : pool.shards[index]? with
    | none => simp [List.getElem?_eq_none_iff.mp hget]
    | some shard => simp [(List.getElem?_eq_some_iff.mp hget).1, EmergencyShard.release]
  · simp [h]

/-- A claim fails exactly when no shard is available. -/
theorem claim_error_iff (pool : EmergencyShardPool) (now : DateTime) :
    (∃ e, (pool.claim now).2 = .error e) ↔ pool.availableCount = 0 := by
  rcases pool.claim_cases now with ⟨k, hget, hresult, -⟩ | ⟨hzero, -, hresult⟩
  · rw [hresult, availableCount_eq, List.count_eq_zero]
    have hmem : false ∈ pool.flags := List.mem_of_getElem? hget
    simp [hmem]
  · exact iff_of_true hresult hzero

end EmergencyShardPool

/-! ### Flags that are set and cleared -/

section Flags

variable {flags : List Bool} {k i : ℕ}

theorem count_set_true (h : flags[k]? = some false) :
    (flags.set k true).count false + 1 = flags.count false := by
  obtain ⟨hlt, hget⟩ := List.getElem?_eq_some_iff.mp h
  have hpos : 0 < flags.count false := List.count_pos_iff.mpr (List.mem_of_getElem? h)
  rw [List.count_set hlt, hget]
  simp
  omega

theorem count_set_false (h : flags[k]? = some true) :
    (flags.set k false).count false = flags.count false + 1 := by
  obtain ⟨hlt, hget⟩ := List.getElem?_eq_some_iff.mp h
  rw [List.count_set hlt, hget]
  simp

theorem getElem?_set_true_iff (h : flags[k]? = some false) :
    (flags.set k true)[i]? = some true ↔ i = k ∨ flags[i]? = some true := by
  have hlt := (List.getElem?_eq_some_iff.mp h).1
  by_cases heq : k = i
  · subst heq
    simp [hlt]
  · simp [List.getElem?_set_ne heq, Ne.symm heq]

theorem getElem?_set_false_iff (h : flags[k]? = some true) :
    (flags.set k false)[i]? = some true ↔ i ≠ k ∧ flags[i]? = some true := by
  have hlt := (List.getElem?_eq_some_iff.mp h).1
  by_cases heq : k = i
  · subst heq
    simp [hlt]
  · simp [List.getElem?_set_ne heq, Ne.symm heq]

end Flags

/-! ### Claims that are held -/

inductive PoolCall
  | claim (now : DateTime)
  | release (index : ℕ)

/-- A pool with the indices that its callers hold. -/
structure HeldPool where
  pool : EmergencyShardPool
  held : List ℕ

namespace HeldPool

def start (shardCount shardSize : ℕ) : HeldPool := ⟨.new shardCount shardSize, []⟩

def step (s : HeldPool) : PoolCall → HeldPool
  | .claim now =>
    match s.pool.claim now with
    | (pool, .ok index) => ⟨pool, index :: s.held⟩
    | (pool, .error _) => ⟨pool, s.held⟩
  | .release index => ⟨s.pool.release index, s.held.erase index⟩

/-- Only what is held is released. -/
def OnHeld (s : HeldPool) : PoolCall → Prop
  | .claim _ => True
  | .release index => index ∈ s.held

structure Accounted (s : HeldPool) : Prop where
  nodup : s.held.Nodup
  inUse : ∀ index, index ∈ s.held ↔ s.pool.flags[index]? = some true
  total : s.pool.availableCount + s.held.length = s.pool.totalCount

variable {s : HeldPool} {call : PoolCall} {calls : List PoolCall}

theorem accounted_start (shardCount shardSize : ℕ) : Accounted (start shardCount shardSize) where
  nodup := .nil
  inUse index := by
    simp [start, EmergencyShardPool.flags, EmergencyShardPool.new, EmergencyShard.new,
      List.getElem?_replicate]
  total := by
    simp [start, EmergencyShardPool.availableCount, EmergencyShardPool.totalCount,
      EmergencyShardPool.new, EmergencyShard.new, EmergencyShard.isAvailable, List.countP_replicate]

theorem step_claim_ok {now : DateTime} {k : ℕ} (h : (s.pool.claim now).2 = .ok k) :
    s.step (.claim now) = ⟨(s.pool.claim now).1, k :: s.held⟩ := by
  rcases hclaim : s.pool.claim now with ⟨pool, result⟩
  obtain rfl : result = .ok k := by rw [← h, hclaim]
  simp only [step, hclaim]

theorem step_claim_error {now : DateTime} {e : GroundStationError}
    (h : (s.pool.claim now).2 = .error e) :
    s.step (.claim now) = ⟨(s.pool.claim now).1, s.held⟩ := by
  rcases hclaim : s.pool.claim now with ⟨pool, result⟩
  obtain rfl : result = .error e := by rw [← h, hclaim]
  simp only [step, hclaim]

/-- A claim or a release on held indices keeps the account. -/
theorem Accounted.step (h : s.Accounted) (hcall : s.OnHeld call) : (s.step call).Accounted := by
  cases call with
  | claim now =>
    rcases s.pool.claim_cases now with ⟨k, hget, hresult, hflags⟩ | ⟨-, hsame, e, hresult⟩
    · have hnot : k ∉ s.held := fun hk => by simp [(h.inUse k).mp hk] at hget
      have hcount := count_set_true hget
      have htotal := h.total
      rw [EmergencyShardPool.availableCount_eq, EmergencyShardPool.totalCount_eq] at htotal
      rw [step_claim_ok hresult]
      constructor
      · exact List.nodup_cons.mpr ⟨hnot, h.nodup⟩
      · intro index
        rw [hflags, List.mem_cons, h.inUse, getElem?_set_true_iff hget]
      · rw [EmergencyShardPool.availableCount_eq, EmergencyShardPool.totalCount_eq, hflags,
          List.length_set, List.length_cons]
        omega
    · rw [step_claim_error hresult, hsame]
      exact h
  | release index =>
    have hget := (h.inUse index).mp hcall
    have hcount := count_set_false hget
    have hlength := List.length_erase_add_one hcall
    have htotal := h.total
    rw [EmergencyShardPool.availableCount_eq, EmergencyShardPool.totalCount_eq] at htotal
    have hflags := s.pool.flags_release index
    constructor
    · exact h.nodup.erase index
    · intro other
      show other ∈ s.held.erase index ↔ (s.pool.release index).flags[other]? = some true
      rw [hflags, h.nodup.mem_erase_iff, h.inUse, getElem?_set_false_iff hget]
    · show (s.pool.release index).availableCount + (s.held.erase index).length =
        (s.pool.release index).totalCount
      rw [EmergencyShardPool.availableCount_eq, EmergencyShardPool.totalCount_eq, hflags,
        List.length_set]
      omega

theorem Accounted.run (h : s.Accounted) (hcalls : Along HeldPool.step OnHeld s calls) :
    (Lib.run HeldPool.step s calls).Accounted := by
  induction calls generalizing s with
  | nil => exact h
  | cons call calls ih => exact ih (h.step hcalls.1) hcalls.2

end HeldPool

end GroundCore.Hardware
