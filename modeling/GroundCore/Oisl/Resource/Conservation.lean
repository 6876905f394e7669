import Mathlib.Algebra.BigOperators.Group.List.Basic
import Mathlib.Algebra.Ring.Rat
import Mathlib.Tactic.Linarith
import GroundCore.Oisl.Resource.System

/-! Conservation of resources: what is charged to the satellites against what the live allocations
of the constellation-wide allocator demand. -/

namespace GroundCore.Oisl.Resource

open Lib

def ResourceClaim.bytes {F64 : Type} (claim : ResourceClaim F64) : ℕ := claim.storageBytes.getD 0

namespace System

variable {M : Type} [AddCommMonoid M]

/-- The total of a charge over the satellites. -/
def charged (charge : SatelliteNode → M) (s : System) : M :=
  (s.scheduler.satellites.values.map charge).sum

/-- The total of a demand over the live allocations. -/
def live (demand : ResourceClaim → M) (s : System) : M :=
  (s.scheduler.allocator.allocations.map fun a => demand a.resources).sum

end System

/-- The claims of the live allocations. -/
def System.claims (s : System) : List ResourceClaim :=
  s.scheduler.allocator.allocations.map (·.resources)

structure Conserved (s : System) : Prop where
  power : s.charged (·.powerBudget.allocatedWatts) = s.live (·.powerWatts)
  storage : s.charged (·.storage.usedBytes) = s.live (·.bytes)

/-- After the call the resources are conserved, and if it is a rebalance then it has neither
duplicated nor lost a live allocation. -/
def Conserves (gen : ℕ → Uuid) (s : System) (call : Call) : Prop :=
  Conserved (step gen s call) ∧
    match call with
    | .rebalance _ _ => (step gen s call).claims.Perm s.claims
    | _ => True

/-- The calls that conserve the resources: an allocation, a preemption that fails or takes a demand
of nothing, and a rebalance in which every allocation stays. -/
def Sustains (s : System) : Call → Prop
  | .allocate _ _ _ => True
  | .preempt id _ => ∀ a, s.scheduler.allocator.find? id = some a → a.canPreempt →
      a.resources.powerWatts = 0 ∧ a.resources.bytes = 0
  | .rebalance order _ =>
    ∀ move ∈ s.scheduler.allocationsToMove order, s.scheduler.Stays order move

/-! ### The totals after a call -/

section

variable {M : Type} [AddCommMonoid M] {gen : ℕ → Uuid} {s : System}

theorem sum_eraseP {α : Type} {l : List α} {p : α → Bool} {a : α} (h : l.find? p = some a)
    (f : α → M) : f a + ((l.eraseP p).map f).sum = (l.map f).sum := by
  induction l with
  | nil => contradiction
  | cons b l ih =>
    by_cases hb : p b
    · rw [List.find?_cons_of_pos hb, Option.some.injEq] at h
      rw [List.eraseP_cons_of_pos hb, h, List.map_cons, List.sum_cons]
    · rw [List.find?_cons_of_neg hb] at h
      rw [List.eraseP_cons_of_neg hb, List.map_cons, List.map_cons, List.sum_cons, List.sum_cons,
        ← ih h]
      exact add_left_comm _ _ _

/-- An allocation adds its demand to both totals, or to none. -/
theorem totals_allocate (h : Sound gen s) (charge : SatelliteNode → M)
    (demand : ResourceClaim → M) (hcharge : ∀ sat claim task tenant id now,
      charge (SatelliteNode.allocate sat claim task tenant id now).1 = charge sat + demand claim)
    (order : SatelliteOrder) (clock : DefaultSatelliteScheduler.AllocateClock)
    (claim : ResourceClaim) :
    ∃ amount, (step gen s (.allocate order clock claim)).charged charge =
        s.charged charge + amount ∧
      (step gen s (.allocate order clock claim)).live demand = s.live demand + amount := by
  rcases DefaultSatelliteScheduler.allocate_cases h.keyed order clock (drawIds gen s.issued)
      claim with ⟨e, hrun⟩ | ⟨sat, allocator, allocation, hget, hrun, hlist, -, hres, -⟩
  · refine ⟨0, ?_, ?_⟩ <;> simp only [step, hrun, System.charged, System.live, add_zero]
  · refine ⟨demand claim, ?_, ?_⟩
    · have hsum := ((HashMap.values_perm_erase hget).map charge).sum_eq
      simp only [step, hrun, System.charged, HashMap.values_insert]
      rw [hsum, List.map_cons, List.map_cons, List.sum_cons, List.sum_cons, hcharge]
      exact add_right_comm _ _ _
    · simp [step, hrun, System.live, hlist, hres]

/-- A preemption takes the demand of its allocation off the live total alone. -/
theorem totals_preempt (h : Sound gen s) (charge : SatelliteNode → M)
    (demand : ResourceClaim → M) (id : AllocationId) (reason : PreemptionReason) :
    (step gen s (.preempt id reason)).charged charge = s.charged charge ∧
      (((∀ a, s.scheduler.allocator.find? id = some a → a.canPreempt = false) ∧
          (step gen s (.preempt id reason)).live demand = s.live demand) ∨
        ∃ a, s.scheduler.allocator.find? id = some a ∧ a.canPreempt ∧
          demand a.resources + (step gen s (.preempt id reason)).live demand =
            s.live demand) := by
  obtain ⟨scheduler, issued⟩ := s
  rcases scheduler.allocator.preempt_cases id reason with
    ⟨hno, e, hrun⟩ | ⟨allocator, a, hfind, hcan, hrun, hlist, -⟩
  · have hstep : step gen ⟨scheduler, issued⟩ (.preempt id reason) = ⟨scheduler, issued⟩ := by
      simp only [step, DefaultSatelliteScheduler.preempt, hrun]
    rw [hstep]
    exact ⟨rfl, .inl ⟨hno, rfl⟩⟩
  · have hsats := h.release_eq_self hfind
    have hstep : step gen ⟨scheduler, issued⟩ (.preempt id reason) =
        ⟨{ scheduler with allocator }, issued⟩ := by
      simp only [step, DefaultSatelliteScheduler.preempt, hrun, hsats]
    rw [hstep]
    refine ⟨rfl, .inr ⟨a, hfind, hcan, ?_⟩⟩
    simp only [System.live, hlist]
    exact sum_eraseP hfind fun a => demand a.resources

end

/-! ### Runs -/

section

variable {gen : ℕ → Uuid} {s : System}

theorem conserved_allocate (h : Sound gen s) (hs : Conserved s) (order : SatelliteOrder)
    (clock : DefaultSatelliteScheduler.AllocateClock) (claim : ResourceClaim) :
    Conserved (step gen s (.allocate order clock claim)) := by
  constructor
  · obtain ⟨amount, hcharged, hlive⟩ := totals_allocate h (·.powerBudget.allocatedWatts)
      (·.powerWatts) (fun _ _ _ _ _ _ => rfl) order clock claim
    rw [hcharged, hlive, hs.power]
  · obtain ⟨amount, hcharged, hlive⟩ := totals_allocate h (·.storage.usedBytes)
      (·.bytes) (fun _ _ _ _ _ _ => rfl) order clock claim
    rw [hcharged, hlive, hs.storage]

theorem conserved_preempt_iff (h : Sound gen s) (hs : Conserved s) (id : AllocationId)
    (reason : PreemptionReason) :
    Conserved (step gen s (.preempt id reason)) ↔ Sustains s (.preempt id reason) := by
  obtain ⟨hpower, hpower'⟩ := totals_preempt h (·.powerBudget.allocatedWatts) (·.powerWatts) id
    reason
  obtain ⟨hbytes, hbytes'⟩ := totals_preempt h (·.storage.usedBytes) (·.bytes) id reason
  rcases hpower' with ⟨hno, hlive⟩ | ⟨a, hfind, hcan, hlive⟩
  · rcases hbytes' with ⟨-, hlive'⟩ | ⟨b, hfind', hcan', -⟩
    · refine ⟨fun _ a hfind hcan => ?_, fun _ => ⟨?_, ?_⟩⟩
      · rw [hno a hfind] at hcan
        contradiction
      · rw [hpower, hlive, hs.power]
      · rw [hbytes, hlive', hs.storage]
    · rw [hno b hfind'] at hcan'
      contradiction
  · rcases hbytes' with ⟨hno, -⟩ | ⟨b, hfind', -, hlive'⟩
    · rw [hno a hfind] at hcan
      contradiction
    · rw [hfind, Option.some.injEq] at hfind'
      subst hfind'
      have hp := hs.power
      have hb := hs.storage
      constructor
      · intro hafter c hfindc _
        rw [hfind, Option.some.injEq] at hfindc
        subst hfindc
        have hp' := hafter.power
        have hb' := hafter.storage
        exact ⟨by linarith, by omega⟩
      · intro hzero
        obtain ⟨hzp, hzb⟩ := hzero a hfind hcan
        exact ⟨by linarith, by omega⟩

theorem conserves_rebalance_iff (hgen : Function.Injective gen) (h : Sound gen s)
    (hs : Conserved s) (order : SatelliteOrder) (now : DateTime) :
    Conserves gen s (.rebalance order now) ↔ Sustains s (.rebalance order now) := by
  obtain ⟨extra, hlist, hsats, -, -, hiff⟩ := h.rebalance_spec hgen order now
  have hclaims : (step gen s (.rebalance order now)).claims =
      s.claims ++ extra.map (·.resources) := by
    simp only [System.claims, hlist, List.map_append]
  show Conserved _ ∧ _ ↔ ∀ move ∈ s.scheduler.allocationsToMove order, _
  rw [← hiff]
  constructor
  · rintro ⟨-, hperm⟩
    dsimp only at hperm
    rw [hclaims] at hperm
    have hlength := hperm.length_eq
    simpa using hlength
  · rintro rfl
    refine ⟨⟨?_, ?_⟩, ?_⟩
    · simp only [System.charged, System.live, hsats, hlist, List.append_nil]
      exact hs.power
    · simp only [System.charged, System.live, hsats, hlist, List.append_nil]
      exact hs.storage
    · dsimp only
      rw [hclaims, List.map_nil, List.append_nil]

theorem conserves_iff_sustains (hgen : Function.Injective gen) (h : Sound gen s)
    (hs : Conserved s) (call : Call) : Conserves gen s call ↔ Sustains s call := by
  cases call with
  | allocate order clock claim =>
    exact ⟨fun _ => trivial, fun _ => ⟨conserved_allocate h hs order clock claim, trivial⟩⟩
  | preempt id reason =>
    rw [← conserved_preempt_iff h hs id reason]
    exact ⟨And.left, fun hc => ⟨hc, trivial⟩⟩
  | rebalance order now => exact conserves_rebalance_iff hgen h hs order now

theorem conserved_of_vacant (h : s.scheduler.Vacant) : Conserved s := by
  have hlive : s.scheduler.allocator.allocations = [] := by rw [h.allocator]; rfl
  have hcharged : ∀ {M : Type} [AddCommMonoid M] (charge : SatelliteNode → M),
      (∀ sat : SatelliteNode, sat.Idle → charge sat = 0) → s.charged charge = 0 := by
    intro M _ charge hzero
    refine List.sum_eq_zero ?_
    intro x hx
    obtain ⟨sat, hsat, rfl⟩ := List.mem_map.mp hx
    exact hzero sat (h.idle sat hsat)
  constructor
  · rw [hcharged _ fun sat hsat => hsat.watts]
    simp [System.live, hlive]
  · rw [hcharged _ fun sat hsat => hsat.bytes]
    simp [System.live, hlive]

/-- From satellites without allocations, the resources are conserved at every call of a run exactly
when every call of the run is one that sustains them. -/
theorem conserves_iff (hgen : Function.Injective gen) {satellites : List SatelliteNode}
    (hidle : ∀ sat ∈ satellites, sat.Idle) (calls : List Call) :
    Along (step gen) (Conserves gen) (System.new satellites) calls ↔
      Along (step gen) Sustains (System.new satellites) calls := by
  have hvacant := System.vacant_new hidle
  exact along_congr (I := fun s => Sound gen s ∧ Conserved s)
    (fun s call h => conserves_iff_sustains hgen h.1 h.2 call)
    (fun s call h hc => ⟨h.1.step hgen call, hc.1⟩)
    ⟨.of_vacant gen hvacant, conserved_of_vacant hvacant⟩

/-- A claim of 100 watts for an hour. -/
def imaging : ResourceClaim :=
  { opticalTerminal := none
    bandwidth := none
    duration := Duration.hours 1
    powerWatts := 100
    storageBytes := none
    computeCycles := none }

theorem conserves_allocations : Along (step id) (Conserves id) (System.new [.new "sat-1"])
    [.allocate (.stored _) ⟨0, 0, (0, 0)⟩ imaging, .allocate (.stored _) ⟨1, 1, (1, 1)⟩ imaging] :=
  (conserves_iff Function.injective_id (by simpa using ⟨rfl, rfl, rfl⟩) _).mpr
    ⟨trivial, trivial, trivial⟩

/-- An allocation of 100 watts stays charged to its satellite after it is preempted. -/
theorem preempted_stays_charged :
    ¬ ∀ gen : ℕ → Uuid, Function.Injective gen → ∀ satellites : List SatelliteNode,
      (∀ sat ∈ satellites, sat.Idle) → ∀ calls : List Call,
        Along (step gen) (Conserves gen) (System.new satellites) calls := by
  intro h
  let allocate : Call := .allocate (.stored _) ⟨0, 0, (0, 0)⟩ imaging
  let preempt : Call := .preempt 1 .emergencyResponse
  obtain ⟨-, ⟨hconserved, -⟩, -⟩ := h id Function.injective_id [.new "sat-1"]
    (by simpa using ⟨rfl, rfl, rfl⟩) [allocate, preempt]
  have hcharged : (run (step id) (System.new [.new "sat-1"]) [allocate, preempt]).charged
      (·.powerBudget.allocatedWatts) = 100 := by decide +kernel
  have hlive : (run (step id) (System.new [.new "sat-1"]) [allocate, preempt]).live
      (·.powerWatts) = 0 := by decide +kernel
  have hpower : (100 : ℚ) = 0 := hcharged.symm.trans (hconserved.power.trans hlive)
  norm_num at hpower

end

end GroundCore.Oisl.Resource
