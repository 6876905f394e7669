import GroundCore.Hardware.Emergency
import GroundCore.Lib.HashMap

/-! The pool of shadow SDRs.  An allocation for a pass that already has a shadow overwrites that one
in the map, and it is in neither of the two places from then on. -/

namespace GroundCore.RfLayer

open Lib

/-- `Sdr` is the type of the handles. -/
structure ShadowTracker (Sdr : Type) where
  availableShadows : List Sdr
  allocatedShadows : HashMap PassId Sdr

variable {Sdr : Type}

namespace ShadowTracker

def new : ShadowTracker Sdr := ⟨[], ∅⟩

def addShadow (tracker : ShadowTracker Sdr) (shadow : Sdr) : ShadowTracker Sdr :=
  { tracker with availableShadows := tracker.availableShadows ++ [shadow] }

def allocateShadow (tracker : ShadowTracker Sdr) (passId : PassId) :
    ShadowTracker Sdr × Result (Option Sdr) :=
  match tracker.availableShadows.getLast? with
  | none => (tracker, .ok none)
  | some shadow =>
    ({ availableShadows := tracker.availableShadows.dropLast
       allocatedShadows := tracker.allocatedShadows.insert passId shadow }, .ok (some shadow))

def releaseShadow (tracker : ShadowTracker Sdr) (passId : PassId) : ShadowTracker Sdr :=
  match tracker.allocatedShadows.get? passId with
  | some shadow =>
    { availableShadows := tracker.availableShadows ++ [shadow]
      allocatedShadows := tracker.allocatedShadows.erase passId }
  | none => tracker

def availableCount (tracker : ShadowTracker Sdr) : ℕ := tracker.availableShadows.length

def allocatedCount (tracker : ShadowTracker Sdr) : ℕ := tracker.allocatedShadows.entries.length

end ShadowTracker

inductive TrackerCall (Sdr : Type)
  | addShadow (shadow : Sdr)
  | allocateShadow (passId : PassId)
  | releaseShadow (passId : PassId)

/-- The SDRs that the calls add. -/
def added : List (TrackerCall Sdr) → List Sdr
  | [] => []
  | .addShadow shadow :: calls => shadow :: added calls
  | _ :: calls => added calls

namespace ShadowTracker

def step (tracker : ShadowTracker Sdr) : TrackerCall Sdr → ShadowTracker Sdr
  | .addShadow shadow => tracker.addShadow shadow
  | .allocateShadow passId => (tracker.allocateShadow passId).1
  | .releaseShadow passId => tracker.releaseShadow passId

/-- Each of the SDRs is in exactly one of the two places, and the counts add up. -/
structure Conserves (tracker : ShadowTracker Sdr) (sdrs : List Sdr) : Prop where
  one_place : ∀ sdr ∈ sdrs,
    (sdr ∈ tracker.availableShadows ↔ ¬ sdr ∈ tracker.allocatedShadows.values)
  counts : tracker.availableCount + tracker.allocatedCount = sdrs.length

/-- No shadow is taken for a pass that already has one. -/
def OnePerPass (tracker : ShadowTracker Sdr) : TrackerCall Sdr → Prop
  | .allocateShadow passId =>
    tracker.availableShadows ≠ [] → tracker.allocatedShadows.get? passId = none
  | _ => True

/-- All SDRs of the tracker, in both places. -/
def sdrs (tracker : ShadowTracker Sdr) : List Sdr :=
  tracker.availableShadows ++ tracker.allocatedShadows.values

variable {tracker : ShadowTracker Sdr} {call : TrackerCall Sdr} {calls : List (TrackerCall Sdr)}

theorem added_append (first second : List (TrackerCall Sdr)) :
    added (first ++ second) = added first ++ added second := by
  induction first with
  | nil => rfl
  | cons call first ih => cases call <;> simp [added, ih]

theorem step_allocateShadow {passId : PassId} {rest : List Sdr} {shadow : Sdr}
    (h : tracker.availableShadows = rest ++ [shadow]) :
    tracker.step (.allocateShadow passId) =
      ⟨rest, tracker.allocatedShadows.insert passId shadow⟩ := by
  simp [step, allocateShadow, h]

/-- What a call that takes one shadow for a pass does with the SDRs. -/
theorem sdrs_step (hone : tracker.OnePerPass call) :
    (tracker.step call).sdrs.Perm (tracker.sdrs ++ added [call]) := by
  cases call with
  | addShadow shadow =>
    show (tracker.availableShadows ++ [shadow] ++ tracker.allocatedShadows.values).Perm
      (tracker.availableShadows ++ tracker.allocatedShadows.values ++ [shadow])
    rw [List.append_assoc, List.append_assoc]
    exact List.perm_append_comm.append_left _
  | allocateShadow passId =>
    have hadded : added [(.allocateShadow passId : TrackerCall Sdr)] = [] := rfl
    rw [hadded, List.append_nil]
    rcases List.eq_nil_or_concat tracker.availableShadows with hnil | ⟨rest, shadow, hrest⟩
    · rw [step, allocateShadow, hnil]
      exact .refl _
    · rw [List.concat_eq_append] at hrest
      have hnone := hone (by simp [hrest])
      rw [step_allocateShadow hrest, sdrs, sdrs, hrest, HashMap.values_insert_of_get?_eq_none hnone,
        List.append_assoc, List.singleton_append]
  | releaseShadow passId =>
    have hadded : added [(.releaseShadow passId : TrackerCall Sdr)] = [] := rfl
    rw [hadded, List.append_nil, step, releaseShadow]
    cases hget : tracker.allocatedShadows.get? passId with
    | none => exact .refl _
    | some shadow =>
      show (tracker.availableShadows ++ [shadow] ++
        (tracker.allocatedShadows.erase passId).values).Perm tracker.sdrs
      rw [List.append_assoc, List.singleton_append]
      exact (HashMap.values_perm_erase hget).symm.append_left _

theorem sdrs_run (hone : Along step OnePerPass tracker calls) :
    (run step tracker calls).sdrs.Perm (tracker.sdrs ++ added calls) := by
  induction calls generalizing tracker with
  | nil => simp [added]
  | cons call calls ih =>
    refine (ih hone.2).trans ?_
    rw [← List.singleton_append, added_append, ← List.append_assoc]
    exact (sdrs_step hone.1).append_right _

theorem conserves_of_perm {all : List Sdr} (hnodup : all.Nodup)
    (hperm : tracker.sdrs.Perm all) : tracker.Conserves all := by
  have hdisjoint := List.nodup_append.mp (hperm.nodup_iff.mpr hnodup)
  constructor
  · intro sdr hsdr
    rcases List.mem_append.mp (hperm.mem_iff.mpr hsdr) with havailable | hallocated
    · exact iff_of_true havailable fun hallocated =>
        hdisjoint.2.2 sdr havailable sdr hallocated rfl
    · exact iff_of_false (fun havailable => hdisjoint.2.2 sdr havailable sdr hallocated rfl)
        (not_not.mpr hallocated)
  · have hlength := hperm.length_eq
    rwa [sdrs, List.length_append, HashMap.values, List.length_map] at hlength

/-- A second shadow for a pass lessens the sum of the counts. -/
theorem counts_of_not_onePerPass (h : ¬ tracker.OnePerPass call) :
    (tracker.step call).availableCount + (tracker.step call).allocatedCount + 1 =
      tracker.availableCount + tracker.allocatedCount ∧ added [call] = [] := by
  cases call with
  | addShadow shadow => exact absurd trivial h
  | releaseShadow passId => exact absurd trivial h
  | allocateShadow passId =>
    obtain ⟨havailable, hheld⟩ := Classical.not_imp.mp h
    obtain ⟨held, hget⟩ := Option.ne_none_iff_exists'.mp hheld
    obtain ⟨rest, shadow, hrest⟩ :=
      (List.eq_nil_or_concat tracker.availableShadows).resolve_left havailable
    rw [List.concat_eq_append] at hrest
    have hlength := HashMap.length_erase hget
    refine ⟨?_, rfl⟩
    rw [step_allocateShadow hrest, availableCount, availableCount, allocatedCount, allocatedCount,
      hrest, HashMap.length_insert, List.length_append, List.length_singleton]
    dsimp only
    omega

/-- Every SDR stays in one place, and the counts add up, in every state exactly when no shadow is
taken for a pass that has one. -/
theorem conserves_iff_onePerPass (hnodup : (added calls).Nodup) :
    (∀ before after, calls = before ++ after →
        (run step new before).Conserves (added before)) ↔
      Along step OnePerPass new calls := by
  constructor
  · intro h
    refine along_iff_split.mpr fun before call after hcalls => ?_
    by_contra hone
    obtain ⟨hcounts, hadded⟩ := counts_of_not_onePerPass hone
    have hbefore := (h before (call :: after) hcalls).counts
    have hafter := (h (before ++ [call]) after (by simp [hcalls])).counts
    rw [run_append, added_append, hadded, List.append_nil] at hafter
    have hstep : run step (run step new before) [call] = (run step new before).step call := rfl
    rw [hstep] at hafter
    omega
  · intro h before after hcalls
    subst hcalls
    have hperm := sdrs_run (along_append.mp h).1
    rw [added_append] at hnodup
    exact conserves_of_perm (List.nodup_append.mp hnodup).1 hperm

end ShadowTracker

/-- The shadows are conserved exactly in the runs that take one for each pass; the emergency shards
are in every run that releases what is held. -/
theorem spares_conserved (Sdr : Type) :
    (∀ calls : List (TrackerCall Sdr), (added calls).Nodup →
      ((∀ before after, calls = before ++ after →
          (run ShadowTracker.step .new before).Conserves (added before)) ↔
        Along ShadowTracker.step ShadowTracker.OnePerPass .new calls)) ∧
    ∀ (shardCount shardSize : ℕ) (calls : List Hardware.PoolCall),
      Along Hardware.HeldPool.step Hardware.HeldPool.OnHeld (.start shardCount shardSize) calls →
      let s := run Hardware.HeldPool.step (.start shardCount shardSize) calls
      s.held.Nodup ∧ s.pool.availableCount + s.held.length = s.pool.totalCount ∧
        ∀ now, (∃ e, (s.pool.claim now).2 = .error e) ↔ s.pool.availableCount = 0 := by
  refine ⟨fun calls hnodup => ShadowTracker.conserves_iff_onePerPass hnodup, ?_⟩
  intro shardCount shardSize calls hcalls s
  have h := (Hardware.HeldPool.accounted_start shardCount shardSize).run hcalls
  exact ⟨h.nodup, h.total, s.pool.claim_error_iff⟩

theorem one_shadow_conserved :
    (∀ before after,
      ([.addShadow "sdr-1", .allocateShadow "pass-1"] : List (TrackerCall String)) =
          before ++ after →
        (run ShadowTracker.step .new before).Conserves (added before)) ∧
    (run Hardware.HeldPool.step (.start 3 1024) [.claim 0, .claim 0]).held.Nodup :=
  ⟨((spares_conserved String).1 _ (by decide)).mpr ⟨trivial, fun _ => rfl, trivial⟩,
    ((spares_conserved String).2 3 1024 [.claim 0, .claim 0] ⟨trivial, trivial, trivial⟩).1⟩

/-- A pass that asks twice loses its first shadow. -/
theorem second_shadow_loses_first :
    ¬ (run ShadowTracker.step (.new : ShadowTracker String)
      [.addShadow "sdr-1", .addShadow "sdr-2", .allocateShadow "pass-1",
        .allocateShadow "pass-1"]).Conserves ["sdr-1", "sdr-2"] := by
  intro h
  exact absurd h.counts (by decide)

end GroundCore.RfLayer
