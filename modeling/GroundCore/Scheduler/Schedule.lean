import Mathlib.Data.List.Nodup
import GroundCore.Lib.HashMap
import GroundCore.Scheduler.Keyhole

/-! Schedules, and the conflicts between their passes.  The passes are grouped by the devices that
they use and compared within each group; a pair that meets in two groups is compared once, so the
order of the groups decides the order of the conflicts and nothing else. -/

namespace GroundCore.Scheduler

open Lib

variable {F64 F32 : Type}

structure PassWindow where
  start : DateTime
  «end» : DateTime
  minDurationSec : ℕ
  deriving DecidableEq, Repr

inductive SlaTier
  | bestEffort
  | standard
  | premium
  | missionCritical
  deriving DecidableEq, Repr

def SlaTier.requiresShadow : SlaTier → Bool
  | .premium | .missionCritical => true
  | .bestEffort | .standard => false

structure PassRequest where
  requestId : String
  customerId : CustomerId
  satelliteId : SatelliteId
  window : PassWindow
  slaTier : SlaTier
  deriving DecidableEq, Repr

structure HardwareAllocation where
  sdrDevices : List String
  shadowSdr : Option String
  antennaId : String
  rotatorId : String
  deriving DecidableEq, Repr

/-- The devices of an allocation, in the order in which they are indexed. -/
def HardwareAllocation.devices (h : HardwareAllocation) : List String :=
  h.sdrDevices ++ h.shadowSdr.toList ++ [h.antennaId, h.rotatorId]

inductive PassStatus
  | scheduled
  | preparing
  | inProgress
  | completed
  | failed
  | cancelled
  deriving DecidableEq, Repr

structure ScheduledPass (F64 : Type) where
  passId : PassId
  requestId : String
  customerId : CustomerId
  satelliteId : SatelliteId
  scheduledWindow : PassWindow
  hardwareAllocation : HardwareAllocation
  scheduledAt : DateTime
  status : PassStatus
  keyholeWarning : Option (KeyholeWarning F64)

inductive ConflictType
  | hardwareOverlap
  | timeOverlap
  | frequencyConflict
  deriving DecidableEq, Repr

structure ScheduleConflict where
  pass1Id : PassId
  pass2Id : PassId
  conflictType : ConflictType
  deriving DecidableEq, Repr

structure Schedule (F64 : Type) where
  passes : List (ScheduledPass F64)
  generatedAt : DateTime
  horizon : DateTime × DateTime
  version : ℕ

def windowsOverlap (w1 w2 : PassWindow) : Bool :=
  decide (w1.start < w2.end) && decide (w2.start < w1.end)

/-- The pairs of a list, each element with those after it. -/
def pairs {α : Type} : List α → List (α × α)
  | [] => []
  | x :: xs => xs.map (fun y => (x, y)) ++ pairs xs

namespace Schedule

def new (horizonStart horizonEnd now : DateTime) : Schedule F64 :=
  { passes := [], generatedAt := now, horizon := (horizonStart, horizonEnd), version := 0 }

def addPass (s : Schedule F64) (pass : ScheduledPass F64) : Schedule F64 :=
  { s with passes := s.passes ++ [pass] }

/-- The positions of the passes that use each device. -/
def deviceIndex (s : Schedule F64) : HashMap String (List ℕ) :=
  s.passes.zipIdx.foldl (fun index pass =>
    pass.1.hardwareAllocation.devices.foldl (fun index device =>
      index.insert device ((index.get? device).getD [] ++ [pass.2])) index) ∅

def pairKey (pair : ℕ × ℕ) : ℕ × ℕ := if pair.1 < pair.2 then pair else (pair.2, pair.1)

/-- The conflict between the passes at two positions. -/
def conflictAt (s : Schedule F64) (pair : ℕ × ℕ) : Option ScheduleConflict := do
  let pass1 ← s.passes[pair.1]?
  let pass2 ← s.passes[pair.2]?
  if windowsOverlap pass1.scheduledWindow pass2.scheduledWindow then
    some { pass1Id := pass1.passId, pass2Id := pass2.passId, conflictType := .hardwareOverlap }
  else none

/-- One pair of a device group: what has been seen, and the conflicts so far. -/
def conflictStep (s : Schedule F64) (found : List (ℕ × ℕ) × List ScheduleConflict)
    (pair : ℕ × ℕ) : List (ℕ × ℕ) × List ScheduleConflict :=
  if pairKey pair ∈ found.1 then found
  else (pairKey pair :: found.1, found.2 ++ (s.conflictAt pair).toList)

def checkConflicts (s : Schedule F64) (ord : IterOrder (List ℕ)) : List ScheduleConflict :=
  (((ord.order s.deviceIndex.values).flatMap pairs).foldl s.conflictStep ([], [])).2

variable {s : Schedule F64}

theorem windowsOverlap_comm (w1 w2 : PassWindow) : windowsOverlap w1 w2 = windowsOverlap w2 w1 :=
  Bool.and_comm _ _

theorem isSome_conflictAt (s : Schedule F64) (pair : ℕ × ℕ) :
    (s.conflictAt pair).isSome = (s.conflictAt (pairKey pair)).isSome := by
  unfold pairKey
  split
  · rfl
  · unfold conflictAt
    cases s.passes[pair.1]? with
    | none => cases s.passes[pair.2]? <;> rfl
    | some pass1 =>
      cases s.passes[pair.2]? with
      | none => rfl
      | some pass2 =>
        show (if _ then _ else _ : Option _).isSome = (if _ then _ else _ : Option _).isSome
        rw [windowsOverlap_comm]
        split <;> rfl

/-- What the loop over the pairs has seen and found: each key once, and a conflict for each that
overlaps. -/
theorem conflictStep_run (s : Schedule F64) (found : List (ℕ × ℕ) × List ScheduleConflict)
    (pairs : List (ℕ × ℕ)) (hnodup : found.1.Nodup)
    (hcount : found.2.length = found.1.countP fun key => (s.conflictAt key).isSome) :
    let after := pairs.foldl s.conflictStep found
    after.1.Nodup ∧ (∀ key, key ∈ after.1 ↔ key ∈ found.1 ∨ key ∈ pairs.map pairKey) ∧
      after.2.length = after.1.countP fun key => (s.conflictAt key).isSome := by
  induction pairs generalizing found with
  | nil => simpa using ⟨hnodup, hcount⟩
  | cons pair pairs ih =>
    by_cases hseen : pairKey pair ∈ found.1
    · obtain ⟨h1, h2, h3⟩ := ih found hnodup hcount
      have hstep : s.conflictStep found pair = found := by rw [conflictStep, if_pos hseen]
      simp only [List.foldl_cons, hstep]
      refine ⟨h1, fun key => ?_, h3⟩
      rw [h2, List.map_cons, List.mem_cons]
      constructor
      · rintro (h | h)
        · exact .inl h
        · exact .inr (.inr h)
      · rintro (h | rfl | h)
        · exact .inl h
        · exact .inl hseen
        · exact .inr h
    · have hstep : s.conflictStep found pair =
          (pairKey pair :: found.1, found.2 ++ (s.conflictAt pair).toList) := by
        rw [conflictStep, if_neg hseen]
      have hfound : (found.2 ++ (s.conflictAt pair).toList).length =
          (pairKey pair :: found.1).countP fun key => (s.conflictAt key).isSome := by
        rw [List.length_append, hcount, List.countP_cons, ← isSome_conflictAt]
        cases s.conflictAt pair <;> rfl
      obtain ⟨h1, h2, h3⟩ := ih (pairKey pair :: found.1, _) (List.nodup_cons.mpr ⟨hseen, hnodup⟩)
        hfound
      simp only [List.foldl_cons, hstep]
      refine ⟨h1, fun key => ?_, h3⟩
      rw [h2, List.map_cons, List.mem_cons, List.mem_cons]
      tauto

/-- The order of the device groups does not matter for the number of conflicts. -/
theorem length_checkConflicts (s : Schedule F64) (ord ord' : IterOrder (List ℕ)) :
    (s.checkConflicts ord).length = (s.checkConflicts ord').length := by
  obtain ⟨hnodup, hmem, hcount⟩ :=
    s.conflictStep_run ([], []) ((ord.order s.deviceIndex.values).flatMap pairs) List.nodup_nil rfl
  obtain ⟨hnodup', hmem', hcount'⟩ :=
    s.conflictStep_run ([], []) ((ord'.order s.deviceIndex.values).flatMap pairs) List.nodup_nil rfl
  rw [checkConflicts, checkConflicts, hcount, hcount']
  apply List.Perm.countP_eq
  apply (List.perm_ext_iff_of_nodup hnodup hnodup').mpr
  intro key
  rw [hmem, hmem']
  simp

end Schedule

end GroundCore.Scheduler
