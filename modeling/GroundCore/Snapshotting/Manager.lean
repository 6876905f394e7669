import GroundCore.Core.Types
import GroundCore.Lib.Buffer
import GroundCore.Lib.Sha256

/-! Snapshots of the schedule, of demodulators and of the federation.  What a snapshot holds are the
bytes that the JSON library writes for a value, so a value is restored as that library reads it. -/

namespace GroundCore.Snapshotting

open Lib Buffer

/-- How the JSON library writes values of a type and reads them. -/
structure Serde (T : Type) where
  toVec : T → List UInt8
  fromSlice : List UInt8 → Except String T

variable {T S D : Type}

structure ScheduleSnapshot where
  snapshotId : String
  data : List UInt8
  capturedAt : DateTime
  hash : String
  sizeBytes : ℕ
  deriving DecidableEq

namespace ScheduleSnapshot

def new (serde : Serde T) (value : T) (snapshotId : String) (now : DateTime) : ScheduleSnapshot :=
  let json := serde.toVec value
  { snapshotId, data := json, capturedAt := now, hash := hexLower (sha256 json),
    sizeBytes := json.length }

def restore (serde : Serde T) (s : ScheduleSnapshot) : Except String T := serde.fromSlice s.data

def verify (s : ScheduleSnapshot) : Bool := hexLower (sha256 s.data) == s.hash

theorem verify_new (serde : Serde T) (value : T) (snapshotId : String) (now : DateTime) :
    (new serde value snapshotId now).verify = true := by
  simp [verify, new]

/-- Other data passes for that of a snapshot when it has the same digest. -/
theorem verify_with_data_iff {s : ScheduleSnapshot} (h : s.verify = true) (data : List UInt8) :
    ({ s with data } : ScheduleSnapshot).verify = true ↔ sha256 data = sha256 s.data := by
  simp only [verify, beq_iff_eq] at h ⊢
  rw [← h, hexLower_inj]

end ScheduleSnapshot

structure ScheduleSnapshotter where
  snapshots : List ScheduleSnapshot
  maxSnapshots : ℕ

namespace ScheduleSnapshotter

def new (maxSnapshots : ℕ) : ScheduleSnapshotter := ⟨[], maxSnapshots⟩

def snapshot (s : ScheduleSnapshotter) (serde : Serde T) (value : T) (snapshotId : String)
    (now : DateTime) : ScheduleSnapshotter × ScheduleSnapshot :=
  let snap := ScheduleSnapshot.new serde value snapshotId now
  ({ s with snapshots := trim s.maxSnapshots (s.snapshots ++ [snap]) }, snap)

def latest (s : ScheduleSnapshotter) : Option ScheduleSnapshot := s.snapshots.getLast?

def get (s : ScheduleSnapshotter) (snapshotId : String) : Option ScheduleSnapshot :=
  s.snapshots.find? fun snap => snap.snapshotId = snapshotId

end ScheduleSnapshotter

structure DemodulatorSnapshotWrapper where
  snapshotId : String
  passId : String
  data : List UInt8
  capturedAt : DateTime
  deriving DecidableEq

def DemodulatorSnapshotWrapper.restore (serde : Serde T) (s : DemodulatorSnapshotWrapper) :
    Except String T := serde.fromSlice s.data

structure DemodulatorSnapshotter where
  snapshots : List DemodulatorSnapshotWrapper

namespace DemodulatorSnapshotter

def new : DemodulatorSnapshotter := ⟨[]⟩

def snapshot (s : DemodulatorSnapshotter) (serde : Serde T) (passId : String) (state : T)
    (snapshotId : String) (now : DateTime) :
    DemodulatorSnapshotter × DemodulatorSnapshotWrapper :=
  let wrapper : DemodulatorSnapshotWrapper :=
    { snapshotId, passId, data := serde.toVec state, capturedAt := now }
  (⟨s.snapshots ++ [wrapper]⟩, wrapper)

def getForPass (s : DemodulatorSnapshotter) (passId : String) :
    Option DemodulatorSnapshotWrapper := s.snapshots.find? fun w => w.passId = passId

def removePass (s : DemodulatorSnapshotter) (passId : String) : DemodulatorSnapshotter :=
  ⟨s.snapshots.filter fun w => w.passId ≠ passId⟩

end DemodulatorSnapshotter

structure PeerState (F64 : Type) where
  peerId : String
  trustScore : F64
  status : String
  lastVerification : Option DateTime
  totalAttestations : UInt64

structure FederationSnapshot (F64 : Type) where
  snapshotId : String
  peers : List (PeerState F64)
  capturedAt : DateTime
  version : ℕ

structure FederationSnapshotter (F64 : Type) where
  snapshots : List (FederationSnapshot F64)

variable {F64 : Type}

namespace FederationSnapshotter

def new : FederationSnapshotter F64 := ⟨[]⟩

def snapshot (s : FederationSnapshotter F64) (peers : List (PeerState F64)) (snapshotId : String)
    (now : DateTime) : FederationSnapshotter F64 × FederationSnapshot F64 :=
  let snapshot : FederationSnapshot F64 :=
    { snapshotId, peers, capturedAt := now, version := s.snapshots.length }
  (⟨s.snapshots ++ [snapshot]⟩, snapshot)

def latest (s : FederationSnapshotter F64) : Option (FederationSnapshot F64) :=
  s.snapshots.getLast?

end FederationSnapshotter

structure SnapshotManager (F64 : Type) where
  scheduleSnapshotter : ScheduleSnapshotter
  demodulatorSnapshotter : DemodulatorSnapshotter
  federationSnapshotter : FederationSnapshotter F64

def SnapshotManager.new (maxScheduleSnapshots : ℕ) : SnapshotManager F64 :=
  ⟨.new maxScheduleSnapshots, .new, .new⟩

/-! ### Runs -/

/-- The calls to a manager of schedules of type `S` and demodulators of type `D`. -/
inductive SnapshotCall (S D F64 : Type)
  | schedule (value : S) (snapshotId : String) (now : DateTime)
  | demodulator (passId : String) (state : D) (snapshotId : String) (now : DateTime)
  | removePass (passId : String)
  | federation (peers : List (PeerState F64)) (snapshotId : String) (now : DateTime)

namespace SnapshotManager

variable (schedules : Serde S) (demodulators : Serde D)

def step (m : SnapshotManager F64) : SnapshotCall S D F64 → SnapshotManager F64
  | .schedule value snapshotId now =>
    { m with scheduleSnapshotter :=
        (m.scheduleSnapshotter.snapshot schedules value snapshotId now).1 }
  | .demodulator passId state snapshotId now =>
    { m with demodulatorSnapshotter :=
        (m.demodulatorSnapshotter.snapshot demodulators passId state snapshotId now).1 }
  | .removePass passId =>
    { m with demodulatorSnapshotter := m.demodulatorSnapshotter.removePass passId }
  | .federation peers snapshotId now =>
    { m with federationSnapshotter := (m.federationSnapshotter.snapshot peers snapshotId now).1 }

/-- The snapshots of schedules that the calls take. -/
def scheduleTaken : List (SnapshotCall S D F64) → List ScheduleSnapshot
  | [] => []
  | .schedule value snapshotId now :: calls =>
    .new schedules value snapshotId now :: scheduleTaken calls
  | _ :: calls => scheduleTaken calls

theorem scheduleTaken_append (first second : List (SnapshotCall S D F64)) :
    scheduleTaken schedules (first ++ second) =
      scheduleTaken schedules first ++ scheduleTaken schedules second := by
  induction first with
  | nil => rfl
  | cons call first ih => cases call <;> simp [scheduleTaken, ih]

/-- The last snapshots that were taken are kept. -/
theorem snapshots_run (m : SnapshotManager F64) (taken : List ScheduleSnapshot)
    (h : m.scheduleSnapshotter.snapshots = taken.rtake m.scheduleSnapshotter.maxSnapshots)
    (calls : List (SnapshotCall S D F64)) :
    (run (step schedules demodulators) m calls).scheduleSnapshotter.snapshots =
      (taken ++ scheduleTaken schedules calls).rtake m.scheduleSnapshotter.maxSnapshots := by
  induction calls generalizing m taken with
  | nil => rw [run_nil, scheduleTaken, List.append_nil, h]
  | cons call calls ih =>
    cases call with
    | schedule value snapshotId now =>
      have hnext := ih (m.step schedules demodulators (.schedule value snapshotId now))
        (taken ++ [.new schedules value snapshotId now]) ?_
      · rw [List.append_assoc] at hnext
        exact hnext
      · show trim _ (m.scheduleSnapshotter.snapshots ++ [_]) = _
        rw [trim_eq_rtake, h, rtake_rtake_append_singleton]
        rfl
    | demodulator passId state snapshotId now => exact ih _ taken h
    | removePass passId => exact ih _ taken h
    | federation peers snapshotId now => exact ih _ taken h

variable {schedules demodulators}

/-- A schedule can be restored by the id of its snapshot exactly as long as fewer snapshots have
been taken since than are kept. -/
theorem restorable_iff (hserde : ∀ value, schedules.fromSlice (schedules.toVec value) = .ok value)
    (maxSnapshots : ℕ) (before after : List (SnapshotCall S D F64)) (value : S) (snapshotId : String)
    (now : DateTime)
    (hids : ((scheduleTaken schedules (before ++ .schedule value snapshotId now :: after)).map
      (·.snapshotId)).Nodup) :
    let m := run (step schedules demodulators) (new maxSnapshots)
      (before ++ .schedule value snapshotId now :: after)
    (∃ snap, m.scheduleSnapshotter.get snapshotId = some snap ∧ snap.verify = true ∧
        snap.restore schedules = .ok value) ↔
      (scheduleTaken schedules after).length < maxSnapshots := by
  intro m
  let snap : ScheduleSnapshot := .new schedules value snapshotId now
  let older := scheduleTaken schedules before
  let newer := scheduleTaken schedules after
  have hsplit : scheduleTaken schedules (before ++ .schedule value snapshotId now :: after) =
      older ++ snap :: newer := scheduleTaken_append schedules before _
  have hkept : m.scheduleSnapshotter.snapshots = (older ++ snap :: newer).rtake maxSnapshots := by
    have := snapshots_run schedules demodulators (new maxSnapshots : SnapshotManager F64) []
      (List.rtake_nil _).symm (before ++ .schedule value snapshotId now :: after)
    rwa [List.nil_append, hsplit] at this
  rw [hsplit, List.map_append, List.map_cons, List.nodup_append, List.nodup_cons] at hids
  obtain ⟨-, ⟨hnewer, -⟩, holder⟩ := hids
  constructor
  · rintro ⟨found, hget, -, -⟩
    by_contra hmany
    rw [not_lt] at hmany
    have hdrop : (older ++ snap :: newer).rtake maxSnapshots = newer.rtake maxSnapshots := by
      rw [List.append_cons, rtake_append_of_le_length hmany]
    have hmem := List.mem_of_find?_eq_some hget
    have hid : found.snapshotId = snapshotId := by
      simpa using List.find?_some hget
    rw [hkept, hdrop] at hmem
    exact hnewer (List.mem_map.mpr ⟨found, List.mem_of_mem_drop hmem, hid⟩)
  · intro hfew
    have hdrop : (older ++ snap :: newer).rtake maxSnapshots =
        older.rtake (maxSnapshots - (snap :: newer).length) ++ snap :: newer :=
      rtake_append_of_length_le hfew
    refine ⟨snap, ?_, ScheduleSnapshot.verify_new _ _ _ _, hserde value⟩
    rw [ScheduleSnapshotter.get, hkept, hdrop, List.find?_append, List.find?_eq_none.mpr]
    · simp [snap, ScheduleSnapshot.new]
    · intro other hother
      have hne := holder _ (List.mem_map_of_mem (List.mem_of_mem_drop hother)) snapshotId
        (List.mem_cons_self ..)
      simpa using hne

section Example

/-- Truth values, in the bytes of `true` and `false`. -/
def boolSerde : Serde Bool where
  toVec
    | true => [116, 114, 117, 101]
    | false => [102, 97, 108, 115, 101]
  fromSlice bytes :=
    if bytes = [116, 114, 117, 101] then .ok true
    else if bytes = [102, 97, 108, 115, 101] then .ok false
    else .error "expected value"

theorem fromSlice_boolSerde (value : Bool) :
    boolSerde.fromSlice (boolSerde.toVec value) = .ok value := by
  cases value <;> rfl

/-- Two snapshots are kept, and the one before them cannot be restored. -/
theorem restorable_two :
    ¬ ∃ snap, (run (step boolSerde boolSerde) (new 2 : SnapshotManager ℚ)
        [.schedule true "a" 0, .schedule false "b" 1, .schedule true "c" 2]).scheduleSnapshotter.get
          "a" = some snap ∧ snap.verify = true ∧ snap.restore boolSerde = .ok true := by
  intro h
  have hfew := (restorable_iff fromSlice_boolSerde 2 []
    [.schedule false "b" 1, .schedule true "c" 2] true "a" 0 (by decide)).mp h
  contradiction

end Example

/-! ### Demodulators and federations -/

variable (schedules demodulators)

/-- The state in the first snapshot of a pass since the pass was last removed. -/
def firstState (passId : String) (held : Option D) : List (SnapshotCall S D F64) → Option D
  | [] => held
  | .demodulator p state _ _ :: calls =>
    firstState passId (if p = passId then held.or (some state) else held) calls
  | .removePass p :: calls => firstState passId (if p = passId then none else held) calls
  | _ :: calls => firstState passId held calls

theorem getForPass_snapshot (s : DemodulatorSnapshotter) (p passId : String) (state : D)
    (snapshotId : String) (now : DateTime) :
    (((s.snapshot demodulators p state snapshotId now).1.getForPass passId).map (·.data)) =
      ((s.getForPass passId).map (·.data)).or
        (if p = passId then some (demodulators.toVec state) else none) := by
  simp only [DemodulatorSnapshotter.snapshot, DemodulatorSnapshotter.getForPass, List.find?_append]
  cases s.snapshots.find? fun w => w.passId = passId with
  | some w => simp
  | none =>
    by_cases heq : p = passId
    · simp [heq]
    · simp [heq]

theorem getForPass_removePass (s : DemodulatorSnapshotter) (p passId : String) :
    (s.removePass p).getForPass passId = if p = passId then none else s.getForPass passId := by
  simp only [DemodulatorSnapshotter.removePass, DemodulatorSnapshotter.getForPass,
    List.find?_filter]
  split
  · next heq => simp [heq]
  · next hne =>
    congr 1
    funext w
    by_cases hw : w.passId = passId
    · simp [hw, Ne.symm hne]
    · simp [hw]

theorem getForPass_run (m : SnapshotManager F64) (passId : String) (held : Option D)
    (h : (m.demodulatorSnapshotter.getForPass passId).map (·.data) =
      held.map demodulators.toVec) (calls : List (SnapshotCall S D F64)) :
    (((run (step schedules demodulators) m calls).demodulatorSnapshotter.getForPass passId).map
      (·.data)) = (firstState passId held calls).map demodulators.toVec := by
  induction calls generalizing m held with
  | nil => exact h
  | cons call calls ih =>
    cases call with
    | schedule value snapshotId now => exact ih _ held h
    | federation peers snapshotId now => exact ih _ held h
    | demodulator p state snapshotId now =>
      refine ih (m.step schedules demodulators (.demodulator p state snapshotId now)) _ ?_
      rw [step, getForPass_snapshot, h]
      split <;> cases held <;> rfl
    | removePass p =>
      refine ih (m.step schedules demodulators (.removePass p)) _ ?_
      rw [step, getForPass_removePass]
      split
      · rfl
      · exact h

/-- The peers in the snapshots of the federation that the calls take. -/
def federationTaken : List (SnapshotCall S D F64) → List (List (PeerState F64))
  | [] => []
  | .federation peers _ _ :: calls => peers :: federationTaken calls
  | _ :: calls => federationTaken calls

/-- The peers of the snapshots, with the versions. -/
def federationVersions (m : SnapshotManager F64) : List (List (PeerState F64) × ℕ) :=
  m.federationSnapshotter.snapshots.map fun s => (s.peers, s.version)

theorem federationVersions_run (m : SnapshotManager F64) (calls : List (SnapshotCall S D F64)) :
    (run (step schedules demodulators) m calls).federationVersions =
      m.federationVersions ++
        (federationTaken calls).zipIdx m.federationSnapshotter.snapshots.length := by
  induction calls generalizing m with
  | nil => simp [federationTaken]
  | cons call calls ih =>
    cases call with
    | schedule value snapshotId now => exact ih _
    | demodulator p state snapshotId now => exact ih _
    | removePass p => exact ih _
    | federation peers snapshotId now =>
      rw [run_cons, ih]
      simp [step, federationVersions, federationTaken, FederationSnapshotter.snapshot,
        List.zipIdx_cons]

variable {schedules demodulators}

/-- After any calls, the snapshot that is restored for a pass is the first one since the pass was
removed, not the last, and the snapshots of the federation have the versions from zero on. -/
theorem snapshots_of_run
    (hserde : ∀ state, demodulators.fromSlice (demodulators.toVec state) = .ok state)
    (maxSnapshots : ℕ) (calls : List (SnapshotCall S D F64)) :
    let m := run (step schedules demodulators) (new maxSnapshots) calls
    (∀ passId, (m.demodulatorSnapshotter.getForPass passId).map (·.restore demodulators) =
        (firstState passId none calls).map .ok) ∧
      m.federationVersions = (federationTaken calls).zipIdx := by
  refine ⟨fun passId => ?_, federationVersions_run schedules demodulators (new maxSnapshots) calls⟩
  have hdata := getForPass_run schedules demodulators (new maxSnapshots) passId none rfl calls
  have hread := congrArg (Option.map demodulators.fromSlice) hdata
  rw [Option.map_map, Option.map_map] at hread
  refine hread.trans ?_
  congr 1
  funext state
  exact hserde state

/-- The second state of the pass is not found. -/
theorem snapshots_of_two :
    let m := run (step boolSerde boolSerde) (new 1 : SnapshotManager ℚ)
      [.demodulator "p" true "a" 0, .federation [] "b" 1, .demodulator "p" false "c" 2]
    (∀ passId, (m.demodulatorSnapshotter.getForPass passId).map (·.restore boolSerde) =
        (firstState passId none ([.demodulator "p" true "a" 0, .federation [] "b" 1,
          .demodulator "p" false "c" 2] : List (SnapshotCall Bool Bool ℚ))).map .ok) ∧
      m.federationVersions = [([], 0)] :=
  snapshots_of_run fromSlice_boolSerde 1 _

end SnapshotManager

end GroundCore.Snapshotting
