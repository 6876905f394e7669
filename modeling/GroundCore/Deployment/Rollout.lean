import GroundCore.Deployment.Supervisor
import GroundCore.Lib.Run

/-! What a deployment promises over any history of calls: every process that was spawned stays
recorded, and a new binary is deployed only when the handoff is safe and every active process is
handed over.  The record of a pass that is started again is overwritten, and a deployment does not
ask whether the handoff is safe; as no process ever leaves the state in which it starts, it is not
as soon as one is recorded. -/

namespace GroundCore.Deployment

open Lib

/-- The process has not ended. -/
def PassProcess.isActive (p : PassProcess) : Bool :=
  p.process.state ∉ [.completed, .failed, .killed]

/-- A deployment that succeeded: whether the handoff was safe before it, the number of active
processes then recorded, and what it returned. -/
structure Rollout where
  safe : Bool
  active : ℕ
  result : HandoffResult

/-- A supervisor with all that it has spawned and deployed. -/
structure Session where
  supervisor : Supervisor
  spawned : List PassProcess
  deployments : List Rollout

inductive Call
  | startPass (passId : PassId) (hardware : List String) (spawn : Except String UInt32)
      (now : DateTime)
  | completePass (passId : PassId) (kill : Except String Bool)
  | deploy (newBinary : VersionedBinary) (read : String → Option (List UInt8)) (now : DateTime)
      (elapsed : ℕ)

namespace Session

def new (config : SupervisorConfig) : Session :=
  { supervisor := .new config, spawned := [], deployments := [] }

def manager (s : Session) : ProcessManager := s.supervisor.processManager

def step (s : Session) : Call → Session
  | .startPass passId hardware spawn now =>
    let after := s.supervisor.startPass passId hardware spawn now
    { s with supervisor := after.1, spawned := after.2.toOption.toList ++ s.spawned }
  | .completePass passId kill => { s with supervisor := (s.supervisor.completePass passId kill).1 }
  | .deploy newBinary read now elapsed =>
    let after := s.supervisor.deploy newBinary read now elapsed
    { s with
      supervisor := after.1
      deployments := (after.2.toOption.map fun result =>
        { safe := HandoffManager.canHandoff s.manager
          active := s.manager.allProcesses.countP (·.isActive), result }).toList ++ s.deployments }

/-- Every process is recorded, and every deployment was safe and counted every active process. -/
structure NothingLost (s : Session) : Prop where
  recorded : ∀ p ∈ s.spawned, s.manager.getProcess p.passId = some p
  handedOff : ∀ d ∈ s.deployments, d.safe ∧
    d.result.processesTransferred + d.result.processesRemaining = d.active

/-- A process is spawned with a pid that no other has. -/
def Fresh (s : Session) : Call → Prop
  | .startPass _ _ (.ok pid) _ => ∀ p ∈ s.spawned, p.process.pid ≠ pid
  | _ => True

/-- No pass is started that is recorded, and no binary that passes the checks is deployed once a
process is recorded. -/
def Careful (s : Session) : Call → Prop
  | .startPass passId _ (.ok _) _ => s.manager.getProcess passId = none
  | .deploy newBinary read _ _ => newBinary.verify read →
      newBinary.schemaVersion = s.supervisor.config.schemaVersion → s.manager.allProcesses = []
  | _ => True

/-- Nothing is lost, and the records are those of processes that were spawned and are starting. -/
structure Steady (s : Session) : Prop where
  nothingLost : NothingLost s
  known : ∀ passId p, s.manager.getProcess passId = some p →
    p ∈ s.spawned ∧ p.passId = passId ∧ p.process.state = .starting

variable {s : Session}

theorem steady_new (config : SupervisorConfig) : Steady (new config) where
  nothingLost := ⟨fun _ h => absurd h List.not_mem_nil, fun _ h => absurd h List.not_mem_nil⟩
  known _ _ h := by simp [new, manager, Supervisor.new, ProcessManager.new,
    ProcessManager.getProcess] at h

/-- Nothing is recorded, or the handoff is not safe. -/
theorem canHandoff_iff (h : Steady s) :
    HandoffManager.canHandoff s.manager ↔ s.manager.allProcesses = [] := by
  rw [HandoffManager.canHandoff, List.all_eq_true, List.eq_nil_iff_forall_not_mem]
  apply forall_congr'
  intro p
  constructor
  · intro hsafe hmem
    obtain ⟨passId, hget⟩ := ProcessManager.mem_allProcesses.mp hmem
    simpa [(h.known passId p hget).2.2] using hsafe hmem
  · exact fun hnone hmem => absurd hmem hnone

/-- A deployment leaves the records as they are; it succeeds when the binary passes the checks. -/
theorem deploy_cases (s : Supervisor) (newBinary : VersionedBinary)
    (read : String → Option (List UInt8)) (now : DateTime) (elapsed : ℕ) :
    (s.deploy newBinary read now elapsed).1.processManager = s.processManager ∧
    ((s.deploy newBinary read now elapsed).2.toOption = none ∧
        ¬ (newBinary.verify read ∧ newBinary.schemaVersion = s.config.schemaVersion) ∨
      newBinary.verify read ∧ newBinary.schemaVersion = s.config.schemaVersion ∧
        ∃ result, (s.deploy newBinary read now elapsed).2.toOption = some result ∧
          result.processesTransferred + result.processesRemaining =
            (s.processManager.processesOnVersion s.config.currentVersion).length) := by
  unfold Supervisor.deploy
  by_cases hverify : newBinary.verify read = true
  · by_cases hschema : newBinary.schemaVersion = s.config.schemaVersion
    · simp only [hverify, VersionedBinary.schemaCompatible, hschema, HandoffManager.performHandoff]
      exact ⟨rfl, .inr ⟨trivial, trivial, _, rfl, rfl⟩⟩
    · simp [hverify, VersionedBinary.schemaCompatible, hschema, Except.toOption]
  · simp [hverify, Except.toOption]

theorem manager_deploy (s : Session) (newBinary : VersionedBinary)
    (read : String → Option (List UInt8)) (now : DateTime) (elapsed : ℕ) :
    (s.step (.deploy newBinary read now elapsed)).manager = s.manager :=
  (deploy_cases s.supervisor newBinary read now elapsed).1

theorem completePass_fst (s : Supervisor) (passId : PassId) (kill : Except String Bool) :
    (s.completePass passId kill).1 = s := by
  unfold Supervisor.completePass
  cases s.processManager.getProcess passId with
  | none => rfl
  | some process => cases kill <;> rfl

section Step

variable {passId : PassId} {hardware : List String} {pid : UInt32} {now : DateTime}
  {newBinary : VersionedBinary} {read : String → Option (List UInt8)} {elapsed : ℕ}

/-- The process that a call spawns. -/
def spawnedProcess (s : Session) (passId : PassId) (hardware : List String) (pid : UInt32)
    (now : DateTime) : PassProcess :=
  .new passId pid s.supervisor.config.currentVersion hardware
    { regionId := s!"shard-{passId}", size := 1024 * 1024
      schemaVersion := s.supervisor.config.schemaVersion } now

theorem getProcess_startPass (s : Session) (id : PassId) :
    (s.step (.startPass passId hardware (.ok pid) now)).manager.getProcess id =
      if id = passId then some (s.spawnedProcess passId hardware pid now)
      else s.manager.getProcess id :=
  ProcessManager.getProcess_addProcess ..

theorem Steady.startPass (h : Steady s) (hnew : s.manager.getProcess passId = none) :
    Steady (s.step (.startPass passId hardware (.ok pid) now)) := by
  refine ⟨⟨fun p hp => ?_, h.nothingLost.handedOff⟩, fun id p hget => ?_⟩
  · rw [getProcess_startPass]
    rcases List.mem_cons.mp hp with rfl | hp
    · exact if_pos rfl
    · have hrecorded := h.nothingLost.recorded p hp
      rw [if_neg, hrecorded]
      intro heq
      rw [heq, hnew] at hrecorded
      contradiction
  · rw [getProcess_startPass] at hget
    split at hget
    · next heq =>
      obtain rfl := Option.some.inj hget
      exact ⟨List.mem_cons_self, heq.symm, rfl⟩
    · obtain ⟨hmem, hid, hstate⟩ := h.known id p hget
      exact ⟨List.mem_cons_of_mem _ hmem, hid, hstate⟩

/-- A pass that is started again takes the record of a process that was spawned before. -/
theorem getProcess_eq_none_of_nothingLost (h : Steady s)
    (hfresh : Fresh s (.startPass passId hardware (.ok pid) now))
    (hafter : NothingLost (s.step (.startPass passId hardware (.ok pid) now))) :
    s.manager.getProcess passId = none := by
  by_contra hsome
  obtain ⟨p, hp⟩ := Option.ne_none_iff_exists'.mp hsome
  obtain ⟨hmem, hid, -⟩ := h.known passId p hp
  have hrecorded := hafter.recorded p (List.mem_cons_of_mem _ hmem)
  rw [getProcess_startPass, if_pos hid] at hrecorded
  obtain rfl := Option.some.inj hrecorded
  exact hfresh _ hmem rfl

theorem Steady.deploy (h : Steady s)
    (hcareful : Careful s (.deploy newBinary read now elapsed)) :
    Steady (s.step (.deploy newBinary read now elapsed)) := by
  obtain ⟨-, hcases⟩ := deploy_cases s.supervisor newBinary read now elapsed
  refine ⟨⟨fun p hp => ?_, fun d hd => ?_⟩, fun id p hp => ?_⟩
  · rw [manager_deploy]
    exact h.nothingLost.recorded p hp
  · rcases List.mem_append.mp hd with hd | hd
    · rcases hcases with ⟨hnone, -⟩ | ⟨hverify, hschema, result, hresult, hcount⟩
      · simp [hnone] at hd
      · have hempty := hcareful hverify hschema
        simp only [hresult, Option.map_some, Option.toList_some, List.mem_singleton] at hd
        subst hd
        refine ⟨(canHandoff_iff h).mpr hempty, ?_⟩
        show result.processesTransferred + result.processesRemaining =
          s.manager.allProcesses.countP _
        rw [hcount, hempty]
        have hvalues : s.supervisor.processManager.processes.values = [] := hempty
        rw [ProcessManager.processesOnVersion, hvalues]
        rfl
    · exact h.nothingLost.handedOff d hd
  · rw [manager_deploy] at hp
    exact h.known id p hp

/-- A deployment that succeeds promises that the handoff was safe. -/
theorem careful_deploy_of_nothingLost (h : Steady s)
    (hafter : NothingLost (s.step (.deploy newBinary read now elapsed))) :
    Careful s (.deploy newBinary read now elapsed) := by
  intro hverify hschema
  obtain ⟨-, ⟨-, hfailed⟩ | ⟨-, -, result, hresult, -⟩⟩ :=
    deploy_cases s.supervisor newBinary read now elapsed
  · exact absurd ⟨hverify, hschema⟩ hfailed
  · have hmem : ({ safe := HandoffManager.canHandoff s.manager
                   active := s.manager.allProcesses.countP (·.isActive), result } : Rollout) ∈
        (s.step (.deploy newBinary read now elapsed)).deployments := by
      simp only [step, hresult]
      exact List.mem_cons_self
    exact (canHandoff_iff h).mp (hafter.handedOff _ hmem).1

theorem Steady.step (h : Steady s) {call : Call} (hcareful : Careful s call) :
    Steady (s.step call) := by
  cases call with
  | startPass passId hardware spawn now =>
    cases spawn with
    | error e => exact h
    | ok pid => exact h.startPass hcareful
  | completePass passId kill =>
    simp only [Session.step, completePass_fst]
    exact h
  | deploy newBinary read now elapsed => exact h.deploy hcareful

theorem careful_of_nothingLost (h : Steady s) {call : Call} (hfresh : Fresh s call)
    (hafter : NothingLost (s.step call)) : Careful s call := by
  cases call with
  | startPass passId hardware spawn now =>
    cases spawn with
    | error e => trivial
    | ok pid => exact getProcess_eq_none_of_nothingLost h hfresh hafter
  | completePass passId kill => trivial
  | deploy newBinary read now elapsed => exact careful_deploy_of_nothingLost h hafter

end Step

/-- In a history of calls whose spawns have fresh pids, every process stays recorded and every
deployment was safe and counted every active process, exactly when no pass is started that is
recorded and no binary is deployed once a process is recorded. -/
theorem nothingLost_iff_careful (config : SupervisorConfig) (calls : List Call)
    (hfresh : Along step Fresh (new config) calls) :
    (∀ n, NothingLost (run step (new config) (calls.take n))) ↔
      Along step Careful (new config) calls :=
  along_iff_of_imp (fun _ h => h.nothingLost) (fun _ _ h _ hcareful => h.step hcareful)
    (fun _ _ h hfresh hafter => careful_of_nothingLost h hfresh hafter) (steady_new config) hfresh

section Example

def baseConfig : SupervisorConfig :=
  { binaryPath := "./ground-core", currentVersion := ⟨0, 1, 0⟩, schemaVersion := "1.0" }

/-- The next version, in an empty file. -/
def nextBinary : VersionedBinary :=
  { version := ⟨0, 2, 0⟩, path := "./ground-core-next", checksum := hexLower (sha256 [])
    builtAt := 0, schemaVersion := "1.0" }

def emptyFile (_ : String) : Option (List UInt8) := some []

def startOf (passId : PassId) (pid : UInt32) : Call :=
  .startPass passId ["sdr-0"] (.ok pid) 0

theorem verify_nextBinary : nextBinary.verify emptyFile = true := by
  simp [VersionedBinary.verify, VersionedBinary.computeChecksum, nextBinary, emptyFile]

/-- A deployment before any pass, and two passes. -/
theorem nothingLost_two_passes :
    NothingLost (run step (new baseConfig)
      [.deploy nextBinary emptyFile 0 1, startOf "a" 100, startOf "b" 101]) := by
  have hfresh : Along step Fresh (new baseConfig)
      [.deploy nextBinary emptyFile 0 1, startOf "a" 100, startOf "b" 101] := by
    refine ⟨trivial, fun p hp => absurd hp List.not_mem_nil, fun p hp => ?_, trivial⟩
    rw [List.mem_singleton.mp hp]
    exact (by decide : (100 : UInt32) ≠ 101)
  refine (nothingLost_iff_careful baseConfig _ hfresh).mpr ⟨fun _ _ => rfl, ?_, ?_, trivial⟩ 3
  · show ProcessManager.getProcess _ "a" = none
    rw [manager_deploy]
    rfl
  · show ProcessManager.getProcess _ "b" = none
    rw [startOf, getProcess_startPass, if_neg (by decide), manager_deploy]
    rfl

/-- A deployment while a pass is received is not safe, and the process of a pass that is started
again loses its record. -/
theorem pass_lost :
    ¬ NothingLost (run step (new baseConfig) [startOf "a" 100, .deploy nextBinary emptyFile 0 1]) ∧
      ¬ NothingLost (run step (new baseConfig) [startOf "a" 100, startOf "a" 101]) := by
  have hsteady : Steady ((new baseConfig).step (startOf "a" 100)) :=
    (steady_new baseConfig).startPass rfl
  constructor
  · intro h
    have hempty := careful_deploy_of_nothingLost hsteady h verify_nextBinary rfl
    exact absurd hempty (by decide)
  · intro h
    have hnone := getProcess_eq_none_of_nothingLost hsteady (fun p hp => ?_) h
    · exact absurd hnone (by decide)
    · rw [List.mem_singleton.mp hp]
      exact (by decide : (100 : UInt32) ≠ 101)

end Example

end Session

end GroundCore.Deployment
