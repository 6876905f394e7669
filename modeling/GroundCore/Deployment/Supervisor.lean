import GroundCore.Core.Types
import GroundCore.Lib.HashMap
import GroundCore.Lib.Sha256

/-! Versioned binaries, and the subprocesses started from them, one record for each pass. -/

namespace GroundCore.Deployment

open Lib

structure Version where
  major : UInt32
  minor : UInt32
  patch : UInt32
  deriving DecidableEq, Repr

structure VersionedBinary where
  version : Version
  path : String
  checksum : String
  builtAt : DateTime
  schemaVersion : String
  deriving DecidableEq, Repr

namespace VersionedBinary

/-- `read` is what reading a file returns; a file that cannot be read has no checksum. -/
def computeChecksum (read : String → Option (List UInt8)) (path : String) : Option String :=
  (read path).map fun data => hexLower (sha256 data)

def verify (binary : VersionedBinary) (read : String → Option (List UInt8)) : Bool :=
  match computeChecksum read binary.path with
  | some computed => computed = binary.checksum
  | none => false

def schemaCompatible (binary other : VersionedBinary) : Bool :=
  binary.schemaVersion = other.schemaVersion

end VersionedBinary

inductive ProcessState
  | starting
  | running
  | completing
  | completed
  | failed
  | killed
  deriving DecidableEq, Repr

structure ProcessHandle where
  pid : UInt32
  binaryVersion : Version
  startedAt : DateTime
  state : ProcessState
  deriving DecidableEq, Repr

structure SharedMemoryHandle where
  regionId : String
  size : ℕ
  schemaVersion : String
  deriving DecidableEq, Repr

structure PassProcess where
  passId : PassId
  process : ProcessHandle
  allocatedHardware : List String
  stateHandle : SharedMemoryHandle
  deriving DecidableEq, Repr

def PassProcess.new (passId : PassId) (pid : UInt32) (binaryVersion : Version)
    (allocatedHardware : List String) (stateHandle : SharedMemoryHandle) (now : DateTime) :
    PassProcess :=
  { passId, process := { pid, binaryVersion, startedAt := now, state := .starting }
    allocatedHardware, stateHandle }

structure ProcessManager where
  processes : HashMap PassId PassProcess

namespace ProcessManager

def new : ProcessManager := ⟨∅⟩

def addProcess (manager : ProcessManager) (process : PassProcess) : ProcessManager :=
  ⟨manager.processes.insert process.passId process⟩

def getProcess (manager : ProcessManager) (passId : PassId) : Option PassProcess :=
  manager.processes.get? passId

def allProcesses (manager : ProcessManager) : List PassProcess := manager.processes.values

def processesOnVersion (manager : ProcessManager) (version : Version) : List PassProcess :=
  manager.processes.values.filter fun p => p.process.binaryVersion = version

theorem getProcess_addProcess (manager : ProcessManager) (process : PassProcess) (passId : PassId) :
    (manager.addProcess process).getProcess passId =
      if passId = process.passId then some process else manager.getProcess passId :=
  HashMap.get?_insert ..

theorem mem_allProcesses {manager : ProcessManager} {process : PassProcess} :
    process ∈ manager.allProcesses ↔ ∃ passId, manager.getProcess passId = some process :=
  HashMap.mem_values

end ProcessManager

end GroundCore.Deployment

/-! The supervisor of the pass subprocesses, and the handoff when it deploys a new binary.  What the
operating system answers is an input: whether a spawn succeeds and with which pid, what the signal
to a process returns, and what is read from a file. -/

namespace GroundCore.Deployment

open Lib

structure SupervisorConfig where
  binaryPath : String
  currentVersion : Version
  schemaVersion : String
  deriving DecidableEq, Repr

structure HandoffResult where
  success : Bool
  oldVersion : Version
  newVersion : Version
  processesTransferred : ℕ
  processesRemaining : ℕ
  durationMs : ℕ
  deriving DecidableEq, Repr

namespace HandoffManager

/-- The processes are not touched; those on the current version count as transferred. -/
def performHandoff (processManager : ProcessManager) (oldConfig : SupervisorConfig)
    (newBinary : VersionedBinary) (elapsed : ℕ) : Result HandoffResult :=
  let oldVersion := oldConfig.currentVersion
  let totalOldProcesses := (processManager.processesOnVersion oldVersion).length
  .ok { success := true, oldVersion, newVersion := newBinary.version
        processesTransferred := totalOldProcesses, processesRemaining := 0, durationMs := elapsed }

/-- No process is still starting. -/
def canHandoff (processManager : ProcessManager) : Bool :=
  processManager.allProcesses.all fun p => p.process.state ≠ .starting

end HandoffManager

structure Supervisor where
  config : SupervisorConfig
  processManager : ProcessManager

namespace Supervisor

def new (config : SupervisorConfig) : Supervisor := { config, processManager := .new }

/-- Starts a pass subprocess; `spawn` is the pid of the child or the error. -/
def startPass (s : Supervisor) (passId : PassId) (hardware : List String)
    (spawn : Except String UInt32) (now : DateTime) : Supervisor × Result PassProcess :=
  match spawn with
  | .error e => (s, .error (.hardware s!"Failed to spawn pass process {passId}: {e}"))
  | .ok pid =>
    let process := PassProcess.new passId pid s.config.currentVersion hardware
      { regionId := s!"shard-{passId}", size := 1024 * 1024
        schemaVersion := s.config.schemaVersion } now
    ({ s with processManager := s.processManager.addProcess process }, .ok process)

/-- Signals a pass subprocess to complete; `kill` is whether the signal was delivered, or the error.
A process that may have exited already is no error. -/
def completePass (s : Supervisor) (passId : PassId) (kill : Except String Bool) :
    Supervisor × Result Unit :=
  match s.processManager.getProcess passId with
  | none => (s, .error (.hardware s!"Pass {passId} not found"))
  | some process =>
    match kill with
    | .ok _ => (s, .ok ())
    | .error e =>
      let pid := process.process.pid
      (s, .error (.hardware s!"Failed to send SIGTERM to PID {pid}: {e}"))

def deploy (s : Supervisor) (newBinary : VersionedBinary) (read : String → Option (List UInt8))
    (now : DateTime) (elapsed : ℕ) : Supervisor × Result HandoffResult :=
  if !newBinary.verify read then (s, .error (.hardware "Binary verification failed"))
  else if !newBinary.schemaCompatible
      { version := s.config.currentVersion, path := s.config.binaryPath, checksum := ""
        builtAt := now, schemaVersion := s.config.schemaVersion } then
    (s, .error (.hardware "Schema version incompatible - requires migration"))
  else
    match HandoffManager.performHandoff s.processManager s.config newBinary elapsed with
    | .error e => (s, .error e)
    | .ok result =>
      ({ s with config := { binaryPath := newBinary.path, currentVersion := newBinary.version
                            schemaVersion := newBinary.schemaVersion } }, .ok result)

end Supervisor

end GroundCore.Deployment
