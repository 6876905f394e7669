import GroundCore.Bitemporal.Timestamp
import GroundCore.Oisl.Types

/-! The handoff of a satellite's control plane from one node to another: the state machine of one
handoff, and the manager that keeps the handoffs of all satellites in one vector.  `clock i` is the
reading of the clock that a call makes after `i` others. -/

namespace GroundCore.Oisl.Federation

open Bitemporal

abbrev Clock := ℕ → DateTime

/-- `BiTemporal::new(Utc::now(), Utc::now().into(), Utc::now().into())` from reading `i` on. -/
def stamp (clock : Clock) (i : ℕ) : BiTemporal DateTime :=
  { value := clock i, eventTime := ⟨clock (i + 1)⟩, receptionTime := ⟨clock (i + 2)⟩ }

inductive HandoffStep
  | requestSubmitted
  | sourceReleasing
  | configurationSynced
  | targetPersisted
  | configurationLoaded
  | channelEstablished
  | targetBound
  | clientsetSwitched
  | sourceReleased
  | handoffComplete
  deriving DecidableEq, Repr

/-- The place of a step in the declared order. -/
def HandoffStep.index : HandoffStep → ℕ
  | .requestSubmitted => 0
  | .sourceReleasing => 1
  | .configurationSynced => 2
  | .targetPersisted => 3
  | .configurationLoaded => 4
  | .channelEstablished => 5
  | .targetBound => 6
  | .clientsetSwitched => 7
  | .sourceReleased => 8
  | .handoffComplete => 9

inductive HandoffState
  | idle
  | initiated (initiatedAt : BiTemporal DateTime)
  | processing (step : HandoffStep) (startedAt : BiTemporal DateTime)
  | complete (completedAt : BiTemporal DateTime)
  | failed (reason : String) (failedAt : BiTemporal DateTime)
  deriving DecidableEq, Repr

namespace HandoffState

def isInProgress : HandoffState → Bool
  | .initiated _ | .processing _ _ => true
  | _ => false

def isComplete : HandoffState → Bool
  | .complete _ => true
  | _ => false

def isFailed : HandoffState → Bool
  | .failed _ _ => true
  | _ => false

/-- The step of a state that is processing one. -/
def step? : HandoffState → Option HandoffStep
  | .processing step _ => some step
  | _ => none

end HandoffState

inductive HandoffTrigger
  | satelliteInitiated
  | geometryChange
  | controlNodeDegradation
  | manualCommand
  | timeout
  | error (message : String)
  deriving DecidableEq, Repr

structure HandoffStateTransition where
  fromState : HandoffState
  toState : HandoffState
  transitionTime : BiTemporal DateTime
  trigger : HandoffTrigger
  deriving DecidableEq, Repr

structure HandoffMetrics where
  totalDurationMs : ℕ
  configurationSyncDurationMs : ℕ
  channelEstablishmentDurationMs : ℕ
  clientsetSwitchDurationMs : ℕ
  bytesTransferred : ℕ
  lastUpdated : DateTime
  deriving DecidableEq, Repr

def HandoffMetrics.default (now : DateTime) : HandoffMetrics := ⟨0, 0, 0, 0, 0, now⟩

inductive HandoffError
  | handoffAlreadyInProgress (satelliteId : SatelliteId)
  | handoffNotFound (satelliteId : SatelliteId)
  | invalidHandoffState (satelliteId : SatelliteId)
  deriving DecidableEq

structure ControlPlaneHandoff where
  satelliteId : SatelliteId
  sourceNode : NodeId
  targetNode : NodeId
  state : HandoffState
  stateHistory : List HandoffStateTransition
  handoffMetrics : HandoffMetrics
  deriving DecidableEq, Repr

namespace ControlPlaneHandoff

def new (satelliteId : SatelliteId) (sourceNode targetNode : NodeId) (now : DateTime) :
    ControlPlaneHandoff :=
  { satelliteId, sourceNode, targetNode, state := .idle, stateHistory := [],
    handoffMetrics := .default now }

def transitionTo (handoff : ControlPlaneHandoff) (newState : HandoffState)
    (trigger : HandoffTrigger) (now : DateTime) : ControlPlaneHandoff :=
  let transition : HandoffStateTransition :=
    { fromState := handoff.state, toState := newState,
      transitionTime := { value := now, eventTime := ⟨now⟩, receptionTime := ⟨now⟩ }, trigger }
  { handoff with state := newState, stateHistory := handoff.stateHistory ++ [transition] }

def updateMetrics (handoff : ControlPlaneHandoff) (metrics : HandoffMetrics) :
    ControlPlaneHandoff :=
  { handoff with handoffMetrics := metrics }

def isInProgress (handoff : ControlPlaneHandoff) : Bool := handoff.state.isInProgress

def isComplete (handoff : ControlPlaneHandoff) : Bool := handoff.state.isComplete

def isFailed (handoff : ControlPlaneHandoff) : Bool := handoff.state.isFailed

/-! What the manager's calls do to the handoff that they find. -/

def initiate (satelliteId : SatelliteId) (sourceNode targetNode : NodeId) (clock : Clock) :
    ControlPlaneHandoff :=
  (new satelliteId sourceNode targetNode (clock 0)).transitionTo (.initiated (stamp clock 1))
    .satelliteInitiated (clock 4)

def advance (nextStep : HandoffStep) (clock : Clock) (handoff : ControlPlaneHandoff) :
    ControlPlaneHandoff :=
  let handoff := handoff.transitionTo (.processing nextStep (stamp clock 0)) .satelliteInitiated
    (clock 3)
  if nextStep = .handoffComplete then
    handoff.transitionTo (.complete (stamp clock 4)) .satelliteInitiated (clock 7)
  else handoff

def complete (metrics : HandoffMetrics) (clock : Clock) (handoff : ControlPlaneHandoff) :
    ControlPlaneHandoff :=
  (handoff.updateMetrics metrics).transitionTo (.complete (stamp clock 0)) .satelliteInitiated
    (clock 3)

def fail (reason : String) (clock : Clock) (handoff : ControlPlaneHandoff) : ControlPlaneHandoff :=
  handoff.transitionTo (.failed reason (stamp clock 0)) (.error reason) (clock 3)

end ControlPlaneHandoff

structure HandoffManager where
  activeHandoffs : List ControlPlaneHandoff

namespace HandoffManager

def new : HandoffManager := ⟨[]⟩

/-- The place of the first handoff of a satellite, which is the one that every call acts on. -/
def locate (manager : HandoffManager) (satelliteId : SatelliteId) : Option ℕ :=
  manager.activeHandoffs.findIdx? fun h => h.satelliteId = satelliteId

def initiateHandoff (manager : HandoffManager) (satelliteId : SatelliteId)
    (sourceNode targetNode : NodeId) (clock : Clock) :
    HandoffManager × Except HandoffError ControlPlaneHandoff :=
  if manager.activeHandoffs.any fun h => h.satelliteId = satelliteId && h.isInProgress then
    (manager, .error (.handoffAlreadyInProgress satelliteId))
  else
    let handoff := ControlPlaneHandoff.initiate satelliteId sourceNode targetNode clock
    (⟨manager.activeHandoffs ++ [handoff]⟩, .ok handoff)

def getHandoff (manager : HandoffManager) (satelliteId : SatelliteId) :
    Option ControlPlaneHandoff :=
  (manager.locate satelliteId).bind fun i => manager.activeHandoffs[i]?

/-- Updates the first handoff of a satellite if it is in a state that `ready` allows. -/
def update (manager : HandoffManager) (satelliteId : SatelliteId)
    (ready : ControlPlaneHandoff → Bool) (f : ControlPlaneHandoff → ControlPlaneHandoff) :
    HandoffManager × Except HandoffError Unit :=
  match manager.locate satelliteId with
  | none => (manager, .error (.handoffNotFound satelliteId))
  | some i =>
    if (manager.activeHandoffs[i]?).any ready then
      (⟨manager.activeHandoffs.modify i f⟩, .ok ())
    else (manager, .error (.invalidHandoffState satelliteId))

def advanceHandoff (manager : HandoffManager) (satelliteId : SatelliteId)
    (nextStep : HandoffStep) (clock : Clock) : HandoffManager × Except HandoffError Unit :=
  manager.update satelliteId (·.isInProgress) (.advance nextStep clock)

/-- Unlike `advanceHandoff`, the next two do not look at the state of the handoff. -/
def completeHandoff (manager : HandoffManager) (satelliteId : SatelliteId)
    (metrics : HandoffMetrics) (clock : Clock) : HandoffManager × Except HandoffError Unit :=
  manager.update satelliteId (fun _ => true) (.complete metrics clock)

def failHandoff (manager : HandoffManager) (satelliteId : SatelliteId) (reason : String)
    (clock : Clock) : HandoffManager × Except HandoffError Unit :=
  manager.update satelliteId (fun _ => true) (.fail reason clock)

def cleanupCompleted (manager : HandoffManager) : HandoffManager :=
  ⟨manager.activeHandoffs.filter fun h => !h.isComplete⟩

end HandoffManager

end GroundCore.Oisl.Federation
