import GroundCore.Core.Types
import GroundCore.Lib.FloatOps
import GroundCore.Lib.Run

/-! The safety interlock of an antenna.  One cell holds the latest condition, so a condition that is
still in force is forgotten when another is found or cleared. -/

namespace GroundCore.Acs

open Lib FloatOps

variable {F64 F32 : Type} [FloatOps F64 F32]

inductive InterlockState
  | normal
  | positionLimit
  | collision
  | motorFault
  | emergencyStop
  | watchdogTimeout
  | communicationLost
  deriving DecidableEq, Repr

structure SafetyInterlock (F64 : Type) where
  state : InterlockState
  azMin : F64
  azMax : F64
  elMin : F64
  elMax : F64
  emergencyStop : Bool
  lastHeartbeat : UInt64
  watchdogTimeoutMs : UInt64
  collisionZones : List (F64 × F64 × F64 × F64)

/-- `timestamp_millis` rounds down. -/
def timestampMillis (t : DateTime) : Int64 := Int64.ofInt (t / 1000000)

namespace SafetyInterlock

/-- `now` is the reading of the clock. -/
def new (azMin azMax elMin elMax : F64) (watchdogTimeoutMs : UInt64) (now : DateTime) :
    SafetyInterlock F64 :=
  { state := .normal, azMin, azMax, elMin, elMax, emergencyStop := false
    lastHeartbeat := (timestampMillis now).toUInt64, watchdogTimeoutMs, collisionZones := [] }

def checkPositionLimits (s : SafetyInterlock F64) (azimuth elevation : F64) : Bool :=
  le s.azMin azimuth && le azimuth s.azMax && le s.elMin elevation && le elevation s.elMax

def checkCollision (s : SafetyInterlock F64) (azimuth elevation : F64) : Bool :=
  s.collisionZones.any fun (azMin, azMax, elMin, elMax) =>
    le azMin azimuth && le azimuth azMax && le elMin elevation && le elevation elMax

def addCollisionZone (s : SafetyInterlock F64) (azMin azMax elMin elMax : F64) :
    SafetyInterlock F64 :=
  { s with collisionZones := s.collisionZones ++ [(azMin, azMax, elMin, elMax)] }

def triggerEmergencyStop (s : SafetyInterlock F64) : SafetyInterlock F64 :=
  { s with emergencyStop := true, state := .emergencyStop }

def clearEmergencyStop (s : SafetyInterlock F64) : SafetyInterlock F64 :=
  { s with emergencyStop := false, state := .normal }

def isEmergencyStop (s : SafetyInterlock F64) : Bool := s.emergencyStop

def updateWatchdog (s : SafetyInterlock F64) (now : DateTime) : SafetyInterlock F64 :=
  { s with lastHeartbeat := (timestampMillis now).toUInt64 }

def checkWatchdog (s : SafetyInterlock F64) (now : DateTime) : Bool :=
  let last := s.lastHeartbeat.toInt64
  decide (timestampMillis now - last < s.watchdogTimeoutMs.toInt64)

def validatePosition (s : SafetyInterlock F64) (azimuth elevation : F64) (now : DateTime) :
    SafetyInterlock F64 × Except InterlockState Unit :=
  if s.isEmergencyStop then ({ s with state := .emergencyStop }, .error .emergencyStop)
  else if !s.checkPositionLimits azimuth elevation then
    ({ s with state := .positionLimit }, .error .positionLimit)
  else if s.checkCollision azimuth elevation then
    ({ s with state := .collision }, .error .collision)
  else if !s.checkWatchdog now then
    ({ s with state := .watchdogTimeout }, .error .watchdogTimeout)
  else ({ s with state := .normal }, .ok ())

def getState (s : SafetyInterlock F64) : InterlockState := s.state

def setMotorFault (s : SafetyInterlock F64) : SafetyInterlock F64 := { s with state := .motorFault }

def clearMotorFault (s : SafetyInterlock F64) : SafetyInterlock F64 :=
  if s.state = .motorFault then { s with state := .normal } else s

def setCommunicationLost (s : SafetyInterlock F64) : SafetyInterlock F64 :=
  { s with state := .communicationLost }

def clearCommunicationLost (s : SafetyInterlock F64) : SafetyInterlock F64 :=
  if s.state = .communicationLost then { s with state := .normal } else s

end SafetyInterlock

/-! ### Runs, with the faults that are in force -/

inductive SafetyCall (F64 : Type)
  | addCollisionZone (azMin azMax elMin elMax : F64)
  | triggerEmergencyStop
  | clearEmergencyStop
  | updateWatchdog (now : DateTime)
  | checkWatchdog (now : DateTime)
  | checkPositionLimits (azimuth elevation : F64)
  | checkCollision (azimuth elevation : F64)
  | validatePosition (azimuth elevation : F64) (now : DateTime)
  | setMotorFault
  | clearMotorFault
  | setCommunicationLost
  | clearCommunicationLost

/-- The interlock, the faults that were set and not cleared, and whether a position was found valid
while there was one. -/
structure SafetySession (F64 : Type) where
  interlock : SafetyInterlock F64
  motorFault : Bool
  communicationLost : Bool
  stopped : Bool
  passed : Bool

namespace SafetySession

def new (interlock : SafetyInterlock F64) : SafetySession F64 :=
  { interlock, motorFault := false, communicationLost := false, stopped := false, passed := false }

/-- A fault was set and not cleared. -/
def Faulty (s : SafetySession F64) : Prop := s.motorFault = true ∨ s.communicationLost = true

instance (s : SafetySession F64) : Decidable s.Faulty := inferInstanceAs (Decidable (_ ∨ _))

def step (s : SafetySession F64) : SafetyCall F64 → SafetySession F64
  | .addCollisionZone azMin azMax elMin elMax =>
    { s with interlock := s.interlock.addCollisionZone azMin azMax elMin elMax }
  | .triggerEmergencyStop =>
    { s with interlock := s.interlock.triggerEmergencyStop, stopped := true }
  | .clearEmergencyStop => { s with interlock := s.interlock.clearEmergencyStop, stopped := false }
  | .updateWatchdog now => { s with interlock := s.interlock.updateWatchdog now }
  | .checkWatchdog _ => s
  | .checkPositionLimits _ _ => s
  | .checkCollision _ _ => s
  | .validatePosition azimuth elevation now =>
    let (interlock, result) := s.interlock.validatePosition azimuth elevation now
    { s with interlock, passed := s.passed || (decide s.Faulty && result.isOk) }
  | .setMotorFault => { s with interlock := s.interlock.setMotorFault, motorFault := true }
  | .clearMotorFault => { s with interlock := s.interlock.clearMotorFault, motorFault := false }
  | .setCommunicationLost =>
    { s with interlock := s.interlock.setCommunicationLost, communicationLost := true }
  | .clearCommunicationLost =>
    { s with interlock := s.interlock.clearCommunicationLost, communicationLost := false }

/-- No position was found valid while a fault was in force, and the state is not normal while one
is. -/
structure Latched (s : SafetySession F64) : Prop where
  not_passed : s.passed = false
  not_normal : s.Faulty → s.interlock.getState ≠ .normal

/-- While a fault is in force no position passes all checks and the emergency stop is not cleared;
and a fault that the state shows is not cleared while the other is in force. -/
def Admissible (s : SafetySession F64) : SafetyCall F64 → Prop
  | .validatePosition azimuth elevation now => s.Faulty →
      s.interlock.isEmergencyStop = true ∨
      s.interlock.checkPositionLimits azimuth elevation = false ∨
      s.interlock.checkCollision azimuth elevation = true ∨ s.interlock.checkWatchdog now = false
  | .clearEmergencyStop => ¬ s.Faulty
  | .clearMotorFault => s.interlock.getState = .motorFault → s.communicationLost = false
  | .clearCommunicationLost => s.interlock.getState = .communicationLost → s.motorFault = false
  | _ => True

variable {s : SafetySession F64}

/-- A position is found valid when it passes all checks, and the state becomes normal exactly
then. -/
theorem validatePosition_cases (s : SafetyInterlock F64) (azimuth elevation : F64)
    (now : DateTime) :
    ((s.isEmergencyStop = true ∨ s.checkPositionLimits azimuth elevation = false ∨
        s.checkCollision azimuth elevation = true ∨ s.checkWatchdog now = false) ∧
      ∃ state, state ≠ .normal ∧
        s.validatePosition azimuth elevation now = ({ s with state }, .error state)) ∨
    (¬ (s.isEmergencyStop = true ∨ s.checkPositionLimits azimuth elevation = false ∨
        s.checkCollision azimuth elevation = true ∨ s.checkWatchdog now = false) ∧
      s.validatePosition azimuth elevation now = ({ s with state := .normal }, .ok ())) := by
  unfold SafetyInterlock.validatePosition
  cases s.isEmergencyStop with
  | true => exact Or.inl ⟨by simp, .emergencyStop, by simp⟩
  | false =>
    cases s.checkPositionLimits azimuth elevation with
    | false => exact Or.inl ⟨by simp, .positionLimit, by simp⟩
    | true =>
      cases s.checkCollision azimuth elevation with
      | true => exact Or.inl ⟨by simp, .collision, by simp⟩
      | false =>
        cases s.checkWatchdog now with
        | false => exact Or.inl ⟨by simp, .watchdogTimeout, by simp⟩
        | true => exact Or.inr ⟨by simp, by simp⟩

/-- The flag of the emergency stop is up from its trigger until it is cleared. -/
theorem stopped_step (h : s.stopped = s.interlock.emergencyStop) (c : SafetyCall F64) :
    (s.step c).stopped = (s.step c).interlock.emergencyStop := by
  cases c with
  | validatePosition azimuth elevation now =>
    obtain ⟨-, state, -, heq⟩ | ⟨-, heq⟩ :=
      validatePosition_cases s.interlock azimuth elevation now
    · simp only [step, heq]
      exact h
    · simp only [step, heq]
      exact h
  | clearMotorFault =>
    simp only [step, SafetyInterlock.clearMotorFault]
    split <;> exact h
  | clearCommunicationLost =>
    simp only [step, SafetyInterlock.clearCommunicationLost]
    split <;> exact h
  | triggerEmergencyStop => rfl
  | clearEmergencyStop => rfl
  | _ => exact h

/-- The end of one fault, after which `motor` and `comm` tell of the faults in force: it is right
when no fault is left, or the state shows another. -/
theorem latched_cleared (h : Latched s) (fault : InterlockState) {motor comm : Bool}
    (hsub : motor = true ∨ comm = true → s.Faulty) :
    Latched { s with
      interlock := if s.interlock.state = fault then { s.interlock with state := .normal }
        else s.interlock
      motorFault := motor, communicationLost := comm } ↔
      (s.interlock.getState = fault → ¬ (motor = true ∨ comm = true)) := by
  by_cases hstate : s.interlock.state = fault
  · rw [if_pos hstate]
    constructor
    · exact fun hafter _ hfaulty => hafter.not_normal hfaulty rfl
    · exact fun hnone => ⟨h.not_passed, fun hfaulty => absurd hfaulty (hnone hstate)⟩
  · rw [if_neg hstate]
    exact iff_of_true ⟨h.not_passed, fun hfaulty => h.not_normal (hsub hfaulty)⟩
      fun heq => absurd heq hstate

/-- One call keeps the faults latched exactly when it is admissible. -/
theorem latched_step (h : Latched s) (c : SafetyCall F64) :
    Latched (s.step c) ↔ Admissible s c := by
  cases c with
  | addCollisionZone azMin azMax elMin elMax =>
    exact iff_of_true ⟨h.not_passed, h.not_normal⟩ trivial
  | triggerEmergencyStop => exact iff_of_true ⟨h.not_passed, fun _ => nofun⟩ trivial
  | clearEmergencyStop =>
    constructor
    · exact fun hafter hfaulty => hafter.not_normal hfaulty rfl
    · exact fun hnone => ⟨h.not_passed, fun hfaulty => absurd hfaulty hnone⟩
  | updateWatchdog now => exact iff_of_true ⟨h.not_passed, h.not_normal⟩ trivial
  | checkWatchdog now => exact iff_of_true h trivial
  | checkPositionLimits azimuth elevation => exact iff_of_true h trivial
  | checkCollision azimuth elevation => exact iff_of_true h trivial
  | validatePosition azimuth elevation now =>
    obtain ⟨hfails, state, hnormal, heq⟩ | ⟨hpasses, heq⟩ :=
      validatePosition_cases s.interlock azimuth elevation now
    · simp only [SafetySession.step, Admissible, heq]
      refine iff_of_true ⟨?_, fun _ => hnormal⟩ fun _ => hfails
      simp [h.not_passed, Except.isOk, Except.toBool]
    · simp only [SafetySession.step, Admissible, heq]
      constructor
      · exact fun hafter hfaulty => absurd rfl (hafter.not_normal hfaulty)
      · intro hadmissible
        have hnone : ¬ s.Faulty := fun hfaulty => hpasses (hadmissible hfaulty)
        exact ⟨by simp [h.not_passed, hnone], fun hfaulty => absurd hfaulty hnone⟩
  | setMotorFault => exact iff_of_true ⟨h.not_passed, fun _ => nofun⟩ trivial
  | clearMotorFault =>
    have hsub : false = true ∨ s.communicationLost = true → s.Faulty :=
      fun hfaulty => Or.inr (hfaulty.resolve_left (by simp))
    refine (latched_cleared h .motorFault hsub).trans ?_
    simp [Admissible]
  | setCommunicationLost => exact iff_of_true ⟨h.not_passed, fun _ => nofun⟩ trivial
  | clearCommunicationLost =>
    have hsub : s.motorFault = true ∨ false = true → s.Faulty :=
      fun hfaulty => Or.inl (hfaulty.resolve_right (by simp))
    refine (latched_cleared h .communicationLost hsub).trans ?_
    simp [Admissible]

/-- A run keeps the faults latched throughout exactly when every call is admissible; from the
trigger of the emergency stop until it is cleared, no position is valid in any case. -/
theorem faults_latched_iff (azMin azMax elMin elMax : F64) (watchdogTimeoutMs : UInt64)
    (start : DateTime) (calls : List (SafetyCall F64)) :
    ((∀ n, Latched (run step
        (new (.new azMin azMax elMin elMax watchdogTimeoutMs start)) (calls.take n))) ↔
      Along step Admissible (new (.new azMin azMax elMin elMax watchdogTimeoutMs start)) calls) ∧
    ∀ n, (run step (new (.new azMin azMax elMin elMax watchdogTimeoutMs start))
        (calls.take n)).stopped = true →
      ∀ azimuth elevation now, ((run step (new (.new azMin azMax elMin elMax watchdogTimeoutMs
        start)) (calls.take n)).interlock.validatePosition azimuth elevation now).2 =
          .error .emergencyStop := by
  constructor
  · exact along_iff_invariant (I := Latched) (fun _ c h => latched_step h c)
      ⟨rfl, fun hfaulty => by simp [Faulty, new] at hfaulty⟩
  · intro n hstopped azimuth elevation now
    have hflag := run_preserves
      (I := fun s : SafetySession F64 => s.stopped = s.interlock.emergencyStop)
      (fun _ c h => stopped_step h c)
      (s := new (.new azMin azMax elMin elMax watchdogTimeoutMs start)) rfl (calls.take n)
    rw [hflag] at hstopped
    unfold SafetyInterlock.validatePosition SafetyInterlock.isEmergencyStop
    rw [hstopped]
    rfl

/-- A motor fault is forgotten by the next valid position, by the end of an emergency stop, and when
the link is lost and found again. -/
theorem faults_not_latched :
    letI := FloatOps.exact id id
    ¬ Latched (run step (new (SafetyInterlock.new (0 : ℚ) 360 0 90 1000 0))
      [.setMotorFault, .validatePosition 10 20 0]) ∧
    ¬ Latched (run step (new (SafetyInterlock.new (0 : ℚ) 360 0 90 1000 0))
      [.setMotorFault, .triggerEmergencyStop, .clearEmergencyStop]) ∧
    ¬ Latched (run step (new (SafetyInterlock.new (0 : ℚ) 360 0 90 1000 0))
      [.setMotorFault, .setCommunicationLost, .clearCommunicationLost]) := by
  let _ := FloatOps.exact id id
  refine ⟨fun h => ?_, fun h => ?_, fun h => ?_⟩
  · exact absurd h.not_passed (by decide +kernel)
  · exact h.not_normal (Or.inl rfl) rfl
  · exact h.not_normal (Or.inl rfl) rfl

end SafetySession

end GroundCore.Acs
