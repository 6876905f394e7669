import GroundCore.Lib.NanFloat
import GroundCore.Lib.Run
import GroundCore.Oisl.Types

/-! The controller that points an antenna.  Only `point` looks whether the controller is enabled;
the status alone tells of an emergency stop, and most calls overwrite it.

The motion of an antenna is safe when its position lies within the limits, stays where it is
while the controller is disabled, and stays with the status after an emergency stop. -/

namespace GroundCore.Acs

open Lib FloatOps

variable {F64 F32 : Type} [FloatOps F64 F32]

abbrev SlewId := Oisl.Uuid

structure PointingTarget (F64 : Type) where
  azimuth : F64
  elevation : F64
  timestamp : DateTime

inductive ControllerStatus
  | idle
  | slewing
  | tracking
  | homing
  | stowed
  | fault
  | emergencyStopped
  deriving DecidableEq, Repr

structure GenericAntennaController (F64 : Type) where
  status : ControllerStatus
  currentAzimuth : F64
  currentElevation : F64
  targetAzimuth : F64
  targetElevation : F64
  azimuthMin : F64
  azimuthMax : F64
  elevationMin : F64
  elevationMax : F64
  stowAzimuth : F64
  stowElevation : F64
  enabled : Bool

namespace GenericAntennaController

def new (azimuthMin azimuthMax elevationMin elevationMax : F64) : GenericAntennaController F64 :=
  { status := .idle, currentAzimuth := lit 0, currentElevation := lit 0, targetAzimuth := lit 0
    targetElevation := lit 0, azimuthMin, azimuthMax, elevationMin, elevationMax
    stowAzimuth := lit 0, stowElevation := lit 5, enabled := false }

def withStowPosition (c : GenericAntennaController F64) (azimuth elevation : F64) :
    GenericAntennaController F64 :=
  { c with stowAzimuth := azimuth, stowElevation := elevation }

/-- The text of a position out of range; `display` prints a number. -/
def outOfRange (display : F64 → String) (axis : String) (x low high : F64) : String :=
  axis ++ " " ++ display x ++ " out of range [" ++ display low ++ ", " ++ display high ++ "]"

variable (display : F64 → String)

/-- Pointing is simulated: the antenna is at the target at once. -/
def point (c : GenericAntennaController F64) (azimuth elevation : F64) :
    GenericAntennaController F64 × Result Unit :=
  if !c.enabled then (c, .error (.hardware "Controller disabled"))
  else if lt azimuth c.azimuthMin || lt c.azimuthMax azimuth then
    (c, .error (.validation (outOfRange display "Azimuth" azimuth c.azimuthMin c.azimuthMax)))
  else if lt elevation c.elevationMin || lt c.elevationMax elevation then
    (c, .error (.validation
      (outOfRange display "Elevation" elevation c.elevationMin c.elevationMax)))
  else
    let c := { c with targetAzimuth := azimuth, targetElevation := elevation, status := .slewing }
    ({ c with currentAzimuth := azimuth, currentElevation := elevation, status := .idle }, .ok ())

def getPosition (c : GenericAntennaController F64) : F64 × F64 :=
  (c.currentAzimuth, c.currentElevation)

def slewTo (c : GenericAntennaController F64) (target : PointingTarget F64) (slewId : SlewId) :
    GenericAntennaController F64 × Result SlewId :=
  let (c, result) := c.point display target.azimuth target.elevation
  (c, result.map fun _ => slewId)

def abortSlew (c : GenericAntennaController F64) : GenericAntennaController F64 :=
  { c with status := .idle }

def stow (c : GenericAntennaController F64) : GenericAntennaController F64 × Result Unit :=
  match c.point display c.stowAzimuth c.stowElevation with
  | (c, .ok _) => ({ c with status := .stowed }, .ok ())
  | (c, .error e) => (c, .error e)

def getStatus (c : GenericAntennaController F64) : ControllerStatus := c.status

def enable (c : GenericAntennaController F64) : GenericAntennaController F64 :=
  { c with enabled := true }

def disable (c : GenericAntennaController F64) : GenericAntennaController F64 :=
  { c with enabled := false, status := .idle }

def emergencyStop (c : GenericAntennaController F64) : GenericAntennaController F64 :=
  { c with status := .emergencyStopped }

def home (c : GenericAntennaController F64) : GenericAntennaController F64 :=
  let c := { c with status := .homing }
  { c with currentAzimuth := lit 0, currentElevation := lit 0, status := .idle }

end GenericAntennaController

inductive ControllerCall (F64 : Type)
  | point (azimuth elevation : F64)
  | slewTo (target : PointingTarget F64) (slewId : SlewId)
  | abortSlew
  | stow
  | enable
  | disable
  | emergencyStop
  | home

/-- The controller, the position in which it was disabled, and the one in which it was stopped,
until it is enabled. -/
structure MotionSession (F64 : Type) where
  controller : GenericAntennaController F64
  disabledAt : F64 × F64
  stoppedAt : Option (F64 × F64)

namespace MotionSession

/-- A new controller is disabled. -/
def new (controller : GenericAntennaController F64) : MotionSession F64 :=
  { controller, disabledAt := controller.getPosition, stoppedAt := none }

def step (display : F64 → String) (s : MotionSession F64) : ControllerCall F64 → MotionSession F64
  | .point azimuth elevation =>
    { s with controller := (s.controller.point display azimuth elevation).1 }
  | .slewTo target slewId => { s with controller := (s.controller.slewTo display target slewId).1 }
  | .abortSlew => { s with controller := s.controller.abortSlew }
  | .stow => { s with controller := (s.controller.stow display).1 }
  | .enable => { s with controller := s.controller.enable, stoppedAt := none }
  | .disable =>
    { s with
      controller := s.controller.disable
      disabledAt := if s.controller.enabled then s.controller.getPosition else s.disabledAt }
  | .emergencyStop =>
    { s with
      controller := s.controller.emergencyStop
      stoppedAt := some (s.stoppedAt.getD s.controller.getPosition) }
  | .home => { s with controller := s.controller.home }

/-- The position lies within the limits. -/
def Within (c : GenericAntennaController F64) : Prop :=
  (le c.azimuthMin c.currentAzimuth = true ∧ le c.currentAzimuth c.azimuthMax = true) ∧
    le c.elevationMin c.currentElevation = true ∧ le c.currentElevation c.elevationMax = true

structure Safe (s : MotionSession F64) : Prop where
  within : Within s.controller
  disabled : s.controller.enabled = false → s.controller.getPosition = s.disabledAt
  stopped : ∀ position, s.stoppedAt = some position →
    s.controller.getPosition = position ∧ s.controller.getStatus = .emergencyStopped

/-- The position with both angles zero is within the limits. -/
def Centered (c : GenericAntennaController F64) : Prop :=
  (le c.azimuthMin (lit 0) = true ∧ le (lit 0) c.azimuthMax = true) ∧
    le c.elevationMin (lit 0) = true ∧ le (lit 0) c.elevationMax = true

/-- What `point` checks. -/
def Accepts (c : GenericAntennaController F64) (azimuth elevation : F64) : Prop :=
  c.enabled = true ∧ (lt azimuth c.azimuthMin || lt c.azimuthMax azimuth) = false ∧
    (lt elevation c.elevationMin || lt c.elevationMax elevation) = false

variable {display : F64 → String} {s : MotionSession F64}

theorem point_cases (display : F64 → String) (c : GenericAntennaController F64)
    (azimuth elevation : F64) :
    (¬ Accepts c azimuth elevation ∧ ∃ e, c.point display azimuth elevation = (c, .error e)) ∨
    (Accepts c azimuth elevation ∧ c.point display azimuth elevation =
      ({ c with
        targetAzimuth := azimuth, targetElevation := elevation, currentAzimuth := azimuth
        currentElevation := elevation, status := .idle }, .ok ())) := by
  unfold GenericAntennaController.point Accepts
  cases c.enabled with
  | false => exact Or.inl ⟨by simp, _, rfl⟩
  | true =>
    cases hazimuth : lt azimuth c.azimuthMin || lt c.azimuthMax azimuth with
    | true => exact Or.inl ⟨by simp, _, rfl⟩
    | false =>
      cases helevation : lt elevation c.elevationMin || lt c.elevationMax elevation with
      | true => exact Or.inl ⟨by simp, _, rfl⟩
      | false => exact Or.inr ⟨by simp, rfl⟩

/-- A call that leaves the status `idle` is safe when the antenna is not stopped. -/
theorem safe_of_idle {c : GenericAntennaController F64} {disabledAt : F64 × F64}
    (hwithin : Within c) (hdisabled : c.enabled = false → c.getPosition = disabledAt)
    (hidle : c.status = .idle) :
    Safe { s with controller := c, disabledAt } ↔ s.stoppedAt = none := by
  constructor
  · intro hafter
    cases hstopped : s.stoppedAt with
    | none => rfl
    | some position =>
      exact absurd (hidle.symm.trans (hafter.stopped position hstopped).2) (by decide)
  · intro hstopped
    refine ⟨hwithin, hdisabled, fun position hposition => ?_⟩
    exact absurd (hstopped.symm.trans hposition) (by simp)

theorem centered_point {c : GenericAntennaController F64} (hcentered : Centered c)
    (azimuth elevation : F64) : Centered (c.point display azimuth elevation).1 := by
  obtain ⟨-, e, heq⟩ | ⟨-, heq⟩ := point_cases display c azimuth elevation
  · rw [heq]
    exact hcentered
  · rw [heq]
    exact hcentered

/-- The limits are those that the controller was made with. -/
theorem centered_step (hcentered : Centered s.controller) (c : ControllerCall F64) :
    Centered (s.step display c).controller := by
  cases c with
  | point azimuth elevation => exact centered_point hcentered azimuth elevation
  | slewTo target slewId => exact centered_point hcentered target.azimuth target.elevation
  | stow =>
    obtain ⟨-, e, heq⟩ | ⟨-, heq⟩ :=
      point_cases display s.controller s.controller.stowAzimuth s.controller.stowElevation
    · simp only [step, GenericAntennaController.stow, heq]
      exact hcentered
    · simp only [step, GenericAntennaController.stow, heq]
      exact hcentered
  | _ => exact hcentered

section Numbers

variable [NanFloat F64 F32]

open NanFloat

/-- A movement is to numbers and not while the antenna is stopped; a disabled antenna is homed only
from the home position; and until the controller is enabled after an emergency stop, no call changes
the status. -/
def Admissible (s : MotionSession F64) : ControllerCall F64 → Prop
  | .point azimuth elevation => Accepts s.controller azimuth elevation →
      (isNan azimuth = false ∧ isNan elevation = false) ∧ s.stoppedAt = none
  | .slewTo target _ => Accepts s.controller target.azimuth target.elevation →
      (isNan target.azimuth = false ∧ isNan target.elevation = false) ∧ s.stoppedAt = none
  | .stow => Accepts s.controller s.controller.stowAzimuth s.controller.stowElevation →
      (isNan s.controller.stowAzimuth = false ∧ isNan s.controller.stowElevation = false) ∧
        s.stoppedAt = none
  | .home => s.stoppedAt = none ∧
      (s.controller.enabled = false → s.controller.getPosition = (lit 0, lit 0))
  | .abortSlew => s.stoppedAt = none
  | .disable => s.stoppedAt = none
  | .enable => True
  | .emergencyStop => True

/-- A position that passes the checks is within the limits when both angles are numbers. -/
theorem within_of_accepts {c c' : GenericAntennaController F64} (hcentered : Centered c)
    {azimuth elevation : F64} (haccepts : Accepts c azimuth elevation)
    (hazimuthMin : c'.azimuthMin = c.azimuthMin) (hazimuthMax : c'.azimuthMax = c.azimuthMax)
    (helevationMin : c'.elevationMin = c.elevationMin)
    (helevationMax : c'.elevationMax = c.elevationMax)
    (hposition : c'.getPosition = (azimuth, elevation)) :
    Within c' ↔ isNan azimuth = false ∧ isNan elevation = false := by
  obtain ⟨-, hazimuth, helevation⟩ := haccepts
  obtain ⟨⟨hlow, hhigh⟩, hdown, hup⟩ := hcentered
  obtain ⟨hazimuth', helevation'⟩ := Prod.mk.inj hposition
  rw [Bool.or_eq_false_iff] at hazimuth helevation
  rw [le_iff] at hlow hhigh hdown hup
  unfold Within
  rw [hazimuthMin, hazimuthMax, helevationMin, helevationMax, hazimuth', helevation']
  simp only [le_iff, hlow.1, hhigh.2.1, hdown.1, hup.2.1, hazimuth, helevation, true_and, and_true,
    and_self]

/-- An accepted movement, after which the status is `status`. -/
theorem safe_moved (hcentered : Centered s.controller) {azimuth elevation : F64}
    (haccepts : Accepts s.controller azimuth elevation) {status : ControllerStatus}
    (hstatus : status ≠ .emergencyStopped) :
    Safe ({ s with
      controller := { s.controller with
        targetAzimuth := azimuth, targetElevation := elevation, currentAzimuth := azimuth
        currentElevation := elevation, status } }) ↔
      (isNan azimuth = false ∧ isNan elevation = false) ∧ s.stoppedAt = none := by
  have hwithin : Within { s.controller with
      targetAzimuth := azimuth, targetElevation := elevation, currentAzimuth := azimuth
      currentElevation := elevation, status } ↔ isNan azimuth = false ∧ isNan elevation = false :=
    within_of_accepts hcentered haccepts rfl rfl rfl rfl rfl
  constructor
  · intro h
    refine ⟨hwithin.mp h.within, ?_⟩
    cases hstopped : s.stoppedAt with
    | none => rfl
    | some position => exact absurd (h.stopped position hstopped).2 hstatus
  · rintro ⟨hnumbers, hstopped⟩
    refine ⟨hwithin.mpr hnumbers, fun hdisabled => ?_, fun position hposition => ?_⟩
    · exact absurd (haccepts.1.symm.trans hdisabled) (by decide)
    · exact absurd (hstopped.symm.trans hposition) (by simp)

/-- Pointing is safe exactly when it is refused, or goes to numbers and no stop is in force. -/
theorem safe_point (hcentered : Centered s.controller) (h : Safe s) (azimuth elevation : F64) :
    Safe { s with controller := (s.controller.point display azimuth elevation).1 } ↔
      (Accepts s.controller azimuth elevation →
        (isNan azimuth = false ∧ isNan elevation = false) ∧ s.stoppedAt = none) := by
  obtain ⟨hrejects, e, heq⟩ | ⟨haccepts, heq⟩ :=
    point_cases display s.controller azimuth elevation
  · rw [heq]
    exact iff_of_true h fun haccepts => absurd haccepts hrejects
  · rw [heq, safe_moved hcentered haccepts (by decide)]
    exact ⟨fun hsafe _ => hsafe, fun hadmissible => hadmissible haccepts⟩

/-- One call keeps the motion safe exactly when it is admissible. -/
theorem safe_step (hcentered : Centered s.controller) (h : Safe s) (c : ControllerCall F64) :
    Safe (s.step display c) ↔ Admissible s c := by
  cases c with
  | point azimuth elevation => exact safe_point hcentered h azimuth elevation
  | slewTo target slewId => exact safe_point hcentered h target.azimuth target.elevation
  | stow =>
    obtain ⟨hrejects, e, heq⟩ | ⟨haccepts, heq⟩ :=
      point_cases display s.controller s.controller.stowAzimuth s.controller.stowElevation
    · simp only [step, GenericAntennaController.stow, heq]
      exact iff_of_true h fun haccepts => absurd haccepts hrejects
    · simp only [step, GenericAntennaController.stow, heq]
      rw [safe_moved hcentered haccepts (by decide)]
      exact ⟨fun hsafe _ => hsafe, fun hadmissible => hadmissible haccepts⟩
  | abortSlew => exact safe_of_idle h.within h.disabled rfl
  | enable =>
    exact iff_of_true ⟨h.within, nofun, nofun⟩ trivial
  | disable =>
    refine safe_of_idle h.within (fun _ => ?_) rfl
    show s.controller.getPosition = _
    cases henabled : s.controller.enabled with
    | true => rfl
    | false => exact h.disabled henabled
  | emergencyStop =>
    refine iff_of_true ⟨h.within, h.disabled, fun position hposition => ⟨?_, rfl⟩⟩ trivial
    show s.controller.getPosition = position
    cases hstopped : s.stoppedAt with
    | none => simpa [step, hstopped] using hposition
    | some first =>
      have hfirst : first = position := by simpa [step, hstopped] using hposition
      rw [← hfirst]
      exact (h.stopped first hstopped).1
  | home =>
    constructor
    · intro hafter
      refine ⟨?_, fun hdisabled => ?_⟩
      · exact (safe_of_idle hafter.within hafter.disabled rfl).mp hafter
      · rw [h.disabled hdisabled]
        exact (hafter.disabled hdisabled).symm
    · rintro ⟨hstopped, hhomed⟩
      have hwithin : Within s.controller.home := hcentered
      refine (safe_of_idle hwithin (fun hdisabled => ?_) rfl).mpr hstopped
      rw [← h.disabled hdisabled, hhomed hdisabled]
      rfl

/-- A run is safe throughout exactly when every call is admissible. -/
theorem motion_safe_iff (display : F64 → String) {azimuthMin azimuthMax elevationMin elevationMax :
      F64} (hazimuth : le azimuthMin (lit 0) = true ∧ le (lit 0) azimuthMax = true)
    (helevation : le elevationMin (lit 0) = true ∧ le (lit 0) elevationMax = true)
    (stowAzimuth stowElevation : F64) (calls : List (ControllerCall F64)) :
    (∀ n, Safe (run (step display) (new ((GenericAntennaController.new azimuthMin azimuthMax
        elevationMin elevationMax).withStowPosition stowAzimuth stowElevation)) (calls.take n))) ↔
      Along (step display) Admissible (new ((GenericAntennaController.new azimuthMin azimuthMax
        elevationMin elevationMax).withStowPosition stowAzimuth stowElevation)) calls := by
  have hcentered : Centered ((GenericAntennaController.new azimuthMin azimuthMax elevationMin
      elevationMax).withStowPosition stowAzimuth stowElevation) := ⟨hazimuth, helevation⟩
  exact along_iff_invariant_of_along (I := Safe) (J := fun s => Centered s.controller)
    (P := fun _ _ => True) (fun _ c hcentered _ => centered_step hcentered c)
    (fun _ c hcentered _ h => safe_step hcentered h c) hcentered ⟨hcentered, fun _ => rfl, nofun⟩
    (along_of_forall fun _ _ => trivial)

end Numbers

/-- An antenna that turns all the way and up to the zenith. -/
def fullTurn : GenericAntennaController (Option ℚ) :=
  letI := FloatOps.withNan id id
  (GenericAntennaController.new (some 0) (some 360) (some 0) (some 90)).withStowPosition (some 0)
    (some 5)

/-- A slew, a stop and a restart. -/
theorem motion_safe_iff_fullTurn :
    letI := FloatOps.withNan id id
    Safe (run (step fun _ => "") (new fullTurn)
      [.enable, .point (some 10) (some 20), .emergencyStop, .enable, .stow, .disable]) := by
  let _ := FloatOps.withNan id id
  let _ := NanFloat.withNan id id
  have hsafe : ∀ n, Safe (run (step fun _ => "") (new fullTurn)
      ([.enable, .point (some 10) (some 20), .emergencyStop, .enable, .stow, .disable].take n)) := by
    refine (motion_safe_iff (fun _ => "") (by decide +kernel) (by decide +kernel) _ _ _).mpr ?_
    exact ⟨trivial, fun _ => ⟨⟨rfl, rfl⟩, rfl⟩, trivial, trivial, fun _ => ⟨⟨rfl, rfl⟩, rfl⟩, rfl,
      trivial⟩
  exact hsafe 6

/-- An undefined angle passes the checks; a disabled antenna is homed; and after an emergency stop
the antenna is pointed elsewhere. -/
theorem motion_unsafe :
    letI := FloatOps.withNan id id
    ¬ Safe (run (step fun _ => "") (new fullTurn) [.enable, .point none (some 20)]) ∧
    ¬ Safe (run (step fun _ => "") (new fullTurn)
      [.enable, .point (some 10) (some 20), .disable, .home]) ∧
    ¬ Safe (run (step fun _ => "") (new fullTurn)
      [.enable, .emergencyStop, .point (some 10) (some 20)]) := by
  let _ := FloatOps.withNan id id
  refine ⟨fun h => ?_, fun h => ?_, fun h => ?_⟩
  · exact absurd h.within.1.1 (by decide +kernel)
  · exact absurd (h.disabled rfl) (by decide +kernel)
  · exact absurd (h.stopped (some 0, some 0) (by decide +kernel)).2 (by decide +kernel)

end MotionSession

end GroundCore.Acs
