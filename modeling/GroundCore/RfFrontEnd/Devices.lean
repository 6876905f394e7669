import Mathlib.Algebra.Order.Floor.Ring
import GroundCore.Core.Types
import GroundCore.Lib.SaturatingCast

/-! The amplifiers and attenuators of the receiving chain.  Floating-point numbers are read as the
elements of an ordered field; `display` prints one. -/

namespace GroundCore.RfFrontEnd

open Lib

variable {K : Type} [Field K] [LinearOrder K]

/-! ### Amplifiers -/

inductive AmplifierStatus
  | idle
  | active
  | overheating
  | fault
  | disabled
  deriving DecidableEq, Repr

structure GenericAmplifier (K : Type) where
  currentGain : K
  temperature : K
  maxTemperature : K
  thermalProtectionEnabled : Bool
  enabled : Bool
  fault : Bool
  amplifierStatus : AmplifierStatus
  deriving DecidableEq

namespace GenericAmplifier

def new (maxTemperature : K) : GenericAmplifier K :=
  { currentGain := 0, temperature := 25.0, maxTemperature, thermalProtectionEnabled := true
    enabled := false, fault := false, amplifierStatus := .idle }

def checkThermalProtection (a : GenericAmplifier K) : GenericAmplifier K :=
  if !a.thermalProtectionEnabled then a
  else if a.maxTemperature ≤ a.temperature then
    { a with fault := true, amplifierStatus := .overheating }
  else a

def updateTemperature (a : GenericAmplifier K) (temperature : K) : GenericAmplifier K :=
  { a with temperature }.checkThermalProtection

def enable (a : GenericAmplifier K) : GenericAmplifier K × Result Unit :=
  if a.fault then (a, .error (.hardware "Amplifier fault - cannot enable"))
  else ({ a with enabled := true, amplifierStatus := .active }, .ok ())

def disable (a : GenericAmplifier K) : GenericAmplifier K :=
  { a with enabled := false, amplifierStatus := .idle }

def setGain (a : GenericAmplifier K) (gainDb : K) : GenericAmplifier K × Result Unit :=
  if !a.enabled then (a, .error (.hardware "Amplifier disabled"))
  else if a.fault then (a, .error (.hardware "Amplifier fault"))
  else if ¬ (-20.0 ≤ gainDb ∧ gainDb ≤ 60.0) then (a, .error (.validation "Gain out of range"))
  else ({ a with currentGain := gainDb }, .ok ())

def getGain (a : GenericAmplifier K) : Result K := .ok a.currentGain

/-- The amplifier carries out the gains that it is given. -/
def Ready (a : GenericAmplifier K) : Prop := a.enabled = true ∧ a.fault = false

theorem setGain_of_ready {a : GenericAmplifier K} (h : a.Ready) {gainDb : K}
    (hrange : -20.0 ≤ gainDb ∧ gainDb ≤ 60.0) :
    a.setGain gainDb = ({ a with currentGain := gainDb }, .ok ()) := by
  simp [setGain, h.1, h.2, hrange]

end GenericAmplifier

/-! ### Attenuators -/

structure VariableAttenuator (K : Type) where
  enabled : Bool
  currentAttenuation : K
  minAttenuation : K
  maxAttenuation : K
  stepSize : K
  /-- Commanded attenuations with the actual ones. -/
  calibrationTable : List (K × K)

namespace VariableAttenuator

def new (minAttenuation maxAttenuation stepSize : K) : VariableAttenuator K :=
  { enabled := false, currentAttenuation := 0, minAttenuation, maxAttenuation, stepSize
    calibrationTable := [] }

def addCalibrationPoint (a : VariableAttenuator K) (commandedDb actualDb : K) :
    VariableAttenuator K :=
  { a with calibrationTable := a.calibrationTable ++ [(commandedDb, actualDb)] }

/-- The last point of the table up to the commanded attenuation, before the first one beyond it,
with that one. -/
def surrounding (commandedDb : K) (lower : Option (K × K)) :
    List (K × K) → Option (K × K) × Option (K × K)
  | [] => (lower, none)
  | point :: points =>
    if point.1 ≤ commandedDb then surrounding commandedDb (some point) points
    else (lower, some point)

def getCalibratedAttenuation (a : VariableAttenuator K) (commandedDb : K) : K :=
  if a.calibrationTable.isEmpty then commandedDb
  else
    match surrounding commandedDb none a.calibrationTable with
    | (some (lowerCmd, lowerActual), some (upperCmd, upperActual)) =>
      let ratio := (commandedDb - lowerCmd) / (upperCmd - lowerCmd)
      lowerActual + ratio * (upperActual - lowerActual)
    | (some (_, actual), none) => actual
    | (none, some (_, actual)) => actual
    | (none, none) => commandedDb

def enable (a : VariableAttenuator K) : VariableAttenuator K := { a with enabled := true }

def disable (a : VariableAttenuator K) : VariableAttenuator K := { a with enabled := false }

/-- The nearest integer, away from zero from the middle between two. -/
def round [FloorRing K] (x : K) : ℤ := if 0 ≤ x then ⌊x + 0.5⌋ else ⌈x - 0.5⌉

variable [FloorRing K] (display : K → String)

def setAttenuation (a : VariableAttenuator K) (attenuationDb : K) :
    VariableAttenuator K × Result Unit :=
  if !a.enabled then (a, .error (.hardware "Attenuator disabled"))
  else if attenuationDb < a.minAttenuation ∨ a.maxAttenuation < attenuationDb then
    (a, .error (.validation ("Attenuation " ++ display attenuationDb ++ " out of range [" ++
      display a.minAttenuation ++ ", " ++ display a.maxAttenuation ++ "]")))
  else
    let quantized := round (attenuationDb / a.stepSize) * a.stepSize
    ({ a with currentAttenuation := quantized }, .ok ())

def getAttenuation (a : VariableAttenuator K) : Result K :=
  .ok (a.getCalibratedAttenuation a.currentAttenuation)

def incrementAttenuation (a : VariableAttenuator K) (stepDb : K) :
    VariableAttenuator K × Result Unit :=
  a.setAttenuation display (a.currentAttenuation + stepDb)

def decrementAttenuation (a : VariableAttenuator K) (stepDb : K) :
    VariableAttenuator K × Result Unit :=
  a.setAttenuation display (a.currentAttenuation - stepDb)

end VariableAttenuator

/-- An attenuator of at most 63 bits, whose settings are the words of so many bits. -/
structure DigitalStepAttenuator (K : Type) where
  inner : VariableAttenuator K
  numBits : ℕ

namespace DigitalStepAttenuator

/-- The number of settings. -/
def levels (d : DigitalStepAttenuator K) : ℕ := 2 ^ d.numBits

def new (numBits : ℕ) (maxAttenuation : K) : DigitalStepAttenuator K :=
  let stepSize := maxAttenuation / (2 ^ numBits : ℕ)
  { inner := .new 0 maxAttenuation stepSize, numBits }

def enable (d : DigitalStepAttenuator K) : DigitalStepAttenuator K :=
  { d with inner := d.inner.enable }

variable [FloorRing K] (display : K → String)

def setControlWord (d : DigitalStepAttenuator K) (controlWord : UInt64) :
    DigitalStepAttenuator K × Result Unit :=
  if d.levels ≤ controlWord.toNat then (d, .error (.validation "Control word out of range"))
  else
    let attenuation := controlWord.toNat / (d.levels : K) * d.inner.maxAttenuation
    let (inner, result) := d.inner.setAttenuation display attenuation
    ({ d with inner }, result)

def getControlWord (d : DigitalStepAttenuator K) : Result UInt64 :=
  let ratio := d.inner.currentAttenuation / d.inner.maxAttenuation
  .ok (SaturatingCast.toU64 (ratio * d.levels))

end DigitalStepAttenuator

end GroundCore.RfFrontEnd
