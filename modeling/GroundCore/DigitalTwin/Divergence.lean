import GroundCore.Bitemporal.Timestamp
import GroundCore.Lib.FiniteFloat
import GroundCore.Lib.HashMap
import GroundCore.Oisl.Types

/-! Divergence of observations from predicted intervals, and the CUSUM detectors that tell when a
stream of divergences began. -/

namespace GroundCore.DigitalTwin

open Bitemporal Lib FloatOps

abbrev LinkId := Oisl.Uuid

structure Interval (F64 : Type) where
  lower : F64
  upper : F64

inductive MetricType
  | snr
  | ber
  | throughput
  | latency
  | doppler
  | rssi
  | temperature
  | pointingError
  deriving DecidableEq

structure CausalHypothesis (F64 : Type) where
  description : String
  confidence : F64
  evidence : List String

structure MetricDivergence (F64 : Type) where
  linkId : LinkId
  metricType : MetricType
  predictedInterval : Interval F64
  observed : F64
  sigma : F64
  changePointDetectedAt : Option DateTime
  bitemporalStamp : BiTemporal Unit
  causalHypotheses : List (CausalHypothesis F64)

structure CusumDetector (F64 : Type) where
  cusum : F64
  threshold : F64
  reference : F64
  minShift : F64
  changeDetected : Bool
  detectionTime : Option DateTime

structure DivergenceDetector (F64 : Type) where
  detectors : HashMap (LinkId × MetricType) (CusumDetector F64)
  divergenceLog : List (MetricDivergence F64)

variable {F64 F32 : Type} [FloatOps F64 F32]

namespace Interval

/-- No result where the source's assertion fails. -/
def new (lower upper : F64) : Option (Interval F64) :=
  if le lower upper then some { lower, upper } else none

def contains (i : Interval F64) (value : F64) : Bool := le i.lower value && le value i.upper

def distance (i : Interval F64) (value : F64) : F64 :=
  if i.contains value then lit 0
  else if lt value i.lower then i.lower - value
  else value - i.upper

def width (i : Interval F64) : F64 := i.upper - i.lower

def fromCenter (center halfWidth : F64) : Option (Interval F64) :=
  new (center - halfWidth) (center + halfWidth)

end Interval

namespace MetricDivergence

def new (linkId : LinkId) (metricType : MetricType) (predictedInterval : Interval F64)
    (observed sigma : F64) (eventTime : EventTime) (receptionTime : ReceptionTime) :
    MetricDivergence F64 :=
  { linkId, metricType, predictedInterval, observed, sigma, changePointDetectedAt := none
    bitemporalStamp := ⟨(), eventTime, receptionTime⟩, causalHypotheses := [] }

def isAnomaly (d : MetricDivergence F64) : Bool := !d.predictedInterval.contains d.observed

def addHypothesis (d : MetricDivergence F64) (hypothesis : CausalHypothesis F64) :
    MetricDivergence F64 :=
  { d with causalHypotheses := d.causalHypotheses ++ [hypothesis] }

def markChangePoint (d : MetricDivergence F64) (detectedAt : DateTime) : MetricDivergence F64 :=
  { d with changePointDetectedAt := some detectedAt }

end MetricDivergence

namespace CusumDetector

def new (threshold reference minShift : F64) : CusumDetector F64 :=
  { cusum := lit 0, threshold, reference, minShift, changeDetected := false, detectionTime := none }

/-- The detector after an observation, and whether it detects the change there. -/
def update (d : CusumDetector F64) (observation : F64) (time : DateTime) :
    CusumDetector F64 × Bool :=
  if d.changeDetected then (d, false)
  else
    let deviation := observation - d.reference
    let cusum := fmax (d.cusum + deviation - d.minShift) (lit 0)
    if le d.threshold cusum then
      ({ d with cusum, changeDetected := true, detectionTime := some time }, true)
    else ({ d with cusum }, false)

def reset (d : CusumDetector F64) : CusumDetector F64 :=
  { d with cusum := lit 0, changeDetected := false, detectionTime := none }

end CusumDetector

namespace DivergenceDetector

def new : DivergenceDetector F64 := { detectors := ∅, divergenceLog := [] }

def ensureDetector (d : DivergenceDetector F64) (linkId : LinkId) (metricType : MetricType)
    (reference : F64) : DivergenceDetector F64 :=
  match d.detectors.get? (linkId, metricType) with
  | some _ => d
  | none =>
    { d with
      detectors := d.detectors.insert (linkId, metricType)
        (CusumDetector.new (lit 5) reference (lit 1)) }

/-- How far an observation lies outside, in widths of the interval where it has one. -/
def sigmaOf (predictedInterval : Interval F64) (observed : F64) : F64 :=
  let distance := predictedInterval.distance observed
  if lt (lit 0) predictedInterval.width then distance / predictedInterval.width else distance

def processObservation (d : DivergenceDetector F64) (linkId : LinkId) (metricType : MetricType)
    (predictedInterval : Interval F64) (observed : F64) (eventTime : EventTime)
    (receptionTime : ReceptionTime) : DivergenceDetector F64 × Option (MetricDivergence F64) :=
  let sigma := sigmaOf predictedInterval observed
  let isAnomaly := !predictedInterval.contains observed
  let d := d.ensureDetector linkId metricType (lit 0)
  match d.detectors.get? (linkId, metricType) with
  | none => (d, none)
  | some detector =>
    let (detector, changeDetected) := detector.update sigma receptionTime.time
    let d := { d with detectors := d.detectors.insert (linkId, metricType) detector }
    if isAnomaly || changeDetected then
      let divergence := MetricDivergence.new linkId metricType predictedInterval observed sigma
        eventTime receptionTime
      let divergence := match changeDetected, detector.detectionTime with
        | true, some detectedAt => divergence.markChangePoint detectedAt
        | _, _ => divergence
      ({ d with divergenceLog := d.divergenceLog ++ [divergence] }, some divergence)
    else (d, none)

def clearLog (d : DivergenceDetector F64) : DivergenceDetector F64 := { d with divergenceLog := [] }

def resetDetectors (d : DivergenceDetector F64) : DivergenceDetector F64 :=
  { d with detectors := d.detectors.mapValues CusumDetector.reset }

end DivergenceDetector

end GroundCore.DigitalTwin
