import GroundCore.Core.Types
import GroundCore.Lib.NanFloat

/-! The detection of a degraded optical link.  A low signal-to-noise ratio is judged before the
pointing, and is only watched unless the ratio falls; so a link that is to be handed off for its
pointing is kept when its ratio is low as well. -/

namespace GroundCore.Optical.Link

open Lib FloatOps

structure LinkQuality (F64 : Type) where
  bitErrorRate : F64
  signalToNoiseDb : F64
  pointingErrorUrad : F64

structure MetricSnapshot (F64 : Type) where
  timestamp : DateTime
  signalQualityDb : F64
  pointingErrorUrad : F64

inductive MetricTrend
  | improving
  | stable
  | degrading
  deriving DecidableEq

/-- The reasons that the detector gives. -/
inductive DegradationReason (F64 : Type)
  | atmosphericTurbulence (severity : String)
  | pointingDrift (driftRateUradPerSec : F64)
  | fecOverwhelmed (berTrend : String)
  | unexplainedSnrDrop (magnitudeDb : F64)

/-- The actions that the detector asks for. -/
inductive DegradationAction
  | monitor
  | initiateHandoff
  deriving DecidableEq

structure DegradationDetector (F64 : Type) where
  thresholdBer : F64
  thresholdSnrDb : F64
  thresholdPointingUrad : F64

variable {F64 F32 : Type} [FloatOps F64 F32]

/-- The trend of the signal over the last five snapshots. -/
def calculateTrend (snapshots : List (MetricSnapshot F64)) : MetricTrend :=
  if snapshots.length < 2 then .stable
  else
    let recent := snapshots.drop (snapshots.length - 5)
    if recent.length < 2 then .stable
    else
      match recent.head?, recent.getLast? with
      | some first, some last =>
        let delta := last.signalQualityDb - first.signalQualityDb
        if lt (lit 1) delta then .improving
        else if lt delta (-lit 1) then .degrading
        else .stable
      | _, _ => .stable

def estimateDriftRate (snapshots : List (MetricSnapshot F64)) : F64 :=
  if snapshots.length < 2 then lit 0
  else
    match snapshots.head?, snapshots.getLast? with
    | some first, some last =>
      let deltaPointing := last.pointingErrorUrad - first.pointingErrorUrad
      let deltaTime := max (Duration.numSeconds (last.timestamp - first.timestamp)) 1
      deltaPointing / lit deltaTime
    | _, _ => lit 0

namespace DegradationDetector

def new : DegradationDetector F64 :=
  { thresholdBer := lit 1e-6, thresholdSnrDb := lit 10, thresholdPointingUrad := lit 200 }

def detectDegradation (d : DegradationDetector F64) (currentQuality : LinkQuality F64)
    (recentSnapshots : List (MetricSnapshot F64)) :
    Option (DegradationReason F64 × DegradationAction) :=
  if lt d.thresholdBer currentQuality.bitErrorRate then
    some (.fecOverwhelmed "increasing", .initiateHandoff)
  else if lt currentQuality.signalToNoiseDb d.thresholdSnrDb then
    match calculateTrend recentSnapshots with
    | .degrading =>
      if lt d.thresholdPointingUrad currentQuality.pointingErrorUrad then
        some (.pointingDrift (estimateDriftRate recentSnapshots), .initiateHandoff)
      else some (.atmosphericTurbulence "moderate", .monitor)
    | .stable =>
      some (.unexplainedSnrDrop (d.thresholdSnrDb - currentQuality.signalToNoiseDb), .monitor)
    | .improving =>
      some (.unexplainedSnrDrop (d.thresholdSnrDb - currentQuality.signalToNoiseDb), .monitor)
  else if lt d.thresholdPointingUrad currentQuality.pointingErrorUrad then
    some (.pointingDrift (estimateDriftRate recentSnapshots), .initiateHandoff)
  else none

/-- None before monitoring before a handoff. -/
def severity : Option (DegradationReason F64 × DegradationAction) → ℕ
  | none => 0
  | some (_, .monitor) => 1
  | some (_, .initiateHandoff) => 2

variable (d : DegradationDetector F64) (q : LinkQuality F64) (snapshots : List (MetricSnapshot F64))

abbrev BerHigh : Prop := lt d.thresholdBer q.bitErrorRate = true

abbrev SnrLow : Prop := lt q.signalToNoiseDb d.thresholdSnrDb = true

abbrev PointingHigh : Prop := lt d.thresholdPointingUrad q.pointingErrorUrad = true

/-- The severity by the three thresholds and the trend. -/
theorem severity_detectDegradation :
    severity (d.detectDegradation q snapshots) =
      if d.BerHigh q then 2
      else if d.SnrLow q then
        if calculateTrend snapshots = .degrading ∧ d.PointingHigh q then 2 else 1
      else if d.PointingHigh q then 2
      else 0 := by
  unfold detectDegradation
  by_cases hber : d.BerHigh q
  · rw [if_pos hber, if_pos hber]
    rfl
  · rw [if_neg hber, if_neg hber]
    by_cases hsnr : d.SnrLow q
    · rw [if_pos hsnr, if_pos hsnr]
      by_cases hpointing : d.PointingHigh q <;> cases calculateTrend snapshots <;>
        simp [hpointing, severity]
    · rw [if_neg hsnr, if_neg hsnr]
      by_cases hpointing : d.PointingHigh q <;> simp [hpointing, severity]

/-- The second quality is at least as bad as the first in all three metrics. -/
structure AtLeastAsBad (q q' : LinkQuality F64) : Prop where
  bitErrorRate : le q.bitErrorRate q'.bitErrorRate = true
  signalToNoiseDb : le q'.signalToNoiseDb q.signalToNoiseDb = true
  pointingErrorUrad : le q.pointingErrorUrad q'.pointingErrorUrad = true

section Worse

variable [ComparableFloat F64 F32] {d : DegradationDetector F64} {q q' : LinkQuality F64}

theorem BerHigh.of_worse (hworse : AtLeastAsBad q q') (h : d.BerHigh q) : d.BerHigh q' :=
  ComparableFloat.lt_of_lt_of_le h hworse.bitErrorRate

theorem SnrLow.of_worse (hworse : AtLeastAsBad q q') (h : d.SnrLow q) : d.SnrLow q' :=
  ComparableFloat.lt_of_le_of_lt hworse.signalToNoiseDb h

theorem PointingHigh.of_worse (hworse : AtLeastAsBad q q') (h : d.PointingHigh q) :
    d.PointingHigh q' :=
  ComparableFloat.lt_of_lt_of_le h hworse.pointingErrorUrad

/-- The response to a worse quality is at least as severe, except where only the worse one has a low
signal, which does not fall and is judged before the bad pointing of both. -/
theorem severity_mono_iff (d : DegradationDetector F64) (snapshots : List (MetricSnapshot F64))
    (hworse : AtLeastAsBad q q') :
    severity (d.detectDegradation q snapshots) ≤ severity (d.detectDegradation q' snapshots) ↔
      ¬ (d.PointingHigh q ∧ ¬ d.SnrLow q ∧ d.SnrLow q' ∧ ¬ d.BerHigh q' ∧
        calculateTrend snapshots ≠ .degrading) := by
  have hber : d.BerHigh q → d.BerHigh q' := .of_worse hworse
  have hsnr : d.SnrLow q → d.SnrLow q' := .of_worse hworse
  have hpointing : d.PointingHigh q → d.PointingHigh q' := .of_worse hworse
  rw [severity_detectDegradation, severity_detectDegradation]
  by_cases hber' : d.BerHigh q'
  · rw [if_pos hber']
    refine iff_of_true ?_ fun h => h.2.2.2.1 hber'
    split_ifs <;> decide
  · rw [if_neg hber', if_neg (mt hber hber')]
    by_cases hsnr' : d.SnrLow q'
    · rw [if_pos hsnr']
      by_cases hlow : d.SnrLow q
      · rw [if_pos hlow]
        refine iff_of_true ?_ fun h => h.2.1 hlow
        by_cases hboth : calculateTrend snapshots = .degrading ∧ d.PointingHigh q
        · rw [if_pos hboth, if_pos ⟨hboth.1, hpointing hboth.2⟩]
        · rw [if_neg hboth]
          split_ifs <;> decide
      · rw [if_neg hlow]
        by_cases hhigh : d.PointingHigh q
        · rw [if_pos hhigh]
          by_cases htrend : calculateTrend snapshots = .degrading
          · rw [if_pos ⟨htrend, hpointing hhigh⟩]
            exact iff_of_true le_rfl fun h => h.2.2.2.2 htrend
          · rw [if_neg fun h => htrend h.1]
            exact iff_of_false (by decide) fun h => h ⟨hhigh, hlow, hsnr', hber', htrend⟩
        · rw [if_neg hhigh]
          exact iff_of_true (Nat.zero_le _) fun h => hhigh h.1
    · rw [if_neg hsnr', if_neg (mt hsnr hsnr')]
      refine iff_of_true ?_ fun h => hsnr' h.2.2.1
      by_cases hhigh : d.PointingHigh q
      · rw [if_pos hhigh, if_pos (hpointing hhigh)]
      · rw [if_neg hhigh]
        exact Nat.zero_le _

end Worse

/-- The quality of a link whose pointing is bad, with a signal of `snr` decibels. -/
def badPointing (snr : Option ℚ) : LinkQuality (Option ℚ) :=
  { bitErrorRate := some 1e-9, signalToNoiseDb := snr, pointingErrorUrad := some 300 }

/-- The link is handed off at 15 dB and only watched at 5 dB. -/
theorem weaker_signal_watched :
    letI := FloatOps.withNan id id
    AtLeastAsBad (badPointing (some 15)) (badPointing (some 5)) ∧
    severity (new.detectDegradation (badPointing (some 5)) []) <
      severity (new.detectDegradation (badPointing (some 15)) []) := by
  let _ := FloatOps.withNan id id
  exact ⟨⟨by decide +kernel, by decide +kernel, by decide +kernel⟩, by decide +kernel⟩

theorem severity_mono_iff_weak :
    letI := FloatOps.withNan id id
    severity (new.detectDegradation (badPointing (some 9)) []) ≤
      severity (new.detectDegradation (badPointing (some 5)) []) :=
  letI := FloatOps.withNan id id
  have := ComparableFloat.withNan id id
  (severity_mono_iff (new : DegradationDetector (Option ℚ)) []
    ⟨by decide +kernel, by decide +kernel, by decide +kernel⟩).mpr (by decide +kernel)

end DegradationDetector

end GroundCore.Optical.Link
