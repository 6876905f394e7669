import Mathlib.Algebra.Order.Field.Basic
import Mathlib.Tactic.Linarith
import GroundCore.DigitalTwin.Divergence
import GroundCore.Lib.ClampedSum
import GroundCore.Lib.Run

/-! When a stream of observations is reported with a change point.  The detector of a stream carries
a clamped sum; in exact arithmetic that is the greatest sum over the suffixes of the stream. -/

namespace GroundCore.DigitalTwin

open Bitemporal Lib FloatOps ExactFloat

structure Observation (F64 : Type) where
  linkId : LinkId
  metricType : MetricType
  predictedInterval : Interval F64
  observed : F64
  eventTime : EventTime
  receptionTime : ReceptionTime

inductive Call (F64 : Type)
  | processObservation (o : Observation F64)
  | resetDetectors

variable {F64 F32 : Type} [FloatOps F64 F32]

namespace Observation

/-- The stream to which the observation belongs. -/
def key (o : Observation F64) : LinkId × MetricType := (o.linkId, o.metricType)

def sigma (o : Observation F64) : F64 :=
  DivergenceDetector.sigmaOf o.predictedInterval o.observed

end Observation

namespace DivergenceDetector

def process (d : DivergenceDetector F64) (o : Observation F64) :
    DivergenceDetector F64 × Option (MetricDivergence F64) :=
  d.processObservation o.linkId o.metricType o.predictedInterval o.observed o.eventTime
    o.receptionTime

def step (d : DivergenceDetector F64) : Call F64 → DivergenceDetector F64
  | .processObservation o => (d.process o).1
  | .resetDetectors => d.resetDetectors

/-- The detector of a stream, a new one before its first observation. -/
def detectorAt (d : DivergenceDetector F64) (key : LinkId × MetricType) : CusumDetector F64 :=
  (d.detectors.get? key).getD (CusumDetector.new (lit 5) (lit 0) (lit 1))

theorem get?_ensureDetector (d : DivergenceDetector F64) (linkId : LinkId)
    (metricType : MetricType) :
    (d.ensureDetector linkId metricType (lit 0)).detectors.get? (linkId, metricType) =
      some (d.detectorAt (linkId, metricType)) := by
  unfold ensureDetector detectorAt
  cases hget : d.detectors.get? (linkId, metricType) with
  | some detector => simp [hget]
  | none => simp

theorem get?_ensureDetector_ne (d : DivergenceDetector F64) {linkId : LinkId}
    {metricType : MetricType} {key : LinkId × MetricType} (hkey : key ≠ (linkId, metricType)) :
    (d.ensureDetector linkId metricType (lit 0)).detectors.get? key = d.detectors.get? key := by
  unfold ensureDetector
  cases d.detectors.get? (linkId, metricType) with
  | some detector => rfl
  | none => simp [hkey]

/-- The detector of the stream of an observation, updated with it. -/
def updated (d : DivergenceDetector F64) (o : Observation F64) : CusumDetector F64 × Bool :=
  (d.detectorAt o.key).update o.sigma o.receptionTime.time

theorem detectors_process (d : DivergenceDetector F64) (o : Observation F64) :
    (d.process o).1.detectors =
      (d.ensureDetector o.linkId o.metricType (lit 0)).detectors.insert o.key (d.updated o).1 := by
  unfold process processObservation
  simp only [get?_ensureDetector]
  split <;> rfl

theorem detectorAt_process (d : DivergenceDetector F64) (o : Observation F64)
    (key : LinkId × MetricType) : (d.process o).1.detectorAt key =
      if key = o.key then (d.updated o).1 else d.detectorAt key := by
  unfold detectorAt
  rw [detectors_process, HashMap.get?_insert]
  by_cases hkey : key = o.key
  · simp [hkey]
  · rw [if_neg hkey, if_neg hkey, get?_ensureDetector_ne d hkey]

theorem detectorAt_resetDetectors (d : DivergenceDetector F64) (key : LinkId × MetricType) :
    d.resetDetectors.detectorAt key = (d.detectorAt key).reset := by
  unfold detectorAt resetDetectors
  rw [HashMap.get?_mapValues]
  cases d.detectors.get? key with
  | some detector => rfl
  | none => rfl

theorem detectionTime_update (detector : CusumDetector F64) (observation : F64) (time : DateTime)
    (h : (detector.update observation time).2 = true) :
    (detector.update observation time).1.detectionTime = some time := by
  unfold CusumDetector.update at h ⊢
  split at h
  · contradiction
  · next hlatched =>
    rw [if_neg hlatched]
    dsimp only at h ⊢
    split at h
    · next hcross => rw [if_pos hcross]
    · contradiction

/-- The record of the observation. -/
def divergence (o : Observation F64) (changePoint : Option DateTime) : MetricDivergence F64 :=
  { MetricDivergence.new o.linkId o.metricType o.predictedInterval o.observed o.sigma o.eventTime
      o.receptionTime with changePointDetectedAt := changePoint }

/-- What an observation is answered with depends on the detector of its stream alone. -/
theorem result_process (d : DivergenceDetector F64) (o : Observation F64) :
    (d.process o).2 =
      if (d.updated o).2 then some (divergence o (some o.receptionTime.time))
      else if o.predictedInterval.contains o.observed then none else some (divergence o none) := by
  have htime := detectionTime_update (d.detectorAt o.key) o.sigma o.receptionTime.time
  unfold process processObservation updated
  simp only [get?_ensureDetector]
  rw [Observation.key] at htime ⊢
  rw [← Observation.sigma]
  cases hchanged : ((d.detectorAt (o.linkId, o.metricType)).update o.sigma
    o.receptionTime.time).2 with
  | true =>
    rw [hchanged] at htime
    simp only [Bool.or_true, if_true, htime rfl]
    rfl
  | false =>
    cases o.predictedInterval.contains o.observed <;> rfl

/-- The observation is reported with a change point. -/
def ReportsChange (result : Option (MetricDivergence F64)) : Prop :=
  ∃ divergence time, result = some divergence ∧ divergence.changePointDetectedAt = some time

theorem reportsChange_process (d : DivergenceDetector F64) (o : Observation F64) :
    ReportsChange (d.process o).2 ↔ (d.updated o).2 = true := by
  rw [result_process]
  unfold ReportsChange
  cases (d.updated o).2 with
  | true => simp [divergence]
  | false =>
    cases o.predictedInterval.contains o.observed <;> simp [divergence]

end DivergenceDetector

/-! ### The detector of a stream -/

section Exact

variable [ExactFloat F64 F32]

/-- The detector has seen the sigmas since its last reset. -/
structure Tracks (d : CusumDetector F64) (sigmas : List ℚ) : Prop where
  threshold : val d.threshold = 5
  reference : val d.reference = 0
  minShift : val d.minShift = 1
  detected : d.changeDetected = true ↔ HasCrossed (· - 1) 5 sigmas
  cusum : d.changeDetected = false → val d.cusum = clampedSum (· - 1) sigmas

namespace Tracks

theorem new : Tracks (CusumDetector.new (lit 5) (lit 0) (lit 1) : CusumDetector F64) [] where
  threshold := val_lit 5
  reference := val_lit 0
  minShift := val_lit 1
  detected := iff_of_false (by simp [CusumDetector.new]) not_hasCrossed_nil
  cusum _ := val_lit 0

theorem reset {d : CusumDetector F64} {sigmas : List ℚ} (h : Tracks d sigmas) :
    Tracks d.reset [] where
  threshold := h.threshold
  reference := h.reference
  minShift := h.minShift
  detected := iff_of_false (by simp [CusumDetector.reset]) not_hasCrossed_nil
  cusum _ := val_lit 0

/-- A detector that has not fired carries on the clamped sum. -/
theorem val_cusum {d : CusumDetector F64} {sigmas : List ℚ} (h : Tracks d sigmas)
    (hfresh : d.changeDetected = false) (observation : F64) :
    val (fmax (d.cusum + (observation - d.reference) - d.minShift) (lit 0)) =
      clampedSum (· - 1) (sigmas ++ [val observation]) := by
  rw [val_fmax, val_sub, val_add, val_sub, val_lit, h.reference, h.minShift, h.cusum hfresh,
    clampedSum_append_singleton, sub_zero, add_sub_assoc]

theorem update {d : CusumDetector F64} {sigmas : List ℚ} (h : Tracks d sigmas) (observation : F64)
    (time : DateTime) :
    Tracks (d.update observation time).1 (sigmas ++ [val observation]) ∧
      ((d.update observation time).2 = true ↔
        FirstCrosses (· - 1) 5 (sigmas ++ [val observation])) := by
  rw [firstCrosses_append_singleton]
  unfold CusumDetector.update
  cases hlatched : d.changeDetected with
  | true =>
    have hcrossed := h.detected.mp hlatched
    rw [if_pos rfl]
    refine ⟨⟨h.threshold, h.reference, h.minShift, ?_, fun hfresh => ?_⟩, ?_⟩
    · exact iff_of_true hlatched (hasCrossed_append_singleton.mpr (.inl hcrossed))
    · rw [hlatched] at hfresh
      contradiction
    · exact iff_of_false Bool.false_ne_true fun hnot => hnot.2 hcrossed
  | false =>
    have hnot : ¬ HasCrossed (· - 1) 5 sigmas := fun hcrossed => by
      rw [h.detected.mpr hcrossed] at hlatched
      contradiction
    have hcusum := h.val_cusum hlatched observation
    have hcross : 5 ≤ clampedSum (· - 1) (sigmas ++ [val observation]) ↔
        Crosses (· - 1) 5 (sigmas ++ [val observation]) := le_clampedSum_iff (by norm_num)
    rw [if_neg Bool.false_ne_true]
    dsimp only
    rw [← hcusum, ← h.threshold, ← le_iff, h.threshold] at hcross
    split
    · next hle =>
      have hnow := hcross.mp hle
      exact ⟨⟨h.threshold, h.reference, h.minShift,
        iff_of_true rfl (hasCrossed_append_singleton.mpr (.inr hnow)), nofun⟩,
        iff_of_true rfl ⟨hnow, hnot⟩⟩
    · next hle =>
      have hnow := mt hcross.mpr hle
      refine ⟨⟨h.threshold, h.reference, h.minShift, ?_, fun _ => hcusum⟩,
        iff_of_false Bool.false_ne_true fun hfirst => hnow hfirst.1⟩
      refine iff_of_false (by simp) fun hhas => ?_
      exact (hasCrossed_append_singleton.mp hhas).elim hnot hnow

end Tracks

/-! ### Streams -/

/-- The sigmas of a stream since the last reset. -/
def stream (key : LinkId × MetricType) (calls : List (Call F64)) : List ℚ :=
  calls.foldl (fun sigmas call => match call with
    | .processObservation o => if key = o.key then sigmas ++ [val o.sigma] else sigmas
    | .resetDetectors => []) []

theorem stream_append_singleton (key : LinkId × MetricType) (calls : List (Call F64))
    (o : Observation F64) : stream key (calls ++ [.processObservation o]) =
      if key = o.key then stream key calls ++ [val o.sigma] else stream key calls := by
  rw [stream, List.foldl_append]
  rfl

theorem stream_append_reset (key : LinkId × MetricType) (calls : List (Call F64)) :
    stream key (calls ++ [.resetDetectors]) = [] := by
  rw [stream, List.foldl_append]
  rfl

namespace DivergenceDetector

/-- Every detector has seen the stream of its key. -/
theorem tracks_run (calls : List (Call F64)) (key : LinkId × MetricType) :
    Tracks ((run step (new : DivergenceDetector F64) calls).detectorAt key) (stream key calls) := by
  induction calls using List.reverseRecOn with
  | nil => exact Tracks.new
  | append_singleton calls call ih =>
    rw [run_append, run_cons, run_nil]
    cases call with
    | processObservation o =>
      rw [stream_append_singleton]
      show Tracks (((run step new calls).process o).1.detectorAt key) _
      rw [detectorAt_process]
      by_cases hkey : key = o.key
      · rw [if_pos hkey, if_pos hkey, hkey]
        rw [hkey] at ih
        exact (ih.update o.sigma o.receptionTime.time).1
      · rw [if_neg hkey, if_neg hkey]
        exact ih
    | resetDetectors =>
      rw [stream_append_reset]
      show Tracks ((run step new calls).resetDetectors.detectorAt key) []
      rw [detectorAt_resetDetectors]
      exact ih.reset

theorem updated_run (calls : List (Call F64)) (o : Observation F64) :
    ((run step (new : DivergenceDetector F64) calls).updated o).2 = true ↔
      FirstCrosses (· - 1) 5 (stream o.key (calls ++ [.processObservation o])) := by
  rw [stream_append_singleton, if_pos rfl]
  exact ((tracks_run calls o.key).update o.sigma o.receptionTime.time).2

theorem stream_le (key : LinkId × MetricType) (calls : List (Call F64))
    {later : List (Call F64)} (hlater : ∀ call ∈ later, call ≠ .resetDetectors) :
    stream key calls <+: stream key (calls ++ later) := by
  induction later using List.reverseRecOn with
  | nil => rw [List.append_nil]
  | append_singleton later call ih =>
    have hbefore := ih fun call hcall => hlater call (List.mem_append_left _ hcall)
    rw [← List.append_assoc]
    cases call with
    | processObservation o =>
      rw [stream_append_singleton]
      split
      · exact hbefore.trans (List.prefix_append _ _)
      · exact hbefore
    | resetDetectors => exact absurd rfl (hlater .resetDetectors (by simp))

/-- A stream that was reported is not reported again before the next reset. -/
theorem reported_once (calls : List (Call F64)) {o o' : Observation F64} {later : List (Call F64)}
    (hlater : ∀ call ∈ later, call ≠ .resetDetectors) (hkey : o'.key = o.key)
    (hfirst : FirstCrosses (· - 1) 5 (stream o.key (calls ++ [.processObservation o]))) :
    ¬ FirstCrosses (· - 1) 5 (stream o'.key
      (calls ++ .processObservation o :: later ++ [.processObservation o'])) := by
  have hbefore := stream_le o'.key (calls ++ [.processObservation o]) hlater
  rw [List.append_assoc, List.singleton_append, hkey] at hbefore
  rw [stream_append_singleton, if_pos rfl, hkey, firstCrosses_append_singleton]
  exact fun hagain => hagain.2 ⟨_, hbefore, hfirst.1⟩

end DivergenceDetector

end Exact

/-! ### Change points -/

variable [ExactDivision F64 F32]

/-- An observation inside its interval does not diverge. -/
theorem val_sigma_of_contains {o : Observation F64}
    (h : o.predictedInterval.contains o.observed = true) : val o.sigma = 0 := by
  have hdistance : o.predictedInterval.distance o.observed = lit 0 := by
    rw [Interval.distance, if_pos h]
  rw [Observation.sigma, DivergenceDetector.sigmaOf, hdistance]
  split
  · next hwidth =>
    have hpos := (lt_iff _ _).mp hwidth
    rw [val_lit] at hpos
    rw [ExactDivision.val_div _ _ (ne_of_gt hpos), val_lit, zero_div]
  · exact val_lit 0

open DivergenceDetector

/-- An observation is reported with a change point exactly when it is the first of its stream since
the last reset at which the sigmas of some nonempty suffix, each less one, sum up to five.  None is
reported inside its interval or twice between resets, and the answer depends on the observation and
its own stream alone. -/
theorem change_points (calls : List (Call F64)) (o : Observation F64) :
    let d := run step (DivergenceDetector.new : DivergenceDetector F64) calls
    (ReportsChange (d.process o).2 ↔
      FirstCrosses (fun sigma => sigma - 1) 5
        (stream o.key (calls ++ [.processObservation o]))) ∧
    (o.predictedInterval.contains o.observed = true → ¬ ReportsChange (d.process o).2) ∧
    (∀ later o', (∀ call ∈ later, call ≠ .resetDetectors) → o'.key = o.key →
      ReportsChange (d.process o).2 →
      ¬ ReportsChange ((run step DivergenceDetector.new
        (calls ++ .processObservation o :: later)).process o').2) ∧
    ∀ calls', stream o.key calls' = stream o.key calls →
      ((run step DivergenceDetector.new calls').process o).2 = (d.process o).2 := by
  intro d
  have hreports : ReportsChange (d.process o).2 ↔
      FirstCrosses (fun sigma => sigma - 1) 5 (stream o.key (calls ++ [.processObservation o])) :=
    (reportsChange_process d o).trans (updated_run calls o)
  refine ⟨hreports, ?_, ?_, ?_⟩
  · intro hinside
    rw [hreports, stream_append_singleton, if_pos rfl, firstCrosses_append_singleton]
    rintro ⟨hcross, hnot⟩
    refine not_crosses_append_singleton (by norm_num) ?_ hnot hcross
    rw [val_sigma_of_contains hinside]
    norm_num
  · intro later o' hlater hkey hfirst
    rw [reportsChange_process, updated_run]
    exact reported_once calls hlater hkey (hreports.mp hfirst)
  · intro calls' hstream
    have hsame : ((run step DivergenceDetector.new calls').updated o).2 = (d.updated o).2 := by
      rw [Bool.eq_iff_iff, updated_run, updated_run, stream_append_singleton,
        stream_append_singleton, hstream]
    rw [result_process, result_process, hsame]

/-! ### Tighter predictions -/

namespace Observation

/-- How far the observed value is outside its interval. -/
def outside (o : Observation F64) : ℚ := val (o.predictedInterval.distance o.observed)

def width (o : Observation F64) : ℚ := val o.predictedInterval.width

/-- The same value is observed against an interval within that of the other. -/
structure Tighter (o o' : Observation F64) : Prop where
  observed : val o.observed = val o'.observed
  valid : val o.predictedInterval.lower ≤ val o.predictedInterval.upper
  lower : val o'.predictedInterval.lower ≤ val o.predictedInterval.lower
  upper : val o.predictedInterval.upper ≤ val o'.predictedInterval.upper

/-- Where only the first interval is a point, the distance to it, which is taken as it is, is not
below the distance to the other in widths of the other. -/
def PointBound (o o' : Observation F64) : Prop :=
  o.width = 0 → 0 < o'.width → o'.outside ≤ o.outside * o'.width

variable {o o' : Observation F64}

theorem contains_iff : o.predictedInterval.contains o.observed = true ↔
    val o.predictedInterval.lower ≤ val o.observed ∧
      val o.observed ≤ val o.predictedInterval.upper := by
  rw [Interval.contains, Bool.and_eq_true, le_iff, le_iff]

theorem outside_eq (h : val o.predictedInterval.lower ≤ val o.predictedInterval.upper) :
    o.outside = max (max (val o.predictedInterval.lower - val o.observed)
      (val o.observed - val o.predictedInterval.upper)) 0 := by
  unfold outside Interval.distance
  by_cases hinside : o.predictedInterval.contains o.observed = true
  · obtain ⟨hlower, hupper⟩ := contains_iff.mp hinside
    have hmax := max_le (sub_nonpos.mpr hlower) (sub_nonpos.mpr hupper)
    rw [if_pos hinside, val_lit, max_eq_right hmax]
  · rw [if_neg hinside]
    by_cases hbelow : lt o.observed o.predictedInterval.lower = true
    · have hlt := (lt_iff _ _).mp hbelow
      have hmax : val o.observed - val o.predictedInterval.upper ≤
          val o.predictedInterval.lower - val o.observed := by linarith
      rw [if_pos hbelow, val_sub, max_eq_left hmax, max_eq_left (by linarith)]
    · have hle := not_lt.mp (mt (lt_iff _ _).mpr hbelow)
      have hgt : val o.predictedInterval.upper < val o.observed :=
        not_le.mp fun hupper => hinside (contains_iff.mpr ⟨hle, hupper⟩)
      have hmax : val o.predictedInterval.lower - val o.observed ≤
          val o.observed - val o.predictedInterval.upper := by linarith
      rw [if_neg hbelow, val_sub, max_eq_right hmax, max_eq_left (by linarith)]

theorem sigma_eq : val o.sigma = if 0 < o.width then o.outside / o.width else o.outside := by
  unfold sigma DivergenceDetector.sigmaOf width outside
  by_cases hwidth : lt (lit 0) o.predictedInterval.width = true
  · have hpos := (lt_iff _ _).mp hwidth
    rw [val_lit] at hpos
    have hpos' : 0 < val o.predictedInterval.width := hpos
    rw [if_pos hpos']
    dsimp only
    rw [if_pos hwidth, ExactDivision.val_div _ _ hpos'.ne']
  · have hzero := mt (lt_iff _ _).mpr hwidth
    rw [val_lit] at hzero
    have hzero' : ¬ 0 < val o.predictedInterval.width := hzero
    rw [if_neg hzero']
    dsimp only
    rw [if_neg hwidth]

namespace Tighter

theorem outside_le (h : o.Tighter o') : o'.outside ≤ o.outside := by
  have hvalid' : val o'.predictedInterval.lower ≤ val o'.predictedInterval.upper :=
    h.lower.trans (h.valid.trans h.upper)
  rw [outside_eq h.valid, outside_eq hvalid', h.observed]
  exact max_le_max (max_le_max (sub_le_sub_right h.lower _) (sub_le_sub_left h.upper _)) (le_refl 0)

theorem width_le (h : o.Tighter o') : 0 ≤ o.width ∧ o.width ≤ o'.width := by
  unfold width Interval.width
  rw [val_sub, val_sub]
  exact ⟨sub_nonneg.mpr h.valid, sub_le_sub h.upper h.lower⟩

theorem outside_nonneg (h : o.Tighter o') : 0 ≤ o.outside := by
  rw [outside_eq h.valid]
  exact le_max_right _ _

/-- A value outside the wider interval is outside the tighter one. -/
theorem contains (h : o.Tighter o') (hinside : o.predictedInterval.contains o.observed = true) :
    o'.predictedInterval.contains o'.observed = true := by
  rw [contains_iff] at hinside ⊢
  rw [← h.observed]
  exact ⟨h.lower.trans hinside.1, hinside.2.trans h.upper⟩

theorem sigma_le (h : o.Tighter o') (hbound : o.PointBound o') : val o'.sigma ≤ val o.sigma := by
  obtain ⟨hnonneg, hle⟩ := h.width_le
  rw [sigma_eq, sigma_eq]
  rcases hnonneg.lt_or_eq with hpos | hpoint
  · have hpos' : 0 < o'.width := hpos.trans_le hle
    rw [if_pos hpos, if_pos hpos']
    exact div_le_div₀ h.outside_nonneg h.outside_le hpos hle
  · have hnot : ¬ 0 < o.width := not_lt.mpr hpoint.ge
    rw [if_neg hnot]
    by_cases hpos' : 0 < o'.width
    · rw [if_pos hpos', div_le_iff₀ hpos']
      exact hbound hpoint.symm hpos'
    · rw [if_neg hpos']
      exact h.outside_le

end Tighter

end Observation

/-- What a new detector answers to the observation at `n`. -/
def answer (observations : List (Observation F64)) (n : ℕ) : Option (MetricDivergence F64) :=
  observations[n]?.bind fun o => ((run step (DivergenceDetector.new : DivergenceDetector F64)
    ((observations.take n).map .processObservation)).process o).2

/-- The observation is reported as an anomaly. -/
def Flagged (result : Option (MetricDivergence F64)) : Prop :=
  ∃ divergence, result = some divergence ∧ divergence.isAnomaly = true

omit [ExactDivision F64 F32] in
theorem flagged_process (d : DivergenceDetector F64) (o : Observation F64) :
    Flagged (d.process o).2 ↔ o.predictedInterval.contains o.observed = false := by
  rw [result_process]
  unfold Flagged
  cases hinside : o.predictedInterval.contains o.observed <;> cases (d.updated o).2 <;>
    simp [divergence, MetricDivergence.isAnomaly, MetricDivergence.new, hinside]

section Streams

variable {observations : List (Observation F64)} {key : LinkId × MetricType} {n : ℕ}

theorem stream_map (hkey : ∀ o ∈ observations, o.key = key) :
    stream key (observations.map .processObservation) = observations.map fun o => val o.sigma := by
  induction observations using List.reverseRecOn with
  | nil => rfl
  | append_singleton observations o ih =>
    rw [List.map_append, List.map_singleton, stream_append_singleton,
      if_pos (hkey o (by simp)).symm, ih fun o ho => hkey o (List.mem_append_left _ ho),
      List.map_append, List.map_singleton]

theorem reportsChange_answer (hkey : ∀ o ∈ observations, o.key = key)
    (hn : n < observations.length) :
    ReportsChange (answer observations n) ↔
      FirstCrosses (· - 1) 5 ((observations.map fun o => val o.sigma).take (n + 1)) := by
  have hanswer : answer observations n = ((run step (DivergenceDetector.new :
      DivergenceDetector F64) ((observations.take n).map .processObservation)).process
        observations[n]).2 := by
    rw [answer, List.getElem?_eq_getElem hn, Option.bind_some]
  have hcalls : (observations.take n).map Call.processObservation ++
      [.processObservation observations[n]] =
        (observations.take (n + 1)).map Call.processObservation := by
    rw [List.take_succ_eq_append_getElem hn, List.map_append, List.map_singleton]
  rw [hanswer, reportsChange_process, updated_run, hcalls,
    hkey _ (List.getElem_mem hn), stream_map fun o ho => hkey o (List.mem_of_mem_take ho),
    List.map_take]

end Streams

/-- What is flagged against wider intervals is flagged against tighter ones, and no change is
reported before one is reported against the tighter ones, as long as no point among these stands
against a wide interval whose distance counts more. -/
theorem tighter_no_later {key : LinkId × MetricType} {first second : List (Observation F64)}
    (hkey : ∀ o ∈ first, o.key = key) (hkey' : ∀ o ∈ second, o.key = key)
    (h : List.Forall₂ Observation.Tighter first second) :
    (∀ n, Flagged (answer second n) → Flagged (answer first n)) ∧
      (List.Forall₂ Observation.PointBound first second →
        ∀ n, ReportsChange (answer second n) → ∃ m ≤ n, ReportsChange (answer first m)) := by
  have hlength := h.length_eq
  constructor
  · intro n hflagged
    by_cases hn : n < second.length
    · have hn' : n < first.length := hlength ▸ hn
      rw [answer, List.getElem?_eq_getElem hn, Option.bind_some, flagged_process] at hflagged
      rw [answer, List.getElem?_eq_getElem hn', Option.bind_some, flagged_process]
      rw [← Bool.not_eq_true] at hflagged ⊢
      exact mt (h.get hn' hn).contains hflagged
    · obtain ⟨divergence, hresult, -⟩ := hflagged
      rw [answer, List.getElem?_eq_none (not_lt.mp hn)] at hresult
      contradiction
  · intro hbound n hreports
    by_cases hn : n < second.length
    · rw [reportsChange_answer hkey' hn] at hreports
      have hsigma : List.Forall₂ (fun x y : ℚ => x - 1 ≤ y - 1)
          ((second.map fun o => val o.sigma).take (n + 1))
          ((first.map fun o => val o.sigma).take (n + 1)) := by
        refine List.forall₂_take (n + 1)
          (List.forall₂_map_left_iff.mpr (List.forall₂_map_right_iff.mpr ?_))
        refine List.forall₂_iff_get.mpr ⟨hlength.symm, fun i hi hi' => ?_⟩
        exact sub_le_sub_right ((h.get hi' hi).sigma_le (hbound.get hi' hi)) 1
      have hcrossed : HasCrossed (· - 1) 5 ((first.map fun o => val o.sigma).take (n + 1)) :=
        HasCrossed.mono (by norm_num) hsigma ⟨_, List.prefix_refl _, hreports.1⟩
      obtain ⟨m, hm, hfirst⟩ := exists_firstCrosses hcrossed
      rw [List.length_take, List.length_map] at hm
      refine ⟨m, by omega, (reportsChange_answer hkey (by omega)).mpr ?_⟩
      rwa [List.take_take, min_eq_left (by omega)] at hfirst
    · obtain ⟨divergence, time, hresult, -⟩ := hreports
      rw [answer, List.getElem?_eq_none (not_lt.mp hn)] at hresult
      contradiction

/-- An observation of one stream. -/
def observationOf (lower upper observed : ℚ) : Observation ℚ :=
  { linkId := 0, metricType := .snr, predictedInterval := ⟨lower, upper⟩, observed
    eventTime := ⟨0⟩, receptionTime := ⟨0⟩ }

/-- One value in its interval and two beyond it. -/
def wideObservations : List (Observation ℚ) :=
  [observationOf 0 1 0.5, observationOf 0 1 4, observationOf 0 1 6]

/-- The same values against halves of the intervals, and the second one against a point. -/
def tightObservations : List (Observation ℚ) :=
  [observationOf 0 0.5 0.5, observationOf 1 1 4, observationOf 0 0.5 6]

theorem narrowed_intervals_detect :
    letI := FloatOps.exact id id
    Flagged (answer tightObservations 1) ∧ ∃ m ≤ 2, ReportsChange (answer tightObservations m) := by
  let _ := FloatOps.exact id id
  let _ := ExactDivision.exact id id
  have htighter : List.Forall₂ Observation.Tighter tightObservations wideObservations :=
    .cons ⟨rfl, by decide +kernel, by decide +kernel, by decide +kernel⟩ <|
      .cons ⟨rfl, by decide +kernel, by decide +kernel, by decide +kernel⟩ <|
        .cons ⟨rfl, by decide +kernel, by decide +kernel, by decide +kernel⟩ .nil
  have hhalf : ∀ observed, (observationOf 0 0.5 observed).width ≠ 0 := fun observed =>
    show (0.5 - 0 : ℚ) ≠ 0 by norm_num
  have hpoint : (observationOf 1 1 4).PointBound (observationOf 0 1 4) := fun _ _ => by
    decide +kernel
  obtain ⟨hflag, hchange⟩ := @tighter_no_later ℚ ℚ _ _ (0, .snr) tightObservations
    wideObservations (by decide) (by decide) htighter
  refine ⟨hflag 1 ((flagged_process _ _).mpr (by decide +kernel)), hchange ?_ 2
    ((reportsChange_process _ _).mpr (by decide +kernel))⟩
  exact .cons (fun h => absurd h (hhalf _)) <|
    .cons hpoint <| .cons (fun h => absurd h (hhalf _)) .nil

/-- The distance to a point is not divided, so a value that is ten widths away from an interval of
0.1 is not far from the point zero. -/
theorem point_detects_later :
    letI := FloatOps.exact id id
    letI := ExactDivision.exact id id
    ¬ ∀ (key : LinkId × MetricType) (first second : List (Observation ℚ)),
      (∀ o ∈ first, o.key = key) → (∀ o ∈ second, o.key = key) →
      List.Forall₂ Observation.Tighter first second →
      (∀ n, Flagged (answer second n) → Flagged (answer first n)) ∧
        ∀ n, ReportsChange (answer second n) → ∃ m ≤ n, ReportsChange (answer first m) := by
  let _ := FloatOps.exact id id
  let _ := ExactDivision.exact id id
  intro h
  have htighter : (observationOf 0 0 1.1).Tighter (observationOf 0 0.1 1.1) :=
    ⟨rfl, by decide +kernel, by decide +kernel, by decide +kernel⟩
  have hchange := (h (0, .snr) [observationOf 0 0 1.1] [observationOf 0 0.1 1.1]
    (by simp [observationOf, Observation.key]) (by simp [observationOf, Observation.key])
    (.cons htighter .nil)).2 0 ((reportsChange_process _ _).mpr (by decide +kernel))
  obtain ⟨m, hm, hreports⟩ := hchange
  obtain rfl := Nat.le_zero.mp hm
  have hupdated := (reportsChange_process (DivergenceDetector.new : DivergenceDetector ℚ)
    (observationOf 0 0 1.1)).mp hreports
  exact absurd hupdated (by decide +kernel)

end GroundCore.DigitalTwin
