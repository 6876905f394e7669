import Mathlib.Data.Rat.Cast.OfScientific
import Mathlib.Tactic.Linarith
import Mathlib.Tactic.NormNum.OfScientific
import Mathlib.Analysis.Real.Sqrt
import Mathlib.Data.List.Induction
import GroundCore.Core.Types
import GroundCore.Lib.Run
import GroundCore.Lib.WeightedMean

/-! The pointing model: a mean of the recent observations, weighted by quality and age, behind a
guard that rejects outliers.  Numbers are exact, and the square root is a parameter.

In runs of the model, the correction is a weighted mean of the recent observations; and
since a rejected observation leaves no trace, a shift that is rejected once is rejected for ever. -/

namespace GroundCore.Optical.Pat

open Lib

structure CalibrationObservation (K : Type) where
  observedAt : DateTime
  expectedAzDeg : K
  expectedElDeg : K
  measuredAzDeg : K
  measuredElDeg : K
  signalQuality : K

structure PointingCorrection (K : Type) where
  azOffsetMdeg : K
  elOffsetMdeg : K
  confidence : K
  updatedAt : DateTime

structure PointingModel (K : Type) where
  history : List (CalibrationObservation K)
  maxHistory : ℕ
  windowSeconds : ℤ
  currentCorrection : PointingCorrection K

variable {K : Type} [Field K]

namespace CalibrationObservation

def residualAzMdeg (o : CalibrationObservation K) : K := (o.measuredAzDeg - o.expectedAzDeg) * 1000.0

def residualElMdeg (o : CalibrationObservation K) : K := (o.measuredElDeg - o.expectedElDeg) * 1000.0

def residualMagnitudeMdeg (sqrt : K → K) (o : CalibrationObservation K) : K :=
  let az := o.residualAzMdeg
  let el := o.residualElMdeg
  sqrt (az * az + el * el)

/-- The weight of an observation in the mean. -/
def weight (now : DateTime) (o : CalibrationObservation K) : K :=
  let ageMinutes := ((max (Duration.numSeconds (now - o.observedAt)) 0 : ℤ) : K) / 60.0
  o.signalQuality / (ageMinutes + 1)

end CalibrationObservation

def PointingCorrection.zero (now : DateTime) : PointingCorrection K :=
  { azOffsetMdeg := 0, elOffsetMdeg := 0, confidence := 0, updatedAt := now }

namespace PointingModel

def new (windowSeconds : ℤ) (now : DateTime) : PointingModel K :=
  { history := [], maxHistory := 50, windowSeconds, currentCorrection := .zero now }

/-- The turn of the loop that adds an observation to the three totals. -/
def addWeighted (now : DateTime) (totals : K × K × K) (o : CalibrationObservation K) : K × K × K :=
  let (totalWeight, weightedAz, weightedEl) := totals
  let weight := o.weight now
  (totalWeight + weight, weightedAz + o.residualAzMdeg * weight,
    weightedEl + o.residualElMdeg * weight)

theorem foldl_addWeighted (now : DateTime) (observations : List (CalibrationObservation K))
    (totals : K × K × K) :
    observations.foldl (addWeighted now) totals =
      (totals.1 + (observations.map (·.weight now)).sum,
        totals.2.1 + (observations.map fun o => o.residualAzMdeg * o.weight now).sum,
        totals.2.2 + (observations.map fun o => o.residualElMdeg * o.weight now).sum) := by
  induction observations generalizing totals with
  | nil => simp
  | cons o observations ih =>
    rw [List.foldl_cons, ih]
    simp only [addWeighted, List.map_cons, List.sum_cons, add_assoc]

variable [LinearOrder K]

def isOutlier (sqrt : K → K) (model : PointingModel K) (candidate : CalibrationObservation K) :
    Bool :=
  let residuals := model.history.map (·.residualMagnitudeMdeg sqrt)
  let mean := residuals.sum / (residuals.length : K)
  let variance := (residuals.map fun r => (r - mean) ^ 2).sum / (residuals.length : K)
  let stdDev := sqrt variance
  decide (mean + 3.0 * max stdDev 10.0 < candidate.residualMagnitudeMdeg sqrt)

/-- The observations of the last `windowSeconds` before a reading of the clock. -/
def recent (model : PointingModel K) (clock : DateTime) : List (CalibrationObservation K) :=
  let cutoff := clock - Duration.seconds model.windowSeconds
  model.history.filter fun o => decide (cutoff ≤ o.observedAt)

/-- The clock is read for the cutoff and, if there are recent observations, again for their ages. -/
def recomputeCorrection (model : PointingModel K) (clock now : DateTime) : PointingModel K :=
  let recent := model.recent clock
  if recent.isEmpty then
    { model with currentCorrection := { model.currentCorrection with confidence := 0 } }
  else
    let (totalWeight, weightedAz, weightedEl) := recent.foldl (addWeighted now) (0, 0, 0)
    if 0 < totalWeight then
      { model with
        currentCorrection :=
          { azOffsetMdeg := weightedAz / totalWeight
            elOffsetMdeg := weightedEl / totalWeight
            confidence := min ((recent.length : K) / 5.0) 1
            updatedAt := now } }
    else model

/-- The observation is an outlier of a history that is long enough to tell. -/
def rejects (sqrt : K → K) (model : PointingModel K) (obs : CalibrationObservation K) : Bool :=
  decide (3 ≤ model.history.length) && model.isOutlier sqrt obs

/-- The model with a new observation in its bounded history. -/
def record (model : PointingModel K) (obs : CalibrationObservation K) : PointingModel K :=
  let history :=
    if model.maxHistory ≤ model.history.length then model.history.tail else model.history
  { model with history := history ++ [obs] }

def update (sqrt : K → K) (model : PointingModel K) (obs : CalibrationObservation K)
    (clock now : DateTime) : PointingModel K :=
  if model.rejects sqrt obs then model else (model.record obs).recomputeCorrection clock now

/-! ### What an update does -/

section Update

variable {sqrt : K → K} {model : PointingModel K} {obs : CalibrationObservation K}
  {clock now : DateTime}

theorem update_of_rejects (h : model.rejects sqrt obs = true) :
    model.update sqrt obs clock now = model := if_pos h

theorem update_of_not_rejects (h : model.rejects sqrt obs = false) :
    model.update sqrt obs clock now = (model.record obs).recomputeCorrection clock now :=
  if_neg (by rw [h]; exact Bool.false_ne_true)

theorem recomputeCorrection_frame (model : PointingModel K) (clock now : DateTime) :
    (model.recomputeCorrection clock now).history = model.history ∧
      (model.recomputeCorrection clock now).maxHistory = model.maxHistory ∧
      (model.recomputeCorrection clock now).windowSeconds = model.windowSeconds := by
  unfold recomputeCorrection
  dsimp only
  split
  · exact ⟨rfl, rfl, rfl⟩
  · split <;> exact ⟨rfl, rfl, rfl⟩

theorem recent_recomputeCorrection (model : PointingModel K) (clock now : DateTime) :
    (model.recomputeCorrection clock now).recent clock = model.recent clock := by
  obtain ⟨hhistory, -, hwindow⟩ := recomputeCorrection_frame model clock now
  rw [recent, hhistory, hwindow, recent]

variable [IsStrictOrderedRing K]

theorem weight_pos (h : 0 < obs.signalQuality) : 0 < obs.weight now := by
  have hage : (0 : K) ≤ ((max (Duration.numSeconds (now - obs.observedAt)) 0 : ℤ) : K) :=
    Int.cast_nonneg (le_max_right _ _)
  have hsixty : (0 : K) < 60.0 := by norm_num
  exact div_pos h (add_pos_of_nonneg_of_pos (div_nonneg hage hsixty.le) one_pos)

/-- The correction from some recent observations of positive quality. -/
theorem currentCorrection_recomputeCorrection (hne : model.recent clock ≠ [])
    (hquality : ∀ o ∈ model.recent clock, 0 < o.signalQuality) :
    (model.recomputeCorrection clock now).currentCorrection =
      { azOffsetMdeg := ((model.recent clock).map fun o => o.residualAzMdeg * o.weight now).sum /
          ((model.recent clock).map (·.weight now)).sum
        elOffsetMdeg := ((model.recent clock).map fun o => o.residualElMdeg * o.weight now).sum /
          ((model.recent clock).map (·.weight now)).sum
        confidence := min (((model.recent clock).length : K) / 5.0) 1
        updatedAt := now } := by
  have htotal : 0 < ((model.recent clock).map (·.weight now)).sum :=
    weight_sum_pos hne fun o ho => weight_pos (hquality o ho)
  rw [recomputeCorrection, List.isEmpty_eq_false_iff.mpr hne, foldl_addWeighted]
  simp only [zero_add, Bool.false_eq_true, if_false, if_pos htotal]

end Update

end PointingModel

end GroundCore.Optical.Pat

namespace GroundCore.Optical.Pat

open Lib

variable {K : Type}

/-- The clock is read twice in an update; the window can be set between updates. -/
inductive ModelCall (K : Type)
  | update (obs : CalibrationObservation K) (clock now : DateTime)
  | setWindow (windowSeconds : ℤ)

namespace PointingModel

section Record

variable {model : PointingModel K} {obs : CalibrationObservation K}

theorem history_record (model : PointingModel K) (obs : CalibrationObservation K) :
    ∃ kept, kept.IsSuffix model.history ∧ (model.record obs).history = kept ++ [obs] := by
  unfold record
  split
  · exact ⟨_, List.tail_suffix _, rfl⟩
  · exact ⟨_, List.suffix_rfl, rfl⟩

theorem length_record_le (hpos : 0 < model.maxHistory)
    (h : model.history.length ≤ model.maxHistory) :
    (model.record obs).history.length ≤ model.maxHistory := by
  unfold record
  dsimp only
  split <;> rw [List.length_append, List.length_singleton]
  · rw [List.length_tail]
    omega
  · omega

/-- Observations of positive quality only. -/
def Positive [Zero K] [LT K] (model : PointingModel K) : Prop :=
  ∀ o ∈ model.history, 0 < o.signalQuality

theorem Positive.record [Zero K] [LT K] (h : Positive model) (hobs : 0 < obs.signalQuality) :
    Positive (model.record obs) := by
  obtain ⟨kept, hsuffix, hhistory⟩ := history_record model obs
  intro o ho
  rw [hhistory, List.mem_append, List.mem_singleton] at ho
  rcases ho with ho | rfl
  · exact h o (hsuffix.subset ho)
  · exact hobs

/-- The observation is in the window at a reading of the clock. -/
def InWindow (model : PointingModel K) (clock : DateTime) (o : CalibrationObservation K) : Prop :=
  clock - Duration.seconds model.windowSeconds ≤ o.observedAt

theorem recent_record_ne_nil {clock : DateTime} (h : model.InWindow clock obs) :
    (model.record obs).recent clock ≠ [] := by
  obtain ⟨kept, -, hhistory⟩ := history_record model obs
  refine List.ne_nil_of_mem (a := obs) (List.mem_filter.mpr ⟨?_, decide_eq_true h⟩)
  rw [hhistory]
  simp

/-- The history of the later model ends in the observations, and begins with what is left of the
earlier one. -/
structure Pushed (model next : PointingModel K) (observations : List (CalibrationObservation K)) :
    Prop where
  history : ∃ kept, kept.IsSuffix model.history ∧ next.history = kept ++ observations ∧
    kept.length + observations.length ≤ model.maxHistory
  maxHistory : next.maxHistory = model.maxHistory
  windowSeconds : next.windowSeconds = model.windowSeconds

theorem Pushed.record {next : PointingModel K} {observations : List (CalibrationObservation K)}
    (h : Pushed model next observations) (hroom : observations.length < model.maxHistory) :
    Pushed model (next.record obs) (observations ++ [obs]) := by
  obtain ⟨kept, hsuffix, hhistory, hkept⟩ := h.history
  refine ⟨?_, h.maxHistory, h.windowSeconds⟩
  unfold PointingModel.record
  rw [h.maxHistory, hhistory, List.length_append, List.length_append, List.length_singleton]
  split
  · next hfull =>
    -- a full history has observations from before
    cases kept with
    | nil =>
      rw [List.length_nil] at hfull
      omega
    | cons first kept =>
      rw [List.length_cons] at hkept
      exact ⟨kept, (List.suffix_cons first kept).trans hsuffix, by simp, by omega⟩
  · exact ⟨kept, hsuffix, by simp, by omega⟩

end Record

variable [Field K] [LinearOrder K]

def step (sqrt : K → K) (model : PointingModel K) : ModelCall K → PointingModel K
  | .update obs clock now => model.update sqrt obs clock now
  | .setWindow windowSeconds => { model with windowSeconds }

/-- The observation of the call is not rejected. -/
def Accepts (sqrt : K → K) (model : PointingModel K) : ModelCall K → Prop
  | .update obs _ _ => model.rejects sqrt obs = false
  | .setWindow _ => True

def PositiveQuality : ModelCall K → Prop
  | .update obs _ _ => 0 < obs.signalQuality
  | .setWindow _ => True

variable {sqrt : K → K} {model : PointingModel K} {obs : CalibrationObservation K}
  {clock now : DateTime}

/-- What holds of the history and the confidence in every reachable state. -/
structure Bounded (model : PointingModel K) : Prop where
  maxHistory : model.maxHistory = 50
  history : model.history.length ≤ model.maxHistory
  confidence : 0 ≤ model.currentCorrection.confidence ∧ model.currentCorrection.confidence ≤ 1

theorem Positive.run {calls : List (ModelCall K)} (h : Positive model)
    (hcalls : ∀ call ∈ calls, PositiveQuality call) :
    Positive (run (PointingModel.step sqrt) model calls) := by
  refine run_invariant (fun model call h hcall => ?_) h (along_of_forall hcalls)
  cases call with
  | setWindow windowSeconds => exact h
  | update obs clock now =>
    show Positive (model.update sqrt obs clock now)
    unfold update
    split
    · exact h
    · rw [Positive, (recomputeCorrection_frame _ clock now).1]
      exact h.record hcall

/-- Updates with the given observations at one instant. -/
def updatesAt (now : DateTime) (observations : List (CalibrationObservation K)) :
    List (ModelCall K) :=
  observations.map fun obs => .update obs now now

/-- After a rejected observation the model stays as it is for as long as the observations have its
residual. -/
theorem run_of_rejects (h : model.rejects sqrt obs = true)
    {observations : List (CalibrationObservation K)}
    (hsame : ∀ o ∈ observations, o.residualMagnitudeMdeg sqrt = obs.residualMagnitudeMdeg sqrt) :
    run (step sqrt) model (updatesAt now observations) = model := by
  induction observations with
  | nil => rfl
  | cons o observations ih =>
    have hrejects : model.rejects sqrt o = true := by
      rw [rejects, isOutlier, hsame o List.mem_cons_self]
      exact h
    show run (step sqrt) (model.update sqrt o now now) (updatesAt now observations) = model
    rw [update_of_rejects hrejects]
    exact ih fun o' ho' => hsame o' (List.mem_cons_of_mem _ ho')

/-- Observations that no model rejects. -/
theorem along_of_accepts {observations : List (CalibrationObservation K)}
    (h : ∀ (model : PointingModel K), ∀ o ∈ observations, model.rejects sqrt o = false) :
    Along (step sqrt) (Accepts sqrt) model (updatesAt now observations) := by
  induction observations generalizing model with
  | nil => trivial
  | cons o observations ih =>
    exact ⟨h model o List.mem_cons_self,
      ih fun model o' ho' => h model o' (List.mem_cons_of_mem _ ho')⟩

/-- A history of fewer than three observations rejects none. -/
theorem along_accepts_of_short {observations : List (CalibrationObservation K)}
    (h : model.history.length + observations.length ≤ 3) :
    Along (step sqrt) (Accepts sqrt) model (updatesAt now observations) := by
  induction observations generalizing model with
  | nil => trivial
  | cons o observations ih =>
    rw [List.length_cons] at h
    have haccepts : model.rejects sqrt o = false := by
      rw [rejects, decide_eq_false (by omega), Bool.false_and]
    refine ⟨haccepts, ih ?_⟩
    show (model.update sqrt o now now).history.length + _ ≤ 3
    rw [update_of_not_rejects haccepts, (recomputeCorrection_frame _ now now).1]
    obtain ⟨kept, hsuffix, hhistory⟩ := history_record model o
    have := hsuffix.length_le
    rw [hhistory, List.length_append, List.length_singleton]
    omega

theorem Pushed.update {next : PointingModel K} {observations : List (CalibrationObservation K)}
    (h : Pushed model next observations) (hroom : observations.length < model.maxHistory)
    (haccepts : next.rejects sqrt obs = false) :
    Pushed model (next.update sqrt obs clock now) (observations ++ [obs]) := by
  rw [update_of_not_rejects haccepts]
  obtain ⟨hhistory, hmax, hwindow⟩ := recomputeCorrection_frame (next.record obs) clock now
  have hrecord : Pushed model (next.record obs) (observations ++ [obs]) := h.record hroom
  exact ⟨hhistory ▸ hrecord.history, hmax.trans hrecord.maxHistory,
    hwindow.trans hrecord.windowSeconds⟩

/-- Accepted observations push the oldest ones out of the history. -/
theorem pushed_run {observations : List (CalibrationObservation K)}
    (hlength : model.history.length ≤ model.maxHistory)
    (hroom : observations.length ≤ model.maxHistory)
    (haccepts : Along (step sqrt) (Accepts sqrt) model (updatesAt now observations)) :
    Pushed model (run (step sqrt) model (updatesAt now observations)) observations := by
  induction observations using List.reverseRecOn with
  | nil => exact ⟨⟨model.history, List.suffix_rfl, by simp [updatesAt], hlength⟩, rfl, rfl⟩
  | append_singleton observations o ih =>
    rw [List.length_append, List.length_singleton] at hroom
    rw [updatesAt, List.map_append, along_append] at haccepts
    rw [updatesAt, List.map_append, run_append]
    exact (ih (by omega) haccepts.1).update (by omega) haccepts.2.1

variable [IsStrictOrderedRing K]

theorem bounded_new (windowSeconds : ℤ) (now : DateTime) :
    Bounded (new windowSeconds now : PointingModel K) where
  maxHistory := rfl
  history := Nat.zero_le _
  confidence := ⟨le_rfl, zero_le_one⟩

theorem Bounded.recomputeCorrection (h : Bounded model) (clock now : DateTime) :
    Bounded (model.recomputeCorrection clock now) := by
  obtain ⟨hhistory, hmax, -⟩ := recomputeCorrection_frame model clock now
  refine ⟨hmax.trans h.maxHistory, by rw [hhistory, hmax]; exact h.history, ?_⟩
  have hfive : (0 : K) < 5.0 := by norm_num
  unfold PointingModel.recomputeCorrection
  dsimp only
  split
  · exact ⟨le_rfl, zero_le_one⟩
  · split
    · exact ⟨le_min (div_nonneg (Nat.cast_nonneg _) hfive.le) zero_le_one, min_le_right _ _⟩
    · exact h.confidence

omit [IsStrictOrderedRing K] in
theorem Bounded.record (h : Bounded model) (obs : CalibrationObservation K) :
    Bounded (model.record obs) where
  maxHistory := h.maxHistory
  history := length_record_le (by rw [h.maxHistory]; decide) h.history
  confidence := h.confidence

theorem Bounded.step (h : Bounded model) (call : ModelCall K) : Bounded (model.step sqrt call) := by
  cases call with
  | setWindow windowSeconds => exact ⟨h.maxHistory, h.history, h.confidence⟩
  | update obs clock now =>
    show Bounded (model.update sqrt obs clock now)
    unfold update
    split
    · exact h
    · exact (h.record obs).recomputeCorrection clock now

theorem bounded_run (sqrt : K → K) (windowSeconds : ℤ) (created : DateTime)
    (calls : List (ModelCall K)) : Bounded (run (step sqrt) (new windowSeconds created) calls) :=
  run_preserves (fun _ call h => h.step call) (bounded_new windowSeconds created) calls

/-- A number that is no less than one of the residuals and no more than another. -/
def Between (residual : CalibrationObservation K → K)
    (observations : List (CalibrationObservation K)) (offset : K) : Prop :=
  (∃ o ∈ observations, residual o ≤ offset) ∧ ∃ o ∈ observations, offset ≤ residual o

theorem between_recomputeCorrection (hne : model.recent clock ≠ []) (hpositive : Positive model) :
    Between (·.residualAzMdeg) (model.recent clock)
        (model.recomputeCorrection clock now).currentCorrection.azOffsetMdeg ∧
      Between (·.residualElMdeg) (model.recent clock)
        (model.recomputeCorrection clock now).currentCorrection.elOffsetMdeg := by
  have hquality : ∀ o ∈ model.recent clock, 0 < o.signalQuality :=
    fun o ho => hpositive o (List.mem_filter.mp ho).1
  have hweight : ∀ o ∈ model.recent clock, 0 < o.weight now :=
    fun o ho => weight_pos (hquality o ho)
  rw [currentCorrection_recomputeCorrection hne hquality]
  exact ⟨⟨exists_le_weighted_mean hne hweight, exists_weighted_mean_le hne hweight⟩,
    exists_le_weighted_mean hne hweight, exists_weighted_mean_le hne hweight⟩

/-- In every reachable state the history is bounded and the confidence lies between 0 and 1.  A
rejected observation changes nothing, and after an accepted one in the window both offsets lie
between the least and the greatest residual of the observations in the window. -/
theorem correction_bounded (sqrt : K → K) (windowSeconds : ℤ) (created : DateTime)
    {calls : List (ModelCall K)} (hcalls : ∀ call ∈ calls, PositiveQuality call) :
    let model := run (step sqrt) (new windowSeconds created) calls
    (model.history.length ≤ model.maxHistory ∧ 0 ≤ model.currentCorrection.confidence ∧
      model.currentCorrection.confidence ≤ 1) ∧
    ∀ obs clock now, 0 < obs.signalQuality →
      let next := model.step sqrt (.update obs clock now)
      (model.rejects sqrt obs = true → next = model) ∧
      (model.rejects sqrt obs = false → model.InWindow clock obs →
        Between (·.residualAzMdeg) (next.recent clock) next.currentCorrection.azOffsetMdeg ∧
        Between (·.residualElMdeg) (next.recent clock) next.currentCorrection.elOffsetMdeg) := by
  have hbounded := bounded_run sqrt windowSeconds created calls
  have hpositive : Positive (run (step sqrt) (new windowSeconds created) calls) :=
    Positive.run (fun o ho => absurd ho List.not_mem_nil) hcalls
  refine ⟨⟨hbounded.history, hbounded.confidence⟩, fun obs clock now hobs => ⟨fun hrejects => ?_,
    fun haccepts hwindow => ?_⟩⟩
  · exact update_of_rejects hrejects
  · dsimp only [step]
    rw [update_of_not_rejects haccepts, recent_recomputeCorrection]
    exact between_recomputeCorrection (recent_record_ne_nil hwindow) (hpositive.record hobs)

/-- The correction from recent observations of one residual. -/
theorem offsets_recomputeCorrection {az el : K} (hne : model.recent clock ≠ [])
    (hsame : ∀ o ∈ model.recent clock, 0 < o.signalQuality ∧ o.residualAzMdeg = az ∧
      o.residualElMdeg = el) :
    (model.recomputeCorrection clock now).currentCorrection.azOffsetMdeg = az ∧
      (model.recomputeCorrection clock now).currentCorrection.elOffsetMdeg = el := by
  have hweight : ∀ o ∈ model.recent clock, 0 < o.weight now := fun o ho => weight_pos (hsame o ho).1
  rw [currentCorrection_recomputeCorrection hne fun o ho => (hsame o ho).1]
  exact ⟨weighted_mean_eq hne hweight fun o ho => (hsame o ho).2.1,
    weighted_mean_eq hne hweight fun o ho => (hsame o ho).2.2⟩

/-- Accepted and fresh observations of one residual give it as the correction, if the history holds
nothing else in the end. -/
theorem offsets_run {observations : List (CalibrationObservation K)} {az el : K}
    (hlength : model.history.length ≤ model.maxHistory) (hne : observations ≠ [])
    (hroom : observations.length ≤ model.maxHistory)
    (hold : model.history = [] ∨ observations.length = model.maxHistory)
    (hfresh : ∀ o ∈ observations, model.InWindow now o ∧ 0 < o.signalQuality ∧
      o.residualAzMdeg = az ∧ o.residualElMdeg = el)
    (haccepts : Along (step sqrt) (Accepts sqrt) model (updatesAt now observations)) :
    let next := run (step sqrt) model (updatesAt now observations)
    next.history = observations ∧ next.currentCorrection.azOffsetMdeg = az ∧
      next.currentCorrection.elOffsetMdeg = el := by
  obtain rfl | ⟨init, last, rfl⟩ := List.eq_nil_or_concat' observations
  · contradiction
  rw [updatesAt, List.map_append, along_append] at haccepts
  rw [List.length_append, List.length_singleton] at hroom hold
  have hnext : run (step sqrt) model (updatesAt now (init ++ [last])) =
      ((run (step sqrt) model (updatesAt now init)).record last).recomputeCorrection now now := by
    rw [updatesAt, List.map_append, run_append]
    exact update_of_not_rejects haccepts.2.1
  obtain ⟨⟨kept, hsuffix, hhistory, hkept⟩, -, hwindow⟩ : Pushed model _ (init ++ [last]) :=
    (pushed_run hlength (by omega) haccepts.1).record (by omega)
  rw [List.length_append, List.length_singleton] at hkept
  obtain rfl : kept = [] := by
    rcases hold with hempty | hfull
    · exact List.eq_nil_of_suffix_nil (hempty ▸ hsuffix)
    · exact List.eq_nil_of_length_eq_zero (by omega)
  have hrecent : ((run (step sqrt) model (updatesAt now init)).record last).recent now =
      init ++ [last] := by
    rw [recent, hhistory, hwindow, List.nil_append, List.filter_eq_self]
    exact fun o ho => decide_eq_true (hfresh o ho).1
  dsimp only
  rw [hnext, (recomputeCorrection_frame _ now now).1]
  refine ⟨hhistory, offsets_recomputeCorrection ?_ ?_⟩ <;> rw [hrecent]
  · simp
  · exact fun o ho => (hfresh o ho).2

/-- From every reachable state, as many fresh observations of one residual as the history holds, none
of which is rejected, give that residual as the correction. -/
theorem recovers_of_accepted (sqrt : K → K) (windowSeconds : ℤ) (created : DateTime)
    (calls : List (ModelCall K)) {observations : List (CalibrationObservation K)} {now : DateTime}
    {az el : K} :
    let model := run (step sqrt) (new windowSeconds created) calls
    let next := run (step sqrt) model (updatesAt now observations)
    observations.length = model.maxHistory →
    (∀ o ∈ observations, model.InWindow now o ∧ 0 < o.signalQuality ∧ o.residualAzMdeg = az ∧
      o.residualElMdeg = el) →
    Along (step sqrt) (Accepts sqrt) model (updatesAt now observations) →
    next.currentCorrection.azOffsetMdeg = az ∧ next.currentCorrection.elOffsetMdeg = el := by
  intro model next hcount hfresh haccepts
  have hbounded : Bounded model := bounded_run sqrt windowSeconds created calls
  have hne : observations ≠ [] := by
    rintro rfl
    rw [hbounded.maxHistory] at hcount
    contradiction
  exact (offsets_run hbounded.history hne hcount.le (.inr hcount) hfresh haccepts).2

/-! ### Two shifts -/

/-- An observation whose azimuth is off by some degrees. -/
def turned (az : K) : CalibrationObservation K :=
  { observedAt := 0, expectedAzDeg := 0, expectedElDeg := 0, measuredAzDeg := az, measuredElDeg := 0
    signalQuality := 1 }

/-- An observation at the epoch is fresh then. -/
theorem fresh_turned {model : PointingModel K} (hwindow : 0 ≤ model.windowSeconds) (az : K)
    (n : ℕ) :
    ∀ o ∈ List.replicate n (turned az), model.InWindow 0 o ∧ 0 < o.signalQuality ∧
      o.residualAzMdeg = az * 1000 ∧ o.residualElMdeg = 0 := by
  intro o ho
  rw [List.eq_of_mem_replicate ho]
  refine ⟨?_, one_pos, ?_, ?_⟩
  · show 0 - model.windowSeconds * 1000000000 ≤ 0
    omega
  · rw [CalibrationObservation.residualAzMdeg, turned, sub_zero]
    norm_num
  · rw [CalibrationObservation.residualElMdeg, turned, sub_zero, zero_mul]

/-- The model after three observations without an error. -/
noncomputable def steady : PointingModel ℝ :=
  run (step Real.sqrt) (new 3600 0) (updatesAt 0 (List.replicate 3 (turned 0)))

/-- The model after a shift by some degrees, as seen by as many observations as the history holds. -/
noncomputable def shifted (az : ℝ) : PointingModel ℝ :=
  run (step Real.sqrt) steady (updatesAt 0 (List.replicate 50 (turned az)))

theorem steady_spec : (steady.history = List.replicate 3 (turned 0) ∧ steady.maxHistory = 50 ∧
    steady.windowSeconds = 3600) ∧ steady.currentCorrection.azOffsetMdeg = 0 := by
  have hfresh := fresh_turned (show 0 ≤ (new 3600 0 : PointingModel ℝ).windowSeconds by decide) 0 3
  have haccepts : Along (step Real.sqrt) (Accepts Real.sqrt) (new 3600 0)
      (updatesAt 0 (List.replicate 3 (turned 0))) :=
    along_accepts_of_short (by simp [new])
  have h := offsets_run (Nat.zero_le _) (by simp) (by decide) (.inl rfl) hfresh haccepts
  have hpushed := pushed_run (Nat.zero_le _) (by decide) haccepts
  exact ⟨⟨h.1, hpushed.maxHistory, hpushed.windowSeconds⟩, h.2.1.trans (zero_mul _)⟩

theorem magnitude_turned (az : ℝ) (haz : 0 ≤ az) :
    (turned az).residualMagnitudeMdeg Real.sqrt = az * 1000 := by
  obtain ⟨-, -, hresidual, hzero⟩ :=
    fresh_turned (show 0 ≤ (new 0 0 : PointingModel ℝ).windowSeconds by decide) az 1 _
      (List.mem_singleton_self _)
  rw [CalibrationObservation.residualMagnitudeMdeg, hresidual, hzero, mul_zero, add_zero,
    Real.sqrt_mul_self (by positivity)]

theorem shift_rejected : steady.rejects Real.sqrt (turned 0.5) = true := by
  rw [rejects, steady_spec.1.1, isOutlier, steady_spec.1.1, magnitude_turned _ (by norm_num)]
  simp only [List.map_replicate, magnitude_turned _ le_rfl]
  norm_num

/-- After a shift by half a degree the correction stays at zero. -/
theorem shift_never_accepted :
    (List.replicate 50 (turned (0.5 : ℝ))).length = steady.maxHistory ∧
    (∀ o ∈ List.replicate 50 (turned (0.5 : ℝ)), steady.InWindow 0 o ∧ 0 < o.signalQuality ∧
      o.residualAzMdeg = 0.5 * 1000 ∧ o.residualElMdeg = 0) ∧
    (shifted 0.5).currentCorrection.azOffsetMdeg = 0 := by
  refine ⟨by rw [steady_spec.1.2.1, List.length_replicate], fresh_turned ?_ 0.5 50, ?_⟩
  · rw [steady_spec.1.2.2]
    decide
  · rw [shifted, run_of_rejects shift_rejected fun o ho => by rw [List.eq_of_mem_replicate ho]]
    exact steady_spec.2

/-- The guard lets every observation through that is off by at most 30 millidegrees. -/
theorem not_rejects_of_small {model : PointingModel ℝ} {obs : CalibrationObservation ℝ}
    (hsmall : obs.residualMagnitudeMdeg Real.sqrt ≤ 30) :
    model.rejects Real.sqrt obs = false := by
  rw [rejects, Bool.and_eq_false_imp]
  intro _
  refine decide_eq_false (not_lt.mpr (hsmall.trans ?_))
  have hmean : 0 ≤ (model.history.map (·.residualMagnitudeMdeg Real.sqrt)).sum /
      ((model.history.map (·.residualMagnitudeMdeg Real.sqrt)).length : ℝ) := by
    refine div_nonneg (List.sum_nonneg fun x hx => ?_) (Nat.cast_nonneg _)
    obtain ⟨o, -, rfl⟩ := List.mem_map.mp hx
    exact Real.sqrt_nonneg _
  have hbound : ∀ mean stdDev : ℝ, 0 ≤ mean → 30 ≤ mean + 3.0 * max stdDev 10.0 := by
    intro mean stdDev hmean
    have hmax := le_max_right stdDev 10.0
    norm_num only at hmax ⊢
    linarith
  exact hbound _ _ hmean

/-- A shift by a fiftieth of a degree is taken over. -/
theorem small_shift_recovers :
    (shifted 0.02).currentCorrection.azOffsetMdeg = 20 ∧
      (shifted 0.02).currentCorrection.elOffsetMdeg = 0 := by
  have haccepts : Along (step Real.sqrt) (Accepts Real.sqrt) steady
      (updatesAt 0 (List.replicate 50 (turned 0.02))) := by
    refine along_of_accepts fun model o ho => not_rejects_of_small ?_
    rw [List.eq_of_mem_replicate ho, magnitude_turned _ (by norm_num)]
    norm_num
  have hcount : (List.replicate 50 (turned (0.02 : ℝ))).length = steady.maxHistory := by
    rw [steady_spec.1.2.1, List.length_replicate]
  have hwindow : 0 ≤ steady.windowSeconds := by
    rw [steady_spec.1.2.2]
    decide
  have h := recovers_of_accepted Real.sqrt 3600 0 (updatesAt 0 (List.replicate 3 (turned 0)))
    hcount (fresh_turned hwindow 0.02 50) haccepts
  rw [shifted, steady]
  exact ⟨h.1.trans (by norm_num), h.2⟩

/-- The model takes in one more observation, off by a fiftieth of a degree. -/
noncomputable def corrected : PointingModel ℝ := steady.step Real.sqrt (.update (turned 0.02) 0 0)

theorem corrected_between :
    (steady.history.length ≤ steady.maxHistory ∧ 0 ≤ steady.currentCorrection.confidence ∧
      steady.currentCorrection.confidence ≤ 1) ∧
    Between (·.residualAzMdeg) (corrected.recent 0) corrected.currentCorrection.azOffsetMdeg := by
  have hcalls : ∀ call ∈ updatesAt 0 (List.replicate 3 (turned (0 : ℝ))), PositiveQuality call := by
    intro call hcall
    obtain ⟨o, ho, rfl⟩ := List.mem_map.mp hcall
    rw [List.eq_of_mem_replicate ho]
    exact one_pos
  have hwindow : steady.InWindow 0 (turned 0.02) := by
    rw [InWindow, steady_spec.1.2.2]
    decide
  have haccepts : steady.rejects Real.sqrt (turned 0.02) = false := by
    refine not_rejects_of_small ?_
    rw [magnitude_turned _ (by norm_num)]
    norm_num
  have h := correction_bounded Real.sqrt 3600 0 hcalls
  exact ⟨h.1, ((h.2 (turned 0.02) 0 0 one_pos).2 haccepts hwindow).1⟩

end PointingModel

end GroundCore.Optical.Pat
