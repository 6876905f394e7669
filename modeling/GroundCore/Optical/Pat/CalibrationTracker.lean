import GroundCore.Optical.Pat.Calibration

/-! The tracker that corrects the pointing by the model.  The correction is dropped at once when the
last one of the model is four hours old, and also when that one rests on a single observation. -/

namespace GroundCore.Optical.Pat

open Lib

variable {K : Type} [Field K]

/-- The tracker; of its intervals, the one between observations of any source. -/
structure CalibrationTracker (K : Type) where
  model : PointingModel K
  targetIntervalS : ℤ
  lastObservationAt : Option DateTime

def PointingCorrection.apply (c : PointingCorrection K) (azDeg elDeg : K) : K × K :=
  (azDeg + c.azOffsetMdeg / 1000.0, elDeg + c.elOffsetMdeg / 1000.0)

def PointingModel.applyCorrection (model : PointingModel K) (azDeg elDeg : K) : K × K :=
  model.currentCorrection.apply azDeg elDeg

variable [LinearOrder K]

def PointingCorrection.isFresh (c : PointingCorrection K) (maxAge : Duration) (now : DateTime) :
    Bool :=
  let age := now - c.updatedAt
  decide (age < maxAge) && decide (0.3 < c.confidence)

def PointingModel.isOperationallyCurrent (model : PointingModel K) (now : DateTime) : Bool :=
  model.currentCorrection.isFresh (Duration.hours 4) now

namespace CalibrationTracker

def new (now : DateTime) : CalibrationTracker K :=
  { model := .new (4 * 3600) now, targetIntervalS := 2 * 3600, lastObservationAt := none }

/-- An observation counts for the interval also if the model rejects it. -/
def recordObservation (sqrt : K → K) (tracker : CalibrationTracker K)
    (obs : CalibrationObservation K) (clock now : DateTime) : CalibrationTracker K :=
  { tracker with
    model := tracker.model.update sqrt obs clock now
    lastObservationAt := some obs.observedAt }

def observationDue (tracker : CalibrationTracker K) (now : DateTime) : Bool :=
  match tracker.lastObservationAt with
  | none => true
  | some last => decide (tracker.targetIntervalS ≤ Duration.numSeconds (now - last))

def correctedPointing (tracker : CalibrationTracker K) (now : DateTime) (azDeg elDeg : K) : K × K :=
  if tracker.model.isOperationallyCurrent now then tracker.model.applyCorrection azDeg elDeg
  else (azDeg, elDeg)

end CalibrationTracker

/-- The model and the target interval are open to the caller. -/
inductive TrackerCall (K : Type)
  | recordObservation (obs : CalibrationObservation K) (clock now : DateTime)
  | callModel (call : ModelCall K)
  | setTargetInterval (targetIntervalS : ℤ)

namespace CalibrationTracker

def step (sqrt : K → K) (tracker : CalibrationTracker K) : TrackerCall K → CalibrationTracker K
  | .recordObservation obs clock now => tracker.recordObservation sqrt obs clock now
  | .callModel call => { tracker with model := tracker.model.step sqrt call }
  | .setTargetInterval targetIntervalS => { tracker with targetIntervalS }

end CalibrationTracker

/-! ### What a correction rests on -/

section Recomputed

variable (sqrt : K → K)

/-- The observations that an update takes a new correction from, if it does: the recent ones, where
they have a weight, or none at all. -/
def PointingModel.recomputed (model : PointingModel K) (obs : CalibrationObservation K)
    (clock now : DateTime) : Option (List (CalibrationObservation K) × DateTime) :=
  let recent := (model.record obs).recent clock
  if model.rejects sqrt obs then none
  else if recent = [] ∨ 0 < (recent.map (·.weight now)).sum then some (recent, now)
  else none

def CalibrationTracker.recomputed (tracker : CalibrationTracker K) :
    TrackerCall K → Option (List (CalibrationObservation K) × DateTime)
  | .recordObservation obs clock now => tracker.model.recomputed sqrt obs clock now
  | .callModel (.update obs clock now) => tracker.model.recomputed sqrt obs clock now
  | .callModel (.setWindow _) => none
  | .setTargetInterval _ => none

end Recomputed

/-- The mean of a residual, weighted by quality and age. -/
def meanResidual (residual : CalibrationObservation K → K) (now : DateTime)
    (observations : List (CalibrationObservation K)) : K :=
  (observations.map fun o => residual o * o.weight now).sum /
    (observations.map (·.weight now)).sum

/-- The correction comes from these observations at this time. -/
structure ComesFrom (c : PointingCorrection K) (recent : List (CalibrationObservation K))
    (now : DateTime) : Prop where
  of_nil : recent = [] → c.confidence = 0
  of_ne_nil : recent ≠ [] → c =
    { azOffsetMdeg := meanResidual (·.residualAzMdeg) now recent
      elOffsetMdeg := meanResidual (·.residualElMdeg) now recent
      confidence := min ((recent.length : K) / 5.0) 1
      updatedAt := now }

variable {sqrt : K → K} {model : PointingModel K} {tracker : CalibrationTracker K}
  {recent : List (CalibrationObservation K)} {time : DateTime}

theorem PointingModel.currentCorrection_update (obs : CalibrationObservation K)
    (clock now : DateTime) :
    match model.recomputed sqrt obs clock now with
    | none => (model.update sqrt obs clock now).currentCorrection = model.currentCorrection
    | some (recent, time) =>
      ComesFrom (model.update sqrt obs clock now).currentCorrection recent time := by
  unfold recomputed
  dsimp only
  cases hrejects : model.rejects sqrt obs with
  | true => exact congrArg _ (update_of_rejects hrejects)
  | false =>
    rw [update_of_not_rejects hrejects, recomputeCorrection]
    generalize hrecent : (model.record obs).recent clock = recent
    dsimp only
    by_cases hnil : recent = []
    · rw [if_neg Bool.false_ne_true, if_pos (.inl hnil), if_pos (List.isEmpty_iff.mpr hnil)]
      exact ⟨fun _ => rfl, fun hne => absurd hnil hne⟩
    · rw [if_neg Bool.false_ne_true, if_neg (mt List.isEmpty_iff.mp hnil), foldl_addWeighted]
      simp only [zero_add, hnil, false_or]
      by_cases htotal : 0 < (recent.map (·.weight now)).sum
      · rw [if_pos htotal, if_pos htotal]
        exact ⟨fun h => absurd h hnil, fun _ => rfl⟩
      · rw [if_neg htotal, if_neg htotal]
        rfl

/-- Fresh observations of positive quality that are too few to tell an outlier are all taken. -/
theorem PointingModel.recomputed_of_short [IsStrictOrderedRing K]
    {observations : List (CalibrationObservation K)} {obs : CalibrationObservation K}
    {clock now : DateTime} (hhistory : model.history = observations)
    (hshort : observations.length < 3) (hroom : observations.length < model.maxHistory)
    (hfresh : ∀ o ∈ observations ++ [obs], model.InWindow clock o ∧ 0 < o.signalQuality) :
    model.recomputed sqrt obs clock now = some (observations ++ [obs], now) := by
  have haccepts : model.rejects sqrt obs = false := by
    rw [rejects, hhistory, decide_eq_false (by omega), Bool.false_and]
  have hrecent : (model.record obs).recent clock = observations ++ [obs] := by
    unfold recent PointingModel.record
    rw [hhistory, if_neg (by omega), List.filter_eq_self]
    exact fun o ho => decide_eq_true (hfresh o ho).1
  have hweight : 0 < ((observations ++ [obs]).map (·.weight now)).sum :=
    weight_sum_pos (by simp) fun o ho => weight_pos (hfresh o ho).2
  unfold recomputed
  dsimp only
  rw [haccepts, hrecent, if_neg Bool.false_ne_true, if_pos (.inr hweight)]

namespace CalibrationTracker

variable (sqrt) in
theorem currentCorrection_step (tracker : CalibrationTracker K) (call : TrackerCall K) :
    match tracker.recomputed sqrt call with
    | none => (tracker.step sqrt call).model.currentCorrection = tracker.model.currentCorrection
    | some (recent, time) =>
      ComesFrom (tracker.step sqrt call).model.currentCorrection recent time := by
  cases call with
  | recordObservation obs clock now => exact tracker.model.currentCorrection_update obs clock now
  | callModel call =>
    cases call with
    | update obs clock now => exact tracker.model.currentCorrection_update obs clock now
    | setWindow windowSeconds => rfl
  | setTargetInterval targetIntervalS => rfl

/-- Calls that take no new correction leave the present one. -/
theorem currentCorrection_run {calls : List (TrackerCall K)}
    (hnone : Along (step sqrt) (fun t call => ¬ (t.recomputed sqrt call).isSome) tracker calls) :
    (run (step sqrt) tracker calls).model.currentCorrection = tracker.model.currentCorrection := by
  refine run_invariant (I := fun t : CalibrationTracker K =>
    t.model.currentCorrection = tracker.model.currentCorrection) (fun t call h hcall => ?_) rfl hnone
  have hstep := t.currentCorrection_step sqrt call
  rw [Option.not_isSome_iff_eq_none.mp hcall] at hstep
  exact hstep.trans h

variable (sqrt) in
/-- The last call that took a new correction took it from these observations at this time. -/
def RestsOn (tracker : CalibrationTracker K) (calls : List (TrackerCall K))
    (recent : List (CalibrationObservation K)) (time : DateTime) : Prop :=
  ∃ before call after, calls = before ++ call :: after ∧
    (run (step sqrt) tracker before).recomputed sqrt call = some (recent, time) ∧
    Along (step sqrt) (fun t call => ¬ (t.recomputed sqrt call).isSome)
      ((run (step sqrt) tracker before).step sqrt call) after

theorem RestsOn.comesFrom {calls : List (TrackerCall K)}
    (h : tracker.RestsOn sqrt calls recent time) :
    ComesFrom (run (step sqrt) tracker calls).model.currentCorrection recent time := by
  obtain ⟨before, call, after, rfl, hcall, hafter⟩ := h
  rw [run_append, run_cons, currentCorrection_run hafter]
  have hstep := (run (step sqrt) tracker before).currentCorrection_step sqrt call
  rw [hcall] at hstep
  exact hstep

variable (sqrt) in
/-- A run takes no correction at all, or the one that it ends with rests on some observations. -/
theorem currentCorrection_eq_or_restsOn (tracker : CalibrationTracker K)
    (calls : List (TrackerCall K)) :
    (run (step sqrt) tracker calls).model.currentCorrection = tracker.model.currentCorrection ∨
      ∃ recent time, tracker.RestsOn sqrt calls recent time := by
  rcases along_not_or_last (step sqrt)
    (fun t call => (t.recomputed sqrt call).isSome = true) tracker calls with
    hnone | ⟨before, call, after, hcalls, hcall, hafter⟩
  · exact .inl (currentCorrection_run hnone)
  · obtain ⟨⟨recent, time⟩, hsome⟩ := Option.isSome_iff_exists.mp hcall
    exact .inr ⟨recent, time, before, call, after, hcalls, hsome, hafter⟩

/-- The time of the observation, if the call is one of the tracker. -/
def recordedAt : TrackerCall K → Option DateTime
  | .recordObservation obs _ _ => some obs.observedAt
  | _ => none

theorem lastObservationAt_run (tracker : CalibrationTracker K)
    (calls : List (TrackerCall K)) :
    (run (step sqrt) tracker calls).lastObservationAt =
      (calls.filterMap recordedAt).getLast?.or tracker.lastObservationAt := by
  induction calls generalizing tracker with
  | nil => rfl
  | cons call calls ih =>
    rw [run_cons, ih]
    cases call with
    | recordObservation obs clock now =>
      have hrecorded : recordedAt (.recordObservation obs clock now) = some obs.observedAt := rfl
      rw [List.filterMap_cons_some hrecorded, List.getLast?_cons]
      cases (calls.filterMap recordedAt).getLast? <;> rfl
    | callModel call => rfl
    | setTargetInterval targetIntervalS => rfl

variable [IsStrictOrderedRing K]

theorem confidence_iff (n : ℕ) :
    (0.3 : K) < min ((n : K) / 5.0) 1 ↔ 2 ≤ n := by
  have hone : (0.3 : K) < 1 := by norm_num
  rw [lt_min_iff, and_iff_left hone, lt_div_iff₀ (by norm_num)]
  have hbound : (0.3 : K) * 5.0 = 1.5 := by norm_num
  rw [hbound]
  constructor
  · intro h
    by_contra hlt
    have hle : (n : K) ≤ 1 := by exact_mod_cast Nat.le_of_lt_succ (not_le.mp hlt)
    norm_num at h
    linarith
  · intro h
    have hge : (2 : K) ≤ n := by exact_mod_cast h
    norm_num
    linarith

theorem isFresh_iff {c : PointingCorrection K} (h : ComesFrom c recent time) (now : DateTime) :
    c.isFresh (Duration.hours 4) now = true ↔
      2 ≤ recent.length ∧ now - time < Duration.hours 4 := by
  rw [PointingCorrection.isFresh, Bool.and_eq_true, decide_eq_true_eq, decide_eq_true_eq, and_comm]
  by_cases hnil : recent = []
  · have hzero : ¬ (0.3 : K) < 0 := by norm_num
    rw [h.of_nil hnil, hnil]
    exact iff_of_false (fun hfresh => hzero hfresh.1) fun htwo => by simp at htwo
  · rw [h.of_ne_nil hnil, confidence_iff]

/-- After any calls the tracker turns a pointing by the correction that it took last, when that one
rests on two observations or more and is less than four hours old; in every other case it leaves the
pointing alone.  An observation is due by the last one recorded, though the model rejected it. -/
theorem correctedPointing_of_run (sqrt : K → K) (created : DateTime) (calls : List (TrackerCall K))
    (now : DateTime) (azDeg elDeg : K) :
    let start : CalibrationTracker K := new created
    let tracker := run (step sqrt) start calls
    (∀ recent time, start.RestsOn sqrt calls recent time →
      tracker.correctedPointing now azDeg elDeg =
        if 2 ≤ recent.length ∧ now - time < Duration.hours 4 then
          (azDeg + meanResidual (·.residualAzMdeg) time recent / 1000.0,
            elDeg + meanResidual (·.residualElMdeg) time recent / 1000.0)
        else (azDeg, elDeg)) ∧
    ((∀ recent time, ¬ start.RestsOn sqrt calls recent time) →
      tracker.correctedPointing now azDeg elDeg = (azDeg, elDeg)) ∧
    (tracker.observationDue now = true ↔ ∀ last ∈ (calls.filterMap recordedAt).getLast?,
      tracker.targetIntervalS ≤ Duration.numSeconds (now - last)) := by
  intro start tracker
  refine ⟨fun recent time hrests => ?_, fun hnone => ?_, ?_⟩
  · have hcomes : ComesFrom tracker.model.currentCorrection recent time := hrests.comesFrom
    have hfresh := isFresh_iff hcomes now
    unfold correctedPointing PointingModel.isOperationallyCurrent
    by_cases happlies : 2 ≤ recent.length ∧ now - time < Duration.hours 4
    · have hne : recent ≠ [] := by
        rintro rfl
        simp at happlies
      rw [if_pos (hfresh.mpr happlies), if_pos happlies, PointingModel.applyCorrection,
        hcomes.of_ne_nil hne]
      rfl
    · rw [if_neg (mt hfresh.mp happlies), if_neg happlies]
  · have hkept : tracker.model.currentCorrection = start.model.currentCorrection := by
      rcases currentCorrection_eq_or_restsOn sqrt start calls with h | ⟨recent, time, hrests⟩
      · exact h
      · exact absurd hrests (hnone recent time)
    have hzero : ¬ (0.3 : K) < 0 := by norm_num
    have hfresh : ¬ tracker.model.isOperationallyCurrent now = true := by
      rw [PointingModel.isOperationallyCurrent, hkept, PointingCorrection.isFresh,
        Bool.and_eq_true, decide_eq_true_eq, decide_eq_true_eq]
      exact fun h => hzero h.2
    exact if_neg hfresh
  · have hlast : tracker.lastObservationAt = (calls.filterMap recordedAt).getLast? :=
      (lastObservationAt_run start calls).trans (Option.or_none)
    unfold observationDue
    rw [hlast]
    cases (calls.filterMap recordedAt).getLast? <;> simp

/-- Two observations, off by 20 and by 40 millidegrees, turn the pointing by 30 for four hours. -/
theorem correctedPointing_two :
    let record := fun obs : CalibrationObservation ℚ => TrackerCall.recordObservation obs 0 0
    let tracker := run (step id) (new 0) [record (PointingModel.turned 0.02),
      record (PointingModel.turned 0.04)]
    tracker.correctedPointing (Duration.hours 3) 45 30 = (45.03, 30) ∧
      tracker.correctedPointing (Duration.hours 4) 45 30 = (45, 30) := by
  intro record tracker
  let recent : List (CalibrationObservation ℚ) :=
    [PointingModel.turned 0.02, PointingModel.turned 0.04]
  have hfirst := PointingModel.recomputeCorrection_frame
    ((new 0 : CalibrationTracker ℚ).model.record (PointingModel.turned 0.02)) 0 0
  have hrecomputed : (run (step id) (new 0) [record (PointingModel.turned 0.02)]).recomputed id
      (record (PointingModel.turned 0.04)) = some (recent, 0) := by
    refine PointingModel.recomputed_of_short hfirst.1 (by decide) ?_ fun o ho => ?_
    · exact hfirst.2.1 ▸ (by decide : 1 < 50)
    · have hwindow : (0 : ℤ) ≤ _ := hfirst.2.2.ge.trans' (by decide)
      have hturned := fun az : ℚ =>
        PointingModel.fresh_turned hwindow az 1 _ (List.mem_singleton_self _)
      rcases List.mem_pair.mp ho with rfl | rfl <;> exact ⟨(hturned _).1, one_pos⟩
  have hrests : (new 0).RestsOn id
      [record (PointingModel.turned 0.02), record (PointingModel.turned 0.04)] recent 0 :=
    ⟨[record (PointingModel.turned 0.02)], record (PointingModel.turned 0.04), [], rfl,
      hrecomputed, trivial⟩
  have hmean : meanResidual (·.residualAzMdeg) 0 recent = 30 ∧
      meanResidual (·.residualElMdeg) 0 recent = 0 := by
    norm_num [meanResidual, recent, PointingModel.turned, CalibrationObservation.residualAzMdeg,
      CalibrationObservation.residualElMdeg, CalibrationObservation.weight, Duration.numSeconds]
  have h := fun now => (correctedPointing_of_run id 0 _ now (45 : ℚ) 30).1 recent 0 hrests
  rw [hmean.1, hmean.2] at h
  refine ⟨(h _).trans ?_, (h _).trans ?_⟩
  · rw [if_pos (by decide)]
    norm_num
  · rw [if_neg (by decide)]

end CalibrationTracker

end GroundCore.Optical.Pat
