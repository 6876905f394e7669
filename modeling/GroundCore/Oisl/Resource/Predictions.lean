import Mathlib.Tactic.Linarith
import GroundCore.Oisl.Resource.ControlNodeAssignment

/-! When the predictions of assignments come to an end.  The loop goes on as long as its time is
within the window, which it may never leave, reads the first of the distances, which there may not
be, and compares them, which it cannot do with an undefined one. -/

namespace GroundCore.Oisl.Resource.ControlNodeAssignmentAlgorithm

open Lib FloatOps Oisl.Topology

/-- A time that `DateTime` can hold. -/
def InRange (time : DateTime) : Prop :=
  Optical.Attestation.minUtc ≤ time ∧ time ≤ Optical.Attestation.maxUtc

instance (time : DateTime) : Decidable (InRange time) := inferInstanceAs (Decidable (_ ∧ _))

theorem addTime_eq_some_iff {time result : DateTime} {d : Duration} :
    addTime time d = some result ↔ InRange (time + d) ∧ time + d = result := by
  unfold addTime InRange
  split <;> simp [*]

variable {F64 F32 : Type}

/-- The time of the `k`-th turn of the loop. -/
def stepTime (alg : ControlNodeAssignmentAlgorithm F64) (now : DateTime) (k : ℕ) : DateTime :=
  now + k * alg.predictionInterval

variable {alg : ControlNodeAssignmentAlgorithm F64} {now endTime : DateTime}

@[simp] theorem stepTime_zero : alg.stepTime now 0 = now := by
  simp [stepTime]

theorem stepTime_succ (k : ℕ) :
    alg.stepTime now (k + 1) = alg.stepTime now k + alg.predictionInterval := by
  simp only [stepTime]
  push_cast
  ring

/-- The steps move in one direction. -/
theorem inRange_stepTime {k n : ℕ} (hnow : InRange now) (hn : InRange (alg.stepTime now n))
    (hk : k ≤ n) : InRange (alg.stepTime now k) := by
  have hcast : (k : ℤ) ≤ n := Int.ofNat_le.mpr hk
  unfold InRange stepTime at *
  rcases Int.le_total 0 alg.predictionInterval with hpos | hneg
  · have hlow : 0 ≤ (k : ℤ) * alg.predictionInterval := Int.mul_nonneg (by omega) hpos
    have hhigh := Int.mul_le_mul_of_nonneg_right hcast hpos
    exact ⟨by linarith [hnow.1], by linarith [hn.2]⟩
  · have hhigh : (k : ℤ) * alg.predictionInterval ≤ 0 :=
      Int.mul_nonpos_of_nonneg_of_nonpos (by omega) hneg
    have hlow := Int.mul_le_mul_of_nonpos_right hcast hneg
    exact ⟨by linarith [hn.1], by linarith [hnow.2]⟩

variable [SqrtOps F64 F32]

/-- The distances from a position can be compared, or there is but one. -/
def Comparable (controlNodes : HashMap NodeId (ControlNodeLocation F64)) (pos : Position3D F64) :
    Prop :=
  controlNodes.entries.length ≤ 1 ∨
    ∀ node ∈ controlNodes.entries, isUndefined (distance3d pos node.2.position) = false

/-- There is a control node; the end of the window is a time; and some step is after the window or
cannot be propagated to, while the distances at all steps before it can be compared. -/
def Predictable (sgp4 : PositionSgp4 F64) (alg : ControlNodeAssignmentAlgorithm F64)
    (controlNodes : HashMap NodeId (ControlNodeLocation F64)) (tleData : TleData)
    (now : DateTime) : Prop :=
  controlNodes.entries ≠ [] ∧ InRange (now + alg.predictionWindow) ∧
    ∃ n, InRange (alg.stepTime now n) ∧
      (now + alg.predictionWindow < alg.stepTime now n ∨
        ∃ e, predictPositionFromTle sgp4 tleData (alg.stepTime now n) = .error e) ∧
      ∀ k < n, ∀ pos, predictPositionFromTle sgp4 tleData (alg.stepTime now k) = .ok pos →
        Comparable controlNodes pos

/-- The points are at the steps of the interval within the window. -/
def OnePerStep (alg : ControlNodeAssignmentAlgorithm F64) (now : DateTime)
    (points : List (AssignmentPoint F64)) : Prop :=
  ∃ n, points.map (·.timestamp) = (List.range n).map (alg.stepTime now) ∧
    (∀ k < n, now ≤ alg.stepTime now k ∧ alg.stepTime now k ≤ now + alg.predictionWindow) ∧
    now + alg.predictionWindow < alg.stepTime now n

/-- What a call is to return: an error without control nodes, and else the predictions or the error
of a propagation. -/
def Answers (sgp4 : PositionSgp4 F64) (alg : ControlNodeAssignmentAlgorithm F64)
    (controlNodes : HashMap NodeId (ControlNodeLocation F64)) (tleData : TleData)
    (now : DateTime) : Except AssignmentError (AssignmentPrediction F64) → Prop
  | .ok prediction => controlNodes.entries ≠ [] ∧ OnePerStep alg now prediction.predictions
  | .error e =>
    controlNodes.entries = [] ∧ e = .noControlNodes ∨
      controlNodes.entries ≠ [] ∧ ∃ k, alg.stepTime now k ≤ now + alg.predictionWindow ∧
        predictPositionFromTle sgp4 tleData (alg.stepTime now k) = .error e

variable {sgp4 : PositionSgp4 F64} {ord : IterOrder (NodeId × ControlNodeLocation F64)}
  {controlNodes : HashMap NodeId (ControlNodeLocation F64)} {tleData : TleData}

/-! ### One point -/

theorem predictPositionFromTle_ne_noControlNodes (time : DateTime) :
    predictPositionFromTle sgp4 tleData time ≠ .error .noControlNodes := by
  unfold predictPositionFromTle
  cases sgp4.fromTle none tleData.tleLine1 tleData.tleLine2 with
  | error e => simp
  | ok elements =>
    cases hconstants : sgp4.fromElements elements with
    | error e => simp [hconstants]
    | ok constants =>
      simp only [hconstants]
      split <;> simp

/-- The sort panics exactly when there are distances to compare that cannot be. -/
theorem sortByDistance_eq_none_iff {pos : Position3D F64} :
    sortByDistance (distancesFrom ord controlNodes pos) = none ↔ ¬ Comparable controlNodes pos := by
  have hlength : (distancesFrom ord controlNodes pos).length = controlNodes.entries.length := by
    simp [distancesFrom, (ord.perm _).length_eq]
  have hany : (distancesFrom ord controlNodes pos).any (fun d => isUndefined d.2) = true ↔
      ¬ ∀ node ∈ controlNodes.entries, isUndefined (distance3d pos node.2.position) = false := by
    simp [distancesFrom]
  unfold sortByDistance Comparable
  rw [not_or, ← hany, Nat.not_le, ← hlength]
  split
  · next h => exact iff_of_true rfl h
  · next h => exact iff_of_false (by simp) h

theorem length_of_sortByDistance {pos : Position3D F64} {sorted : List (NodeId × F64)}
    (h : sortByDistance (distancesFrom ord controlNodes pos) = some sorted) :
    sorted.length = controlNodes.entries.length := by
  unfold sortByDistance at h
  split at h
  · contradiction
  · obtain rfl := Option.some.inj h
    simp [distancesFrom, (ord.perm _).length_eq]

variable (ord) in
theorem exists_assignmentPoint_iff (time : DateTime) {pos : Position3D F64} :
    (∃ point, assignmentPoint ord controlNodes time pos = some point) ↔
      controlNodes.entries ≠ [] ∧ Comparable controlNodes pos := by
  unfold assignmentPoint
  cases hsort : sortByDistance (distancesFrom ord controlNodes pos) with
  | none =>
    have hnot := sortByDistance_eq_none_iff.mp hsort
    simp [hnot]
  | some sorted =>
    have hcomparable : Comparable controlNodes pos := by
      by_contra hnot
      rw [sortByDistance_eq_none_iff.mpr hnot] at hsort
      contradiction
    have hlength := length_of_sortByDistance hsort
    cases sorted with
    | nil =>
      have hempty := List.length_eq_zero_iff.mp hlength.symm
      simp [hempty]
    | cons nearest rest =>
      have hnonempty : controlNodes.entries ≠ [] := by
        intro hempty
        rw [hempty] at hlength
        contradiction
      simp [hnonempty, hcomparable]

theorem timestamp_assignmentPoint {time : DateTime} {pos : Position3D F64}
    {point : AssignmentPoint F64}
    (h : assignmentPoint ord controlNodes time pos = some point) : point.timestamp = time := by
  unfold assignmentPoint at h
  split at h
  · contradiction
  · contradiction
  · obtain rfl := Option.some.inj h
    rfl

/-! ### The loop -/

/-- The loop goes on from the `k`-th step to the next. -/
def Proceeds (sgp4 : PositionSgp4 F64) (alg : ControlNodeAssignmentAlgorithm F64)
    (controlNodes : HashMap NodeId (ControlNodeLocation F64)) (tleData : TleData)
    (now endTime : DateTime) (k : ℕ) : Prop :=
  alg.stepTime now k ≤ endTime ∧ InRange (alg.stepTime now (k + 1)) ∧
    ∃ pos, predictPositionFromTle sgp4 tleData (alg.stepTime now k) = .ok pos ∧
      controlNodes.entries ≠ [] ∧ Comparable controlNodes pos

variable (ord) in
theorem predictLoop_of_proceeds {k : ℕ}
    (h : Proceeds sgp4 alg controlNodes tleData now endTime k) (turns : ℕ)
    (predictions : List (AssignmentPoint F64)) :
    ∃ point, point.timestamp = alg.stepTime now k ∧
      predictLoop sgp4 ord alg controlNodes tleData endTime (turns + 1) (alg.stepTime now k)
          predictions =
        predictLoop sgp4 ord alg controlNodes tleData endTime turns (alg.stepTime now (k + 1))
          (predictions ++ [point]) := by
  obtain ⟨hwithin, hnext, pos, hpos, hcomparable⟩ := h
  obtain ⟨point, hpoint⟩ := (exists_assignmentPoint_iff ord (alg.stepTime now k)).mpr hcomparable
  refine ⟨point, timestamp_assignmentPoint hpoint, ?_⟩
  have hadd : addTime (alg.stepTime now k) alg.predictionInterval =
      some (alg.stepTime now (k + 1)) := by
    rw [stepTime_succ] at hnext ⊢
    exact addTime_eq_some_iff.mpr ⟨hnext, rfl⟩
  rw [predictLoop, if_pos hwithin, hpos]
  simp only [hpoint, hadd]

variable (ord) in
/-- The loop gets to every step before which it goes on at each. -/
theorem predictLoop_reaches {n : ℕ}
    (h : ∀ k < n, Proceeds sgp4 alg controlNodes tleData now endTime k) (turns : ℕ) :
    ∃ points : List (AssignmentPoint F64),
      points.map (·.timestamp) = (List.range n).map (alg.stepTime now) ∧
      predictLoop sgp4 ord alg controlNodes tleData endTime (turns + n) now [] =
        predictLoop sgp4 ord alg controlNodes tleData endTime turns (alg.stepTime now n)
          points := by
  induction n generalizing turns with
  | zero => exact ⟨[], rfl, by simp⟩
  | succ n ih =>
    obtain ⟨points, htimes, hloop⟩ := ih (fun k hk => h k (by omega)) (turns + 1)
    obtain ⟨point, htime, hstep⟩ := predictLoop_of_proceeds ord (h n (by omega)) turns points
    refine ⟨points ++ [point], ?_, ?_⟩
    · simp [htimes, htime, List.range_succ]
    · rw [show turns + (n + 1) = turns + 1 + n by omega, hloop, hstep]

/-- A loop that returns does so at a step after the window, or one that cannot be propagated to. -/
theorem exists_last_step {turns k : ℕ} {predictions : List (AssignmentPoint F64)}
    {result : Except AssignmentError (List (AssignmentPoint F64))}
    (h : predictLoop sgp4 ord alg controlNodes tleData endTime turns (alg.stepTime now k)
      predictions = .returned result) (hk : InRange (alg.stepTime now k)) :
    ∃ n, k ≤ n ∧ InRange (alg.stepTime now n) ∧
      (endTime < alg.stepTime now n ∨
        ∃ e, predictPositionFromTle sgp4 tleData (alg.stepTime now n) = .error e) ∧
      ∀ j < n, k ≤ j → ∀ pos, predictPositionFromTle sgp4 tleData (alg.stepTime now j) = .ok pos →
        Comparable controlNodes pos := by
  induction turns generalizing k predictions with
  | zero => contradiction
  | succ turns ih =>
    rw [predictLoop] at h
    split at h
    · split at h
      · next e he => exact ⟨k, le_refl k, hk, .inr ⟨e, he⟩, fun j hj hkj => by omega⟩
      · next pos hpos =>
        split at h
        · contradiction
        · next point hpoint =>
          split at h
          · contradiction
          · next next hnext =>
            rw [addTime_eq_some_iff, ← stepTime_succ] at hnext
            obtain ⟨hrange, rfl⟩ := hnext
            obtain ⟨n, hkn, hn, hlast, hbefore⟩ := ih h hrange
            refine ⟨n, by omega, hn, hlast, fun j hj hkj other hother => ?_⟩
            rcases Nat.eq_or_lt_of_le hkj with rfl | hlt
            · obtain rfl := Except.ok.inj (hpos.symm.trans hother)
              exact ((exists_assignmentPoint_iff ord _).mp ⟨point, hpoint⟩).2
            · exact hbefore j hj hlt other hother
    · next hafter => exact ⟨k, le_refl k, hk, .inl (not_le.mp hafter), fun j hj hkj => by omega⟩

/-- The only errors of the loop are those of the propagation. -/
theorem error_of_predictLoop {turns : ℕ} {time : DateTime}
    {predictions : List (AssignmentPoint F64)} {e : AssignmentError}
    (h : predictLoop sgp4 ord alg controlNodes tleData endTime turns time predictions =
      .returned (.error e)) : ∃ time, predictPositionFromTle sgp4 tleData time = .error e := by
  induction turns generalizing time predictions with
  | zero => contradiction
  | succ turns ih =>
    rw [predictLoop] at h
    split at h
    · split at h
      · next e' he' =>
        obtain rfl := Except.error.inj (Outcome.returned.inj h)
        exact ⟨time, he'⟩
      · split at h
        · contradiction
        · split at h
          · contradiction
          · exact ih h
    · exact absurd (Outcome.returned.inj h) (by simp)

/-! ### The call -/

theorem predictAssignments_returned_iff {satelliteId : SatelliteId} {turns : ℕ}
    {result : Except AssignmentError (AssignmentPrediction F64)} :
    predictAssignments sgp4 ord alg controlNodes tleData satelliteId now turns =
        .returned result ↔
      InRange (now + alg.predictionWindow) ∧ ∃ predictions,
        predictLoop sgp4 ord alg controlNodes tleData (now + alg.predictionWindow) turns now [] =
          .returned predictions ∧
        predictions.map (assignmentPrediction alg satelliteId) = result := by
  have hmap : ∀ outcome : Outcome (Except AssignmentError (List (AssignmentPoint F64))),
      outcome.map (fun result => result.map (assignmentPrediction alg satelliteId)) =
          .returned result ↔
        ∃ predictions, outcome = .returned predictions ∧
          predictions.map (assignmentPrediction alg satelliteId) = result := by
    intro outcome
    cases outcome <;> simp [Outcome.map]
  unfold predictAssignments
  cases hend : addTime now alg.predictionWindow with
  | none =>
    have hnot : ¬ InRange (now + alg.predictionWindow) := by
      intro hrange
      rw [addTime_eq_some_iff.mpr ⟨hrange, rfl⟩] at hend
      contradiction
    simp [hnot]
  | some endTime =>
    obtain ⟨hrange, rfl⟩ := addTime_eq_some_iff.mp hend
    simp only [hmap, hrange, true_and]

/-- Steps that leave a window to which they have started lead away from its start. -/
theorem le_stepTime {n k : ℕ} (hstart : now ≤ endTime) (hlast : endTime < alg.stepTime now n) :
    now ≤ alg.stepTime now k := by
  have hpos : (n : ℤ) * 0 < n * alg.predictionInterval := by
    unfold stepTime at hlast
    linarith
  have hinterval : 0 < alg.predictionInterval :=
    lt_of_mul_lt_mul_left hpos (Int.natCast_nonneg n)
  exact le_add_of_nonneg_right (Int.mul_nonneg (Int.natCast_nonneg k) hinterval.le)

/-- A predictable call gets to its last step. -/
theorem Predictable.answers (h : Predictable sgp4 alg controlNodes tleData now)
    (hnow : InRange now) (satelliteId : SatelliteId) :
    ∃ turns result, predictAssignments sgp4 ord alg controlNodes tleData satelliteId now turns =
        .returned result ∧ Answers sgp4 alg controlNodes tleData now result := by
  obtain ⟨hnodes, hend, hlast⟩ := h
  classical
  have hex : ∃ n, now + alg.predictionWindow < alg.stepTime now n ∨
      ∃ e, predictPositionFromTle sgp4 tleData (alg.stepTime now n) = .error e :=
    hlast.imp fun _ h => h.2.1
  obtain ⟨m, hm, hmlast, hcomparable⟩ := hlast
  -- the first such step, before which the loop goes on
  have hle : Nat.find hex ≤ m := Nat.find_min' hex hmlast
  have hproceeds : ∀ k < Nat.find hex, Proceeds sgp4 alg controlNodes tleData now
      (now + alg.predictionWindow) k := by
    intro k hk
    have hbefore := Nat.find_min hex hk
    rw [not_or, not_lt, not_exists] at hbefore
    refine ⟨hbefore.1, inRange_stepTime hnow hm (by omega), ?_⟩
    cases hpos : predictPositionFromTle sgp4 tleData (alg.stepTime now k) with
    | error e => exact absurd hpos (hbefore.2 e)
    | ok pos => exact ⟨pos, rfl, hnodes, hcomparable k (by omega) pos hpos⟩
  obtain ⟨points, htimes, hloop⟩ := predictLoop_reaches ord hproceeds 1
  refine ⟨1 + Nat.find hex, ?_⟩
  by_cases hwithin : alg.stepTime now (Nat.find hex) ≤ now + alg.predictionWindow
  · obtain ⟨e, he⟩ := (Nat.find_spec hex).resolve_left (not_lt.mpr hwithin)
    refine ⟨.error e, predictAssignments_returned_iff.mpr ⟨hend, .error e, ?_, rfl⟩,
      .inr ⟨hnodes, _, hwithin, he⟩⟩
    rw [hloop, predictLoop, if_pos hwithin, he]
  · refine ⟨.ok (assignmentPrediction alg satelliteId points),
      predictAssignments_returned_iff.mpr ⟨hend, .ok points, ?_, rfl⟩,
      hnodes, Nat.find hex, htimes, fun k hk => ?_, not_le.mp hwithin⟩
    · rw [hloop, predictLoop, if_neg hwithin]
    · have hstart := (hproceeds 0 (by omega)).1
      rw [stepTime_zero] at hstart
      exact ⟨le_stepTime hstart (not_le.mp hwithin), (hproceeds k hk).1⟩

/-- An answer shows what the call was given. -/
theorem Predictable.of_answers {satelliteId : SatelliteId} {turns : ℕ}
    {result : Except AssignmentError (AssignmentPrediction F64)} (hnow : InRange now)
    (hreturned : predictAssignments sgp4 ord alg controlNodes tleData satelliteId now turns =
      .returned result) (hanswers : Answers sgp4 alg controlNodes tleData now result) :
    Predictable sgp4 alg controlNodes tleData now := by
  obtain ⟨hend, predictions, hloop, rfl⟩ := predictAssignments_returned_iff.mp hreturned
  have hnodes : controlNodes.entries ≠ [] := by
    cases predictions with
    | ok predictions => exact hanswers.1
    | error e =>
      rcases hanswers with ⟨-, rfl⟩ | ⟨hnodes, -⟩
      · obtain ⟨time, htime⟩ := error_of_predictLoop hloop
        exact absurd htime (predictPositionFromTle_ne_noControlNodes time)
      · exact hnodes
  obtain ⟨n, -, hn, hlast, hbefore⟩ := exists_last_step (k := 0)
    (by rw [stepTime_zero]; exact hloop) (by rw [stepTime_zero]; exact hnow)
  exact ⟨hnodes, hend, n, hn, hlast, fun k hk => hbefore k hk (Nat.zero_le k)⟩

/-- The predictions come to an end, with a point for each step within the window or an error,
exactly when they are predictable. -/
theorem predictAssignments_answers_iff (satelliteId : SatelliteId) (hnow : InRange now) :
    (∃ turns result, predictAssignments sgp4 ord alg controlNodes tleData satelliteId now turns =
        .returned result ∧ Answers sgp4 alg controlNodes tleData now result) ↔
      Predictable sgp4 alg controlNodes tleData now := by
  refine ⟨?_, fun h => h.answers hnow satelliteId⟩
  rintro ⟨turns, result, hreturned, hanswers⟩
  exact .of_answers hnow hreturned hanswers

/-! ### A satellite over the origin -/

/-- A propagator by which every satellite stays where it is. -/
def still : PositionSgp4 ℚ where
  Elements := Unit
  Constants := Unit
  fromTle _ _ _ := .ok ()
  fromElements _ := .ok ()
  propagate _ _ := .ok (0, 0, 0)

def oneStation : HashMap NodeId (ControlNodeLocation ℚ) :=
  (∅ : HashMap NodeId (ControlNodeLocation ℚ)).insert "gs-1" ⟨"gs-1", ⟨0, 0, 0⟩⟩

/-- The steps of a minute within two minutes. -/
theorem twoMinutes_predicted : letI := SqrtOps.exact id
    ∃ turns result, predictAssignments still (.stored _)
        ⟨Duration.seconds 120, Duration.seconds 60, 0.1⟩ oneStation ⟨0, "", ""⟩ "sat-1" 0 turns =
          .returned result ∧
      Answers still ⟨Duration.seconds 120, Duration.seconds 60, 0.1⟩ oneStation ⟨0, "", ""⟩ 0
        result := by
  let := SqrtOps.exact id
  refine (predictAssignments_answers_iff "sat-1" (by decide)).mpr
    ⟨by decide, by decide, 3, by decide, .inl (by decide), fun k _ pos _ => .inl (by decide)⟩

/-- Without control nodes the call panics. -/
theorem no_stations_panic : letI := SqrtOps.exact id
    ¬ ∀ (sgp4 : PositionSgp4 ℚ) (ord : IterOrder (NodeId × ControlNodeLocation ℚ))
      (alg : ControlNodeAssignmentAlgorithm ℚ)
      (controlNodes : HashMap NodeId (ControlNodeLocation ℚ)) (tleData : TleData)
      (satelliteId : SatelliteId) (now : DateTime), InRange now →
      ∃ turns result,
        predictAssignments sgp4 ord alg controlNodes tleData satelliteId now turns =
          .returned result ∧ Answers sgp4 alg controlNodes tleData now result := by
  let := SqrtOps.exact id
  intro hall
  obtain ⟨turns, result, hreturned, hanswers⟩ := hall still (.stored _)
    ⟨Duration.seconds 120, Duration.seconds 60, 0.1⟩ ∅ ⟨0, "", ""⟩ "sat-1" 0 (by decide)
  exact (Predictable.of_answers (by decide) hreturned hanswers).1 rfl

end GroundCore.Oisl.Resource.ControlNodeAssignmentAlgorithm
