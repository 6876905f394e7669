import Mathlib.Data.List.ProdSigma
import Mathlib.Tactic.Linarith
import GroundCore.Federation.Bilateral
import GroundCore.Lib.Pairs

/-! The conflicts between two schedules, in exact arithmetic: one for each pair of entries that meet
in time and in frequency, with a severity between zero and one, and the same from either side. -/

namespace GroundCore.Federation

open Lib FloatOps ExactFloat

variable {F64 F32 : Type} [FloatOps F64 F32] [ExactDivision F64 F32]

namespace CoordinationBand

/-- The lowest frequency of a band. -/
def lo (band : CoordinationBand F64) : ℚ := val band.centerHz - val band.bandwidthHz / 2

/-- The highest frequency of a band. -/
def hi (band : CoordinationBand F64) : ℚ := val band.centerHz + val band.bandwidthHz / 2

/-- How many of the frequencies two bands share; where there is a gap between them, the negative of
its width. -/
def sharedHz (band other : CoordinationBand F64) : ℚ :=
  min band.hi other.hi - max band.lo other.lo

theorem sharedHz_comm (band other : CoordinationBand F64) :
    band.sharedHz other = other.sharedHz band := by
  rw [sharedHz, sharedHz, min_comm, max_comm]

theorem val_overlapHz (band other : CoordinationBand F64) :
    val (band.overlapHz other) = max (band.sharedHz other) 0 := by
  have hhalf : ∀ x : F64, val (x / lit 2) = val x / 2 := fun x => by
    have htwo : val (lit 2 : F64) = 2 := val_lit 2
    rw [ExactDivision.val_div _ _ (by rw [htwo]; norm_num), htwo]
  simp only [overlapHz, sharedHz, lo, hi, val_fmax, val_fmin, val_sub, val_add, val_lit, hhalf]

theorem sharedHz_le (band other : CoordinationBand F64) :
    band.sharedHz other ≤ val band.bandwidthHz := by
  have hhi : min band.hi other.hi ≤ band.hi := min_le_left _ _
  have hlo : band.lo ≤ max band.lo other.lo := le_max_left _ _
  have hwidth : band.hi - band.lo = val band.bandwidthHz := by
    rw [hi, lo]
    ring
  rw [sharedHz]
  linarith

end CoordinationBand

namespace PassScheduleEntry

/-- The two windows overlap, and the two bands share more than one frequency. -/
def Meets (ours theirs : PassScheduleEntry F64) : Prop :=
  (ours.windowStart < theirs.windowEnd ∧ theirs.windowStart < ours.windowEnd) ∧
    0 < ours.band.sharedHz theirs.band

instance (ours theirs : PassScheduleEntry F64) : Decidable (ours.Meets theirs) :=
  inferInstanceAs (Decidable ((_ ∧ _) ∧ _))

/-- The window does not end before it starts. -/
def Ordered (entry : PassScheduleEntry F64) : Prop := entry.windowStart ≤ entry.windowEnd

theorem meets_comm {ours theirs : PassScheduleEntry F64} :
    ours.Meets theirs ↔ theirs.Meets ours := by
  rw [Meets, Meets, and_comm (a := ours.windowStart < _), CoordinationBand.sharedHz_comm]

theorem overlapping_iff_meets {ours theirs : PassScheduleEntry F64} :
    Overlapping ours theirs ↔ ours.Meets theirs := by
  rw [Overlapping, Meets, ← Bool.not_eq_true, feq_iff, CoordinationBand.val_overlapHz, val_lit,
    timeOverlap, Bool.and_eq_true, decide_eq_true_iff, decide_eq_true_iff]
  refine and_congr_right fun _ => ?_
  rw [max_eq_right_iff, not_le]

variable {ours theirs : PassScheduleEntry F64}

theorem timeOverlapS_comm (ours theirs : PassScheduleEntry F64) :
    ours.timeOverlapS theirs = theirs.timeOverlapS ours := by
  have hoverlap : ours.timeOverlap theirs = theirs.timeOverlap ours := Bool.and_comm _ _
  simp only [timeOverlapS, hoverlap, max_comm ours.windowStart, min_comm ours.windowEnd]

/-- The overlap takes whole seconds, no more than the window or, of a short one, a second. -/
theorem timeOverlapS_mem (h : ours.Meets theirs) (hours : ours.Ordered)
    (htheirs : theirs.Ordered) :
    0 ≤ ours.timeOverlapS theirs ∧ ours.timeOverlapS theirs ≤ max ours.durationS 1 := by
  obtain ⟨⟨hstart, hend⟩, -⟩ := h
  have hoverlap : ours.timeOverlap theirs = true := by
    rw [timeOverlap, decide_eq_true hstart, decide_eq_true hend, Bool.and_self]
  have hnonneg : 0 ≤ min ours.windowEnd theirs.windowEnd -
      max ours.windowStart theirs.windowStart :=
    sub_nonneg.mpr (max_le (le_min hours hstart.le) (le_min hend.le htheirs))
  have hle : min ours.windowEnd theirs.windowEnd - max ours.windowStart theirs.windowStart ≤
      ours.windowEnd - ours.windowStart :=
    sub_le_sub (min_le_left _ _) (le_max_left _ _)
  simp only [timeOverlapS, hoverlap, durationS, Duration.seconds]
  rw [if_neg (by decide), Int.tdiv_eq_ediv_of_nonneg hnonneg,
    Int.tdiv_eq_ediv_of_nonneg (hnonneg.trans hle)]
  exact ⟨Int.ediv_nonneg hnonneg (by norm_num),
    (Int.ediv_le_ediv (by norm_num) hle).trans (le_max_left _ _)⟩

end PassScheduleEntry

open PassScheduleEntry

variable {ours theirs : PassScheduleEntry F64} {peerId : PeerId} {clock : ConflictClock F64}
  {conflict : SpectrumConflict F64}

/-- What is known of a conflict that is found: its numbers, and that no divisor of them is zero. -/
structure Measured (conflict : SpectrumConflict F64) : Prop where
  bandwidth : 0 < val conflict.ourEntry.band.bandwidthHz
  duration : 0 < max conflict.ourEntry.durationS 1
  severity_nonneg : 0 ≤ val conflict.severity
  severity_le_one : val conflict.severity ≤ 1
  timeOverlapS_nonneg : 0 ≤ conflict.timeOverlapS

theorem measured_conflictBetween (hours : ours.Ordered) (htheirs : theirs.Ordered)
    (h : conflictBetween peerId clock ours theirs = some conflict) : Measured conflict := by
  have hoverlap : Overlapping ours theirs := by
    rcases conflictBetween_cases peerId clock ours theirs with ⟨-, hnone⟩ | ⟨hoverlap, -⟩
    · rw [hnone] at h
      contradiction
    · exact hoverlap
  have hmeets := overlapping_iff_meets.mp hoverlap
  have hshared := hmeets.2
  have hle := ours.band.sharedHz_le theirs.band
  obtain ⟨hsecs, hsecsLe⟩ := timeOverlapS_mem hmeets hours htheirs
  have hwidth : 0 < val ours.band.bandwidthHz := hshared.trans_le hle
  have hduration : 0 < max ours.durationS 1 := lt_max_of_lt_right one_pos
  have hduration' : (0 : ℚ) < (max ours.durationS 1 : ℤ) := Int.cast_pos.mpr hduration
  have hdivisor : val (lit ((max ours.durationS 1 : ℤ) : ℚ) : F64) ≠ 0 := by
    rw [val_lit]
    exact hduration'.ne'
  simp only [conflictBetween, hoverlap.1, hoverlap.2, Bool.not_true, Bool.false_eq_true, if_false,
    Option.some_inj] at h
  subst h
  refine ⟨hwidth, hduration, ?_, ?_, hsecs⟩
  · rw [val_fmin, val_mul, ExactDivision.val_div _ _ hwidth.ne',
      ExactDivision.val_div _ _ hdivisor, CoordinationBand.val_overlapHz, val_lit, val_lit, val_lit]
    have hsecs' : (0 : ℚ) ≤ ours.timeOverlapS theirs := Int.cast_nonneg hsecs
    positivity
  · rw [val_fmin, val_lit]
    exact min_le_right _ _

/-- The pair of the other side, with what both sides measure alike. -/
def SpectrumConflict.mirrored (conflict : SpectrumConflict F64) :
    PassScheduleEntry F64 × PassScheduleEntry F64 × ℚ × ℤ :=
  (conflict.peerEntry, conflict.ourEntry, val conflict.frequencyOverlapHz, conflict.timeOverlapS)

def SpectrumConflict.measures (conflict : SpectrumConflict F64) :
    PassScheduleEntry F64 × PassScheduleEntry F64 × ℚ × ℤ :=
  (conflict.ourEntry, conflict.peerEntry, val conflict.frequencyOverlapHz, conflict.timeOverlapS)

/-- A conflict is found exactly where the entries meet. -/
theorem map_measures_conflictBetween (peerId : PeerId) (clock : ConflictClock F64)
    (ours theirs : PassScheduleEntry F64) :
    (conflictBetween peerId clock ours theirs).map (·.measures) =
      if ours.Meets theirs then
        some (ours, theirs, max (ours.band.sharedHz theirs.band) 0, ours.timeOverlapS theirs)
      else none := by
  by_cases hmeets : ours.Meets theirs
  · have hoverlap := overlapping_iff_meets.mpr hmeets
    simp only [conflictBetween, hoverlap.1, hoverlap.2, Bool.not_true, Bool.false_eq_true,
      if_false, if_pos hmeets, Option.map_some, SpectrumConflict.measures,
      CoordinationBand.val_overlapHz]
  · rcases conflictBetween_cases peerId clock ours theirs with ⟨-, hnone⟩ | ⟨hoverlap, -⟩
    · rw [hnone, if_neg hmeets, Option.map_none]
    · exact absurd (overlapping_iff_meets.mp hoverlap) hmeets

theorem map_mirrored_conflictBetween (peerId peerId' : PeerId) (clock clock' : ConflictClock F64)
    (ours theirs : PassScheduleEntry F64) :
    (conflictBetween peerId' clock' theirs ours).map (·.mirrored) =
      (conflictBetween peerId clock ours theirs).map (·.measures) := by
  have hswap : (conflictBetween peerId' clock' theirs ours).map (·.mirrored) =
      ((conflictBetween peerId' clock' theirs ours).map (·.measures)).map
        fun m => (m.2.1, m.1, m.2.2) := by
    rw [Option.map_map]
    rfl
  rw [hswap, map_measures_conflictBetween, map_measures_conflictBetween, apply_ite (Option.map _)]
  simp only [Option.map_some, Option.map_none, timeOverlapS_comm theirs ours,
    CoordinationBand.sharedHz_comm theirs.band ours.band]
  exact if_congr meets_comm rfl rfl

theorem map_pair_detectConflicts (ourEntries theirEntries : List (PassScheduleEntry F64)) :
    (detectConflicts ourEntries theirEntries peerId clock).map (·.pair) =
      (ourEntries ×ˢ theirEntries).filter fun pair => pair.1.Meets pair.2 := by
  have hpair : ∀ ours theirs : PassScheduleEntry F64,
      (conflictBetween peerId clock ours theirs).map (·.pair) =
        if ours.Meets theirs then some (ours, theirs) else none := fun ours theirs => by
    have hmeasures := map_measures_conflictBetween peerId clock ours theirs
    have hfst : (conflictBetween peerId clock ours theirs).map (·.pair) =
        ((conflictBetween peerId clock ours theirs).map (·.measures)).map
          fun m => (m.1, m.2.1) := by
      rw [Option.map_map]
      rfl
    rw [hfst, hmeasures, apply_ite (Option.map _)]
    rfl
  have hrow : ∀ (ours : PassScheduleEntry F64) (theirEntries : List (PassScheduleEntry F64)),
      theirEntries.filterMap
          (fun theirs => if ours.Meets theirs then some (ours, theirs) else none) =
        (theirEntries.map (Prod.mk ours)).filter fun pair => pair.1.Meets pair.2 := by
    intro ours theirEntries
    rw [← List.filterMap_eq_filter, List.filterMap_map]
    congr 1
    funext theirs
    simp [Option.guard]
  simp only [detectConflicts, List.map_flatMap, List.map_filterMap, hpair, hrow]
  exact (List.filter_flatMap ..).symm

/-- One conflict for each pair that meets and no other, measured without a division by zero, and the
same from the other side. -/
theorem detectConflicts_exact (ourEntries theirEntries : List (PassScheduleEntry F64))
    (hours : ∀ entry ∈ ourEntries, entry.Ordered)
    (htheirs : ∀ entry ∈ theirEntries, entry.Ordered) (peerId peerId' : PeerId)
    (clock clock' : ConflictClock F64) :
    (detectConflicts ourEntries theirEntries peerId clock).map (·.pair) =
      (ourEntries ×ˢ theirEntries).filter (fun pair => pair.1.Meets pair.2) ∧
    (∀ conflict ∈ detectConflicts ourEntries theirEntries peerId clock, Measured conflict) ∧
    ((detectConflicts theirEntries ourEntries peerId' clock').map (·.mirrored)).Perm
      ((detectConflicts ourEntries theirEntries peerId clock).map (·.measures)) := by
  refine ⟨map_pair_detectConflicts ourEntries theirEntries, fun conflict hmem => ?_, ?_⟩
  · obtain ⟨ours, hmemOurs, hmem⟩ := List.mem_flatMap.mp hmem
    obtain ⟨theirs, hmemTheirs, hfound⟩ := List.mem_filterMap.mp hmem
    exact measured_conflictBetween (hours ours hmemOurs) (htheirs theirs hmemTheirs) hfound
  · simp only [detectConflicts, List.map_flatMap, List.map_filterMap,
      map_mirrored_conflictBetween peerId peerId' clock clock']
    exact filterMap_comm_perm (fun theirs ours =>
      (conflictBetween peerId clock ours theirs).map (·.measures)) theirEntries ourEntries

/-- Two entries at the same time and frequency make one conflict. -/
theorem detectConflicts_exact_pair :
    letI := FloatOps.exact id id
    (detectConflicts [sBandEntry 1 "a"] [sBandEntry 2 "b"] "b" fun _ _ => 0).map (·.pair) =
      [(sBandEntry 1 "a", sBandEntry 2 "b")] := by
  let _ := FloatOps.exact id id
  let _ := ExactDivision.exact id id
  have hordered : ∀ entryId stationId, (sBandEntry entryId stationId).Ordered := by
    intro entryId stationId
    show (0 : ℤ) ≤ Duration.minutes 10
    decide
  have hmeets : (sBandEntry 1 "a").Meets (sBandEntry 2 "b") := by decide +kernel
  rw [(detectConflicts_exact [sBandEntry 1 "a"] [sBandEntry 2 "b"] (by simpa using hordered 1 "a")
    (by simpa using hordered 2 "b") "b" "a" (fun _ _ => 0) fun _ _ => 0).1]
  exact List.filter_cons_of_pos (decide_eq_true hmeets)

end GroundCore.Federation
