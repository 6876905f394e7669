import Mathlib.Tactic.Linarith
import GroundCore.Lib.Windows
import GroundCore.Oisl.Mission.Schedulable

/-! What the segments of a custody cover.  There are as many of them as ten minutes fit into the
custody, but each starts a minute before the one before it ends, so that every handover costs a
minute at the end. -/

namespace GroundCore.Oisl.Mission

open DefaultIntentCompiler Lib Oisl.Topology

variable {F64 : Type} {ctx : CompileContext F64} {constellation : ConstellationState F64}
  {topology : TopologyForecast}

/-- How long the target is to be kept in custody. -/
def custodyTime (topology : TopologyForecast) (persistence : Duration) : Duration :=
  min (topology.horizonEnd - topology.horizonStart) persistence

/-- At every instant of the custody some satellite tracks the target. -/
def KeepsCustody (topology : TopologyForecast) (persistence : Duration)
    (tasks : List SatelliteTask) : Prop :=
  ∀ t, topology.horizonStart ≤ t → t ≤ topology.horizonStart + custodyTime topology persistence →
    ∃ task ∈ tasks, task.scheduledWindow.contains t

/-- The time that two windows have in common. -/
def commonTime (window other : TimeWindow) : Duration :=
  min window.end other.end - max window.start other.start

/-- Each two consecutive tasks have the margin of a handover in common. -/
def HandsOver (tasks : List SatelliteTask) : Prop :=
  ∀ i earlier later, tasks[i]? = some earlier → tasks[i + 1]? = some later →
    commonTime earlier.scheduledWindow later.scheduledWindow = Duration.seconds 60

/-- A custody of at most ten minutes, or one of at least a second more than some number of ten
minutes that ends before the minutes spent on the handovers are missing. -/
def Coverable (custody : Duration) : Prop :=
  custody ≤ Duration.seconds 600 ∨
    ∃ k : ℕ, Duration.seconds (600 * k + 1) ≤ custody ∧ custody ≤ Duration.seconds (540 * k + 600)

/-! ### The segments -/

theorem contains_segmentWindow_iff {i : ℕ} {t : DateTime} :
    (segmentWindow topology i).contains t ↔
      t ∈ window topology.horizonStart (Duration.seconds 540) (Duration.seconds 600) i := by
  have hstart : Duration.seconds (i * (600 - 60)) = i • Duration.seconds 540 := by
    simp only [Duration.seconds, nsmul_eq_mul]
    ring
  simp only [segmentWindow, TimeWindow.contains, TimeWindow.new, hstart, Bool.and_eq_true,
    decide_eq_true_eq]
  exact Iff.rfl

theorem commonTime_segmentWindow (i : ℕ) :
    commonTime (segmentWindow topology i) (segmentWindow topology (i + 1)) =
      Duration.seconds 60 := by
  simp only [commonTime, segmentWindow, TimeWindow.new, Duration.seconds]
  push_cast
  rw [min_eq_left (by linarith), max_eq_right (by linarith)]
  ring

theorem handsOver_custody (n : ℕ) (targetSat : SatelliteId) (relay : ℕ → SatelliteId)
    (priority : Priority) :
    HandsOver ((List.range n).map fun i =>
      custodyTask ctx constellation topology targetSat (relay i) priority i) := by
  intro i earlier later hearlier hlater
  rw [List.getElem?_map, Option.map_eq_some_iff] at hearlier hlater
  obtain ⟨j, hj, rfl⟩ := hearlier
  obtain ⟨j', hj', rfl⟩ := hlater
  obtain ⟨-, rfl⟩ := List.getElem?_eq_some_iff.mp hj
  obtain ⟨-, rfl⟩ := List.getElem?_eq_some_iff.mp hj'
  simp only [List.getElem_range]
  exact commonTime_segmentWindow i

/-! ### How many there are -/

theorem numSeconds_mono {a b : Duration} (h : a ≤ b) : numSeconds a ≤ numSeconds b :=
  Int.tdiv_le_tdiv (by decide) h

theorem numSeconds_custodyTime (topology : TopologyForecast) (persistence : Duration) :
    numSeconds (custodyTime topology persistence) =
      min (numSeconds (topology.horizonEnd - topology.horizonStart)) (numSeconds persistence) :=
  (show Monotone numSeconds from fun _ _ => numSeconds_mono).map_min

theorem le_tdiv_iff {a b n : ℤ} (hb : 0 < b) (hn : 0 < n) : n ≤ a.tdiv b ↔ n * b ≤ a := by
  constructor
  · intro h
    have ha : 0 ≤ a := by
      by_contra ha
      have hle := Int.tdiv_le_tdiv hb (not_le.mp ha).le
      rw [Int.zero_tdiv] at hle
      omega
    rwa [Int.tdiv_eq_ediv_of_nonneg ha, Int.le_ediv_iff_mul_le hb] at h
  · intro h
    have := Int.tdiv_le_tdiv hb h
    rwa [Int.mul_tdiv_cancel n hb.ne'] at this

/-- After the first, there is a segment for each ten minutes of which a whole second is left. -/
theorem lt_numSegments_iff {persistence : Duration} {k : ℕ} (hk : 0 < k) :
    k < numSegments topology persistence ↔
      Duration.seconds (600 * k + 1) ≤ custodyTime topology persistence := by
  have hcount : k < numSegments topology persistence ↔
      (k + 1 : ℤ) ≤ (numSeconds (custodyTime topology persistence) + 600 - 1).tdiv 600 := by
    rw [numSeconds_custodyTime]
    unfold numSegments
    simp only [Int.lt_toNat, lt_max_iff]
    omega
  have hbegun : ∀ h : ℤ, (k + 1) * 600 ≤ h + 600 - 1 ↔ 600 * k + 1 ≤ h := by
    intro h
    omega
  rw [hcount, le_tdiv_iff (by decide) (by omega), hbegun]
  exact le_tdiv_iff (by decide) (by omega)

theorem last_segment_iff {persistence : Duration} {n : ℕ}
    (hn : numSegments topology persistence = n + 1) :
    custodyTime topology persistence ≤ Duration.seconds (540 * n + 600) ↔
      Coverable (custodyTime topology persistence) := by
  constructor
  · intro hend
    rcases Nat.eq_zero_or_pos n with rfl | hpos
    · exact .inl (by simpa using hend)
    · exact .inr ⟨n, (lt_numSegments_iff hpos).mp (by omega), hend⟩
  · rintro (hshort | ⟨k, hbegun, hend⟩)
    · exact hshort.trans (seconds_le_seconds.mpr (by omega))
    · have hle : k ≤ n := by
        rcases Nat.eq_zero_or_pos k with rfl | hpos
        · exact Nat.zero_le n
        · have := (lt_numSegments_iff hpos).mpr hbegun
          omega
      exact hend.trans (seconds_le_seconds.mpr (by omega))

theorem keepsCustody_iff {targetSat : SatelliteId} {relay : ℕ → SatelliteId} {priority : Priority}
    {persistence : Duration} :
    KeepsCustody topology persistence ((List.range (numSegments topology persistence)).map fun i =>
      custodyTask ctx constellation topology targetSat (relay i) priority i) ↔
        Coverable (custodyTime topology persistence) := by
  obtain ⟨n, hn⟩ : ∃ n, numSegments topology persistence = n + 1 :=
    Nat.exists_eq_succ_of_ne_zero (Int.lt_toNat.mpr (lt_max_of_lt_right Int.one_pos)).ne'
  have hend : n • Duration.seconds 540 + Duration.seconds 600 =
      Duration.seconds (540 * n + 600) := by
    simp only [Duration.seconds, nsmul_eq_mul]
    ring
  have hcover : (∀ t ∈ Set.Icc topology.horizonStart
        (topology.horizonStart + custodyTime topology persistence), ∃ i < n + 1,
      t ∈ window topology.horizonStart (Duration.seconds 540) (Duration.seconds 600) i) ↔ _ :=
    forall_mem_window_iff (by decide) (by decide)
  rw [hend, last_segment_iff hn] at hcover
  have htask : ∀ t, (∃ task ∈ (List.range (n + 1)).map fun i =>
        custodyTask ctx constellation topology targetSat (relay i) priority i,
      task.scheduledWindow.contains t) ↔
      ∃ i < n + 1, t ∈ window topology.horizonStart (Duration.seconds 540)
        (Duration.seconds 600) i := by
    intro t
    simp only [List.mem_map, List.mem_range, ← contains_segmentWindow_iff]
    constructor
    · rintro ⟨_, ⟨i, hi, rfl⟩, ht⟩
      exact ⟨i, hi, ht⟩
    · rintro ⟨i, hi, ht⟩
      exact ⟨_, ⟨i, hi, rfl⟩, ht⟩
  rw [← hcover, hn]
  simp only [KeepsCustody, htask, Set.mem_Icc, and_imp]

/-! ### The plan -/

/-- A custody with a relay is planned with a minute in common to each two consecutive windows, and
the windows cover all of it exactly when it is coverable. -/
theorem compileCustody_covers_iff {target : AssetId} {targetSat : SatelliteId}
    {persistence : Duration} {sla : ServiceLevelAgreement}
    (htarget : constellation.resolveAssetToSatellite ctx.order target = some targetSat)
    (hrelay : relaySats ctx constellation targetSat ≠ []) :
    ∃ tasking, compileCustody ctx constellation topology target persistence sla = .ok tasking ∧
      HandsOver tasking.1 ∧
      (KeepsCustody topology persistence tasking.1 ↔
        Coverable (min (topology.horizonEnd - topology.horizonStart) persistence)) :=
  ⟨_, compileCustody_ok_iff.mpr ⟨targetSat, htarget, hrelay, rfl⟩, handsOver_custody _ _ _ _,
    keepsCustody_iff⟩

/-! ### A custody of twenty minutes -/

def custodyConstellation : ConstellationState ℚ :=
  { passConstellation with
    satellites := passConstellation.satellites.insert "sat-2" ⟨"sat-2", ⟨0, 0⟩, []⟩ }

/-- Two segments cover nineteen minutes. -/
theorem nineteenMinutes_covered :
    ∃ tasking, compileCustody passContext custodyConstellation
        (TopologyForecast.new 0 (Duration.seconds 1200)) "sat-1" (Duration.seconds 1140)
        ⟨.medium, none⟩ = .ok tasking ∧
      HandsOver tasking.1 ∧
      KeepsCustody (TopologyForecast.new 0 (Duration.seconds 1200)) (Duration.seconds 1140)
        tasking.1 := by
  have htarget : custodyConstellation.resolveAssetToSatellite passContext.order "sat-1" =
      some "sat-1" := by decide +kernel
  have hrelay : relaySats passContext custodyConstellation "sat-1" ≠ [] := by decide +kernel
  obtain ⟨tasking, htasking, hhandover, hcover⟩ := compileCustody_covers_iff htarget hrelay
  exact ⟨tasking, htasking, hhandover, hcover.mpr (.inr ⟨1, by decide⟩)⟩

/-- They leave the last of twenty minutes without custody. -/
theorem twentyMinutes_not_covered :
    ¬ ∀ (ctx : CompileContext ℚ) (constellation : ConstellationState ℚ)
      (topology : TopologyForecast) (target : AssetId) (targetSat : SatelliteId)
      (persistence : Duration) (sla : ServiceLevelAgreement),
      constellation.resolveAssetToSatellite ctx.order target = some targetSat →
      relaySats ctx constellation targetSat ≠ [] →
      ∃ tasking, compileCustody ctx constellation topology target persistence sla = .ok tasking ∧
        KeepsCustody topology persistence tasking.1 ∧ HandsOver tasking.1 := by
  intro hall
  obtain ⟨tasking, htasking, hcover, -⟩ := hall passContext custodyConstellation
    (TopologyForecast.new 0 (Duration.seconds 1200)) "sat-1" "sat-1" (Duration.seconds 1200)
    ⟨.medium, none⟩ (by decide +kernel) (by decide +kernel)
  obtain ⟨targetSat, -, -, rfl⟩ := compileCustody_ok_iff.mp htasking
  rcases keepsCustody_iff.mp hcover with hshort | ⟨k, hbegun, hend⟩
  · exact absurd hshort (by decide)
  · have hlow : 600 * k + 1 ≤ (1200 : ℤ) := seconds_le_seconds.mp hbegun
    have hhigh : (1200 : ℤ) ≤ 540 * k + 600 := seconds_le_seconds.mp hend
    omega

end GroundCore.Oisl.Mission
