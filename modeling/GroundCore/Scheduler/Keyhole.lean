import Mathlib.Algebra.BigOperators.Ring.List
import Mathlib.Algebra.Order.BigOperators.Group.List
import GroundCore.Core.Types
import GroundCore.Lib.Crossings
import GroundCore.Lib.FloatOps

/-! The keyhole of a mount near zenith: the analysis of an elevation profile, the heuristic for a
pass without one, and what the score of a schedule counts.

The time in the keyhole is counted in the whole seconds of each window, so a profile that is
sampled more often than that never enters it; and the entry is the first one while the exit is the
last one, so a pass that starts in the keyhole, leaves it once and ends in it has its exit before
its entry. -/

namespace GroundCore.Scheduler

open Lib

variable {F64 F32 : Type}

inductive MountType (F64 : Type)
  | azimuthElevation (maxAzSlewDegPerS maxElSlewDegPerS : F64)
  | xy
  | equatorial (maxHaSlewDegPerS : F64)

def MountType.hasZenithKeyhole : MountType F64 → Bool
  | .azimuthElevation .. => true
  | .xy | .equatorial _ => false

structure KeyholeConfig (F64 : Type) where
  thresholdElevationDeg : F64
  typicalLossDurationS : ℕ
  scheduleHandoff : Bool

/-- A typical commercial mount. -/
def KeyholeConfig.defaultAzel [FloatOps F64 F32] : KeyholeConfig F64 :=
  { thresholdElevationDeg := FloatOps.lit 80, typicalLossDurationS := 45, scheduleHandoff := true }

structure GroundStationGeometry (F64 : Type) where
  stationId : String
  mountType : MountType F64
  keyhole : Option (KeyholeConfig F64)

def GroundStationGeometry.newAzel [FloatOps F64 F32] (stationId : String)
    (keyhole : KeyholeConfig F64) : GroundStationGeometry F64 :=
  { stationId, mountType := .azimuthElevation (FloatOps.lit 5) (FloatOps.lit 5)
    keyhole := some keyhole }

structure KeyholeAnalysis (F64 : Type) where
  stationId : String
  passMaxElevationDeg : F64
  entersKeyhole : Bool
  keyholeEntry : Option DateTime
  keyholeExit : Option DateTime
  estimatedLossS : ℕ
  handoffRecommended : Bool
  lossFraction : F64

structure KeyholeWarning (F64 : Type) where
  estimatedLossS : ℕ
  handoffScheduled : Bool
  maxElevationDeg : F64
  lossFraction : F64

def keyholeScorePenalty [FloatOps F64 F32] (analysis : KeyholeAnalysis F64)
    (handoffAvailable : Bool) : F64 :=
  if !analysis.entersKeyhole then FloatOps.lit 0
  else
    let basePenalty := analysis.lossFraction * FloatOps.lit 100
    if handoffAvailable then -basePenalty * FloatOps.lit 0.3 else -basePenalty

/-- A sample of a pass: when, the elevation, and the azimuth. -/
abbrev ProfileSample (F64 : Type) := DateTime × F64 × F64

/-- What the loop over the windows of a profile has found so far. -/
structure KeyholeTrack where
  entryTime : Option DateTime
  exitTime : Option DateTime
  keyholeSeconds : ℤ

namespace KeyholeConfig

variable [FloatOps F64 F32]

/-- The elevation of the sample reaches the threshold. -/
def reaches (config : KeyholeConfig F64) (sample : ProfileSample F64) : Bool :=
  FloatOps.le config.thresholdElevationDeg sample.2.1

def trackWindow (config : KeyholeConfig F64) (track : KeyholeTrack)
    (window : ProfileSample F64 × ProfileSample F64) : KeyholeTrack :=
  let t1 := window.1.1
  let t2 := window.2.1
  let stepS := Duration.numSeconds (t2 - t1)
  let in1 := config.reaches window.1
  let in2 := config.reaches window.2
  { keyholeSeconds := if in1 || in2 then track.keyholeSeconds + stepS else track.keyholeSeconds
    entryTime := if !in1 && in2 && track.entryTime.isNone then some t1 else track.entryTime
    exitTime := if in1 && !in2 then some t2 else track.exitTime }

end KeyholeConfig

def analysePass [MaxOps F64 F32] (station : GroundStationGeometry F64)
    (profile : List (ProfileSample F64)) (passDurationS : ℕ) : KeyholeAnalysis F64 :=
  let maxEl := (profile.map fun sample => sample.2.1).foldl MaxOps.max MaxOps.negInfinity
  match station.keyhole, station.mountType.hasZenithKeyhole with
  | some config, true =>
    let track := (windows profile).foldl config.trackWindow
      { entryTime := none, exitTime := none, keyholeSeconds := 0 }
    let enters := decide (track.keyholeSeconds > 0)
    let estimatedLoss :=
      if enters then (min track.keyholeSeconds config.typicalLossDurationS).toNat else 0
    { stationId := station.stationId, passMaxElevationDeg := maxEl, entersKeyhole := enters
      keyholeEntry := track.entryTime, keyholeExit := track.exitTime
      estimatedLossS := estimatedLoss, handoffRecommended := enters && config.scheduleHandoff
      lossFraction :=
        if passDurationS > 0 then FloatOps.lit estimatedLoss / FloatOps.lit passDurationS
        else FloatOps.lit 0 }
  | _, _ =>
    { stationId := station.stationId, passMaxElevationDeg := maxEl, entersKeyhole := false
      keyholeEntry := none, keyholeExit := none, estimatedLossS := 0, handoffRecommended := false
      lossFraction := FloatOps.lit 0 }

def isLikelyKeyholePass [FloatOps F64 F32] (maxElevationDeg : F64) (config : KeyholeConfig F64) :
    Bool :=
  FloatOps.le config.thresholdElevationDeg maxElevationDeg

namespace KeyholeConfig

variable [FloatOps F64 F32] {config : KeyholeConfig F64}

/-- A window with a sample in the keyhole. -/
def touches (config : KeyholeConfig F64) (window : ProfileSample F64 × ProfileSample F64) : Bool :=
  config.reaches window.1 || config.reaches window.2

end KeyholeConfig

/-- The whole seconds of a window. -/
def stepSeconds (window : ProfileSample F64 × ProfileSample F64) : ℤ :=
  Duration.numSeconds (window.2.1 - window.1.1)

/-- From the first sample to the last. -/
def profileSpan (profile : List (ProfileSample F64)) : Duration :=
  match profile.head?, profile.getLast? with
  | some first, some last => last.1 - first.1
  | _, _ => 0

section Track

variable [FloatOps F64 F32] {config : KeyholeConfig F64} {profile : List (ProfileSample F64)}

theorem trackWindow_eq (config : KeyholeConfig F64) (track : KeyholeTrack)
    (w : ProfileSample F64 × ProfileSample F64) :
    config.trackWindow track w =
      { entryTime := track.entryTime.or (if rises config.reaches w then some w.1.1 else none)
        exitTime := if falls config.reaches w then some w.2.1 else track.exitTime
        keyholeSeconds :=
          track.keyholeSeconds + if config.touches w then stepSeconds w else 0 } := by
  obtain ⟨entryTime, exitTime, seconds⟩ := track
  cases h1 : config.reaches w.1 <;> cases h2 : config.reaches w.2 <;> cases entryTime <;>
    simp [KeyholeConfig.trackWindow, KeyholeConfig.touches, rises, falls, stepSeconds, h1, h2]

/-- The loop finds the first entry, the last exit, and the whole seconds of the windows that touch
the keyhole. -/
theorem foldl_trackWindow (config : KeyholeConfig F64)
    (ws : List (ProfileSample F64 × ProfileSample F64)) (track : KeyholeTrack) :
    ws.foldl config.trackWindow track =
      { entryTime := track.entryTime.or ((ws.find? (rises config.reaches)).map (·.1.1))
        exitTime := ((ws.reverse.find? (falls config.reaches)).map (·.2.1)).or track.exitTime
        keyholeSeconds :=
          track.keyholeSeconds + ((ws.filter config.touches).map stepSeconds).sum } := by
  induction ws generalizing track with
  | nil => simp
  | cons w ws ih =>
    have hentry : (if rises config.reaches w then some w.1.1 else none).or
        ((ws.find? (rises config.reaches)).map (·.1.1)) =
          ((w :: ws).find? (rises config.reaches)).map (·.1.1) := by
      rw [List.find?_cons]
      cases rises config.reaches w <;> rfl
    have hexit : ((ws.reverse.find? (falls config.reaches)).map (·.2.1)).or
        (if falls config.reaches w then some w.2.1 else track.exitTime) =
          (((w :: ws).reverse.find? (falls config.reaches)).map (·.2.1)).or track.exitTime := by
      rw [List.reverse_cons, List.find?_append, List.find?_singleton]
      cases ws.reverse.find? (falls config.reaches) <;> cases falls config.reaches w <;> rfl
    have hseconds : (if config.touches w then stepSeconds w else 0) +
        ((ws.filter config.touches).map stepSeconds).sum =
          (((w :: ws).filter config.touches).map stepSeconds).sum := by
      rw [List.filter_cons]
      cases config.touches w <;> simp
    rw [List.foldl_cons, ih, trackWindow_eq]
    simp only [Option.or_assoc, hentry, hexit, add_assoc, hseconds]

end Track

section Seconds

variable {profile : List (ProfileSample F64)}

theorem step_pos (htimes : (profile.map Prod.fst).Pairwise (· < ·))
    {w : ProfileSample F64 × ProfileSample F64} (hw : w ∈ windows profile) : w.1.1 < w.2.1 :=
  forall_mem_windows_iff.mpr (List.pairwise_map.mp htimes).isChain w hw

/-- What the windows last is the span of the profile. -/
theorem sum_windows_eq_span (profile : List (ProfileSample F64)) :
    ((windows profile).map fun w => (w.2.1 - w.1.1 : ℤ)).sum = profileSpan profile := by
  induction profile with
  | nil => rfl
  | cons a profile ih =>
    cases profile with
    | nil => exact (Int.sub_self a.1).symm
    | cons b profile =>
      rw [windows_cons_cons, List.map_cons, List.sum_cons, ih]
      simp only [profileSpan, List.head?_cons, List.getLast?_cons_cons]
      cases hlast : (b :: profile).getLast? with
      | none => simp at hlast
      | some last =>
        show (b.1 - a.1 : ℤ) + (last.1 - b.1) = last.1 - a.1
        exact sub_add_sub_cancel' (G := ℤ) ..

theorem stepSeconds_nonneg (htimes : (profile.map Prod.fst).Pairwise (· < ·))
    {w : ProfileSample F64 × ProfileSample F64} (hw : w ∈ windows profile) : 0 ≤ stepSeconds w := by
  have hpos : (0 : ℤ) < w.2.1 - w.1.1 := Int.sub_pos_of_lt (step_pos htimes hw)
  exact Duration.numSeconds_nonneg_iff.mpr (lt_trans (by decide) hpos)

variable [FloatOps F64 F32]

/-- The whole seconds that the loop counts. -/
def keyholeSeconds (config : KeyholeConfig F64) (profile : List (ProfileSample F64)) : ℤ :=
  (((windows profile).filter config.touches).map stepSeconds).sum

/-- Some second is counted exactly when a window that touches the keyhole lasts for one. -/
theorem keyholeSeconds_pos_iff (config : KeyholeConfig F64)
    (htimes : (profile.map Prod.fst).Pairwise (· < ·)) :
    0 < keyholeSeconds config profile ↔
      ∃ w ∈ windows profile, config.touches w ∧ Duration.seconds 1 ≤ w.2.1 - w.1.1 := by
  have hnonneg : ∀ x ∈ ((windows profile).filter config.touches).map stepSeconds, 0 ≤ x := by
    intro x hx
    obtain ⟨w, hw, rfl⟩ := List.mem_map.mp hx
    exact stepSeconds_nonneg htimes (List.mem_filter.mp hw).1
  constructor
  · intro hpos
    have hzero : (((windows profile).filter config.touches).map fun _ => (0 : ℤ)).sum <
        keyholeSeconds config profile := by simpa using hpos
    obtain ⟨w, hw, hstep⟩ := List.exists_lt_of_sum_lt _ _ hzero
    obtain ⟨hw, htouches⟩ := List.mem_filter.mp hw
    exact ⟨w, hw, htouches, Duration.numSeconds_pos_iff.mp hstep⟩
  · rintro ⟨w, hw, htouches, hstep⟩
    have hmem : stepSeconds w ∈ ((windows profile).filter config.touches).map stepSeconds :=
      List.mem_map_of_mem (List.mem_filter.mpr ⟨hw, htouches⟩)
    exact (Duration.numSeconds_pos_iff.mpr hstep).trans_le (List.single_le_sum hnonneg _ hmem)

/-- What is counted is at most the span of the profile. -/
theorem seconds_keyholeSeconds_le (config : KeyholeConfig F64)
    (htimes : (profile.map Prod.fst).Pairwise (· < ·)) :
    Duration.seconds (keyholeSeconds config profile) ≤ profileSpan profile := by
  have hstep : ∀ w ∈ windows profile, Duration.seconds (stepSeconds w) ≤ w.2.1 - w.1.1 :=
    fun w hw => Duration.seconds_numSeconds_le (Int.sub_pos_of_lt (step_pos htimes hw)).le
  calc (keyholeSeconds config profile * 1000000000 : ℤ)
      = (((windows profile).filter config.touches).map
          fun w => stepSeconds w * 1000000000).sum := (List.sum_map_mul_right ..).symm
    _ ≤ (((windows profile).filter config.touches).map fun w => (w.2.1 - w.1.1 : ℤ)).sum :=
        List.sum_le_sum fun w hw => hstep w (List.mem_filter.mp hw).1
    _ ≤ ((windows profile).map fun w => (w.2.1 - w.1.1 : ℤ)).sum := by
        apply (List.filter_sublist.map _).sum_le_sum
        intro x hx
        obtain ⟨w, hw, rfl⟩ := List.mem_map.mp hx
        exact (Int.sub_pos_of_lt (step_pos htimes hw)).le
    _ = profileSpan profile := sum_windows_eq_span profile

end Seconds

section Analysis

variable [MaxOps F64 F32] {station : GroundStationGeometry F64} {config : KeyholeConfig F64}
  {profile : List (ProfileSample F64)}

/-- What the analysis reports for a station with a keyhole. -/
theorem analysePass_eq (hmount : station.mountType.hasZenithKeyhole = true)
    (hconfig : station.keyhole = some config) (profile : List (ProfileSample F64))
    (passDurationS : ℕ) :
    let analysis := analysePass station profile passDurationS
    analysis.passMaxElevationDeg =
        (profile.map fun sample => sample.2.1).foldl MaxOps.max MaxOps.negInfinity ∧
      analysis.entersKeyhole = decide (0 < keyholeSeconds config profile) ∧
      analysis.keyholeEntry = ((windows profile).find? (rises config.reaches)).map (·.1.1) ∧
      analysis.keyholeExit = ((windows profile).reverse.find? (falls config.reaches)).map (·.2.1) ∧
      analysis.estimatedLossS = if 0 < keyholeSeconds config profile then
        (min (keyholeSeconds config profile) config.typicalLossDurationS).toNat else 0 := by
  intro analysis
  have htrack := foldl_trackWindow config (windows profile)
    { entryTime := none, exitTime := none, keyholeSeconds := 0 }
  have hanalysis : analysis = analysePass station profile passDurationS := rfl
  simp only [analysePass, hconfig, hmount, htrack, Option.none_or, Option.or_none, zero_add]
    at hanalysis
  rw [hanalysis]
  exact ⟨rfl, rfl, rfl, rfl, if_congr decide_eq_true_iff rfl rfl⟩

/-- The loss is at most the span of the profile and at most the typical loss. -/
theorem estimatedLossS_le (hmount : station.mountType.hasZenithKeyhole = true)
    (hconfig : station.keyhole = some config)
    (htimes : (profile.map Prod.fst).Pairwise (· < ·)) (passDurationS : ℕ) :
    let analysis := analysePass station profile passDurationS
    Duration.seconds analysis.estimatedLossS ≤ profileSpan profile ∧
      analysis.estimatedLossS ≤ config.typicalLossDurationS := by
  intro analysis
  obtain ⟨-, -, -, -, hloss⟩ := analysePass_eq hmount hconfig profile passDurationS
  have hspan := seconds_keyholeSeconds_le config htimes
  rw [hloss]
  split
  · next hpos =>
    have htypical := min_le_right (keyholeSeconds config profile) config.typicalLossDurationS
    have hcounted := min_le_left (keyholeSeconds config profile) config.typicalLossDurationS
    refine ⟨le_trans ?_ hspan, by omega⟩
    show ((min (keyholeSeconds config profile) config.typicalLossDurationS).toNat : ℤ) *
      1000000000 ≤ keyholeSeconds config profile * 1000000000
    omega
  · refine ⟨?_, Nat.zero_le _⟩
    rw [← sum_windows_eq_span]
    apply List.sum_nonneg
    intro x hx
    obtain ⟨w, hw, rfl⟩ := List.mem_map.mp hx
    exact (Int.sub_pos_of_lt (step_pos htimes hw)).le

theorem entry_lt_exit_iff (hmount : station.mountType.hasZenithKeyhole = true)
    (hconfig : station.keyhole = some config)
    (htimes : (profile.map Prod.fst).Pairwise (· < ·)) (passDurationS : ℕ) :
    let analysis := analysePass station profile passDurationS
    (∀ entry exit, analysis.keyholeEntry = some entry → analysis.keyholeExit = some exit →
      entry < exit) ↔ ¬ Dips config.reaches profile := by
  intro analysis
  obtain ⟨-, -, hentry, hexit, -⟩ := analysePass_eq hmount hconfig profile passDurationS
  have hkey : profile.Pairwise fun x y => x.1 < y.1 := List.pairwise_map.mp htimes
  rw [hentry, hexit]
  constructor
  · intro hlt hdips
    obtain ⟨w, w', hrise, hfall, hle⟩ := fall_le_rise_of_dips hkey hdips
    exact absurd (hlt w.1.1 w'.2.1 (by rw [hrise]; rfl) (by rw [hfall]; rfl)) (not_lt.mpr hle)
  · intro hdips entry exit hentry hexit
    obtain ⟨w, hrise, rfl⟩ := Option.map_eq_some_iff.mp hentry
    obtain ⟨w', hfall, rfl⟩ := Option.map_eq_some_iff.mp hexit
    by_contra hle
    exact hdips (dips_of_fall_le_rise hkey hrise hfall (not_lt.mp hle))

/-- A pass that enters the keyhole is one of which the heuristic says so. -/
theorem exists_reaches_of_touches {w : ProfileSample F64 × ProfileSample F64}
    (hw : w ∈ windows profile) (h : config.touches w) :
    ∃ sample ∈ profile, config.reaches sample := by
  rcases Bool.or_eq_true_iff.mp h with h | h
  · exact ⟨w.1, (mem_of_mem_windows hw).1, h⟩
  · exact ⟨w.2, (mem_of_mem_windows hw).2, h⟩

variable [LawfulMax F64 F32]

theorem isLikelyKeyholePass_iff (hmount : station.mountType.hasZenithKeyhole = true)
    (hconfig : station.keyhole = some config) (profile : List (ProfileSample F64))
    (passDurationS : ℕ) :
    isLikelyKeyholePass (analysePass station profile passDurationS).passMaxElevationDeg config ↔
      FloatOps.le config.thresholdElevationDeg MaxOps.negInfinity ∨
        ∃ sample ∈ profile, config.reaches sample := by
  obtain ⟨hmax, -⟩ := analysePass_eq hmount hconfig profile passDurationS
  rw [isLikelyKeyholePass, hmax, LawfulMax.le_foldl_max_iff]
  simp only [List.mem_map, exists_exists_and_eq_and]
  rfl

/-- The analysis agrees with the heuristic, its loss is within its bounds, and its entry precedes
its exit, exactly when a profile with a sample in the keyhole has a window there of a second or
more, and the profile does not start in the keyhole, leave it once and end in it. -/
theorem analysePass_agrees_iff (hmount : station.mountType.hasZenithKeyhole = true)
    (hconfig : station.keyhole = some config)
    (htimes : (profile.map Prod.fst).Pairwise (· < ·)) (passDurationS : ℕ) :
    let analysis := analysePass station profile passDurationS
    (analysis.entersKeyhole = isLikelyKeyholePass analysis.passMaxElevationDeg config ∧
        Duration.seconds analysis.estimatedLossS ≤ profileSpan profile ∧
        analysis.estimatedLossS ≤ config.typicalLossDurationS ∧
        ∀ entry exit, analysis.keyholeEntry = some entry → analysis.keyholeExit = some exit →
          entry < exit) ↔
      ((FloatOps.le config.thresholdElevationDeg MaxOps.negInfinity ∨
          ∃ sample ∈ profile, config.reaches sample) →
        ∃ w ∈ windows profile, (config.reaches w.1 || config.reaches w.2) ∧
          Duration.seconds 1 ≤ w.2.1 - w.1.1) ∧
      ¬ Dips config.reaches profile := by
  intro analysis
  obtain ⟨-, henters, -⟩ := analysePass_eq hmount hconfig profile passDurationS
  obtain ⟨hspan, htypical⟩ := estimatedLossS_le hmount hconfig htimes passDurationS
  rw [and_iff_right hspan, and_iff_right htypical]
  apply and_congr _ (entry_lt_exit_iff hmount hconfig htimes passDurationS)
  have hpos := keyholeSeconds_pos_iff config htimes
  rw [Bool.eq_iff_iff, isLikelyKeyholePass_iff hmount hconfig, henters, decide_eq_true_iff, hpos]
  constructor
  · exact fun h => h.mpr
  · intro h
    refine ⟨?_, h⟩
    rintro ⟨w, hw, htouches, -⟩
    exact .inr (exists_reaches_of_touches hw htouches)

end Analysis

section Example

/-- Samples of a pass, that many milliseconds apart. -/
def profileOf (interval : ℤ) (elevations : List ℚ) : List (ProfileSample ℚ) :=
  elevations.zipIdx.map fun e => (Duration.milliseconds (e.2 * interval), e.1, 180)

/-- A pass over a station with a typical mount. -/
def azelAnalysis (profile : List (ProfileSample ℚ)) : KeyholeAnalysis ℚ :=
  letI := MaxOps.exact id id (-2 ^ 1024)
  analysePass (.newAzel "station" .defaultAzel) profile 60

/-- A pass that crosses the keyhole once, sampled every ten seconds. -/
theorem analysePass_agrees_crossing :
    letI := FloatOps.exact id id
    let profile := profileOf 10000 [10, 60, 82, 85, 60, 10]
    let analysis := azelAnalysis profile
    analysis.entersKeyhole = isLikelyKeyholePass analysis.passMaxElevationDeg .defaultAzel ∧
      Duration.seconds analysis.estimatedLossS ≤ profileSpan profile ∧
      analysis.estimatedLossS ≤ 45 ∧
      ∀ entry exit, analysis.keyholeEntry = some entry → analysis.keyholeExit = some exit →
        entry < exit := by
  intro profile analysis
  let _ := MaxOps.exact id id (-2 ^ 1024)
  have _ := LawfulMax.exact id id (-2 ^ 1024)
  have htimes : (profile.map Prod.fst).Pairwise (· < ·) := by decide +kernel
  have hentry : analysis.keyholeEntry = some (Duration.seconds 10) := by decide +kernel
  have hexit : analysis.keyholeExit = some (Duration.seconds 40) := by decide +kernel
  let config : KeyholeConfig ℚ := .defaultAzel
  let station : GroundStationGeometry ℚ := .newAzel "station" config
  have hmount : station.mountType.hasZenithKeyhole = true := rfl
  have hconfig : station.keyhole = some config := rfl
  have hdips : ¬ Dips config.reaches profile := by
    apply (entry_lt_exit_iff hmount hconfig htimes 60).mp
    intro entry exit h h'
    obtain rfl := Option.some.inj (hentry.symm.trans h)
    obtain rfl := Option.some.inj (hexit.symm.trans h')
    decide
  exact (analysePass_agrees_iff hmount hconfig htimes 60).mpr ⟨fun _ => by decide +kernel, hdips⟩

/-- Two samples in the keyhole, half a second apart, are not in it; and a pass that leaves the
keyhole once and comes back leaves it when it enters it. -/
theorem azel_disagrees :
    letI := FloatOps.exact id id
    let short := azelAnalysis (profileOf 500 [85, 85])
    let dipping := azelAnalysis (profileOf 10000 [85, 60, 85])
    (short.entersKeyhole = false ∧
        isLikelyKeyholePass short.passMaxElevationDeg .defaultAzel = true) ∧
      dipping.keyholeEntry = some (Duration.seconds 10) ∧
      dipping.keyholeExit = some (Duration.seconds 10) := by
  decide +kernel

end Example

end GroundCore.Scheduler
