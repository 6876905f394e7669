import GroundCore.Constellation.PassGeometry
import GroundCore.Lib.MaximalRuns

/-! One pass for each maximal run of high states.  The scan has, at every state, the passes of the
runs that have ended, and in its other variables the run that is still open. -/

namespace GroundCore.Constellation

open Lib PassPredictor

noncomputable section

/-- The state stands high enough over the station; one without an elevation does not. -/
def HighEnough (station : GroundStation) (state : OrbitalState) : Prop :=
  ∃ elevation, station.elevationFromPosition state.position state.time = some elevation ∧
    station.minElevationDeg ≤ elevation

/-- The states at the places of a run. -/
def statesOf (states : List OrbitalState) (run : ℕ × ℕ) : List OrbitalState :=
  (states.take run.2).drop run.1

/-- The greatest elevation of the pass is that of a state of the run, at its time. -/
def PeaksIn (station : GroundStation) (run : List OrbitalState) (maxElevation : ℝ)
    (maxElevationTime : DateTime) : Prop :=
  ∃ state ∈ run, state.time = maxElevationTime ∧
    visibleElevation station state = some maxElevation

/-- The pass is that of a run: it rises with the first state of the run, and sets with the first
state after it, or else with the last of all. -/
structure PassOf (satelliteId : String) (stationId : StationId) (station : GroundStation)
    (states : List OrbitalState) (pass : Pass) (run : ℕ × ℕ) : Prop where
  sampled : SampledBy satelliteId stationId station pass (statesOf states run)
  set : (states[run.2]?.or states.getLast?).map (·.time) = some pass.window.setTime
  peak : PeaksIn station (statesOf states run) pass.window.maxElevationDeg
    pass.window.maxElevationTime

variable {station : GroundStation} {satelliteId : String} {stationId : StationId} {scan : Scan}
  {states before : List OrbitalState} {state : OrbitalState} {run : ℕ × ℕ} {start : ℕ}
  {pass : Pass}

theorem highEnough_iff :
    HighEnough station state ↔ ∃ elevation, visibleElevation station state = some elevation := by
  simp [HighEnough, visibleElevation, Option.filter_eq_some_iff]

theorem mem_statesOf_iff :
    state ∈ statesOf states run ↔ ∃ k, run.1 ≤ k ∧ k < run.2 ∧ states[k]? = some state := by
  rw [statesOf, List.mem_iff_getElem?]
  constructor
  · rintro ⟨n, hn⟩
    rw [List.getElem?_drop, List.getElem?_take] at hn
    split at hn
    · next hlt => exact ⟨run.1 + n, Nat.le_add_right _ _, hlt, hn⟩
    · contradiction
  · rintro ⟨k, hle, hlt, hk⟩
    refine ⟨k - run.1, ?_⟩
    rw [List.getElem?_drop, Nat.add_sub_cancel' hle, List.getElem?_take, if_pos hlt, hk]

theorem statesOf_append (h : run.2 ≤ before.length) :
    statesOf (before ++ [state]) run = statesOf before run := by
  rw [statesOf, statesOf, List.take_append_of_le_length h]

/-- The pass of a run that has ended, however many states follow. -/
structure EndedPass (satelliteId : String) (stationId : StationId) (station : GroundStation)
    (before : List OrbitalState) (pass : Pass) (run : ℕ × ℕ) : Prop where
  sampled : SampledBy satelliteId stationId station pass (statesOf before run)
  set : before[run.2]?.map (·.time) = some pass.window.setTime
  peak : PeaksIn station (statesOf before run) pass.window.maxElevationDeg
    pass.window.maxElevationTime

theorem EndedPass.lt (h : EndedPass satelliteId stationId station before pass run) :
    run.2 < before.length := by
  obtain ⟨state, hstate, -⟩ := Option.map_eq_some_iff.mp h.set
  exact (List.getElem?_eq_some_iff.mp hstate).1

theorem EndedPass.append (h : EndedPass satelliteId stationId station before pass run) :
    EndedPass satelliteId stationId station (before ++ [state]) pass run := by
  have hstates : statesOf (before ++ [state]) run = statesOf before run :=
    statesOf_append h.lt.le
  refine ⟨by rw [hstates]; exact h.sampled, ?_, by rw [hstates]; exact h.peak⟩
  rw [List.getElem?_append_left h.lt]
  exact h.set

theorem EndedPass.passOf (h : EndedPass satelliteId stationId station states pass run) :
    PassOf satelliteId stationId station states pass run := by
  refine ⟨h.sampled, ?_, h.peak⟩
  rw [List.getElem?_eq_getElem h.lt, Option.some_or, ← List.getElem?_eq_getElem h.lt]
  exact h.set

/-- The pass that is recorded when the run that is open after `before` is closed. -/
structure ClosedPass (satelliteId : String) (stationId : StationId) (station : GroundStation)
    (before : List OrbitalState) (setTime : DateTime) (pass : Pass) (run : ℕ × ℕ) : Prop where
  stop : run.2 = before.length
  sampled : SampledBy satelliteId stationId station pass (statesOf before run)
  set : pass.window.setTime = setTime
  peak : PeaksIn station (statesOf before run) pass.window.maxElevationDeg
    pass.window.maxElevationTime

theorem ClosedPass.ended
    (h : ClosedPass satelliteId stationId station before state.time pass run) :
    EndedPass satelliteId stationId station (before ++ [state]) pass run := by
  have hstates : statesOf (before ++ [state]) run = statesOf before run :=
    statesOf_append h.stop.le
  refine ⟨by rw [hstates]; exact h.sampled, ?_, by rw [hstates]; exact h.peak⟩
  rw [h.stop, List.getElem?_concat_length, h.set]
  rfl

theorem ClosedPass.passOf {now : DateTime}
    (h : ClosedPass satelliteId stationId station states
      ((states.getLast?.map (·.time)).getD now) pass run) :
    PassOf satelliteId stationId station states pass run := by
  refine ⟨h.sampled, ?_, h.peak⟩
  obtain ⟨state, hstate, -⟩ := h.peak
  obtain ⟨k, -, -, hk⟩ := mem_statesOf_iff.mp hstate
  rw [h.stop, List.getElem?_eq_none le_rfl, Option.none_or, h.set]
  cases hlast : states.getLast? with
  | none =>
    rw [List.getLast?_eq_none_iff.mp hlast] at hk
    contradiction
  | some last => rfl

/-! ### The scan -/

/-- The scan knows when the states of its open run peaked. -/
def Peaked (station : GroundStation) (scan : Scan) (run : List OrbitalState) : Prop :=
  run ≠ [] → ∃ maxElevationTime, scan.maxElevationTime = some maxElevationTime ∧
    PeaksIn station run scan.maxElevation maxElevationTime

/-- The scan after the states `before`, of which those from `start` on are the open run. -/
structure Scanned (satelliteId : String) (stationId : StationId) (station : GroundStation)
    (before : List OrbitalState) (scan : Scan) (runs : List (ℕ × ℕ)) (start : ℕ) : Prop where
  ended : EndedRuns (HighEnough station) before runs
  openFrom : OpenFrom (HighEnough station) before start
  passes : List.Forall₂ (EndedPass satelliteId stationId station before) scan.passes runs
  tracks : Tracks station scan (before.drop start).reverse
  peaked : Peaked station scan (before.drop start)

theorem scanned_nil : Scanned satelliteId stationId station [] initialScan [] 0 :=
  ⟨endedRuns_nil, openFrom_nil, .nil, .inl ⟨rfl, rfl⟩, fun h => absurd rfl h⟩

theorem peaked_visible {run : List OrbitalState} (htracks : Tracks station scan run.reverse)
    (hpeaked : Peaked station scan run) {elevation : ℝ}
    (hvisible : visibleElevation station state = some elevation) :
    Peaked station (scanState satelliteId stationId station scan state) (run ++ [state]) := by
  have hnew : PeaksIn station (run ++ [state]) elevation state.time :=
    ⟨state, by simp, rfl, hvisible⟩
  intro _
  rcases htracks with ⟨-, hout⟩ | ⟨window, hopen⟩
  · simp only [scanState, hvisible, hout]
    exact ⟨state.time, rfl, hnew⟩
  · have hne : run ≠ [] := by
      rintro rfl
      exact absurd hopen.rise (by simp)
    obtain ⟨maxElevationTime, htime, best, hbest, hold⟩ := hpeaked hne
    rw [scanState_of_inPass hopen.inPass hvisible]
    by_cases hlt : scan.maxElevation < elevation
    · simp only [hlt, if_true]
      exact ⟨state.time, rfl, hnew⟩
    · simp only [hlt, if_false]
      exact ⟨maxElevationTime, htime, best, List.mem_append_left _ hbest, hold⟩

variable {runs : List (ℕ × ℕ)}

theorem Scanned.visible (h : Scanned satelliteId stationId station before scan runs start)
    {elevation : ℝ} (hvisible : visibleElevation station state = some elevation) :
    Scanned satelliteId stationId station (before ++ [state])
      (scanState satelliteId stationId station scan state) runs start := by
  have hhigh : HighEnough station state := highEnough_iff.mpr ⟨elevation, hvisible⟩
  have hdrop : (before ++ [state]).drop start = before.drop start ++ [state] :=
    List.drop_append_of_le_length h.openFrom.le
  obtain ⟨htracks, hpasses⟩ := tracks_visible satelliteId stationId h.tracks hvisible
  refine ⟨h.ended.append hhigh, h.openFrom.append hhigh, ?_, ?_, ?_⟩
  · rw [hpasses]
    exact h.passes.imp fun _ _ => EndedPass.append
  · rw [hdrop, List.reverse_concat]
    exact htracks
  · rw [hdrop]
    exact peaked_visible h.tracks h.peaked hvisible

/-- What the open run leaves behind when it is closed. -/
theorem Scanned.close (h : Scanned satelliteId stationId station before scan runs start)
    (setTime : DateTime) (passes : List Pass) (hempty : scan.inPass = false → passes = scan.passes)
    (hclose : ∀ window maxElevationTime, scan.inPass = true → scan.currentPass = some window →
      scan.maxElevationTime = some maxElevationTime →
        passes = closePass satelliteId stationId scan window setTime maxElevationTime) :
    ∃ closed, passes = scan.passes ++ closed ∧
      List.Forall₂ (ClosedPass satelliteId stationId station before setTime) closed
        (openRun before start) := by
  rcases h.tracks with ⟨hnil, hout⟩ | ⟨window, hopen⟩
  · have hle : before.length ≤ start := List.drop_eq_nil_iff.mp (List.reverse_eq_nil_iff.mp hnil)
    rw [openRun, if_neg (not_lt.mpr hle)]
    exact ⟨[], by rw [hempty hout, List.append_nil], .nil⟩
  · have hlt : start < before.length := by
      by_contra hle
      have hrise := hopen.rise
      rw [List.drop_eq_nil_of_le (not_lt.mp hle)] at hrise
      contradiction
    obtain ⟨maxElevationTime, htime, hpeak⟩ := h.peaked (by simpa using hlt)
    have heq := hclose window maxElevationTime hopen.inPass hopen.currentPass htime
    obtain ⟨pass, hpass, hsampled⟩ :=
      sampledBy_closePass satelliteId stationId hopen setTime maxElevationTime
    have hstates : statesOf before (start, before.length) = before.drop start := by
      rw [statesOf, List.take_length]
    rw [List.reverse_reverse, ← hstates] at hsampled
    rw [← hstates] at hpeak
    obtain rfl : _ = pass := by simpa only [closePass, List.append_cancel_left_eq,
      List.cons.injEq, and_true] using hpass
    rw [openRun, if_pos hlt]
    exact ⟨[_], heq, .cons ⟨rfl, hsampled, rfl, hpeak⟩ .nil⟩

theorem Scanned.hidden (h : Scanned satelliteId stationId station before scan runs start)
    (hhidden : visibleElevation station state = none) :
    Scanned satelliteId stationId station (before ++ [state])
      (scanState satelliteId stationId station scan state) (runs ++ openRun before start)
      (before.length + 1) := by
  have hlow : ¬ HighEnough station state := by
    rw [highEnough_iff, hhidden]
    simp
  have hdrop : (before ++ [state]).drop (before.length + 1) = [] :=
    List.drop_eq_nil_of_le (by simp)
  obtain ⟨closed, hpasses, hclosed⟩ := h.close state.time
    (scanState satelliteId stationId station scan state).passes
    (fun hout => by simp only [scanState, hhidden, hout, Bool.false_eq_true, if_false])
    (fun window maxElevationTime hin hwindow htime => by
      simp only [scanState, hhidden, hin, hwindow, htime, if_true, Option.getD_some])
  refine ⟨(h.ended.all h.openFrom).append hlow, openFrom_append_length hlow, ?_, ?_, ?_⟩
  · rw [hpasses]
    exact List.rel_append (h.passes.imp fun _ _ => EndedPass.append)
      (hclosed.imp fun _ _ => ClosedPass.ended)
  · rw [hdrop]
    exact (tracks_hidden satelliteId stationId h.tracks hhidden).1
  · rw [hdrop]
    exact fun hne => absurd rfl hne

/-- The step over one state. -/
theorem Scanned.step (h : Scanned satelliteId stationId station before scan runs start)
    (state : OrbitalState) :
    ∃ runs' start', Scanned satelliteId stationId station (before ++ [state])
      (scanState satelliteId stationId station scan state) runs' start' := by
  cases hvisible : visibleElevation station state with
  | some elevation => exact ⟨runs, start, h.visible hvisible⟩
  | none => exact ⟨_, _, h.hidden hvisible⟩

variable (satelliteId stationId station) in
theorem exists_scanned (states : List OrbitalState) :
    ∃ runs start, Scanned satelliteId stationId station states
      (states.foldl (scanState satelliteId stationId station) initialScan) runs start := by
  induction states using List.reverseRecOn with
  | nil => exact ⟨[], 0, scanned_nil⟩
  | append_singleton before state ih =>
    obtain ⟨runs, start, h⟩ := ih
    rw [List.foldl_concat]
    exact h.step state

/-- The passes at the end, with the one that is still open. -/
theorem Scanned.finish (h : Scanned satelliteId stationId station states scan runs start)
    (now : DateTime) :
    List.Forall₂ (PassOf satelliteId stationId station states)
      (finishScan satelliteId stationId scan (states.getLast?.map (·.time)) now)
      (runs ++ openRun states start) := by
  obtain ⟨closed, hpasses, hclosed⟩ := h.close ((states.getLast?.map (·.time)).getD now)
    (finishScan satelliteId stationId scan (states.getLast?.map (·.time)) now)
    (fun hout => by simp only [finishScan, hout])
    (fun window maxElevationTime hin hwindow htime => by
      simp only [finishScan, hin, hwindow, htime, Option.getD_some])
  rw [hpasses]
  exact List.rel_append (h.passes.imp fun _ _ => EndedPass.passOf)
    (hclosed.imp fun _ _ => ClosedPass.passOf)

/-! ### The times -/

theorem time_lt (hsorted : states.Pairwise fun a b => a.time < b.time) {i j : ℕ}
    {first second : OrbitalState} (hfirst : states[i]? = some first)
    (hsecond : states[j]? = some second) (hlt : i < j) : first.time < second.time := by
  obtain ⟨hi, rfl⟩ := List.getElem?_eq_some_iff.mp hfirst
  obtain ⟨hj, rfl⟩ := List.getElem?_eq_some_iff.mp hsecond
  exact List.pairwise_iff_getElem.mp hsorted i j hi hj hlt

theorem time_le (hsorted : states.Pairwise fun a b => a.time < b.time) {i j : ℕ}
    {first second : OrbitalState} (hfirst : states[i]? = some first)
    (hsecond : states[j]? = some second) (hle : i ≤ j) : first.time ≤ second.time := by
  rcases Nat.lt_or_eq_of_le hle with hlt | rfl
  · exact (time_lt hsorted hfirst hsecond hlt).le
  · rw [Option.some.inj (hfirst.symm.trans hsecond)]

theorem PassOf.rise (h : PassOf satelliteId stationId station states pass run) :
    run.1 < run.2 ∧ states[run.1]?.map (·.time) = some pass.window.riseTime := by
  have hrise := h.sampled.rise
  rw [statesOf, List.head?_drop, List.getElem?_take] at hrise
  split at hrise
  · next hlt => exact ⟨hlt, hrise⟩
  · contradiction

theorem PassOf.peak_mem (h : PassOf satelliteId stationId station states pass run)
    (hsorted : states.Pairwise fun a b => a.time < b.time) :
    pass.window.riseTime ≤ pass.window.maxElevationTime ∧
      pass.window.maxElevationTime ≤ pass.window.setTime := by
  obtain ⟨best, hbest, htime, -⟩ := h.peak
  obtain ⟨k, hle, hlt, hk⟩ := mem_statesOf_iff.mp hbest
  obtain ⟨first, hfirst, hrise⟩ := Option.map_eq_some_iff.mp h.rise.2
  obtain ⟨after, hafter, hset⟩ := Option.map_eq_some_iff.mp h.set
  rw [← hrise, ← htime, ← hset]
  refine ⟨time_le hsorted hfirst hk hle, ?_⟩
  rcases Option.or_eq_some_iff.mp hafter with hafter | ⟨-, hlast⟩
  · exact (time_lt hsorted hk hafter hlt).le
  · rw [List.getLast?_eq_getElem?] at hlast
    have := (List.getElem?_eq_some_iff.mp hk).1
    exact time_le hsorted hk hlast (by omega)

/-- The state after a run comes before the first state of the next. -/
theorem PassOf.set_lt_rise {pass' : Pass} {run' : ℕ × ℕ}
    (h : PassOf satelliteId stationId station states pass run)
    (h' : PassOf satelliteId stationId station states pass' run')
    (hsorted : states.Pairwise fun a b => a.time < b.time) (hlt : run.2 < run'.1) :
    pass.window.setTime < pass'.window.riseTime := by
  obtain ⟨first, hfirst, hrise⟩ := Option.map_eq_some_iff.mp h'.rise.2
  have hlength := (List.getElem?_eq_some_iff.mp hfirst).1
  have hset := h.set
  have hafter : states[run.2]? = some states[run.2] := List.getElem?_eq_getElem (by omega)
  rw [hafter, Option.some_or, Option.map_some, Option.some.injEq] at hset
  rw [← hset, ← hrise]
  exact time_lt hsorted hafter hfirst hlt

/-- The predicted passes are those of the maximal runs of states that stand high enough, in order:
each peaks between its rise and its set, and sets before the next rises. -/
theorem predictPasses_maximalRuns (p : PassPredictor) (satelliteId : String)
    (stationId : StationId) (states : List OrbitalState) (now : DateTime)
    (hstation : p.getStation stationId = some station)
    (hsorted : states.Pairwise fun a b => a.time < b.time) :
    ∃ passes runs, p.predictPasses satelliteId states stationId now = .ok passes ∧
      AllRuns (HighEnough station) states runs ∧
      List.Forall₂ (PassOf satelliteId stationId station states) passes runs ∧
      (∀ pass ∈ passes, pass.window.riseTime ≤ pass.window.maxElevationTime ∧
        pass.window.maxElevationTime ≤ pass.window.setTime) ∧
      passes.Pairwise fun pass next => pass.window.setTime < next.window.riseTime := by
  obtain ⟨runs, start, hscanned⟩ := exists_scanned station satelliteId stationId states
  have hall := hscanned.ended.all hscanned.openFrom
  have hpasses := hscanned.finish now
  refine ⟨_, runs ++ openRun states start, by rw [predictPasses, hstation], hall, hpasses, ?_, ?_⟩
  · exact (List.forall₂_and_left _ _).mp (hpasses.imp fun _ _ h => ⟨h.peak_mem hsorted, h⟩) |>.1
  · obtain ⟨hlength, hget⟩ := List.forall₂_iff_get.mp hpasses
    refine List.pairwise_iff_getElem.mpr fun i j hi hj hij => ?_
    have hi' := hlength ▸ hi
    have hj' := hlength ▸ hj
    exact (hget i hi hi').set_lt_rise (hget j hj hj') hsorted
      (List.pairwise_iff_getElem.mp hall.sorted i j hi' hj' hij)

/-- A state on the axis of the earth, in the direction of the pole or behind the earth. -/
def onAxis (k : ℝ) (time : DateTime) : OrbitalState :=
  { position := k • pole.toEci time, velocity := 0, time, tleEpoch := noon }

theorem highEnough_onAxis {k : ℝ} (hk : 1 < k) (time : DateTime) :
    HighEnough pole (onAxis k time) := by
  have hninety := (pole.elevation_zenith_iff hk time).mpr (.inl ⟨radius_pole, .inl cos_lat_pole⟩)
  exact ⟨90, hninety, by norm_num [pole]⟩

theorem not_highEnough_onAxis {k : ℝ} (hk : k < 1) (time : DateTime) :
    ¬ HighEnough pole (onAxis k time) := by
  rintro ⟨elevation, helevation, hmin⟩
  have hrel : k • pole.toEci time - pole.toEci time = (k - 1) • pole.toEci time := by
    rw [sub_smul, one_smul]
  have hneg : (k - 1) * pole.radius < 0 := mul_neg_of_neg_of_pos (sub_neg.mpr hk) radius_pole
  have hup : pole.upShare time = 1 := (pole.upShare_eq_one_iff time).mpr (.inl cos_lat_pole)
  have hdown : (k - 1) * pole.radius / |(k - 1) * pole.radius| = -1 := by
    rw [abs_of_neg hneg, div_neg, div_self hneg.ne]
  simp only [onAxis, GroundStation.elevationFromPosition_eq, hrel, GroundStation.norm_smul_toEci,
    GroundStation.up_smul_toEci, hup, mul_one, hdown, abs_eq_zero, hneg.ne, if_false] at helevation
  rw [← Option.some.inj helevation, Real.arcsin_neg_one, Angles.toDegrees] at hmin
  have hten : pole.minElevationDeg = 10 := by norm_num [pole]
  have hangle : -(Real.pi / 2) * (180 / Real.pi) = -90 := by
    field_simp
    norm_num
  rw [hten, hangle] at hmin
  norm_num at hmin

/-- A satellite that passes over the pole twice, and behind the earth in between. -/
def twoPasses : List OrbitalState :=
  [onAxis 2.0 noon, onAxis (-2.0) evening, onAxis 3.0 (evening + (evening - noon))]

theorem twoPasses_disjoint :
    ∃ passes, polePredictor.predictPasses "sat" twoPasses "pole" 0 = .ok passes ∧
      2 ≤ passes.length ∧
      passes.Pairwise fun pass next => pass.window.setTime < next.window.riseTime := by
  have hsorted : twoPasses.Pairwise fun a b => a.time < b.time := by
    have htimes : (twoPasses.map (·.time)).Pairwise (· < ·) := by decide
    exact List.pairwise_map.mp htimes
  obtain ⟨passes, runs, hpasses, hall, hof, -, hdisjoint⟩ := predictPasses_maximalRuns polePredictor
    "sat" "pole" twoPasses 0 rfl hsorted
  have hfirst := highEnough_onAxis (k := 2.0) (by norm_num) noon
  have hlow := not_highEnough_onAxis (k := -2.0) (by norm_num) evening
  have hlast := highEnough_onAxis (k := 3.0) (by norm_num) (evening + (evening - noon))
  have hruns : [(0, 1), (2, 3)] ⊆ runs := by
    have hended := (endedRuns_nil.append hfirst).all (openFrom_nil.append hfirst)
    have hopen := openFrom_append_length (l := [onAxis 2.0 noon]) hlow
    have hboth := ((hended.append hlow).append hlast).all (hopen.append hlast)
    intro run hrun
    exact (hall.mem_iff run).mpr ((hboth.mem_iff run).mp hrun)
  have hlength := (List.subperm_of_subset (by decide) hruns).length_le
  exact ⟨passes, hpasses, hof.length_eq ▸ hlength, hdisjoint⟩

end

end GroundCore.Constellation
