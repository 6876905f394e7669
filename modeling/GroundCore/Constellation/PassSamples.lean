import GroundCore.Constellation.Pass

/-! The samples of a predicted pass.  The scan records one pass for each maximal run of states that
stand high enough, with the greatest elevation and the greatest range of the run. -/

namespace GroundCore.Constellation

open Lib Angles Real PassPredictor

noncomputable section

/-- The longest stretches of visible states. -/
def visibleRuns (station : GroundStation) (states : List OrbitalState) :
    List (List OrbitalState) :=
  (states.splitOnP fun state => (visibleElevation station state).isNone).filter (!·.isEmpty)

/-- The pass summarises the states of a run. -/
structure SampledBy (satelliteId : String) (stationId : StationId) (station : GroundStation)
    (pass : Pass) (run : List OrbitalState) : Prop where
  satelliteId : pass.satelliteId = satelliteId
  stationId : pass.stationId = stationId
  rise : run.head?.map (·.time) = some pass.window.riseTime
  elevation : IsGreatest { e | ∃ state ∈ run, visibleElevation station state = some e }
    pass.window.maxElevationDeg
  range : IsGreatest { r | ∃ state ∈ run, rangeOf state = r } pass.maxRangeKm

/-- The variables of the scan while a run is open, with its states so far, latest first. -/
structure OpenRun (station : GroundStation) (scan : Scan) (window : PassWindow)
    (run : List OrbitalState) : Prop where
  inPass : scan.inPass = true
  currentPass : scan.currentPass = some window
  rise : run.getLast?.map (·.time) = some window.riseTime
  elevation : IsGreatest { e | ∃ state ∈ run, visibleElevation station state = some e }
    scan.maxElevation
  range : IsGreatest { r | ∃ state ∈ run, rangeOf state = r } scan.maxRange

/-- A run is open exactly when it has states. -/
def Tracks (station : GroundStation) (scan : Scan) (run : List OrbitalState) : Prop :=
  (run = [] ∧ scan.inPass = false) ∨ ∃ window, OpenRun station scan window run

variable {station : GroundStation} {satelliteId : String} {stationId : StationId} {scan : Scan}
  {run : List OrbitalState} {state : OrbitalState}

/-- The greatest value of a run that grows by one state. -/
theorem isGreatest_cons {f : OrbitalState → ℝ → Prop} {m v : ℝ}
    (h : IsGreatest { e | ∃ state ∈ run, f state e } m) (hv : ∀ e, f state e ↔ v = e) :
    IsGreatest { e | ∃ s ∈ state :: run, f s e } (if m < v then v else m) := by
  obtain ⟨⟨best, hbest, hm⟩, hbound⟩ := h
  constructor
  · split
    · exact ⟨state, List.mem_cons_self, (hv v).mpr rfl⟩
    · exact ⟨best, List.mem_cons_of_mem _ hbest, hm⟩
  · rintro e ⟨s, hs, he⟩
    rcases List.mem_cons.mp hs with rfl | hs
    · rw [← (hv e).mp he]
      split
      · exact le_refl _
      · next hle => exact not_lt.mp hle
    · have hle := hbound ⟨s, hs, he⟩
      split
      · next hlt => exact hle.trans hlt.le
      · exact hle

theorem isGreatest_singleton {f : OrbitalState → ℝ → Prop} {v : ℝ} (hv : ∀ e, f state e ↔ v = e) :
    IsGreatest { e | ∃ s ∈ [state], f s e } v := by
  constructor
  · exact ⟨state, List.mem_cons_self, (hv v).mpr rfl⟩
  · rintro e ⟨s, hs, he⟩
    rw [List.mem_singleton.mp hs] at he
    rw [(hv e).mp he]

/-- A visible state of an open run moves the two maxima. -/
theorem scanState_of_inPass (hin : scan.inPass = true) {elevation : ℝ}
    (hvisible : visibleElevation station state = some elevation) :
    scanState satelliteId stationId station scan state =
      { scan with
        maxElevation := if scan.maxElevation < elevation then elevation else scan.maxElevation
        maxElevationTime :=
          if scan.maxElevation < elevation then some state.time else scan.maxElevationTime
        maxRange := if scan.maxRange < rangeOf state then rangeOf state else scan.maxRange } := by
  cases scan with
  | mk passes inPass currentPass maxElevation maxElevationTime maxRange =>
    obtain rfl : inPass = true := hin
    simp only [scanState, hvisible, Bool.not_true, Bool.false_eq_true, if_false]
    split_ifs <;> rfl

variable (satelliteId stationId) in
/-- A visible state opens a run or joins the open one. -/
theorem tracks_visible (h : Tracks station scan run) {elevation : ℝ}
    (hvisible : visibleElevation station state = some elevation) :
    Tracks station (scanState satelliteId stationId station scan state) (state :: run) ∧
      (scanState satelliteId stationId station scan state).passes = scan.passes := by
  have helevation : ∀ e, visibleElevation station state = some e ↔ elevation = e := by
    intro e
    rw [hvisible, Option.some_inj]
  have hrange : ∀ r, rangeOf state = r ↔ rangeOf state = r := fun _ => Iff.rfl
  rcases h with ⟨rfl, hout⟩ | ⟨window, hopen⟩
  · simp only [scanState, hvisible, hout]
    refine ⟨.inr ⟨_, ⟨rfl, rfl, rfl, ?_, ?_⟩⟩, rfl⟩
    · exact isGreatest_singleton helevation
    · exact isGreatest_singleton (f := fun s r => rangeOf s = r) hrange
  · rw [scanState_of_inPass hopen.inPass hvisible]
    have hrise : (state :: run).getLast?.map (·.time) = some window.riseTime := by
      rw [← hopen.rise]
      cases run with
      | nil => exact absurd hopen.rise (by simp)
      | cons first rest => rw [List.getLast?_cons_cons]
    exact ⟨.inr ⟨window, hopen.inPass, hopen.currentPass, hrise,
      isGreatest_cons hopen.elevation helevation,
      isGreatest_cons (f := fun s r => rangeOf s = r) hopen.range hrange⟩, rfl⟩

variable (satelliteId stationId) in
theorem sampledBy_closePass {window : PassWindow} (hopen : OpenRun station scan window run)
    (setTime maxElevationTime : DateTime) :
    ∃ pass, closePass satelliteId stationId scan window setTime maxElevationTime =
        scan.passes ++ [pass] ∧
      SampledBy satelliteId stationId station pass run.reverse := by
  refine ⟨_, rfl, rfl, rfl, ?_, ?_, ?_⟩
  · rw [List.head?_reverse]
    exact hopen.rise
  · simp only [List.mem_reverse]
    exact hopen.elevation
  · simp only [List.mem_reverse]
    exact hopen.range

/-- What a run leaves behind: a pass, unless it is empty. -/
theorem exists_closed (h : Tracks station scan run)
    {passes : List Pass} (hempty : scan.inPass = false → passes = scan.passes)
    (hclose : ∀ window, scan.inPass = true → scan.currentPass = some window →
      ∃ setTime maxElevationTime,
        passes = closePass satelliteId stationId scan window setTime maxElevationTime) :
    ∃ closed, passes = scan.passes ++ closed ∧
      List.Forall₂ (SampledBy satelliteId stationId station) closed
        ([run.reverse].filter (!·.isEmpty)) := by
  rcases h with ⟨rfl, hout⟩ | ⟨window, hopen⟩
  · exact ⟨[], by rw [hempty hout, List.append_nil], .nil⟩
  · obtain ⟨setTime, maxElevationTime, heq⟩ := hclose window hopen.inPass hopen.currentPass
    obtain ⟨pass, hpass, hsampled⟩ :=
      sampledBy_closePass satelliteId stationId hopen setTime maxElevationTime
    have hne : run ≠ [] := by
      rintro rfl
      exact absurd hopen.rise (by simp)
    refine ⟨[pass], heq.trans hpass, ?_⟩
    rw [List.filter_cons_of_pos (by simpa using hne)]
    exact .cons hsampled .nil

variable (satelliteId stationId) in
/-- A state that is not visible closes the open run. -/
theorem tracks_hidden (h : Tracks station scan run)
    (hhidden : visibleElevation station state = none) :
    Tracks station (scanState satelliteId stationId station scan state) [] ∧
      ∃ closed, (scanState satelliteId stationId station scan state).passes =
          scan.passes ++ closed ∧
        List.Forall₂ (SampledBy satelliteId stationId station) closed
          ([run.reverse].filter (!·.isEmpty)) := by
  refine ⟨.inl ⟨rfl, ?_⟩, exists_closed h (fun hout => ?_) fun window hin hwindow => ?_⟩
  · rcases h with ⟨-, hout⟩ | ⟨window, hopen⟩
    · simp only [scanState, hhidden, hout, Bool.false_eq_true, if_false]
    · simp only [scanState, hhidden, hopen.inPass, hopen.currentPass, if_true]
  · simp only [scanState, hhidden, hout, Bool.false_eq_true, if_false]
  · simp only [scanState, hhidden, hin, hwindow, if_true]
    exact ⟨_, _, rfl⟩

theorem closed_finishScan (h : Tracks station scan run) (lastTime : Option DateTime)
    (now : DateTime) :
    ∃ closed, finishScan satelliteId stationId scan lastTime now = scan.passes ++ closed ∧
      List.Forall₂ (SampledBy satelliteId stationId station) closed
        ([run.reverse].filter (!·.isEmpty)) := by
  refine exists_closed h (fun hout => ?_) fun window hin hwindow => ?_
  · simp only [finishScan, hout]
  · simp only [finishScan, hin, hwindow]
    exact ⟨_, _, rfl⟩

variable (satelliteId stationId) in
/-- The scan from an open run on records one pass for each run. -/
theorem sampledBy_scan (states : List OrbitalState) (h : Tracks station scan run)
    (lastTime : Option DateTime) (now : DateTime) :
    ∃ closed, finishScan satelliteId stationId
        (states.foldl (scanState satelliteId stationId station) scan) lastTime now =
          scan.passes ++ closed ∧
      List.Forall₂ (SampledBy satelliteId stationId station) closed
        ((states.splitOnPPrepend (fun state => (visibleElevation station state).isNone)
          run).filter (!·.isEmpty)) := by
  induction states generalizing scan run with
  | nil =>
    rw [List.splitOnPPrepend_nil]
    exact closed_finishScan h lastTime now
  | cons state states ih =>
    rw [List.foldl_cons]
    cases hvisible : visibleElevation station state with
    | some elevation =>
      obtain ⟨htracks, hpasses⟩ := tracks_visible satelliteId stationId h hvisible
      rw [List.splitOnPPrepend_cons_neg (by simp [hvisible]), ← hpasses]
      exact ih htracks
    | none =>
      obtain ⟨htracks, closed, hpasses, hsampled⟩ :=
        tracks_hidden satelliteId stationId h hvisible
      obtain ⟨rest, hrest, hrestSampled⟩ := ih htracks
      rw [List.splitOnPPrepend_cons_pos (by simp [hvisible])]
      refine ⟨closed ++ rest, by rw [hrest, hpasses, List.append_assoc], ?_⟩
      rw [← List.singleton_append, List.filter_append]
      exact List.rel_append hsampled hrestSampled

/-- The predicted passes are those of the visible runs, one for each. -/
theorem sampledBy_predictPasses {p : PassPredictor}
    (hstation : p.getStation stationId = some station) {states : List OrbitalState}
    {now : DateTime} {passes : List Pass}
    (h : p.predictPasses satelliteId states stationId now = .ok passes) :
    List.Forall₂ (SampledBy satelliteId stationId station) passes
      (visibleRuns station states) := by
  simp only [predictPasses, hstation, Except.ok.injEq] at h
  have hempty : Tracks station initialScan [] := .inl ⟨rfl, rfl⟩
  obtain ⟨closed, hclosed, hsampled⟩ := sampledBy_scan satelliteId stationId states hempty
    (states.getLast?.map (·.time)) now
  rw [hclosed] at h
  obtain rfl : closed = passes := h
  exact hsampled

end

end GroundCore.Constellation
