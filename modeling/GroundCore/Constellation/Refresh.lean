import GroundCore.Constellation.Manager
import GroundCore.Lib.ExceptLoops
import GroundCore.Lib.Run

/-! What a refresh of elements does to a constellation that could be propagated.  The constants are
dropped with the old elements, and nothing computes them anew. -/

namespace GroundCore.Constellation

open Lib

noncomputable section

variable {sgp4 : Sgp4}

/-- A call of `batchRefresh`. -/
structure RefreshCall (sgp4 : Sgp4) where
  ord : IterOrder (SatelliteId × Satellite sgp4)
  fetchFn : Fetch
  maxAgeHours : ℤ
  clock : SatelliteId → DateTime
  now : DateTime

/-- Elements with the epoch from which they are propagated. -/
structure Dated (sgp4 : Sgp4) where
  elements : sgp4.Elements
  epoch : DateTime

/-- A constellation, and the newest elements that were fetched for each satellite. -/
structure Session (sgp4 : Sgp4) where
  constellation : Constellation sgp4
  newest : SatelliteId → Option (Dated sgp4)

/-- The elements that a call fetches for a satellite: when it needs a refresh, and the lines can be
fetched and read. -/
def fetchedElements (c : Constellation sgp4) (call : RefreshCall sgp4) (id : SatelliteId) :
    Option (Dated sgp4) :=
  match c.satellites.get? id with
  | none => none
  | some satellite =>
    if satellite.needsRefresh call.maxAgeHours (call.clock id) then
      match call.fetchFn id with
      | .error _ => none
      | .ok (line1, line2, _) =>
        match sgp4.fromTle satellite.name line1 line2 with
        | .error _ => none
        | .ok elements => some { elements, epoch := sgp4.datetime elements }
    else none

namespace Session

/-- Each satellite with the elements that it has. -/
def start (c : Constellation sgp4) : Session sgp4 :=
  { constellation := c
    newest := fun id => (c.satellites.get? id).map fun s => ⟨s.elements, s.tleEpoch⟩ }

def step (s : Session sgp4) (call : RefreshCall sgp4) : Session sgp4 :=
  { constellation := s.constellation.batchRefresh call.ord call.fetchFn call.maxAgeHours
      call.clock call.now
    newest := fun id => (fetchedElements s.constellation call id).or (s.newest id) }

end Session

/-- The state is what SGP4 computes from the elements. -/
def ComputedFrom (dated : Dated sgp4) (time : DateTime) (state : OrbitalState) : Prop :=
  ∃ constants position velocity, sgp4.fromElements dated.elements = .ok constants ∧
    sgp4.propagate constants (Satellite.minutesSinceEpoch dated.epoch time) =
      .ok (position, velocity) ∧
    state = { position, velocity, time, tleEpoch := dated.epoch }

/-- Propagation and pass prediction return, with a state for every satellite from its newest
elements. -/
structure Session.Serves (s : Session sgp4) : Prop where
  propagate : ∀ ord time, ∃ snapshot, s.constellation.propagate ord time = .ok snapshot ∧
    ∀ id satellite, s.constellation.satellites.get? id = some satellite →
      ∃ dated state, s.newest id = some dated ∧ snapshot.states.get? id = some state ∧
        ComputedFrom dated time state
  passes : ∀ (predictor : PassPredictor) ord ordStations startTime endTime stepSec hstep now,
    (∃ passes, predictor.predictAllPasses s.constellation ord ordStations startTime endTime
      stepSec hstep now = .ok passes) ∧
    ∀ id satellite, s.constellation.satellites.get? id = some satellite →
      ∃ dated states, s.newest id = some dated ∧
        sampleStates satellite (sampleTimes startTime endTime stepSec hstep) = .ok states ∧
        List.Forall₂ (ComputedFrom dated) (sampleTimes startTime endTime stepSec hstep) states

/-- No satellite that needs a refresh is given lines that can be read. -/
def NothingFetched (s : Session sgp4) (call : RefreshCall sgp4) : Prop :=
  ∀ id, fetchedElements s.constellation call id = none

/-! ### One satellite -/

/-- The satellite holds the elements; its constants, if any, are theirs. -/
structure Satellite.Holds (satellite : Satellite sgp4) (dated : Dated sgp4) : Prop where
  elements : satellite.elements = dated.elements
  epoch : satellite.tleEpoch = dated.epoch
  constants : ∀ constants, satellite.constants = some constants →
    sgp4.fromElements dated.elements = .ok constants

theorem Satellite.propagate_of_holds (hpropagate : ∀ constants minutes,
    ∃ state, sgp4.propagate constants minutes = .ok state) {satellite : Satellite sgp4}
    {dated : Dated sgp4} (h : satellite.Holds dated) (hready : satellite.constants.isSome)
    (time : DateTime) :
    ∃ state, satellite.propagate time = .ok state ∧ ComputedFrom dated time state := by
  obtain ⟨constants, hconstants⟩ := Option.isSome_iff_exists.mp hready
  obtain ⟨⟨position, velocity⟩, hstate⟩ :=
    hpropagate constants (Satellite.minutesSinceEpoch dated.epoch time)
  refine ⟨{ position, velocity, time, tleEpoch := dated.epoch }, ?_,
    constants, position, velocity, h.constants constants hconstants, hstate, rfl⟩
  rw [← h.epoch] at hstate ⊢
  simp only [Satellite.propagate, hconstants, hstate]

theorem Satellite.isSome_constants_of_propagate {satellite : Satellite sgp4} {time : DateTime}
    {state : OrbitalState} (h : satellite.propagate time = .ok state) :
    satellite.constants.isSome := by
  unfold Satellite.propagate at h
  cases hconstants : satellite.constants with
  | none => rw [hconstants] at h; contradiction
  | some constants => rfl

/-- What a call leaves of a satellite. -/
theorem get?_batchRefresh (c : Constellation sgp4) (call : RefreshCall sgp4) (id : SatelliteId) :
    (c.batchRefresh call.ord call.fetchFn call.maxAgeHours call.clock call.now).satellites.get? id =
      (c.satellites.get? id).map fun satellite =>
        if satellite.needsRefresh call.maxAgeHours (call.clock id) then
          refreshOne (call.fetchFn id) satellite
        else satellite := by
  have hnodup : (((call.ord.order c.satellites.entries).filter fun e =>
      e.2.needsRefresh call.maxAgeHours (call.clock e.1)).map Prod.fst).Nodup := by
    have hkeys : ((call.ord.order c.satellites.entries).map Prod.fst).Nodup :=
      ((call.ord.perm _).map Prod.fst).nodup_iff.mpr c.satellites.nodup_keys
    exact hkeys.sublist (List.filter_sublist.map Prod.fst)
  have hmem : id ∈ ((call.ord.order c.satellites.entries).filter fun e =>
      e.2.needsRefresh call.maxAgeHours (call.clock e.1)).map Prod.fst ↔
        ∃ satellite, c.satellites.get? id = some satellite ∧
          satellite.needsRefresh call.maxAgeHours (call.clock id) = true := by
    simp only [List.mem_map, List.mem_filter, IterOrder.mem_order, Prod.exists, HashMap.mem_entries]
    constructor
    · rintro ⟨_, satellite, ⟨hget, hneeds⟩, rfl⟩
      exact ⟨satellite, hget, hneeds⟩
    · rintro ⟨satellite, hget, hneeds⟩
      exact ⟨id, satellite, ⟨hget, hneeds⟩, rfl⟩
  unfold Constellation.batchRefresh
  rw [HashMap.get?_foldl_modify hnodup fun id => refreshOne (call.fetchFn id)]
  cases hget : c.satellites.get? id with
  | none => simp
  | some satellite =>
    simp only [hmem, hget, Option.some.injEq, exists_eq_left', Option.map_some]
    split <;> rfl

/-- A call leaves a satellite as it is, or gives it the elements that it fetched and no
constants. -/
theorem satellite_batchRefresh {c : Constellation sgp4} (call : RefreshCall sgp4)
    {id : SatelliteId} {satellite : Satellite sgp4} (hget : c.satellites.get? id = some satellite) :
    match fetchedElements c call id with
    | none => (c.batchRefresh call.ord call.fetchFn call.maxAgeHours call.clock
        call.now).satellites.get? id = some satellite
    | some dated => ∃ source, (c.batchRefresh call.ord call.fetchFn call.maxAgeHours call.clock
        call.now).satellites.get? id =
          some { satellite with
                 elements := dated.elements, tleEpoch := dated.epoch, source
                 constants := none } := by
  simp only [get?_batchRefresh, fetchedElements, hget, Option.map_some]
  by_cases hneeds : satellite.needsRefresh call.maxAgeHours (call.clock id) = true
  · simp only [hneeds, if_true, refreshOne, Satellite.refreshTle]
    cases call.fetchFn id with
    | error e => rfl
    | ok lines =>
      obtain ⟨line1, line2, source⟩ := lines
      dsimp only
      cases sgp4.fromTle satellite.name line1 line2 with
      | error e => rfl
      | ok elements => exact ⟨source, rfl⟩
  · simp only [hneeds, Bool.false_eq_true, if_false]

namespace Session

/-- A refresh adds no satellite. -/
theorem exists_before {s : Session sgp4} {call : RefreshCall sgp4} {id : SatelliteId}
    {satellite : Satellite sgp4}
    (hget : (s.step call).constellation.satellites.get? id = some satellite) :
    ∃ before, s.constellation.satellites.get? id = some before := by
  rw [step, get?_batchRefresh] at hget
  obtain ⟨before, hbefore, -⟩ := Option.map_eq_some_iff.mp hget
  exact ⟨before, hbefore⟩

/-- Every satellite holds the newest elements. -/
def Current (s : Session sgp4) : Prop :=
  ∀ id satellite, s.constellation.satellites.get? id = some satellite →
    ∃ dated, s.newest id = some dated ∧ satellite.Holds dated

/-- Every satellite has constants. -/
def Ready (s : Session sgp4) : Prop :=
  ∀ id satellite, s.constellation.satellites.get? id = some satellite → satellite.constants.isSome

theorem current_step {s : Session sgp4} (h : s.Current) (call : RefreshCall sgp4) :
    (s.step call).Current := by
  intro id satellite hget
  obtain ⟨before, hbefore⟩ := exists_before hget
  obtain ⟨dated, hnewest, hholds⟩ := h id before hbefore
  have hafter := satellite_batchRefresh call hbefore
  simp only [step] at hget ⊢
  cases hfetched : fetchedElements s.constellation call id with
  | none =>
    simp only [hfetched] at hafter
    obtain rfl := Option.some.inj (hafter.symm.trans hget)
    exact ⟨dated, hnewest, hholds⟩
  | some fetched =>
    simp only [hfetched] at hafter
    obtain ⟨source, hafter⟩ := hafter
    obtain rfl := Option.some.inj (hafter.symm.trans hget)
    exact ⟨fetched, rfl, rfl, rfl, fun _ hnone => absurd hnone.symm (Option.some_ne_none _)⟩

/-- The constants survive exactly the calls that fetch nothing. -/
theorem ready_step_iff {s : Session sgp4} (h : s.Ready) (call : RefreshCall sgp4) :
    (s.step call).Ready ↔ NothingFetched s call := by
  constructor
  · intro hready id
    cases hbefore : s.constellation.satellites.get? id with
    | none => simp only [fetchedElements, hbefore]
    | some before =>
      have hafter := satellite_batchRefresh call hbefore
      cases hfetched : fetchedElements s.constellation call id with
      | none => rfl
      | some fetched =>
        simp only [hfetched] at hafter
        obtain ⟨source, hafter⟩ := hafter
        have hsome := hready id _ hafter
        contradiction
  · intro hnothing id satellite hget
    obtain ⟨before, hbefore⟩ := exists_before hget
    have hafter := satellite_batchRefresh call hbefore
    simp only [hnothing id] at hafter
    obtain rfl := Option.some.inj (hafter.symm.trans hget)
    exact h id before hbefore

end Session

/-! ### Propagation -/

namespace Session

theorem nodup_order (c : Constellation sgp4) (ord : IterOrder (SatelliteId × Satellite sgp4)) :
    ((ord.order c.satellites.entries).map Prod.fst).Nodup :=
  ((ord.perm _).map Prod.fst).nodup_iff.mpr c.satellites.nodup_keys

theorem serves_propagate (hpropagate : ∀ constants minutes,
    ∃ state, sgp4.propagate constants minutes = .ok state) {s : Session sgp4} (h : s.Current)
    (hready : s.Ready) (ord : IterOrder (SatelliteId × Satellite sgp4)) (time : DateTime) :
    ∃ snapshot, s.constellation.propagate ord time = .ok snapshot ∧
      ∀ id satellite, s.constellation.satellites.get? id = some satellite →
        ∃ dated state, s.newest id = some dated ∧ snapshot.states.get? id = some state ∧
          ComputedFrom dated time state := by
  have heach : ∀ e ∈ ord.order s.constellation.satellites.entries,
      ∃ state, e.2.propagate time = .ok state ∧
        ∃ dated, s.newest e.1 = some dated ∧ ComputedFrom dated time state := by
    rintro ⟨id, satellite⟩ hmem
    have hget := HashMap.mem_entries.mp ((IterOrder.mem_order ord).mp hmem)
    obtain ⟨dated, hnewest, hholds⟩ := h id satellite hget
    obtain ⟨state, hstate, hcomputed⟩ :=
      Satellite.propagate_of_holds hpropagate hholds (hready id satellite hget) time
    exact ⟨state, hstate, dated, hnewest, hcomputed⟩
  obtain ⟨states, hstates, hstored, -⟩ :=
    foldlM_insert_ok (f := fun e : SatelliteId × Satellite sgp4 => e.2.propagate time)
      (nodup_order s.constellation ord) heach (∅ : HashMap SatelliteId OrbitalState)
  refine ⟨{ constellationName := s.constellation.name, timestamp := time, states }, ?_, ?_⟩
  · unfold Constellation.propagate
    rw [hstates]
    rfl
  · intro id satellite hget
    obtain ⟨state, hstate, dated, hnewest, hcomputed⟩ :=
      hstored (id, satellite) ((IterOrder.mem_order ord).mpr (HashMap.mem_entries.mpr hget))
    exact ⟨dated, state, hnewest, hstate, hcomputed⟩

theorem serves_sampleStates (hpropagate : ∀ constants minutes,
    ∃ state, sgp4.propagate constants minutes = .ok state) {s : Session sgp4} (h : s.Current)
    (hready : s.Ready) (times : List DateTime) {id : SatelliteId} {satellite : Satellite sgp4}
    (hget : s.constellation.satellites.get? id = some satellite) :
    ∃ dated states, s.newest id = some dated ∧ sampleStates satellite times = .ok states ∧
      List.Forall₂ (ComputedFrom dated) times states := by
  obtain ⟨dated, hnewest, hholds⟩ := h id satellite hget
  obtain ⟨states, hstates, hcomputed⟩ := mapM_ok (R := ComputedFrom dated)
    (f := satellite.propagate) (l := times) fun time _ =>
      Satellite.propagate_of_holds hpropagate hholds (hready id satellite hget) time
  exact ⟨dated, states, hnewest, hstates, hcomputed⟩

/-- The predictor knows the stations over which it predicts. -/
theorem addPasses_ok (predictor : PassPredictor) (ordStations : IterOrder StationId)
    (id : SatelliteId) (states : List OrbitalState) (now : DateTime)
    (allPasses : HashMap StationId (List Pass)) :
    ∃ allPasses', addPasses predictor ordStations id states now allPasses = .ok allPasses' := by
  unfold addPasses
  refine foldlM_ok (fun allPasses stationId hmem => ?_) allPasses
  obtain ⟨station, hstation⟩ := HashMap.mem_keys.mp ((IterOrder.mem_order ordStations).mp hmem)
  simp only [PassPredictor.predictPasses, PassPredictor.getStation, hstation]
  dsimp only [bind, Except.bind]
  split
  · exact ⟨_, rfl⟩
  · exact ⟨_, rfl⟩

theorem serves_passes (hpropagate : ∀ constants minutes,
    ∃ state, sgp4.propagate constants minutes = .ok state) {s : Session sgp4} (h : s.Current)
    (hready : s.Ready) (predictor : PassPredictor)
    (ord : IterOrder (SatelliteId × Satellite sgp4)) (ordStations : IterOrder StationId)
    (startTime endTime : DateTime) (stepSec : UInt64) (hstep : 0 < stepSec.toInt64.toInt)
    (now : DateTime) : ∃ passes, predictor.predictAllPasses s.constellation ord ordStations startTime endTime stepSec
      hstep now = .ok passes := by
  unfold PassPredictor.predictAllPasses
  refine foldlM_ok (fun allPasses e hmem => ?_) _
  obtain ⟨id, satellite⟩ := e
  have hget := HashMap.mem_entries.mp ((IterOrder.mem_order ord).mp hmem)
  obtain ⟨-, states, -, hstates, -⟩ := serves_sampleStates hpropagate h hready
    (sampleTimes startTime endTime stepSec hstep) hget
  obtain ⟨allPasses', hallPasses'⟩ := addPasses_ok predictor ordStations id states now allPasses
  exact ⟨allPasses', by rw [hstates]; exact hallPasses'⟩

/-- A constellation serves exactly when all its satellites have constants. -/
theorem serves_iff_ready (hpropagate : ∀ constants minutes,
    ∃ state, sgp4.propagate constants minutes = .ok state) {s : Session sgp4} (h : s.Current) :
    s.Serves ↔ s.Ready := by
  constructor
  · intro hserves id satellite hget
    obtain ⟨snapshot, hsnapshot, -⟩ := hserves.propagate (.stored _) 0
    unfold Constellation.propagate at hsnapshot
    cases hstates : ((IterOrder.stored (SatelliteId × Satellite sgp4)).order
        s.constellation.satellites.entries).foldlM (fun states e => do
          return HashMap.insert states e.1 (← e.2.propagate 0))
          (∅ : HashMap SatelliteId OrbitalState) with
    | error e => rw [hstates] at hsnapshot; contradiction
    | ok states =>
      obtain ⟨state, hstate⟩ := ok_of_foldlM_insert
        (f := fun e : SatelliteId × Satellite sgp4 => e.2.propagate 0) hstates (id, satellite)
        ((IterOrder.mem_order _).mpr (HashMap.mem_entries.mpr hget))
      exact Satellite.isSome_constants_of_propagate hstate
  · intro hready
    refine ⟨serves_propagate hpropagate h hready, ?_⟩
    intro predictor ord ordStations startTime endTime stepSec hstep now
    exact ⟨serves_passes hpropagate h hready predictor ord ordStations startTime endTime stepSec
      hstep now, fun id satellite hget => serves_sampleStates hpropagate h hready _ hget⟩

end Session

/-! ### From the initialisation on -/

/-- The constants are those of the elements. -/
def Satellite.Initialized (satellite : Satellite sgp4) : Prop :=
  ∃ constants, sgp4.fromElements satellite.elements = .ok constants ∧
    satellite.constants = some constants

theorem initializeEach_ok {ids : List SatelliteId}
    {satellites satellites' : HashMap SatelliteId (Satellite sgp4)}
    (h : initializeEach ids satellites = (satellites', .ok ())) (id : SatelliteId)
    (satellite' : Satellite sgp4) (hget : satellites'.get? id = some satellite') :
    ∃ satellite, satellites.get? id = some satellite ∧
      (satellite'.Initialized ∨ id ∉ ids ∧ satellite' = satellite) := by
  induction ids generalizing satellites with
  | nil =>
    obtain rfl : satellites = satellites' := congrArg Prod.fst h
    exact ⟨satellite', hget, .inr ⟨by simp, rfl⟩⟩
  | cons first ids ih =>
    rw [initializeEach] at h
    cases hfirst : satellites.get? first with
    | none =>
      rw [hfirst] at h
      obtain ⟨satellite, hbefore, hor⟩ := ih h
      refine ⟨satellite, hbefore, hor.imp_right fun ⟨hid, heq⟩ => ⟨?_, heq⟩⟩
      rw [List.mem_cons, not_or]
      refine ⟨?_, hid⟩
      rintro rfl
      rw [hfirst] at hbefore
      contradiction
    | some satellite =>
      rw [hfirst] at h
      simp only [Satellite.initializeConstants] at h
      cases hconstants : sgp4.fromElements satellite.elements with
      | error e => simp [hconstants] at h
      | ok constants =>
        simp only [hconstants] at h
        obtain ⟨before, hbefore, hor⟩ := ih h
        rw [HashMap.get?_insert] at hbefore
        by_cases hid : id = first
        · rw [if_pos hid] at hbefore
          obtain rfl := Option.some.inj hbefore
          refine ⟨satellite, hid ▸ hfirst, .inl ?_⟩
          rcases hor with hinit | ⟨-, rfl⟩
          · exact hinit
          · exact ⟨constants, hconstants, rfl⟩
        · rw [if_neg hid] at hbefore
          refine ⟨before, hbefore, hor.imp_right fun ⟨hids, heq⟩ => ⟨?_, heq⟩⟩
          rw [List.mem_cons, not_or]
          exact ⟨hid, hids⟩

theorem initialized_of_initializeAll {c c' : Constellation sgp4} {ord : IterOrder SatelliteId}
    (hinit : c.initializeAll ord = (c', .ok ())) (id : SatelliteId) (satellite : Satellite sgp4)
    (hget : c'.satellites.get? id = some satellite) : satellite.Initialized := by
  have heach : initializeEach (ord.order c.satellites.keys) c.satellites =
      (c'.satellites, .ok ()) := by
    unfold Constellation.initializeAll at hinit
    rw [Prod.mk.injEq] at hinit
    exact Prod.ext (by rw [← hinit.1]) hinit.2
  obtain ⟨before, hbefore, hinitialized | ⟨hid, -⟩⟩ := initializeEach_ok heach id satellite hget
  · exact hinitialized
  · exact absurd ((IterOrder.mem_order ord).mpr (HashMap.mem_keys.mpr ⟨before, hbefore⟩)) hid

namespace Session

theorem current_start {c : Constellation sgp4}
    (h : ∀ id satellite, c.satellites.get? id = some satellite → satellite.Initialized) :
    (start c).Current := by
  intro id satellite hget
  obtain ⟨constants, hconstants, hstored⟩ := h id satellite hget
  refine ⟨⟨satellite.elements, satellite.tleEpoch⟩, ?_, rfl, rfl, fun constants' hconstants' => ?_⟩
  · show (c.satellites.get? id).map _ = _
    rw [show c.satellites.get? id = some satellite from hget]
    rfl
  · rw [hstored] at hconstants'
    rw [← Option.some.inj hconstants']
    exact hconstants

theorem ready_start {c : Constellation sgp4}
    (h : ∀ id satellite, c.satellites.get? id = some satellite → satellite.Initialized) :
    (start c).Ready := by
  intro id satellite hget
  obtain ⟨constants, -, hstored⟩ := h id satellite hget
  rw [hstored]
  rfl

/-- An initialised constellation serves throughout a run of refreshes exactly when none of them
fetches elements that can be read. -/
theorem serves_iff_nothingFetched (hpropagate : ∀ constants minutes,
    ∃ state, sgp4.propagate constants minutes = .ok state) (c c' : Constellation sgp4)
    (ord : IterOrder SatelliteId) (hinit : c.initializeAll ord = (c', .ok ()))
    (calls : List (RefreshCall sgp4)) :
    (∀ n, (run step (start c') (calls.take n)).Serves) ↔
      Along step NothingFetched (start c') calls := by
  have hinitialized := initialized_of_initializeAll hinit
  refine Iff.trans (forall_congr' fun n => serves_iff_ready hpropagate ?_)
    (along_iff_invariant (I := Ready) (fun s call h => ready_step_iff h call)
      (ready_start hinitialized))
  exact run_preserves (I := Current) (fun s call h => current_step h call)
    (current_start hinitialized) _

end Session

/-! ### One satellite, two days later -/

def issLine1 : String := "1 25544U 98067A   20194.88612269 -.00002218  00000-0 -31515-4 0  9992"

def issLine2 : String := "2 25544  51.6461 221.2784 0001413  89.1723 280.4612 15.49507896236008"

/-- The twelfth of July 2020. -/
def issEpoch : DateTime := 1594588561000416000

/-- A library that knows one set of elements. -/
def oneSet : Sgp4 where
  Elements := DateTime
  Constants := DateTime
  fromTle _ line1 line2 :=
    if line1 = issLine1 ∧ line2 = issLine2 then .ok issEpoch else .error "The line is not a TLE"
  datetime epoch := epoch
  fromElements epoch := .ok epoch
  propagate _ _ := .ok (![6796, 0, 0], ![0, 4.75, 6.01])

def iss (constants : Option DateTime) (source : String) : Satellite oneSet :=
  { id := "iss", name := "ISS", noradId := 25544, elements := issEpoch, tleEpoch := issEpoch
    constants, source }

def stations (constants : Option DateTime) (source : String) (updatedAt : DateTime) :
    Constellation oneSet :=
  { name := "stations", satellites := (∅ : HashMap _ _).insert "iss" (iss constants source)
    updatedAt }

/-- A refresh of what is older than a day, two days after the epoch. -/
def twoDaysLater : RefreshCall oneSet :=
  { ord := .stored _, fetchFn := fun _ => .ok (issLine1, issLine2, "Space-Track")
    maxAgeHours := 24, clock := fun _ => issEpoch + Duration.hours 48
    now := issEpoch + Duration.hours 48 }

theorem initializeAll_stations : (stations none "Celestrak" 0).initializeAll (.stored _) =
    (stations (some issEpoch) "Celestrak" 0, .ok ()) := rfl

/-- After a refresh that succeeds the constellation is not propagated any more. -/
theorem refresh_stops_propagation :
    (stations none "Celestrak" 0).initializeAll (.stored _) =
      (stations (some issEpoch) "Celestrak" 0, .ok ()) ∧
    ∀ ord time, ((stations (some issEpoch) "Celestrak" 0).batchRefresh twoDaysLater.ord
      twoDaysLater.fetchFn twoDaysLater.maxAgeHours twoDaysLater.clock
      twoDaysLater.now).propagate ord time =
        .error (.tracking "SGP4 constants not initialized") := by
  refine ⟨initializeAll_stations, fun ord time => ?_⟩
  have hrefreshed : (stations (some issEpoch) "Celestrak" 0).batchRefresh twoDaysLater.ord
      twoDaysLater.fetchFn twoDaysLater.maxAgeHours twoDaysLater.clock twoDaysLater.now =
        stations none "Space-Track" twoDaysLater.now := rfl
  rw [hrefreshed]
  have hentries : ord.order (stations none "Space-Track" twoDaysLater.now).satellites.entries =
      [("iss", iss none "Space-Track")] := List.perm_singleton.mp (ord.perm _)
  unfold Constellation.propagate
  rw [hentries]
  rfl

theorem serves_iff_nothingFetched_iss :
    (∀ n, (run Session.step (Session.start (stations (some issEpoch) "Celestrak" 0))
      ([twoDaysLater].take n)).Serves) ↔
      Along Session.step NothingFetched (Session.start (stations (some issEpoch) "Celestrak" 0))
        [twoDaysLater] :=
  Session.serves_iff_nothingFetched (fun _ _ => ⟨_, rfl⟩) (stations none "Celestrak" 0)
    (stations (some issEpoch) "Celestrak" 0) (.stored _) initializeAll_stations [twoDaysLater]

end

end GroundCore.Constellation
