import GroundCore.Lib.HashMap
import GroundCore.Tracking.Covariance

/-! The refiner of orbital states, which keeps a filter for each satellite.  A filter sees the calls
for its own satellite only, and its covariance stays positive definite: the process noise that a new
filter starts with leaves no direction without uncertainty. -/

namespace GroundCore.Tracking

open Matrix Lib

noncomputable section

structure UkfRefiner where
  states : HashMap String UkfState
  /-- Latitude and longitude in degrees, altitude in metres. -/
  stationLat : ℝ
  stationLon : ℝ
  stationAlt : ℝ
  carrierHz : ℝ

/-- The position is the first half of the state, and the velocity the second. -/
def UkfState.toOrbitalState (s : UkfState) : OrbitalState :=
  { position := fun i => s.state (Fin.castAdd 3 i)
    velocity := fun i => s.state (Fin.natAdd 3 i)
    time := s.time }

/-- The filter brought to the time of an observation and updated by it. -/
def UkfState.refine (cholesky : Cholesky) (r : UkfRefiner) (observedDoppler : ℕ) (time : DateTime)
    (s : UkfState) : UkfState :=
  let dt : ℝ := (Int.tdiv (time - s.time) (Duration.milliseconds 1) : ℤ) / 1000.0
  let predicted := open Classical in
    if 0 < dt then { s.predict cholesky dt with time } else s
  let stationEci := stationToEci r.stationLat r.stationLon r.stationAlt time
  predicted.updateWithDopplerMeasurement cholesky observedDoppler stationEci r.carrierHz

namespace UkfRefiner

def new (stationLat stationLon stationAlt : ℝ) : UkfRefiner :=
  { states := ∅, stationLat, stationLon, stationAlt, carrierHz := 437500000.0 }

def withCarrierHz (r : UkfRefiner) (hz : ℝ) : UkfRefiner := { r with carrierHz := hz }

def initializeState (r : UkfRefiner) (satelliteId : String) (state : OrbitalState) : UkfRefiner :=
  { r with states := r.states.insert satelliteId (.fromOrbitalState state) }

def refineWithObservation (cholesky : Cholesky) (r : UkfRefiner) (satelliteId : String)
    (observedDoppler _predictedDoppler : ℕ) (time : DateTime) : UkfRefiner × Result Unit :=
  match r.states.get? satelliteId with
  | none =>
    (r, .error (.tracking s!"Satellite {satelliteId} not initialised in UKF"))
  | some ukfState =>
    ({ r with
      states := r.states.insert satelliteId (ukfState.refine cholesky r observedDoppler time) },
      .ok ())

def getRefinedState (r : UkfRefiner) (satelliteId : String) : Option OrbitalState :=
  (r.states.get? satelliteId).map (·.toOrbitalState)

def predictDoppler (r : UkfRefiner) (satelliteId : String) (time : DateTime) : Option ℝ :=
  (r.states.get? satelliteId).map fun ukfState =>
    let stationEci := stationToEci r.stationLat r.stationLon r.stationAlt time
    dopplerMeasurement ukfState.state stationEci r.carrierHz

end UkfRefiner

inductive RefinerCall
  | initializeState (satelliteId : String) (state : OrbitalState)
  | refineWithObservation (satelliteId : String) (observedDoppler predictedDoppler : ℕ)
      (time : DateTime)

namespace UkfRefiner

variable (cholesky : Cholesky)

def step (r : UkfRefiner) : RefinerCall → UkfRefiner
  | .initializeState satelliteId state => r.initializeState satelliteId state
  | .refineWithObservation satelliteId observedDoppler predictedDoppler time =>
    (r.refineWithObservation cholesky satelliteId observedDoppler predictedDoppler time).1

/-- A single filter under the calls for its satellite. -/
def filterOf (r : UkfRefiner) (satelliteId : String) (held : Option UkfState) :
    List RefinerCall → Option UkfState
  | [] => held
  | .initializeState id state :: calls =>
    filterOf r satelliteId (if satelliteId = id then some (.fromOrbitalState state) else held) calls
  | .refineWithObservation id observedDoppler _ time :: calls =>
    filterOf r satelliteId
      (if satelliteId = id then held.map (·.refine cholesky r observedDoppler time) else held) calls

end UkfRefiner

/-! ### The filters of a run -/

/-- A state that the filter can work on, with process noise in every direction. -/
structure Noisy (s : UkfState) : Prop where
  proper : Proper s
  processNoise : s.processNoise.PosDef

variable {cholesky : Cholesky} {s : UkfState}

theorem noisy_fromOrbitalState (state : OrbitalState) : Noisy (.fromOrbitalState state) :=
  ⟨(proper_fromOrbitalState state).1, (proper_fromOrbitalState state).2⟩

theorem Noisy.predict (hs : Noisy s) {dt : ℝ} (hdt : 0 < dt) (time : DateTime) :
    Noisy { s.predict cholesky dt with time } := by
  have hexcites : Excites cholesky s (.predict (fun x => rk4Propagate x dt) dt) :=
    excites_of_processNoise hs.processNoise _ hdt
  have hcovariance := (posDef_predictWith hs.proper.processNoise _ hdt.le).mpr hexcites
  exact ⟨⟨hcovariance, hs.proper.processNoise, hs.proper.measurementNoise⟩, hs.processNoise⟩

theorem Noisy.refine (hfactors : Factors cholesky) (hs : Noisy s) (r : UkfRefiner)
    (observedDoppler : ℕ) (time : DateTime) :
    Noisy (s.refine cholesky r observedDoppler time) := by
  have hupdate : ∀ t : UkfState, Noisy t → ∀ measure observed,
      Noisy (t.updateWith cholesky measure observed) := by
    intro t ht measure observed
    exact ⟨⟨posDef_updateWith hfactors ht.proper measure observed, ht.proper.processNoise,
      ht.proper.measurementNoise⟩, ht.processNoise⟩
  unfold UkfState.refine
  dsimp only
  split
  · next hdt => exact hupdate _ (hs.predict hdt time) _ _
  · exact hupdate _ hs _ _

namespace UkfRefiner

theorem filterOf_noisy (hfactors : Factors cholesky) (r : UkfRefiner) (satelliteId : String)
    {held : Option UkfState} (hheld : ∀ s ∈ held, Noisy s) (calls : List RefinerCall) :
    ∀ s ∈ filterOf cholesky r satelliteId held calls, Noisy s := by
  induction calls generalizing held with
  | nil => exact hheld
  | cons call calls ih =>
    cases call with
    | initializeState id state =>
      refine ih fun s hs => ?_
      split at hs
      · rw [← Option.mem_some.mp hs]
        exact noisy_fromOrbitalState state
      · exact hheld s hs
    | refineWithObservation id observedDoppler predictedDoppler time =>
      refine ih fun s hs => ?_
      split at hs
      · obtain ⟨t, ht, rfl⟩ := Option.mem_map.mp hs
        exact (hheld t ht).refine hfactors r observedDoppler time
      · exact hheld s hs

/-- The station and the carrier are the same. -/
structure SameStation (r q : UkfRefiner) : Prop where
  stationLat : q.stationLat = r.stationLat
  stationLon : q.stationLon = r.stationLon
  stationAlt : q.stationAlt = r.stationAlt
  carrierHz : q.carrierHz = r.carrierHz

theorem SameStation.refine {r q : UkfRefiner} (h : SameStation r q) (observedDoppler : ℕ)
    (time : DateTime) :
    s.refine cholesky q observedDoppler time = s.refine cholesky r observedDoppler time := by
  unfold UkfState.refine
  rw [h.stationLat, h.stationLon, h.stationAlt, h.carrierHz]

theorem SameStation.step {r q : UkfRefiner} (h : SameStation r q) (call : RefinerCall) :
    SameStation r (q.step cholesky call) := by
  cases call with
  | initializeState id state => exact ⟨h.1, h.2, h.3, h.4⟩
  | refineWithObservation id observedDoppler predictedDoppler time =>
    change SameStation r
      (q.refineWithObservation cholesky id observedDoppler predictedDoppler time).1
    unfold refineWithObservation
    cases q.states.get? id with
    | none => exact h
    | some ukfState => exact ⟨h.1, h.2, h.3, h.4⟩

theorem get?_run {r q : UkfRefiner} (h : SameStation r q) (satelliteId : String)
    (calls : List RefinerCall) :
    (run (step cholesky) q calls).states.get? satelliteId =
      filterOf cholesky r satelliteId (q.states.get? satelliteId) calls := by
  induction calls generalizing q with
  | nil => rfl
  | cons call calls ih =>
    rw [run_cons, ih (h.step call)]
    cases call with
    | initializeState id state =>
      rw [filterOf]
      congr 1
      exact HashMap.get?_insert _ _ _ _
    | refineWithObservation id observedDoppler predictedDoppler time =>
      rw [filterOf]
      congr 1
      change (q.refineWithObservation cholesky id observedDoppler predictedDoppler
        time).1.states.get? satelliteId = _
      unfold refineWithObservation
      cases hget : q.states.get? id with
      | none =>
        by_cases hid : satelliteId = id
        · rw [if_pos hid, hid, hget, Option.map_none]
        · rw [if_neg hid]
      | some ukfState =>
        by_cases hid : satelliteId = id
        · simp [hid, hget, h.refine]
        · simp [hid]

/-- After any calls the refiner holds for each satellite what a filter of its own would be in after
the satellite's calls alone, and the covariance of every filter is positive definite. -/
theorem states_of_run (hfactors : Factors cholesky) (r : UkfRefiner) (hnew : r.states = ∅)
    (calls : List RefinerCall) (satelliteId : String) :
    (run (step cholesky) r calls).states.get? satelliteId =
        filterOf cholesky r satelliteId none calls ∧
      ∀ s, (run (step cholesky) r calls).states.get? satelliteId = some s →
        s.covariance.PosDef := by
  have hget : (run (step cholesky) r calls).states.get? satelliteId =
      filterOf cholesky r satelliteId none calls := by
    rw [get?_run ⟨rfl, rfl, rfl, rfl⟩, hnew, HashMap.get?_empty]
  refine ⟨hget, fun s hs => ?_⟩
  rw [hget] at hs
  exact (filterOf_noisy hfactors r satelliteId (by simp) calls s hs).proper.covariance

/-- The observation of one satellite refines its filter, as if there were no other satellite. -/
theorem states_overEquator :
    let r := UkfRefiner.new 0 0 0
    let calls : List RefinerCall := [.initializeState "A" overEquator,
      .initializeState "B" overEquator, .refineWithObservation "A" 437510000 437500000 0,
      .refineWithObservation "C" 437510000 437500000 0]
    let refined := (UkfState.fromOrbitalState overEquator).refine ldlCholesky r 437510000 0
    (run (step ldlCholesky) r calls).states.get? "A" = some refined ∧
      refined.covariance.PosDef := by
  intro r calls refined
  obtain ⟨hget, hposDef⟩ := states_of_run factors_ldlCholesky r rfl calls "A"
  have hrefined : filterOf ldlCholesky r "A" none calls = some refined := by
    simp [calls, filterOf, refined]
  rw [hrefined] at hget
  exact ⟨hget, hposDef refined hget⟩

end UkfRefiner

end

end GroundCore.Tracking
