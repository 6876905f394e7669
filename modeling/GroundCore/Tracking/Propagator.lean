import GroundCore.Lib.Run
import GroundCore.Lib.Sgp4
import GroundCore.Tracking.Tle
import GroundCore.Tracking.Ukf

/-! The propagator of the tracking layer.  The maps of elements and of constants are filled
together, so a satellite propagates from the last elements of it that could be loaded.  The range
from a station takes a position in kilometres from a station in metres, and so is never small. -/

namespace GroundCore.Tracking

open Lib Angles Real Matrix

noncomputable section

/-- The orbital state with the epoch that it was propagated from. -/
structure PropagatedState extends OrbitalState where
  tleEpoch : DateTime

/-- The place of a station on the ellipsoid, in metres. -/
def geodeticToEci (lat lon alt : ℝ) (time : DateTime) : Vector3 :=
  let a := 6378137.0
  let e2 := 0.00669437999014
  let latRad := toRadians lat
  let lonRad := toRadians lon
  let theta := gmstRadians time
  let sinLat := sin latRad
  let cosLat := cos latRad
  let sinLon := sin (lonRad + theta)
  let cosLon := cos (lonRad + theta)
  let n := a / √(1.0 - e2 * sinLat * sinLat)
  let x := (n + alt) * cosLat * cosLon
  let y := (n + alt) * cosLat * sinLon
  let z := (n * (1.0 - e2) + alt) * sinLat
  ![x, y, z]

namespace OrbitalState

def rangeFromStation (s : OrbitalState) (stationLat stationLon stationAlt : ℝ) : ℝ :=
  let stationEci := geodeticToEci stationLat stationLon stationAlt s.time
  norm (s.position - stationEci)

def rangeRateFromStation (s : OrbitalState) (stationLat stationLon stationAlt : ℝ) : ℝ :=
  let stationEci := geodeticToEci stationLat stationLon stationAlt s.time
  let relPos := s.position - stationEci
  let relVel := s.velocity
  relPos ⬝ᵥ relVel / norm relPos

end OrbitalState

/-! ### The propagator -/

structure Propagator (sgp4 : Sgp4) where
  elements : HashMap SatelliteId (sgp4.Elements × DateTime)
  constants : HashMap SatelliteId sgp4.Constants

namespace Propagator

variable {sgp4 : Sgp4}

def new : Propagator sgp4 := { elements := ∅, constants := ∅ }

/-- `fromTle` reads elements without a name. -/
def loadTle (fromTle : (line1 line2 : String) → Except String sgp4.Elements)
    (p : Propagator sgp4) (tle : TleData) : Propagator sgp4 × Result Unit :=
  match fromTle tle.line1 tle.line2 with
  | .error e => (p, .error (.tracking s!"SGP4 parse error: {e}"))
  | .ok elements =>
    match sgp4.fromElements elements with
    | .error e => (p, .error (.tracking s!"SGP4 constants error: {e}"))
    | .ok constants =>
      ({ elements := p.elements.insert tle.satelliteId (elements, tle.epoch)
         constants := p.constants.insert tle.satelliteId constants }, .ok ())

/-- The state from the constants, by the whole seconds since the epoch. -/
def propagateFrom (constants : sgp4.Constants) (tleEpoch time : DateTime) : Result PropagatedState :=
  let minutesSinceEpoch : ℝ := (Duration.numSeconds (time - tleEpoch) : ℤ) / 60.0
  match sgp4.propagate constants minutesSinceEpoch with
  | .error e => .error (.tracking s!"SGP4 propagation error: {e}")
  | .ok (position, velocity) => .ok { position, velocity, time, tleEpoch }

def propagate (p : Propagator sgp4) (satelliteId : SatelliteId) (time : DateTime) :
    Result PropagatedState :=
  match p.elements.get? satelliteId with
  | none => .error (.tracking s!"Satellite {satelliteId} not loaded")
  | some (_, tleEpoch) =>
    match p.constants.get? satelliteId with
    | none => .error (.tracking s!"Satellite {satelliteId} constants not cached")
    | some constants => propagateFrom constants tleEpoch time

variable (fromTle : (line1 line2 : String) → Except String sgp4.Elements)

/-- The elements and the constants of a TLE, if it can be loaded. -/
def read (tle : TleData) : Option (sgp4.Elements × sgp4.Constants) :=
  match fromTle tle.line1 tle.line2 with
  | .error _ => none
  | .ok elements =>
    match sgp4.fromElements elements with
    | .error _ => none
    | .ok constants => some (elements, constants)

/-- The constants and the epoch of the last TLE of the satellite that could be loaded. -/
def lastLoaded (satelliteId : SatelliteId) (held : Option (sgp4.Constants × DateTime)) :
    List TleData → Option (sgp4.Constants × DateTime)
  | [] => held
  | tle :: loads =>
    let held := match read fromTle tle with
      | none => held
      | some (_, constants) =>
        if satelliteId = tle.satelliteId then some (constants, tle.epoch) else held
    lastLoaded satelliteId held loads

/-- What the propagator holds of a satellite, where both maps have it. -/
def held (p : Propagator sgp4) (satelliteId : SatelliteId) : Option (sgp4.Constants × DateTime) :=
  match p.elements.get? satelliteId, p.constants.get? satelliteId with
  | some (_, tleEpoch), some constants => some (constants, tleEpoch)
  | _, _ => none

/-- The two maps have the same satellites. -/
def Paired (p : Propagator sgp4) : Prop :=
  ∀ satelliteId, (p.elements.get? satelliteId).isSome = (p.constants.get? satelliteId).isSome

variable {fromTle}

theorem loadTle_eq (p : Propagator sgp4) (tle : TleData) :
    (p.loadTle fromTle tle).1 =
      match read fromTle tle with
      | none => p
      | some (elements, constants) =>
        { elements := p.elements.insert tle.satelliteId (elements, tle.epoch)
          constants := p.constants.insert tle.satelliteId constants } := by
  unfold loadTle read
  cases fromTle tle.line1 tle.line2 with
  | error e => rfl
  | ok elements =>
    cases hconstants : sgp4.fromElements elements with
    | error e => simp [hconstants]
    | ok constants => simp [hconstants]

theorem Paired.loadTle {p : Propagator sgp4} (h : p.Paired) (tle : TleData) :
    (p.loadTle fromTle tle).1.Paired := by
  intro satelliteId
  rw [loadTle_eq]
  cases read fromTle tle with
  | none => exact h satelliteId
  | some loaded =>
    simp only [HashMap.get?_insert]
    split
    · rfl
    · exact h satelliteId

theorem held_loadTle (p : Propagator sgp4) (tle : TleData) (satelliteId : SatelliteId) :
    (p.loadTle fromTle tle).1.held satelliteId =
      match read fromTle tle with
      | none => p.held satelliteId
      | some (_, constants) =>
        if satelliteId = tle.satelliteId then some (constants, tle.epoch)
        else p.held satelliteId := by
  rw [loadTle_eq]
  cases read fromTle tle with
  | none => rfl
  | some loaded =>
    unfold held
    simp only [HashMap.get?_insert]
    by_cases hid : satelliteId = tle.satelliteId
    · simp only [if_pos hid]
    · simp only [if_neg hid]

theorem held_run {p : Propagator sgp4} (h : p.Paired) (loads : List TleData)
    (satelliteId : SatelliteId) :
    let q := run (fun p tle => (p.loadTle fromTle tle).1) p loads
    q.Paired ∧ q.held satelliteId = lastLoaded fromTle satelliteId (p.held satelliteId) loads := by
  induction loads generalizing p with
  | nil => exact ⟨h, rfl⟩
  | cons tle loads ih =>
    obtain ⟨hpaired, hheld⟩ := ih (h.loadTle tle)
    refine ⟨hpaired, hheld.trans ?_⟩
    rw [held_loadTle, lastLoaded]

/-- After any loads, those that fail included, a satellite propagates from the constants and the
epoch of its last TLE that could be loaded; the missing constants are never reported. -/
theorem propagate_of_run (fromTle : (line1 line2 : String) → Except String sgp4.Elements)
    (loads : List TleData) (satelliteId : SatelliteId) (time : DateTime) :
    (run (fun p tle => (loadTle fromTle p tle).1) new loads).propagate satelliteId time =
      match lastLoaded fromTle satelliteId none loads with
      | none => .error (.tracking s!"Satellite {satelliteId} not loaded")
      | some (constants, tleEpoch) => propagateFrom constants tleEpoch time := by
  have hnew : (new : Propagator sgp4).Paired := fun _ => rfl
  have hrun : (run (fun p tle => (loadTle fromTle p tle).1) new loads).Paired ∧
      (run (fun p tle => (loadTle fromTle p tle).1) new loads).held satelliteId =
        lastLoaded fromTle satelliteId none loads := held_run hnew loads satelliteId
  generalize run (fun p tle => (loadTle fromTle p tle).1) new loads = p at hrun ⊢
  obtain ⟨hpaired, hheld⟩ := hrun
  rw [← hheld]
  unfold propagate held
  cases helements : p.elements.get? satelliteId with
  | none => rfl
  | some entry =>
    cases hconstants : p.constants.get? satelliteId with
    | none =>
      have hboth := hpaired satelliteId
      rw [helements, hconstants] at hboth
      contradiction
    | some constants => rfl

end Propagator

/-! ### The range from a station -/

theorem norm_eq (v : Vector3) : norm v = ‖(WithLp.toLp 2 v : EuclideanSpace ℝ (Fin 3))‖ := by
  rw [EuclideanSpace.norm_eq, norm]
  congr 1
  simp [dotProduct, sq]

theorem norm_sub_ge (v w : Vector3) : norm w - norm v ≤ norm (v - w) := by
  simp only [norm_eq, WithLp.toLp_sub]
  rw [norm_sub_rev]
  exact norm_sub_norm_le _ _

/-- The point of the ellipsoid below a place is the farther from the center the nearer it is to the
equator. -/
theorem polar_le {a e2 s c n : ℝ} (he2 : 0 ≤ e2) (hunit : s ^ 2 + c ^ 2 = 1)
    (hn : n ^ 2 * (1 - e2 * s ^ 2) = a ^ 2) :
    a ^ 2 * (1 - e2) ≤ n ^ 2 * c ^ 2 + (n * (1 - e2)) ^ 2 * s ^ 2 := by
  have hexcess : n ^ 2 * c ^ 2 + (n * (1 - e2)) ^ 2 * s ^ 2 - a ^ 2 * (1 - e2) =
      n ^ 2 * e2 * c ^ 2 := by
    rw [← hn]
    linear_combination n ^ 2 * (1 - e2) * hunit
  have hnonneg : 0 ≤ n ^ 2 * e2 * c ^ 2 := by positivity
  linarith

/-- A station that is not below the ellipsoid is at least the polar radius from the center. -/
theorem polarRadius_le_norm (lat lon : ℝ) {alt : ℝ} (halt : 0 ≤ alt) (time : DateTime) :
    6356752 ≤ norm (geodeticToEci lat lon alt time) := by
  obtain ⟨a, ha⟩ : ∃ a : ℝ, a = 6378137.0 := ⟨_, rfl⟩
  obtain ⟨e2, he2⟩ : ∃ e2 : ℝ, e2 = 0.00669437999014 := ⟨_, rfl⟩
  have hone : (1.0 : ℝ) = 1 := by norm_num
  have hlat := sin_sq_add_cos_sq (toRadians lat)
  have hlon := sin_sq_add_cos_sq (toRadians lon + gmstRadians time)
  simp only [norm, geodeticToEci, ← ha, ← he2, hone]
  generalize sin (toRadians lat) = s at *
  generalize cos (toRadians lat) = c at *
  generalize sin (toRadians lon + gmstRadians time) = sinLon at *
  generalize cos (toRadians lon + gmstRadians time) = cosLon at *
  have ha0 : 0 ≤ a := by rw [ha]; norm_num
  have he0 : 0 ≤ e2 := by rw [he2]; norm_num
  have he1 : e2 < 1 := by rw [he2]; norm_num
  have hroot : 0 < 1 - e2 * s * s := by nlinarith [sq_nonneg c, sq_nonneg s]
  have hn2 : (a / √(1 - e2 * s * s)) ^ 2 * (1 - e2 * s ^ 2) = a ^ 2 := by
    rw [div_pow, sq_sqrt hroot.le, sq s, ← mul_assoc, div_mul_cancel₀ _ hroot.ne']
  have hn0 : 0 ≤ a / √(1 - e2 * s * s) := by positivity
  generalize a / √(1 - e2 * s * s) = n at *
  have hdot : ![(n + alt) * c * cosLon, (n + alt) * c * sinLon, (n * (1 - e2) + alt) * s] ⬝ᵥ
      ![(n + alt) * c * cosLon, (n + alt) * c * sinLon, (n * (1 - e2) + alt) * s] =
        (n + alt) ^ 2 * c ^ 2 + (n * (1 - e2) + alt) ^ 2 * s ^ 2 := by
    simp only [dotProduct, Fin.sum_univ_three, Matrix.cons_val_zero, Matrix.cons_val_one,
      Matrix.cons_val]
    linear_combination (n + alt) ^ 2 * c ^ 2 * hlon
  rw [hdot]
  apply le_sqrt_of_sq_le
  have hpolar := polar_le he0 hlat hn2
  have hequator : n ^ 2 ≤ (n + alt) ^ 2 := pow_le_pow_left₀ hn0 (by linarith) 2
  have hpole : (n * (1 - e2)) ^ 2 ≤ (n * (1 - e2) + alt) ^ 2 :=
    pow_le_pow_left₀ (mul_nonneg hn0 (by linarith)) (by linarith) 2
  have hacross := mul_le_mul_of_nonneg_right hequator (sq_nonneg c)
  have halong := mul_le_mul_of_nonneg_right hpole (sq_nonneg s)
  have hradius : (6356752 : ℝ) ^ 2 ≤ a ^ 2 * (1 - e2) := by
    rw [ha, he2]
    norm_num
  linarith

/-- For a station that is not below the ellipsoid, in metres, the range is at least the polar radius
in metres less the length of the position, which SGP4 gives in kilometres. -/
theorem rangeFromStation_ge (s : OrbitalState) (stationLat stationLon : ℝ) {stationAlt : ℝ}
    (halt : 0 ≤ stationAlt) :
    6356752 - norm s.position ≤ s.rangeFromStation stationLat stationLon stationAlt := by
  have hstation := polarRadius_le_norm stationLat stationLon halt s.time
  exact (sub_le_sub_right hstation _).trans (norm_sub_ge _ _)

/-- A satellite 400 km above a station at sea level on the equator. -/
theorem rangeFromStation_overhead :
    let s : OrbitalState := ⟨![6778, 0, 0], 0, 0⟩
    6356752 - norm s.position ≤ s.rangeFromStation 0 0 0 :=
  rangeFromStation_ge _ 0 0 le_rfl

end

end GroundCore.Tracking
