import GroundCore.Lib.Angles
import GroundCore.Lib.NanFloat
import GroundCore.Oisl.Mission.PlanTasks

/-! Which ground station is chosen for a downlink.  A station counts as available when one of its
intervals meets the window, and the angle that is scored as its elevation is the one between the
station and the point below the satellite, so a station scores higher the farther away it is. -/

namespace GroundCore.Oisl.Mission

open Lib RankedFloat

variable {F64 F32 : Type}

/-- The great-circle separation of two places, given in degrees. -/
noncomputable def separation (below place : ℚ × ℚ) : ℝ :=
  let lat := Angles.toRadians below.1
  let placeLat := Angles.toRadians place.1
  let lonDiff := Angles.toRadians (below.2 - place.2 : ℚ)
  Real.arccos (Real.sin lat * Real.sin placeLat + Real.cos lat * Real.cos placeLat *
    Real.cos lonDiff)

section Stations

variable [TrigOps F64 F32]

namespace GroundStationState

variable (station other : GroundStationState F64) (window : TimeWindow)

/-- What the loop looks at: an interval that meets the window, and not over 80 percent of clouds. -/
def Considered : Prop :=
  (∃ avail ∈ station.availability, avail.overlaps window = true) ∧
    FloatOps.lt (FloatOps.lit 80) station.weatherConditions.cloudCoverPercent = false

/-- An interval that covers the window, and at most 80 percent of clouds. -/
def Eligible : Prop :=
  (∃ avail ∈ station.availability, avail.start ≤ window.start ∧ window.end ≤ avail.end) ∧
    FloatOps.le station.weatherConditions.cloudCoverPercent (FloatOps.lit 80) = true

/-- No more clouds than over another station. -/
def AsClear : Prop :=
  FloatOps.le station.weatherConditions.cloudCoverPercent
    other.weatherConditions.cloudCoverPercent = true

instance : Decidable (station.AsClear other) := inferInstanceAs (Decidable (_ = true))

variable (orbPos : OrbitalPosition F64)

/-- The score of a station for a satellite. -/
def score : F64 :=
  ConstellationState.calculateGeometryScore orbPos station.location station.weatherConditions

/-- A score that the loop can take. -/
def Scores : Prop :=
  station.Considered window ∧ FloatOps.lt (FloatOps.lit 0) (station.score orbPos) = true

variable [RankedFloat F64 F32]

/-- Nearer to the point below the satellite than another station. -/
def Nearer : Prop :=
  ∃ below place otherPlace : ℚ × ℚ, Stands orbPos.latitude below.1 ∧
    Stands orbPos.longitude below.2 ∧ Stands station.location.1 place.1 ∧
    Stands station.location.2 place.2 ∧ Stands other.location.1 otherPlace.1 ∧
    Stands other.location.2 otherPlace.2 ∧ separation below place < separation below otherPlace

end GroundStationState

theorem betterStation_of_not_considered {satState : SatelliteState F64} {window : TimeWindow}
    {entry : AssetId × GroundStationState F64} (h : ¬ entry.2.Considered window)
    (best : Option AssetId × F64) :
    ConstellationState.betterStation satState window best entry = best := by
  unfold ConstellationState.betterStation
  dsimp only
  split
  · rfl
  · next havail =>
    split
    · rfl
    · next hclouds =>
      refine absurd ⟨?_, Bool.not_eq_true _ ▸ hclouds⟩ h
      simpa using havail

theorem betterStation_of_considered {satState : SatelliteState F64} {window : TimeWindow}
    {entry : AssetId × GroundStationState F64} (h : entry.2.Considered window)
    (best : Option AssetId × F64) :
    ConstellationState.betterStation satState window best entry =
      if FloatOps.lt best.2 (entry.2.score satState.orbitalPosition) then
        (some entry.1, entry.2.score satState.orbitalPosition)
      else best := by
  have havail : (!entry.2.availability.any fun avail => avail.overlaps window) = false := by
    simpa using h.1
  unfold ConstellationState.betterStation
  dsimp only
  rw [havail, h.2]
  rfl

/-- The station with the greatest score among those looked at, or none when none has a positive
one. -/
structure Best (satState : SatelliteState F64) (window : TimeWindow)
    (entries : List (AssetId × GroundStationState F64)) (best : Option AssetId × F64) : Prop where
  not_lt : ∀ e ∈ entries, e.2.Considered window →
    FloatOps.lt best.2 (e.2.score satState.orbitalPosition) = false
  chosen : best = (none, FloatOps.lit 0) ∨ ∃ e ∈ entries,
    e.2.Scores window satState.orbitalPosition ∧
      best = (some e.1, e.2.score satState.orbitalPosition)

variable {satState : SatelliteState F64} {window : TimeWindow}
  {entries : List (AssetId × GroundStationState F64)} {best : Option AssetId × F64}
  {e : AssetId × GroundStationState F64}

theorem Best.append_of_not_considered (h : Best satState window entries best)
    (he : ¬ e.2.Considered window) : Best satState window (entries ++ [e]) best := by
  refine ⟨fun e' he' hconsidered => ?_, ?_⟩
  · rcases List.mem_append.mp he' with he' | he'
    · exact h.not_lt e' he' hconsidered
    · exact absurd (List.mem_singleton.mp he' ▸ hconsidered) he
  · rcases h.chosen with hnone | ⟨e', he', hchosen⟩
    · exact .inl hnone
    · exact .inr ⟨e', List.mem_append_left _ he', hchosen⟩

variable [RankedFloat F64 F32]

theorem Best.pos_of_lt (h : Best satState window entries best) {score : F64}
    (hlt : FloatOps.lt best.2 score = true) : FloatOps.lt (FloatOps.lit 0) score = true := by
  rcases h.chosen with rfl | ⟨e', -, hscores, rfl⟩
  · exact hlt
  · exact lt_trans hscores.2 hlt

/-- A station that is looked at is taken when its score is greater. -/
theorem Best.append_of_considered (h : Best satState window entries best)
    (he : e.2.Considered window) :
    Best satState window (entries ++ [e])
      (ConstellationState.betterStation satState window best e) := by
  rw [betterStation_of_considered he]
  cases hlt : FloatOps.lt best.2 (e.2.score satState.orbitalPosition) with
  | true =>
    simp only [if_true]
    refine ⟨fun e' he' hconsidered => ?_, .inr ⟨e, by simp, ⟨he, h.pos_of_lt hlt⟩, rfl⟩⟩
    rcases List.mem_append.mp he' with he' | he'
    · -- What is above the new score is above the old one.
      refine Bool.eq_false_iff.mpr fun habove => ?_
      exact Bool.eq_false_iff.mp (h.not_lt e' he' hconsidered) (lt_trans hlt habove)
    · rw [List.mem_singleton.mp he']
      exact lt_irrefl _
  | false =>
    simp only [Bool.false_eq_true, if_false]
    refine ⟨fun e' he' hconsidered => ?_, ?_⟩
    · rcases List.mem_append.mp he' with he' | he'
      · exact h.not_lt e' he' hconsidered
      · rwa [List.mem_singleton.mp he']
    · rcases h.chosen with hnone | ⟨e', he', hchosen⟩
      · exact .inl hnone
      · exact .inr ⟨e', List.mem_append_left _ he', hchosen⟩

theorem best_foldl (satState : SatelliteState F64) (window : TimeWindow)
    (entries : List (AssetId × GroundStationState F64)) :
    Best satState window entries (entries.foldl
      (ConstellationState.betterStation satState window) (none, FloatOps.lit 0)) := by
  induction entries using List.reverseRecOn with
  | nil => exact ⟨nofun, .inl rfl⟩
  | append_singleton entries e ih =>
    rw [List.foldl_append, List.foldl_cons, List.foldl_nil]
    by_cases he : e.2.Considered window
    · exact ih.append_of_considered he
    · rw [betterStation_of_not_considered he]
      exact ih.append_of_not_considered he

omit [RankedFloat F64 F32] in
/-- Of the stations with the greatest score the first in the order is chosen. -/
theorem foldl_betterStation_of_most {rest : List (AssetId × GroundStationState F64)}
    (he : e.2.Scores window satState.orbitalPosition)
    (hmost : ∀ e' ∈ rest, e'.2.Considered window →
      FloatOps.lt (e.2.score satState.orbitalPosition) (e'.2.score satState.orbitalPosition) =
        false) :
    ((e :: rest).foldl (ConstellationState.betterStation satState window)
      (none, FloatOps.lit 0)).1 = some e.1 := by
  have hfirst : ConstellationState.betterStation satState window (none, FloatOps.lit 0) e =
      (some e.1, e.2.score satState.orbitalPosition) := by
    rw [betterStation_of_considered he.1]
    simp only [he.2, if_true]
  rw [List.foldl_cons, hfirst]
  induction rest with
  | nil => rfl
  | cons e' rest ih =>
    obtain ⟨hle, hrest⟩ := List.forall_mem_cons.mp hmost
    have hstay : ConstellationState.betterStation satState window
        (some e.1, e.2.score satState.orbitalPosition) e' =
          (some e.1, e.2.score satState.orbitalPosition) := by
      by_cases he' : e'.2.Considered window
      · rw [betterStation_of_considered he']
        simp only [hle he', Bool.false_eq_true, if_false]
      · exact betterStation_of_not_considered he' _
    rw [List.foldl_cons, hstay]
    exact ih hrest

end Stations

/-- No station is chosen when none is eligible, and otherwise an eligible one: none that is nearer
is eligible under no more clouds. -/
structure ChoosesWell [TrigOps F64 F32] [RankedFloat F64 F32]
    (stations : HashMap AssetId (GroundStationState F64)) (orbPos : OrbitalPosition F64)
    (window : TimeWindow) (chosen : Option AssetId) : Prop where
  none_iff : chosen = none ↔ ¬ ∃ id station, stations.get? id = some station ∧
    station.Eligible window
  eligible : ∀ id, chosen = some id → ∃ station, stations.get? id = some station ∧
    station.Eligible window ∧ ∀ id' other, stations.get? id' = some other →
      other.Eligible window → other.AsClear station → ¬ other.Nearer station orbPos

/-- Where the stations with the greatest positive score are near enough and available for the whole
window, and some station scores when one is available for the whole window. -/
structure ScoresAgree [TrigOps F64 F32] [RankedFloat F64 F32]
    (stations : HashMap AssetId (GroundStationState F64)) (orbPos : OrbitalPosition F64)
    (window : TimeWindow) : Prop where
  most : ∀ id station, stations.get? id = some station → station.Scores window orbPos →
    (∀ id' other, stations.get? id' = some other → other.Considered window →
      FloatOps.lt (station.score orbPos) (other.score orbPos) = false) →
    station.Eligible window ∧ ∀ id' other, stations.get? id' = some other →
      other.Eligible window → other.AsClear station → ¬ other.Nearer station orbPos
  met : ∀ id station, stations.get? id = some station → station.Eligible window →
    ∃ id' other, stations.get? id' = some other ∧ other.Scores window orbPos

section Choice

variable [TrigOps F64 F32] {constellation : ConstellationState F64} {satellite : SatelliteId}
  {satState : SatelliteState F64} {window : TimeWindow}

theorem findOptimalGroundStation_eq (h : constellation.satellites.get? satellite = some satState)
    (order : ConstellationOrder F64) :
    constellation.findOptimalGroundStation order satellite window =
      ((order.groundStations.order constellation.groundStations.entries).foldl
        (ConstellationState.betterStation satState window) (none, FloatOps.lit 0)).1 := by
  rw [ConstellationState.findOptimalGroundStation, h]

theorem mem_order_iff (order : ConstellationOrder F64) (e : AssetId × GroundStationState F64) :
    e ∈ order.groundStations.order constellation.groundStations.entries ↔
      constellation.groundStations.get? e.1 = some e.2 := by
  rw [IterOrder.mem_order, ← HashMap.mem_entries]

/-- A station with the greatest score is chosen in some order: in one that starts with it. -/
theorem exists_order_choosing (h : constellation.satellites.get? satellite = some satState)
    {id : AssetId} {station : GroundStationState F64}
    (hget : constellation.groundStations.get? id = some station)
    (hscores : station.Scores window satState.orbitalPosition)
    (hmost : ∀ id' other, constellation.groundStations.get? id' = some other →
      other.Considered window → FloatOps.lt (station.score satState.orbitalPosition)
        (other.score satState.orbitalPosition) = false) :
    ∃ order, constellation.findOptimalGroundStation order satellite window = some id := by
  classical
  obtain ⟨rest, hfirst, hrest⟩ := IterOrder.order_startingWith (HashMap.mem_entries.mpr hget)
  refine ⟨⟨.stored _, .stored _, .startingWith (id, station)⟩, ?_⟩
  rw [findOptimalGroundStation_eq h, hfirst]
  refine foldl_betterStation_of_most hscores fun e he hconsidered => ?_
  exact hmost e.1 e.2 (HashMap.mem_entries.mp (hrest he)) hconsidered

variable [RankedFloat F64 F32]

theorem scoresAgree_of_choosesWell (h : constellation.satellites.get? satellite = some satState)
    (hwell : ∀ order, ChoosesWell constellation.groundStations satState.orbitalPosition window
      (constellation.findOptimalGroundStation order satellite window)) :
    ScoresAgree constellation.groundStations satState.orbitalPosition window := by
  constructor
  · intro id station hget hscores hmost
    obtain ⟨order, hchosen⟩ := exists_order_choosing h hget hscores hmost
    obtain ⟨station', hget', heligible, hnear⟩ := (hwell order).eligible id hchosen
    obtain rfl : station' = station := Option.some.inj (hget'.symm.trans hget)
    exact ⟨heligible, hnear⟩
  · intro id station hget heligible
    by_contra hnone
    let order : ConstellationOrder F64 := ⟨.stored _, .stored _, .stored _⟩
    rcases (best_foldl satState window _).chosen with hchosen | ⟨e, he, hscores, -⟩
    · have hchosen := (findOptimalGroundStation_eq h order).trans (congrArg Prod.fst hchosen)
      exact (hwell order).none_iff.mp hchosen ⟨id, station, hget, heligible⟩
    · exact hnone ⟨e.1, e.2, (mem_order_iff order e).mp he, hscores⟩

theorem choosesWell_of_scoresAgree (h : constellation.satellites.get? satellite = some satState)
    (hagree : ScoresAgree constellation.groundStations satState.orbitalPosition window)
    (order : ConstellationOrder F64) :
    ChoosesWell constellation.groundStations satState.orbitalPosition window
      (constellation.findOptimalGroundStation order satellite window) := by
  rw [findOptimalGroundStation_eq h]
  have hbest := best_foldl satState window
    (order.groundStations.order constellation.groundStations.entries)
  rcases hbest.chosen with hnone | ⟨e, he, hscores, hchosen⟩
  · have hzero := hbest.not_lt
    rw [hnone] at hzero ⊢
    refine ⟨iff_of_true rfl ?_, nofun⟩
    rintro ⟨id, station, hget, heligible⟩
    obtain ⟨id', other, hother, hconsidered, hpos⟩ := hagree.met id station hget heligible
    have hle := hzero (id', other) ((mem_order_iff order (id', other)).mpr hother) hconsidered
    exact Bool.eq_false_iff.mp hle hpos
  · have hget := (mem_order_iff order e).mp he
    have hmost := hbest.not_lt
    rw [hchosen] at hmost ⊢
    have hgood := hagree.most e.1 e.2 hget hscores fun id' other hother hconsidered =>
      hmost (id', other) ((mem_order_iff order (id', other)).mpr hother) hconsidered
    refine ⟨iff_of_false nofun fun hnone => hnone ⟨e.1, e.2, hget, hgood.1⟩, ?_⟩
    intro id hid
    obtain rfl := Option.some.inj hid
    exact ⟨e.2, hget, hgood⟩

end Choice

theorem choosesWell_iff [TrigOps F64 F32] [RankedFloat F64 F32]
    (constellation : ConstellationState F64) {satellite : SatelliteId}
    {satState : SatelliteState F64} (h : constellation.satellites.get? satellite = some satState)
    (window : TimeWindow) :
    (∀ order, ChoosesWell constellation.groundStations satState.orbitalPosition window
        (constellation.findOptimalGroundStation order satellite window)) ↔
      ScoresAgree constellation.groundStations satState.orbitalPosition window :=
  ⟨scoresAgree_of_choosesWell h, choosesWell_of_scoresAgree h⟩

/-- Exact arithmetic, with functions of an angle that have the values of `f64` for an angle of zero
and for a right angle. -/
@[reducible] def rightAngle : TrigOps ℚ ℚ :=
  .exact (fun x => if x = 0 then 1 else 4967757600021511 / 2 ^ 106)
    (fun x => if x = 0 then 0 else 1) (fun x => if x = 1 then 0 else FloatOps.f64Pi / 2)

/-- A station that is available for an hour. -/
def stationAt (name : AssetId) (longitude clouds : ℚ) : GroundStationState ℚ :=
  ⟨name, (0, longitude), [⟨0, Duration.hours 1⟩], ⟨clouds⟩⟩

/-- A satellite over the place from which the longitudes count. -/
def constellationOf (groundStations : HashMap AssetId (GroundStationState ℚ)) :
    ConstellationState ℚ :=
  { satellites := (∅ : HashMap SatelliteId (SatelliteState ℚ)).insert "sat-1" ⟨"sat-1", ⟨0, 0⟩, []⟩
    opticalTerminals := ∅
    groundStations }

/-- One station below the satellite under a clear sky, one under a few clouds a quarter of the globe
away, and one under too many clouds. -/
def threeStations : HashMap AssetId (GroundStationState ℚ) :=
  (((∅ : HashMap AssetId (GroundStationState ℚ)).insert "near" (stationAt "near" 0 0)).insert "far"
    (stationAt "far" 90 80)).insert "cloudy" (stationAt "cloudy" 0 90)

theorem near_station_chosen :
    letI := rightAngle
    letI := RankedFloat.exact (fun x => if x = 0 then 1 else 4967757600021511 / 2 ^ 106)
      (fun x => if x = 0 then 0 else 1)
    (constellationOf threeStations).findOptimalGroundStation ⟨.stored _, .stored _, .stored _⟩
        "sat-1" ⟨0, Duration.seconds 600⟩ = some "near" ∧
      ∀ order, ChoosesWell threeStations ⟨0, 0⟩ ⟨0, Duration.seconds 600⟩
        ((constellationOf threeStations).findOptimalGroundStation order "sat-1"
          ⟨0, Duration.seconds 600⟩) := by
  let := rightAngle
  let := RankedFloat.exact (fun x => if x = 0 then 1 else 4967757600021511 / 2 ^ 106)
    (fun x => if x = 0 then 0 else 1)
  have hsat : (constellationOf threeStations).satellites.get? "sat-1" =
      some ⟨"sat-1", ⟨0, 0⟩, []⟩ := rfl
  have hcases : ∀ id station, threeStations.get? id = some station →
      station = stationAt "cloudy" 0 90 ∨ station = stationAt "far" 90 80 ∨
        station = stationAt "near" 0 0 := by
    intro id station hget
    simp only [threeStations, HashMap.get?_insert, HashMap.get?_empty] at hget
    split_ifs at hget
    · exact .inl (Option.some.inj hget).symm
    · exact .inr (.inl (Option.some.inj hget).symm)
    · exact .inr (.inr (Option.some.inj hget).symm)
  have hnear : (stationAt "near" 0 0).Scores ⟨0, Duration.seconds 600⟩ ⟨0, 0⟩ :=
    ⟨⟨⟨_, List.mem_singleton_self _, by decide +kernel⟩, by decide +kernel⟩, by decide +kernel⟩
  refine ⟨by decide +kernel, (choosesWell_iff (constellationOf threeStations) hsat _).mpr
    ⟨fun id station hget hscores hmost => ?_, fun _ _ _ _ => ⟨"near", _, rfl, hnear⟩⟩⟩
  rcases hcases id station hget with rfl | rfl | rfl
  · exact absurd hscores.1.2 (by decide +kernel)
  · exact absurd (hmost "near" _ rfl hnear.1) (by decide +kernel)
  · refine ⟨⟨⟨_, List.mem_singleton_self _, by decide +kernel⟩, by decide +kernel⟩, ?_⟩
    intro id' other hother heligible hclear
    rcases hcases id' other hother with rfl | rfl | rfl
    · exact absurd heligible.2 (by decide +kernel)
    · exact absurd hclear (by decide +kernel)
    · rintro ⟨below, place, otherPlace, -, -, hlat, hlon, hlat', hlon', hlt⟩
      have hplace : place = otherPlace := Prod.ext (hlat.unique hlat') (hlon.unique hlon')
      exact hlt.ne (congrArg (separation below) hplace)

/-- Two stations under a clear sky, one of them below the satellite. -/
def nearAndFar : HashMap AssetId (GroundStationState ℚ) :=
  ((∅ : HashMap AssetId (GroundStationState ℚ)).insert "near" (stationAt "near" 0 0)).insert "far"
    (stationAt "far" 90 0)

/-- The station at a right angle is chosen before the one below the satellite. -/
theorem far_station_chosen :
    letI := rightAngle
    letI := RankedFloat.exact (fun x => if x = 0 then 1 else 4967757600021511 / 2 ^ 106)
      (fun x => if x = 0 then 0 else 1)
    ¬ ∀ order, ChoosesWell nearAndFar ⟨0, 0⟩ ⟨0, Duration.seconds 600⟩
      ((constellationOf nearAndFar).findOptimalGroundStation order "sat-1"
        ⟨0, Duration.seconds 600⟩) := by
  let := rightAngle
  let := RankedFloat.exact (fun x => if x = 0 then 1 else 4967757600021511 / 2 ^ 106)
    (fun x => if x = 0 then 0 else 1)
  intro h
  let order : ConstellationOrder ℚ := ⟨.stored _, .stored _, .stored _⟩
  have hchosen : (constellationOf nearAndFar).findOptimalGroundStation order "sat-1"
      ⟨0, Duration.seconds 600⟩ = some "far" := by
    decide +kernel
  obtain ⟨station, hget, -, hnear⟩ := (h order).eligible "far" hchosen
  obtain rfl : stationAt "far" 90 0 = station := Option.some.inj hget
  have heligible : (stationAt "near" 0 0).Eligible ⟨0, Duration.seconds 600⟩ :=
    ⟨⟨_, List.mem_singleton_self _, by decide +kernel⟩, by decide +kernel⟩
  have hclear : (stationAt "near" 0 0).AsClear (stationAt "far" 90 0) := by decide +kernel
  refine hnear "near" _ rfl heligible hclear
    ⟨(0, 0), (0, 0), (0, 90), rfl, rfl, rfl, rfl, rfl, rfl, ?_⟩
  have hzero : Angles.toRadians 0 = 0 := zero_mul _
  have hright : Real.cos (Angles.toRadians (0 - 90)) = 0 := by
    rw [zero_sub, Angles.toRadians, neg_mul, Real.cos_neg, ← Angles.toRadians,
      Angles.toRadians_ninety, Real.cos_pi_div_two]
  simp only [separation, Rat.cast_sub, Rat.cast_zero, Rat.cast_ofNat, sub_zero, hzero, hright,
    Real.sin_zero, Real.cos_zero, mul_zero, mul_one, zero_add, Real.arccos_one, Real.arccos_zero]
  exact Real.pi_div_two_pos

end GroundCore.Oisl.Mission
