import GroundCore.Constellation.PassSamples

/-! The geometry of a pass.  The station turns with the earth while its axes do not, and the range
of a pass is measured from the center of the earth. -/

namespace GroundCore.Constellation

open Lib Angles Real

noncomputable section

/-- Turned about the axis of the earth. -/
def rotate (angle : ℝ) (v : Vector3) : Vector3 :=
  ![cos angle * v.x - sin angle * v.y, sin angle * v.x + cos angle * v.y, v.z]

def normSq (v : Vector3) : ℝ := v.x ^ 2 + v.y ^ 2 + v.z ^ 2

def norm (v : Vector3) : ℝ := √(normSq v)

theorem normSq_nonneg (v : Vector3) : 0 ≤ normSq v := by
  unfold normSq
  positivity

theorem normSq_rotate (angle : ℝ) (v : Vector3) : normSq (rotate angle v) = normSq v := by
  have h := sin_sq_add_cos_sq angle
  simp only [normSq, rotate, Vector3.x_eq, Vector3.y_eq, Vector3.z_eq, Matrix.cons_val_zero,
    Matrix.cons_val_one, Matrix.cons_val]
  linear_combination (v 0 ^ 2 + v 1 ^ 2) * h

theorem rotate_sub (angle : ℝ) (v w : Vector3) :
    rotate angle (v - w) = rotate angle v - rotate angle w := by
  ext i
  fin_cases i <;> simp [rotate] <;> ring

namespace GroundStation

variable (s : GroundStation)

/-- The component along the axis that the source calls up. -/
def up (v : Vector3) : ℝ :=
  cos s.lat * cos s.lon * v.x + cos s.lat * sin s.lon * v.y + sin s.lat * v.z

theorem normSq_enu (v : Vector3) : normSq (s.enu v) = normSq v := by
  have hlat := sin_sq_add_cos_sq s.lat
  have hlon := sin_sq_add_cos_sq s.lon
  simp only [normSq, enu, Vector3.x_eq, Vector3.y_eq, Vector3.z_eq, Matrix.cons_val_zero,
    Matrix.cons_val_one, Matrix.cons_val]
  linear_combination ((cos s.lon * v 0 + sin s.lon * v 1) ^ 2 + v 2 ^ 2) * hlat +
    (v 0 ^ 2 + v 1 ^ 2) * hlon

/-- The elevation is that of the up component over the length. -/
theorem elevationFromPosition_eq (p : Vector3) (time : DateTime) :
    s.elevationFromPosition p time =
      if norm (p - s.toEci time) = 0 then none
      else some (toDegrees (arcsin (s.up (p - s.toEci time) / norm (p - s.toEci time)))) := by
  have hrange : ∀ v, (s.enu v).x * (s.enu v).x + (s.enu v).y * (s.enu v).y +
      (s.enu v).z * (s.enu v).z = normSq v := by
    intro v
    rw [← s.normSq_enu, normSq]
    ring
  simp only [elevationFromPosition, hrange]
  rfl

theorem up_sq_le (v : Vector3) : s.up v ^ 2 ≤ normSq v := by
  rw [← s.normSq_enu, normSq]
  have hup : (s.enu v).z = s.up v := rfl
  rw [hup]
  nlinarith [sq_nonneg (s.enu v).x, sq_nonneg (s.enu v).y]

theorem abs_up_le (v : Vector3) : |s.up v| ≤ norm v :=
  abs_le_sqrt (s.up_sq_le v)

theorem norm_pos_of_ne {v : Vector3} (h : norm v ≠ 0) : 0 < norm v :=
  lt_of_le_of_ne (sqrt_nonneg _) (Ne.symm h)

theorem up_div_mem {v : Vector3} (h : norm v ≠ 0) :
    -1 ≤ s.up v / norm v ∧ s.up v / norm v ≤ 1 := by
  have habs := s.abs_up_le v
  rw [← abs_le, abs_div, abs_of_pos (norm_pos_of_ne h)]
  exact (div_le_one (norm_pos_of_ne h)).mpr habs

/-! ### The turning earth -/

theorem toEci_eq_rotate (t₁ t₂ : DateTime) :
    s.toEci t₂ = rotate (gmstRad t₂ - gmstRad t₁) (s.toEci t₁) := by
  have htheta : s.lon + gmstRad t₂ = s.lon + gmstRad t₁ + (gmstRad t₂ - gmstRad t₁) := by ring
  ext i
  fin_cases i
  · show s.radius * cos s.lat * cos (s.lon + gmstRad t₂) = _
    rw [htheta, cos_add]
    simp [rotate, toEci]
    ring
  · show s.radius * cos s.lat * sin (s.lon + gmstRad t₂) = _
    rw [htheta, sin_add]
    simp [rotate, toEci]
    ring
  · rfl

/-- How much of the up component a rotation changes, by the sums of two angles. -/
theorem up_rotate_sub (angle : ℝ) (v : Vector3) :
    s.up (rotate angle v) - s.up v = 2 * cos s.lat * sin (angle / 2) *
      (v 0 * sin (s.lon - angle / 2) - v 1 * cos (s.lon - angle / 2)) := by
  have hsum : (s.lon - angle + s.lon) / 2 = s.lon - angle / 2 := by ring
  have hdiff : (s.lon - angle - s.lon) / 2 = -(angle / 2) := by ring
  have hcos : cos (s.lon - angle) - cos s.lon = 2 * sin (s.lon - angle / 2) * sin (angle / 2) := by
    rw [cos_sub_cos, hsum, hdiff, sin_neg]
    ring
  have hsin : sin (s.lon - angle) - sin s.lon = -2 * cos (s.lon - angle / 2) * sin (angle / 2) := by
    rw [sin_sub_sin, hsum, hdiff, sin_neg]
    ring
  rw [cos_sub] at hcos
  rw [sin_sub] at hsin
  simp only [up, rotate, Vector3.x_eq, Vector3.y_eq, Vector3.z_eq, Matrix.cons_val_zero,
    Matrix.cons_val_one, Matrix.cons_val]
  linear_combination cos s.lat * v 0 * hcos + cos s.lat * v 1 * hsin

/-- Whether the turned position has the same elevation at the later time. -/
theorem elevation_rotate_iff (t₁ t₂ : DateTime) (p : Vector3) :
    s.elevationFromPosition (rotate (gmstRad t₂ - gmstRad t₁) p) t₂ =
        s.elevationFromPosition p t₁ ↔
      cos s.lat = 0 ∨ sin ((gmstRad t₂ - gmstRad t₁) / 2) = 0 ∨
        (p - s.toEci t₁) 0 * sin (s.lon - (gmstRad t₂ - gmstRad t₁) / 2) =
          (p - s.toEci t₁) 1 * cos (s.lon - (gmstRad t₂ - gmstRad t₁) / 2) := by
  have hrel : rotate (gmstRad t₂ - gmstRad t₁) p - s.toEci t₂ =
      rotate (gmstRad t₂ - gmstRad t₁) (p - s.toEci t₁) := by
    rw [s.toEci_eq_rotate t₁ t₂, ← rotate_sub]
  rw [elevationFromPosition_eq, elevationFromPosition_eq, hrel]
  generalize p - s.toEci t₁ = relPos
  generalize gmstRad t₂ - gmstRad t₁ = angle
  have hnorm : norm (rotate angle relPos) = norm relPos := by
    rw [norm, normSq_rotate, norm]
  have hup := s.up_rotate_sub angle relPos
  rw [hnorm]
  by_cases hzero : norm relPos = 0
  · -- both are undefined, and the relative position is zero
    have hsq : normSq relPos = 0 := (sqrt_eq_zero (normSq_nonneg relPos)).mp hzero
    simp only [normSq, Vector3.x_eq, Vector3.y_eq, Vector3.z_eq] at hsq
    have hx : relPos 0 = 0 := by
      nlinarith [sq_nonneg (relPos 0), sq_nonneg (relPos 1), sq_nonneg (relPos 2)]
    have hy : relPos 1 = 0 := by
      nlinarith [sq_nonneg (relPos 0), sq_nonneg (relPos 1), sq_nonneg (relPos 2)]
    rw [if_pos hzero, if_pos hzero, hx, hy]
    simp
  · have hbounds := s.up_div_mem hzero
    have hturned := s.up_div_mem (hnorm ▸ hzero : norm (rotate angle relPos) ≠ 0)
    rw [hnorm] at hturned
    rw [if_neg hzero, if_neg hzero, Option.some_inj, toDegrees_inj,
      arcsin_inj hturned.1 hturned.2 hbounds.1 hbounds.2, div_left_inj' hzero, ← sub_eq_zero, hup]
    simp only [mul_eq_zero, OfNat.ofNat_ne_zero, false_or, or_assoc, sub_eq_zero]

/-! ### Straight above the station -/

/-- How much of the station's own direction counts as up. -/
def upShare (time : DateTime) : ℝ := cos s.lat ^ 2 * cos (gmstRad time) + sin s.lat ^ 2

theorem up_smul_toEci (c : ℝ) (time : DateTime) :
    s.up (c • s.toEci time) = c * s.radius * s.upShare time := by
  have hgmst : cos (gmstRad time) =
      cos s.lon * cos (s.lon + gmstRad time) + sin s.lon * sin (s.lon + gmstRad time) := by
    have h := cos_sub (s.lon + gmstRad time) s.lon
    rw [add_sub_cancel_left] at h
    rw [h]
    ring
  simp only [up, toEci, upShare, Vector3.x_eq, Vector3.y_eq, Vector3.z_eq, Pi.smul_apply,
    smul_eq_mul, Matrix.cons_val_zero, Matrix.cons_val_one, Matrix.cons_val]
  rw [hgmst]
  ring

theorem norm_smul_toEci (c : ℝ) (time : DateTime) :
    norm (c • s.toEci time) = |c * s.radius| := by
  rw [← sqrt_sq_eq_abs, norm]
  congr 1
  have hlat := sin_sq_add_cos_sq s.lat
  have htheta := sin_sq_add_cos_sq (s.lon + gmstRad time)
  simp only [normSq, toEci, Vector3.x_eq, Vector3.y_eq, Vector3.z_eq, Pi.smul_apply, smul_eq_mul,
    Matrix.cons_val_zero, Matrix.cons_val_one, Matrix.cons_val]
  linear_combination (c * s.radius) ^ 2 * cos s.lat ^ 2 * htheta + (c * s.radius) ^ 2 * hlat

theorem upShare_sub_one (time : DateTime) :
    s.upShare time - 1 = cos s.lat ^ 2 * (cos (gmstRad time) - 1) := by
  have hlat := sin_sq_add_cos_sq s.lat
  rw [upShare]
  linear_combination hlat

theorem upShare_add_one (time : DateTime) :
    s.upShare time + 1 = cos s.lat ^ 2 * (cos (gmstRad time) + 1) + 2 * sin s.lat ^ 2 := by
  have hlat := sin_sq_add_cos_sq s.lat
  rw [upShare]
  linear_combination (-1) * hlat

theorem upShare_le_one (time : DateTime) : s.upShare time ≤ 1 := by
  have hcos : 0 ≤ 1 - cos (gmstRad time) := by linarith [cos_le_one (gmstRad time)]
  have hshare := s.upShare_sub_one time
  nlinarith [mul_nonneg (sq_nonneg (cos s.lat)) hcos]

theorem neg_one_le_upShare (time : DateTime) : -1 ≤ s.upShare time := by
  have hcos : 0 ≤ cos (gmstRad time) + 1 := by linarith [neg_one_le_cos (gmstRad time)]
  have hshare := s.upShare_add_one time
  nlinarith [mul_nonneg (sq_nonneg (cos s.lat)) hcos, sq_nonneg (sin s.lat)]

theorem upShare_eq_one_iff (time : DateTime) :
    s.upShare time = 1 ↔ cos s.lat = 0 ∨ cos (gmstRad time) = 1 := by
  rw [← sub_eq_zero, upShare_sub_one, mul_eq_zero, sub_eq_zero, pow_eq_zero_iff two_ne_zero]

theorem upShare_eq_neg_one_iff (time : DateTime) :
    s.upShare time = -1 ↔ sin s.lat = 0 ∧ cos (gmstRad time) = -1 := by
  have hlat := sin_sq_add_cos_sq s.lat
  have hcos : 0 ≤ cos (gmstRad time) + 1 := by linarith [neg_one_le_cos (gmstRad time)]
  have hfirst : 0 ≤ cos s.lat ^ 2 * (cos (gmstRad time) + 1) := by positivity
  rw [eq_neg_iff_add_eq_zero, upShare_add_one]
  constructor
  · intro h
    have hsin : sin s.lat = 0 := by nlinarith [sq_nonneg (sin s.lat)]
    rw [hsin] at h hlat
    have hone : cos s.lat ^ 2 = 1 := by linarith
    rw [hone] at h
    exact ⟨hsin, by linarith⟩
  · rintro ⟨hsin, hcos⟩
    rw [hsin, hcos]
    ring

/-- Whether a satellite straight above the station stands in the zenith. -/
theorem elevation_zenith_iff {k : ℝ} (hk : 1 < k) (time : DateTime) :
    s.elevationFromPosition (k • s.toEci time) time = some 90 ↔
      0 < s.radius ∧ (cos s.lat = 0 ∨ cos (gmstRad time) = 1) ∨
      s.radius < 0 ∧ sin s.lat = 0 ∧ cos (gmstRad time) = -1 := by
  have hrel : k • s.toEci time - s.toEci time = (k - 1) • s.toEci time := by
    rw [sub_smul, one_smul]
  have hk' : 0 < k - 1 := sub_pos.mpr hk
  rw [elevationFromPosition_eq, hrel, norm_smul_toEci, up_smul_toEci, ← upShare_eq_one_iff,
    ← upShare_eq_neg_one_iff, abs_mul, abs_of_pos hk']
  rcases lt_trichotomy s.radius 0 with hneg | hzero | hpos
  · have hne : (k - 1) * |s.radius| ≠ 0 := mul_ne_zero hk'.ne' (abs_ne_zero.mpr hneg.ne)
    have hshare : (k - 1) * s.radius * s.upShare time / ((k - 1) * |s.radius|) =
        -s.upShare time := by
      rw [abs_of_neg hneg, div_eq_iff (mul_ne_zero hk'.ne' (neg_ne_zero.mpr hneg.ne))]
      ring
    rw [if_neg hne, hshare, Option.some_inj, toDegrees_arcsin_eq_ninety]
    constructor
    · intro h
      exact .inr ⟨hneg, le_antisymm (by linarith) (s.neg_one_le_upShare time)⟩
    · rintro (⟨hpos, -⟩ | ⟨-, h⟩)
      · exact absurd hpos (not_lt_of_gt hneg)
      · rw [h, neg_neg]
  · rw [hzero]
    simp
  · have hne : (k - 1) * |s.radius| ≠ 0 := mul_ne_zero hk'.ne' (abs_ne_zero.mpr hpos.ne')
    have hshare : (k - 1) * s.radius * s.upShare time / ((k - 1) * |s.radius|) =
        s.upShare time := by
      rw [abs_of_pos hpos, div_eq_iff (mul_ne_zero hk'.ne' hpos.ne')]
      ring
    rw [if_neg hne, hshare, Option.some_inj, toDegrees_arcsin_eq_ninety]
    constructor
    · intro h
      exact .inl ⟨hpos, le_antisymm (s.upShare_le_one time) h⟩
    · rintro (⟨-, h⟩ | ⟨hneg, -⟩)
      · rw [h]
      · exact absurd hneg (not_lt_of_gt hpos)

/-! ### The range of a pass -/

def distance (state : OrbitalState) : ℝ := norm (state.position - s.toEci state.time)

theorem rangeOf_eq (state : OrbitalState) : PassPredictor.rangeOf state = norm state.position := rfl

/-- How far a satellite is beyond the plane halfway from the center of the earth to the station,
times twice the radius of the station. -/
def beyondHalfway (state : OrbitalState) : ℝ :=
  2.0 * (state.position.x * (s.toEci state.time).x + state.position.y * (s.toEci state.time).y +
    state.position.z * (s.toEci state.time).z) - s.radius ^ 2

/-- On the near side of the plane the station is farther than the center, on the far side nearer. -/
theorem distance_sq (state : OrbitalState) :
    s.distance state ^ 2 = normSq state.position - s.beyondHalfway state := by
  have hradius : normSq (s.toEci state.time) = s.radius ^ 2 := by
    have h := s.norm_smul_toEci 1 state.time
    rw [one_smul, one_mul, norm] at h
    rw [← sq_abs, ← h, sq_sqrt (normSq_nonneg _)]
  have htwo : (2.0 : ℝ) = 2 := by norm_num
  rw [distance, norm, sq_sqrt (normSq_nonneg _), beyondHalfway, htwo, ← hradius]
  simp only [normSq, Vector3.x_eq, Vector3.y_eq, Vector3.z_eq, Pi.sub_apply]
  ring

theorem distance_le_norm_iff (state : OrbitalState) (v : Vector3) :
    s.distance state ≤ norm v ↔ normSq state.position - normSq v ≤ s.beyondHalfway state := by
  have hv : norm v ^ 2 = normSq v := sq_sqrt (normSq_nonneg v)
  have hdistance : 0 ≤ s.distance state := sqrt_nonneg _
  have hnorm : 0 ≤ norm v := sqrt_nonneg _
  rw [← pow_le_pow_iff_left₀ hdistance hnorm two_ne_zero, distance_sq, hv]
  constructor <;> intro h <;> linarith

theorem distance_eq_norm_iff (state : OrbitalState) (v : Vector3) :
    s.distance state = norm v ↔ normSq state.position - normSq v = s.beyondHalfway state := by
  have hv : norm v ^ 2 = normSq v := sq_sqrt (normSq_nonneg v)
  have hdistance : 0 ≤ s.distance state := sqrt_nonneg _
  have hnorm : 0 ≤ norm v := sqrt_nonneg _
  rw [← pow_left_inj₀ hdistance hnorm two_ne_zero, distance_sq, hv]
  constructor <;> intro h <;> linarith

/-- The greatest distance from the center of the earth is the greatest one from the station when no
satellite is on the near side of the plane by more than it is nearer to the center than the farthest
one, and one by just as much. -/
theorem isGreatest_distance_iff {run : List OrbitalState} {range : ℝ}
    (hrange : IsGreatest { r | ∃ state ∈ run, norm state.position = r } range) :
    IsGreatest { d | ∃ state ∈ run, s.distance state = d } range ↔
      ∃ top ∈ run, norm top.position = range ∧
        (∀ state ∈ run,
          normSq state.position - normSq top.position ≤ s.beyondHalfway state) ∧
        ∃ state ∈ run,
          normSq state.position - normSq top.position = s.beyondHalfway state := by
  obtain ⟨⟨top, htop, rfl⟩, hall⟩ := hrange
  constructor
  · rintro ⟨⟨state, hstate, heq⟩, hle⟩
    exact ⟨top, htop, rfl,
      fun other hother => (s.distance_le_norm_iff other _).mp (hle ⟨other, hother, rfl⟩),
      state, hstate, (s.distance_eq_norm_iff state _).mp heq⟩
  · rintro ⟨top', htop', hnorm, hle, state, hstate, heq⟩
    rw [← hnorm]
    refine ⟨⟨state, hstate, (s.distance_eq_norm_iff state _).mpr heq⟩, ?_⟩
    rintro _ ⟨other, hother, rfl⟩
    exact (s.distance_le_norm_iff other _).mpr (hle other hother)

theorem distance_lt_of_beyondHalfway {state : OrbitalState} (h : 0 < s.beyondHalfway state) :
    s.distance state < norm state.position := by
  have hsq : norm state.position ^ 2 = normSq state.position := sq_sqrt (normSq_nonneg _)
  refine lt_of_pow_lt_pow_left₀ 2 (sqrt_nonneg _) ?_
  rw [distance_sq, hsq]
  linarith

/-- Elevation survives the turning of the earth exactly for the positions that the fixed axes do not
tell apart, a satellite straight above the station is in the zenith exactly where the axes fit the
station, and the range of a pass is the greatest distance only when a satellite is not beyond the
plane halfway to the station: it is too great when all are. -/
theorem pass_geometry_iff :
    (∀ t₁ t₂ p,
      s.elevationFromPosition (rotate (gmstRad t₂ - gmstRad t₁) p) t₂ =
          s.elevationFromPosition p t₁ ↔
        cos s.lat = 0 ∨ sin ((gmstRad t₂ - gmstRad t₁) / 2) = 0 ∨
          (p - s.toEci t₁) 0 * sin (s.lon - (gmstRad t₂ - gmstRad t₁) / 2) =
            (p - s.toEci t₁) 1 * cos (s.lon - (gmstRad t₂ - gmstRad t₁) / 2)) ∧
    (∀ t (k : ℝ), 1 < k →
      (s.elevationFromPosition (k • s.toEci t) t = some 90 ↔
        0 < s.radius ∧ (cos s.lat = 0 ∨ cos (gmstRad t) = 1) ∨
        s.radius < 0 ∧ sin s.lat = 0 ∧ cos (gmstRad t) = -1)) ∧
    ∀ (predictor : PassPredictor) satelliteId stationId states now passes,
      predictor.getStation stationId = some s →
      predictor.predictPasses satelliteId states stationId now = .ok passes →
      List.Forall₂ (fun pass run =>
        (IsGreatest { d | ∃ state ∈ run, s.distance state = d } pass.maxRangeKm ↔
          ∃ top ∈ run, norm top.position = pass.maxRangeKm ∧
            (∀ state ∈ run,
              normSq state.position - normSq top.position ≤ s.beyondHalfway state) ∧
            ∃ state ∈ run,
              normSq state.position - normSq top.position = s.beyondHalfway state) ∧
        ((∀ state ∈ run, 0 < s.beyondHalfway state) →
          ∀ state ∈ run, s.distance state < pass.maxRangeKm))
        passes (visibleRuns s states) := by
  refine ⟨s.elevation_rotate_iff, fun t k hk => s.elevation_zenith_iff hk t, ?_⟩
  intro predictor satelliteId stationId states now passes hstation hpasses
  refine (sampledBy_predictPasses hstation hpasses).imp fun pass run hsampled => ?_
  have hrange := hsampled.range
  simp only [rangeOf_eq] at hrange
  refine ⟨s.isGreatest_distance_iff hrange, fun hbeyond state hstate => ?_⟩
  exact (s.distance_lt_of_beyondHalfway (hbeyond state hstate)).trans_le
    (hrange.2 ⟨state, hstate, rfl⟩)

end GroundStation

/-! ### A station on the equator and one at the pole -/

def equator : GroundStation :=
  { id := "equator", name := "Equator", latitudeDeg := 0, longitudeDeg := 0, altitudeM := 0
    minElevationDeg := 10.0 }

def pole : GroundStation :=
  { id := "pole", name := "Pole", latitudeDeg := 90.0, longitudeDeg := 0, altitudeM := 0
    minElevationDeg := 10.0 }

/-- Noon of the first of January 2000. -/
def noon : DateTime := Duration.seconds 946728000

/-- Six hours later. -/
def evening : DateTime := Duration.seconds 946749600

theorem gmstRad_noon : gmstRad noon = toRadians 280.46061837 := by
  have hseconds : (noon / 1000000000 : ℤ) = 946728000 := by decide
  simp only [gmstRad, hseconds, fmod]
  norm_num

theorem gmstRad_evening : gmstRad evening = toRadians 10.7070302115725 := by
  have hseconds : (evening / 1000000000 : ℤ) = 946749600 := by decide
  simp only [gmstRad, hseconds, fmod]
  norm_num

theorem cos_gmstRad_noon_ne : cos (gmstRad noon) ≠ 1 := by
  rw [gmstRad_noon, toRadians, Ne, cos_eq_one_iff_of_lt_of_lt]
  · positivity
  · linarith [pi_pos]
  · linarith [pi_pos]

theorem sin_half_turn_ne : sin ((gmstRad evening - gmstRad noon) / 2) ≠ 0 := by
  have hangle : (gmstRad evening - gmstRad noon) / 2 = -(134.87679407921375 / 180 * π) := by
    rw [gmstRad_evening, gmstRad_noon, toRadians, toRadians]
    ring
  rw [hangle, sin_neg, neg_ne_zero]
  exact (sin_pos_of_pos_of_lt_pi (by positivity) (by linarith [pi_pos])).ne'

theorem lat_equator : equator.lat = 0 := by simp [GroundStation.lat, equator, toRadians]

theorem cos_lat_pole : cos pole.lat = 0 := by
  have hninety : pole.latitudeDeg = 90 := by norm_num [pole]
  rw [GroundStation.lat, hninety, toRadians_ninety, cos_pi_div_two]

theorem radius_equator : 0 < equator.radius := by
  rw [GroundStation.radius, lat_equator, sin_zero]
  norm_num [equator]

theorem radius_pole : 0 < pole.radius := by
  have hsq : sin pole.lat * sin pole.lat = 1 := by
    have h := sin_sq_add_cos_sq pole.lat
    rw [cos_lat_pole] at h
    linarith
  rw [GroundStation.radius, mul_assoc, hsq]
  have hsqrt : 0 < √(1 - 1 / 298.257223563 * 1 : ℝ) := sqrt_pos.mpr (by norm_num)
  have haltitude : pole.altitudeM = 0 := rfl
  rw [haltitude]
  positivity

/-- A state over the pole, as far above it as the pole is from the center. -/
def overPole : OrbitalState :=
  { position := (2.0 : ℝ) • pole.toEci noon, velocity := 0, time := noon, tleEpoch := noon }

theorem position_overPole : overPole.position = (2 : ℝ) • pole.toEci noon := by
  norm_num [overPole]

theorem visible_overPole : PassPredictor.visibleElevation pole overPole = some 90 := by
  have hninety : pole.elevationFromPosition overPole.position overPole.time = some 90 := by
    rw [position_overPole]
    exact (pole.elevation_zenith_iff (by norm_num) noon).mpr
      (.inl ⟨radius_pole, .inl cos_lat_pole⟩)
  rw [PassPredictor.visibleElevation, hninety]
  have hmin : pole.minElevationDeg ≤ 90 := by norm_num [pole]
  simp [hmin]

/-- A predictor for the pole. -/
def polePredictor : PassPredictor := PassPredictor.new.addStation pole

/-- The elevation of a turned position changes, the zenith is not up, and the range of a pass over
the pole is twice the distance. -/
theorem pass_geometry_fails :
    (∃ p, equator.elevationFromPosition (rotate (gmstRad evening - gmstRad noon) p) evening ≠
      equator.elevationFromPosition p noon) ∧
    equator.elevationFromPosition ((2 : ℝ) • equator.toEci noon) noon ≠ some 90 ∧
    ∃ pass, polePredictor.predictPasses "sat" [overPole] "pole" 0 = .ok [pass] ∧
      pass.maxRangeKm = 2 * pole.distance overPole ∧ 0 < pole.distance overPole := by
  refine ⟨?_, ?_, ?_⟩
  · let m := equator.lon - (gmstRad evening - gmstRad noon) / 2
    refine ⟨equator.toEci noon + ![sin m, -cos m, 0], ?_⟩
    rw [Ne, GroundStation.elevation_rotate_iff, add_sub_cancel_left, lat_equator, cos_zero]
    rintro (h | h | h)
    · exact one_ne_zero h
    · exact sin_half_turn_ne h
    · have hone := sin_sq_add_cos_sq m
      simp only [Matrix.cons_val_zero, Matrix.cons_val_one] at h
      nlinarith
  · rw [Ne, GroundStation.elevation_zenith_iff _ (by norm_num), lat_equator, cos_zero]
    rintro (⟨-, h | h⟩ | ⟨h, -⟩)
    · exact one_ne_zero h
    · exact cos_gmstRad_noon_ne h
    · exact absurd h (not_lt_of_gt radius_equator)
  · have hdistance : pole.distance overPole = pole.radius := by
      have hrel : overPole.position - pole.toEci overPole.time = (1 : ℝ) • pole.toEci noon := by
        rw [position_overPole, two_smul, one_smul]
        exact add_sub_cancel_right _ _
      rw [GroundStation.distance, hrel, GroundStation.norm_smul_toEci, one_mul,
        abs_of_pos radius_pole]
    have hrange : PassPredictor.rangeOf overPole = 2 * pole.radius := by
      rw [GroundStation.rangeOf_eq, position_overPole, GroundStation.norm_smul_toEci,
        abs_of_pos (by linarith [radius_pole])]
    rw [hdistance]
    have hstation : polePredictor.getStation "pole" = some pole := rfl
    simp only [PassPredictor.predictPasses, hstation, List.foldl_cons, List.foldl_nil,
      PassPredictor.scanState, visible_overPole]
    exact ⟨_, rfl, hrange, radius_pole⟩

end

end GroundCore.Constellation
