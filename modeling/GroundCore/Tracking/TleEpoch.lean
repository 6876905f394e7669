import Mathlib.Tactic.Ring
import GroundCore.Tracking.Tle

/-! When the reading of two-line elements is safe: it does not panic, and the epoch that it returns
lies in the year and near the day that line 1 carries. -/

namespace GroundCore.Tracking

open Lib NumberText SaturatingCast

/-! ### The epoch of a day within its year -/

section Day

variable {q : ℚ} {units : ℕ}

/-- A multiple of `1 / n` that is no whole number lies away from the next ones. -/
theorem floor_gap {r : ℚ} {m : ℤ} {n : ℕ} (hn : 0 < n) (hmultiple : r * n = m) :
    r = (⌊r⌋ : ℚ) ∨ (⌊r⌋ : ℚ) + 1 / n ≤ r ∧ r + 1 / n ≤ (⌊r⌋ : ℚ) + 1 := by
  have hle := Int.floor_le r
  have hlt := Int.lt_floor_add_one r
  have hpos : (0 : ℚ) < n := by exact_mod_cast hn
  rcases hle.eq_or_lt with heq | hstrict
  · exact .inl heq.symm
  · have hlow : ⌊r⌋ * n + 1 ≤ m := by
      have hcast : ((⌊r⌋ * n : ℤ) : ℚ) < (m : ℚ) := by
        push_cast
        rw [← hmultiple]
        exact mul_lt_mul_of_pos_right hstrict hpos
      exact_mod_cast hcast
    have hhigh : m + 1 ≤ (⌊r⌋ + 1) * n := by
      have hcast : (m : ℚ) < (((⌊r⌋ + 1) * n : ℤ) : ℚ) := by
        push_cast
        rw [← hmultiple]
        exact mul_lt_mul_of_pos_right hlt hpos
      exact_mod_cast hcast
    have hlow' : (⌊r⌋ : ℚ) * n + 1 ≤ r * n := by rw [hmultiple]; exact_mod_cast hlow
    have hhigh' : r * n + 1 ≤ ((⌊r⌋ : ℚ) + 1) * n := by rw [hmultiple]; exact_mod_cast hhigh
    have hinv : 1 / (n : ℚ) * n = 1 := div_mul_cancel₀ 1 hpos.ne'
    refine .inr ⟨le_of_mul_le_mul_right ?_ hpos, le_of_mul_le_mul_right ?_ hpos⟩
    · rw [add_mul, hinv]
      exact hlow'
    · rw [add_mul, hinv]
      exact hhigh'

theorem day_gap (hunits : q * 10 ^ 11 = units) :
    q = (⌊q⌋ : ℚ) ∨ (⌊q⌋ : ℚ) + 1 / 10 ^ 11 ≤ q ∧ q + 1 / 10 ^ 11 ≤ (⌊q⌋ : ℚ) + 1 := by
  have hgap := floor_gap (r := q) (m := units) (n := 10 ^ 11) (by norm_num)
    (by push_cast; exact hunits)
  push_cast at hgap
  exact hgap

/-- The rounding of a day of the year. -/
theorem nearest_day (hunits : q * 10 ^ 11 = units) (hone : 1 ≤ q) (hlt : q < 512) :
    Double.round q = .finite (Double.nearest q) ∧ |Double.nearest q - q| ≤ 1 / 2 ^ 45 ∧
      ⌊Double.nearest q⌋ = ⌊q⌋ ∧ (q = (⌊q⌋ : ℚ) → Double.nearest q = q) := by
  have habs : |q| = q := abs_of_pos (by linarith)
  have herror : |Double.nearest q - q| ≤ 1 / 2 ^ 45 := by
    have := Double.abs_nearest_sub_le_zpow (q := q) (n := 9) (by rw [habs]; norm_num; exact hlt)
      (by norm_num)
    norm_num at this ⊢
    exact this
  have hwhole : q = (⌊q⌋ : ℚ) → Double.nearest q = q := by
    intro heq
    obtain ⟨n, hn⟩ : ∃ n : ℕ, ⌊q⌋ = n := ⟨⌊q⌋.toNat, by
      have : 0 ≤ ⌊q⌋ := Int.floor_nonneg.mpr (by linarith)
      omega⟩
    rw [hn, Int.cast_natCast] at heq
    have hsmall : n < 512 := by rw [heq] at hlt; exact_mod_cast hlt
    rw [heq]
    exact Double.nearest_natCast (hsmall.trans (by norm_num))
  refine ⟨Double.round_eq_finite (by rw [habs]; linarith), herror, ?_, hwhole⟩
  rcases day_gap hunits with heq | ⟨hlow, hhigh⟩
  · rw [hwhole heq]
  · rw [abs_le] at herror
    rw [Int.floor_eq_iff]
    have hsmall : (1 : ℚ) / 2 ^ 45 < 1 / 10 ^ 11 := by norm_num
    constructor <;> linarith

theorem toNat_days (hunits : q * 10 ^ 11 = units) (hone : 1 ≤ q) (hlt : q < 512) :
    ((Double.round q).floor.toU32.toNat : ℤ) = ⌊q⌋ := by
  obtain ⟨hround, -, hfloor, -⟩ := nearest_day hunits hone hlt
  have hnonneg : 0 ≤ ⌊q⌋ := Int.floor_nonneg.mpr (by linarith)
  have hsmall : ⌊q⌋ < 512 := Int.floor_lt.mpr (by exact_mod_cast hlt)
  rw [hround, Double.floor, Double.toU32, hfloor, toNat_toU32, truncate_intCast]
  omega

/-- The seconds of a day, before they are cut off, are near the exact ones. -/
theorem seconds_near (hunits : q * 10 ^ 11 = units) (hone : 1 ≤ q) (hlt : q < 512) :
    ∃ seconds : ℚ, ((Double.round q).sub (.ofU32 (Double.round q).floor.toU32)).mul
        (.finite 86400) = .finite seconds ∧
      |seconds - (q - ⌊q⌋) * 86400| ≤ 1 / 10 ^ 8 ∧ (q = (⌊q⌋ : ℚ) → seconds = 0) := by
  obtain ⟨hround, herror, hfloor, hwhole⟩ := nearest_day hunits hone hlt
  have hdays : ((Double.round q).floor.toU32.toNat : ℚ) = ⌊q⌋ := by
    rw [← toNat_days hunits hone hlt]
    rfl
  -- the fraction of the day, and its rounding
  have hlow := Int.floor_le (Double.nearest q)
  have hhigh := Int.lt_floor_add_one (Double.nearest q)
  rw [hfloor] at hlow hhigh
  have hfraction : |Double.nearest q - ⌊q⌋| < 1 := by
    rw [abs_lt]
    constructor <;> linarith
  have hfractionError := Double.abs_nearest_sub_le_zpow (n := 0)
    (by rw [zpow_zero]; exact hfraction) (by norm_num)
  -- the seconds, and their rounding
  have hbound : |Double.nearest (Double.nearest q - ⌊q⌋) * 86400| < 2 ^ (17 : ℤ) := by
    rw [abs_lt] at hfraction
    rw [abs_le] at hfractionError
    rw [abs_lt]
    norm_num at hfractionError ⊢
    constructor <;> linarith
  have hsecondsError := Double.abs_nearest_sub_le_zpow hbound (by norm_num)
  refine ⟨Double.nearest (Double.nearest (Double.nearest q - ⌊q⌋) * 86400), ?_, ?_, ?_⟩
  · rw [Double.ofU32, hdays, hround, Double.sub,
      Double.round_eq_finite (hfraction.trans (by norm_num)), Double.mul]
    exact Double.round_eq_finite (hbound.trans (by norm_num))
  · rw [abs_le] at herror hfractionError hsecondsError ⊢
    norm_num [-Int.self_sub_floor] at herror hfractionError hsecondsError ⊢
    constructor <;> linarith
  · intro heq
    rw [hwhole heq, ← heq, sub_self, Double.nearest_zero, zero_mul, Double.nearest_zero]

/-- The seconds of a day lie in it, and within one second of the exact ones. -/
theorem seconds_day (hunits : q * 10 ^ 11 = units) (hone : 1 ≤ q) (hlt : q < 512) :
    ∃ seconds : ℤ, (((Double.round q).sub (.ofU32 (Double.round q).floor.toU32)).mul
        (.finite 86400)).toI64 = seconds ∧ 0 ≤ seconds ∧ seconds < secondsPerDay ∧
      |(seconds : ℚ) - (q - ⌊q⌋) * 86400| ≤ 1 := by
  obtain ⟨x, hx, hnear, hzero⟩ := seconds_near hunits hone hlt
  have hrange : 0 ≤ x ∧ x < 86400 := by
    rcases day_gap hunits with heq | ⟨hlow, hhigh⟩
    · rw [hzero heq]
      norm_num
    · rw [abs_le] at hnear
      norm_num [-Int.self_sub_floor] at hnear hlow hhigh
      constructor <;> linarith
  have hfloor : 0 ≤ ⌊x⌋ ∧ ⌊x⌋ < 86400 :=
    ⟨Int.floor_nonneg.mpr hrange.1, Int.floor_lt.mpr (by exact_mod_cast hrange.2)⟩
  refine ⟨⌊x⌋, ?_, hfloor.1, hfloor.2, ?_⟩
  · rw [hx, Double.toI64, SaturatingCast.toI64, truncate, if_pos hrange.1]
    omega
  · -- exact seconds that are not whole are further from the whole ones than the rounding goes
    have hmultiple : (q - ⌊q⌋) * 86400 * (31250000 : ℕ) =
        (((units : ℤ) - ⌊q⌋ * 10 ^ 11) * 27 : ℤ) := by
      push_cast
      rw [← hunits]
      ring
    have hbelow := Int.floor_le x
    have hgap := floor_gap (by norm_num) hmultiple
    have hexact := Int.lt_floor_add_one ((q - ⌊q⌋) * 86400)
    have hlow : (q - ⌊q⌋) * 86400 - 1 ≤ (⌊x⌋ : ℚ) := by
      generalize (q - ⌊q⌋) * 86400 = exact at hnear hgap hexact
      rw [abs_le] at hnear
      rcases hgap with heq | ⟨hfrom, -⟩
      · have hfloor : ⌊exact⌋ - 1 ≤ ⌊x⌋ := by
          rw [Int.le_floor]
          push_cast
          norm_num at hnear
          linarith
        have hcast : (⌊exact⌋ : ℚ) - 1 ≤ ⌊x⌋ := by exact_mod_cast hfloor
        linarith
      · have hfloor : ⌊exact⌋ ≤ ⌊x⌋ := by
          rw [Int.le_floor]
          norm_num at hnear hfrom
          linarith
        have hcast : (⌊exact⌋ : ℚ) ≤ ⌊x⌋ := by exact_mod_cast hfloor
        linarith
    rw [abs_le] at hnear ⊢
    norm_num [-Int.self_sub_floor] at hnear ⊢
    constructor <;> linarith

end Day

/-! ### Years -/

theorem yearLength_eq (year : ℤ) : yearLength year =
    if year % 4 = 0 ∧ (year % 100 ≠ 0 ∨ year % 400 = 0) then 366 else 365 := by
  simp only [yearLength, startOfYear]
  split <;> omega

/-- The years of two digits. -/
theorem fullYear_bounds {yearPart : ℕ} (h : yearPart < 100) :
    1957 ≤ fullYear yearPart ∧ fullYear yearPart ≤ 2056 := by
  unfold fullYear
  split <;> omega

theorem fromYear_fullYear {yearPart : ℕ} (h : yearPart < 100) :
    fromYear (fullYear yearPart) = some (startOfYear (fullYear yearPart)) := by
  have := fullYear_bounds h
  exact if_pos ⟨by unfold firstYear; omega, by unfold endYear; omega⟩

/-- The epoch lies in the year. -/
def InYear (year : ℤ) (epoch : DateTime) : Prop :=
  Duration.seconds (startOfYear year * secondsPerDay) ≤ epoch ∧
    epoch < Duration.seconds (startOfYear (year + 1) * secondsPerDay)

/-- The seconds from the beginning of 1970 to the day `day` of a year, a first day being `1`. -/
def exactSeconds (year : ℤ) (day : ℚ) : ℚ := (startOfYear year + (day - 1)) * secondsPerDay

/-- The epoch is within one second of the day of the year. -/
def WithinSecond (year : ℤ) (day : ℚ) (epoch : DateTime) : Prop :=
  ∃ seconds : ℤ, epoch = Duration.seconds seconds ∧ |(seconds : ℚ) - exactSeconds year day| ≤ 1

/-! ### What is read from a line -/

/-- The columns of the epoch: those of the year and those of the day. -/
def epochFields (line1 : String) : Option (List Char × List Char) :=
  (slice 18 32 line1.toList).bind (splitBytes 2)

/-- Line 1 carries the day `day` of the year `year`. -/
def Carries (line1 : String) (year : ℤ) (day : ℚ) : Prop :=
  ∃ yearStr dayStr yearPart, epochFields line1 = some (yearStr, dayStr) ∧
    parseU32 yearStr = some yearPart ∧ fullYear yearPart = year ∧
    parseFloat dayStr = some (.decimal day)

/-- The day is one of the year. -/
def IsDayOf (year : ℤ) (day : ℚ) : Prop := 1 ≤ day ∧ day < yearLength year + 1

variable {line1 line2 source : String} {satelliteId : SatelliteId} {s yearStr dayStr : List Char}
  {yearPart : ℕ} {day : ℚ}

theorem length_of_epochFields (h : epochFields line1 = some (yearStr, dayStr)) :
    yearStr.length ≤ 2 ∧ dayStr.length ≤ 12 := by
  obtain ⟨epochStr, hslice, hsplit⟩ := Option.bind_eq_some_iff.mp h
  obtain ⟨⟨before, rest⟩, -, hrest⟩ := Option.bind_eq_some_iff.mp hslice
  obtain ⟨⟨middle, after⟩, hmiddle, rfl⟩ := Option.map_eq_some_iff.mp hrest
  have htotal := (splitBytes_spec hmiddle).2
  obtain ⟨hparts, hyear⟩ := splitBytes_spec hsplit
  dsimp only at hparts
  rw [hparts, List.map_append, List.sum_append, hyear] at htotal
  have hyearLength := length_le_sum_utf8Size yearStr
  have hdayLength := length_le_sum_utf8Size dayStr
  omega

theorem parseU32_lt_hundred (hlength : yearStr.length ≤ 2) (h : parseU32 yearStr = some yearPart) :
    yearPart < 100 :=
  (parseU32_lt h).trans_le (Nat.pow_le_pow_right (by norm_num) hlength)

/-- The time of a day of the year and of seconds of that day lies in the year. -/
theorem inYear_of_day {year days seconds : ℤ} (hdays : 0 ≤ days ∧ days < yearLength year)
    (hseconds : 0 ≤ seconds ∧ seconds < secondsPerDay) :
    InYear year (Duration.seconds ((startOfYear year + days) * secondsPerDay + seconds)) := by
  have hend : startOfYear (year + 1) = startOfYear year + yearLength year := by
    unfold yearLength
    omega
  have hday86400 : secondsPerDay = 86400 := rfl
  rw [hday86400] at hseconds
  rw [InYear, hend, hday86400]
  exact ⟨Int.mul_le_mul_of_nonneg_right (by omega) (by decide),
    Int.mul_lt_mul_of_pos_right (by omega) (by decide)⟩

/-- Days and seconds after the beginning of a year of two digits are in the range of a date. -/
theorem addDays_addSeconds {days seconds : ℤ} (hsmall : yearPart < 100)
    (hdays : 0 ≤ days ∧ days < 366) (hseconds : 0 ≤ seconds ∧ seconds < secondsPerDay) :
    (addDays (startOfYear (fullYear yearPart)) days).bind (addSeconds · seconds) =
      some (Duration.seconds
        ((startOfYear (fullYear yearPart) + days) * secondsPerDay + seconds)) := by
  have hyears := fullYear_bounds hsmall
  have hstart : -5000 ≤ startOfYear (fullYear yearPart) ∧
      startOfYear (fullYear yearPart) ≤ 40000 := by
    simp only [startOfYear]
    omega
  have hfirstYear : startOfYear firstYear = -96465292 := by decide
  have hendYear : startOfYear endYear = 95026237 := by decide
  have hday86400 : secondsPerDay = 86400 := rfl
  rw [hday86400] at hseconds
  have hdate : addDays (startOfYear (fullYear yearPart)) days =
      some (startOfYear (fullYear yearPart) + days) :=
    if_pos (by rw [hfirstYear, hendYear]; omega)
  rw [hdate, Option.bind_some]
  exact if_pos (by rw [hfirstYear, hendYear, hday86400]; omega)

/-- The whole part of a day of the year. -/
theorem IsDayOf.floor {year : ℤ} (h : IsDayOf year day) :
    (0 ≤ ⌊day⌋ - 1 ∧ ⌊day⌋ - 1 < yearLength year) ∧ yearLength year ≤ 366 ∧ day < 512 := by
  have hfirst : 1 ≤ ⌊day⌋ := Int.le_floor.mpr (by exact_mod_cast h.1)
  have hlast : ⌊day⌋ < yearLength year + 1 := Int.floor_lt.mpr (by exact_mod_cast h.2)
  have hmost : yearLength year ≤ 366 := by
    rw [yearLength_eq]
    split <;> omega
  have hmostCast : (yearLength year : ℚ) ≤ 366 := by exact_mod_cast hmost
  exact ⟨⟨by omega, by omega⟩, hmost, by linarith [h.2]⟩

/-- A day of the year is read, and its epoch lies in the year, within one second of it. -/
theorem parseTleEpoch_day (hsplit : splitBytes 2 s = some (yearStr, dayStr))
    (hyear : parseU32 yearStr = some yearPart) (hsmall : yearPart < 100)
    (hday : parseFloat dayStr = some (.decimal day)) (hlength : dayStr.length ≤ 12)
    (hin : IsDayOf (fullYear yearPart) day) :
    ∃ epoch, parseTleEpoch s = some (.ok epoch) ∧ InYear (fullYear yearPart) epoch ∧
      WithinSecond (fullYear yearPart) day epoch := by
  obtain ⟨hfloor, hmost, hlt⟩ := hin.floor
  obtain ⟨units, hunits⟩ := exists_natCast_of_parseFloat hday hin.1 hlength
  obtain ⟨seconds, hseconds, hnonneg, hless, hnear⟩ := seconds_day hunits hin.1 hlt
  have hdays := toNat_days hunits hin.1 hlt
  have hparse : parseF64 dayStr = some (Double.round day) := by
    rw [parseF64, hday]
    rfl
  have htime := addDays_addSeconds hsmall ⟨hfloor.1, hfloor.2.trans_le hmost⟩ ⟨hnonneg, hless⟩
  obtain ⟨date, hdate, htime⟩ := Option.bind_eq_some_iff.mp htime
  refine ⟨_, ?_, inYear_of_day hfloor ⟨hnonneg, hless⟩, _, rfl, ?_⟩
  · unfold parseTleEpoch
    rw [hsplit, Option.bind_some]
    simp only [hyear, hparse, fromYear_fullYear hsmall, hdays, hseconds, hdate, Option.bind_some,
      htime, Option.map_some]
  · have hcast : (((startOfYear (fullYear yearPart) + (⌊day⌋ - 1)) * secondsPerDay + seconds : ℤ) :
        ℚ) - exactSeconds (fullYear yearPart) day = seconds - (day - ⌊day⌋) * 86400 := by
      rw [exactSeconds, show secondsPerDay = 86400 from rfl]
      push_cast
      ring
    rw [hcast]
    exact hnear

/-- Once both parts are read, there is an epoch or a panic. -/
theorem parseTleEpoch_ne_error (hsplit : splitBytes 2 s = some (yearStr, dayStr))
    (hyear : parseU32 yearStr = some yearPart) (hsmall : yearPart < 100)
    (hday : parseFloat dayStr ≠ none) (e : GroundStationError) :
    parseTleEpoch s ≠ some (.error e) := by
  obtain ⟨literal, hliteral⟩ := Option.ne_none_iff_exists'.mp hday
  intro herror
  unfold parseTleEpoch at herror
  rw [hsplit, Option.bind_some] at herror
  simp only [hyear, parseF64, hliteral, Option.map_some, fromYear_fullYear hsmall,
    Option.bind_eq_some_iff, Option.map_eq_some_iff] at herror
  obtain ⟨date, -, time, -, htime⟩ := herror
  contradiction

/-! ### Safe readings -/

/-- The reading of the two lines, and of the catalog number of line 1, does not panic; and when it
returns elements, line 1 carries a day of its year, in which the epoch lies and to which it is
near. -/
def ReadsSafely (satelliteId : SatelliteId) (line1 line2 source : String) : Prop :=
  (∀ tle : TleData, tle.line1 = line1 → tle.catalogNumber ≠ none) ∧
  ∃ result, TleData.fromLines satelliteId line1 line2 source = some result ∧
    ∀ tle, result = .ok tle → ∃ year day, Carries line1 year day ∧ IsDayOf year day ∧
      InYear year tle.epoch ∧ WithinSecond year day tle.epoch

/-- The columns that are read lie between characters, and if both numbers of the epoch can be read,
the day is one of its year. -/
def WellFormed (line1 line2 : String) : Prop :=
  slice 2 7 line1.toList ≠ none ∧ (HasTleFormat line1 line2 →
    ∃ yearStr dayStr, epochFields line1 = some (yearStr, dayStr) ∧
      ∀ yearPart, parseU32 yearStr = some yearPart → parseFloat dayStr ≠ none →
        ∃ day, parseFloat dayStr = some (.decimal day) ∧ IsDayOf (fullYear yearPart) day)

theorem catalogNumber_ne_none_iff (line1 : String) :
    (∀ tle : TleData, tle.line1 = line1 → tle.catalogNumber ≠ none) ↔
      slice 2 7 line1.toList ≠ none := by
  have hmap : ∀ tle : TleData, tle.catalogNumber = none ↔ slice 2 7 tle.line1.toList = none :=
    fun tle => Option.map_eq_none_iff
  constructor
  · exact fun h hslice => h ⟨"", line1, "", 0, ""⟩ rfl ((hmap _).mpr hslice)
  · rintro h tle rfl hnone
    exact h ((hmap tle).mp hnone)

/-- The result of the reading, by what stands in the columns of the epoch. -/
theorem fromLines_eq (satelliteId : SatelliteId) (source : String)
    (h : HasTleFormat line1 line2) (hfields : epochFields line1 = some (yearStr, dayStr)) :
    ∃ s, splitBytes 2 s = some (yearStr, dayStr) ∧
      TleData.fromLines satelliteId line1 line2 source = (parseTleEpoch s).map fun epoch =>
        epoch.map fun epoch => { satelliteId, line1, line2, epoch, source } := by
  obtain ⟨s, hslice, hsplit⟩ := Option.bind_eq_some_iff.mp hfields
  refine ⟨s, hsplit, ?_⟩
  rw [TleData.fromLines, if_neg (not_not.mpr h), hslice, Option.bind_some]

/-- A reading that does not panic finds the columns of the epoch. -/
theorem exists_epochFields (h : HasTleFormat line1 line2)
    (hread : TleData.fromLines satelliteId line1 line2 source ≠ none) :
    ∃ yearStr dayStr, epochFields line1 = some (yearStr, dayStr) := by
  obtain ⟨result, hresult⟩ := Option.ne_none_iff_exists'.mp hread
  rw [TleData.fromLines, if_neg (not_not.mpr h)] at hresult
  obtain ⟨s, hslice, hmap⟩ := Option.bind_eq_some_iff.mp hresult
  obtain ⟨epoch, hepoch, -⟩ := Option.map_eq_some_iff.mp hmap
  obtain ⟨⟨yearStr, dayStr⟩, hsplit, -⟩ := Option.bind_eq_some_iff.mp hepoch
  exact ⟨yearStr, dayStr, by rw [epochFields, hslice, Option.bind_some, hsplit]⟩

/-- What is safely read of a year and a number is a day of the year. -/
theorem exists_isDayOf (h : HasTleFormat line1 line2)
    (hfields : epochFields line1 = some (yearStr, dayStr))
    (hyear : parseU32 yearStr = some yearPart) (hday : parseFloat dayStr ≠ none)
    {result : Result TleData}
    (hresult : TleData.fromLines satelliteId line1 line2 source = some result)
    (hok : ∀ tle, result = .ok tle → ∃ year day, Carries line1 year day ∧ IsDayOf year day ∧
      InYear year tle.epoch ∧ WithinSecond year day tle.epoch) :
    ∃ day, parseFloat dayStr = some (.decimal day) ∧ IsDayOf (fullYear yearPart) day := by
  obtain ⟨s, hsplit, heq⟩ := fromLines_eq satelliteId source h hfields
  rw [heq] at hresult
  obtain ⟨epoch, hepoch, rfl⟩ := Option.map_eq_some_iff.mp hresult
  cases epoch with
  | error e =>
    exact absurd hepoch (parseTleEpoch_ne_error hsplit hyear
      (parseU32_lt_hundred (length_of_epochFields hfields).1 hyear) hday e)
  | ok epoch =>
    obtain ⟨year, day,
      ⟨yearStr', dayStr', yearPart', hfields', hyear', rfl, hday'⟩, hin, -⟩ := hok _ rfl
    obtain ⟨rfl, rfl⟩ := Prod.mk.inj (Option.some.inj (hfields.symm.trans hfields'))
    obtain rfl := Option.some.inj (hyear.symm.trans hyear')
    exact ⟨day, hday', hin⟩

/-- A line whose number, if it can be read, is a day of the year is safely read. -/
theorem exists_safe_result (satelliteId : SatelliteId) (source : String)
    (h : HasTleFormat line1 line2) (hfields : epochFields line1 = some (yearStr, dayStr))
    (hwell : ∀ yearPart, parseU32 yearStr = some yearPart → parseFloat dayStr ≠ none →
      ∃ day, parseFloat dayStr = some (.decimal day) ∧ IsDayOf (fullYear yearPart) day) :
    ∃ result, TleData.fromLines satelliteId line1 line2 source = some result ∧
      ∀ tle, result = .ok tle → ∃ year day, Carries line1 year day ∧ IsDayOf year day ∧
        InYear year tle.epoch ∧ WithinSecond year day tle.epoch := by
  obtain ⟨s, hsplit, heq⟩ := fromLines_eq satelliteId source h hfields
  obtain ⟨hyearLength, hdayLength⟩ := length_of_epochFields hfields
  rw [heq]
  cases hyear : parseU32 yearStr with
  | none =>
    refine ⟨.error (.tracking "Invalid epoch year"), ?_, nofun⟩
    simp only [parseTleEpoch, hsplit, Option.bind_some, hyear]
    rfl
  | some yearPart =>
    cases hday : parseFloat dayStr with
    | none =>
      refine ⟨.error (.tracking "Invalid epoch day"), ?_, nofun⟩
      simp only [parseTleEpoch, hsplit, Option.bind_some, hyear, parseF64, hday, Option.map_none]
      rfl
    | some literal =>
      obtain ⟨day, hdecimal, hin⟩ := hwell yearPart hyear (by rw [hday]; nofun)
      obtain ⟨epoch, hepoch, hyearOf, hnear⟩ := parseTleEpoch_day hsplit hyear
        (parseU32_lt_hundred hyearLength hyear) hdecimal hdayLength hin
      refine ⟨_, by rw [hepoch]; rfl, fun tle hok => ?_⟩
      obtain rfl := Except.ok.inj hok
      exact ⟨_, day, ⟨yearStr, dayStr, yearPart, hfields, hyear, rfl, hdecimal⟩, hin, hyearOf,
        hnear⟩

/-- The reading is safe exactly for well-formed lines. -/
theorem readsSafely_iff (satelliteId : SatelliteId) (line1 line2 source : String) :
    ReadsSafely satelliteId line1 line2 source ↔ WellFormed line1 line2 := by
  rw [ReadsSafely, WellFormed, catalogNumber_ne_none_iff]
  refine and_congr_right fun _ => ?_
  by_cases hformat : HasTleFormat line1 line2
  · simp only [hformat, true_imp_iff]
    constructor
    · rintro ⟨result, hresult, hok⟩
      obtain ⟨yearStr, dayStr, hfields⟩ := exists_epochFields hformat (by rw [hresult]; nofun)
      exact ⟨yearStr, dayStr, hfields, fun yearPart hyear hday =>
        exists_isDayOf hformat hfields hyear hday hresult hok⟩
    · rintro ⟨yearStr, dayStr, hfields, hwell⟩
      exact exists_safe_result satelliteId source hformat hfields hwell
  · rw [TleData.fromLines, if_pos hformat]
    exact iff_of_true ⟨_, rfl, nofun⟩ fun h => absurd h hformat

/-- A line that ends before the columns of the epoch makes the reading panic, and a day before the
first of the year is read as one of the year before. -/
theorem not_readsSafely :
    TleData.fromLines "ISS" "1 25544U" "2 25544" "file" = none ∧
    (∃ tle, TleData.fromLines "ISS" "1 25544U 98067A   08000.50000000" "2 25544" "file" =
      some (.ok tle) ∧ ¬ InYear 2008 tle.epoch) ∧
    ¬ ReadsSafely "ISS" "1 25544U" "2 25544" "file" := by
  have hpanic : TleData.fromLines "ISS" "1 25544U" "2 25544" "file" = none := by decide +kernel
  refine ⟨hpanic,
    ⟨⟨"ISS", "1 25544U 98067A   08000.50000000", "2 25544", 1199102400000000000, "file"⟩,
      by decide +kernel, ?_⟩, ?_⟩
  · unfold InYear
    decide +kernel
  · rintro ⟨-, result, hresult, -⟩
    rw [hpanic] at hresult
    contradiction

end GroundCore.Tracking
