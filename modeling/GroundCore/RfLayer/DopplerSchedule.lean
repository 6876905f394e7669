import Mathlib.Algebra.Order.Field.Rat
import Mathlib.Tactic.Linarith
import Mathlib.Data.List.GetD
import Mathlib.Data.Rat.Floor
import Mathlib.Order.Interval.Set.UnorderedInterval
import GroundCore.Lib.BinarySearch
import GroundCore.RfLayer.Doppler

/-! The schedule of Doppler offsets over the samples of a pass.  Predictions are laid out one
millisecond apart, whatever their step is.  Sample ids are natural numbers here, and
interpolation is exact. -/

namespace GroundCore.RfLayer

open Lib Angles SaturatingCast

structure DopplerSchedule where
  baseFrequency : ℕ
  /-- Sample ids with their offsets, sorted. -/
  samples : List (ℕ × FrequencyOffset)
  computedAt : DateTime
  tleEpoch : DateTime

namespace DopplerSchedule

/-- `computedAt` and `now` are readings of the clock. -/
def fromOrbitalPrediction (baseFrequency sampleRateHz : ℕ)
    (predictions : List (DateTime × FrequencyOffset)) (startSampleId : ℕ)
    (computedAt now : DateTime) : DopplerSchedule :=
  { baseFrequency
    samples := predictions.zipIdx.map fun ((_, offset), i) =>
      (startSampleId + i * sampleRateHz / 1000, offset)
    computedAt
    tleEpoch := (predictions.head?.map Prod.fst).getD now }

/-- The entry at a position that is known to exist. -/
def entry (s : DopplerSchedule) (i : ℕ) : ℕ × FrequencyOffset := s.samples.getD i (0, 0)

def search (find : BinarySearch ℕ) (s : DopplerSchedule) (sampleId : ℕ) : Except ℕ ℕ :=
  find.search (s.samples.map Prod.fst) sampleId

def interpolate (find : BinarySearch ℕ) (s : DopplerSchedule) (sampleId : ℕ) : FrequencyOffset :=
  match s.search find sampleId with
  | .ok i => (s.entry i).2
  | .error idx =>
    if idx = 0 then (s.samples.head?.map Prod.snd).getD 0
    else if s.samples.length ≤ idx then (s.samples.getLast?.map Prod.snd).getD 0
    else
      let (id1, offset1) := s.entry (idx - 1)
      let (id2, offset2) := s.entry idx
      let t : ℚ := ((sampleId - id1 : ℕ) : ℚ) / (id2 - id1 : ℕ)
      toI64 ((offset1 : ℚ) + t * (offset2 - offset1))

/-- For this sample the interpolation divides by zero. -/
def DividesByZero (find : BinarySearch ℕ) (s : DopplerSchedule) (sampleId : ℕ) : Prop :=
  ∃ idx, s.search find sampleId = .error idx ∧ 0 < idx ∧ idx < s.samples.length ∧
    (s.entry idx).1 - (s.entry (idx - 1)).1 = 0

/-! ### What interpolation returns -/

/-- The outcomes of an interpolation. -/
inductive Interpolated (samples : List (ℕ × FrequencyOffset)) (sampleId : ℕ) :
    FrequencyOffset → Prop
  | exact {i : ℕ} {offset : FrequencyOffset} (h : samples[i]? = some (sampleId, offset)) :
    Interpolated samples sampleId offset
  | before (h : ∀ e ∈ samples, sampleId < e.1) :
    Interpolated samples sampleId ((samples.head?.map Prod.snd).getD 0)
  | after (h : ∀ e ∈ samples, e.1 < sampleId) :
    Interpolated samples sampleId ((samples.getLast?.map Prod.snd).getD 0)
  | inside {i id1 id2 : ℕ} {offset1 offset2 : FrequencyOffset}
    (h1 : samples[i]? = some (id1, offset1)) (h2 : samples[i + 1]? = some (id2, offset2))
    (hlow : id1 < sampleId) (hhigh : sampleId < id2) :
    Interpolated samples sampleId (toI64 ((offset1 : ℚ) +
      ((sampleId - id1 : ℕ) : ℚ) / (id2 - id1 : ℕ) * (offset2 - offset1)))

variable {find : BinarySearch ℕ} {s : DopplerSchedule} {sampleId : ℕ}

theorem getElem?_entry {i : ℕ} (h : i < s.samples.length) : s.samples[i]? = some (s.entry i) := by
  rw [entry, List.getD_eq_getElem _ _ h, List.getElem?_eq_getElem h]

/-- Where the sample is not listed, the ids before its position are less and those from there on
greater. -/
theorem search_error (hsorted : (s.samples.map Prod.fst).Pairwise (· ≤ ·)) {idx : ℕ}
    (h : s.search find sampleId = .error idx) :
    (∀ i, i < idx → ∀ e, s.samples[i]? = some e → e.1 < sampleId) ∧
      ∀ i, idx ≤ i → ∀ e, s.samples[i]? = some e → sampleId < e.1 := by
  obtain ⟨-, hbelow, habove⟩ := find.missing _ _ _ hsorted h
  constructor
  · intro i hi e he
    exact hbelow i e.1 hi (by rw [List.getElem?_map, he, Option.map_some])
  · intro i hi e he
    exact habove i e.1 hi (by rw [List.getElem?_map, he, Option.map_some])

theorem not_dividesByZero (hsorted : (s.samples.map Prod.fst).Pairwise (· ≤ ·)) :
    ¬ s.DividesByZero find sampleId := by
  rintro ⟨idx, hsearch, hpos, hlength, hzero⟩
  obtain ⟨hbelow, habove⟩ := search_error hsorted hsearch
  have hlow := hbelow (idx - 1) (by omega) _ (getElem?_entry (by omega))
  have hhigh := habove idx le_rfl _ (getElem?_entry hlength)
  omega

theorem interpolated_interpolate (hsorted : (s.samples.map Prod.fst).Pairwise (· ≤ ·)) :
    Interpolated s.samples sampleId (s.interpolate find sampleId) := by
  unfold interpolate
  cases hsearch : s.search find sampleId with
  | ok i =>
    have hfound := find.found _ _ _ hsearch
    rw [List.getElem?_map, Option.map_eq_some_iff] at hfound
    obtain ⟨⟨id, offset⟩, hget, rfl⟩ := hfound
    have hentry : s.entry i = (id, offset) := by
      rw [entry, List.getD_eq_getElem?_getD, hget, Option.getD_some]
    simp only [hentry]
    exact .exact hget
  | error idx =>
    obtain ⟨hbelow, habove⟩ := search_error hsorted hsearch
    dsimp only
    split
    · next hzero =>
      refine .before fun e he => ?_
      obtain ⟨i, hi⟩ := List.mem_iff_getElem?.mp he
      exact habove i (by omega) e hi
    · next hpos =>
      split
      · next hlength =>
        refine .after fun e he => ?_
        obtain ⟨i, hi⟩ := List.mem_iff_getElem?.mp he
        have hlt := (List.getElem?_eq_some_iff.mp hi).1
        exact hbelow i (by omega) e hi
      · next hlength =>
        have h1 := getElem?_entry (s := s) (i := idx - 1) (by omega)
        have h2 := getElem?_entry (s := s) (i := idx - 1 + 1) (by omega)
        have hlow := hbelow (idx - 1) (by omega) _ h1
        have hhigh := habove (idx - 1 + 1) (by omega) _ h2
        have hinside := Interpolated.inside h1 h2 hlow hhigh
        rwa [show idx - 1 + 1 = idx by omega] at hinside

/-- A value between two offsets is cast to an integer between them. -/
theorem toI64_mem_uIcc {a b : ℤ} {t : ℚ} (ha : InI64 a) (hb : InI64 b) (h0 : 0 ≤ t) (h1 : t ≤ 1) :
    toI64 ((a : ℚ) + t * (b - a)) ∈ Set.uIcc a b := by
  have hmix : (a : ℚ) + t * (b - a) = (1 - t) * a + t * b := by ring
  rw [hmix, Set.mem_uIcc]
  rcases le_total a b with hle | hle
  · have hle' : (a : ℚ) ≤ b := Int.cast_le.mpr hle
    refine .inl (toI64_between ha hb ⟨?_, ?_⟩)
    · nlinarith [mul_nonneg h0 (sub_nonneg.mpr hle')]
    · nlinarith [mul_nonneg (sub_nonneg.mpr h1) (sub_nonneg.mpr hle')]
  · have hle' : (b : ℚ) ≤ a := Int.cast_le.mpr hle
    refine .inr (toI64_between hb ha ⟨?_, ?_⟩)
    · nlinarith [mul_nonneg (sub_nonneg.mpr h1) (sub_nonneg.mpr hle')]
    · nlinarith [mul_nonneg h0 (sub_nonneg.mpr hle')]

theorem Interpolated.inside_mem {id1 id2 : ℕ} {offset1 offset2 : FrequencyOffset}
    (h1 : InI64 offset1) (h2 : InI64 offset2) (hlow : id1 < sampleId) (hhigh : sampleId < id2) :
    toI64 ((offset1 : ℚ) + ((sampleId - id1 : ℕ) : ℚ) / (id2 - id1 : ℕ) * (offset2 - offset1)) ∈
      Set.uIcc offset1 offset2 := by
  have hwidth : (0 : ℚ) < (id2 - id1 : ℕ) := Nat.cast_pos.mpr (by omega)
  refine toI64_mem_uIcc h1 h2 (div_nonneg (Nat.cast_nonneg _) hwidth.le) ?_
  rw [div_le_one hwidth]
  exact Nat.cast_le.mpr (by omega)

/-! ### Evenly spaced samples -/

/-- The offset at a position, with the last offset beyond the end. -/
def held (offsets : List FrequencyOffset) (k : ℕ) : FrequencyOffset :=
  offsets.getD (min k (offsets.length - 1)) 0

/-- The samples are `q` apart. -/
def Spaced (s : DopplerSchedule) (start q : ℕ) (offsets : List FrequencyOffset) : Prop :=
  ∀ i, s.samples[i]? = offsets[i]?.map fun offset => (start + i * q, offset)

variable {start q k x : ℕ} {offsets : List FrequencyOffset} {offset : FrequencyOffset}

theorem held_of_getElem? (h : offsets[k]? = some offset) : held offsets k = offset := by
  have hlt := (List.getElem?_eq_some_iff.mp h).1
  rw [held, min_eq_left (by omega), List.getD_eq_getElem?_getD, h, Option.getD_some]

/-- Beyond the end the last offset is held. -/
theorem held_of_le (h : offsets.length ≤ k + 1) : held offsets k = offsets.getLast?.getD 0 := by
  rw [held, min_eq_right (by omega), List.getD_eq_getElem?_getD, List.getLast?_eq_getElem?]

namespace Spaced

variable (hs : s.Spaced start q offsets)

include hs

theorem offsets_eq : s.samples.map Prod.snd = offsets := by
  apply List.ext_getElem?
  intro i
  rw [List.getElem?_map, hs, Option.map_map]
  exact Option.map_id'

theorem getElem?_samples {i id : ℕ} (h : s.samples[i]? = some (id, offset)) :
    id = start + i * q ∧ offsets[i]? = some offset := by
  rw [hs, Option.map_eq_some_iff] at h
  obtain ⟨offset, hoffset, heq⟩ := h
  cases heq
  exact ⟨rfl, hoffset⟩

theorem mem_samples {i : ℕ} (h : offsets[i]? = some offset) :
    (start + i * q, offset) ∈ s.samples :=
  List.mem_of_getElem? (by rw [hs, h, Option.map_some])

theorem sorted : (s.samples.map Prod.fst).Pairwise (· ≤ ·) := by
  have hid : ∀ i id, (s.samples.map Prod.fst)[i]? = some id → id = start + i * q := by
    intro i id hget
    rw [List.getElem?_map, Option.map_eq_some_iff] at hget
    obtain ⟨e, he, rfl⟩ := hget
    exact (getElem?_samples hs he).1
  rw [List.pairwise_iff_getElem]
  intro i j hi hj hij
  rw [hid i _ (List.getElem?_eq_getElem hi), hid j _ (List.getElem?_eq_getElem hj)]
  exact Nat.add_le_add_left (Nat.mul_le_mul_right q hij.le) start

/-- No sample from the first one on precedes a schedule that is not empty. -/
theorem head_eq (h : ∀ e ∈ s.samples, start + x < e.1) :
    (s.samples.head?.map Prod.snd).getD 0 = held offsets k := by
  rw [← List.head?_map, offsets_eq hs]
  cases offsets with
  | nil => rfl
  | cons offset offsets =>
    have hfirst := h _ (mem_samples hs List.getElem?_cons_zero)
    dsimp only at hfirst
    omega

/-- After the last sample the last offset is held. -/
theorem getLast_eq (hx : x < (k + 1) * q) (h : ∀ e ∈ s.samples, e.1 < start + x) :
    (s.samples.getLast?.map Prod.snd).getD 0 = held offsets k := by
  rw [← List.getLast?_map, offsets_eq hs, held_of_le]
  by_contra hlong
  have hlt : k + 1 < offsets.length := by omega
  have hbelow := h _ (mem_samples hs (List.getElem?_eq_getElem hlt))
  dsimp only at hbelow
  omega

/-- The samples at multiples of `q` get the offsets of consecutive positions. -/
theorem interpolate_mul (hq : 0 < q) (k : ℕ) :
    s.interpolate find (start + k * q) = held offsets k := by
  have h : Interpolated s.samples (start + k * q) (s.interpolate find (start + k * q)) :=
    interpolated_interpolate (sorted hs)
  generalize s.interpolate find (start + k * q) = value at h
  cases h with
  | exact hget =>
    obtain ⟨hid, hoffset⟩ := getElem?_samples hs hget
    rw [← Nat.eq_of_mul_eq_mul_right hq (Nat.add_left_cancel hid)] at hoffset
    exact (held_of_getElem? hoffset).symm
  | before hlt => exact head_eq hs hlt
  | after hlt => exact getLast_eq hs (Nat.mul_lt_mul_of_pos_right (Nat.lt_succ_self k) hq) hlt
  | inside h1 h2 hlow hhigh =>
    rw [(getElem?_samples hs h1).1] at hlow
    rw [(getElem?_samples hs h2).1] at hhigh
    have hlow' := Nat.lt_of_mul_lt_mul_right (Nat.lt_of_add_lt_add_left hlow)
    have hhigh' := Nat.lt_of_mul_lt_mul_right (Nat.lt_of_add_lt_add_left hhigh)
    omega

/-- Every sample from the first one on gets an offset between those of the position before it and
of the next one. -/
theorem interpolate_mem (hq : 0 < q) (hrange : ∀ offset ∈ offsets, InI64 offset) (x : ℕ) :
    s.interpolate find (start + x) ∈
      Set.uIcc (held offsets (x / q)) (held offsets (x / q + 1)) := by
  have h : Interpolated s.samples (start + x) (s.interpolate find (start + x)) :=
    interpolated_interpolate (sorted hs)
  generalize s.interpolate find (start + x) = value at h ⊢
  cases h with
  | exact hget =>
    obtain ⟨hid, hoffset⟩ := getElem?_samples hs hget
    rw [Nat.add_left_cancel hid, Nat.mul_div_cancel _ hq, held_of_getElem? hoffset]
    exact Set.left_mem_uIcc
  | before hlt =>
    rw [head_eq hs hlt]
    exact Set.left_mem_uIcc
  | after hlt =>
    have hx : x < (x / q + 1) * q := (Nat.div_lt_iff_lt_mul hq).mp (Nat.lt_succ_self _)
    rw [getLast_eq hs hx hlt]
    exact Set.left_mem_uIcc
  | inside h1 h2 hlow hhigh =>
    have hmem := Interpolated.inside_mem
      (hrange _ (List.mem_of_getElem? (getElem?_samples hs h1).2))
      (hrange _ (List.mem_of_getElem? (getElem?_samples hs h2).2)) hlow hhigh
    have hdiv := Nat.div_eq_of_lt_le
      (Nat.lt_of_add_lt_add_left ((getElem?_samples hs h1).1 ▸ hlow)).le
      (Nat.lt_of_add_lt_add_left ((getElem?_samples hs h2).1 ▸ hhigh))
    rw [hdiv, held_of_getElem? (getElem?_samples hs h1).2,
      held_of_getElem? (getElem?_samples hs h2).2]
    exact hmem

end Spaced

/-! ### Alignment with the predicted instants -/

/-- The sample that is received `i` steps after the first. -/
def sampleOf (start sampleRateHz stepMs i : ℕ) : ℕ := start + i * stepMs * sampleRateHz / 1000

/-- Predicted instants get their own offsets, the samples between two instants an offset between
theirs, and no sample divides by zero. -/
structure Aligned (find : BinarySearch ℕ) (s : DopplerSchedule) (start sampleRateHz stepMs : ℕ)
    (offsets : List FrequencyOffset) : Prop where
  exact : ∀ i offset, offsets[i]? = some offset →
    s.interpolate find (sampleOf start sampleRateHz stepMs i) = offset
  between : ∀ i offset offset', offsets[i]? = some offset → offsets[i + 1]? = some offset' →
    ∀ sampleId, sampleOf start sampleRateHz stepMs i < sampleId →
      sampleId < sampleOf start sampleRateHz stepMs (i + 1) →
        s.interpolate find sampleId ∈ Set.uIcc offset offset'
  noDivisionByZero : ∀ sampleId, ¬ s.DividesByZero find sampleId

def AllEqual (offsets : List FrequencyOffset) : Prop := ∀ a ∈ offsets, ∀ b ∈ offsets, a = b

theorem mem_tail_iff : offset ∈ offsets.tail ↔ ∃ i, offsets[i + 1]? = some offset := by
  rw [List.mem_iff_getElem?]
  simp only [List.getElem?_tail]

theorem held_mem_tail (hk : 0 < k) (hlength : 2 ≤ offsets.length) :
    held offsets k ∈ offsets.tail := by
  have hlt : min k (offsets.length - 1) < offsets.length := by omega
  refine mem_tail_iff.mpr ⟨min k (offsets.length - 1) - 1, ?_⟩
  rw [held, List.getD_eq_getElem _ _ hlt, Nat.sub_add_cancel (by omega),
    List.getElem?_eq_getElem hlt]

/-- When every position holds the offset of its multiple, all of them but the first hold the last
offset: the multiples run to the end. -/
theorem held_eq_last {stepMs : ℕ} (hstep : 2 ≤ stepMs)
    (h : ∀ i offset, offsets[i]? = some offset → held offsets (i * stepMs) = offset) (i : ℕ)
    (hoffset : offsets[i + 1]? = some offset) : offset = offsets.getLast?.getD 0 := by
  induction hn : offsets.length - i using Nat.strong_induction_on generalizing i offset with
  | h n ih =>
    have hlt := (List.getElem?_eq_some_iff.mp hoffset).1
    have hfar : i + 2 ≤ (i + 1) * stepMs := by nlinarith
    rw [← h (i + 1) offset hoffset]
    rcases Nat.lt_or_ge ((i + 1) * stepMs + 1) offsets.length with hinside | hend
    · have hnext : offsets[(i + 1) * stepMs - 1 + 1]? =
          some (held offsets ((i + 1) * stepMs)) := by
        rw [Nat.sub_add_cancel (by omega), List.getElem?_eq_getElem (by omega),
          held_of_getElem? (List.getElem?_eq_getElem _)]
      exact ih (offsets.length - ((i + 1) * stepMs - 1)) (by omega) _ hnext rfl
    · exact held_of_le hend

theorem held_mul_iff {stepMs : ℕ} (hstep : 1 ≤ stepMs) :
    (∀ i offset, offsets[i]? = some offset → held offsets (i * stepMs) = offset) ↔
      stepMs = 1 ∨ AllEqual offsets.tail := by
  constructor
  · intro h
    rcases hstep.eq_or_lt with heq | hlong
    · exact .inl heq.symm
    · refine .inr fun a ha b hb => ?_
      obtain ⟨i, hi⟩ := mem_tail_iff.mp ha
      obtain ⟨j, hj⟩ := mem_tail_iff.mp hb
      rw [held_eq_last hlong h i hi, held_eq_last hlong h j hj]
  · rintro (rfl | hequal) i offset hoffset
    · rw [Nat.mul_one]
      exact held_of_getElem? hoffset
    · cases i with
      | zero =>
        rw [Nat.zero_mul]
        exact held_of_getElem? hoffset
      | succ i =>
        have hlt := (List.getElem?_eq_some_iff.mp hoffset).1
        exact hequal _ (held_mem_tail (Nat.mul_pos i.succ_pos hstep) (by omega)) _
          (mem_tail_iff.mpr ⟨i, hoffset⟩)

/-- Offsets in step keep the samples between two instants between their offsets. -/
theorem mem_uIcc_of_inStep {stepMs i : ℕ} {offset' : FrequencyOffset}
    (hs : s.Spaced start q offsets) (hq : 0 < q) (hrange : ∀ offset ∈ offsets, InI64 offset)
    (hstep : 1 ≤ stepMs)
    (h : stepMs = 1 ∨ AllEqual offsets.tail) (hoffset : offsets[i]? = some offset)
    (hoffset' : offsets[i + 1]? = some offset') (hlow : i * stepMs * q < x)
    (hhigh : x < (i + 1) * stepMs * q) :
    s.interpolate find (start + x) ∈ Set.uIcc offset offset' := by
  have hmem : s.interpolate find (start + x) ∈ _ := hs.interpolate_mem hq hrange x
  rcases h with rfl | hequal
  · rw [Nat.mul_one] at hlow hhigh
    rwa [Nat.div_eq_of_lt_le hlow.le hhigh, held_of_getElem? hoffset,
      held_of_getElem? hoffset'] at hmem
  · have hlength := (List.getElem?_eq_some_iff.mp hoffset').1
    have hlast : ∀ k, 0 < k → held offsets k = offset' := fun k hk =>
      hequal _ (held_mem_tail hk (by omega)) _ (mem_tail_iff.mpr ⟨i, hoffset'⟩)
    rw [hlast _ (Nat.succ_pos _)] at hmem
    rcases Nat.eq_zero_or_pos (x / q) with hzero | hpos
    · have hsteps : i * stepMs = 0 := by
        have hle := (Nat.le_div_iff_mul_le hq).mpr hlow.le
        omega
      obtain rfl : i = 0 := by
        rcases Nat.mul_eq_zero.mp hsteps with hi | hi
        · exact hi
        · omega
      rwa [hzero, held_of_getElem? hoffset] at hmem
    · rw [hlast _ hpos, Set.uIcc_self, Set.mem_singleton_iff] at hmem
      rw [hmem]
      exact Set.right_mem_uIcc

/-- Without a sample in a millisecond all entries lie at one sample. -/
theorem Spaced.interpolate_start (hs : s.Spaced start 0 offsets) (hequal : AllEqual offsets)
    (hoffset : offset ∈ offsets) : s.interpolate find start = offset := by
  have h : Interpolated s.samples start (s.interpolate find start) :=
    interpolated_interpolate hs.sorted
  obtain ⟨i, hi⟩ := List.mem_iff_getElem?.mp hoffset
  have hmem := hs.mem_samples hi
  generalize s.interpolate find start = value at h ⊢
  cases h with
  | exact hget =>
    exact hequal _ (List.mem_of_getElem? (hs.getElem?_samples hget).2) _ hoffset
  | before hlt => exact absurd (hlt _ hmem) (by simp)
  | after hlt => exact absurd (hlt _ hmem) (by simp)
  | inside h1 h2 hlow hhigh =>
    have hid := (hs.getElem?_samples h1).1
    omega

theorem Spaced.aligned_iff {stepMs : ℕ} (hs : s.Spaced start q offsets) (hstep : 1 ≤ stepMs)
    (hrange : ∀ offset ∈ offsets, InI64 offset) :
    Aligned find s start (1000 * q) stepMs offsets ↔
      (0 < q ∧ (stepMs = 1 ∨ AllEqual offsets.tail)) ∨ AllEqual offsets := by
  have hsample : ∀ i, sampleOf start (1000 * q) stepMs i = start + i * stepMs * q := by
    intro i
    rw [sampleOf, Nat.mul_left_comm, Nat.mul_div_cancel_left _ (by norm_num)]
  rcases Nat.eq_zero_or_pos q with rfl | hq
  · have hstart : ∀ i, sampleOf start (1000 * 0) stepMs i = start := fun i => by
      rw [hsample, Nat.mul_zero, Nat.add_zero]
    constructor
    · refine fun h => .inr fun a ha b hb => ?_
      obtain ⟨i, hi⟩ := List.mem_iff_getElem?.mp ha
      obtain ⟨j, hj⟩ := List.mem_iff_getElem?.mp hb
      rw [← h.exact i a hi, ← h.exact j b hj, hstart, hstart]
    · rintro (⟨hpos, -⟩ | hequal)
      · contradiction
      · refine ⟨fun i offset hoffset => ?_, fun i offset offset' _ _ id hlow hhigh => ?_,
          fun _ => not_dividesByZero hs.sorted⟩
        · rw [hstart]
          exact hs.interpolate_start hequal (List.mem_of_getElem? hoffset)
        · rw [hstart] at hlow hhigh
          omega
  · have hequal : AllEqual offsets → AllEqual offsets.tail := fun h a ha b hb =>
      h a (List.mem_of_mem_tail ha) b (List.mem_of_mem_tail hb)
    have hexact : (∀ i offset, offsets[i]? = some offset →
        s.interpolate find (sampleOf start (1000 * q) stepMs i) = offset) ↔
          stepMs = 1 ∨ AllEqual offsets.tail := by
      simp only [hsample, hs.interpolate_mul hq]
      exact held_mul_iff hstep
    constructor
    · exact fun h => .inl ⟨hq, hexact.mp h.exact⟩
    · intro h
      have hinStep : stepMs = 1 ∨ AllEqual offsets.tail :=
        h.elim And.right fun hall => .inr (hequal hall)
      refine ⟨hexact.mpr hinStep, fun i offset offset' hoffset hoffset' id hlow hhigh => ?_,
        fun _ => not_dividesByZero hs.sorted⟩
      rw [hsample] at hlow hhigh
      have hid : id = start + (id - start) := by omega
      rw [hid]
      exact mem_uIcc_of_inStep hs hq hrange hstep hinStep hoffset hoffset' (by omega) (by omega)

theorem spaced_fromOrbitalPrediction (baseFrequency q : ℕ)
    (predictions : List (DateTime × FrequencyOffset)) (start : ℕ) (computedAt now : DateTime) :
    (fromOrbitalPrediction baseFrequency (1000 * q) predictions start computedAt now).Spaced start q
      (predictions.map Prod.snd) := by
  intro i
  have hid : i * (1000 * q) / 1000 = i * q := by
    rw [Nat.mul_left_comm, Nat.mul_div_cancel_left _ (by norm_num)]
  simp [fromOrbitalPrediction, List.getElem?_map, List.getElem?_zipIdx, Function.comp_def, hid]

end DopplerSchedule

open DopplerSchedule

/-- A schedule is aligned with its predictions exactly when these are a millisecond apart, or all
from the second one on have one offset. -/
theorem schedule_aligned_iff (find : BinarySearch ℕ) {sgp4 : Sgp4} (p : DopplerPredictor sgp4)
    (stationLat stationLon stationAlt : ℝ) {stepMs : ℕ} (hstep : 1 ≤ stepMs)
    (startTime : DateTime) (durationSec baseFrequency : ℕ) {sampleRateHz : ℕ}
    (hrate : 1000 ∣ sampleRateHz) (start : ℕ) (computedAt now : DateTime)
    (predictions : List (DateTime × FrequencyOffset))
    (hpredictions : predictions =
      p.predictDoppler stationLat stationLon stationAlt stepMs startTime durationSec) :
    Aligned find
        (fromOrbitalPrediction baseFrequency sampleRateHz predictions start computedAt now) start
        sampleRateHz stepMs (predictions.map Prod.snd) ↔
      (0 < sampleRateHz ∧ (stepMs = 1 ∨ AllEqual (predictions.map Prod.snd).tail)) ∨
        AllEqual (predictions.map Prod.snd) := by
  obtain ⟨q, rfl⟩ := hrate
  have hrange : ∀ offset ∈ predictions.map Prod.snd, InI64 offset := by
    intro offset hoffset
    obtain ⟨prediction, hmem, rfl⟩ := List.mem_map.mp hoffset
    obtain ⟨i, hi⟩ := List.mem_iff_getElem?.mp hmem
    exact (DopplerPredictor.getElem_predictDoppler (hpredictions ▸ hi)).2
  rw [(spaced_fromOrbitalPrediction baseFrequency q predictions start computedAt
    now).aligned_iff hstep hrange, Nat.mul_pos_iff_of_pos_left (by norm_num)]

/-! ### A satellite that climbs above the pole -/

section Pole

noncomputable section

/-- The station at the pole, which does not move. -/
def poleStation : Vector3 := geodeticToEci 90 0 0 0

/-- The height in km, so many minutes after the epoch: the climb grows by half a kilometre a second
with every second. -/
def height (minutes : ℝ) : ℝ := 0.25 * (60.0 * minutes) ^ 2 + 0.5 * (60.0 * minutes)

/-- A propagator for a satellite straight above the station. -/
def abovePole : Sgp4 where
  Elements := Unit
  Constants := Unit
  fromTle _ _ _ := .ok ()
  datetime _ := 0
  fromElements _ := .ok ()
  propagate _ minutes := .ok (poleStation + ![0, 0, height minutes], 0)

def poleConstants : abovePole.Constants := ()

def polePredictor : DopplerPredictor abovePole where
  constants := some poleConstants
  tleEpoch := some 0
  station := (90, 0, 0)
  carrierFrequency := 299792458.0

end

theorem geodeticToEci_pole (time : DateTime) : geodeticToEci 90 0 0 time = poleStation := by
  simp [poleStation, geodeticToEci, toRadians_ninety]

theorem rangeTo_abovePole {h : ℝ} (hpos : 0 ≤ h) :
    rangeTo (poleStation + ![0, 0, h]) poleStation = h := by
  simp only [rangeTo, Vector3.x_eq, Vector3.y_eq, Vector3.z_eq, Pi.add_apply]
  simp [Real.sqrt_mul_self hpos]

theorem minutesSinceEpoch_seconds (n : ℕ) : minutesSinceEpoch 0 (Duration.seconds n) = n / 60 := by
  have hwhole : Int.tdiv (Duration.seconds n - 0) (Duration.milliseconds 1) = n * 1000 := by
    rw [sub_zero, Duration.seconds, show (n : ℤ) * 1000000000 = n * 1000 * 1000000 by ring]
    exact Int.mul_tdiv_cancel _ (by norm_num)
  have hminute : (60000.0 : ℝ) = 60000 := by norm_num
  rw [minutesSinceEpoch, hwhole, hminute]
  push_cast
  ring

theorem untruncatedOffset_pole (n : ℕ) :
    polePredictor.untruncatedOffset poleConstants 0 90 0 0 2000 (Duration.seconds n) =
      some (1000 * ((n : ℝ) / 2 + 1)) := by
  have hnext : Duration.seconds n + Duration.milliseconds (2000 : ℕ) =
      Duration.seconds (n + 2 : ℕ) := by
    simp only [Duration.seconds, Duration.milliseconds]
    push_cast
    ring
  have hheight : ∀ n : ℕ, 0 ≤ height (n / 60) := fun n => by
    unfold height
    positivity
  simp only [DopplerPredictor.untruncatedOffset, abovePole, hnext, minutesSinceEpoch_seconds,
    geodeticToEci_pole, rangeTo_abovePole (hheight _)]
  congr 1
  have hsecond : (1000.0 : ℝ) = 1000 := by norm_num
  have hminute : (60.0 : ℝ) = 60 := by norm_num
  have hcarrier : (299792458.0 : ℝ) = 299792458 := by norm_num
  simp only [height, polePredictor, c, hsecond, hminute, hcarrier]
  push_cast
  ring

theorem predictSteps_pole (steps : ℕ) {n : ℕ} (hn : n ≤ 1000) :
    polePredictor.predictSteps poleConstants 0 90 0 0 2000 (steps + 1)
        (Duration.seconds (2 * n : ℕ)) =
      (Duration.seconds (2 * n : ℕ), 1000 * (n + 1 : ℤ)) ::
        polePredictor.predictSteps poleConstants 0 90 0 0 2000 steps
          (Duration.seconds (2 * (n + 1) : ℕ)) := by
  have hvalue : (1000 : ℝ) * (((2 * n : ℕ) : ℝ) / 2 + 1) = ((1000 * (n + 1) : ℤ) : ℝ) := by
    push_cast
    ring
  have hcast : toI64 ((1000 * (n + 1) : ℤ) : ℝ) = 1000 * (n + 1) :=
    toI64_intCast ⟨by omega, by omega⟩
  have hnext : Duration.seconds (2 * n : ℕ) + Duration.milliseconds (2000 : ℕ) =
      Duration.seconds (2 * (n + 1) : ℕ) := by
    simp only [Duration.seconds, Duration.milliseconds]
    push_cast
    ring
  rw [DopplerPredictor.predictSteps, untruncatedOffset_pole, hvalue]
  simp only [hcast, hnext]

theorem predictDoppler_pole :
    polePredictor.predictDoppler 90 0 0 2000 0 6 =
      [(0, 1000), (2000000000, 2000), (4000000000, 3000)] := by
  show polePredictor.predictSteps poleConstants 0 90 0 0 2000 3 (Duration.seconds (2 * 0 : ℕ)) = _
  rw [predictSteps_pole 2 (by norm_num), predictSteps_pole 1 (by norm_num),
    predictSteps_pole 0 (by norm_num), DopplerPredictor.predictSteps]
  norm_num [Duration.seconds]

/-- With two seconds between the predictions the second instant gets the offset of the third. -/
theorem schedule_misaligned :
    polePredictor.predictDoppler 90 0 0 2000 0 6 =
      [(0, 1000), (2000000000, 2000), (4000000000, 3000)] ∧
    (fromOrbitalPrediction 299792458 1000 [(0, 1000), (2000000000, 2000), (4000000000, 3000)] 0 0
      0).interpolate .first (sampleOf 0 1000 2000 1) = 3000 ∧
    ¬ Aligned .first (fromOrbitalPrediction 299792458 1000
      [(0, 1000), (2000000000, 2000), (4000000000, 3000)] 0 0 0) 0 1000 2000
        [1000, 2000, 3000] := by
  have hlast : (fromOrbitalPrediction 299792458 1000
      [(0, 1000), (2000000000, 2000), (4000000000, 3000)] 0 0 0).interpolate .first
        (sampleOf 0 1000 2000 1) = 3000 := by decide +kernel
  refine ⟨predictDoppler_pole, hlast, fun haligned => ?_⟩
  have hexact := haligned.exact 1 2000 rfl
  rw [hlast] at hexact
  exact absurd hexact (by decide)

/-- A schedule with a prediction each millisecond is aligned. -/
theorem schedule_aligned_iff_pole :
    Aligned .first (fromOrbitalPrediction 299792458 1000
      (polePredictor.predictDoppler 90 0 0 1 0 6) 0 0 0) 0 1000 1
        ((polePredictor.predictDoppler 90 0 0 1 0 6).map Prod.snd) :=
  (schedule_aligned_iff .first polePredictor 90 0 0 (by decide) 0 6 299792458 (by decide) 0 0 0 _
    rfl).mpr (.inl ⟨by decide, .inl rfl⟩)

end Pole

end GroundCore.RfLayer
