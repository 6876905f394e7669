import Mathlib.Algebra.Order.Field.Basic
import Mathlib.Data.Rat.Floor
import Mathlib.Tactic.Linarith
import Mathlib.Tactic.NormNum
import GroundCore.Lib.Run
import GroundCore.RfFrontEnd.Devices

/-! Which attenuations runs of calls set.  A request is checked against the limits before it is
rounded to the steps, so it may be rounded to a step beyond a limit, and the upper limit of a
digital attenuator is a step for which it has no word. -/

namespace GroundCore.RfFrontEnd

open Lib

variable {K : Type} [Field K] [LinearOrder K]

/-- A call that sets the attenuation of a device. -/
inductive AttenuatorCall (K : Type)
  | setAttenuation (attenuationDb : K)
  | incrementAttenuation (stepDb : K)
  | decrementAttenuation (stepDb : K)

/-- The attenuation that a call asks for. -/
def AttenuatorCall.request (a : VariableAttenuator K) : AttenuatorCall K → K
  | setAttenuation attenuationDb => attenuationDb
  | incrementAttenuation stepDb => a.currentAttenuation + stepDb
  | decrementAttenuation stepDb => a.currentAttenuation - stepDb

variable [FloorRing K] (display : K → String)

namespace VariableAttenuator

def call (a : VariableAttenuator K) : AttenuatorCall K → VariableAttenuator K × Result Unit
  | .setAttenuation attenuationDb => a.setAttenuation display attenuationDb
  | .incrementAttenuation stepDb => a.incrementAttenuation display stepDb
  | .decrementAttenuation stepDb => a.decrementAttenuation display stepDb

def step (a : VariableAttenuator K) (c : AttenuatorCall K) : VariableAttenuator K :=
  (a.call display c).1

theorem call_eq (a : VariableAttenuator K) (c : AttenuatorCall K) :
    a.call display c = a.setAttenuation display (c.request a) := by
  cases c <;> rfl

omit [Field K] [FloorRing K] in
/-- The attenuator carries out a request. -/
def Accepts (a : VariableAttenuator K) (attenuationDb : K) : Prop :=
  a.enabled = true ∧ a.minAttenuation ≤ attenuationDb ∧ attenuationDb ≤ a.maxAttenuation

variable {display} {a : VariableAttenuator K} {r x : K}

theorem setAttenuation_of_accepts (h : a.Accepts r) : a.setAttenuation display r =
    ({ a with currentAttenuation := round (r / a.stepSize) * a.stepSize }, .ok ()) := by
  rw [setAttenuation, if_neg (by simp [h.1]), if_neg (by simp [h.2])]

/-- A request that is refused changes nothing. -/
theorem setAttenuation_of_not_accepts (h : ¬ a.Accepts r) :
    (a.setAttenuation display r).1 = a ∧ (a.setAttenuation display r).2 ≠ .ok () := by
  unfold setAttenuation
  split
  · exact ⟨rfl, nofun⟩
  · next henabled =>
    split
    · exact ⟨rfl, nofun⟩
    · next hrange =>
      rw [not_or, not_lt, not_lt] at hrange
      exact absurd ⟨by simpa using henabled, hrange.1, hrange.2⟩ h

theorem setAttenuation_ok_iff : (a.setAttenuation display r).2 = .ok () ↔ a.Accepts r := by
  by_cases h : a.Accepts r
  · rw [setAttenuation_of_accepts h]
    exact iff_of_true rfl h
  · exact iff_of_false (setAttenuation_of_not_accepts h).2 h

theorem round_of_nonneg (h : 0 ≤ x) : round x = ⌊x + 0.5⌋ := if_pos h

variable [IsStrictOrderedRing K]

theorem round_le_iff (h : 0 ≤ x) {n : ℤ} : round x ≤ n ↔ x < n + 0.5 := by
  have hhalf : (n : K) + 1 = n + 0.5 + 0.5 := by norm_num [add_assoc]
  rw [round_of_nonneg h, ← Int.lt_add_one_iff, Int.floor_lt, Int.cast_add, Int.cast_one, hhalf,
    add_lt_add_iff_right]

theorem le_round_iff (h : 0 ≤ x) {n : ℤ} : n ≤ round x ↔ n - 0.5 ≤ x := by
  rw [round_of_nonneg h, Int.le_floor, sub_le_iff_le_add]

theorem abs_round_sub_le (h : 0 ≤ x) : |(round x : K) - x| ≤ 0.5 := by
  have hle := (le_round_iff h).mp (le_refl (round x))
  have hlt := (round_le_iff h).mp (le_refl (round x))
  rw [abs_le]
  constructor <;> linarith

theorem round_natCast (n : ℕ) : round (n : K) = n := by
  have hnonneg : (0 : K) ≤ n := Nat.cast_nonneg n
  refine le_antisymm ((round_le_iff hnonneg).mpr ?_) ((le_round_iff hnonneg).mpr ?_)
  · exact_mod_cast lt_add_of_pos_right (n : K) (by norm_num)
  · exact_mod_cast sub_le_self (n : K) (by norm_num)

/-- A successful call leaves the attenuation within the limits and half a step from the request. -/
def SettlesLegally (display : K → String) (a : VariableAttenuator K) (c : AttenuatorCall K) :
    Prop :=
  (a.call display c).2 = .ok () →
    (a.minAttenuation ≤ (a.step display c).currentAttenuation ∧
      (a.step display c).currentAttenuation ≤ a.maxAttenuation) ∧
    |(a.step display c).currentAttenuation - c.request a| ≤ 0.5 * a.stepSize

omit [IsStrictOrderedRing K] in
/-- A request that is carried out is nearer to a step within the limits than to one beyond them. -/
def RequestFits (a : VariableAttenuator K) (c : AttenuatorCall K) : Prop :=
  a.Accepts (c.request a) →
    ((⌈a.minAttenuation / a.stepSize⌉ : K) - 0.5) * a.stepSize ≤ c.request a ∧
      c.request a < ((⌊a.maxAttenuation / a.stepSize⌋ : K) + 0.5) * a.stepSize

omit [IsStrictOrderedRing K] in
/-- No call changes the limits or the step. -/
theorem step_scale (a : VariableAttenuator K) (c : AttenuatorCall K) :
    (a.step display c).minAttenuation = a.minAttenuation ∧
      (a.step display c).stepSize = a.stepSize := by
  rw [step, call_eq]
  by_cases h : a.Accepts (c.request a)
  · rw [setAttenuation_of_accepts h]
    exact ⟨rfl, rfl⟩
  · rw [(setAttenuation_of_not_accepts h).1]
    exact ⟨rfl, rfl⟩

theorem settlesLegally_iff (hmin : 0 ≤ a.minAttenuation) (hstep : 0 < a.stepSize)
    (c : AttenuatorCall K) : a.SettlesLegally display c ↔ a.RequestFits c := by
  unfold SettlesLegally RequestFits step
  rw [call_eq, setAttenuation_ok_iff]
  refine imp_congr_right fun haccepts => ?_
  have hrequest : 0 ≤ c.request a := hmin.trans haccepts.2.1
  have hnonneg : 0 ≤ c.request a / a.stepSize := div_nonneg hrequest hstep.le
  rw [setAttenuation_of_accepts haccepts]
  dsimp only
  have hnear : |(round (c.request a / a.stepSize) : K) * a.stepSize - c.request a| ≤
      0.5 * a.stepSize := by
    have hscale : (round (c.request a / a.stepSize) : K) * a.stepSize - c.request a =
        (round (c.request a / a.stepSize) - c.request a / a.stepSize) * a.stepSize := by
      rw [sub_mul, div_mul_cancel₀ _ hstep.ne']
    rw [hscale, abs_mul, abs_of_pos hstep]
    exact mul_le_mul_of_nonneg_right (abs_round_sub_le hnonneg) hstep.le
  rw [and_iff_left hnear, ← div_le_iff₀ hstep, ← Int.ceil_le, le_round_iff hnonneg,
    ← le_div_iff₀ hstep, ← Int.le_floor, round_le_iff hnonneg, le_div_iff₀ hstep,
    div_lt_iff₀ hstep]

end VariableAttenuator

inductive DigitalCall (K : Type)
  | attenuation (call : AttenuatorCall K)
  | setControlWord (controlWord : UInt64)

namespace DigitalStepAttenuator

def call (d : DigitalStepAttenuator K) : DigitalCall K → DigitalStepAttenuator K × Result Unit
  | .attenuation c =>
    let (inner, result) := d.inner.call display c
    ({ d with inner }, result)
  | .setControlWord controlWord => d.setControlWord display controlWord

def step (d : DigitalStepAttenuator K) (c : DigitalCall K) : DigitalStepAttenuator K :=
  (d.call display c).1

/-- The control word is accepted and restores the attenuation, and a word that is set is read
back. -/
def WordRestores (d : DigitalStepAttenuator K) : Prop :=
  (∀ word, d.getControlWord = .ok word → (d.setControlWord display word).2 = .ok () ∧
    (d.setControlWord display word).1.inner.currentAttenuation = d.inner.currentAttenuation) ∧
  ∀ word, (d.setControlWord display word).2 = .ok () →
    (d.setControlWord display word).1.getControlWord = .ok word

omit [FloorRing K] in
/-- A request that is carried out is more than half a step below the upper limit. -/
def RequestBelowTop (d : DigitalStepAttenuator K) : DigitalCall K → Prop
  | .attenuation c => d.inner.Accepts (c.request d.inner) →
      c.request d.inner < d.inner.maxAttenuation - 0.5 * d.inner.stepSize
  | .setControlWord _ => True

omit [FloorRing K] in
/-- The scale of a digital attenuator, which no call changes. -/
structure Scaled (d : DigitalStepAttenuator K) : Prop where
  numBits_le : d.numBits ≤ 63
  min : d.inner.minAttenuation = 0
  max_pos : 0 < d.inner.maxAttenuation
  step_mul : d.inner.stepSize * d.levels = d.inner.maxAttenuation

omit [FloorRing K] in
def withAttenuation (d : DigitalStepAttenuator K) (attenuationDb : K) : DigitalStepAttenuator K :=
  { d with inner := { d.inner with currentAttenuation := attenuationDb } }

omit [FloorRing K] in
theorem Scaled.withAttenuation {d : DigitalStepAttenuator K} (h : d.Scaled) (attenuationDb : K) :
    (d.withAttenuation attenuationDb).Scaled := ⟨h.numBits_le, h.min, h.max_pos, h.step_mul⟩

omit [FloorRing K] in
/-- The attenuation is `k` steps. -/
def At (d : DigitalStepAttenuator K) (k : ℕ) : Prop :=
  d.inner.currentAttenuation = k * d.inner.stepSize

variable {display} {d : DigitalStepAttenuator K} {k : ℕ} [IsStrictOrderedRing K]

omit [FloorRing K] in
theorem Scaled.step_pos (h : d.Scaled) : 0 < d.inner.stepSize := by
  have hlevels : (0 : K) ≤ d.levels := Nat.cast_nonneg d.levels
  exact pos_of_mul_pos_left (h.step_mul.symm ▸ h.max_pos) hlevels

omit [FloorRing K] in
/-- A multiple of a step, as a part of the upper limit. -/
theorem Scaled.part_eq (h : d.Scaled) (k : ℕ) :
    k / (d.levels : K) * d.inner.maxAttenuation = k * d.inner.stepSize ∧
      k * d.inner.stepSize / d.inner.maxAttenuation * d.levels = k := by
  have hlevels : (d.levels : K) ≠ 0 := Nat.cast_ne_zero.mpr (Nat.two_pow_pos _).ne'
  have hstep := h.step_pos.ne'
  rw [← h.step_mul]
  constructor <;> field_simp

omit [FloorRing K] [IsStrictOrderedRing K] in
theorem Scaled.levels_le (h : d.Scaled) : d.levels ≤ 2 ^ 63 :=
  Nat.pow_le_pow_right (by decide) h.numBits_le

theorem getControlWord_of_at (h : d.Scaled) (hk : k ≤ d.levels) (hat : d.At k) :
    d.getControlWord = .ok (UInt64.ofNat k) := by
  have hlt : k < 2 ^ 64 := by
    have := h.levels_le
    omega
  have hword : SaturatingCast.toU64 (k : K) = UInt64.ofNat k := UInt64.toNat_inj.mp
    ((SaturatingCast.toNat_toU64_natCast hlt).trans (UInt64.toNat_ofNat_of_lt' hlt).symm)
  unfold getControlWord
  dsimp only
  rw [hat, (h.part_eq k).2, hword]

theorem setControlWord_of_lt (h : d.Scaled) (henabled : d.inner.enabled = true) {word : UInt64}
    (hword : word.toNat < d.levels) : d.setControlWord display word =
      (d.withAttenuation (word.toNat * d.inner.stepSize), .ok ()) := by
  have hle : (word.toNat : K) ≤ d.levels := by exact_mod_cast hword.le
  have haccepts : d.inner.Accepts (word.toNat * d.inner.stepSize) := by
    refine ⟨henabled, h.min ▸ mul_nonneg (Nat.cast_nonneg _) h.step_pos.le, ?_⟩
    rw [← h.step_mul, mul_comm d.inner.stepSize]
    exact mul_le_mul_of_nonneg_right hle h.step_pos.le
  rw [setControlWord, if_neg (not_le.mpr hword)]
  dsimp only
  rw [(h.part_eq _).1, VariableAttenuator.setAttenuation_of_accepts haccepts,
    mul_div_cancel_right₀ _ h.step_pos.ne', VariableAttenuator.round_natCast, Int.cast_natCast]
  rfl

omit [IsStrictOrderedRing K] in
theorem lt_levels_of_setControlWord_ok {word : UInt64}
    (hok : (d.setControlWord display word).2 = .ok ()) :
    d.inner.enabled = true ∧ word.toNat < d.levels := by
  unfold setControlWord at hok
  split at hok
  · contradiction
  · next hlt => exact ⟨(VariableAttenuator.setAttenuation_ok_iff.mp hok).1, not_le.mp hlt⟩

/-- The word of the attenuation of `k` steps is one of the words of an enabled attenuator. -/
theorem wordRestores_iff (h : d.Scaled) (hk : k ≤ d.levels) (hat : d.At k) :
    d.WordRestores display ↔ d.inner.enabled = true ∧ k < d.levels := by
  have hlevels := h.levels_le
  have htoNat : (UInt64.ofNat k).toNat = k :=
    UInt64.toNat_ofNat_of_lt' (show k < 2 ^ 64 by omega)
  constructor
  · rintro ⟨hword, -⟩
    have hok := (hword _ (getControlWord_of_at h hk hat)).1
    have hlt := lt_levels_of_setControlWord_ok hok
    rwa [htoNat] at hlt
  · rintro ⟨henabled, hlt⟩
    refine ⟨fun word hword => ?_, fun word hok => ?_⟩
    · rw [getControlWord_of_at h hk hat, Except.ok.injEq] at hword
      rw [← hword, setControlWord_of_lt h henabled (htoNat.symm ▸ hlt), htoNat]
      exact ⟨rfl, hat.symm⟩
    · have hword := (lt_levels_of_setControlWord_ok hok).2
      have hread : (d.withAttenuation (word.toNat * d.inner.stepSize)).getControlWord =
          .ok (UInt64.ofNat word.toNat) := getControlWord_of_at (h.withAttenuation _) hword.le rfl
      rw [setControlWord_of_lt h henabled hword, hread, UInt64.ofNat_toNat]

theorem wordRestores_withAttenuation_iff (h : d.Scaled) (hk : k ≤ d.levels) :
    (d.withAttenuation (k * d.inner.stepSize)).WordRestores display ↔
      d.inner.enabled = true ∧ k < d.levels :=
  wordRestores_iff (h.withAttenuation _) hk rfl

/-- A digital attenuator before the calls of a run. -/
def started (numBits : ℕ) (maxAttenuation : K) (enabled : Bool) : DigitalStepAttenuator K :=
  if enabled then (new numBits maxAttenuation).enable else new numBits maxAttenuation

omit [FloorRing K] in
theorem scaled_started {numBits : ℕ} {maxAttenuation : K} (hbits : numBits ≤ 63)
    (hmax : 0 < maxAttenuation) (enabled : Bool) :
    (started numBits maxAttenuation enabled).Scaled ∧
      (started numBits maxAttenuation enabled).At 0 ∧
      (started numBits maxAttenuation enabled).inner.enabled = enabled := by
  have hlevels : ((2 ^ numBits : ℕ) : K) ≠ 0 := Nat.cast_ne_zero.mpr (Nat.two_pow_pos _).ne'
  have hstep : maxAttenuation / ((2 ^ numBits : ℕ) : K) * ((2 ^ numBits : ℕ) : K) =
      maxAttenuation := div_mul_cancel₀ _ hlevels
  have hzero : (0 : K) = (0 : ℕ) * (maxAttenuation / ((2 ^ numBits : ℕ) : K)) := by
    rw [Nat.cast_zero, zero_mul]
  cases enabled <;> exact ⟨⟨hbits, rfl, hmax, hstep⟩, hzero, rfl⟩

/-- A request that is carried out sets a number of steps, and the highest one only from half a step
below the upper limit on. -/
theorem step_attenuation (h : d.Scaled) {c : AttenuatorCall K}
    (haccepts : d.inner.Accepts (c.request d.inner)) :
    ∃ k ≤ d.levels, d.step display (.attenuation c) =
        d.withAttenuation (k * d.inner.stepSize) ∧
      (k < d.levels ↔ d.RequestBelowTop (.attenuation c)) := by
  generalize hrequest : c.request d.inner = r at haccepts
  have hr : 0 ≤ r := h.min ▸ haccepts.2.1
  have hnonneg : 0 ≤ r / d.inner.stepSize := div_nonneg hr h.step_pos.le
  have htop : r / d.inner.stepSize ≤ d.levels := by
    rw [div_le_iff₀ h.step_pos, mul_comm, h.step_mul]
    exact haccepts.2.2
  have hround : 0 ≤ VariableAttenuator.round (r / d.inner.stepSize) := by
    rw [VariableAttenuator.le_round_iff hnonneg]
    have hhalf : (0 : K) ≤ 0.5 := by norm_num
    rw [Int.cast_zero]
    linarith
  have hle : VariableAttenuator.round (r / d.inner.stepSize) ≤ (d.levels : ℤ) := by
    rw [VariableAttenuator.round_le_iff hnonneg, Int.cast_natCast]
    have hhalf : (0 : K) < 0.5 := by norm_num
    linarith
  have hlt : VariableAttenuator.round (r / d.inner.stepSize) < (d.levels : ℤ) ↔
      r < d.inner.maxAttenuation - 0.5 * d.inner.stepSize := by
    have hhalf : ((d.levels - 1 : ℤ) : K) + 0.5 = d.levels - 0.5 := by
      rw [Int.cast_sub, Int.cast_natCast, Int.cast_one]
      norm_num [sub_eq_add_neg, add_assoc]
    rw [← Int.le_sub_one_iff, VariableAttenuator.round_le_iff hnonneg, hhalf,
      div_lt_iff₀ h.step_pos, sub_mul, mul_comm (d.levels : K), h.step_mul]
  obtain ⟨k, hk⟩ := Int.eq_ofNat_of_zero_le hround
  refine ⟨k, by exact_mod_cast hk ▸ hle, ?_, ?_⟩
  · show ({ d with inner := (d.inner.call display c).1 } : DigitalStepAttenuator K) = _
    rw [VariableAttenuator.call_eq, hrequest, VariableAttenuator.setAttenuation_of_accepts haccepts,
      hk, Int.cast_natCast]
    rfl
  · show k < d.levels ↔ (d.inner.Accepts (c.request d.inner) → _)
    rw [hrequest, ← hlt, hk, Nat.cast_lt]
    exact ⟨fun hk _ => hk, fun hk => hk haccepts⟩

omit [IsStrictOrderedRing K] in
/-- A word that is refused, and a request that is refused, change nothing. -/
theorem step_of_refused (d : DigitalStepAttenuator K) :
    (∀ c, ¬ d.inner.Accepts (c.request d.inner) → d.step display (.attenuation c) = d) ∧
      ∀ word : UInt64, d.levels ≤ word.toNat → d.step display (.setControlWord word) = d := by
  refine ⟨fun c h => ?_, fun word h => ?_⟩
  · show ({ d with inner := (d.inner.call display c).1 } : DigitalStepAttenuator K) = d
    rw [VariableAttenuator.call_eq, (VariableAttenuator.setAttenuation_of_not_accepts h).1]
  · show (d.setControlWord display word).1 = d
    rw [setControlWord, if_pos h]

/-- An enabled attenuator at a step below the upper limit. -/
def BelowTop (d : DigitalStepAttenuator K) : Prop :=
  d.Scaled ∧ d.inner.enabled = true ∧ ∃ k < d.levels, d.At k

/-- After a call the control word is one of the words exactly when the call does not set the upper
limit. -/
theorem wordRestores_step_iff (h : d.BelowTop) (c : DigitalCall K) :
    ((d.step display c).WordRestores display ↔ d.RequestBelowTop c) ∧
      (d.RequestBelowTop c → (d.step display c).BelowTop) := by
  obtain ⟨hscaled, henabled, k, hk, hat⟩ := h
  have hstays : d.WordRestores display := (wordRestores_iff hscaled hk.le hat).mpr ⟨henabled, hk⟩
  cases c with
  | attenuation c =>
    by_cases haccepts : d.inner.Accepts (c.request d.inner)
    · obtain ⟨k', hk', hstep, hiff⟩ :
          ∃ k ≤ d.levels, d.step display (.attenuation c) = d.withAttenuation (k * d.inner.stepSize) ∧
            (k < d.levels ↔ d.RequestBelowTop (.attenuation c)) := step_attenuation hscaled haccepts
      rw [hstep, ← hiff, wordRestores_withAttenuation_iff hscaled hk']
      exact ⟨and_iff_right henabled, fun hlt => ⟨hscaled.withAttenuation _, henabled, k', hlt, rfl⟩⟩
    · rw [(step_of_refused d).1 c haccepts]
      exact ⟨iff_of_true hstays fun h => absurd h haccepts,
        fun _ => ⟨hscaled, henabled, k, hk, hat⟩⟩
  | setControlWord word =>
    by_cases hword : word.toNat < d.levels
    · have hstep : d.step display (.setControlWord word) =
          d.withAttenuation (word.toNat * d.inner.stepSize) := by
        rw [step, call, setControlWord_of_lt hscaled henabled hword]
      rw [hstep, wordRestores_withAttenuation_iff hscaled hword.le]
      exact ⟨iff_of_true ⟨henabled, hword⟩ trivial,
        fun _ => ⟨hscaled.withAttenuation _, henabled, _, hword, rfl⟩⟩
    · rw [(step_of_refused d).2 word (not_lt.mp hword)]
      exact ⟨iff_of_true hstays trivial, fun _ => ⟨hscaled, henabled, k, hk, hat⟩⟩

/-- The control word is good throughout a run exactly when the attenuator is enabled and no request
of the run is rounded to the upper limit. -/
theorem run_wordRestores_iff {numBits : ℕ} {maxAttenuation : K} (hbits : numBits ≤ 63)
    (hmax : 0 < maxAttenuation) (enabled : Bool) (calls : List (DigitalCall K)) :
    (∀ n, (run (step display) (started numBits maxAttenuation enabled)
        (calls.take n)).WordRestores display) ↔
      enabled = true ∧ Along (step display) RequestBelowTop
        (started numBits maxAttenuation enabled) calls := by
  obtain ⟨hscaled, hat, henabled⟩ := scaled_started hbits hmax enabled
  have hlevels : 0 < (started numBits maxAttenuation enabled).levels := Nat.two_pow_pos _
  have hstart : (started numBits maxAttenuation enabled).WordRestores display ↔ enabled = true := by
    rw [wordRestores_iff hscaled hlevels.le hat, henabled, and_iff_left hlevels]
  have hrun : enabled = true →
      ((∀ n, (run (step display) (started numBits maxAttenuation enabled)
          (calls.take n)).WordRestores display) ↔
        Along (step display) RequestBelowTop (started numBits maxAttenuation enabled) calls) := by
    intro htrue
    refine along_iff_of_imp (I := BelowTop) (P := fun _ _ => True)
      (fun s ⟨hscaled, henabled, k, hk, hat⟩ =>
        (wordRestores_iff hscaled hk.le hat).mpr ⟨henabled, hk⟩)
      (fun s c h _ => (wordRestores_step_iff h c).2)
      (fun s c h _ => (wordRestores_step_iff h c).1.mp)
      ⟨hscaled, henabled.trans htrue, 0, hlevels, hat⟩ (along_of_forall fun _ _ => trivial)
  constructor
  · intro h
    have htrue : enabled = true := hstart.mp (h 0)
    exact ⟨htrue, (hrun htrue).mp h⟩
  · rintro ⟨htrue, h⟩
    exact (hrun htrue).mpr h

end DigitalStepAttenuator

/-- Runs keep the attenuations legal exactly when no request that is carried out is rounded beyond
a limit, or to the upper limit of a digital attenuator, which has to be enabled. -/
theorem attenuations_legal_iff [IsStrictOrderedRing K] (display : K → String) :
    (∀ (a : VariableAttenuator K) (calls : List (AttenuatorCall K)), 0 ≤ a.minAttenuation →
      a.minAttenuation ≤ a.maxAttenuation → 0 < a.stepSize →
        (Along (VariableAttenuator.step display) (VariableAttenuator.SettlesLegally display) a
            calls ↔
          Along (VariableAttenuator.step display) VariableAttenuator.RequestFits a calls)) ∧
    ∀ (numBits : ℕ) (maxAttenuation : K) (enabled : Bool) (calls : List (DigitalCall K)),
      1 ≤ numBits → numBits ≤ 63 → 0 < maxAttenuation →
        ((∀ n, (run (DigitalStepAttenuator.step display)
            (.started numBits maxAttenuation enabled) (calls.take n)).WordRestores display) ↔
          enabled = true ∧ Along (DigitalStepAttenuator.step display)
            DigitalStepAttenuator.RequestBelowTop (.started numBits maxAttenuation enabled)
            calls) := by
  refine ⟨fun a calls hmin _ hstep => ?_, fun numBits maxAttenuation enabled calls _ hbits hmax =>
    DigitalStepAttenuator.run_wordRestores_iff hbits hmax enabled calls⟩
  refine along_congr (I := fun a => 0 ≤ a.minAttenuation ∧ 0 < a.stepSize)
    (fun a c h => VariableAttenuator.settlesLegally_iff h.1 h.2 c) (fun a c h _ => ?_) ⟨hmin, hstep⟩
  obtain ⟨hsame, hsameStep⟩ : (a.step display c).minAttenuation = a.minAttenuation ∧
      (a.step display c).stepSize = a.stepSize := a.step_scale c
  rwa [hsame, hsameStep]

/-- An enabled attenuator from 0 to 1 dB. -/
def oneDecibel (stepSize : ℚ) : VariableAttenuator ℚ := (VariableAttenuator.new 0 1 stepSize).enable

/-- Up to 1 dB, beyond it, which is refused, and down again. -/
def quarterCalls : List (AttenuatorCall ℚ) :=
  [.setAttenuation 0.6, .incrementAttenuation 0.4, .incrementAttenuation 1,
    .decrementAttenuation 0.3]

/-- Words and requests below the upper limit of 30 dB, and one of each kind that is refused. -/
def wordCalls : List (DigitalCall ℚ) :=
  [.setControlWord 3, .attenuation (.decrementAttenuation 10), .setControlWord 4,
    .attenuation (.incrementAttenuation 10), .attenuation (.setAttenuation 40)]

theorem quarter_steps_legal :
    Along (VariableAttenuator.step toString) (VariableAttenuator.SettlesLegally toString)
        (oneDecibel 0.25) quarterCalls ∧
      ∀ n, (run (DigitalStepAttenuator.step toString) (.started 2 30 true)
        (wordCalls.take n)).WordRestores toString := by
  obtain ⟨hlegal, hword⟩ := attenuations_legal_iff (K := ℚ) toString
  have hlimits : (0 : ℚ) ≤ 0 ∧ (0 : ℚ) ≤ 1 ∧ (0 : ℚ) < 0.25 := by decide +kernel
  constructor
  · refine (hlegal (oneDecibel 0.25) _ hlimits.1 hlimits.2.1 hlimits.2.2).mpr
      ⟨fun _ => ?_, fun _ => ?_, fun haccepts => ?_, fun _ => ?_, trivial⟩
    · decide +kernel
    · decide +kernel
    · exact absurd haccepts.2.2 (by decide +kernel)
    · decide +kernel
  · refine (hword 2 30 true _ (by decide) (by decide) (by norm_num)).mpr
      ⟨rfl, trivial, fun _ => ?_, trivial, fun _ => ?_, fun haccepts => ?_, trivial⟩
    · decide +kernel
    · decide +kernel
    · exact absurd haccepts.2.2 (by decide +kernel)

/-- In steps of 0.6 dB, 1 dB is rounded to 1.2 dB, and the upper limit of a digital attenuator has a
word that is refused. -/
theorem rounded_beyond_limit :
    (¬ Along (VariableAttenuator.step toString) (VariableAttenuator.SettlesLegally toString)
        (oneDecibel 0.6) [.setAttenuation 1]) ∧
      ¬ ∀ n, (run (DigitalStepAttenuator.step toString) (.started 1 30 true)
        (([.attenuation (.setAttenuation 30)] : List (DigitalCall ℚ)).take n)).WordRestores
          toString := by
  constructor
  · rintro ⟨hlegal, -⟩
    have hbeyond :
        ¬ ((oneDecibel 0.6).step toString (.setAttenuation 1)).currentAttenuation ≤ 1 := by
      decide +kernel
    exact hbeyond (hlegal (by decide +kernel)).1.2
  · intro h
    have hword : (run (DigitalStepAttenuator.step toString) (.started 1 30 true)
        ([.attenuation (.setAttenuation 30)] : List (DigitalCall ℚ))).getControlWord = .ok 2 := by
      decide +kernel
    have hrefused := ((h 1).1 2 hword).1
    exact absurd hrefused (by decide +kernel)

end GroundCore.RfFrontEnd
