import Mathlib.Algebra.Order.BigOperators.Group.List
import Mathlib.Data.Rat.Floor
import Mathlib.Order.Interval.Set.UnorderedInterval
import Mathlib.Tactic.Linarith
import Mathlib.Tactic.NormNum
import GroundCore.RfFrontEnd.Devices

/-! The automatic gain control of the receiving chain.  Half of the error goes to every amplifier
and, with the opposite sign, to every attenuator, so that the loop overshoots on long chains. -/

namespace GroundCore.RfFrontEnd

variable {K : Type} [Field K] [LinearOrder K]

inductive AgcMode
  | manual
  | automatic
  deriving DecidableEq, Repr

structure AgcConfig (K : Type) where
  targetLevel : K
  attackTime : ℕ
  releaseTime : ℕ
  maxGain : K
  minGain : K
  hysteresis : K

def AgcConfig.default : AgcConfig K :=
  { targetLevel := -10.0, attackTime := 10, releaseTime := 100, maxGain := 60.0, minGain := 0
    hysteresis := 2.0 }

structure AgcController (K : Type) where
  config : AgcConfig K
  mode : AgcMode
  currentLevel : K
  amplifiers : List (GenericAmplifier K)
  attenuators : List (VariableAttenuator K)
  enabled : Bool

structure AgcStatus (K : Type) where
  enabled : Bool
  mode : AgcMode
  currentLevel : K
  targetLevel : K
  totalGain : K
  error : K

def clamp (x low high : K) : K := max low (min high x)

namespace AgcController

def new (config : AgcConfig K) : AgcController K :=
  { config, mode := .manual, currentLevel := -20.0, amplifiers := [], attenuators := []
    enabled := false }

def addAmplifier (c : AgcController K) (amplifier : GenericAmplifier K) : AgcController K :=
  { c with amplifiers := c.amplifiers ++ [amplifier] }

def addAttenuator (c : AgcController K) (attenuator : VariableAttenuator K) : AgcController K :=
  { c with attenuators := c.attenuators ++ [attenuator] }

def setMode (c : AgcController K) (mode : AgcMode) : AgcController K := { c with mode }

def enable (c : AgcController K) : AgcController K := { c with enabled := true }

def disable (c : AgcController K) : AgcController K := { c with enabled := false }

/-- Simple proportional control. -/
def computeAdjustment (error : K) : K := 0.5 * error

/-- An amplifier that refuses the new gain keeps its old one. -/
def adjustAmplifier (config : AgcConfig K) (adjustment : K) (a : GenericAmplifier K) :
    GenericAmplifier K :=
  match a.getGain with
  | .error _ => a
  | .ok currentGain =>
    (a.setGain (clamp (currentGain + adjustment) config.minGain config.maxGain)).1

variable [FloorRing K] (display : K → String)

def adjustAttenuator (adjustment : K) (a : VariableAttenuator K) : VariableAttenuator K :=
  match a.getAttenuation with
  | .error _ => a
  | .ok currentAtten => (a.setAttenuation display (clamp (currentAtten - adjustment) 0 31.5)).1

def adjustGain (c : AgcController K) : AgcController K :=
  let error := c.config.targetLevel - c.currentLevel
  if |error| < c.config.hysteresis then c
  else
    let adjustment := computeAdjustment error
    { c with
      amplifiers := c.amplifiers.map (adjustAmplifier c.config adjustment)
      attenuators := c.attenuators.map (adjustAttenuator display adjustment) }

def updateSignalLevel (c : AgcController K) (level : K) : AgcController K :=
  let c := { c with currentLevel := level }
  if c.enabled ∧ c.mode = .automatic then c.adjustGain display else c

def setManualGain (c : AgcController K) (gainDb : K) : AgcController K :=
  { c with
    amplifiers := c.amplifiers.map fun a => (a.setGain gainDb).1
    attenuators := c.attenuators.map fun a => (a.setAttenuation display 0).1 }

def gainOf (a : GenericAmplifier K) : K := a.getGain.toOption.getD 0

def attenuationOf (a : VariableAttenuator K) : K := a.getAttenuation.toOption.getD 0

/-- Devices that cannot be read are left out of the sum. -/
def getTotalGain (c : AgcController K) : K :=
  (c.amplifiers.map gainOf).sum - (c.attenuators.map attenuationOf).sum

def getStatus (c : AgcController K) : AgcStatus K :=
  { enabled := c.enabled, mode := c.mode, currentLevel := c.currentLevel
    targetLevel := c.config.targetLevel, totalGain := c.getTotalGain
    error := c.config.targetLevel - c.currentLevel }

/-! ### The closed loop -/

/-- The error at a constant input. -/
def errorAt (c : AgcController K) (input : K) : K :=
  c.config.targetLevel - (input + c.getTotalGain)

/-- One update with the level that the input has after the gains. -/
def updateAt (c : AgcController K) (input : K) : AgcController K :=
  c.updateSignalLevel display (input + c.getTotalGain)

/-- Half of the error, cut off at the room that an amplifier has to either limit. -/
def correction (config : AgcConfig K) (error : K) (a : GenericAmplifier K) : K :=
  max (config.minGain - a.currentGain) (min (config.maxGain - a.currentGain) (0.5 * error))

/-- The attenuation that half of the error leaves, within the limits of the loop. -/
def relieved (error : K) (a : VariableAttenuator K) : K :=
  clamp (attenuationOf a - 0.5 * error) 0 31.5

/-- What an attenuator gives up of its attenuation: what the step nearest to the one that half of
the error leaves is below it, unless that is out of its range or the attenuator is off. -/
def relief (error : K) (a : VariableAttenuator K) : K :=
  if a.enabled = true ∧ a.minAttenuation ≤ relieved error a ∧
      relieved error a ≤ a.maxAttenuation then
    attenuationOf a - a.getCalibratedAttenuation
      (VariableAttenuator.round (relieved error a / a.stepSize) * a.stepSize)
  else 0

/-- The corrections of all devices together. -/
def totalCorrection (c : AgcController K) (error : K) : K :=
  (c.amplifiers.map (correction c.config error)).sum + (c.attenuators.map (relief error)).sum

/-- An update lets no error grow, and in manual or disabled mode no gain change. -/
structure Contracts (c : AgcController K) (input : K) : Prop where
  automatic : c.enabled = true ∧ c.mode = .automatic →
    |(c.updateAt display input).errorAt input| ≤ |c.errorAt input|
  unchanged : ¬ (c.enabled = true ∧ c.mode = .automatic) →
    (c.updateAt display input).amplifiers = c.amplifiers ∧
      (c.updateAt display input).attenuators = c.attenuators

/-! ### One update -/

section Update

omit [FloorRing K]

variable {config : AgcConfig K} {a : GenericAmplifier K} {error : K}

/-- The limits lie in the range of the amplifiers. -/
def LimitsInRange (config : AgcConfig K) : Prop :=
  -20.0 ≤ config.minGain ∧ config.minGain ≤ config.maxGain ∧ config.maxGain ≤ 60.0

theorem clamp_mem (h : LimitsInRange config) (x : K) :
    -20.0 ≤ clamp x config.minGain config.maxGain ∧
      clamp x config.minGain config.maxGain ≤ 60.0 :=
  ⟨h.1.trans (le_max_left _ _), max_le (h.2.1.trans h.2.2) ((min_le_left _ _).trans h.2.2)⟩

theorem adjustAmplifier_eq (ha : a.Ready) (h : LimitsInRange config) (adjustment : K) :
    adjustAmplifier config adjustment a =
      { a with currentGain :=
          clamp (a.currentGain + adjustment) config.minGain config.maxGain } := by
  simp only [adjustAmplifier, GenericAmplifier.getGain]
  rw [GenericAmplifier.setGain_of_ready ha (clamp_mem h _)]

variable [IsStrictOrderedRing K]

theorem half_mul (error : K) : 0.5 * error = error / 2 := by
  norm_num
  ring

/-- A ready amplifier is moved by its correction. -/
theorem gainOf_adjustAmplifier (ha : a.Ready) (h : LimitsInRange config) :
    gainOf (adjustAmplifier config (computeAdjustment error) a) =
      gainOf a + correction config error a := by
  have hclamp : clamp (a.currentGain + computeAdjustment error) config.minGain config.maxGain =
      a.currentGain + correction config error a := by
    rw [clamp, correction, computeAdjustment, ← max_add_add_left, ← min_add_add_left,
      add_sub_cancel, add_sub_cancel]
  rw [adjustAmplifier_eq ha h]
  exact hclamp

theorem sum_adjustAmplifier {amplifiers : List (GenericAmplifier K)}
    (hready : ∀ a ∈ amplifiers, a.Ready) (h : LimitsInRange config) :
    ((amplifiers.map (adjustAmplifier config (computeAdjustment error))).map gainOf).sum =
      (amplifiers.map gainOf).sum + (amplifiers.map (correction config error)).sum := by
  induction amplifiers with
  | nil => simp
  | cons a amplifiers ih =>
    simp only [List.map_cons, List.sum_cons,
      gainOf_adjustAmplifier (hready a List.mem_cons_self) h,
      ih fun b hb => hready b (List.mem_cons_of_mem a hb)]
    ring

theorem abs_sub_le_abs_iff {shift : K} :
    |error - shift| ≤ |error| ↔ shift ∈ Set.uIcc 0 (2 * error) := by
  rw [← sq_le_sq, Set.mem_uIcc]
  have hsq : (error - shift) ^ 2 ≤ error ^ 2 ↔ shift * (shift - 2 * error) ≤ 0 := by
    constructor
    · intro h
      linarith
    · intro h
      linarith
  rw [hsq, mul_nonpos_iff, sub_nonpos, sub_nonneg]
  exact or_congr Iff.rfl and_comm

end Update

/-- An attenuator that is told to give up half of the error gives up its relief. -/
theorem attenuationOf_adjustAttenuator (a : VariableAttenuator K) (error : K) :
    attenuationOf (adjustAttenuator display (computeAdjustment error) a) =
      attenuationOf a - relief error a := by
  have hread : a.getCalibratedAttenuation a.currentAttenuation = attenuationOf a := rfl
  simp only [adjustAttenuator, VariableAttenuator.getAttenuation, hread, computeAdjustment]
  rw [← relieved, relief]
  unfold VariableAttenuator.setAttenuation
  cases henabled : a.enabled with
  | false => simp
  | true =>
    by_cases hrange : a.minAttenuation ≤ relieved error a ∧ relieved error a ≤ a.maxAttenuation
    · rw [if_neg (by decide), if_neg (by rw [not_or, not_lt, not_lt]; exact hrange),
        if_pos ⟨rfl, hrange⟩, sub_sub_cancel]
      rfl
    · rw [if_neg (by decide), if_pos (by rwa [not_and_or, not_le, not_le] at hrange),
        if_neg fun h => hrange h.2, sub_zero]

theorem sum_relief (attenuators : List (VariableAttenuator K)) (error : K) :
    ((attenuators.map (adjustAttenuator display (computeAdjustment error))).map attenuationOf).sum =
      (attenuators.map attenuationOf).sum - (attenuators.map (relief error)).sum := by
  induction attenuators with
  | nil => simp
  | cons a attenuators ih =>
    simp only [List.map_cons, List.sum_cons, ih, attenuationOf_adjustAttenuator]
    ring

section ClosedLoop

variable [IsStrictOrderedRing K] {c : AgcController K} {input : K}

/-- An update subtracts the corrections from an error that reaches the hysteresis. -/
theorem errorAt_updateAt (hready : ∀ a ∈ c.amplifiers, a.Ready) (hlimits : LimitsInRange c.config)
    (hauto : c.enabled = true ∧ c.mode = .automatic) :
    (c.updateAt display input).errorAt input =
      if |c.errorAt input| < c.config.hysteresis then c.errorAt input
      else c.errorAt input - c.totalCorrection (c.errorAt input) := by
  have herror : c.config.targetLevel - (input + c.getTotalGain) = c.errorAt input := rfl
  simp only [updateAt, updateSignalLevel, if_pos hauto, adjustGain, herror]
  split
  · rfl
  · simp only [errorAt, getTotalGain, totalCorrection] at herror ⊢
    rw [sum_adjustAmplifier hready hlimits, sum_relief]
    ring

theorem contracts_iff (hready : ∀ a ∈ c.amplifiers, a.Ready) (hlimits : LimitsInRange c.config) :
    c.Contracts display input ↔
      (c.enabled = true ∧ c.mode = .automatic →
        |c.errorAt input| < c.config.hysteresis ∨
          c.totalCorrection (c.errorAt input) ∈ Set.uIcc 0 (2 * c.errorAt input)) := by
  have hmanual : ¬ (c.enabled = true ∧ c.mode = .automatic) →
      (c.updateAt display input).amplifiers = c.amplifiers ∧
        (c.updateAt display input).attenuators = c.attenuators := by
    intro hnot
    simp only [updateAt, updateSignalLevel, if_neg hnot, and_self]
  have hsplit : c.Contracts display input ↔ (c.enabled = true ∧ c.mode = .automatic →
      |(c.updateAt display input).errorAt input| ≤ |c.errorAt input|) :=
    ⟨fun h => h.automatic, fun h => ⟨h, hmanual⟩⟩
  rw [hsplit]
  refine forall_congr' fun hauto => ?_
  rw [errorAt_updateAt display hready hlimits hauto]
  split
  · next hsmall => exact iff_of_true le_rfl (.inl hsmall)
  · next hlarge => rw [abs_sub_le_abs_iff, or_iff_right hlarge]

/-! ### Short and long chains -/

/-- At most four ready amplifiers, with gains within the limits, and no attenuators. -/
structure ShortChain (c : AgcController K) : Prop where
  ready : ∀ a ∈ c.amplifiers, a.Ready
  limits : LimitsInRange c.config
  within : ∀ a ∈ c.amplifiers, c.config.minGain ≤ a.currentGain ∧ a.currentGain ≤ c.config.maxGain
  length : c.amplifiers.length ≤ 4
  attenuators : c.attenuators = []

omit [FloorRing K] in
/-- Within the limits a correction goes toward the target, by at most half of the error. -/
theorem correction_mem {config : AgcConfig K} {a : GenericAmplifier K} (error : K)
    (h : config.minGain ≤ a.currentGain ∧ a.currentGain ≤ config.maxGain) :
    correction config error a ∈ Set.uIcc 0 (error / 2) := by
  have hlow : config.minGain - a.currentGain ≤ 0 := sub_nonpos.mpr h.1
  have hhigh : 0 ≤ config.maxGain - a.currentGain := sub_nonneg.mpr h.2
  rw [Set.mem_uIcc, correction, half_mul]
  rcases le_total 0 (error / 2) with herror | herror
  · exact .inl ⟨le_max_of_le_right (le_min hhigh herror),
      max_le (hlow.trans herror) (min_le_right _ _)⟩
  · rw [min_eq_right (herror.trans hhigh)]
    exact .inr ⟨le_max_right _ _, max_le hlow herror⟩

omit [FloorRing K] in
theorem sum_correction_mem {config : AgcConfig K} {amplifiers : List (GenericAmplifier K)}
    (error : K) (h : ∀ a ∈ amplifiers, config.minGain ≤ a.currentGain ∧
      a.currentGain ≤ config.maxGain) (hlength : amplifiers.length ≤ 4) :
    (amplifiers.map (correction config error)).sum ∈ Set.uIcc 0 (2 * error) := by
  have hmem : ∀ x ∈ amplifiers.map (correction config error), x ∈ Set.uIcc 0 (error / 2) := by
    intro x hx
    obtain ⟨a, ha, rfl⟩ := List.mem_map.mp hx
    exact correction_mem error (h a ha)
  have hcount : ((amplifiers.map (correction config error)).length : K) ≤ 4 := by
    rw [List.length_map]
    exact_mod_cast hlength
  rcases le_total 0 (error / 2) with herror | herror
  · rw [Set.uIcc_of_le herror] at hmem
    have hsum := List.sum_le_card_nsmul _ _ fun x hx => (hmem x hx).2
    rw [nsmul_eq_mul] at hsum
    rw [Set.mem_uIcc]
    exact .inl ⟨List.sum_nonneg fun x hx => (hmem x hx).1, by nlinarith⟩
  · rw [Set.uIcc_of_ge herror] at hmem
    have hsum := List.card_nsmul_le_sum _ _ fun x hx => (hmem x hx).1
    have hnonpos := List.sum_le_card_nsmul _ _ fun x hx => (hmem x hx).2
    rw [nsmul_eq_mul] at hsum
    rw [nsmul_zero] at hnonpos
    rw [Set.mem_uIcc]
    exact .inr ⟨by nlinarith, hnonpos⟩

theorem ShortChain.contracts (h : ShortChain c) (input : K) :
    |(c.updateAt display input).errorAt input| ≤ |c.errorAt input| := by
  by_cases hauto : c.enabled = true ∧ c.mode = .automatic
  · rw [errorAt_updateAt display h.ready h.limits hauto]
    split
    · exact le_rfl
    · rw [abs_sub_le_abs_iff, totalCorrection, h.attenuators, List.map_nil, List.sum_nil, add_zero]
      exact sum_correction_mem _ h.within h.length
  · simp only [updateAt, updateSignalLevel, if_neg hauto]
    exact le_rfl

omit [IsStrictOrderedRing K] in
/-- An update keeps the gains within the limits. -/
theorem ShortChain.kept (h : ShortChain c) (input : K) :
    ShortChain (c.updateAt display input) := by
  unfold AgcController.updateAt updateSignalLevel
  dsimp only
  split
  · unfold adjustGain
    dsimp only
    split
    · exact ⟨h.ready, h.limits, h.within, h.length, h.attenuators⟩
    · have hadjusted : ∀ a ∈ c.amplifiers.map (adjustAmplifier c.config (computeAdjustment
          (c.config.targetLevel - (input + c.getTotalGain)))),
            a.Ready ∧ c.config.minGain ≤ a.currentGain ∧ a.currentGain ≤ c.config.maxGain := by
        intro a ha
        obtain ⟨b, hb, rfl⟩ := List.mem_map.mp ha
        rw [adjustAmplifier_eq (h.ready b hb) h.limits]
        exact ⟨h.ready b hb, le_max_left _ _, max_le h.limits.2.1 (min_le_left _ _)⟩
      refine ⟨fun a ha => (hadjusted a ha).1, h.limits, fun a ha => (hadjusted a ha).2, ?_, ?_⟩
      · rw [List.length_map]
        exact h.length
      · rw [h.attenuators, List.map_nil]
  · exact ⟨h.ready, h.limits, h.within, h.length, h.attenuators⟩

/-- In a short chain the error never grows, however many updates there are. -/
theorem ShortChain.error_le (h : ShortChain c) (input : K) (n : ℕ) :
    |((fun c => c.updateAt display input)^[n] c).errorAt input| ≤ |c.errorAt input| := by
  induction n generalizing c with
  | zero => exact le_rfl
  | succ n ih =>
    rw [Function.iterate_succ_apply]
    exact (ih (h.kept display input)).trans (h.contracts display input)

/-- Five or more amplifiers that all have the room overshoot. -/
theorem long_chain_overshoots (hready : ∀ a ∈ c.amplifiers, a.Ready)
    (hlimits : LimitsInRange c.config) (hauto : c.enabled = true ∧ c.mode = .automatic)
    (hattenuators : c.attenuators = []) (hlength : 5 ≤ c.amplifiers.length)
    (herror : c.errorAt input ≠ 0) (hlarge : c.config.hysteresis ≤ |c.errorAt input|)
    (hroom : ∀ a ∈ c.amplifiers, c.config.minGain ≤ a.currentGain + c.errorAt input / 2 ∧
      a.currentGain + c.errorAt input / 2 ≤ c.config.maxGain) :
    |c.errorAt input| < |(c.updateAt display input).errorAt input| := by
  have hcorrection : ∀ a ∈ c.amplifiers,
      correction c.config (c.errorAt input) a = c.errorAt input / 2 := by
    intro a ha
    obtain ⟨hlow, hhigh⟩ := hroom a ha
    rw [correction, half_mul, min_eq_right (by linarith), max_eq_right (by linarith)]
  have hsum : c.totalCorrection (c.errorAt input) =
      c.amplifiers.length * (c.errorAt input / 2) := by
    rw [totalCorrection, hattenuators, List.map_congr_left hcorrection, List.map_const',
      List.sum_replicate, nsmul_eq_mul, List.map_nil, List.sum_nil, add_zero]
  have hcount : (5 : K) ≤ c.amplifiers.length := by exact_mod_cast hlength
  rw [errorAt_updateAt display hready hlimits hauto, if_neg (not_lt.mpr hlarge), hsum, ← not_le,
    abs_sub_le_abs_iff, Set.mem_uIcc]
  rintro (⟨hlow, hhigh⟩ | ⟨hlow, hhigh⟩)
  · have hpos : 0 < c.errorAt input := lt_of_le_of_ne (by nlinarith) herror.symm
    nlinarith
  · have hneg : c.errorAt input < 0 := lt_of_le_of_ne (by nlinarith) herror
    nlinarith

/-- An update lets no error grow, and in manual or disabled mode no gain change, exactly when the
error is within the hysteresis or the corrections together stay within twice the error: always with
at most four amplifiers within the limits, and never with five or more that all have the room. -/
theorem agc_contracts_iff (c : AgcController K) (hready : ∀ a ∈ c.amplifiers, a.Ready)
    (hlimits : LimitsInRange c.config) (input : K) :
    (c.Contracts display input ↔
      (c.enabled = true ∧ c.mode = .automatic →
        |c.errorAt input| < c.config.hysteresis ∨
          c.totalCorrection (c.errorAt input) ∈ Set.uIcc 0 (2 * c.errorAt input))) ∧
      (c.attenuators = [] → c.amplifiers.length ≤ 4 →
        (∀ a ∈ c.amplifiers, c.config.minGain ≤ a.currentGain ∧
          a.currentGain ≤ c.config.maxGain) → c.Contracts display input) ∧
      (c.attenuators = [] → 5 ≤ c.amplifiers.length → c.enabled = true ∧ c.mode = .automatic →
        c.errorAt input ≠ 0 → c.config.hysteresis ≤ |c.errorAt input| →
        (∀ a ∈ c.amplifiers, c.config.minGain ≤ a.currentGain + c.errorAt input / 2 ∧
          a.currentGain + c.errorAt input / 2 ≤ c.config.maxGain) →
        ¬ c.Contracts display input) := by
  refine ⟨contracts_iff display hready hlimits, fun hattenuators hlength hwithin => ?_,
    fun hattenuators hlength hauto herror hlarge hroom hcontracts => ?_⟩
  · refine (contracts_iff display hready hlimits).mpr fun _ => .inr ?_
    rw [totalCorrection, hattenuators, List.map_nil, List.sum_nil, add_zero]
    exact sum_correction_mem _ hwithin hlength
  · have hovershoots := long_chain_overshoots display hready hlimits hauto hattenuators hlength
      herror hlarge hroom
    exact absurd (hcontracts.automatic hauto) (not_le.mpr hovershoots)

end ClosedLoop

/-! ### Five amplifiers -/

/-- A chain of fresh amplifiers that are switched on, under the default configuration. -/
def freshChain (n : ℕ) : AgcController ℚ :=
  { new .default with
    mode := .automatic
    enabled := true
    amplifiers := List.replicate n ((GenericAmplifier.new 85).enable).1 }

theorem ready_freshChain (n : ℕ) : ∀ a ∈ (freshChain n).amplifiers, a.Ready := by
  intro a ha
  rw [List.eq_of_mem_replicate ha]
  exact ⟨rfl, rfl⟩

/-- Five amplifiers turn an error of 40 dB into one of 60 dB. -/
theorem five_amplifiers_diverge :
    (∀ a ∈ (freshChain 5).amplifiers, a.Ready) ∧ LimitsInRange (freshChain 5).config ∧
    (freshChain 5).errorAt (-50) = 40 ∧
    ((freshChain 5).updateAt (fun _ => "") (-50)).errorAt (-50) = -60 ∧
    ¬ |((freshChain 5).updateAt (fun _ => "") (-50)).errorAt (-50)| ≤
      |(freshChain 5).errorAt (-50)| := by
  have hbefore : (freshChain 5).errorAt (-50) = 40 := by decide +kernel
  have hafter : ((freshChain 5).updateAt (fun _ => "") (-50)).errorAt (-50) = -60 := by
    decide +kernel
  refine ⟨ready_freshChain 5, ⟨by decide +kernel, by decide +kernel, by decide +kernel⟩, hbefore,
    hafter, ?_⟩
  rw [hbefore, hafter]
  norm_num

/-- Four amplifiers turn an error of 40 dB into one of -40 dB, which does not exceed it. -/
theorem agc_contracts_iff_four : (freshChain 4).Contracts (fun _ => "") (-50) := by
  refine (agc_contracts_iff (fun _ => "") (freshChain 4) (ready_freshChain 4)
    ⟨by decide +kernel, by decide +kernel, by decide +kernel⟩ (-50)).1.mpr fun _ => .inr ?_
  rw [Set.mem_uIcc]
  decide +kernel

end AgcController

end GroundCore.RfFrontEnd
