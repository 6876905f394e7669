import Mathlib.Tactic.IntervalCases
import GroundCore.Lib.RealFloat
import GroundCore.Lib.Run
import GroundCore.RfLayer.Demodulator

/-! The timing loop of the demodulator.  A symbol ends when its phase reaches one, and its midpoint
is sampled when the phase passes one half.  The correction after a symbol is limited to half a
symbol, so that the next one may start at one half, and its midpoint is never sampled. -/

namespace GroundCore.RfLayer.DemodState

open Lib FloatOps RealFloat

variable {F64 F32 : Type} [FloatOps F64 F32]

/-! ### The parts of a step -/

variable (state : DemodState F64 F32) (sample : Sample F32)

/-- The in-phase part of the sample at the carrier phase. -/
def baseband : F64 :=
  ofF32 sample.i * cos state.carrierPhaseRad + ofF32 sample.q * sin state.carrierPhaseRad

def nextPhase : F64 := state.symbolPhase + lit 1 / state.samplesPerSymbol

/-- The sample is at the midpoint of a symbol. -/
def crossesHalf : Bool := lt state.symbolPhase (lit 0.5) && le (lit 0.5) state.nextPhase

/-- The sample ends a symbol. -/
def decides : Bool := le (lit 1) state.nextPhase

/-- The midpoint that a timing error at the sample uses. -/
def midpointAt : F32 := if state.crossesHalf then toF32 (state.baseband sample) else state.midpointI

def timingError : F64 :=
  ofF32 (state.midpointAt sample) * (state.baseband sample - ofF32 state.prevDecisionI)

/-- The phase after a symbol, before it is limited. -/
def correctedPhase : F64 :=
  state.nextPhase - lit 1 - gardnerGain * state.timingError sample

def hardBit : UInt8 := if le (lit 0) (state.baseband sample) then 1 else 0

/-- The bit that is decided at the sample. -/
def decidedBit : Option UInt8 := if state.decides then some (state.hardBit sample) else none

/-- The byte that the sample completes. -/
def emitted : Option UInt8 := (state.processSample sample).2.toOption.getD none

/-- The state after the carrier is recovered and the symbol clock has moved on. -/
def recovered : DemodState F64 F32 :=
  let iIn : F64 := ofF32 sample.i
  let qIn : F64 := ofF32 sample.q
  let qB := (-iIn) * sin state.carrierPhaseRad + qIn * cos state.carrierPhaseRad
  let carrierError := if le (lit 0) (state.baseband sample) then qB else -qB
  let carrierFreq := state.carrierFreqRadPerSample + costasBeta * carrierError
  let carrierPhase := remEuclid
    (state.carrierPhaseRad + carrierFreq + costasAlpha * carrierError) (lit 2 * pi)
  { state with
    lastSampleId := sample.id
    carrierFreqRadPerSample := carrierFreq
    carrierPhaseRad := carrierPhase
    ncoPhase := carrierPhase / (lit 2 * pi)
    frequencyOffset := toI64 (carrierFreq * lit 1e6 / (lit 2 * pi))
    carrierLocked := lt (abs carrierError) (lit 0.1)
    symbolPhase := state.nextPhase }

/-- The state after the midpoint of the symbol is sampled, when it is there. -/
def sampled : DemodState F64 F32 :=
  if state.crossesHalf then
    { state.recovered sample with midpointI := toF32 (state.baseband sample) }
  else state.recovered sample

/-- The state after the end of a symbol. -/
def decided (iB : F64) : DemodState F64 F32 :=
  let timingError := ofF32 state.midpointI * (iB - ofF32 state.prevDecisionI)
  let symbolPhase :=
    abs (clamp (state.symbolPhase - lit 1 - gardnerGain * timingError) (lit (-0.5)) (lit 0.5))
  { state with
    symbolPhase
    symbolSync :=
      { timingOffset := timingError
        clockPhase := symbolPhase
        errorAccumulator := state.symbolSync.errorAccumulator + abs timingError }
    bitBuffer := state.bitBuffer ++ [if le (lit 0) iB then 1 else 0]
    prevDecisionI := toF32 iB }

omit [FloatOps F64 F32] in
/-- The first eight bits leave the buffer as a byte. -/
def assembleByte : DemodState F64 F32 × Result (Option UInt8) :=
  if 8 ≤ state.bitBuffer.length then
    let byte : UInt8 := (state.bitBuffer.take 8).foldl (fun acc b => (acc <<< 1) ||| b) 0
    ({ state with bitBuffer := state.bitBuffer.drop 8 }, .ok (some byte))
  else (state, .ok none)

variable {state sample}

/-- A step, with its parts by name. -/
theorem processSample_eq :
    state.processSample sample =
      if le (lit 1) (state.sampled sample).symbolPhase then
        ((state.sampled sample).decided (state.baseband sample)).assembleByte
      else (state.sampled sample, .ok none) :=
  rfl

@[simp] theorem symbolPhase_sampled : (state.sampled sample).symbolPhase = state.nextPhase := by
  unfold sampled
  split <;> rfl

@[simp] theorem samplesPerSymbol_sampled :
    (state.sampled sample).samplesPerSymbol = state.samplesPerSymbol := by
  unfold sampled
  split <;> rfl

@[simp] theorem bitBuffer_sampled : (state.sampled sample).bitBuffer = state.bitBuffer := by
  unfold sampled
  split <;> rfl

@[simp] theorem prevDecisionI_sampled :
    (state.sampled sample).prevDecisionI = state.prevDecisionI := by
  unfold sampled
  split <;> rfl

@[simp] theorem midpointI_sampled : (state.sampled sample).midpointI = state.midpointAt sample := by
  unfold sampled midpointAt
  split <;> rfl

section AssembleByte

omit [FloatOps F64 F32]

@[simp] theorem symbolPhase_assembleByte :
    state.assembleByte.1.symbolPhase = state.symbolPhase := by
  unfold assembleByte
  split <;> rfl

@[simp] theorem samplesPerSymbol_assembleByte :
    state.assembleByte.1.samplesPerSymbol = state.samplesPerSymbol := by
  unfold assembleByte
  split <;> rfl

@[simp] theorem midpointI_assembleByte : state.assembleByte.1.midpointI = state.midpointI := by
  unfold assembleByte
  split <;> rfl

end AssembleByte

theorem processSample_of_decides (h : state.decides = true) :
    state.processSample sample =
      ((state.sampled sample).decided (state.baseband sample)).assembleByte := by
  rw [processSample_eq, symbolPhase_sampled]
  exact if_pos h

theorem processSample_of_not_decides (h : state.decides = false) :
    state.processSample sample = (state.sampled sample, .ok none) := by
  rw [processSample_eq, symbolPhase_sampled]
  exact if_neg (Bool.not_eq_true _ ▸ h)

/-- At the end of a symbol the phase is corrected, and limited. -/
theorem symbolPhase_of_decides (h : state.decides = true) :
    (state.processSample sample).1.symbolPhase =
      abs (clamp (state.correctedPhase sample) (lit (-0.5)) (lit 0.5)) := by
  rw [processSample_of_decides h, symbolPhase_assembleByte, decided]
  simp only [symbolPhase_sampled, midpointI_sampled, prevDecisionI_sampled]
  rfl

theorem symbolPhase_of_not_decides (h : state.decides = false) :
    (state.processSample sample).1.symbolPhase = state.nextPhase := by
  rw [processSample_of_not_decides h, symbolPhase_sampled]

@[simp] theorem samplesPerSymbol_processSample :
    (state.processSample sample).1.samplesPerSymbol = state.samplesPerSymbol := by
  cases h : state.decides with
  | true => simp [processSample_of_decides h, decided]
  | false => simp [processSample_of_not_decides h]

@[simp] theorem midpointI_processSample :
    (state.processSample sample).1.midpointI = state.midpointAt sample := by
  cases h : state.decides with
  | true => simp [processSample_of_decides h, decided]
  | false => simp [processSample_of_not_decides h]

/-! ### The phase -/

section Phase

variable [RealFloat F64 F32]

/-- The correction leaves the phase between the limits. -/
def Unclamped (state : DemodState F64 F32) (sample : Sample F32) : Prop :=
  |val (state.correctedPhase sample)| < 0.5

/-- The phase is within a symbol. -/
structure InSymbol (state : DemodState F64 F32) : Prop where
  samplesPerSymbol : 0 < val state.samplesPerSymbol
  nonneg : 0 ≤ val state.symbolPhase
  lt_one : val state.symbolPhase < 1

theorem val_half : val (lit 0.5 : F64) = 0.5 := by
  rw [val_lit]
  norm_num

theorem decides_iff : state.decides ↔ 1 ≤ val state.nextPhase := by
  rw [decides, le_iff, val_lit, Rat.cast_one]

theorem crossesHalf_iff :
    state.crossesHalf ↔ val state.symbolPhase < 0.5 ∧ 0.5 ≤ val state.nextPhase := by
  rw [crossesHalf, Bool.and_eq_true, lt_iff, le_iff, val_half]

theorem lt_nextPhase (h : 0 < val state.samplesPerSymbol) :
    val state.symbolPhase < val state.nextPhase := by
  rw [nextPhase, val_add, val_div _ _ h.ne', val_lit, Rat.cast_one]
  exact lt_add_of_pos_right _ (one_div_pos.mpr h)

theorem val_symbolPhase_of_decides (h : state.decides = true) :
    val (state.processSample sample).1.symbolPhase =
      min |val (state.correctedPhase sample)| 0.5 := by
  have hlow : val (lit (-0.5) : F64) = -val (lit 0.5 : F64) := by
    rw [val_lit, val_lit]
    norm_num
  rw [symbolPhase_of_decides h, val_abs_clamp hlow (by rw [val_half]; norm_num), val_half]

theorem InSymbol.step (h : state.InSymbol) (sample : Sample F32) :
    (state.processSample sample).1.InSymbol := by
  refine ⟨by simpa using h.samplesPerSymbol, ?_, ?_⟩
  · cases hdecides : state.decides with
    | true =>
      rw [val_symbolPhase_of_decides hdecides]
      exact le_min (abs_nonneg _) (by norm_num)
    | false =>
      rw [symbolPhase_of_not_decides hdecides]
      exact h.nonneg.trans (lt_nextPhase h.samplesPerSymbol).le
  · cases hdecides : state.decides with
    | true =>
      rw [val_symbolPhase_of_decides hdecides]
      exact (min_le_right _ _).trans_lt (by norm_num)
    | false =>
      rw [symbolPhase_of_not_decides hdecides]
      exact not_le.mp fun hle => by simp [decides_iff.mpr hle] at hdecides

end Phase

/-! ### The bits -/

/-- The bits of a byte, the most significant first. -/
def bitsOf (byte : UInt8) : List UInt8 :=
  (List.range 8).map fun i => (byte >>> UInt8.ofNat (7 - i)) &&& 1

/-- The bits that are decided while the samples are processed. -/
def decidedBits (state : DemodState F64 F32) : List (Sample F32) → List UInt8
  | [] => []
  | sample :: samples =>
    (state.decidedBit sample).toList ++ decidedBits (state.processSample sample).1 samples

/-- The bits of the bytes that the samples decode to, and those that are still in the buffer. -/
def output (state : DemodState F64 F32) (samples : List (Sample F32)) : List UInt8 :=
  (state.decode samples).2.flatMap bitsOf ++ (state.decode samples).1.bitBuffer

/-- The buffer has bits, and too few for a byte. -/
structure Buffered (state : DemodState F64 F32) : Prop where
  length : state.bitBuffer.length < 8
  bits : ∀ b ∈ state.bitBuffer, b = 0 ∨ b = 1

theorem bitsOf_assemble_bool : ∀ a b c d e f g h : Bool,
    bitsOf (([a, b, c, d, e, f, g, h].map Bool.toUInt8).foldl
      (fun acc b => (acc <<< 1) ||| b) 0) = [a, b, c, d, e, f, g, h].map Bool.toUInt8 := by
  decide +kernel

/-- A byte has the bits that it was assembled from. -/
theorem bitsOf_assemble {bits : List UInt8} (hlength : bits.length = 8)
    (hbits : ∀ b ∈ bits, b = 0 ∨ b = 1) :
    bitsOf (bits.foldl (fun acc b => (acc <<< 1) ||| b) 0) = bits := by
  have hbool : bits = (bits.map (· == 1)).map Bool.toUInt8 := by
    rw [List.map_map]
    refine (List.map_id bits).symm.trans (List.map_congr_left fun b hb => ?_)
    rcases hbits b hb with rfl | rfl <;> rfl
  rw [hbool]
  have hlength : (bits.map (· == 1)).length = 8 := by rwa [List.length_map]
  match bits.map (· == 1), hlength with
  | [a, b, c, d, e, f, g, h], _ => exact bitsOf_assemble_bool a b c d e f g h

omit [FloatOps F64 F32] in
variable (state) in
theorem assembleByte_output (hlength : state.bitBuffer.length ≤ 8)
    (hbits : ∀ b ∈ state.bitBuffer, b = 0 ∨ b = 1) :
    (state.assembleByte.2.toOption.getD none).toList.flatMap bitsOf ++
        state.assembleByte.1.bitBuffer = state.bitBuffer ∧ Buffered state.assembleByte.1 := by
  unfold assembleByte
  split
  · next hfull =>
    have heq : state.bitBuffer.length = 8 := le_antisymm hlength hfull
    have htake : state.bitBuffer.take 8 = state.bitBuffer := List.take_of_length_le hlength
    have hdrop : state.bitBuffer.drop 8 = [] := List.drop_eq_nil_of_le hlength
    refine ⟨?_, by simp [hdrop], by simp [hdrop]⟩
    simp only [Except.toOption, Option.getD_some, Option.toList_some, List.flatMap_singleton,
      htake, hdrop, List.append_nil]
    exact bitsOf_assemble heq hbits
  · next hpart =>
    exact ⟨rfl, not_le.mp hpart, hbits⟩

/-- A step keeps the decided bits in order, in the bytes and in the buffer. -/
theorem Buffered.step (h : Buffered state) (sample : Sample F32) :
    (state.emitted sample).toList.flatMap bitsOf ++ (state.processSample sample).1.bitBuffer =
        state.bitBuffer ++ (state.decidedBit sample).toList ∧
      Buffered (state.processSample sample).1 := by
  unfold emitted decidedBit
  cases hdecides : state.decides with
  | true =>
    have hbuffer : ((state.sampled sample).decided (state.baseband sample)).bitBuffer =
        state.bitBuffer ++ [state.hardBit sample] := by
      simp only [decided, bitBuffer_sampled]
      rfl
    rw [processSample_of_decides hdecides]
    have hstep :=
      ((state.sampled sample).decided (state.baseband sample)).assembleByte_output ?_ ?_
    · rw [hbuffer] at hstep
      exact hstep
    · rw [hbuffer, List.length_append]
      exact Nat.succ_le_of_lt h.length
    · rw [hbuffer]
      intro b hb
      rcases List.mem_append.mp hb with hb | hb
      · exact h.bits b hb
      · rw [List.mem_singleton.mp hb, hardBit]
        split
        · exact .inr rfl
        · exact .inl rfl
  | false =>
    rw [processSample_of_not_decides hdecides]
    refine ⟨by simp [Except.toOption], ?_, ?_⟩
    · simpa using h.length
    · simpa using h.bits

/-- What has been decided is what comes out. -/
theorem Buffered.output_eq (h : Buffered state) (samples : List (Sample F32)) :
    state.output samples = state.bitBuffer ++ state.decidedBits samples := by
  induction samples generalizing state with
  | nil => simp [output, decode, decidedBits]
  | cons sample samples ih =>
    obtain ⟨hbits, hbuffered⟩ := h.step sample
    have hrest := ih hbuffered
    simp only [output, decode, decidedBits, List.flatMap_append, List.append_assoc] at hrest ⊢
    rw [hrest, ← List.append_assoc, ← List.append_assoc, ← hbits]
    rfl

/-! ### Runs -/

/-- The state after a sample. -/
def next (state : DemodState F64 F32) (sample : Sample F32) : DemodState F64 F32 :=
  (state.processSample sample).1

/-- The state before the sample at place `i`. -/
def stateAt (start : DemodState F64 F32) (samples : List (Sample F32)) (i : ℕ) :
    DemodState F64 F32 :=
  (start.decode (samples.take i)).1

/-- The samples at `m` and `n` end symbols, and none in between does. -/
structure ConsecutiveDecisions (start : DemodState F64 F32) (samples : List (Sample F32))
    (m n : ℕ) : Prop where
  lt : m < n
  lt_length : n < samples.length
  first : (start.stateAt samples m).decides
  second : (start.stateAt samples n).decides
  between : ∀ k, m < k → k < n → (start.stateAt samples k).decides = false

/-- The timing error at `n` uses the midpoint that was sampled at `k`. -/
structure MidpointFrom (start : DemodState F64 F32) (samples : List (Sample F32)) (n k : ℕ) :
    Prop where
  le : k ≤ n
  crosses : (start.stateAt samples k).crossesHalf
  value : ∀ sample sample', samples[k]? = some sample → samples[n]? = some sample' →
    (start.stateAt samples n).midpointAt sample' =
      toF32 ((start.stateAt samples k).baseband sample)

variable {start : DemodState F64 F32} {samples : List (Sample F32)} {i j k m n : ℕ}

theorem decode_fst (state : DemodState F64 F32) (samples : List (Sample F32)) :
    (state.decode samples).1 = run next state samples := by
  induction samples generalizing state with
  | nil => rfl
  | cons sample samples ih => exact ih _

theorem stateAt_succ (h : samples[i]? = some sample) :
    start.stateAt samples (i + 1) = ((start.stateAt samples i).processSample sample).1 := by
  rw [stateAt, stateAt, decode_fst, decode_fst, List.take_add_one, h, run_append]
  rfl

theorem decidedBits_append (state : DemodState F64 F32) (first second : List (Sample F32)) :
    state.decidedBits (first ++ second) =
      state.decidedBits first ++ (run next state first).decidedBits second := by
  induction first generalizing state with
  | nil => rfl
  | cons sample first ih =>
    rw [List.cons_append, decidedBits, decidedBits, ih, List.append_assoc]
    rfl

theorem length_toList_le_one (bit : Option UInt8) : bit.toList.length ≤ 1 := by
  cases bit <;> simp

/-- One sample decides at most one bit. -/
theorem length_decidedBits_take_le (start : DemodState F64 F32) (samples : List (Sample F32))
    (i : ℕ) : (start.decidedBits (samples.take (i + 1))).length ≤
      (start.decidedBits (samples.take i)).length + 1 := by
  rw [List.take_add_one, decidedBits_append, List.length_append]
  refine Nat.add_le_add_left ?_ _
  cases samples[i]? with
  | none => simp [decidedBits]
  | some sample =>
    simp only [Option.toList_some, decidedBits, List.append_nil]
    exact length_toList_le_one _

section Timing

variable [RealFloat F64 F32]

theorem InSymbol.stateAt (h : start.InSymbol) (samples : List (Sample F32)) (i : ℕ) :
    (start.stateAt samples i).InSymbol := by
  rw [DemodState.stateAt, decode_fst]
  exact run_preserves (fun _ sample hstate => hstate.step sample) h _

/-- Within a symbol the phase grows. -/
theorem symbolPhase_mono (h : start.InSymbol) (hij : i ≤ j) (hj : j ≤ samples.length)
    (hnone : ∀ k, i ≤ k → k < j → (start.stateAt samples k).decides = false) :
    val (start.stateAt samples i).symbolPhase ≤ val (start.stateAt samples j).symbolPhase := by
  induction j, hij using Nat.le_induction with
  | base => exact le_rfl
  | succ j hij ih =>
    have hget : samples[j]? = some samples[j] := List.getElem?_eq_getElem hj
    rw [stateAt_succ hget, symbolPhase_of_not_decides (hnone j hij (Nat.lt_succ_self j))]
    exact (ih (Nat.le_of_succ_le hj) fun k hik hkj => hnone k hik (by omega)).trans
      (lt_nextPhase (h.stateAt samples j).samplesPerSymbol).le

theorem crossesHalf_of_half_le (h : 0.5 ≤ val state.symbolPhase) : state.crossesHalf = false := by
  rw [← Bool.not_eq_true, crossesHalf_iff]
  exact fun hcrosses => absurd hcrosses.1 (not_lt.mpr h)

variable (hc : ConsecutiveDecisions start samples m n)
include hc

/-- A symbol that starts in its first half passes its midpoint. -/
theorem ConsecutiveDecisions.exists_crossesHalf
    (hphase : val (start.stateAt samples (m + 1)).symbolPhase < 0.5) :
    ∃ k, m < k ∧ k ≤ n ∧ (start.stateAt samples k).crossesHalf := by
  have hbefore : ∀ j, m + 1 ≤ j → j ≤ n →
      (∃ k, m < k ∧ k < j ∧ (start.stateAt samples k).crossesHalf) ∨
        val (start.stateAt samples j).symbolPhase < 0.5 := by
    intro j hmj
    induction j, hmj using Nat.le_induction with
    | base => exact fun _ => .inr hphase
    | succ j hmj ih =>
      intro hjn
      rcases ih (Nat.le_of_succ_le hjn) with ⟨k, hmk, hkj, hcross⟩ | hlow
      · exact .inl ⟨k, hmk, Nat.lt_succ_of_lt hkj, hcross⟩
      · by_cases hcross : (start.stateAt samples j).crossesHalf
        · exact .inl ⟨j, hmj, Nat.lt_succ_self j, hcross⟩
        · have hj : j < samples.length := by
            have := hc.lt_length
            omega
          have hget : samples[j]? = some samples[j] := List.getElem?_eq_getElem hj
          rw [stateAt_succ hget, symbolPhase_of_not_decides (hc.between j hmj hjn)]
          exact .inr (not_le.mp fun hle => hcross (crossesHalf_iff.mpr ⟨hlow, hle⟩))
  rcases hbefore n hc.lt le_rfl with ⟨k, hmk, hkn, hcross⟩ | hlow
  · exact ⟨k, hmk, hkn.le, hcross⟩
  · have hend := decides_iff.mp hc.second
    exact ⟨n, hc.lt, le_rfl, crossesHalf_iff.mpr ⟨hlow, le_trans (by norm_num) hend⟩⟩

/-- From the second half of a symbol on, its midpoint is not sampled. -/
theorem ConsecutiveDecisions.crossesHalf_eq_false (h : start.InSymbol) (hmk : m < k)
    (hphase : 0.5 ≤ val (start.stateAt samples k).symbolPhase) (hkj : k ≤ j) (hjn : j ≤ n) :
    (start.stateAt samples j).crossesHalf = false := by
  have hlength := hc.lt_length
  refine crossesHalf_of_half_le (hphase.trans (symbolPhase_mono h hkj (by omega) ?_))
  exact fun i hki hij => hc.between i (by omega) (by omega)

/-- The midpoint of a symbol is kept up to its end. -/
theorem ConsecutiveDecisions.midpointFrom (h : start.InSymbol) (hmk : m < k) (hkn : k ≤ n)
    (hcross : (start.stateAt samples k).crossesHalf) : MidpointFrom start samples n k := by
  refine ⟨hkn, hcross, fun sample sample' hsample hsample' => ?_⟩
  have hvalue : (start.stateAt samples k).midpointAt sample =
      toF32 ((start.stateAt samples k).baseband sample) := if_pos hcross
  rcases Nat.lt_or_eq_of_le hkn with hlt | rfl
  · have hphase : 0.5 ≤ val (start.stateAt samples (k + 1)).symbolPhase := by
      rw [stateAt_succ hsample, symbolPhase_of_not_decides (hc.between k hmk hlt)]
      exact (crossesHalf_iff.mp hcross).2
    have hlater : ∀ j, k + 1 ≤ j → j ≤ n → (start.stateAt samples j).crossesHalf = false :=
      fun j hkj hjn => hc.crossesHalf_eq_false h (Nat.lt_succ_of_lt hmk) hphase hkj hjn
    have hkept : ∀ j, k + 1 ≤ j → j ≤ n → (start.stateAt samples j).midpointI =
        toF32 ((start.stateAt samples k).baseband sample) := by
      intro j hkj
      induction j, hkj using Nat.le_induction with
      | base =>
        intro _
        rw [stateAt_succ hsample, midpointI_processSample, hvalue]
      | succ j hkj ih =>
        intro hjn
        have hj : j < samples.length := by
          have := hc.lt_length
          omega
        have hget : samples[j]? = some samples[j] := List.getElem?_eq_getElem hj
        rw [stateAt_succ hget, midpointI_processSample, midpointAt,
          hlater j hkj (Nat.le_of_succ_le hjn)]
        exact ih (Nat.le_of_succ_le hjn)
    rw [midpointAt, hlater n hlt le_rfl]
    exact hkept n hlt le_rfl
  · obtain rfl : sample = sample' := Option.some.inj (hsample.symm.trans hsample')
    exact hvalue

/-- The timing error at the end of a symbol uses the midpoint of that symbol exactly when the
correction before it was not limited. -/
theorem ConsecutiveDecisions.exists_midpointFrom_iff (h : start.InSymbol)
    (hsample : samples[m]? = some sample) :
    (∃ k, m < k ∧ MidpointFrom start samples n k) ↔
      Unclamped (start.stateAt samples m) sample := by
  have hphase : val (start.stateAt samples (m + 1)).symbolPhase =
      min |val ((start.stateAt samples m).correctedPhase sample)| 0.5 := by
    rw [stateAt_succ hsample, val_symbolPhase_of_decides hc.first]
  constructor
  · rintro ⟨k, hmk, hfrom⟩
    by_contra hclamped
    rw [Unclamped, not_lt] at hclamped
    rw [min_eq_right hclamped] at hphase
    have hnone := hc.crossesHalf_eq_false h (Nat.lt_succ_self m) hphase.ge hmk hfrom.le
    rw [hfrom.crosses] at hnone
    contradiction
  · intro hfree
    have hlow : val (start.stateAt samples (m + 1)).symbolPhase < 0.5 := by
      rw [hphase]
      exact (min_le_left _ _).trans_lt hfree
    obtain ⟨k, hmk, hkn, hcross⟩ := hc.exists_crossesHalf hlow
    exact ⟨k, hmk, hc.midpointFrom h hmk hkn hcross⟩

end Timing

/-! ### The loop -/

section Loop

variable [RealFloat F64 F32]

/-- What the timing loop is to do for the samples, from a state on. -/
structure TimingSound (start : DemodState F64 F32) (samples : List (Sample F32)) : Prop where
  phase : ∀ i, 0 ≤ val (start.stateAt samples i).symbolPhase ∧
    val (start.stateAt samples i).symbolPhase < 1
  oneBit : ∀ i, (start.output (samples.take (i + 1))).length ≤
    (start.output (samples.take i)).length + 1
  bits : start.output samples = start.decidedBits samples
  midpoint : ∀ m n, ConsecutiveDecisions start samples m n →
    ∃ k, m < k ∧ MidpointFrom start samples n k

/-- A new state for a number of samples in each symbol. -/
def withSamplesPerSymbol (samplesPerSymbol : F64) : DemodState F64 F32 :=
  { new with samplesPerSymbol }

/-- The loop does what it is to do exactly when no correction but one after the last symbol is
limited. -/
theorem timingSound_iff {samplesPerSymbol : F64} (hpos : 0 < val samplesPerSymbol)
    (samples : List (Sample F32)) :
    TimingSound (withSamplesPerSymbol samplesPerSymbol) samples ↔
      ∀ m n sample, ConsecutiveDecisions (withSamplesPerSymbol samplesPerSymbol) samples m n →
        samples[m]? = some sample →
          Unclamped ((withSamplesPerSymbol samplesPerSymbol).stateAt samples m) sample := by
  have hstart : InSymbol (withSamplesPerSymbol samplesPerSymbol : DemodState F64 F32) := by
    have hzero : val (lit 0 : F64) = 0 := by rw [val_lit, Rat.cast_zero]
    exact ⟨hpos, hzero.ge, hzero.trans_lt one_pos⟩
  have hbuffered : Buffered (withSamplesPerSymbol samplesPerSymbol : DemodState F64 F32) :=
    ⟨Nat.zero_lt_succ 7, fun b hb => by contradiction⟩
  constructor
  · intro hsound m n sample hc hsample
    exact (hc.exists_midpointFrom_iff hstart hsample).mp (hsound.midpoint m n hc)
  · intro hfree
    refine ⟨fun i => ?_, fun i => ?_, hbuffered.output_eq samples, fun m n hc => ?_⟩
    · have hphase := hstart.stateAt samples i
      exact ⟨hphase.nonneg, hphase.lt_one⟩
    · rw [hbuffered.output_eq, hbuffered.output_eq]
      exact length_decidedBits_take_le _ samples i
    · have hm : m < samples.length := hc.lt.trans hc.lt_length
      have hsample : samples[m]? = some samples[m] := List.getElem?_eq_getElem hm
      exact (hc.exists_midpointFrom_iff hstart hsample).mpr (hfree m n _ hc hsample)

end Loop

/-! ### Two samples in a symbol -/

/-- A sample in phase with the carrier. -/
def inPhase (i : ℚ) : Sample ℚ := { i, q := 0, eventTime := 0, receptionTime := 0, id := 0 }

def steady : List (Sample ℚ) := [inPhase 1, inPhase 1, inPhase 1, inPhase 1]

def strong : List (Sample ℚ) := [inPhase 10, inPhase 5, inPhase 5]

/-- Four samples of one strength end two symbols, and the first correction is small. -/
theorem steady_sound :
    letI := FloatOps.exact (fun _ => 1) (fun _ => 0)
    letI := RealFloat.exact (fun _ => 1) (fun _ => 0)
    TimingSound (withSamplesPerSymbol 2 : DemodState ℚ ℚ) steady := by
  let _ := FloatOps.exact (fun _ => 1) (fun _ => 0)
  let _ := RealFloat.exact (fun _ => 1) (fun _ => 0)
  have hpos : 0 < val (2 : ℚ) := by
    show (0 : ℝ) < ((2 : ℚ) : ℝ)
    norm_num
  refine (timingSound_iff hpos steady).mpr fun m n sample hc hsample => ?_
  have hm : m < 3 := by
    have hlt := hc.lt
    have hlength : n < 4 := hc.lt_length
    omega
  interval_cases m
  · exact absurd hc.first (by decide +kernel)
  · obtain rfl : inPhase 1 = sample := Option.some.inj hsample
    have hphase : ((withSamplesPerSymbol 2 : DemodState ℚ ℚ).stateAt steady 1).correctedPhase
        (inPhase 1) = -1 / 50 := by decide +kernel
    rw [Unclamped, hphase]
    show |((-1 / 50 : ℚ) : ℝ)| < 0.5
    norm_num [abs_lt]
  · exact absurd hc.first (by decide +kernel)

/-- A strong sample moves the phase to one half, and the next symbol has no midpoint. -/
theorem strong_unsound :
    ¬ ∀ (cos sin : ℚ → ℚ) (samplesPerSymbol : ℚ) (samples : List (Sample ℚ)),
      2 ≤ samplesPerSymbol →
        letI := FloatOps.exact cos sin
        letI := RealFloat.exact cos sin
        TimingSound (withSamplesPerSymbol samplesPerSymbol : DemodState ℚ ℚ) samples := by
  intro h
  let _ := FloatOps.exact (fun _ => 1) (fun _ => 0)
  let _ := RealFloat.exact (fun _ => 1) (fun _ => 0)
  have hsound := h (fun _ => 1) (fun _ => 0) 2 strong le_rfl
  have hc : ConsecutiveDecisions (withSamplesPerSymbol 2 : DemodState ℚ ℚ) strong 1 2 := by
    refine ⟨by decide, by decide, by decide +kernel, by decide +kernel, fun k h1 h2 => ?_⟩
    omega
  obtain ⟨k, hk, hfrom⟩ := hsound.midpoint 1 2 hc
  obtain rfl : k = 2 := le_antisymm hfrom.le hk
  exact absurd hfrom.crosses (by decide +kernel)

end GroundCore.RfLayer.DemodState
