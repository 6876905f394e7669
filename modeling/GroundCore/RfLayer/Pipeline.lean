import GroundCore.Bitemporal.Timestamp
import GroundCore.Lib.Run
import GroundCore.RfLayer.DopplerSchedule
import GroundCore.RfLayer.SymbolTiming

/-! The pipeline from the samples of a receiver to batches of decoded symbols, and the oscillator
that is to correct their Doppler shift.  The pipeline corrects every sample by an offset of zero. -/

namespace GroundCore.Batching

open Bitemporal

/-- What is waiting to be flushed as a batch. -/
structure Batcher (α : Type) where
  pending : List α
  batchSize : ℕ

namespace Batcher

variable {α : Type}

def new (batchSize : ℕ) : Batcher α := ⟨[], batchSize⟩

def add (batcher : Batcher α) (item : α) : Batcher α :=
  { batcher with pending := batcher.pending ++ [item] }

def isReady (batcher : Batcher α) : Bool := batcher.batchSize ≤ batcher.pending.length

def flush (batcher : Batcher α) : Batcher α × Option (List α) :=
  if batcher.pending.isEmpty then (batcher, none)
  else ({ batcher with pending := [] }, some batcher.pending)

end Batcher

structure DemodulatorBatch where
  batchId : String
  symbols : List (BiTemporal UInt8)
  sequence : ℕ

structure DemodulatorBatcher extends Batcher (BiTemporal UInt8) where
  sequence : ℕ

namespace DemodulatorBatcher

def new (batchSize : ℕ) : DemodulatorBatcher := { toBatcher := .new batchSize, sequence := 0 }

def addSymbol (batcher : DemodulatorBatcher) (symbol : BiTemporal UInt8) : DemodulatorBatcher :=
  { batcher with toBatcher := batcher.toBatcher.add symbol }

/-- `batchId` is a random id for each batch. -/
def flush (batcher : DemodulatorBatcher) (batchId : ℕ → String) :
    DemodulatorBatcher × Option DemodulatorBatch :=
  match batcher.toBatcher.flush with
  | (_, none) => (batcher, none)
  | (emptied, some symbols) =>
    ({ toBatcher := emptied, sequence := batcher.sequence + 1 },
      some { batchId := batchId batcher.sequence, symbols, sequence := batcher.sequence })

def forceFlush (batcher : DemodulatorBatcher) (batchId : ℕ → String) :
    DemodulatorBatcher × Option DemodulatorBatch :=
  batcher.flush batchId

end DemodulatorBatcher

end GroundCore.Batching

namespace GroundCore.RfLayer

open Lib FloatOps Bitemporal Batching DemodState

structure NcoController (F64 : Type) where
  phase : F64
  currentOffset : FrequencyOffset
  sampleRate : ℕ

variable {F64 F32 : Type} [FloatOps F64 F32]

namespace NcoController

def new (sampleRate : ℕ) : NcoController F64 := ⟨lit 0, 0, sampleRate⟩

/-- The phase is not tracked. -/
def getPhase (_nco : NcoController F64) : F64 := lit 0

def applyCorrection (nco : NcoController F64) (sample : Sample F32)
    (frequencyOffset : FrequencyOffset) : Result (Sample F32) :=
  let sampleRate : F64 := lit 2000000
  let phaseIncrement := lit 2 * pi * lit frequencyOffset / sampleRate
  let currentPhase := nco.getPhase
  let newPhase := remEuclid (currentPhase + phaseIncrement) (lit 2 * pi)
  let cosPhi := cos newPhase
  let sinPhi := sin newPhase
  let iCorrected := ofF32 sample.i * cosPhi - ofF32 sample.q * sinPhi
  let qCorrected := ofF32 sample.i * sinPhi + ofF32 sample.q * cosPhi
  .ok { sample with i := toF32 iCorrected, q := toF32 qCorrected }

omit [FloatOps F64 F32] in
def setFrequencyContinuous (nco : NcoController F64) (offset : FrequencyOffset) :
    NcoController F64 := { nco with currentOffset := offset }

def resetPhase (nco : NcoController F64) : NcoController F64 := { nco with phase := lit 0 }

/-! ### The phase in exact arithmetic -/

/-- The remainder by one, with the sign of the number. -/
def remOne (x : ℚ) : ℚ := x - (if 0 ≤ x then ⌊x⌋ else ⌈x⌉ : ℤ)

def processSample (nco : NcoController ℚ) : NcoController ℚ × ℚ :=
  let phaseIncrement := (nco.currentOffset : ℚ) / nco.sampleRate
  let phase := remOne (nco.phase + phaseIncrement)
  ({ nco with phase }, phase)

/-- The base frequency and the offset as an `i64`, and then as a `u64`; `none` is the panic of an
addition that overflows. -/
def correctedFrequency (baseFrequency : ℕ) (offset : FrequencyOffset) : Option UInt64 :=
  let sum := (Int64.ofInt baseFrequency).toInt + offset
  if -2 ^ 63 ≤ sum ∧ sum < 2 ^ 63 then some (Int64.ofInt sum).toUInt64 else none

def applyDopplerSchedule (find : BinarySearch ℕ) (nco : NcoController ℚ)
    (schedule : DopplerSchedule) (currentSample : ℕ) : NcoController ℚ × Option UInt64 :=
  let targetOffset := schedule.interpolate find currentSample
  (nco.setFrequencyContinuous targetOffset,
    correctedFrequency schedule.baseFrequency targetOffset)

inductive NcoCall
  | setFrequency (offset : FrequencyOffset)
  | applySchedule (schedule : DopplerSchedule) (currentSample : ℕ)
  | processSample
  | resetPhase

def step (find : BinarySearch ℕ) (nco : NcoController ℚ) : NcoCall → NcoController ℚ
  | .setFrequency offset => nco.setFrequencyContinuous offset
  | .applySchedule schedule currentSample => (nco.applyDopplerSchedule find schedule currentSample).1
  | .processSample => nco.processSample.1
  | .resetPhase =>
    letI := FloatOps.exact id id
    nco.resetPhase

/-- The offsets that are set while the samples are processed, added up over the samples since the
phase was reset. -/
def totalOffset (find : BinarySearch ℕ) (offset total : FrequencyOffset) :
    List NcoCall → FrequencyOffset
  | [] => total
  | .setFrequency offset :: calls => totalOffset find offset total calls
  | .applySchedule schedule currentSample :: calls =>
    totalOffset find (schedule.interpolate find currentSample) total calls
  | .processSample :: calls => totalOffset find offset (total + offset) calls
  | .resetPhase :: calls => totalOffset find offset 0 calls

theorem abs_remOne_lt (x : ℚ) : |remOne x| < 1 := by
  unfold remOne
  rw [abs_lt]
  split
  · have hle := Int.floor_le x
    have hlt := Int.lt_floor_add_one x
    constructor <;> linarith
  · have hle := Int.le_ceil x
    have hlt := Int.ceil_lt_add_one x
    constructor <;> linarith

theorem exists_remOne_eq_add (x : ℚ) : ∃ k : ℤ, remOne x = x + k :=
  ⟨-(if 0 ≤ x then ⌊x⌋ else ⌈x⌉), by rw [remOne, Int.cast_neg, sub_eq_add_neg]⟩

theorem phase_run (find : BinarySearch ℕ) (nco : NcoController ℚ) (total : FrequencyOffset)
    (hphase : |nco.phase| < 1) (htotal : ∃ k : ℤ, nco.phase = (total : ℚ) / nco.sampleRate + k)
    (calls : List NcoCall) :
    |(run (step find) nco calls).phase| < 1 ∧ ∃ k : ℤ, (run (step find) nco calls).phase =
      (totalOffset find nco.currentOffset total calls : ℚ) / nco.sampleRate + k := by
  induction calls generalizing nco total with
  | nil => exact ⟨hphase, htotal⟩
  | cons call calls ih =>
    cases call with
    | setFrequency offset => exact ih (nco.setFrequencyContinuous offset) total hphase htotal
    | applySchedule schedule currentSample =>
      exact ih (nco.applyDopplerSchedule find schedule currentSample).1 total hphase htotal
    | processSample =>
      refine ih nco.processSample.1 (total + nco.currentOffset) (abs_remOne_lt _) ?_
      obtain ⟨k, hk⟩ := htotal
      obtain ⟨k', hk'⟩ := exists_remOne_eq_add (nco.phase + nco.currentOffset / nco.sampleRate)
      have hrate : nco.processSample.1.sampleRate = nco.sampleRate := rfl
      refine ⟨k + k', hk'.trans ?_⟩
      rw [hk, hrate, Int.cast_add, Int.cast_add, add_div]
      ring
    | resetPhase =>
      refine ih { nco with phase := 0 } 0 ?_ ⟨0, ?_⟩
      · rw [abs_zero]
        exact zero_lt_one
      · rw [Int.cast_zero, zero_div, add_zero]

/-- Changes of the frequency do not break the phase: over any calls it is the sum of the offsets
over the sample rate, but for whole cycles. -/
theorem phase_continuous (find : BinarySearch ℕ) {sampleRate : ℕ} (hrate : 0 < sampleRate)
    (calls : List NcoCall) :
    let nco := run (step find) ⟨0, 0, sampleRate⟩ calls
    |nco.phase| < 1 ∧
      ∃ k : ℤ, nco.phase * sampleRate = totalOffset find 0 0 calls + k * sampleRate := by
  obtain ⟨hlt, k, hk⟩ := phase_run find ⟨0, 0, sampleRate⟩ 0 (by simp) ⟨0, by simp⟩ calls
  have hne : (sampleRate : ℚ) ≠ 0 := Nat.cast_ne_zero.mpr hrate.ne'
  refine ⟨hlt, k, ?_⟩
  rw [hk, add_mul, div_mul_cancel₀ _ hne]

/-- Two samples at three hertz and one at minus one, four samples a second. -/
def retuned : List NcoCall :=
  [.setFrequency 3, .processSample, .processSample, .setFrequency (-1), .processSample]

theorem phase_of_retuned :
    (|(run (step .first) ⟨0, 0, 4⟩ retuned).phase| < 1 ∧
      ∃ k : ℤ, (run (step .first) ⟨0, 0, 4⟩ retuned).phase * (4 : ℕ) = (5 : ℤ) + k * (4 : ℕ)) ∧
    (run (step .first) ⟨0, 0, 4⟩ retuned).phase = 1 / 4 :=
  ⟨phase_continuous .first (show 0 < 4 by decide) retuned, by decide +kernel⟩

end NcoController

structure RfPipeline (F64 F32 : Type) where
  demodulator : DemodState F64 F32
  nco : NcoController F64
  dopplerSchedule : DopplerSchedule
  batcher : DemodulatorBatcher

namespace RfPipeline

def new (dopplerSchedule : DopplerSchedule) (sampleRateHz baudRateHz : UInt32) :
    RfPipeline F64 F32 :=
  { demodulator := .withBaudRate sampleRateHz baudRateHz
    nco := .new dopplerSchedule.baseFrequency
    dopplerSchedule
    batcher := .new 1000 }

def applyDopplerCorrection (p : RfPipeline F64 F32) (sample : Sample F32) : Result (Sample F32) :=
  let frequencyOffset := 0
  p.nco.applyCorrection sample frequencyOffset

omit [FloatOps F64 F32] in
/-- The pipeline with the batch that was flushed, which it only logs. -/
def flushBatch (batchId : ℕ → String) (p : RfPipeline F64 F32) :
    RfPipeline F64 F32 × List DemodulatorBatch :=
  let (batcher, batch) := p.batcher.flush batchId
  ({ p with batcher }, batch.toList)

/-- One turn of the loop over the samples of a read. -/
def processSample (batchId : ℕ → String) (p : RfPipeline F64 F32) (sample : Sample F32) :
    RfPipeline F64 F32 × List DemodulatorBatch × Result Unit :=
  match p.applyDopplerCorrection sample with
  | .error e => (p, [], .error e)
  | .ok correctedSample =>
    let (demodulator, byte) := p.demodulator.processSample correctedSample
    let p := { p with demodulator }
    match byte with
    | .error e => (p, [], .error e)
    | .ok none => (p, [], .ok ())
    | .ok (some byte) =>
      let biTemporal : BiTemporal UInt8 := ⟨byte, ⟨sample.eventTime⟩, ⟨sample.receptionTime⟩⟩
      let p := { p with batcher := p.batcher.addSymbol biTemporal }
      if p.batcher.isReady then
        let (p, batches) := p.flushBatch batchId
        (p, batches, .ok ())
      else (p, [], .ok ())

/-- The samples of a read, up to the first that fails. -/
def processSamples (batchId : ℕ → String) (p : RfPipeline F64 F32) :
    List (Sample F32) → RfPipeline F64 F32 × List DemodulatorBatch × Result Unit
  | [] => (p, [], .ok ())
  | sample :: samples =>
    match p.processSample batchId sample with
    | (p, batches, .error e) => (p, batches, .error e)
    | (p, batches, .ok ()) =>
      let (p, later, result) := processSamples batchId p samples
      (p, batches ++ later, result)

/-- The loop over the reads, which ends when the pipeline is stopped or a read fails. -/
def start (batchId : ℕ → String) (p : RfPipeline F64 F32) :
    List (Result (List (Sample F32))) → RfPipeline F64 F32 × List DemodulatorBatch × Result Unit
  | [] =>
    let (p, batches) := p.flushBatch batchId
    (p, batches, .ok ())
  | .error e :: _ => (p, [], .error e)
  | .ok samples :: reads =>
    match p.processSamples batchId samples with
    | (p, batches, .error e) => (p, batches, .error e)
    | (p, batches, .ok ()) =>
      let (p, later, result) := start batchId p reads
      (p, batches ++ later, result)

/-! ### What comes out of the pipeline -/

variable (F64) in
/-- What the pipeline makes of a sample before it is demodulated, whatever the schedule is. -/
def corrected (sample : Sample F32) : Sample F32 :=
  let phase : F64 := remEuclid (lit 0 + lit 2 * pi * lit 0 / lit 2000000) (lit 2 * pi)
  { sample with
    i := toF32 (ofF32 sample.i * cos phase - ofF32 sample.q * sin phase)
    q := toF32 (ofF32 sample.i * sin phase + ofF32 sample.q * cos phase) }

/-- A decoded byte with the times of the sample that completed it. -/
def stamp (sample : Sample F32) (byte : UInt8) : BiTemporal UInt8 :=
  ⟨byte, ⟨sample.eventTime⟩, ⟨sample.receptionTime⟩⟩

/-- The bytes that the samples decode to. -/
def stamped (state : DemodState F64 F32) : List (Sample F32) → List (BiTemporal UInt8)
  | [] => []
  | sample :: samples =>
    ((state.emitted (corrected F64 sample)).map (stamp sample)).toList ++
      stamped (state.next (corrected F64 sample)) samples

/-- The demodulator after the samples. -/
def demodulated (state : DemodState F64 F32) (samples : List (Sample F32)) : DemodState F64 F32 :=
  run next state (samples.map (corrected F64))

theorem stamped_append (state : DemodState F64 F32) (first second : List (Sample F32)) :
    stamped state (first ++ second) =
      stamped state first ++ stamped (demodulated state first) second := by
  induction first generalizing state with
  | nil => rfl
  | cons sample first ih =>
    rw [List.cons_append, stamped, ih, stamped, List.append_assoc]
    rfl

theorem map_value_stamped (state : DemodState F64 F32) (samples : List (Sample F32)) :
    (stamped state samples).map (·.value) = (state.decode (samples.map (corrected F64))).2 := by
  induction samples generalizing state with
  | nil => rfl
  | cons sample samples ih =>
    rw [stamped, List.map_append, ih, List.map_cons, decode]
    show _ = (state.emitted (corrected F64 sample)).toList ++ _
    cases state.emitted (corrected F64 sample) <;> rfl

variable (batchId : ℕ → String) {p : RfPipeline F64 F32} {state : DemodState F64 F32}
  {samples : List (Sample F32)} {flushed : List DemodulatorBatch}

/-- What the pipeline has flushed and what it still holds is what the samples decode to. -/
structure Delivers (state : DemodState F64 F32) (samples : List (Sample F32))
    (flushed : List DemodulatorBatch) (p : RfPipeline F64 F32) : Prop where
  demodulator : p.demodulator = demodulated state samples
  symbols : flushed.flatMap (·.symbols) ++ p.batcher.pending = stamped state samples
  sequence : p.batcher.sequence = flushed.length
  sequences : flushed.map (·.sequence) = List.range flushed.length
  size : p.batcher.batchSize = 1000
  room : p.batcher.pending.length ≤ 1000
  sizes : ∀ batch ∈ flushed, 0 < batch.symbols.length ∧ batch.symbols.length ≤ 1000

theorem Delivers.flushBatch (h : Delivers state samples flushed p) :
    Delivers state samples (flushed ++ (p.flushBatch batchId).2) (p.flushBatch batchId).1 ∧
      (p.flushBatch batchId).1.batcher.pending = [] := by
  cases hpending : p.batcher.pending with
  | nil =>
    have heq : p.flushBatch batchId = (p, []) := by
      simp [RfPipeline.flushBatch, DemodulatorBatcher.flush, Batcher.flush, hpending]
    rw [heq, List.append_nil]
    exact ⟨h, hpending⟩
  | cons first rest =>
    have heq : p.flushBatch batchId =
        ({ p with batcher :=
            { pending := [], batchSize := p.batcher.batchSize,
              sequence := p.batcher.sequence + 1 } },
          [⟨batchId p.batcher.sequence, p.batcher.pending, p.batcher.sequence⟩]) := by
      simp [RfPipeline.flushBatch, DemodulatorBatcher.flush, Batcher.flush, hpending]
    rw [heq]
    refine ⟨⟨h.demodulator, ?_, ?_, ?_, h.size, by simp, ?_⟩, rfl⟩
    · rw [List.flatMap_append, List.flatMap_singleton, List.append_nil]
      exact h.symbols
    · rw [List.length_append, h.sequence]
      rfl
    · rw [List.map_append, h.sequences, List.length_append, List.length_singleton, List.range_succ,
        h.sequence]
      rfl
    · intro batch hbatch
      rcases List.mem_append.mp hbatch with hbatch | hbatch
      · exact h.sizes batch hbatch
      · obtain rfl := List.mem_singleton.mp hbatch
        have hroom := h.room
        rw [hpending] at hroom ⊢
        exact ⟨Nat.succ_pos _, hroom⟩

/-- A sample is demodulated, and what it completes is added to the batch. -/
theorem processSample_eq (p : RfPipeline F64 F32) (sample : Sample F32) :
    p.processSample batchId sample =
      let p' : RfPipeline F64 F32 :=
        { p with demodulator := p.demodulator.next (corrected F64 sample) }
      match p.demodulator.emitted (corrected F64 sample) with
      | none => (p', [], .ok ())
      | some byte =>
        let p' := { p' with batcher := p'.batcher.addSymbol (stamp sample byte) }
        if p'.batcher.isReady then
          ((p'.flushBatch batchId).1, (p'.flushBatch batchId).2, .ok ())
        else (p', [], .ok ()) := by
  obtain ⟨byte, hbyte⟩ := processSample_ok p.demodulator (corrected F64 sample)
  have hemitted : p.demodulator.emitted (corrected F64 sample) = byte := by
    rw [emitted, hbyte]
    rfl
  have hresult : p.demodulator.processSample (corrected F64 sample) =
      (p.demodulator.next (corrected F64 sample), .ok byte) := Prod.ext rfl hbyte
  have hcorrect : p.applyDopplerCorrection sample = .ok (corrected F64 sample) := by
    simp only [applyDopplerCorrection, NcoController.applyCorrection, NcoController.getPhase,
      corrected, Int.cast_zero]
  rw [hemitted]
  unfold RfPipeline.processSample
  rw [hcorrect]
  simp only [hresult]
  cases byte <;> rfl

/-- Nothing is waiting to be flushed as a full batch. -/
def Short (p : RfPipeline F64 F32) : Prop := p.batcher.pending.length < 1000

theorem Delivers.processSample (h : Delivers state samples flushed p) (hshort : p.Short)
    (sample : Sample F32) :
    (p.processSample batchId sample).2.2 = .ok () ∧
      Delivers state (samples ++ [sample]) (flushed ++ (p.processSample batchId sample).2.1)
        (p.processSample batchId sample).1 ∧ (p.processSample batchId sample).1.Short := by
  have hstate : p.demodulator.next (corrected F64 sample) = demodulated state (samples ++ [sample]) := by
    rw [demodulated, List.map_append, run_append, h.demodulator]
    rfl
  have hstamped : stamped state (samples ++ [sample]) = stamped state samples ++
      ((p.demodulator.emitted (corrected F64 sample)).map (stamp sample)).toList := by
    rw [stamped_append, ← h.demodulator]
    simp [stamped]
  rw [processSample_eq batchId]
  cases hemitted : p.demodulator.emitted (corrected F64 sample) with
  | none =>
    rw [hemitted] at hstamped
    refine ⟨rfl, ⟨hstate, ?_, ?_, ?_, h.size, h.room, ?_⟩, hshort⟩
    · rw [hstamped, List.append_nil]
      simpa using h.symbols
    · simpa using h.sequence
    · simpa using h.sequences
    · simpa using h.sizes
  | some byte =>
    rw [hemitted] at hstamped
    let p' : RfPipeline F64 F32 :=
      { p with demodulator := p.demodulator.next (corrected F64 sample)
               batcher := p.batcher.addSymbol (stamp sample byte) }
    have hadded : Delivers state (samples ++ [sample]) flushed p' := by
      refine ⟨hstate, ?_, h.sequence, h.sequences, h.size, ?_, h.sizes⟩
      · rw [hstamped, ← h.symbols, List.append_assoc]
        rfl
      · show (p.batcher.pending ++ [stamp sample byte]).length ≤ 1000
        rw [List.length_append, List.length_singleton]
        exact hshort
    by_cases hready : (p.batcher.addSymbol (stamp sample byte)).isReady = true
    · obtain ⟨hflushed, hempty⟩ := hadded.flushBatch batchId
      simp only [hready, if_true]
      refine ⟨trivial, hflushed, ?_⟩
      show (p'.flushBatch batchId).1.batcher.pending.length < 1000
      rw [hempty]
      exact Nat.succ_pos _
    · simp only [hready]
      refine ⟨rfl, by simpa using hadded, ?_⟩
      have hsize := hadded.size
      simp only [Batcher.isReady, decide_eq_true_eq, not_le] at hready
      rwa [hsize] at hready

theorem Delivers.processSamples (h : Delivers state samples flushed p) (hshort : p.Short)
    (more : List (Sample F32)) :
    (p.processSamples batchId more).2.2 = .ok () ∧
      Delivers state (samples ++ more) (flushed ++ (p.processSamples batchId more).2.1)
        (p.processSamples batchId more).1 ∧ (p.processSamples batchId more).1.Short := by
  induction more generalizing samples flushed p with
  | nil => exact ⟨rfl, by simpa [RfPipeline.processSamples] using h, hshort⟩
  | cons sample more ih =>
    obtain ⟨hresult, hnext, hshort⟩ := h.processSample batchId hshort sample
    rw [RfPipeline.processSamples]
    generalize p.processSample batchId sample = outcome at hresult hnext hshort ⊢
    obtain ⟨p', batches, result⟩ := outcome
    obtain rfl : result = .ok () := hresult
    have hrest := ih hnext hshort
    simpa [List.append_assoc] using hrest

/-- The samples that the loop gets to see. -/
def samplesRead : List (Result (List (Sample F32))) → List (Sample F32)
  | .ok samples :: reads => samples ++ samplesRead reads
  | _ => []

theorem Delivers.start (h : Delivers state samples flushed p) (hshort : p.Short)
    (reads : List (Result (List (Sample F32)))) :
    Delivers state (samples ++ samplesRead reads) (flushed ++ (p.start batchId reads).2.1)
        (p.start batchId reads).1 ∧ (p.start batchId reads).1.Short := by
  induction reads generalizing samples flushed p with
  | nil =>
    obtain ⟨hflushed, hempty⟩ := h.flushBatch batchId
    refine ⟨by simpa [samplesRead, RfPipeline.start] using hflushed, ?_⟩
    show ((p.flushBatch batchId).1.batcher.pending).length < 1000
    rw [hempty]
    exact Nat.succ_pos _
  | cons read reads ih =>
    cases read with
    | error e => exact ⟨by simpa [samplesRead, RfPipeline.start] using h, hshort⟩
    | ok more =>
      obtain ⟨hresult, hnext, hshort⟩ := h.processSamples batchId hshort more
      rw [RfPipeline.start, samplesRead]
      generalize p.processSamples batchId more = outcome at hresult hnext hshort ⊢
      obtain ⟨p', batches, result⟩ := outcome
      obtain rfl : result = .ok () := hresult
      have hrest := ih hnext hshort
      simpa [List.append_assoc] using hrest

/-! ### Runs -/

/-- The pipeline, with what it has flushed. -/
structure PipelineSession (F64 F32 : Type) where
  pipeline : RfPipeline F64 F32
  flushed : List DemodulatorBatch

namespace PipelineSession

def new (schedule : DopplerSchedule) (sampleRateHz baudRateHz : UInt32) :
    PipelineSession F64 F32 := ⟨.new schedule sampleRateHz baudRateHz, []⟩

/-- The pipeline is started, and reads until it is stopped or a read fails. -/
def step (batchId : ℕ → String) (s : PipelineSession F64 F32)
    (reads : List (Result (List (Sample F32)))) : PipelineSession F64 F32 :=
  let (pipeline, batches, _) := s.pipeline.start batchId reads
  ⟨pipeline, s.flushed ++ batches⟩

theorem delivers_run {s : PipelineSession F64 F32} (h : Delivers state samples s.flushed s.pipeline)
    (hshort : s.pipeline.Short) (starts : List (List (Result (List (Sample F32))))) :
    Delivers state (samples ++ starts.flatMap samplesRead) (run (step batchId) s starts).flushed
        (run (step batchId) s starts).pipeline ∧ (run (step batchId) s starts).pipeline.Short := by
  induction starts generalizing s samples with
  | nil => exact ⟨by simpa using h, hshort⟩
  | cons reads starts ih =>
    obtain ⟨hnext, hshort⟩ := h.start batchId hshort reads
    have hrest := ih (s := s.step batchId reads) hnext hshort
    rwa [List.append_assoc] at hrest

/-- However often the pipeline is started and however the reads end, the batches that it flushed and
the one that it has begun hold the decoded symbols in order, each once, and the bits of the symbols
are those that the demodulator decided.  The batches are numbered in order, none is empty and none
has more than a thousand symbols. -/
theorem bits_of_starts (schedule : DopplerSchedule) (sampleRateHz baudRateHz : UInt32)
    (starts : List (List (Result (List (Sample F32))))) :
    let s : PipelineSession F64 F32 :=
      run (step batchId) (new schedule sampleRateHz baudRateHz) starts
    let state : DemodState F64 F32 := .withBaudRate sampleRateHz baudRateHz
    let samples := starts.flatMap samplesRead
    let symbols := s.flushed.flatMap (·.symbols) ++ s.pipeline.batcher.pending
    symbols = stamped state samples ∧
      (symbols.map (·.value)).flatMap bitsOf ++ s.pipeline.demodulator.bitBuffer =
        state.decidedBits (samples.map (corrected F64)) ∧
      s.flushed.map (·.sequence) = List.range s.flushed.length ∧
      (∀ batch ∈ s.flushed, 0 < batch.symbols.length ∧ batch.symbols.length ≤ 1000) ∧
      s.pipeline.batcher.pending.length < 1000 := by
  intro s state samples symbols
  let start : PipelineSession F64 F32 := new schedule sampleRateHz baudRateHz
  have hnew : Delivers state [] start.flushed start.pipeline :=
    ⟨rfl, rfl, rfl, rfl, rfl, Nat.zero_le _, nofun⟩
  obtain ⟨h, hshort⟩ := delivers_run batchId hnew (Nat.succ_pos _) starts
  refine ⟨h.symbols, ?_, h.sequences, h.sizes, hshort⟩
  have hbuffered : Buffered state := ⟨Nat.succ_pos _, nofun⟩
  have houtput := hbuffered.output_eq (samples.map (corrected F64))
  have hbits : (stamped state samples).map (·.value) =
      (state.decode (samples.map (corrected F64))).2 := map_value_stamped state samples
  have hdemodulator : s.pipeline.demodulator =
      (state.decode (samples.map (corrected F64))).1 := by
    rw [decode_fst]
    exact h.demodulator
  have hsymbols : symbols = stamped state samples := h.symbols
  rw [hsymbols, hbits, hdemodulator]
  exact houtput

end PipelineSession

end RfPipeline

end GroundCore.RfLayer
