import GroundCore.Core.Types
import GroundCore.Lib.FloatOps
import GroundCore.Lib.Sha256

/-! The demodulator: its state, the pipeline that processes one sample, and the snapshots of its
state.  `sha256` is the hash behind the snapshots' checksums. -/

namespace GroundCore.RfLayer

open Lib FloatOps

abbrev SampleId := UInt64

structure Sample (F32 : Type) where
  i : F32
  q : F32
  eventTime : DateTime
  receptionTime : DateTime
  id : SampleId

variable {F64 F32 : Type} [FloatOps F64 F32]

def costasAlpha : F64 := lit 0.02

def costasBeta : F64 := lit 4e-4

def gardnerGain : F64 := lit 0.02

def defaultSamplesPerSymbol : F64 := lit 8

structure SymbolSyncState (F64 : Type) where
  timingOffset : F64
  clockPhase : F64
  errorAccumulator : F64

def SymbolSyncState.new : SymbolSyncState F64 := ⟨lit 0, lit 0, lit 0⟩

structure DemodState (F64 F32 : Type) where
  ncoPhase : F64
  frequencyOffset : Int64
  symbolSync : SymbolSyncState F64
  carrierLocked : Bool
  bitBuffer : List UInt8
  lastSampleId : SampleId
  carrierPhaseRad : F64
  carrierFreqRadPerSample : F64
  samplesPerSymbol : F64
  symbolPhase : F64
  prevDecisionI : F32
  midpointI : F32

namespace DemodState

def new : DemodState F64 F32 :=
  { ncoPhase := lit 0
    frequencyOffset := 0
    symbolSync := SymbolSyncState.new
    carrierLocked := false
    bitBuffer := []
    lastSampleId := 0
    carrierPhaseRad := lit 0
    carrierFreqRadPerSample := lit 0
    samplesPerSymbol := defaultSamplesPerSymbol
    symbolPhase := lit 0
    prevDecisionI := toF32 (lit 0 : F64)
    midpointI := toF32 (lit 0 : F64) }

def withBaudRate (sampleRateHz baudRateHz : UInt32) : DemodState F64 F32 :=
  { new with samplesPerSymbol := lit sampleRateHz.toNat / lit baudRateHz.toNat }

def processSample (state : DemodState F64 F32) (sample : Sample F32) :
    DemodState F64 F32 × Result (Option UInt8) :=
  let state := { state with lastSampleId := sample.id }
  -- Costas loop carrier recovery
  let cosPhi := cos state.carrierPhaseRad
  let sinPhi := sin state.carrierPhaseRad
  let iIn : F64 := ofF32 sample.i
  let qIn : F64 := ofF32 sample.q
  let iB := iIn * cosPhi + qIn * sinPhi
  let qB := (-iIn) * sinPhi + qIn * cosPhi
  let carrierError := if le (lit 0) iB then qB else -qB
  let carrierFreq := state.carrierFreqRadPerSample + costasBeta * carrierError
  let carrierPhase := remEuclid
    (state.carrierPhaseRad + carrierFreq + costasAlpha * carrierError) (lit 2 * pi)
  let state := { state with
    carrierFreqRadPerSample := carrierFreq
    carrierPhaseRad := carrierPhase
    ncoPhase := carrierPhase / (lit 2 * pi)
    frequencyOffset := toI64 (carrierFreq * lit 1e6 / (lit 2 * pi))
    carrierLocked := lt (abs carrierError) (lit 0.1) }
  -- Gardner symbol timing recovery
  let step := lit 1 / state.samplesPerSymbol
  let prevPhase := state.symbolPhase
  let state := { state with symbolPhase := state.symbolPhase + step }
  let state :=
    if lt prevPhase (lit 0.5) && le (lit 0.5) state.symbolPhase then
      { state with midpointI := toF32 iB }
    else state
  if le (lit 1) state.symbolPhase then
    let symbolPhase := state.symbolPhase - lit 1
    let timingError := ofF32 state.midpointI * (iB - ofF32 state.prevDecisionI)
    let correction := gardnerGain * timingError
    let symbolPhase := abs (clamp (symbolPhase - correction) (lit (-0.5)) (lit 0.5))
    let bit : UInt8 := if le (lit 0) iB then 1 else 0
    let state := { state with
      symbolPhase := symbolPhase
      symbolSync :=
        { timingOffset := timingError
          clockPhase := symbolPhase
          errorAccumulator := state.symbolSync.errorAccumulator + abs timingError }
      bitBuffer := state.bitBuffer ++ [bit]
      prevDecisionI := toF32 iB }
    if 8 ≤ state.bitBuffer.length then
      let byte := (state.bitBuffer.take 8).foldl (fun acc b => (acc <<< 1) ||| b) 0
      ({ state with bitBuffer := state.bitBuffer.drop 8 }, .ok (some byte))
    else (state, .ok none)
  else (state, .ok none)

/-- The state after `samples`, and the bytes that they decode to. -/
def decode (state : DemodState F64 F32) : List (Sample F32) → DemodState F64 F32 × List UInt8
  | [] => (state, [])
  | sample :: samples =>
    let (state, result) := state.processSample sample
    let (state, bytes) := decode state samples
    (state, (result.toOption.getD none).toList ++ bytes)

@[simp] theorem processSample_lastSampleId (state : DemodState F64 F32) (sample : Sample F32) :
    (state.processSample sample).1.lastSampleId = sample.id := by
  -- The first choice sets the midpoint alone.
  have hmidpoint : ∀ (c : Bool) (a b : DemodState F64 F32), a.lastSampleId = b.lastSampleId →
      (if c then a else b).lastSampleId = b.lastSampleId := by
    intro c a b h
    split
    · exact h
    · rfl
  unfold processSample
  extract_lets
  split
  · split
    · exact hmidpoint _ _ _ rfl
    · exact hmidpoint _ _ _ rfl
  · exact hmidpoint _ _ _ rfl

theorem processSample_ok (state : DemodState F64 F32) (sample : Sample F32) :
    ∃ byte, (state.processSample sample).2 = .ok byte := by
  unfold processSample
  extract_lets
  split
  · split
    · exact ⟨_, rfl⟩
    · exact ⟨_, rfl⟩
  · exact ⟨_, rfl⟩

end DemodState

structure DemodulatorSnapshot (F64 F32 : Type) where
  sampleId : SampleId
  state : DemodState F64 F32
  capturedAtReception : DateTime
  capturedAtEvent : DateTime
  checksum : UInt64

namespace DemodulatorSnapshot

variable (sha256 : List UInt8 → List UInt8)

def computeChecksum (state : DemodState F64 F32) : UInt64 :=
  ofLeBytes ((sha256 (leBytes (toBits state.ncoPhase) ++
    leBytes state.frequencyOffset.toUInt64 ++
    [if state.carrierLocked then 1 else 0] ++
    leBytes state.lastSampleId ++
    leBytes (toBits state.carrierPhaseRad) ++
    leBytes (toBits state.carrierFreqRadPerSample) ++
    leBytes (toBits state.samplesPerSymbol) ++
    leBytes (toBits state.symbolPhase))).take 8)

def capture (state : DemodState F64 F32) (sample : Sample F32) : DemodulatorSnapshot F64 F32 :=
  { sampleId := sample.id
    state
    capturedAtReception := sample.receptionTime
    capturedAtEvent := sample.eventTime
    checksum := computeChecksum sha256 state }

def verify (snapshot : DemodulatorSnapshot F64 F32) : Bool :=
  computeChecksum sha256 snapshot.state == snapshot.checksum

omit [FloatOps F64 F32] in
/-- The state of the snapshot.  A checksum that fails `verify` is logged, and no more. -/
def restore (snapshot : DemodulatorSnapshot F64 F32) : DemodState F64 F32 := snapshot.state

end DemodulatorSnapshot

/-- Periodic snapshots, the latest at the end. -/
structure SnapshotManager (F64 F32 : Type) where
  snapshots : List (DemodulatorSnapshot F64 F32)
  maxSnapshots : Nat
  snapshotIntervalSamples : UInt64
  lastSnapshotSample : SampleId

namespace SnapshotManager

def new (maxSnapshots : Nat) (intervalSamples : UInt64) : SnapshotManager F64 F32 :=
  ⟨[], maxSnapshots, intervalSamples, 0⟩

/-- Whether a sample is due for a snapshot; `none` is the panic of a subtraction that overflows. -/
def shouldSnapshot (manager : SnapshotManager F64 F32) (sampleId : SampleId) : Option Bool :=
  if sampleId < manager.lastSnapshotSample then none
  else some (manager.snapshotIntervalSamples ≤ sampleId - manager.lastSnapshotSample)

def addSnapshot (manager : SnapshotManager F64 F32) (snapshot : DemodulatorSnapshot F64 F32) :
    SnapshotManager F64 F32 :=
  let snapshots := manager.snapshots ++ [snapshot]
  { manager with
    snapshots := if manager.maxSnapshots < snapshots.length then snapshots.tail else snapshots }

def captureIfNeeded (sha256 : List UInt8 → List UInt8) (manager : SnapshotManager F64 F32)
    (state : DemodState F64 F32) (sample : Sample F32) :
    Option (SnapshotManager F64 F32 × Option (DemodulatorSnapshot F64 F32)) := do
  if ← manager.shouldSnapshot sample.id then
    let snapshot := DemodulatorSnapshot.capture sha256 state sample
    let manager := manager.addSnapshot snapshot
    some ({ manager with lastSnapshotSample := sample.id }, some snapshot)
  else some (manager, none)

def latest (manager : SnapshotManager F64 F32) : Option (DemodulatorSnapshot F64 F32) :=
  manager.snapshots.getLast?

end SnapshotManager

end GroundCore.RfLayer
