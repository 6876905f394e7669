import GroundCore.Bitemporal.HashBinding
import GroundCore.Bitemporal.Log
import GroundCore.RfLayer.Demodulator

/-! What the checks of the two kinds of snapshot find out.  The checksum of a demodulator's snapshot
leaves out the symbol synchronization, the bit buffer and the last decisions, and a snapshot that
fails its check is restored all the same. -/

namespace GroundCore.RfLayer

open Lib FloatOps Bitemporal

namespace DemodState

variable {F64 F32 : Type} [FloatOps F64 F32]

/-- The states agree on what the checksum of a snapshot covers. -/
structure SameChecked (a b : DemodState F64 F32) : Prop where
  ncoPhase : toBits a.ncoPhase = toBits b.ncoPhase
  frequencyOffset : a.frequencyOffset = b.frequencyOffset
  carrierLocked : a.carrierLocked = b.carrierLocked
  lastSampleId : a.lastSampleId = b.lastSampleId
  carrierPhaseRad : toBits a.carrierPhaseRad = toBits b.carrierPhaseRad
  carrierFreqRadPerSample : toBits a.carrierFreqRadPerSample = toBits b.carrierFreqRadPerSample
  samplesPerSymbol : toBits a.samplesPerSymbol = toBits b.samplesPerSymbol
  symbolPhase : toBits a.symbolPhase = toBits b.symbolPhase

/-- The bytes that the checksum of a snapshot covers. -/
def checkedBytes (state : DemodState F64 F32) : List UInt8 :=
  leBytes (toBits state.ncoPhase) ++
    leBytes state.frequencyOffset.toUInt64 ++
    [if state.carrierLocked then 1 else 0] ++
    leBytes state.lastSampleId ++
    leBytes (toBits state.carrierPhaseRad) ++
    leBytes (toBits state.carrierFreqRadPerSample) ++
    leBytes (toBits state.samplesPerSymbol) ++
    leBytes (toBits state.symbolPhase)

theorem checkedBytes_inj {a b : DemodState F64 F32} :
    a.checkedBytes = b.checkedBytes ↔ a.SameChecked b := by
  have hlocked : ∀ s t : List UInt8, ∀ p q : Bool,
      s ++ [if p then 1 else 0] = t ++ [if q then 1 else 0] ↔ s = t ∧ p = q := by
    intro s t p q
    cases p <;> cases q <;> simp
  simp only [checkedBytes, append_leBytes_inj, hlocked, leBytes_inj]
  constructor
  · rintro ⟨⟨⟨⟨⟨⟨⟨h1, h2⟩, h3⟩, h4⟩, h5⟩, h6⟩, h7⟩, h8⟩
    exact ⟨h1, congrArg UInt64.toInt64 h2, h3, h4, h5, h6, h7, h8⟩
  · rintro ⟨h1, h2, h3, h4, h5, h6, h7, h8⟩
    exact ⟨⟨⟨⟨⟨⟨⟨h1, congrArg Int64.toUInt64 h2⟩, h3⟩, h4⟩, h5⟩, h6⟩, h7⟩, h8⟩

end DemodState

namespace DemodulatorSnapshot

variable {F64 F32 : Type} [FloatOps F64 F32]

/-- The hash of `bytes`, truncated to 64 bits. -/
def truncated (sha256 : List UInt8 → List UInt8) (bytes : List UInt8) : UInt64 :=
  ofLeBytes ((sha256 bytes).take 8)

omit [FloatOps F64 F32] in
/-- The snapshot with its state altered and its checksum kept. -/
def withState (snapshot : DemodulatorSnapshot F64 F32) (state : DemodState F64 F32) :
    DemodulatorSnapshot F64 F32 :=
  { snapshot with state }

theorem verify_withState_capture {sha256 : List UInt8 → List UInt8}
    {state altered : DemodState F64 F32} {sample : Sample F32} (h : altered.SameChecked state) :
    ((capture sha256 state sample).withState altered).verify sha256 = true := by
  show (truncated sha256 altered.checkedBytes == truncated sha256 state.checkedBytes) = true
  rw [beq_iff_eq, DemodState.checkedBytes_inj.mpr h]

/-- An altered state is noticed by what the checksum covers. -/
theorem verify_withState_capture_iff {sha256 : List UInt8 → List UInt8}
    {state altered : DemodState F64 F32} {sample : Sample F32}
    (h : truncated sha256 altered.checkedBytes = truncated sha256 state.checkedBytes →
      altered.checkedBytes = state.checkedBytes) :
    ((capture sha256 state sample).withState altered).verify sha256 = false ↔
      ¬ altered.SameChecked state := by
  show (truncated sha256 altered.checkedBytes == truncated sha256 state.checkedBytes) = false ↔ _
  rw [beq_eq_false_iff_ne, ne_eq, not_iff_not, ← DemodState.checkedBytes_inj]
  exact ⟨h, fun hbytes => by rw [hbytes]⟩

end DemodulatorSnapshot

/-- An altered log is noticed exactly when its entries store other hashes.  An altered state of a
demodulator is noticed exactly when a field that is covered by the checksum changes, and is handed
out in every case. -/
theorem tampering_noticed_iff {F64 F32 Value : Type} [FloatOps F64 F32]
    (sha256 : List UInt8 → List UInt8) :
    (∀ (inputs : SnapshotInputs) (entries altered : List (LogEntry Value)),
      (sha256 (LogSnapshot.storedHashes altered).toUTF8.toList =
          sha256 (LogSnapshot.storedHashes entries).toUTF8.toList →
        (LogSnapshot.storedHashes altered).toUTF8.toList =
          (LogSnapshot.storedHashes entries).toUTF8.toList) →
      (((LogSnapshot.new sha256 inputs entries).withEntries altered).verify sha256 = false ↔
        LogSnapshot.storedHashes altered ≠ LogSnapshot.storedHashes entries)) ∧
    ∀ (state altered : DemodState F64 F32) (sample : Sample F32),
      (DemodulatorSnapshot.truncated sha256 altered.checkedBytes =
          DemodulatorSnapshot.truncated sha256 state.checkedBytes →
        altered.checkedBytes = state.checkedBytes) →
      (((DemodulatorSnapshot.capture sha256 state sample).withState altered).verify sha256 = false ↔
        ¬ altered.SameChecked state) ∧
      ((DemodulatorSnapshot.capture sha256 state sample).withState altered).restore = altered :=
  ⟨fun _ _ _ h => LogSnapshot.verify_withEntries_new_iff h,
    fun _ _ _ h => ⟨DemodulatorSnapshot.verify_withState_capture_iff h, rfl⟩⟩

/-- The first entry of a log. -/
def firstEntry (passId : PassId) (hash : String) : LogEntry Unit where
  entryId := "entry-1"
  passId
  entryType := .passFailed "no carrier"
  eventTime := ⟨0⟩
  receptionTime := ⟨0⟩
  data := ()
  hash
  previousHash := none

def firstInputs : SnapshotInputs := ⟨"snapshot-1", ⟨0⟩, (0, 0), .stored _⟩

/-- A demodulator that has not processed a sample. -/
def freshState : DemodState ℚ ℚ :=
  letI := FloatOps.exact id id
  .new

def zeroSample : Sample ℚ := { i := 0, q := 0, eventTime := 0, receptionTime := 0, id := 1 }

theorem other_hash_noticed :
    letI := FloatOps.exact id id
    ((LogSnapshot.new Lib.sha256 firstInputs [firstEntry "pass-1" "00"]).withEntries
        [firstEntry "pass-1" "01"]).verify Lib.sha256 = false ∧
      ((DemodulatorSnapshot.capture Lib.sha256 freshState zeroSample).withState
        { freshState with lastSampleId := 1 }).verify Lib.sha256 = false := by
  let _ := FloatOps.exact id id
  have hnoticed := @tampering_noticed_iff ℚ ℚ Unit _ Lib.sha256
  refine ⟨(hnoticed.1 firstInputs _ _ fun h => ?_).mpr (by decide +kernel),
    (hnoticed.2 freshState { freshState with lastSampleId := 1 } zeroSample fun h => ?_).1.mpr
      fun h => ?_⟩
  · exact absurd h (by decide +kernel)
  · exact absurd h (by decide +kernel)
  · exact absurd h.lastSampleId (by decide)

/-- Another pass in an entry that keeps its hash, and another bit in the buffer of a demodulator,
are not noticed, and the altered state is handed out. -/
theorem altered_snapshots_accepted :
    letI := FloatOps.exact id id
    (¬ ∀ (ser : Serializer Unit) (inputs : SnapshotInputs) (entries altered : List (LogEntry Unit)),
      Function.Injective ser.sha256 → (∀ entry ∈ entries, entry.verify ser) →
      altered.length = entries.length → altered ≠ entries →
      ((LogSnapshot.new ser.sha256 inputs entries).withEntries altered).verify ser.sha256 =
        false) ∧
    (¬ ∀ (sha256 : List UInt8 → List UInt8) (state altered : DemodState ℚ ℚ) (sample : Sample ℚ),
      (DemodulatorSnapshot.truncated sha256 altered.checkedBytes =
          DemodulatorSnapshot.truncated sha256 state.checkedBytes →
        altered.checkedBytes = state.checkedBytes) → altered ≠ state →
      ((DemodulatorSnapshot.capture sha256 state sample).withState altered).verify sha256 =
        false) ∧
    ¬ ∀ (sha256 : List UInt8 → List UInt8) (state altered : DemodState ℚ ℚ) (sample : Sample ℚ),
      altered ≠ state →
      ((DemodulatorSnapshot.capture sha256 state sample).withState altered).restore ≠ altered := by
  let _ := FloatOps.exact id id
  have hbuffer : { freshState with bitBuffer := [1] } ≠ freshState := by
    intro h
    exact absurd (congrArg DemodState.bitBuffer h) (by decide)
  refine ⟨fun h => ?_, fun h => ?_, fun h => ?_⟩
  · let ser : Serializer Unit := { LogEntry.nullSerializer [] with sha256 := id }
    let hash := LogEntry.computeHash ser "entry-1" "pass-1" (.passFailed "no carrier") ⟨0⟩ ⟨0⟩ ()
      none
    have hverify : (firstEntry "pass-1" hash).verify ser := beq_self_eq_true hash
    have hchanged : [firstEntry "pass-2" hash] ≠ [firstEntry "pass-1" hash] := by
      intro heq
      exact absurd (congrArg LogEntry.passId (List.singleton_injective heq)) (by decide)
    have hnoticed := h ser firstInputs [firstEntry "pass-1" hash] [firstEntry "pass-2" hash]
      Function.injective_id (List.forall_mem_singleton.mpr hverify) rfl hchanged
    have hhashes : LogSnapshot.storedHashes [firstEntry "pass-2" hash] =
        LogSnapshot.storedHashes [firstEntry "pass-1" hash] := rfl
    rw [LogSnapshot.verify_withEntries_new hhashes] at hnoticed
    contradiction
  · have hnoticed := h id freshState { freshState with bitBuffer := [1] } zeroSample
      (fun _ => rfl) hbuffer
    have hchecked : ({ freshState with bitBuffer := [1] } : DemodState ℚ ℚ).SameChecked
        freshState := ⟨rfl, rfl, rfl, rfl, rfl, rfl, rfl, rfl⟩
    rw [DemodulatorSnapshot.verify_withState_capture hchecked] at hnoticed
    contradiction
  · exact h id freshState _ zeroSample hbuffer rfl

end GroundCore.RfLayer
