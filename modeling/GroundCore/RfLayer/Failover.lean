import GroundCore.RfLayer.Demodulator

/-! The acquisition of a pass by a primary and a shadow SDR.  The acquisition owns its three copies
of the demodulator's state: the primary's, the mirror kept for the shadow, and the snapshots. -/

namespace GroundCore.RfLayer

open Lib

structure SdrHandle where
  deviceId : String
  deriving DecidableEq, Repr

variable {F64 F32 : Type}

structure PassAcquisition (F64 F32 : Type) where
  primary : SdrHandle
  shadow : Option SdrHandle
  primaryState : DemodState F64 F32
  shadowState : DemodState F64 F32
  lastCommittedSample : SampleId
  passId : PassId
  shadowActive : Bool
  snapshotManager : SnapshotManager F64 F32
  primaryLastSampleCounter : UInt64

namespace PassAcquisition

section

variable [FloatOps F64 F32]

def new (passId : PassId) (primary : SdrHandle) (shadow : Option SdrHandle) :
    PassAcquisition F64 F32 :=
  let snapshotInterval : UInt64 := 50
  { passId
    primary
    shadow
    primaryState := DemodState.new
    shadowState := DemodState.new
    lastCommittedSample := 0
    shadowActive := shadow.isSome
    snapshotManager := SnapshotManager.new 100 (max snapshotInterval 1)
    primaryLastSampleCounter := 0 }

/-- The acquisition after a sample, and the result of the call; `none` is a panic. -/
def processPrimarySample (sha256 : List UInt8 → List UInt8) (acq : PassAcquisition F64 F32)
    (sample : Sample F32) : Option (PassAcquisition F64 F32 × Result (Option UInt8)) := do
  let (manager, _) ← acq.snapshotManager.captureIfNeeded sha256 acq.primaryState sample
  match acq.primaryState.processSample sample with
  | (state, .error e) =>
    some ({ acq with snapshotManager := manager, primaryState := state }, .error e)
  | (state, .ok byte) =>
    some ({ acq with
      snapshotManager := manager
      primaryState := state
      lastCommittedSample := sample.id
      primaryLastSampleCounter := acq.primaryLastSampleCounter + 1
      shadowState := if acq.shadowActive then state else acq.shadowState }, .ok byte)

end

def promoteShadow (acq : PassAcquisition F64 F32) : PassAcquisition F64 F32 × Result Unit :=
  match acq.shadow with
  | none => (acq, .error (.rfProcessing "No shadow SDR available for failover"))
  | some shadow =>
    -- the mirror in `shadowState` is not read here
    ({ acq with
      primary := shadow
      shadow := none
      primaryState :=
        match acq.snapshotManager.latest with
        | some snapshot => snapshot.restore
        | none => acq.primaryState
      shadowActive := false }, .ok ())

end PassAcquisition

end GroundCore.RfLayer

/-! Failover from the primary to the shadow SDR.  A promotion restores the latest snapshot, which
was captured before its sample was processed, so a failover loses nothing exactly when there is no
snapshot yet.  The samples of the shadow SDR are numbered by its own counter, and the snapshot
manager subtracts the id of the last snapshot from theirs. -/

namespace GroundCore.RfLayer

open Lib

variable {F64 F32 : Type} [FloatOps F64 F32]

/-! ### One sample -/

theorem far_iff {last id : SampleId} :
    last ≤ id ∧ 50 ≤ id - last ↔ last.toNat + 50 ≤ id.toNat := by
  rw [UInt64.le_iff_toNat_le]
  constructor
  · rintro ⟨hle, hfar⟩
    rw [UInt64.le_iff_toNat_le, UInt64.toNat_sub_of_le _ _ (UInt64.le_iff_toNat_le.mpr hle)] at hfar
    have : (50 : UInt64).toNat = 50 := rfl
    omega
  · intro h
    have hle : last.toNat ≤ id.toNat := by omega
    refine ⟨hle, ?_⟩
    rw [UInt64.le_iff_toNat_le, UInt64.toNat_sub_of_le _ _ (UInt64.le_iff_toNat_le.mpr hle)]
    have : (50 : UInt64).toNat = 50 := rfl
    omega

namespace SnapshotManager

/-- The last snapshot at the time when a sample with the given id is processed. -/
def due (last id : SampleId) : SampleId := if 50 ≤ id - last then id else last

omit [FloatOps F64 F32] in
theorem latest_addSnapshot {manager : SnapshotManager F64 F32} (h : manager.maxSnapshots ≠ 0)
    (snapshot : DemodulatorSnapshot F64 F32) :
    (manager.addSnapshot snapshot).latest = some snapshot := by
  unfold addSnapshot latest
  dsimp only
  split
  · next hlen =>
    have hne : manager.snapshots ≠ [] := by
      intro hnil
      rw [hnil] at hlen
      simp at hlen
      omega
    rw [List.tail_append_of_ne_nil hne]
    simp
  · simp

end SnapshotManager

namespace PassAcquisition

/-- What holds between two samples: the state's last sample is less than 50 after the last
snapshot, and the state in the latest snapshot is from before that snapshot's sample. -/
structure Tracks (acq : PassAcquisition F64 F32) : Prop where
  max : acq.snapshotManager.maxSnapshots = 100
  interval : acq.snapshotManager.snapshotIntervalSamples = 50
  last_le : acq.snapshotManager.lastSnapshotSample ≤ acq.primaryState.lastSampleId
  lt_due : acq.primaryState.lastSampleId.toNat <
    acq.snapshotManager.lastSnapshotSample.toNat + 50
  latest_lt : ∀ snapshot, acq.snapshotManager.latest = some snapshot →
    snapshot.state.lastSampleId < acq.snapshotManager.lastSnapshotSample
  last_eq : acq.snapshotManager.latest = none → acq.snapshotManager.lastSnapshotSample = 0

theorem tracks_new (passId : PassId) (primary : SdrHandle) (shadow : Option SdrHandle) :
    (new passId primary shadow : PassAcquisition F64 F32).Tracks where
  max := rfl
  interval := rfl
  last_le := UInt64.le_refl _
  lt_due := Nat.lt_of_sub_eq_succ rfl
  latest_lt := by simp [new, SnapshotManager.new, SnapshotManager.latest]
  last_eq := fun _ => rfl

/-- A call for a sample that demodulates it and returns `byte`. -/
structure Processes (sha256 : List UInt8 → List UInt8) (acq : PassAcquisition F64 F32)
    (sample : Sample F32) (acq' : PassAcquisition F64 F32) (byte : Option UInt8) : Prop where
  call : acq.processPrimarySample sha256 sample = some (acq', .ok byte)
  tracks : acq'.Tracks
  state : acq.primaryState.processSample sample = (acq'.primaryState, .ok byte)
  shadow : acq'.shadow = acq.shadow
  last : acq'.snapshotManager.lastSnapshotSample =
    SnapshotManager.due acq.snapshotManager.lastSnapshotSample sample.id
  latest : acq'.snapshotManager.latest = none ↔
    acq.snapshotManager.latest = none ∧ sample.id < 50

variable {acq : PassAcquisition F64 F32} {sample : Sample F32}
  {state : DemodState F64 F32} {byte : Option UInt8}

/-- A sample that is demodulated, with what the manager captured before. -/
theorem exists_processPrimarySample {sha256 : List UInt8 → List UInt8}
    {manager : SnapshotManager F64 F32} {captured : Option (DemodulatorSnapshot F64 F32)}
    (hcapture : acq.snapshotManager.captureIfNeeded sha256 acq.primaryState sample =
      some (manager, captured))
    (hrun : acq.primaryState.processSample sample = (state, .ok byte)) :
    ∃ acq', acq.processPrimarySample sha256 sample = some (acq', .ok byte) ∧
      acq'.snapshotManager = manager ∧ acq'.primaryState = state ∧ acq'.shadow = acq.shadow := by
  rw [processPrimarySample, hcapture, Option.bind_eq_bind, Option.bind_some, hrun]
  exact ⟨_, rfl, rfl, rfl, rfl⟩

/-- A sample that is 50 or more after the last snapshot leaves a snapshot behind. -/
theorem processes_of_far (sha256 : List UInt8 → List UInt8) (h : acq.Tracks)
    (hrun : acq.primaryState.processSample sample = (state, .ok byte))
    (hid : state.lastSampleId = sample.id)
    (hle : acq.snapshotManager.lastSnapshotSample ≤ sample.id)
    (hdue : 50 ≤ sample.id - acq.snapshotManager.lastSnapshotSample) :
    ∃ acq', acq.Processes sha256 sample acq' byte := by
  have hfar := far_iff.mp ⟨hle, hdue⟩
  let snapshot := DemodulatorSnapshot.capture sha256 acq.primaryState sample
  let manager := { acq.snapshotManager.addSnapshot snapshot with lastSnapshotSample := sample.id }
  have hlatest : manager.latest = some snapshot :=
    SnapshotManager.latest_addSnapshot (by rw [h.max]; decide) snapshot
  have hcapture : acq.snapshotManager.captureIfNeeded sha256 acq.primaryState sample =
      some (manager, some snapshot) := by
    simp [SnapshotManager.captureIfNeeded, SnapshotManager.shouldSnapshot, UInt64.not_lt.mpr hle,
      h.interval, hdue, manager, snapshot]
  obtain ⟨acq', hcall, hmanager, rfl, hshadow⟩ := exists_processPrimarySample hcapture hrun
  refine ⟨acq', hcall, ?_, hrun, hshadow, ?_, ?_⟩
  · have hlast := h.lt_due
    constructor <;> rw [hmanager]
    · exact h.max
    · exact h.interval
    · exact hid.symm ▸ UInt64.le_refl _
    · show acq'.primaryState.lastSampleId.toNat < sample.id.toNat + 50
      rw [hid]
      omega
    · intro captured hcaptured
      rw [hlatest, Option.some.injEq] at hcaptured
      rw [← hcaptured]
      show acq.primaryState.lastSampleId < sample.id
      rw [UInt64.lt_iff_toNat_lt]
      omega
    · intro hnone
      rw [hlatest] at hnone
      contradiction
  · rw [hmanager, SnapshotManager.due, if_pos hdue]
  · rw [hmanager, hlatest]
    constructor
    · intro hnone
      contradiction
    · rintro ⟨hnone, hsmall⟩
      rw [h.last_eq hnone] at hfar
      rw [UInt64.lt_iff_toNat_lt] at hsmall
      exact absurd hsmall (by simpa using hfar)

theorem processes_of_near (sha256 : List UInt8 → List UInt8) (h : acq.Tracks)
    (hrun : acq.primaryState.processSample sample = (state, .ok byte))
    (hid : state.lastSampleId = sample.id)
    (hle : acq.snapshotManager.lastSnapshotSample ≤ sample.id)
    (hdue : ¬ 50 ≤ sample.id - acq.snapshotManager.lastSnapshotSample) :
    ∃ acq', acq.Processes sha256 sample acq' byte := by
  have hnear : ¬ acq.snapshotManager.lastSnapshotSample.toNat + 50 ≤ sample.id.toNat :=
    fun hfar => hdue (far_iff.mpr hfar).2
  have hcapture : acq.snapshotManager.captureIfNeeded sha256 acq.primaryState sample =
      some (acq.snapshotManager, none) := by
    simp [SnapshotManager.captureIfNeeded, SnapshotManager.shouldSnapshot, UInt64.not_lt.mpr hle,
      h.interval, hdue]
  obtain ⟨acq', hcall, hmanager, rfl, hshadow⟩ := exists_processPrimarySample hcapture hrun
  refine ⟨acq', hcall, ?_, hrun, hshadow, ?_, ?_⟩
  · constructor <;> rw [hmanager]
    · exact h.max
    · exact h.interval
    · exact hid.symm ▸ hle
    · rw [hid]
      omega
    · exact h.latest_lt
    · exact h.last_eq
  · rw [hmanager, SnapshotManager.due, if_neg hdue]
  · rw [hmanager]
    constructor
    · intro hnone
      rw [h.last_eq hnone] at hdue
      exact ⟨hnone, by simpa using hdue⟩
    · exact And.left

/-- A sample panics exactly when its id is below that of the last snapshot. -/
theorem processPrimarySample_cases (sha256 : List UInt8 → List UInt8) (h : acq.Tracks)
    (sample : Sample F32) :
    (sample.id < acq.snapshotManager.lastSnapshotSample ∧
      acq.processPrimarySample sha256 sample = none) ∨
    (acq.snapshotManager.lastSnapshotSample ≤ sample.id ∧
      ∃ acq' byte, acq.Processes sha256 sample acq' byte) := by
  by_cases hlt : sample.id < acq.snapshotManager.lastSnapshotSample
  · left
    refine ⟨hlt, ?_⟩
    simp [processPrimarySample, SnapshotManager.captureIfNeeded, SnapshotManager.shouldSnapshot,
      hlt]
  · right
    have hle : acq.snapshotManager.lastSnapshotSample ≤ sample.id := UInt64.not_lt.mp hlt
    obtain ⟨byte, hbyte⟩ := acq.primaryState.processSample_ok sample
    have hid := acq.primaryState.processSample_lastSampleId sample
    have hrun : acq.primaryState.processSample sample =
        ((acq.primaryState.processSample sample).1, .ok byte) := Prod.ext rfl hbyte
    refine ⟨hle, ?_⟩
    by_cases hdue : 50 ≤ sample.id - acq.snapshotManager.lastSnapshotSample
    · obtain ⟨acq', hprocesses⟩ := processes_of_far sha256 h hrun hid hle hdue
      exact ⟨acq', byte, hprocesses⟩
    · obtain ⟨acq', hprocesses⟩ := processes_of_near sha256 h hrun hid hle hdue
      exact ⟨acq', byte, hprocesses⟩

/-! ### Runs -/

/-- The acquisition after `samples`, and the bytes that the calls return; `none` when a call
panics. -/
def feed (sha256 : List UInt8 → List UInt8) (acq : PassAcquisition F64 F32) :
    List (Sample F32) → Option (PassAcquisition F64 F32 × List UInt8)
  | [] => some (acq, [])
  | sample :: samples => do
    let (acq, result) ← acq.processPrimarySample sha256 sample
    let (acq, bytes) ← feed sha256 acq samples
    some (acq, (result.toOption.getD none).toList ++ bytes)

/-- Every id is at or after that of the snapshot that is the last one when it is processed. -/
def IdsAdmitted : SampleId → List (Sample F32) → Prop
  | _, [] => True
  | last, sample :: samples =>
    last ≤ sample.id ∧ IdsAdmitted (SnapshotManager.due last sample.id) samples

/-- A failover after `before` loses nothing: no call panics, the promotion leaves the demodulator's
state as it is, and the bytes are those of the same samples without a failover. -/
def Lossless (sha256 : List UInt8 → List UInt8) (acq : PassAcquisition F64 F32)
    (before after : List (Sample F32)) : Prop :=
  ∃ acq₁ bytes₁ acq₂ acq₃ bytes₂,
    feed sha256 acq before = some (acq₁, bytes₁) ∧
    acq₁.promoteShadow = (acq₂, .ok ()) ∧
    acq₂.primaryState = acq₁.primaryState ∧
    feed sha256 acq₂ after = some (acq₃, bytes₂) ∧
    bytes₁ ++ bytes₂ = (acq.primaryState.decode (before ++ after)).2

theorem feed_cases (sha256 : List UInt8 → List UInt8) {acq : PassAcquisition F64 F32}
    (h : acq.Tracks) (samples : List (Sample F32)) :
    (¬ IdsAdmitted acq.snapshotManager.lastSnapshotSample samples ∧
      feed sha256 acq samples = none) ∨
    (IdsAdmitted acq.snapshotManager.lastSnapshotSample samples ∧ ∃ acq' bytes,
      feed sha256 acq samples = some (acq', bytes) ∧ acq'.Tracks ∧
      acq.primaryState.decode samples = (acq'.primaryState, bytes) ∧
      acq'.shadow = acq.shadow ∧
      (acq'.snapshotManager.latest = none ↔
        acq.snapshotManager.latest = none ∧ ∀ sample ∈ samples, sample.id < 50)) := by
  induction samples generalizing acq with
  | nil => exact .inr ⟨trivial, acq, [], rfl, h, rfl, rfl, by simp⟩
  | cons sample samples ih =>
    rcases processPrimarySample_cases sha256 h sample with
      ⟨hlt, hnone⟩ | ⟨hle, acq₁, byte, hsome, htracks, hstate, hshadow, hlast, hlatest⟩
    · exact .inl ⟨fun hadm => UInt64.not_le.mpr hlt hadm.1, by simp [feed, hnone]⟩
    · rcases ih htracks with ⟨hnot, hfeed⟩ | ⟨hadm, acq₂, bytes, hfeed, htr, hdec, hsh, hlat⟩
      · rw [hlast] at hnot
        exact .inl ⟨fun hadm => hnot hadm.2, by simp [feed, hsome, hfeed]⟩
      · rw [hlast] at hadm
        refine .inr ⟨⟨hle, hadm⟩, acq₂, byte.toList ++ bytes, ?_, htr, ?_, hsh.trans hshadow, ?_⟩
        · simp [feed, hsome, hfeed, Except.toOption]
        · simp [DemodState.decode, hstate, hdec, Except.toOption]
        · rw [hlat, hlatest, List.forall_mem_cons, and_assoc]

theorem decode_append (state : DemodState F64 F32) (before after : List (Sample F32)) :
    (state.decode (before ++ after)).2 =
      (state.decode before).2 ++ ((state.decode before).1.decode after).2 := by
  induction before generalizing state with
  | nil => rfl
  | cons sample before ih => simp [DemodState.decode, ih]

theorem idsAdmitted_of_lt {samples : List (Sample F32)}
    (h : ∀ sample ∈ samples, sample.id < 50) : IdsAdmitted 0 samples := by
  induction samples with
  | nil => trivial
  | cons sample samples ih =>
    obtain ⟨hid, hrest⟩ := List.forall_mem_cons.mp h
    have hdue : SnapshotManager.due 0 sample.id = 0 := by
      simp [SnapshotManager.due, hid]
    refine ⟨UInt64.zero_le, ?_⟩
    rw [hdue]
    exact ih hrest

omit [FloatOps F64 F32] in
/-- A promotion keeps the state exactly when there is no snapshot to restore. -/
theorem promoteShadow_primaryState {acq : PassAcquisition F64 F32} (h : acq.Tracks)
    {shadow : SdrHandle} (hshadow : acq.shadow = some shadow) :
    acq.promoteShadow.1.primaryState = acq.primaryState ↔ acq.snapshotManager.latest = none := by
  cases hlatest : acq.snapshotManager.latest with
  | none => simp [promoteShadow, hshadow, hlatest]
  | some snapshot =>
    simp only [promoteShadow, hshadow, hlatest, DemodulatorSnapshot.restore, reduceCtorEq,
      iff_false]
    intro heq
    have hlt := h.latest_lt snapshot hlatest
    rw [heq] at hlt
    exact absurd h.last_le (UInt64.not_le.mpr hlt)

omit [FloatOps F64 F32] in
theorem promoteShadow_of_latest_eq_none {acq : PassAcquisition F64 F32} (h : acq.Tracks)
    {shadow : SdrHandle} (hshadow : acq.shadow = some shadow)
    (hlatest : acq.snapshotManager.latest = none) :
    ∃ acq', acq.promoteShadow = (acq', .ok ()) ∧ acq'.Tracks ∧
      acq'.primaryState = acq.primaryState ∧ acq'.snapshotManager.lastSnapshotSample = 0 := by
  refine ⟨{ acq with primary := shadow, shadow := none, shadowActive := false }, ?_, { h with },
    rfl, h.last_eq hlatest⟩
  simp [promoteShadow, hshadow, hlatest]

theorem ids_lt_of_lossless {sha256 : List UInt8 → List UInt8} {passId : PassId}
    {primary shadow : SdrHandle} {before after : List (Sample F32)}
    (h : Lossless sha256 (new passId primary (some shadow) : PassAcquisition F64 F32)
      before after) : ∀ sample ∈ before, sample.id < 50 := by
  obtain ⟨acq₁, bytes₁, acq₂, acq₃, bytes₂, hbefore, hpromote, hstate, -⟩ := h
  have htracks : (new passId primary (some shadow) : PassAcquisition F64 F32).Tracks :=
    tracks_new passId primary (some shadow)
  rcases feed_cases sha256 htracks before with
    ⟨-, hnone⟩ | ⟨-, acq', bytes, hfeed, htracks, -, hshadow, hlatest⟩
  · rw [hnone] at hbefore
    contradiction
  · rw [hfeed, Option.some.injEq, Prod.mk.injEq] at hbefore
    obtain ⟨rfl, -⟩ := hbefore
    have hkeep : acq'.promoteShadow.1.primaryState = acq'.primaryState := by rw [hpromote, hstate]
    exact (hlatest.mp ((promoteShadow_primaryState htracks hshadow).mp hkeep)).2

/-- A failover is lossless exactly when no sample before it was due for a snapshot, and the ids of
the shadow SDR's samples do not fall behind the snapshots taken after it. -/
theorem lossless_iff (sha256 : List UInt8 → List UInt8) (passId : PassId)
    (primary shadow : SdrHandle) (before after : List (Sample F32)) :
    Lossless sha256 (new passId primary (some shadow) : PassAcquisition F64 F32) before after ↔
      (∀ sample ∈ before, sample.id < 50) ∧ IdsAdmitted 0 after := by
  have htracks : (new passId primary (some shadow) : PassAcquisition F64 F32).Tracks :=
    tracks_new passId primary (some shadow)
  -- with no sample due, the promotion finds no snapshot and the rest is one uninterrupted run
  have hrun : ∀ hids : ∀ sample ∈ before, sample.id < 50,
      (Lossless sha256 (new passId primary (some shadow) : PassAcquisition F64 F32) before after ↔
        IdsAdmitted 0 after) := by
    intro hids
    rcases feed_cases sha256 htracks before with
      ⟨hnot, -⟩ | ⟨-, acq₁, bytes₁, hbefore, htr₁, hdec₁, hshadow, hlatest⟩
    · exact absurd (idsAdmitted_of_lt hids) hnot
    obtain ⟨acq₂, hpromote, htr₂, hstate, hlast⟩ :=
      promoteShadow_of_latest_eq_none htr₁ hshadow (hlatest.mpr ⟨rfl, hids⟩)
    rcases feed_cases sha256 htr₂ after with
      ⟨hnot, hafter⟩ | ⟨hadm, acq₃, bytes₂, hafter, -, hdec₂, -⟩
    · rw [hlast] at hnot
      refine ⟨?_, fun hadm => absurd hadm hnot⟩
      rintro ⟨acq, bytes, acq', acq'', bytes', hb, hp, -, ha, -⟩
      rw [hbefore, Option.some.injEq, Prod.mk.injEq] at hb
      obtain ⟨rfl, rfl⟩ := hb
      rw [hpromote, Prod.mk.injEq] at hp
      obtain ⟨rfl, -⟩ := hp
      rw [hafter] at ha
      contradiction
    · rw [hlast] at hadm
      refine ⟨fun _ => hadm, fun _ => ⟨acq₁, bytes₁, acq₂, acq₃, bytes₂, hbefore, hpromote, hstate,
        hafter, ?_⟩⟩
      rw [decode_append, hdec₁]
      show bytes₁ ++ bytes₂ = bytes₁ ++ (acq₁.primaryState.decode after).2
      rw [← hstate, hdec₂]
  constructor
  · intro h
    have hids := ids_lt_of_lossless h
    exact ⟨hids, (hrun hids).mp h⟩
  · rintro ⟨hids, hadm⟩
    exact (hrun hids).mpr hadm

/-- Exact arithmetic, with the cosine and the sine of small angles. -/
@[reducible] def smallAngles : FloatOps ℚ ℚ :=
  .exact (fun x => 1 - x ^ 2 / 2) (fun x => x)

/-- The sample of the given id in a run of silence. -/
def silence (id : Nat) : Sample ℚ := ⟨0, 0, 0, 0, UInt64.ofNat id⟩

/-- After 51 samples numbered from 0, a failover goes back to the state before the last of them. -/
theorem not_lossless_after_51_samples :
    letI := smallAngles
    ¬ ∀ (passId : PassId) (primary shadow : SdrHandle) (before after : List (Sample ℚ)),
      Lossless Lib.sha256 (new passId primary (some shadow) : PassAcquisition ℚ ℚ)
        before after := by
  intro h
  let := smallAngles
  have hids := ids_lt_of_lossless
    (h "pass-1" ⟨"primary"⟩ ⟨"shadow"⟩ ((List.range 51).map silence) [])
  have hlast : silence 50 ∈ (List.range 51).map silence := List.mem_map.mpr ⟨50, by simp, rfl⟩
  exact absurd (hids (silence 50) hlast) (by decide)

end PassAcquisition

end GroundCore.RfLayer
