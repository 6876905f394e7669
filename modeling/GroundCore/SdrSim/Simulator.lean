import GroundCore.RfLayer.Demodulator
import GroundCore.SdrSim.Signal

/-! The simulated SDR, with failures injected into its samples.  A read that fails stops there: the
rest of the buffer keeps what it held, and the identifier of the failed sample is lost. -/

namespace GroundCore.SdrSim

open Real Lib
open RfLayer (Sample SampleId)

noncomputable section

inductive FailureType
  | sdrUnresponsive
  | sdrGarbageData
  | frequencyDrift (driftHzPerSec : ℝ)
  | sampleRateDeviation (deviationPpm : ℝ)
  | packetLoss (lossRate : ℝ)
  | overheat

structure FailureInjector where
  enabled : Bool
  failureType : Option FailureType
  failureTime : Option DateTime
  recoveryTime : Option DateTime

/-- The readings of the clock and the random numbers of a turn of the loop over a buffer. -/
structure Turn where
  noise : NoiseDraw
  now : DateTime
  failingNow : DateTime
  driftNow : DateTime
  garbageI : ℝ
  garbageQ : ℝ
  loss : ℝ

namespace FailureInjector

def new : FailureInjector :=
  { enabled := false, failureType := none, failureTime := none, recoveryTime := none }

def scheduleFailure (failureType : FailureType) (delay : Duration) (now : DateTime) :
    FailureInjector :=
  { enabled := true, failureType, failureTime := some (now + delay), recoveryTime := none }

/-- The clock is read for each of the two times. -/
def scheduleFailureWithRecovery (failureType : FailureType) (delay recoveryAfter : Duration)
    (now later : DateTime) : FailureInjector :=
  { enabled := true
    failureType
    failureTime := some (now + delay)
    recoveryTime := some (later + (delay + recoveryAfter)) }

def isFailing (injector : FailureInjector) (now : DateTime) : Bool :=
  if !injector.enabled then false
  else
    match injector.failureTime, injector.recoveryTime with
    | some failure, none => decide (failure ≤ now)
    | some failure, some recovery => decide (failure ≤ now) && decide (now < recovery)
    | _, _ => false

/-- The sample as the failure leaves it, and whether it is lost. -/
def applyFailure (injector : FailureInjector) (turn : Turn) (i q : ℝ) : (ℝ × ℝ) × Bool :=
  if !injector.isFailing turn.failingNow then ((i, q), false)
  else
    match injector.failureType with
    | none => ((i, q), false)
    | some .sdrUnresponsive => ((i, q), true)
    | some .sdrGarbageData => ((turn.garbageI, turn.garbageQ), false)
    | some (.frequencyDrift driftHzPerSec) =>
      -- a failure in progress has a time
      let elapsed := Duration.numSeconds (turn.driftNow - injector.failureTime.getD turn.driftNow)
      let phaseDrift := driftHzPerSec * elapsed
      ((i * cos phaseDrift - q * sin phaseDrift, i * sin phaseDrift + q * cos phaseDrift), false)
    | some (.sampleRateDeviation _) => ((i, q), false)
    | some (.packetLoss lossRate) => ((i, q), open Classical in decide (turn.loss < lossRate))
    | some .overheat => ((i * 0.1, q * 0.1), false)

end FailureInjector

structure SimulatedSdrConfig where
  deviceId : String
  carrierFrequency : ℕ
  sampleRate : ℕ
  signalType : SignalType
  noiseModel : NoiseModel
  dopplerShift : ℤ
  dopplerDriftRate : ℝ

structure SimulatedSdr where
  config : SimulatedSdrConfig
  signalGenerator : SignalGenerator
  failureInjector : FailureInjector
  sampleCounter : SampleId
  startTime : DateTime
  enabled : Bool

def SimulatedSdrConfig.generator (config : SimulatedSdrConfig) : SignalGenerator :=
  .new config.signalType config.noiseModel config.carrierFrequency config.sampleRate

namespace SimulatedSdr

def new (config : SimulatedSdrConfig) (now : DateTime) : SimulatedSdr :=
  { config
    signalGenerator := config.generator
    failureInjector := .new
    sampleCounter := 0
    startTime := now
    enabled := true }

/-- The signal starts anew with every change of the settings. -/
def updateConfig (sdr : SimulatedSdr) (config : SimulatedSdrConfig) : SimulatedSdr :=
  { sdr with config, signalGenerator := config.generator }

def tune (sdr : SimulatedSdr) (frequency : ℕ) : SimulatedSdr :=
  sdr.updateConfig { sdr.config with carrierFrequency := frequency }

def setSampleRate (sdr : SimulatedSdr) (rate : ℕ) : SimulatedSdr :=
  sdr.updateConfig { sdr.config with sampleRate := rate }

def setEnabled (sdr : SimulatedSdr) (enabled : Bool) : SimulatedSdr := { sdr with enabled }

/-- A turn of the loop over a buffer: the next sample, if it is not lost. -/
def nextSample (sdr : SimulatedSdr) (currentDoppler : ℝ) (turn : Turn) :
    SimulatedSdr × Option (Sample ℝ) :=
  let id := sdr.sampleCounter
  let (signalGenerator, i, q) := sdr.signalGenerator.nextSample turn.noise
  -- the angle comes from the sample itself, not from its place in the stream
  let dopplerPhase := 2.0 * π * currentDoppler * i / sdr.config.sampleRate
  let dopplerI := i * cos dopplerPhase - q * sin dopplerPhase
  let dopplerQ := i * sin dopplerPhase + q * cos dopplerPhase
  let ((i, q), isFailed) := sdr.failureInjector.applyFailure turn dopplerI dopplerQ
  let sdr := { sdr with sampleCounter := id + 1, signalGenerator }
  (sdr, if isFailed then none
    else some { i, q, eventTime := turn.now, receptionTime := turn.now, id })

/-- The loop over a buffer: the number of samples written, and the buffer. -/
def fill (sdr : SimulatedSdr) (currentDoppler : ℝ) (turn : ℕ → Turn) :
    List (Sample ℝ) → SimulatedSdr × ℕ × List (Sample ℝ)
  | [] => (sdr, 0, [])
  | old :: buffer =>
    match sdr.nextSample currentDoppler (turn 0) with
    | (sdr, none) => (sdr, 0, old :: buffer)
    | (sdr, some sample) =>
      let (sdr, count, buffer) := fill sdr currentDoppler (fun k => turn (k + 1)) buffer
      (sdr, count + 1, sample :: buffer)

def readSamples (sdr : SimulatedSdr) (now : DateTime) (turn : ℕ → Turn)
    (buffer : List (Sample ℝ)) : SimulatedSdr × ℕ × List (Sample ℝ) :=
  if !sdr.enabled then (sdr, 0, buffer)
  else
    let elapsed := Duration.numSeconds (now - sdr.startTime)
    let currentDoppler := sdr.config.dopplerShift + sdr.config.dopplerDriftRate * elapsed
    sdr.fill currentDoppler turn buffer

end SimulatedSdr

inductive SdrCall
  | readSamples (now : DateTime) (turn : ℕ → Turn) (buffer : List (Sample ℝ))
  | tune (frequency : ℕ)
  | setSampleRate (rate : ℕ)
  | setEnabled (enabled : Bool)
  | updateConfig (config : SimulatedSdrConfig)
  | scheduleFailure (failureType : FailureType) (delay : Duration) (now : DateTime)
  | scheduleFailureWithRecovery (failureType : FailureType) (delay recoveryAfter : Duration)
      (now later : DateTime)
  | resetFailure

def SimulatedSdr.setInjector (sdr : SimulatedSdr) (failureInjector : FailureInjector) :
    SimulatedSdr := { sdr with failureInjector }

/-- A device with what was read from it, and the number of reads that failed. -/
structure Session where
  sdr : SimulatedSdr
  stream : List (Sample ℝ)
  failures : ℕ

namespace Session

def opened (config : SimulatedSdrConfig) (now : DateTime) : Session :=
  { sdr := .new config now, stream := [], failures := 0 }

def step (s : Session) : SdrCall → Session
  | .readSamples now turn buffer =>
    let (sdr, count, read) := s.sdr.readSamples now turn buffer
    { sdr
      stream := s.stream ++ read.take count
      failures := s.failures + if s.sdr.enabled ∧ count < buffer.length then 1 else 0 }
  | .tune frequency => { s with sdr := s.sdr.tune frequency }
  | .setSampleRate rate => { s with sdr := s.sdr.setSampleRate rate }
  | .setEnabled enabled => { s with sdr := s.sdr.setEnabled enabled }
  | .updateConfig config => { s with sdr := s.sdr.updateConfig config }
  | .scheduleFailure failureType delay now =>
    { s with sdr := s.sdr.setInjector (.scheduleFailure failureType delay now) }
  | .scheduleFailureWithRecovery failureType delay recoveryAfter now later =>
    { s with
      sdr := s.sdr.setInjector
        (.scheduleFailureWithRecovery failureType delay recoveryAfter now later) }
  | .resetFailure => { s with sdr := s.sdr.setInjector .new }

end Session

/-! ### The stream of samples -/

/-- A read of a buffer, of which `count` samples are new: they are numbered from the counter on, and
the counter skips a number if the read stops early. -/
structure Read (sdr : SimulatedSdr) (buffer : List (Sample ℝ))
    (result : SimulatedSdr × ℕ × List (Sample ℝ)) : Prop where
  count : result.2.1 ≤ buffer.length
  length : result.2.2.length = buffer.length
  kept : result.2.2.drop result.2.1 = buffer.drop result.2.1
  ids : (result.2.2.take result.2.1).map (·.id) =
    (List.range result.2.1).map fun k => sdr.sampleCounter + UInt64.ofNat k
  counter : result.1.sampleCounter = sdr.sampleCounter +
    UInt64.ofNat (result.2.1 + if result.2.1 < buffer.length then 1 else 0)

theorem counter_succ (counter : UInt64) (n : ℕ) :
    counter + 1 + UInt64.ofNat n = counter + UInt64.ofNat (n + 1) := by
  rw [Nat.add_comm, UInt64.ofNat_add, UInt64.add_assoc]
  rfl

theorem SimulatedSdr.nextSample_spec (sdr : SimulatedSdr) (currentDoppler : ℝ) (turn : Turn) :
    (sdr.nextSample currentDoppler turn).1.sampleCounter = sdr.sampleCounter + 1 ∧
      ∀ sample ∈ (sdr.nextSample currentDoppler turn).2, sample.id = sdr.sampleCounter := by
  refine ⟨rfl, fun sample hsample => ?_⟩
  unfold nextSample at hsample
  dsimp only at hsample
  split at hsample
  · contradiction
  · rw [← Option.mem_some.mp hsample]

theorem SimulatedSdr.read_fill (sdr : SimulatedSdr) (currentDoppler : ℝ) (turn : ℕ → Turn)
    (buffer : List (Sample ℝ)) : Read sdr buffer (sdr.fill currentDoppler turn buffer) := by
  induction buffer generalizing sdr turn with
  | nil => exact ⟨le_rfl, rfl, rfl, rfl, by simp [fill]⟩
  | cons old buffer ih =>
    obtain ⟨hcounter, hid⟩ := sdr.nextSample_spec currentDoppler (turn 0)
    unfold fill
    split
    · next next heq =>
      rw [heq] at hcounter
      exact ⟨Nat.zero_le _, rfl, rfl, rfl, by simpa using hcounter⟩
    · next next sample heq =>
      rw [heq] at hcounter hid
      obtain ⟨hcount, hlength, hkept, hids, hafter⟩ := ih next fun k => turn (k + 1)
      have hsample : sample.id = sdr.sampleCounter := hid sample rfl
      refine ⟨Nat.succ_le_succ hcount, congrArg (· + 1) hlength, hkept, ?_, ?_⟩
      · dsimp only
        rw [List.take_succ_cons, List.map_cons, hids, List.range_succ_eq_map, List.map_cons,
          List.map_map, hsample, hcounter]
        congr 1
        · simp
        · exact List.map_congr_left fun k _ => counter_succ sdr.sampleCounter k
      · dsimp only
        rw [hafter, hcounter, counter_succ, List.length_cons, Nat.add_right_comm]
        simp only [Nat.add_lt_add_iff_right]

theorem SimulatedSdr.read_readSamples {sdr : SimulatedSdr} (henabled : sdr.enabled = true)
    (now : DateTime) (turn : ℕ → Turn) (buffer : List (Sample ℝ)) :
    Read sdr buffer (sdr.readSamples now turn buffer) := by
  unfold readSamples
  rw [henabled]
  exact sdr.read_fill _ turn buffer

theorem SimulatedSdr.readSamples_disabled {sdr : SimulatedSdr} (hdisabled : sdr.enabled = false)
    (now : DateTime) (turn : ℕ → Turn) (buffer : List (Sample ℝ)) :
    sdr.readSamples now turn buffer = (sdr, 0, buffer) := by
  unfold readSamples
  rw [hdisabled]
  rfl

namespace Session

/-- The number of identifiers that were given out. -/
def numbered (s : Session) : ℕ := s.stream.length + s.failures

/-- The counter is at the number of identifiers, and the stream carries all of these that were not
lost, in their order. -/
structure Numbered (s : Session) : Prop where
  counter : s.sdr.sampleCounter = UInt64.ofNat s.numbered
  ids : (s.stream.map (·.id)).Sublist ((List.range s.numbered).map UInt64.ofNat)

theorem Numbered.read {s : Session} (h : Numbered s) {buffer : List (Sample ℝ)}
    {result : SimulatedSdr × ℕ × List (Sample ℝ)} (hread : Read s.sdr buffer result) :
    Numbered
      { sdr := result.1
        stream := s.stream ++ result.2.2.take result.2.1
        failures := s.failures + if result.2.1 < buffer.length then 1 else 0 } := by
  obtain ⟨hcount, hlength, -, hids, hcounter⟩ := hread
  generalize (if result.2.1 < buffer.length then 1 else 0) = lost at hcounter ⊢
  have htaken : (result.2.2.take result.2.1).length = result.2.1 := by
    rw [List.length_take, hlength]
    omega
  have hnumbered : numbered
      { sdr := result.1
        stream := s.stream ++ result.2.2.take result.2.1
        failures := s.failures + lost } = s.numbered + result.2.1 + lost := by
    show (s.stream ++ _).length + (s.failures + lost) = s.stream.length + s.failures + _ + lost
    rw [List.length_append, htaken]
    omega
  constructor
  · rw [hnumbered, hcounter, h.counter, Nat.add_assoc, UInt64.ofNat_add s.numbered]
  · rw [hnumbered, List.map_append, hids, h.counter]
    have hrange : (List.range (s.numbered + result.2.1)).map UInt64.ofNat =
        (List.range s.numbered).map UInt64.ofNat ++
          (List.range result.2.1).map fun k => UInt64.ofNat s.numbered + UInt64.ofNat k := by
      simp [List.range_add, UInt64.ofNat_add]
    have hread : List.Sublist _ ((List.range (s.numbered + result.2.1)).map UInt64.ofNat) :=
      hrange ▸ h.ids.append_right _
    rw [List.range_add, List.map_append]
    exact hread.trans (List.sublist_append_left _ _)

theorem Numbered.step {s : Session} (h : Numbered s) (call : SdrCall) : Numbered (s.step call) := by
  cases call with
  | readSamples now turn buffer =>
    unfold Session.step
    dsimp only
    cases henabled : s.sdr.enabled with
    | true =>
      simp only [true_and]
      exact h.read (s.sdr.read_readSamples henabled now turn buffer)
    | false =>
      rw [s.sdr.readSamples_disabled henabled]
      simp only [Bool.false_eq_true, false_and, if_false, List.take_zero, List.append_nil]
      exact h
  | _ => exact ⟨h.counter, h.ids⟩

theorem numbered_opened (config : SimulatedSdrConfig) (now : DateTime) :
    Numbered (opened config now) := ⟨rfl, List.Sublist.refl _⟩

/-- Whatever is called on a device, the samples read from it carry the numbers from zero on, without
those that a failed read lost, which is one for each.  Up to `2 ^ 64` they are in strict order.  A
further read changes no more of the buffer than it counts. -/
theorem stream_of_run (config : SimulatedSdrConfig) (created : DateTime) (calls : List SdrCall) :
    let s := run step (opened config created) calls
    let given := s.stream.length + s.failures
    s.sdr.sampleCounter = UInt64.ofNat given ∧
    (s.stream.map (·.id)).Sublist ((List.range given).map UInt64.ofNat) ∧
    (given ≤ 2 ^ 64 → s.stream.Pairwise fun a b => a.id < b.id) ∧
    ∀ now turn buffer,
      let result := s.sdr.readSamples now turn buffer
      result.2.1 ≤ buffer.length ∧ result.2.2.length = buffer.length ∧
        result.2.2.drop result.2.1 = buffer.drop result.2.1 := by
  intro s given
  have hnumbered : Numbered s :=
    run_preserves (fun _ call h => h.step call) (numbered_opened config created) calls
  refine ⟨hnumbered.counter, hnumbered.ids, fun hgiven => ?_, fun now turn buffer => ?_⟩
  · have hrange : ((List.range given).map UInt64.ofNat).Pairwise (· < ·) := by
      rw [List.pairwise_map]
      refine List.pairwise_lt_range.imp_of_mem fun {a b} ha hb hlt => ?_
      rw [List.mem_range] at ha hb
      rw [UInt64.lt_iff_toNat_lt, UInt64.toNat_ofNat_of_lt', UInt64.toNat_ofNat_of_lt']
      · exact hlt
      all_goals exact lt_of_lt_of_le ‹_› hgiven
    exact List.pairwise_map.mp (hrange.sublist hnumbered.ids)
  · cases henabled : s.sdr.enabled with
    | true =>
      have hread := s.sdr.read_readSamples henabled now turn buffer
      exact ⟨hread.count, hread.length, hread.kept⟩
    | false =>
      rw [s.sdr.readSamples_disabled henabled]
      exact ⟨Nat.zero_le _, rfl, rfl⟩

end Session

end

end GroundCore.SdrSim
