import Mathlib.Analysis.SpecialFunctions.Pow.Real
import Mathlib.Analysis.SpecialFunctions.Trigonometric.Basic
import GroundCore.Lib.Run

/-! The generator of simulated signals.  Floating-point numbers are read as real numbers.  The
length of a symbol is counted in samples but compared with a time in seconds, so a symbol lasts as
many seconds as it should last samples. -/

namespace GroundCore.SdrSim

open Real Lib

noncomputable section

inductive SignalType
  | sineWave
  | fsk (baudRate : ℕ)
  | qpsk (symbolRate : ℕ)
  | iridiumBurst
  | nbIotNtn

inductive NoiseModel
  | awgn (snrDb : ℝ)
  | rayleighFading (dopplerHz : ℝ)
  | ricianFading (kFactorDb dopplerHz : ℝ)
  | none

structure SignalGenerator where
  signalType : SignalType
  noiseModel : NoiseModel
  carrierFrequency : ℕ
  sampleRate : ℕ
  phase : ℝ
  time : ℝ

/-- The two random numbers that white noise takes for a sample. -/
structure NoiseDraw where
  i : ℝ
  q : ℝ

/-- The remainder of a division that is rounded toward zero. -/
def fmod (x y : ℝ) : ℝ := x - y * (if 0 ≤ x / y then (⌊x / y⌋ : ℝ) else ⌈x / y⌉)

/-- A cast to `u32`, which saturates. -/
def asU32 (x : ℝ) : ℕ := min ⌊x⌋₊ 4294967295

namespace SignalGenerator

def new (signalType : SignalType) (noiseModel : NoiseModel) (carrierFrequency sampleRate : ℕ) :
    SignalGenerator :=
  { signalType, noiseModel, carrierFrequency, sampleRate, phase := 0, time := 0 }

/-- The phase of the carrier after one more sample, and the carrier there. -/
def advancePhase (g : SignalGenerator) (angularFreq : ℝ) : SignalGenerator × ℝ × ℝ :=
  let phase := fmod (g.phase + angularFreq / g.sampleRate) (2.0 * π)
  ({ g with phase }, cos phase, sin phase)

/-- The number of the symbol that is sent at the present time. -/
def symbolIndex (g : SignalGenerator) (symbolRate : ℕ) : ℕ :=
  let symbolDuration := (g.sampleRate : ℝ) / symbolRate
  asU32 (g.time / symbolDuration)

def generateSine (g : SignalGenerator) : SignalGenerator × ℝ × ℝ :=
  g.advancePhase (2.0 * π * g.carrierFrequency)

def generateFsk (g : SignalGenerator) (baudRate : ℕ) : SignalGenerator × ℝ × ℝ :=
  let freqOffset := if g.symbolIndex baudRate % 2 = 0 then 1000.0 else -1000.0
  g.advancePhase (2.0 * π * (g.carrierFrequency + freqOffset))

def constellation : ℕ → ℝ × ℝ
  | 0 => (1, 1)
  | 1 => (-1, 1)
  | 2 => (-1, -1)
  | _ => (1, -1)

def generateQpsk (g : SignalGenerator) (symbolRate : ℕ) : SignalGenerator × ℝ × ℝ :=
  let (iBase, qBase) := constellation (g.symbolIndex symbolRate % 4)
  let (g, carrierI, carrierQ) := g.advancePhase (2.0 * π * g.carrierFrequency)
  (g, iBase * carrierI, qBase * carrierQ)

/-- Outside of its burst the signal is silent, and its carrier stands still. -/
def generateIridium (g : SignalGenerator) : SignalGenerator × ℝ × ℝ :=
  let burstDuration := 0.090
  let cycleTime := 0.090 * 4.0
  let cyclePosition := fmod g.time cycleTime
  if cyclePosition < burstDuration then g.generateQpsk 24000 else (g, 0, 0)

def generateNbiot (g : SignalGenerator) : SignalGenerator × ℝ × ℝ := g.generateSine

def applyAwgn (draw : NoiseDraw) (i q snrDb : ℝ) : ℝ × ℝ :=
  let signalPower := √(i * i + q * q)
  let snrLinear := (10.0 : ℝ) ^ (snrDb / 10.0)
  let noisePower := signalPower / snrLinear
  let noiseStd := √noisePower
  (i + (draw.i * noiseStd * 2.0 - noiseStd), q + (draw.q * noiseStd * 2.0 - noiseStd))

def applyRayleigh (g : SignalGenerator) (i q dopplerHz : ℝ) : ℝ × ℝ :=
  let dt := 1 / (g.sampleRate : ℝ)
  let fadingRate := dopplerHz * dt
  let fade := sin (g.time * fadingRate * 2.0 * π) * 0.5 + 0.5
  (i * fade, q * fade)

def applyRician (g : SignalGenerator) (i q kFactorDb dopplerHz : ℝ) : ℝ × ℝ :=
  let dt := 1 / (g.sampleRate : ℝ)
  let fadingRate := dopplerHz * dt
  let kFactor := (10.0 : ℝ) ^ (kFactorDb / 10.0)
  let scattered := sin (g.time * fadingRate * 2.0 * π) * 0.5 + 0.5
  let fade := (1 + kFactor * scattered) / (1 + kFactor)
  (i * fade, q * fade)

def applyNoise (g : SignalGenerator) (draw : NoiseDraw) (i q : ℝ) : ℝ × ℝ :=
  match g.noiseModel with
  | .awgn snrDb => applyAwgn draw i q snrDb
  | .rayleighFading dopplerHz => g.applyRayleigh i q dopplerHz
  | .ricianFading kFactorDb dopplerHz => g.applyRician i q kFactorDb dopplerHz
  | .none => (i, q)

/-- The signal of the generator's type at the present time. -/
def generate (g : SignalGenerator) : SignalGenerator × ℝ × ℝ :=
  match g.signalType with
  | .sineWave => g.generateSine
  | .fsk baudRate => g.generateFsk baudRate
  | .qpsk symbolRate => g.generateQpsk symbolRate
  | .iridiumBurst => g.generateIridium
  | .nbIotNtn => g.generateNbiot

def nextSample (g : SignalGenerator) (draw : NoiseDraw) : SignalGenerator × ℝ × ℝ :=
  let dt := 1 / (g.sampleRate : ℝ)
  let (g, i, q) := { g with time := g.time + dt }.generate
  (g, g.applyNoise draw i q)

/-- The samples that are generated with the given noise. -/
def samples (g : SignalGenerator) : List NoiseDraw → List (ℝ × ℝ)
  | [] => []
  | draw :: draws => (g.nextSample draw).2 :: samples (g.nextSample draw).1 draws

def step (g : SignalGenerator) (draw : NoiseDraw) : SignalGenerator := (g.nextSample draw).1

/-! ### The length of a symbol -/

/-- The generators differ in the phase of their carriers and in their times at most. -/
structure SameSettings (g g' : SignalGenerator) : Prop where
  signalType : g'.signalType = g.signalType
  noiseModel : g'.noiseModel = g.noiseModel
  carrierFrequency : g'.carrierFrequency = g.carrierFrequency
  sampleRate : g'.sampleRate = g.sampleRate

/-- A signal moves the phase of the carrier only. -/
theorem generate_fst (g : SignalGenerator) : ∃ phase, g.generate.1 = { g with phase } := by
  have hadvance : ∀ angularFreq, ∃ phase, (g.advancePhase angularFreq).1 = { g with phase } :=
    fun _ => ⟨_, rfl⟩
  unfold generate
  split
  · exact hadvance _
  · exact hadvance _
  · exact hadvance _
  · unfold generateIridium
    dsimp only
    split
    · exact hadvance _
    · exact ⟨g.phase, rfl⟩
  · exact hadvance _

theorem step_spec (g : SignalGenerator) (draw : NoiseDraw) :
    SameSettings g (g.step draw) ∧ (g.step draw).time = g.time + 1 / g.sampleRate := by
  obtain ⟨phase, hphase⟩ :=
    generate_fst { g with time := g.time + 1 / (g.sampleRate : ℝ) }
  have hstep : g.step draw = { g with time := g.time + 1 / (g.sampleRate : ℝ), phase } := hphase
  rw [hstep]
  exact ⟨⟨rfl, rfl, rfl, rfl⟩, rfl⟩

theorem run_spec (g : SignalGenerator) (draws : List NoiseDraw) :
    SameSettings g (run step g draws) ∧
      (run step g draws).time = g.time + draws.length / g.sampleRate := by
  induction draws generalizing g with
  | nil => exact ⟨⟨rfl, rfl, rfl, rfl⟩, by simp⟩
  | cons draw draws ih =>
    obtain ⟨hsettings, htime⟩ := step_spec g draw
    obtain ⟨hrest, hrestTime⟩ := ih (g.step draw)
    refine ⟨⟨hrest.1.trans hsettings.1, hrest.2.trans hsettings.2, hrest.3.trans hsettings.3,
      hrest.4.trans hsettings.4⟩, ?_⟩
    rw [run_cons, hrestTime, htime, hsettings.sampleRate, List.length_cons]
    push_cast
    ring

/-- The symbol number at the time of the `n`-th sample. -/
theorem symbolIndex_of_time {g : SignalGenerator} {n : ℕ} (htime : g.time = n / g.sampleRate)
    (symbolRate : ℕ) :
    g.symbolIndex symbolRate = asU32 (n * symbolRate / (g.sampleRate : ℝ) ^ 2) := by
  unfold symbolIndex
  dsimp only
  congr 1
  rw [htime, div_div_eq_mul_div, div_mul_eq_mul_div, div_div, sq]

theorem asU32_eq_zero {x : ℝ} (h : x < 1) : asU32 x = 0 := by
  rw [asU32, Nat.floor_eq_zero.mpr h, Nat.zero_min]

/-! ### Signals without modulation -/

/-- The second generator sends as its bare carrier what the first one sends as its first symbol. -/
structure Carries (symbolRate : ℕ) (g bare : SignalGenerator) : Prop where
  noiseModel : bare.noiseModel = g.noiseModel
  sampleRate : bare.sampleRate = g.sampleRate
  phase : bare.phase = g.phase
  time : bare.time = g.time
  sineWave : bare.signalType = .sineWave
  carrier : g.signalType = .fsk symbolRate ∧ bare.carrierFrequency = g.carrierFrequency + 1000 ∨
    g.signalType = .qpsk symbolRate ∧ bare.carrierFrequency = g.carrierFrequency

variable {symbolRate : ℕ} {g bare : SignalGenerator}

theorem Carries.advancePhase (h : Carries symbolRate g bare) (angularFreq : ℝ) :
    Carries symbolRate (g.advancePhase angularFreq).1 (bare.advancePhase angularFreq).1 ∧
      (bare.advancePhase angularFreq).2 = (g.advancePhase angularFreq).2 := by
  have hphase : fmod (bare.phase + angularFreq / bare.sampleRate) (2.0 * π) =
      fmod (g.phase + angularFreq / g.sampleRate) (2.0 * π) := by
    rw [h.phase, h.sampleRate]
  refine ⟨⟨h.noiseModel, h.sampleRate, hphase, h.time, h.sineWave, h.carrier⟩, ?_⟩
  show (cos (fmod (bare.phase + angularFreq / bare.sampleRate) (2.0 * π)), sin _) = _
  rw [hphase]
  rfl

/-- In the first symbol the two generate the same. -/
theorem Carries.generate (h : Carries symbolRate g bare) (hfirst : g.symbolIndex symbolRate = 0) :
    Carries symbolRate g.generate.1 bare.generate.1 ∧ bare.generate.2 = g.generate.2 := by
  have hbare : bare.generate = bare.advancePhase (2.0 * π * bare.carrierFrequency) := by
    unfold SignalGenerator.generate
    rw [h.sineWave]
    rfl
  rcases h.carrier with ⟨hfsk, hcarrier⟩ | ⟨hqpsk, hcarrier⟩
  · have hg : g.generate = g.advancePhase (2.0 * π * bare.carrierFrequency) := by
      unfold SignalGenerator.generate
      rw [hfsk, hcarrier]
      dsimp only
      unfold generateFsk
      rw [hfirst]
      norm_num
    rw [hbare, hg]
    exact h.advancePhase _
  · have hg : g.generate = g.advancePhase (2.0 * π * bare.carrierFrequency) := by
      unfold SignalGenerator.generate
      rw [hqpsk, hcarrier]
      dsimp only
      unfold generateQpsk
      rw [hfirst]
      simp [constellation]
    rw [hbare, hg]
    exact h.advancePhase _

theorem Carries.applyNoise (h : Carries symbolRate g bare) (draw : NoiseDraw) (i q : ℝ) :
    bare.applyNoise draw i q = g.applyNoise draw i q := by
  unfold SignalGenerator.applyNoise applyRayleigh applyRician
  rw [h.noiseModel, h.sampleRate, h.time]

theorem Carries.nextSample (h : Carries symbolRate g bare) (draw : NoiseDraw)
    (hfirst : SignalGenerator.symbolIndex { g with time := g.time + 1 / (g.sampleRate : ℝ) }
      symbolRate = 0) :
    Carries symbolRate (g.nextSample draw).1 (bare.nextSample draw).1 ∧
      (bare.nextSample draw).2 = (g.nextSample draw).2 := by
  have hlater : Carries symbolRate { g with time := g.time + 1 / (g.sampleRate : ℝ) }
      { bare with time := bare.time + 1 / (bare.sampleRate : ℝ) } :=
    ⟨h.noiseModel, h.sampleRate, h.phase, by rw [h.time, h.sampleRate], h.sineWave, h.carrier⟩
  obtain ⟨hcarries, hsignal⟩ := hlater.generate hfirst
  refine ⟨hcarries, ?_⟩
  refine (hcarries.applyNoise draw _ _).trans ?_
  exact congrArg (fun s => SignalGenerator.applyNoise _ draw s.1 s.2) hsignal

/-- As long as the first symbol lasts, the two generate the same samples. -/
theorem Carries.samples {n : ℕ} (h : Carries symbolRate g bare) (hrate : 0 < g.sampleRate)
    (htime : g.time = n / g.sampleRate) (draws : List NoiseDraw)
    (hfirst : (n + draws.length) * symbolRate < g.sampleRate ^ 2) :
    SignalGenerator.samples bare draws = SignalGenerator.samples g draws := by
  induction draws generalizing g bare n with
  | nil => rfl
  | cons draw draws ih =>
    have hnext : g.time + 1 / (g.sampleRate : ℝ) = (n + 1 : ℕ) / g.sampleRate := by
      rw [htime]
      push_cast
      ring
    have hindex : SignalGenerator.symbolIndex
        { g with time := g.time + 1 / (g.sampleRate : ℝ) } symbolRate = 0 := by
      rw [symbolIndex_of_time (n := n + 1) hnext]
      apply asU32_eq_zero
      have hlt : (n + 1) * symbolRate < g.sampleRate ^ 2 := by
        refine lt_of_le_of_lt (Nat.mul_le_mul_right _ ?_) hfirst
        simp
      have hpos : (0 : ℝ) < (g.sampleRate : ℝ) ^ 2 := by positivity
      rw [div_lt_one hpos]
      exact_mod_cast hlt
    obtain ⟨hcarries, hsample⟩ := h.nextSample draw hindex
    obtain ⟨hsettings, hstep⟩ := step_spec g draw
    rw [SignalGenerator.samples, SignalGenerator.samples, hsample]
    congr 1
    apply ih (n := n + 1) hcarries
    · exact hsettings.sampleRate ▸ hrate
    · exact (hstep.trans hnext).trans (by rw [← hsettings.sampleRate]; rfl)
    · show _ < (g.step draw).sampleRate ^ 2
      rw [hsettings.sampleRate]
      rw [List.length_cons] at hfirst
      calc (n + 1 + draws.length) * symbolRate = (n + (draws.length + 1)) * symbolRate := by ring
        _ < g.sampleRate ^ 2 := hfirst

/-- After any number of samples the symbol number is that number over the square of the sample rate,
times the symbol rate.  Up to the end of the first symbol, keyed signals are bare carriers: with any
noise, the samples of FSK are those of a sine wave that is 1000 Hz higher, and those of QPSK are
those of a sine wave. -/
theorem unmodulated_of_samples {sampleRate : ℕ} (hrate : 0 < sampleRate) (noiseModel : NoiseModel)
    (carrierFrequency symbolRate : ℕ) (draws : List NoiseDraw) :
    let signal := fun signalType carrier => new signalType noiseModel carrier sampleRate
    let keyed := [SignalType.fsk symbolRate, .qpsk symbolRate]
    (∀ signalType ∈ keyed,
      (run step (signal signalType carrierFrequency) draws).symbolIndex symbolRate =
        asU32 (draws.length * symbolRate / (sampleRate : ℝ) ^ 2)) ∧
    (draws.length * symbolRate < sampleRate ^ 2 →
      samples (signal (.fsk symbolRate) carrierFrequency) draws =
        samples (signal .sineWave (carrierFrequency + 1000)) draws ∧
      samples (signal (.qpsk symbolRate) carrierFrequency) draws =
        samples (signal .sineWave carrierFrequency) draws) := by
  intro signal keyed
  refine ⟨fun signalType _ => ?_, fun hfirst => ⟨?_, ?_⟩⟩
  · obtain ⟨hsettings, htime⟩ := run_spec (signal signalType carrierFrequency) draws
    have hsampleRate : (run step (signal signalType carrierFrequency) draws).sampleRate =
        sampleRate := hsettings.sampleRate
    rw [← hsampleRate]
    apply symbolIndex_of_time
    rw [htime, hsampleRate]
    exact zero_add _
  · have hcarries : Carries symbolRate (signal (.fsk symbolRate) carrierFrequency)
        (signal .sineWave (carrierFrequency + 1000)) :=
      ⟨rfl, rfl, rfl, rfl, rfl, .inl ⟨rfl, rfl⟩⟩
    refine (hcarries.samples (n := 0) hrate ?_ draws ?_).symm
    · simp [signal, new]
    · rw [zero_add]
      exact hfirst
  · have hcarries : Carries symbolRate (signal (.qpsk symbolRate) carrierFrequency)
        (signal .sineWave carrierFrequency) :=
      ⟨rfl, rfl, rfl, rfl, rfl, .inr ⟨rfl, rfl⟩⟩
    refine (hcarries.samples (n := 0) hrate ?_ draws ?_).symm
    · simp [signal, new]
    · rw [zero_add]
      exact hfirst

/-- At 2 MHz, nineteen symbols of FSK at 9600 baud and more are a bare carrier. -/
theorem unmodulated_narrowband :
    samples (new (.fsk 9600) (.awgn 20.0) 1600000000 2000000) (List.replicate 4000 ⟨0.25, 0.75⟩) =
      samples (new .sineWave (.awgn 20.0) 1600001000 2000000)
        (List.replicate 4000 ⟨0.25, 0.75⟩) := by
  have hfirst : (List.replicate 4000 (⟨0.25, 0.75⟩ : NoiseDraw)).length * 9600 < 2000000 ^ 2 := by
    rw [List.length_replicate]
    norm_num
  exact ((unmodulated_of_samples (by norm_num) (.awgn 20.0) 1600000000 9600 _).2 hfirst).1

end SignalGenerator

end

end GroundCore.SdrSim
