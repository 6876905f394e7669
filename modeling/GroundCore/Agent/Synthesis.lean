import GroundCore.Core.Types
import GroundCore.Lib.Buffer
import GroundCore.Lib.NanFloat
import GroundCore.Lib.SecondaryIndex

/-! The synthesis of alerts from weak signals.  The synthesizer buffers the signals, of which it
drops the oldest when there are too many, and turns them into one alert for each component that
has enough of them. -/

namespace GroundCore.Agent

open Lib FloatOps Buffer

inductive SignalType (F64 : Type)
  | statisticalAnomaly (zScore : F64)
  | changePoint
  | autocorrelationBreak
  | rateAnomaly
  | patternDeviation

structure WeakSignal (F64 : Type) where
  signalId : String
  detectedAt : DateTime
  signalType : SignalType F64
  component : String
  strength : F64
  rawValue : F64
  expectedValue : F64

inductive AlertSeverity
  | low
  | medium
  | high
  | critical
  deriving DecidableEq, Repr

structure EvidenceChain where
  historicalPatterns : List String
  correlatedEvents : List String
  similarIncidents : List String
  deriving DecidableEq, Repr

structure AnomalyAlert (F64 : Type) where
  alertId : String
  generatedAt : DateTime
  severity : AlertSeverity
  title : String
  explanation : String
  signals : List (WeakSignal F64)
  recommendations : List String
  evidence : EvidenceChain

structure AnomalySynthesizer (F64 : Type) where
  signalBuffer : List (WeakSignal F64)
  maxBufferSize : ℕ
  synthesisIntervalSec : UInt64
  lastSynthesis : Option DateTime
  droppedSignals : ℕ

/-- What a synthesis takes from outside: the readings of the clock, the random ids of the alerts,
the order in which the components are visited, and how a number is printed with two decimals. -/
structure SynthesisInputs (F64 : Type) where
  now : DateTime
  generatedAt : String → DateTime
  alertId : String → String
  order : IterOrder (String × List (WeakSignal F64))
  display : F64 → String

variable {F64 F32 : Type}

namespace AnomalySynthesizer

def withCapacity (synthesisIntervalSec : UInt64) (maxBufferSize : ℕ) : AnomalySynthesizer F64 :=
  ⟨[], maxBufferSize, synthesisIntervalSec, none, 0⟩

def maxSignalBuffer : ℕ := 4096

def new (synthesisIntervalSec : UInt64) : AnomalySynthesizer F64 :=
  withCapacity synthesisIntervalSec maxSignalBuffer

def addSignal (s : AnomalySynthesizer F64) (signal : WeakSignal F64) : AnomalySynthesizer F64 :=
  let s :=
    if s.maxBufferSize ≤ s.signalBuffer.length then
      { s with signalBuffer := s.signalBuffer.drop 1, droppedSignals := s.droppedSignals + 1 }
    else s
  { s with signalBuffer := s.signalBuffer ++ [signal] }

/-- Whether the interval has passed since the last synthesis, in whole seconds toward zero. -/
def shouldSynthesize (s : AnomalySynthesizer F64) (now : DateTime) : Bool :=
  match s.lastSynthesis with
  | some last => s.synthesisIntervalSec.toInt64.toInt ≤ Duration.numSeconds (now - last)
  | none => true

def inferPattern (signals : List (WeakSignal F64)) : String :=
  let hasStatistical := signals.any fun s =>
    match s.signalType with
    | .statisticalAnomaly _ => true
    | _ => false
  let hasChangePoint := signals.any fun s =>
    match s.signalType with
    | .changePoint => true
    | _ => false
  if hasChangePoint then "sudden state change"
  else if hasStatistical then "statistical deviation from baseline"
  else "multi-factor anomaly"

variable [MaxOps F64 F32]

def generateRecommendations (signals : List (WeakSignal F64)) : List String :=
  let recommendations := signals.filterMap fun signal =>
    match signal.signalType with
    | .statisticalAnomaly zScore =>
      if lt (lit 4) zScore then
        some s!"Investigate {signal.component} - extreme statistical anomaly detected"
      else none
    | .changePoint =>
      some s!"Check {signal.component} configuration - change point detected"
    | _ => none
  if recommendations.isEmpty then ["Monitor for further signals"] else recommendations

def maxStrength (signals : List (WeakSignal F64)) : F64 :=
  (signals.map fun s => FloatOps.abs s.strength).foldl MaxOps.max (lit 0)

def severityOf (maxStrength : F64) : AlertSeverity :=
  if lt (lit 5) maxStrength then .critical
  else if lt (lit 3) maxStrength then .high
  else if lt (lit 2) maxStrength then .medium
  else .low

def synthesizeComponentAlert (inputs : SynthesisInputs F64) (component : String)
    (signals : List (WeakSignal F64)) : AnomalyAlert F64 :=
  { alertId := inputs.alertId component
    generatedAt := inputs.generatedAt component
    severity := severityOf (maxStrength signals)
    title := s!"Anomaly detected in {component}"
    explanation := s!"Detected {signals.length} weak signals from {component} with " ++
      s!"maximum strength {inputs.display (maxStrength signals)}. " ++
      s!"Pattern suggests {inferPattern signals}."
    signals
    recommendations := generateRecommendations signals
    evidence := ⟨[], [], []⟩ }

def synthesize (s : AnomalySynthesizer F64) (inputs : SynthesisInputs F64) :
    AnomalySynthesizer F64 × List (AnomalyAlert F64) :=
  let byComponent : HashMap String (List (WeakSignal F64)) :=
    s.signalBuffer.foldl (fun byComponent signal =>
      byComponent.insert signal.component
        ((byComponent.get? signal.component).getD [] ++ [signal])) ∅
  let alerts := (inputs.order.order byComponent.entries).filterMap fun entry =>
    if 3 ≤ entry.2.length then some (synthesizeComponentAlert inputs entry.1 entry.2) else none
  ({ s with lastSynthesis := some inputs.now, signalBuffer := [] }, alerts)

end AnomalySynthesizer

/-! ### The alerts of a window of signals -/

namespace AlertSeverity

def rank : AlertSeverity → ℕ
  | low => 0
  | medium => 1
  | high => 2
  | critical => 3

/-- The strength above which a signal gives an alert this severity or a higher one. -/
def bound? : AlertSeverity → Option ℚ
  | low => none
  | medium => some 2
  | high => some 3
  | critical => some 5

end AlertSeverity

section Alerts

variable [MaxOps F64 F32]

/-- The alert of a component lists the signals of it in the window, in order, and is as severe as
the strongest of them. -/
structure AlertFor (window : List (WeakSignal F64)) (component : String)
    (alert : AnomalyAlert F64) : Prop where
  title : alert.title = s!"Anomaly detected in {component}"
  signals : alert.signals = window.filter fun s => s.component = component
  severity : ∀ level bound, AlertSeverity.bound? level = some bound →
    (level.rank ≤ alert.severity.rank ↔
      ∃ s ∈ window, s.component = component ∧ lt (lit bound) (FloatOps.abs s.strength) = true)
  recommends : alert.recommendations ≠ []

/-- There is one alert for each component with at least three signals in the window. -/
def AlertsFor (window : List (WeakSignal F64)) (alerts : List (AnomalyAlert F64)) : Prop :=
  ∃ components : List String, components.Nodup ∧
    (∀ c, c ∈ components ↔ 3 ≤ (window.filter fun s => s.component = c).length) ∧
      List.Forall₂ (AlertFor window) components alerts

namespace AnomalySynthesizer

theorem generateRecommendations_ne_nil (signals : List (WeakSignal F64)) :
    generateRecommendations signals ≠ [] := by
  unfold generateRecommendations
  extract_lets recommendations
  split
  · simp
  · next h => exact fun hnil => h (by rw [hnil]; rfl)

theorem rank_le_severityOf_iff [OrderedMax F64 F32] (x : F64) (level : AlertSeverity) (bound : ℚ)
    (hbound : level.bound? = some bound) :
    level.rank ≤ (severityOf x).rank ↔ lt (lit bound) x = true := by
  have hfive : lt (lit 5) x = true → lt (lit 3) x = true :=
    OrderedMax.lt_lit_of_le (by norm_num)
  have hthree : lt (lit 3) x = true → lt (lit 2) x = true :=
    OrderedMax.lt_lit_of_le (by norm_num)
  unfold severityOf
  cases level with
  | low => contradiction
  | medium =>
    obtain rfl := Option.some.inj hbound
    split_ifs with h5 h3 h2
    · simpa [AlertSeverity.rank] using hthree (hfive h5)
    · simpa [AlertSeverity.rank] using hthree h3
    · simpa [AlertSeverity.rank] using h2
    · simpa [AlertSeverity.rank] using h2
  | high =>
    obtain rfl := Option.some.inj hbound
    split_ifs with h5 h3 h2
    · simpa [AlertSeverity.rank] using hfive h5
    · simpa [AlertSeverity.rank] using h3
    · simpa [AlertSeverity.rank] using h3
    · simpa [AlertSeverity.rank] using h3
  | critical =>
    obtain rfl := Option.some.inj hbound
    split_ifs with h5 h3 h2 <;> simpa [AlertSeverity.rank] using h5

theorem synthesizeComponentAlert_spec [OrderedMax F64 F32] (inputs : SynthesisInputs F64)
    (window : List (WeakSignal F64)) (component : String) :
    AlertFor window component (synthesizeComponentAlert inputs component
      (window.filter fun s => s.component = component)) where
  title := rfl
  signals := rfl
  severity level bound hbound := by
    have hpos : (0 : ℚ) ≤ bound := by
      cases level <;> simp [AlertSeverity.bound?] at hbound <;> linarith
    rw [synthesizeComponentAlert, rank_le_severityOf_iff _ level bound hbound, maxStrength,
      OrderedMax.lit_lt_foldl_max_iff hpos]
    simp [and_assoc]
  recommends := generateRecommendations_ne_nil _

/-- The signals by component, each list in the order of the buffer. -/
theorem indexes_byComponent (signals : List (WeakSignal F64)) :
    Indexes (signals.foldl (fun byComponent signal =>
      byComponent.insert signal.component
        ((byComponent.get? signal.component).getD [] ++ [signal])) ∅)
      (fun s => some s.component) id signals := by
  induction signals using List.reverseRecOn with
  | nil => exact Indexes.empty
  | append_singleton signals signal ih =>
    rw [List.foldl_append]
    exact ih.append signal

theorem synthesize_alertsFor [OrderedMax F64 F32] (s : AnomalySynthesizer F64)
    (inputs : SynthesisInputs F64) : AlertsFor s.signalBuffer (s.synthesize inputs).2 := by
  have hindex := indexes_byComponent s.signalBuffer
  unfold synthesize
  extract_lets byComponent alerts
  have hids : ∀ c, byComponent.ids c = s.signalBuffer.filter fun signal => signal.component = c := by
    intro c
    have := hindex c
    simpa using this
  let large := (inputs.order.order byComponent.entries).filter fun entry => 3 ≤ entry.2.length
  have hentry : ∀ entry ∈ inputs.order.order byComponent.entries,
      entry.2 = s.signalBuffer.filter fun signal => signal.component = entry.1 := by
    intro entry hmem
    have hget := HashMap.mem_entries.mp ((IterOrder.mem_order _).mp hmem)
    rw [← hids, HashMap.ids, hget, Option.getD_some]
  have halerts : alerts = (large.map Prod.fst).map fun c => synthesizeComponentAlert inputs c
      (s.signalBuffer.filter fun signal => signal.component = c) := by
    rw [List.map_map]
    show (inputs.order.order byComponent.entries).filterMap _ =
      ((inputs.order.order byComponent.entries).filter _).map _
    rw [← List.filterMap_eq_map, List.filterMap_filter]
    refine List.filterMap_congr fun entry hmem => ?_
    simp only [Function.comp_apply, ← hentry entry hmem]
    simp
  have hkeys : ((inputs.order.order byComponent.entries).map Prod.fst).Nodup :=
    ((inputs.order.perm _).map Prod.fst).nodup_iff.mpr byComponent.nodup_keys
  refine ⟨large.map Prod.fst, hkeys.sublist (List.filter_sublist.map _), fun c => ?_, ?_⟩
  · rw [← hids, List.mem_map]
    constructor
    · rintro ⟨entry, hlarge, rfl⟩
      obtain ⟨hmem, hthree⟩ := List.mem_filter.mp hlarge
      rw [hids, ← hentry entry hmem]
      simpa using hthree
    · intro hthree
      cases hget : byComponent.get? c with
      | none => simp [HashMap.ids, hget] at hthree
      | some signals =>
        rw [HashMap.ids, hget, Option.getD_some] at hthree
        have hmem : (c, signals) ∈ inputs.order.order byComponent.entries :=
          (IterOrder.mem_order _).mpr (HashMap.mem_entries.mpr hget)
        exact ⟨(c, signals), List.mem_filter.mpr ⟨hmem, by simpa using hthree⟩, rfl⟩
  · rw [halerts, List.forall₂_map_right_iff]
    exact List.forall₂_same.mpr fun c _ => synthesizeComponentAlert_spec inputs s.signalBuffer c

end AnomalySynthesizer

end Alerts

/-! ### Runs -/

inductive SynthesizerCall (F64 : Type)
  | addSignal (signal : WeakSignal F64)
  | synthesize (inputs : SynthesisInputs F64)

/-- What the call does with the buffer. -/
def SynthesizerCall.onBuffer : SynthesizerCall F64 → Buffer.Call (WeakSignal F64)
  | addSignal signal => .add signal
  | synthesize _ => .empty

/-- The synthesizer, with the signals that each synthesis found in the buffer and the alerts that
it made of them. -/
structure SynthesisSession (F64 : Type) where
  synthesizer : AnomalySynthesizer F64
  consumed : List (List (WeakSignal F64))
  alerts : List (List (AnomalyAlert F64))

namespace SynthesisSession

def new (synthesisIntervalSec : UInt64) (capacity : ℕ) : SynthesisSession F64 :=
  ⟨.withCapacity synthesisIntervalSec capacity, [], []⟩

variable [MaxOps F64 F32]

def step (s : SynthesisSession F64) : SynthesizerCall F64 → SynthesisSession F64
  | .addSignal signal => { s with synthesizer := s.synthesizer.addSignal signal }
  | .synthesize inputs =>
    let (synthesizer, alerts) := s.synthesizer.synthesize inputs
    { synthesizer, consumed := s.consumed ++ [s.synthesizer.signalBuffer],
      alerts := s.alerts ++ [alerts] }

variable {s : SynthesisSession F64} {held : List (WeakSignal F64)}

/-- The buffer of a synthesizer that has room for a signal holds the last of those that were added
since the last synthesis. -/
structure Holds (s : SynthesisSession F64) (held : List (WeakSignal F64)) : Prop where
  room : 0 < s.synthesizer.maxBufferSize
  buffer : s.synthesizer.signalBuffer = held.rtake s.synthesizer.maxBufferSize

theorem step_maxBufferSize (s : SynthesisSession F64) (call : SynthesizerCall F64) :
    (s.step call).synthesizer.maxBufferSize = s.synthesizer.maxBufferSize := by
  cases call with
  | addSignal signal =>
    unfold step AnomalySynthesizer.addSignal
    by_cases hfull : s.synthesizer.maxBufferSize ≤ s.synthesizer.signalBuffer.length <;>
      simp [hfull]
  | synthesize inputs => rfl

theorem Holds.addSignal (h : Holds s held) (signal : WeakSignal F64) :
    Holds (s.step (.addSignal signal)) (held ++ [signal]) := by
  obtain ⟨hroom, hbuffer⟩ := h
  refine ⟨by rwa [step_maxBufferSize], ?_⟩
  rw [step_maxBufferSize]
  unfold step AnomalySynthesizer.addSignal
  by_cases hfull : s.synthesizer.maxBufferSize ≤ s.synthesizer.signalBuffer.length
  · simp only [hfull, if_true]
    rw [hbuffer] at hfull
    rw [rtake_append_singleton_of_full hroom hfull, hbuffer]
  · simp only [hfull, if_false]
    rw [hbuffer, not_le] at hfull
    rw [rtake_append_singleton_of_room hfull, hbuffer]

theorem Holds.synthesize (h : Holds s held) (inputs : SynthesisInputs F64) :
    Holds (s.step (.synthesize inputs)) [] := ⟨h.room, by simp [step, AnomalySynthesizer.synthesize]⟩

/-- Each synthesis finds the last of the signals that were added since the one before it. -/
theorem Holds.consumed_run (h : Holds s held) (calls : List (SynthesizerCall F64)) :
    (run step s calls).consumed = s.consumed ++
      (batches held (calls.map (·.onBuffer))).map (·.rtake s.synthesizer.maxBufferSize) := by
  induction calls generalizing s held with
  | nil => simp [batches]
  | cons call calls ih =>
    cases call with
    | addSignal signal =>
      rw [run_cons, ih (h.addSignal signal), step_maxBufferSize]
      rfl
    | synthesize inputs =>
      rw [run_cons, ih (h.synthesize inputs), step_maxBufferSize]
      simp [step, SynthesizerCall.onBuffer, batches, h.buffer]

/-- Whatever the buffer holds, a synthesis makes the alerts of it. -/
theorem alertsFor_run [OrderedMax F64 F32] (interval : UInt64) (capacity : ℕ)
    (calls : List (SynthesizerCall F64)) :
    List.Forall₂ AlertsFor (run step (new interval capacity) calls).consumed
      (run step (new interval capacity) calls).alerts := by
  refine run_preserves (I := fun s : SynthesisSession F64 => List.Forall₂ AlertsFor s.consumed s.alerts)
    (fun s call h => ?_) .nil calls
  cases call with
  | addSignal signal => exact h
  | synthesize inputs =>
    exact List.rel_append h (.cons (s.synthesizer.synthesize_alertsFor inputs) .nil)

/-- In every run, each synthesis makes one alert for each component that has three of the last
signals added since the synthesis before, and the alert lists them in order. -/
theorem alerts_of_run [OrderedMax F64 F32] (interval : UInt64) {capacity : ℕ} (hroom : 0 < capacity)
    (calls : List (SynthesizerCall F64)) :
    List.Forall₂ AlertsFor ((batches [] (calls.map (·.onBuffer))).map (·.rtake capacity))
      (run step (new interval capacity) calls).alerts := by
  have hholds : Holds (new interval capacity : SynthesisSession F64) [] := ⟨hroom, by
    simp [new, AnomalySynthesizer.withCapacity]⟩
  have hconsumed := hholds.consumed_run calls
  have hwindows : (run step (new interval capacity) calls).consumed =
      (batches [] (calls.map (·.onBuffer))).map (·.rtake capacity) := hconsumed
  rw [← hwindows]
  exact alertsFor_run interval capacity calls

section Example

def weak (component : String) (strength : ℚ) : WeakSignal ℚ :=
  { signalId := "", detectedAt := 0, signalType := .rateAnomaly, component, strength,
    rawValue := 0, expectedValue := 0 }

def byStorage : SynthesisInputs ℚ :=
  { now := 0, generatedAt := fun _ => 0, alertId := id, order := .stored _, display := fun _ => "" }

/-- The strongest signal is dropped before the synthesis. -/
def overflowing : List (SynthesizerCall ℚ) :=
  [.addSignal (weak "lna" 9), .addSignal (weak "lna" 1), .addSignal (weak "lna" (-4)),
    .addSignal (weak "lna" 2), .synthesize byStorage]

theorem alerts_of_overflowing :
    letI := MaxOps.exact id id 0
    List.Forall₂ AlertsFor [[weak "lna" 1, weak "lna" (-4), weak "lna" 2]]
      (run step (new 60 3) overflowing).alerts ∧
    (run step (new 60 3) overflowing).alerts.map (·.map (·.severity)) = [[.high]] := by
  let _ := MaxOps.exact id id 0
  have _ := OrderedMax.exact id id 0
  exact ⟨alerts_of_run 60 (show 0 < 3 by decide) overflowing, by decide +kernel⟩

end Example

/-- What the synthesizer accounts for: the signals that it dropped, those that a synthesis found and
those that it still holds. -/
def accounted (s : SynthesisSession F64) : ℕ :=
  s.synthesizer.droppedSignals + s.consumed.flatten.length + s.synthesizer.signalBuffer.length

/-- A full buffer that is empty has nothing to drop, and counts a signal as dropped all the same. -/
theorem accounted_addSignal (s : SynthesisSession F64) (signal : WeakSignal F64) :
    (s.step (.addSignal signal)).accounted = s.accounted +
      if s.synthesizer.maxBufferSize = 0 ∧ s.synthesizer.signalBuffer = [] then 2 else 1 := by
  unfold accounted step AnomalySynthesizer.addSignal
  cases hbuffer : s.synthesizer.signalBuffer with
  | nil =>
    by_cases hzero : s.synthesizer.maxBufferSize = 0
    · simp [hzero]
      omega
    · simp [hzero, hbuffer]
  | cons first rest =>
    by_cases hfull : s.synthesizer.maxBufferSize ≤ rest.length + 1
    · simp [hfull]
      omega
    · simp [hfull, hbuffer]
      omega

theorem accounted_synthesize (s : SynthesisSession F64) (inputs : SynthesisInputs F64) :
    (s.step (.synthesize inputs)).accounted = s.accounted := by
  simp [accounted, step, AnomalySynthesizer.synthesize, Nat.add_assoc]

theorem accounted_run {calls : List (SynthesizerCall F64)}
    (h : 0 < s.synthesizer.maxBufferSize ∨ added (calls.map (·.onBuffer)) = []) :
    (run step s calls).accounted =
      s.accounted + (added (calls.map (·.onBuffer))).length := by
  induction calls generalizing s with
  | nil => rfl
  | cons call calls ih =>
    cases call with
    | addSignal signal =>
      obtain hroom | hadded := h
      · rw [run_cons, ih (.inl (by rwa [step_maxBufferSize])), accounted_addSignal,
          if_neg (by omega)]
        simp only [List.map_cons, SynthesizerCall.onBuffer, added, List.length_cons]
        omega
      · exact absurd hadded (List.cons_ne_nil _ _)
    | synthesize inputs =>
      rw [run_cons, ih (s := s.step (.synthesize inputs)) h, accounted_synthesize]
      rfl

theorem le_accounted_run (s : SynthesisSession F64) (calls : List (SynthesizerCall F64)) :
    s.accounted + (added (calls.map (·.onBuffer))).length ≤ (run step s calls).accounted := by
  induction calls generalizing s with
  | nil => exact le_refl _
  | cons call calls ih =>
    refine le_trans ?_ (ih (s.step call))
    cases call with
    | addSignal signal =>
      rw [accounted_addSignal]
      simp only [List.map_cons, SynthesizerCall.onBuffer, added, List.length_cons]
      split <;> omega
    | synthesize inputs =>
      rw [accounted_synthesize]
      exact le_refl _

/-- Without room, the first signal is counted twice. -/
theorem lt_accounted_run (hzero : s.synthesizer.maxBufferSize = 0)
    (hempty : s.synthesizer.signalBuffer = []) {calls : List (SynthesizerCall F64)}
    (hadded : added (calls.map (·.onBuffer)) ≠ []) :
    s.accounted + (added (calls.map (·.onBuffer))).length < (run step s calls).accounted := by
  induction calls generalizing s with
  | nil => exact absurd rfl hadded
  | cons call calls ih =>
    cases call with
    | addSignal signal =>
      refine lt_of_lt_of_le ?_ (le_accounted_run (s.step (.addSignal signal)) calls)
      rw [accounted_addSignal, if_pos ⟨hzero, hempty⟩]
      simp only [List.map_cons, SynthesizerCall.onBuffer, added, List.length_cons]
      omega
    | synthesize inputs =>
      have := ih (s := s.step (.synthesize inputs)) hzero rfl hadded
      rwa [accounted_synthesize] at this

/-- The signals added are those dropped, those that a synthesis found and those still held, exactly
when the buffer has room for one or none is added. -/
theorem accounted_iff (interval : UInt64) (capacity : ℕ) (calls : List (SynthesizerCall F64)) :
    (run step (new interval capacity) calls).accounted =
        (added (calls.map (·.onBuffer))).length ↔
      0 < capacity ∨ added (calls.map (·.onBuffer)) = [] := by
  have hnew : (new interval capacity : SynthesisSession F64).accounted = 0 := rfl
  constructor
  · intro heq
    by_contra hnot
    rw [not_or, Nat.pos_iff_ne_zero, not_not] at hnot
    obtain ⟨rfl, hadded⟩ := hnot
    have hlt := lt_accounted_run (s := (new interval 0 : SynthesisSession F64)) rfl rfl hadded
    omega
  · intro h
    rw [accounted_run h, hnew, Nat.zero_add]

end SynthesisSession

end GroundCore.Agent
