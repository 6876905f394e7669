import Mathlib.Algebra.Order.Field.Basic
import Mathlib.Data.Nat.Cast.Order.Field
import Mathlib.Tactic.Linarith
import Mathlib.Tactic.NormNum
import GroundCore.Core.Types
import GroundCore.Lib.HashMap
import GroundCore.Lib.Run
import GroundCore.Oisl.Types

/-! The filters and the switches of the receiving chain: what is selected, after any calls.
Floating-point numbers are read as the elements of an ordered field. -/

namespace GroundCore.RfFrontEnd

open Lib

abbrev FilterId := Oisl.Uuid

inductive FilterType
  | bandpass
  | lowpass
  | highpass
  | notch
  deriving DecidableEq, Repr

structure FilterSpec (K : Type) where
  id : FilterId
  filterType : FilterType
  centerFrequency : ℕ
  bandwidth : ℕ
  insertionLoss : K
  vswr : K
  tunable : Bool
  minFrequency : Option ℕ
  maxFrequency : Option ℕ

/-! ### Banks of filters -/

structure FilterBank (K : Type) where
  enabled : Bool
  currentFilter : Option FilterId
  filters : HashMap FilterId (FilterSpec K)

variable {K : Type}

namespace FilterBank

def new : FilterBank K := ⟨false, none, ∅⟩

/-- What `enable`, `disable` and `set_state` do. -/
def setEnabled (b : FilterBank K) (enabled : Bool) : FilterBank K := { b with enabled }

def selectFilter (b : FilterBank K) (filterId : FilterId) : FilterBank K × Result Unit :=
  if !b.enabled then (b, .error (.hardware "Filter bank disabled"))
  else if (b.filters.get? filterId).isNone then
    (b, .error (.notFound s!"Filter {filterId.hyphenated}"))
  else ({ b with currentFilter := some filterId }, .ok ())

def getCurrentFilter (b : FilterBank K) : Result (FilterSpec K) := do
  let filterId ← b.currentFilter.elim (.error (.hardware "No filter selected")) .ok
  (b.filters.get? filterId).elim (.error (.notFound s!"Filter {filterId.hyphenated}")) .ok

/-- The selected filter is found as by `getCurrentFilter`.  Whether the bank is enabled plays no
part. -/
def tuneFilter (b : FilterBank K) (frequency : ℕ) : Result Unit := do
  let filter ← b.getCurrentFilter
  if !filter.tunable then .error (.hardware "Filter is not tunable")
  else if filter.minFrequency.any (frequency < ·) then
    .error (.validation "Frequency below minimum")
  else if filter.maxFrequency.any (· < frequency) then
    .error (.validation "Frequency above maximum")
  else .ok ()

def addFilter (b : FilterBank K) (filter : FilterSpec K) : FilterBank K :=
  { b with filters := b.filters.insert filter.id filter }

def removeFilter (b : FilterBank K) (filterId : FilterId) : FilterBank K :=
  { b with
    filters := b.filters.erase filterId
    currentFilter := if b.currentFilter = some filterId then none else b.currentFilter }

end FilterBank

inductive FilterCall (K : Type)
  | setEnabled (enabled : Bool)
  | select (filterId : FilterId)
  | add (filter : FilterSpec K)
  | remove (filterId : FilterId)

namespace FilterBank

def step (b : FilterBank K) : FilterCall K → FilterBank K
  | .setEnabled enabled => b.setEnabled enabled
  | .select filterId => (b.selectFilter filterId).1
  | .add filter => b.addFilter filter
  | .remove filterId => b.removeFilter filterId

/-- The selected filter is in the bank, and every filter is under its own id. -/
structure Coherent (b : FilterBank K) : Prop where
  selected : ∀ id, b.currentFilter = some id → ∃ filter, b.filters.get? id = some filter
  keyed : ∀ id filter, b.filters.get? id = some filter → filter.id = id

theorem selectFilter_cases (b : FilterBank K) (filterId : FilterId) :
    (b.selectFilter filterId).1 = b ∨ ∃ filter, b.filters.get? filterId = some filter ∧
      (b.selectFilter filterId).1 = { b with currentFilter := some filterId } := by
  unfold selectFilter
  cases hget : b.filters.get? filterId with
  | none => split <;> exact .inl rfl
  | some filter =>
    split
    · exact .inl rfl
    · exact .inr ⟨filter, rfl, rfl⟩

theorem Coherent.step {b : FilterBank K} (h : Coherent b) (call : FilterCall K) :
    Coherent (b.step call) := by
  cases call with
  | setEnabled enabled => exact ⟨h.selected, h.keyed⟩
  | select filterId =>
    show Coherent (b.selectFilter filterId).1
    rcases selectFilter_cases b filterId with heq | ⟨filter, hget, heq⟩
    · rw [heq]
      exact h
    · rw [heq]
      refine ⟨fun id hid => ?_, h.keyed⟩
      obtain rfl : filterId = id := Option.some.inj hid
      exact ⟨filter, hget⟩
  | add filter =>
    refine ⟨fun id hid => ?_, fun id filter' hget => ?_⟩
    · obtain ⟨filter', hget⟩ := h.selected id hid
      show ∃ _, (b.filters.insert filter.id filter).get? id = some _
      rw [HashMap.get?_insert]
      split
      · exact ⟨filter, rfl⟩
      · exact ⟨filter', hget⟩
    · change (b.filters.insert filter.id filter).get? id = some filter' at hget
      rw [HashMap.get?_insert] at hget
      split at hget
      · next heq => rw [heq, Option.some.inj hget]
      · exact h.keyed id filter' hget
  | remove filterId =>
    refine ⟨fun id hid => ?_, fun id filter' hget => ?_⟩
    · change (if b.currentFilter = some filterId then none else b.currentFilter) = some id at hid
      split at hid
      · contradiction
      · next hne =>
        obtain ⟨filter', hget⟩ := h.selected id hid
        have hother : id ≠ filterId := fun heq => hne (heq ▸ hid)
        refine ⟨filter', ?_⟩
        show (b.filters.erase filterId).get? id = _
        rw [HashMap.get?_erase, if_neg hother, hget]
    · change (b.filters.erase filterId).get? id = some filter' at hget
      rw [HashMap.get?_erase] at hget
      split at hget
      · contradiction
      · exact h.keyed id filter' hget

/-- A frequency that a filter can be tuned to. -/
def Tunes (filter : FilterSpec K) (frequency : ℕ) : Prop :=
  filter.tunable = true ∧ (∀ low ∈ filter.minFrequency, low ≤ frequency) ∧
    ∀ high ∈ filter.maxFrequency, frequency ≤ high

theorem tune_eq_ok_iff (filter : FilterSpec K) (frequency : ℕ) :
    (if !filter.tunable then .error (.hardware "Filter is not tunable")
      else if filter.minFrequency.any (frequency < ·) then
        .error (.validation "Frequency below minimum")
      else if filter.maxFrequency.any (· < frequency) then
        .error (.validation "Frequency above maximum")
      else .ok () : Result Unit) = .ok () ↔ Tunes filter frequency := by
  unfold Tunes
  cases filter.tunable with
  | false => simp
  | true =>
    have hlow : (filter.minFrequency.any (frequency < ·) = true) ↔
        ¬ ∀ low ∈ filter.minFrequency, low ≤ frequency := by
      simp [Option.any_eq_true]
    have hhigh : (filter.maxFrequency.any (· < frequency) = true) ↔
        ¬ ∀ high ∈ filter.maxFrequency, frequency ≤ high := by
      simp [Option.any_eq_true]
    simp only [Bool.not_true, Bool.false_eq_true, if_false, hlow, hhigh, ite_not, true_and]
    split
    · next h =>
      split
      · next h' => exact iff_of_true rfl ⟨h, h'⟩
      · next h' => exact iff_of_false nofun fun hboth => h' hboth.2
    · next h => exact iff_of_false nofun fun hboth => h hboth.1

/-- After any calls, the selected filter is one of the bank under its own id, and it can be tuned to
the frequencies of its range and to no others, whether the bank is enabled or not.  When none is
selected, the calls say so; they never miss a filter. -/
theorem current_of_run (calls : List (FilterCall K)) :
    let b := run step (new : FilterBank K) calls
    match b.currentFilter with
    | none => b.getCurrentFilter = .error (.hardware "No filter selected") ∧
        ∀ frequency, b.tuneFilter frequency = .error (.hardware "No filter selected")
    | some id => ∃ filter, filter.id = id ∧ b.getCurrentFilter = .ok filter ∧
        ∀ frequency, b.tuneFilter frequency = .ok () ↔ Tunes filter frequency := by
  intro b
  have hnew : Coherent (new : FilterBank K) :=
    ⟨nofun, fun id filter hget => by simp [new] at hget⟩
  have hcoherent : Coherent b := run_preserves (fun _ call h => h.step call) hnew calls
  cases hcurrent : b.currentFilter with
  | none =>
    have hmissing : b.getCurrentFilter = .error (.hardware "No filter selected") := by
      rw [getCurrentFilter, hcurrent]
      rfl
    exact ⟨hmissing, fun frequency => by rw [tuneFilter, hmissing]; rfl⟩
  | some id =>
    obtain ⟨filter, hget⟩ := hcoherent.selected id hcurrent
    have hfound : b.getCurrentFilter = .ok filter := by
      rw [getCurrentFilter, hcurrent]
      show (b.filters.get? id).elim _ _ = _
      rw [hget]
      rfl
    refine ⟨filter, hcoherent.keyed id filter hget, hfound, fun frequency => ?_⟩
    rw [tuneFilter, hfound]
    exact tune_eq_ok_iff filter frequency

end FilterBank

/-! ### Tuned filters -/

structure YigTunedFilter (K : Type) where
  enabled : Bool
  currentFrequency : ℕ
  minFrequency : ℕ
  maxFrequency : ℕ
  tuningVoltage : K

section Yig

variable [Field K]

namespace YigTunedFilter

def new (minFrequency maxFrequency : ℕ) : YigTunedFilter K :=
  ⟨false, minFrequency, minFrequency, maxFrequency, 0⟩

def setEnabled (f : YigTunedFilter K) (enabled : Bool) : YigTunedFilter K := { f with enabled }

def tuneFilter (f : YigTunedFilter K) (frequency : ℕ) : YigTunedFilter K × Result Unit :=
  if !f.enabled then (f, .error (.hardware "Filter disabled"))
  else if frequency < f.minFrequency ∨ f.maxFrequency < frequency then
    (f, .error (.validation
      s!"Frequency {frequency} out of range [{f.minFrequency}, {f.maxFrequency}]"))
  else
    let voltage := ((frequency - f.minFrequency : ℕ) : K) /
      ((f.maxFrequency - f.minFrequency : ℕ) : K) * 10.0
    ({ f with currentFrequency := frequency, tuningVoltage := voltage }, .ok ())

inductive Call
  | setEnabled (enabled : Bool)
  | tune (frequency : ℕ)

def step (f : YigTunedFilter K) : Call → YigTunedFilter K
  | .setEnabled enabled => f.setEnabled enabled
  | .tune frequency => (f.tuneFilter frequency).1

/-- The last frequency in range that was asked for while the filter was enabled. -/
def lastTuned (low high : ℕ) (enabled : Bool) (frequency : ℕ) : List Call → ℕ
  | [] => frequency
  | .setEnabled enabled :: calls => lastTuned low high enabled frequency calls
  | .tune asked :: calls =>
    lastTuned low high enabled
      (if enabled = true ∧ low ≤ asked ∧ asked ≤ high then asked else frequency) calls

variable [LinearOrder K] [IsStrictOrderedRing K]

/-- The voltage is that of the frequency, which is in range. -/
structure Tuned (low high : ℕ) (f : YigTunedFilter K) : Prop where
  minFrequency : f.minFrequency = low
  maxFrequency : f.maxFrequency = high
  le : low ≤ f.currentFrequency
  ge : f.currentFrequency ≤ high
  voltage : f.tuningVoltage =
    ((f.currentFrequency - low : ℕ) : K) / ((high - low : ℕ) : K) * 10.0

omit [LinearOrder K] [IsStrictOrderedRing K] in
theorem tuned_run {low high : ℕ} {f : YigTunedFilter K} (h : Tuned low high f) (calls : List Call) :
    Tuned low high (run step f calls) ∧ (run step f calls).currentFrequency =
      lastTuned low high f.enabled f.currentFrequency calls := by
  induction calls generalizing f with
  | nil => exact ⟨h, rfl⟩
  | cons call calls ih =>
    cases call with
    | setEnabled enabled =>
      exact ih (f := f.setEnabled enabled)
        ⟨h.minFrequency, h.maxFrequency, h.le, h.ge, h.voltage⟩
    | tune asked =>
      rw [run_cons, lastTuned]
      by_cases haccepted : f.enabled = true ∧ low ≤ asked ∧ asked ≤ high
      · obtain ⟨henabled, hlow, hhigh⟩ := haccepted
        have hrange : ¬ (asked < f.minFrequency ∨ f.maxFrequency < asked) := by
          rw [h.minFrequency, h.maxFrequency]
          omega
        have htuned : f.step (.tune asked) =
            { f with
              currentFrequency := asked
              tuningVoltage := ((asked - low : ℕ) : K) / ((high - low : ℕ) : K) * 10.0 } := by
          have hon : ¬ ((!f.enabled) = true) := by simp [henabled]
          show (f.tuneFilter asked).1 = _
          rw [tuneFilter, if_neg hon, if_neg hrange, h.minFrequency, h.maxFrequency]
        rw [htuned, if_pos ⟨henabled, hlow, hhigh⟩]
        exact ih ⟨h.minFrequency, h.maxFrequency, hlow, hhigh, rfl⟩
      · have hrefused : f.step (.tune asked) = f := by
          simp only [step, tuneFilter]
          split
          · rfl
          · next henabled =>
            rw [if_pos]
            rw [h.minFrequency, h.maxFrequency]
            by_contra hrange
            exact haccepted ⟨by simpa using henabled, by omega, by omega⟩
        rw [hrefused, if_neg haccepted]
        exact ih h

/-- After any calls a filter with a range is at the last frequency that it was tuned to, and its
voltage is the share of ten volts that the frequency has in the range. -/
theorem voltage_of_run {low high : ℕ} (hrange : low < high) (calls : List Call) :
    let f := run step (new low high : YigTunedFilter K) calls
    f.currentFrequency = lastTuned low high false low calls ∧
      low ≤ f.currentFrequency ∧ f.currentFrequency ≤ high ∧
      f.tuningVoltage * (high - low) = (f.currentFrequency - low) * 10.0 ∧
      0 ≤ f.tuningVoltage ∧ f.tuningVoltage ≤ 10.0 := by
  intro f
  have hnew : Tuned low high (new low high : YigTunedFilter K) :=
    ⟨rfl, rfl, le_refl _, hrange.le, by simp [new]⟩
  obtain ⟨h, hlast⟩ := tuned_run hnew calls
  have hspan : (0 : K) < high - low := sub_pos.mpr (Nat.cast_lt.mpr hrange)
  have hcast : f.tuningVoltage = ((f.currentFrequency : K) - low) / (high - low) * 10.0 := by
    rw [h.voltage, Nat.cast_sub h.le, Nat.cast_sub hrange.le]
  have hbelow : (0 : K) ≤ f.currentFrequency - low := sub_nonneg.mpr (Nat.cast_le.mpr h.le)
  have habove : (f.currentFrequency : K) - low ≤ high - low :=
    sub_le_sub_right (Nat.cast_le.mpr h.ge) _
  have hshare : ((f.currentFrequency : K) - low) / (high - low) ≤ 1 :=
    (div_le_one hspan).mpr habove
  have hshare' : 0 ≤ ((f.currentFrequency : K) - low) / (high - low) :=
    div_nonneg hbelow hspan.le
  have hten : (0 : K) < 10.0 := by norm_num
  refine ⟨hlast, h.le, h.ge, ?_, ?_, ?_⟩
  · rw [hcast, mul_right_comm, div_mul_cancel₀ _ hspan.ne']
  · rw [hcast]
    exact mul_nonneg hshare' hten.le
  · rw [hcast]
    exact mul_le_of_le_one_left hten.le hshare

/-- A filter from two to six hertz, tuned to three and then beyond its range. -/
theorem voltage_of_three :
    let f := run step (new 2 6 : YigTunedFilter ℚ) [.setEnabled true, .tune 3, .tune 9]
    f.currentFrequency = 3 ∧ 2 ≤ f.currentFrequency ∧ f.currentFrequency ≤ 6 ∧
      f.tuningVoltage * ((6 : ℕ) - (2 : ℕ)) = (f.currentFrequency - (2 : ℕ)) * 10.0 ∧
      0 ≤ f.tuningVoltage ∧ f.tuningVoltage ≤ 10.0 :=
  voltage_of_run (show 2 < 6 by decide) [.setEnabled true, .tune 3, .tune 9]

end YigTunedFilter

end Yig

/-! ### Switches -/

inductive SwitchPosition
  | position1
  | position2
  | position3
  | position4
  | position5
  | position6
  deriving DecidableEq, Repr

inductive SwitchState
  | opened
  | closed
  deriving DecidableEq, Repr

inductive SwitchType
  | antenna
  | transmitReceive
  | polarization
  | band
  deriving DecidableEq, Repr

structure GenericRfSwitch where
  switchType : SwitchType
  enabled : Bool
  currentPosition : SwitchPosition
  availablePositions : List SwitchPosition
  switchStates : List SwitchState

namespace GenericRfSwitch

/-- The switch starts at the first position; `none` is the panic when there is none. -/
def new (switchType : SwitchType) (availablePositions : List SwitchPosition) (numSwitches : ℕ) :
    Option GenericRfSwitch := do
  let currentPosition ← availablePositions.head?
  return { switchType, enabled := false, currentPosition, availablePositions
           switchStates := List.replicate numSwitches .opened }

def setEnabled (s : GenericRfSwitch) (enabled : Bool) : GenericRfSwitch := { s with enabled }

def setPosition (s : GenericRfSwitch) (position : SwitchPosition) :
    GenericRfSwitch × Result Unit :=
  if !s.enabled then (s, .error (.hardware "Switch disabled"))
  else if position ∉ s.availablePositions then
    (s, .error (.validation "Invalid switch position"))
  else ({ s with currentPosition := position }, .ok ())

def setSwitchState (s : GenericRfSwitch) (switchIndex : ℕ) (state : SwitchState) :
    GenericRfSwitch × Result Unit :=
  if !s.enabled then (s, .error (.hardware "Switch disabled"))
  else if s.switchStates.length ≤ switchIndex then
    (s, .error (.validation "Invalid switch index"))
  else ({ s with switchStates := s.switchStates.set switchIndex state }, .ok ())

def getSwitchState (s : GenericRfSwitch) (switchIndex : ℕ) : Result SwitchState :=
  s.switchStates[switchIndex]?.elim (.error (.validation "Invalid switch index")) .ok

inductive Call
  | setEnabled (enabled : Bool)
  | setPosition (position : SwitchPosition)
  | setSwitchState (switchIndex : ℕ) (state : SwitchState)

def step (s : GenericRfSwitch) : Call → GenericRfSwitch
  | .setEnabled enabled => s.setEnabled enabled
  | .setPosition position => (s.setPosition position).1
  | .setSwitchState switchIndex state => (s.setSwitchState switchIndex state).1

/-- What a switch is for: a way that is kept until another one that there is is chosen while the
switch is enabled. -/
def chosen (ways : List SwitchPosition) (enabled : Bool) (way : SwitchPosition) :
    List Call → SwitchPosition
  | [] => way
  | .setEnabled enabled :: calls => chosen ways enabled way calls
  | .setPosition position :: calls =>
    chosen ways enabled (if enabled = true ∧ position ∈ ways then position else way) calls
  | .setSwitchState _ _ :: calls => chosen ways enabled way calls

theorem setPosition_fst (s : GenericRfSwitch) (position : SwitchPosition) :
    (s.setPosition position).1 = { s with
      currentPosition := if s.enabled = true ∧ position ∈ s.availablePositions then position
        else s.currentPosition } := by
  obtain ⟨switchType, enabled, currentPosition, availablePositions, switchStates⟩ := s
  unfold setPosition
  cases enabled with
  | false => rfl
  | true =>
    by_cases hmem : position ∈ availablePositions
    · simp [hmem]
    · simp [hmem]

theorem setSwitchState_fst (s : GenericRfSwitch) (switchIndex : ℕ) (state : SwitchState) :
    ∃ switchStates, switchStates.length = s.switchStates.length ∧
      (s.setSwitchState switchIndex state).1 = { s with switchStates } := by
  unfold setSwitchState
  split
  · exact ⟨s.switchStates, rfl, rfl⟩
  · split
    · exact ⟨s.switchStates, rfl, rfl⟩
    · exact ⟨_, List.length_set, rfl⟩

theorem run_spec (s : GenericRfSwitch) (calls : List Call) :
    (run step s calls).availablePositions = s.availablePositions ∧
      (run step s calls).switchStates.length = s.switchStates.length ∧
      (run step s calls).currentPosition =
        chosen s.availablePositions s.enabled s.currentPosition calls := by
  induction calls generalizing s with
  | nil => exact ⟨rfl, rfl, rfl⟩
  | cons call calls ih =>
    cases call with
    | setEnabled enabled => exact ih (s.setEnabled enabled)
    | setPosition position =>
      have h := ih (s.setPosition position).1
      rw [run_cons, step, setPosition_fst]
      rwa [setPosition_fst] at h
    | setSwitchState switchIndex state =>
      obtain ⟨switchStates, hlength, heq⟩ := setSwitchState_fst s switchIndex state
      have h := ih (s.setSwitchState switchIndex state).1
      rw [heq] at h
      rw [run_cons, step, heq]
      exact ⟨h.1, h.2.1.trans hlength, h.2.2⟩

theorem chosen_mem {ways : List SwitchPosition} {enabled : Bool} {way : SwitchPosition}
    (h : way ∈ ways) (calls : List Call) : chosen ways enabled way calls ∈ ways := by
  induction calls generalizing enabled way with
  | nil => exact h
  | cons call calls ih =>
    cases call with
    | setEnabled enabled => exact ih h
    | setSwitchState switchIndex state => exact ih h
    | setPosition position =>
      rw [chosen]
      split
      · next haccepted => exact ih haccepted.2
      · exact ih h

end GenericRfSwitch

/-- The transmit and receive switch. -/
structure TransmitReceiveSwitch where
  inner : GenericRfSwitch

namespace TransmitReceiveSwitch

open GenericRfSwitch

def new : TransmitReceiveSwitch :=
  ⟨{ switchType := .transmitReceive, enabled := false, currentPosition := .position1
     availablePositions := [.position1, .position2], switchStates := [.opened, .opened] }⟩

example : GenericRfSwitch.new .transmitReceive [.position1, .position2] 2 = some new.inner := rfl

def isTransmit (s : TransmitReceiveSwitch) : Bool := s.inner.currentPosition == .position1

def isReceive (s : TransmitReceiveSwitch) : Bool := s.inner.currentPosition == .position2

/-- `switch_to_transmit` and `switch_to_receive` set a position; every other call goes to the inner
switch as well. -/
def step (s : TransmitReceiveSwitch) (call : Call) : TransmitReceiveSwitch :=
  ⟨s.inner.step call⟩

def switchToTransmit : Call := .setPosition .position1

def switchToReceive : Call := .setPosition .position2

theorem inner_run (s : TransmitReceiveSwitch) (calls : List Call) :
    (run step s calls).inner = run GenericRfSwitch.step s.inner calls := by
  induction calls generalizing s with
  | nil => rfl
  | cons call calls ih => exact ih _

/-- After any calls the switch either transmits or receives, whichever was chosen last while it was
enabled, and transmits if neither was. -/
theorem direction_of_run (calls : List Call) :
    let s := run step new calls
    s.isReceive = !s.isTransmit ∧
      (s.isTransmit = true ↔
        chosen [.position1, .position2] false .position1 calls = .position1) ∧
      ∀ i, (∃ state, s.inner.getSwitchState i = .ok state) ↔ i < 2 := by
  intro s
  obtain ⟨-, hlength, hposition⟩ := run_spec new.inner calls
  rw [← inner_run] at hlength hposition
  have hmem : chosen [.position1, .position2] false .position1 calls ∈
      [SwitchPosition.position1, .position2] := chosen_mem (by decide) calls
  have hcurrent : s.inner.currentPosition =
      chosen [.position1, .position2] false .position1 calls := hposition
  refine ⟨?_, ?_, fun i => ?_⟩
  · rw [← hcurrent] at hmem
    unfold isReceive isTransmit
    rcases List.mem_pair.mp hmem with h | h
    · rw [h]
      rfl
    · rw [h]
      rfl
  · rw [isTransmit, beq_iff_eq, hcurrent]
  · have hstates : s.inner.switchStates.length = 2 := hlength
    rw [← hstates]
    unfold GenericRfSwitch.getSwitchState
    cases hget : s.inner.switchStates[i]? with
    | none => simpa using hget
    | some state =>
      obtain ⟨hlt, -⟩ := List.getElem?_eq_some_iff.mp hget
      exact iff_of_true ⟨state, rfl⟩ hlt

end TransmitReceiveSwitch

end GroundCore.RfFrontEnd
