import GroundCore.Lib.BTreeMap
import GroundCore.Lib.Run
import GroundCore.Oisl.Types

/-! Acquisitions that two terminals start at an agreed instant.  They are stored under this instant,
so a second acquisition for the same instant takes the place of the first.  What the clock shows is
an input of each call. -/

namespace GroundCore.Oisl.Pat

open Lib

abbrev AcquisitionId := Uuid

structure PrecisionTimestamp where
  seconds : ℤ
  nanoseconds : ℕ
  deriving DecidableEq

structure ClockConfidence where
  uncertaintyNs : ℕ

structure ScheduledAcquisition where
  acquisitionId : AcquisitionId
  pair : TerminalId × TerminalId
  targetT0 : DateTime
  deriving DecidableEq

inductive PatEventType
  | scheduled
  | cancelled

structure PatEvent where
  eventType : PatEventType
  eventTime : PrecisionTimestamp
  observedAt : PrecisionTimestamp
  spread : Duration
  terminalId : TerminalId
  peerTerminal : TerminalId

inductive PatError
  | clockDegraded (uncertaintyNs : ℕ)
  | invalidTiming (message : String)

structure PatCoordinator where
  patSchedules : BTreeMap DateTime ScheduledAcquisition
  eventLog : List PatEvent

namespace PrecisionTimestamp

def fromDatetime (dt : DateTime) : PrecisionTimestamp :=
  { seconds := dt / 1000000000, nanoseconds := (dt % 1000000000).toNat }

/-- `fromTimestamp` gives the time that the seconds and nanoseconds stand for, if it is in the range
of times, and `utcNow` is the system's time. -/
def toDatetime (fromTimestamp : ℤ → ℕ → Option DateTime) (p : PrecisionTimestamp)
    (utcNow : DateTime) : DateTime :=
  (fromTimestamp p.seconds p.nanoseconds).getD utcNow

end PrecisionTimestamp

def ClockConfidence.isDegraded (c : ClockConfidence) : Bool := decide (c.uncertaintyNs > 100000)

/-- What a call reads of the clock, once for the decision and once for the log. -/
structure ClockReading where
  now : PrecisionTimestamp
  utcNow : DateTime
  observedAt : PrecisionTimestamp

namespace PatCoordinator

variable (fromTimestamp : ℤ → ℕ → Option DateTime)

def new : PatCoordinator := { patSchedules := ∅, eventLog := [] }

def logEvent (c : PatCoordinator) (event : PatEvent) : PatCoordinator :=
  { c with eventLog := c.eventLog ++ [event] }

def scheduleAcquisition (c : PatCoordinator) (acquisition : ScheduledAcquisition)
    (confidence : ClockConfidence) (clock : ClockReading) :
    PatCoordinator × Except PatError Unit :=
  if confidence.isDegraded then (c, .error (.clockDegraded confidence.uncertaintyNs))
  else
    let now := clock.now.toDatetime fromTimestamp clock.utcNow
    if acquisition.targetT0 ≤ now then
      (c, .error (.invalidTiming "Acquisition time must be in the future"))
    else
      let c := c.logEvent
        { eventType := .scheduled
          eventTime := .fromDatetime acquisition.targetT0
          observedAt := clock.observedAt
          spread := acquisition.targetT0 - now
          terminalId := acquisition.pair.1
          peerTerminal := acquisition.pair.2 }
      ({ c with patSchedules := c.patSchedules.insert acquisition.targetT0 acquisition }, .ok ())

def getPendingAcquisitions (c : PatCoordinator) (now : PrecisionTimestamp) (utcNow : DateTime) :
    List ScheduledAcquisition :=
  (c.patSchedules.rangeFrom (now.toDatetime fromTimestamp utcNow)).map Prod.snd

/-- The event names two terminals with new identifiers. -/
def cancelAcquisition (c : PatCoordinator) (acquisitionId : AcquisitionId)
    (eventTime observedAt : PrecisionTimestamp) (terminalId peerTerminal : TerminalId) :
    PatCoordinator × Except PatError Unit :=
  let c :=
    { c with
      patSchedules :=
        c.patSchedules.retain fun _ acq => decide (acq.acquisitionId ≠ acquisitionId) }
  (c.logEvent
    { eventType := .cancelled, eventTime, observedAt, spread := 0, terminalId, peerTerminal },
    .ok ())

end PatCoordinator

/-! ### Runs, with the acquisitions that are neither lost nor cancelled -/

inductive PatCall
  | schedule (acquisition : ScheduledAcquisition) (confidence : ClockConfidence)
      (clock : ClockReading)
  | cancel (acquisitionId : AcquisitionId) (eventTime observedAt : PrecisionTimestamp)
      (terminalId peerTerminal : TerminalId)

/-- The coordinator, and what was scheduled successfully and not cancelled since. -/
structure PatSession where
  coordinator : PatCoordinator
  live : List ScheduledAcquisition

variable {fromTimestamp : ℤ → ℕ → Option DateTime}

namespace PatSession

def new : PatSession := { coordinator := .new, live := [] }

def step (fromTimestamp : ℤ → ℕ → Option DateTime) (s : PatSession) : PatCall → PatSession
  | .schedule acquisition confidence clock =>
    let (coordinator, result) :=
      s.coordinator.scheduleAcquisition fromTimestamp acquisition confidence clock
    { coordinator
      live := match result with
        | .ok _ => s.live ++ [acquisition]
        | .error _ => s.live }
  | .cancel acquisitionId eventTime observedAt terminalId peerTerminal =>
    { coordinator :=
        (s.coordinator.cancelAcquisition acquisitionId eventTime observedAt terminalId
          peerTerminal).1
      live := s.live.filter fun acq => decide (acq.acquisitionId ≠ acquisitionId) }

/-- An acquisition is scheduled: the clock is good and the start is in the future. -/
def Accepts (fromTimestamp : ℤ → ℕ → Option DateTime) (acquisition : ScheduledAcquisition)
    (confidence : ClockConfidence) (clock : ClockReading) : Prop :=
  confidence.isDegraded = false ∧
    clock.now.toDatetime fromTimestamp clock.utcNow < acquisition.targetT0

/-- Every live acquisition that does not start before the clock's time is pending exactly once,
whatever the clock shows. -/
def NoneLost (fromTimestamp : ℤ → ℕ → Option DateTime) (s : PatSession) : Prop :=
  ∀ now utcNow, ∀ acq ∈ s.live, now.toDatetime fromTimestamp utcNow ≤ acq.targetT0 →
    (s.coordinator.getPendingAcquisitions fromTimestamp now utcNow).count acq = 1

/-- A scheduled acquisition has an identifier that no live one has. -/
def FreshId (fromTimestamp : ℤ → ℕ → Option DateTime) (s : PatSession) : PatCall → Prop
  | .schedule acquisition confidence clock =>
    Accepts fromTimestamp acquisition confidence clock →
      ∀ acq ∈ s.live, acq.acquisitionId ≠ acquisition.acquisitionId
  | .cancel .. => True

/-- A scheduled acquisition starts when no live one does. -/
def FreshStart (fromTimestamp : ℤ → ℕ → Option DateTime) (s : PatSession) : PatCall → Prop
  | .schedule acquisition confidence clock =>
    Accepts fromTimestamp acquisition confidence clock →
      ∀ acq ∈ s.live, acq.targetT0 ≠ acquisition.targetT0
  | .cancel .. => True

instance (acquisition : ScheduledAcquisition) (confidence : ClockConfidence)
    (clock : ClockReading) : Decidable (Accepts fromTimestamp acquisition confidence clock) :=
  inferInstanceAs (Decidable (_ ∧ _))

instance (s : PatSession) : (c : PatCall) → Decidable (FreshId fromTimestamp s c)
  | .schedule acquisition confidence clock =>
    inferInstanceAs (Decidable (Accepts fromTimestamp acquisition confidence clock → _))
  | .cancel .. => isTrue trivial

instance (s : PatSession) : (c : PatCall) → Decidable (FreshStart fromTimestamp s c)
  | .schedule acquisition confidence clock =>
    inferInstanceAs (Decidable (Accepts fromTimestamp acquisition confidence clock → _))
  | .cancel .. => isTrue trivial

/-- What every call keeps: an acquisition is stored under its start, and only while it is live. -/
structure Kept (s : PatSession) : Prop where
  keyed : ∀ e ∈ s.coordinator.patSchedules.entries, e.1 = e.2.targetT0
  live : ∀ e ∈ s.coordinator.patSchedules.entries, e.2 ∈ s.live

theorem kept_new : Kept new := by
  constructor <;> exact fun e he => absurd he List.not_mem_nil

variable {s : PatSession}

theorem Kept.count_pending (h : Kept s) (now : PrecisionTimestamp) (utcNow : DateTime)
    (acq : ScheduledAcquisition) :
    (s.coordinator.getPendingAcquisitions fromTimestamp now utcNow).count acq = 1 ↔
      (acq.targetT0, acq) ∈ s.coordinator.patSchedules.entries ∧
        now.toDatetime fromTimestamp utcNow ≤ acq.targetT0 := by
  unfold PatCoordinator.getPendingAcquisitions
  rw [(BTreeMap.nodup_map_rangeFrom h.keyed _).count, ite_eq_left_iff, not_imp_comm,
    imp_iff_right (by decide), List.mem_map]
  constructor
  · rintro ⟨⟨start, acq⟩, he, rfl⟩
    rw [BTreeMap.mem_rangeFrom] at he
    have hstart : start = acq.targetT0 := h.keyed _ he.1
    subst hstart
    exact he
  · rintro ⟨hmem, hle⟩
    exact ⟨_, BTreeMap.mem_rangeFrom.mpr ⟨hmem, hle⟩, rfl⟩

/-- What a call to schedule does. -/
theorem step_schedule (fromTimestamp : ℤ → ℕ → Option DateTime) (s : PatSession)
    (acquisition : ScheduledAcquisition) (confidence : ClockConfidence) (clock : ClockReading) :
    (Accepts fromTimestamp acquisition confidence clock ∧
      (s.step fromTimestamp (.schedule acquisition confidence clock)).live =
        s.live ++ [acquisition] ∧
      (s.step fromTimestamp (.schedule acquisition confidence clock)).coordinator.patSchedules =
        s.coordinator.patSchedules.insert acquisition.targetT0 acquisition) ∨
    (¬ Accepts fromTimestamp acquisition confidence clock ∧
      s.step fromTimestamp (.schedule acquisition confidence clock) = s) := by
  unfold Accepts step PatCoordinator.scheduleAcquisition
  cases hdegraded : confidence.isDegraded with
  | true =>
    right
    simp [hdegraded]
  | false =>
    by_cases hpast : acquisition.targetT0 ≤ clock.now.toDatetime fromTimestamp clock.utcNow
    · right
      simp [hdegraded, hpast]
    · left
      simp [hdegraded, hpast, not_le.mp hpast, PatCoordinator.logEvent]

theorem Kept.step (h : Kept s) (c : PatCall) : Kept (s.step fromTimestamp c) := by
  cases c with
  | schedule acquisition confidence clock =>
    obtain ⟨-, hlive, hschedules⟩ | ⟨-, hsame⟩ :=
      step_schedule fromTimestamp s acquisition confidence clock
    · constructor
      · rw [hschedules]
        intro e he
        rcases BTreeMap.mem_entries_insert.mp he with rfl | ⟨he, -⟩
        · rfl
        · exact h.keyed e he
      · rw [hschedules, hlive]
        intro e he
        rcases BTreeMap.mem_entries_insert.mp he with rfl | ⟨he, -⟩
        · simp
        · exact List.mem_append_left _ (h.live e he)
    · rw [hsame]
      exact h
  | cancel acquisitionId eventTime observedAt terminalId peerTerminal =>
    constructor
    · intro e he
      exact h.keyed e (BTreeMap.mem_entries_retain.mp he).1
    · intro e he
      obtain ⟨hmem, hkeep⟩ := BTreeMap.mem_entries_retain.mp he
      exact List.mem_filter.mpr ⟨h.live e hmem, hkeep⟩

/-- A call loses no acquisition exactly when it starts none at the instant of another. -/
theorem noneLost_step (h : Kept s) {c : PatCall} (hid : FreshId fromTimestamp s c)
    (hall : NoneLost fromTimestamp s) :
    NoneLost fromTimestamp (s.step fromTimestamp c) ↔ FreshStart fromTimestamp s c := by
  have hkept : Kept (s.step fromTimestamp c) := h.step c
  have hstored : ∀ (now : PrecisionTimestamp) utcNow, ∀ acq ∈ s.live,
      now.toDatetime fromTimestamp utcNow ≤ acq.targetT0 →
      (acq.targetT0, acq) ∈ s.coordinator.patSchedules.entries :=
    fun now utcNow acq hacq hle => ((h.count_pending _ _ _).mp (hall now utcNow acq hacq hle)).1
  cases c with
  | schedule acquisition confidence clock =>
    obtain ⟨haccepts, hlive, hschedules⟩ | ⟨hrejects, hsame⟩ :=
      step_schedule fromTimestamp s acquisition confidence clock
    · constructor
      · intro hafter _ acq hacq hstart
        have hle := haccepts.2.le
        have hmem := ((hkept.count_pending clock.now clock.utcNow acq).mp
          (hafter clock.now clock.utcNow acq (by rw [hlive]; exact List.mem_append_left _ hacq)
            (hstart ▸ hle))).1
        rw [hschedules] at hmem
        rcases BTreeMap.mem_entries_insert.mp hmem with heq | ⟨-, hne⟩
        · exact hid haccepts acq hacq (congrArg (fun e => e.2.acquisitionId) heq)
        · exact hne hstart
      · intro hfresh now utcNow acq hacq hle
        rw [hkept.count_pending, and_iff_left hle, hschedules, BTreeMap.mem_entries_insert]
        rw [hlive, List.mem_append, List.mem_singleton] at hacq
        rcases hacq with hacq | rfl
        · exact Or.inr ⟨hstored now utcNow acq hacq hle, hfresh haccepts acq hacq⟩
        · exact Or.inl rfl
    · rw [hsame]
      exact iff_of_true hall fun haccepts => absurd haccepts hrejects
  | cancel acquisitionId eventTime observedAt terminalId peerTerminal =>
    refine iff_of_true ?_ trivial
    intro now utcNow acq hacq hle
    obtain ⟨hmem, hkeep⟩ := List.mem_filter.mp hacq
    rw [hkept.count_pending, and_iff_left hle]
    exact BTreeMap.mem_entries_retain.mpr ⟨hstored now utcNow acq hmem hle, hkeep⟩

/-- A run loses no acquisition exactly when it never starts one at the instant of another. -/
theorem noneLost_run (calls : List PatCall)
    (hids : Along (PatSession.step fromTimestamp) (FreshId fromTimestamp) new calls) :
    (∀ n, NoneLost fromTimestamp (run (PatSession.step fromTimestamp) new (calls.take n))) ↔
      Along (PatSession.step fromTimestamp) (FreshStart fromTimestamp) new calls :=
  along_iff_invariant_of_along (I := NoneLost fromTimestamp) (J := Kept)
    (fun _ c h _ => h.step c) (fun _ _ h hid hall => noneLost_step h hid hall) kept_new
    (fun _ _ _ hacq => absurd hacq List.not_mem_nil) hids

end PatSession

end GroundCore.Oisl.Pat
