import GroundCore.Lib.HashMap
import GroundCore.Lib.Run
import GroundCore.Uplink.Command
import GroundCore.Uplink.Transmitter

/-! The confirmation tracker: one entry for each transmitted command, which an answer from the
satellite, the sweep for timeouts or a retry moves on.  Every call takes the readings of the clock
that it makes. -/

namespace GroundCore.Uplink

open Lib

inductive CommandOutcome
  | acknowledged
  | rejected (reason : String)
  | timeout
  | transmissionFailed
  deriving DecidableEq, Repr

structure ConfirmationEntry where
  commandId : CommandId
  transmissionId : TransmissionId
  state : CommandState
  retryCount : ℕ
  maxRetries : ℕ
  transmittedAt : DateTime
  timeout : Duration
  lastUpdate : DateTime
  deriving DecidableEq, Repr

namespace ConfirmationEntry

/-- The entry waits for an answer for longer than its timeout. -/
def timedOut (now : DateTime) (entry : ConfirmationEntry) : Bool :=
  decide (entry.state = .awaitingAck) && decide (now - entry.transmittedAt > entry.timeout)

/-- What the sweep for timeouts makes of an entry. -/
def sweep (now : DateTime) (entry : ConfirmationEntry) : ConfirmationEntry :=
  if entry.timedOut now then { entry with state := .timeout, lastUpdate := now } else entry

/-- The entries that the tracker lists as failed. -/
def isFailed (entry : ConfirmationEntry) : Bool :=
  decide (entry.state = .failed) || decide (entry.state = .timeout)

end ConfirmationEntry

structure ConfirmationTracker where
  entries : HashMap CommandId ConfirmationEntry
  defaultTimeout : Duration

namespace ConfirmationTracker

def new (defaultTimeout : Duration) : ConfirmationTracker := { entries := ∅, defaultTimeout }

/-- The `max_retries` of every entry that is tracked. -/
def maxRetries : ℕ := 3

def track (t : ConfirmationTracker) (command : Command) (transmissionId : TransmissionId)
    (transmittedAt lastUpdate : DateTime) : ConfirmationTracker :=
  let entry : ConfirmationEntry :=
    { commandId := command.id, transmissionId, state := .awaitingAck, retryCount := 0, maxRetries,
      transmittedAt, timeout := t.defaultTimeout, lastUpdate }
  { t with entries := t.entries.insert command.id entry }

def commandNotFound (commandId : CommandId) : GroundStationError :=
  .notFound s!"Command {commandId.hyphenated}"

def handleAck (t : ConfirmationTracker) (commandId : CommandId) (now : DateTime) :
    ConfirmationTracker × Result CommandOutcome :=
  match t.entries.get? commandId with
  | some entry =>
    let entry := { entry with state := .acknowledged, lastUpdate := now }
    ({ t with entries := t.entries.insert commandId entry }, .ok .acknowledged)
  | none => (t, .error (commandNotFound commandId))

def handleNack (t : ConfirmationTracker) (commandId : CommandId) (reason : String)
    (now : DateTime) : ConfirmationTracker × Result CommandOutcome :=
  match t.entries.get? commandId with
  | some entry =>
    let entry := { entry with state := .failed, lastUpdate := now }
    ({ t with entries := t.entries.insert commandId entry }, .ok (.rejected reason))
  | none => (t, .error (commandNotFound commandId))

/-- The sweep visits the entries in an order of the hash map's own. -/
def checkTimeouts (t : ConfirmationTracker) (ord : IterOrder (CommandId × ConfirmationEntry))
    (now : DateTime) : ConfirmationTracker × List CommandId :=
  ({ t with entries := t.entries.mapValues (·.sweep now) },
    ((ord.order t.entries.entries).filter (·.2.timedOut now)).map (·.1))

def retry (t : ConfirmationTracker) (commandId : CommandId) (transmittedAt lastUpdate : DateTime) :
    ConfirmationTracker × Result Bool :=
  match t.entries.get? commandId with
  | some entry =>
    if entry.retryCount ≥ entry.maxRetries then
      ({ t with entries := t.entries.insert commandId { entry with state := .failed } }, .ok false)
    else
      let entry := { entry with
        retryCount := entry.retryCount + 1, state := .transmitting, transmittedAt, lastUpdate }
      ({ t with entries := t.entries.insert commandId entry }, .ok true)
  | none => (t, .error (commandNotFound commandId))

def failed (t : ConfirmationTracker) (ord : IterOrder ConfirmationEntry) :
    List ConfirmationEntry := (ord.order t.entries.values).filter (·.isFailed)

end ConfirmationTracker

inductive ConfirmationCall
  | track (command : Command) (transmissionId : TransmissionId)
      (transmittedAt lastUpdate : DateTime)
  | handleAck (commandId : CommandId) (now : DateTime)
  | handleNack (commandId : CommandId) (reason : String) (now : DateTime)
  | checkTimeouts (ord : IterOrder (CommandId × ConfirmationEntry)) (now : DateTime)
  | retry (commandId : CommandId) (transmittedAt lastUpdate : DateTime)

/-- The command that a call is about; the sweep is about none. -/
def ConfirmationCall.commandId : ConfirmationCall → Option CommandId
  | .track command _ _ _ => some command.id
  | .handleAck commandId _ | .handleNack commandId _ _ | .retry commandId _ _ => some commandId
  | .checkTimeouts _ _ => none

namespace ConfirmationTracker

def step (t : ConfirmationTracker) : ConfirmationCall → ConfirmationTracker
  | .track command transmissionId transmittedAt lastUpdate =>
    t.track command transmissionId transmittedAt lastUpdate
  | .handleAck commandId now => (t.handleAck commandId now).1
  | .handleNack commandId reason now => (t.handleNack commandId reason now).1
  | .checkTimeouts ord now => (t.checkTimeouts ord now).1
  | .retry commandId transmittedAt lastUpdate => (t.retry commandId transmittedAt lastUpdate).1

/-- The command that a call retransmits: that of a retry which returns `true`. -/
def retransmitted (t : ConfirmationTracker) : ConfirmationCall → Option CommandId
  | .retry commandId transmittedAt lastUpdate =>
    if (t.retry commandId transmittedAt lastUpdate).2 = .ok true then some commandId else none
  | _ => none

/-- One round of the task that retries what has timed out. -/
def timeoutCheckerRound (t : ConfirmationTracker)
    (ord : IterOrder (CommandId × ConfirmationEntry)) (now : DateTime)
    (clock : CommandId → DateTime × DateTime) : ConfirmationTracker :=
  let (t, timedOut) := t.checkTimeouts ord now
  timedOut.foldl (fun t commandId => (t.retry commandId (clock commandId).1 (clock commandId).2).1)
    t

/-- The calls of such a round. -/
def timeoutCheckerCalls (t : ConfirmationTracker)
    (ord : IterOrder (CommandId × ConfirmationEntry)) (now : DateTime)
    (clock : CommandId → DateTime × DateTime) : List ConfirmationCall :=
  .checkTimeouts ord now :: (t.checkTimeouts ord now).2.map fun commandId =>
    .retry commandId (clock commandId).1 (clock commandId).2

theorem timeoutCheckerRound_eq_run (t : ConfirmationTracker)
    (ord : IterOrder (CommandId × ConfirmationEntry)) (now : DateTime)
    (clock : CommandId → DateTime × DateTime) :
    t.timeoutCheckerRound ord now clock = run step t (t.timeoutCheckerCalls ord now clock) := by
  rw [timeoutCheckerCalls, run_cons, run, List.foldl_map]
  rfl

/-- What a call that concerns a command makes of its entry. -/
def entryStep (defaultTimeout : Duration) (entry : Option ConfirmationEntry) :
    ConfirmationCall → Option ConfirmationEntry
  | .track command transmissionId transmittedAt lastUpdate =>
    some { commandId := command.id, transmissionId, state := .awaitingAck, retryCount := 0,
           maxRetries, transmittedAt, timeout := defaultTimeout, lastUpdate }
  | .handleAck _ now => entry.map ({ · with state := .acknowledged, lastUpdate := now })
  | .handleNack _ _ now => entry.map ({ · with state := .failed, lastUpdate := now })
  | .checkTimeouts _ now => entry.map (·.sweep now)
  | .retry _ transmittedAt lastUpdate => entry.map fun entry =>
    if entry.retryCount ≥ entry.maxRetries then { entry with state := .failed }
    else { entry with
      retryCount := entry.retryCount + 1, state := .transmitting, transmittedAt, lastUpdate }

variable {t : ConfirmationTracker} {id : CommandId} {entry : ConfirmationEntry}

@[simp] theorem defaultTimeout_step (t : ConfirmationTracker) (call : ConfirmationCall) :
    (t.step call).defaultTimeout = t.defaultTimeout := by
  cases call with
  | track => rfl
  | checkTimeouts => rfl
  | handleAck commandId now =>
    simp only [step, handleAck]
    cases t.entries.get? commandId <;> rfl
  | handleNack commandId reason now =>
    simp only [step, handleNack]
    cases t.entries.get? commandId <;> rfl
  | retry commandId transmittedAt lastUpdate =>
    simp only [step, retry]
    cases t.entries.get? commandId with
    | none => rfl
    | some entry => by_cases hspent : entry.retryCount ≥ entry.maxRetries <;> simp [hspent]

/-- The entry of a command after a call that is about it, or about all. -/
theorem get?_step (t : ConfirmationTracker) {call : ConfirmationCall}
    (h : ∀ other, call.commandId = some other → other = id) :
    (t.step call).entries.get? id = entryStep t.defaultTimeout (t.entries.get? id) call := by
  cases call with
  | track command transmissionId transmittedAt lastUpdate =>
    rw [← h command.id rfl]
    simp [step, track, entryStep]
  | handleAck commandId now =>
    obtain rfl := h commandId rfl
    simp only [step, handleAck, entryStep]
    cases hget : t.entries.get? commandId <;> simp [hget]
  | handleNack commandId reason now =>
    obtain rfl := h commandId rfl
    simp only [step, handleNack, entryStep]
    cases hget : t.entries.get? commandId <;> simp [hget]
  | checkTimeouts ord now => simp [step, checkTimeouts, entryStep]
  | retry commandId transmittedAt lastUpdate =>
    obtain rfl := h commandId rfl
    simp only [step, retry, entryStep]
    cases hget : t.entries.get? commandId with
    | none => simp [hget]
    | some entry => by_cases hspent : entry.retryCount ≥ entry.maxRetries <;> simp [hspent]

/-- A call about another command leaves the entry of a command alone. -/
theorem get?_step_of_ne {call : ConfirmationCall} {other : CommandId}
    (h : call.commandId = some other) (hne : id ≠ other) :
    (t.step call).entries.get? id = t.entries.get? id := by
  cases call with
  | track command transmissionId transmittedAt lastUpdate =>
    obtain rfl := Option.some.inj h
    simp [step, track, hne]
  | handleAck commandId now =>
    obtain rfl := Option.some.inj h
    simp only [step, handleAck]
    cases t.entries.get? commandId <;> simp [hne]
  | handleNack commandId reason now =>
    obtain rfl := Option.some.inj h
    simp only [step, handleNack]
    cases t.entries.get? commandId <;> simp [hne]
  | checkTimeouts ord now => contradiction
  | retry commandId transmittedAt lastUpdate =>
    obtain rfl := Option.some.inj h
    simp only [step, retry]
    cases t.entries.get? commandId with
    | none => rfl
    | some entry => by_cases hspent : entry.retryCount ≥ entry.maxRetries <;> simp [hspent, hne]

/-- Either a call leaves the entry of a command alone, or it makes of it what `entryStep` says. -/
theorem step_cases (t : ConfirmationTracker) (call : ConfirmationCall) (id : CommandId) :
    (∃ other, call.commandId = some other ∧ id ≠ other ∧
      (t.step call).entries.get? id = t.entries.get? id) ∨
    ((∀ other, call.commandId = some other → other = id) ∧
      (t.step call).entries.get? id = entryStep t.defaultTimeout (t.entries.get? id) call) := by
  by_cases hother : ∃ other, call.commandId = some other ∧ id ≠ other
  · obtain ⟨other, hcall, hne⟩ := hother
    exact .inl ⟨other, hcall, hne, get?_step_of_ne hcall hne⟩
  · have h : ∀ other, call.commandId = some other → other = id := fun other hcall =>
      by_contra fun hne => hother ⟨other, hcall, fun heq => hne heq.symm⟩
    exact .inr ⟨h, get?_step t h⟩

theorem retransmitted_eq_some {call : ConfirmationCall} : t.retransmitted call = some id ↔
    ∃ transmittedAt lastUpdate entry, call = .retry id transmittedAt lastUpdate ∧
      t.entries.get? id = some entry ∧ entry.retryCount < entry.maxRetries := by
  constructor
  · intro h
    cases call with
    | retry commandId transmittedAt lastUpdate =>
      simp only [retransmitted] at h
      split at h
      · next hok =>
        obtain rfl := Option.some.inj h
        simp only [retry] at hok
        cases hget : t.entries.get? commandId with
        | none => simp [hget] at hok
        | some entry =>
          refine ⟨transmittedAt, lastUpdate, entry, rfl, rfl, ?_⟩
          by_contra hspent
          simp [hget, Nat.not_lt.mp hspent] at hok
      · contradiction
    | _ => contradiction
  · rintro ⟨transmittedAt, lastUpdate, entry, rfl, hget, hleft⟩
    simp [retransmitted, retry, hget, Nat.not_le.mpr hleft]

/-- The bounds that `track` sets are those of every entry. -/
structure Uniform (t : ConfirmationTracker) : Prop where
  maxRetries_eq : ∀ {id entry}, t.entries.get? id = some entry → entry.maxRetries = maxRetries
  timeout_eq : ∀ {id entry}, t.entries.get? id = some entry → entry.timeout = t.defaultTimeout

theorem uniform_new (defaultTimeout : Duration) : (new defaultTimeout).Uniform :=
  ⟨fun h => by simp [new] at h, fun h => by simp [new] at h⟩

/-- An entry after a call keeps the bounds of the entry before, or has those that `track` sets. -/
theorem entryStep_bounds {defaultTimeout : Duration} {before : Option ConfirmationEntry}
    {call : ConfirmationCall} (h : entryStep defaultTimeout before call = some entry) :
    (entry.maxRetries = maxRetries ∧ entry.timeout = defaultTimeout) ∨
      ∃ entry', before = some entry' ∧ entry.maxRetries = entry'.maxRetries ∧
        entry.timeout = entry'.timeout := by
  cases call with
  | track command transmissionId transmittedAt lastUpdate =>
    obtain rfl := Option.some.inj h
    exact .inl ⟨rfl, rfl⟩
  | handleAck commandId now =>
    obtain ⟨entry', hbefore, rfl⟩ := Option.map_eq_some_iff.mp h
    exact .inr ⟨entry', hbefore, rfl, rfl⟩
  | handleNack commandId reason now =>
    obtain ⟨entry', hbefore, rfl⟩ := Option.map_eq_some_iff.mp h
    exact .inr ⟨entry', hbefore, rfl, rfl⟩
  | checkTimeouts ord now =>
    obtain ⟨entry', hbefore, rfl⟩ := Option.map_eq_some_iff.mp h
    refine .inr ⟨entry', hbefore, ?_⟩
    unfold ConfirmationEntry.sweep
    split <;> exact ⟨rfl, rfl⟩
  | retry commandId transmittedAt lastUpdate =>
    obtain ⟨entry', hbefore, rfl⟩ := Option.map_eq_some_iff.mp h
    refine .inr ⟨entry', hbefore, ?_⟩
    split <;> exact ⟨rfl, rfl⟩

theorem Uniform.step (ht : t.Uniform) (call : ConfirmationCall) : (t.step call).Uniform := by
  have hbounds : ∀ {id entry}, (t.step call).entries.get? id = some entry →
      entry.maxRetries = maxRetries ∧ entry.timeout = t.defaultTimeout := by
    intro id entry hget
    rcases t.step_cases call id with ⟨other, -, -, hsame⟩ | ⟨-, hstep⟩
    · rw [hsame] at hget
      exact ⟨ht.maxRetries_eq hget, ht.timeout_eq hget⟩
    · rw [hstep] at hget
      rcases entryStep_bounds hget with hnew | ⟨entry', hbefore, hretries, htimeout⟩
      · exact hnew
      · exact ⟨hretries.trans (ht.maxRetries_eq hbefore), htimeout.trans (ht.timeout_eq hbefore)⟩
  exact ⟨fun hget => (hbounds hget).1, fun hget => by
    rw [defaultTimeout_step]; exact (hbounds hget).2⟩

theorem uniform_run (defaultTimeout : Duration) (calls : List ConfirmationCall) :
    (run ConfirmationTracker.step (new defaultTimeout) calls).Uniform :=
  run_preserves (fun _ call ht => ht.step call) (uniform_new defaultTimeout) calls

end ConfirmationTracker

end GroundCore.Uplink
