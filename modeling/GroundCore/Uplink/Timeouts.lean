import Mathlib.Data.Int.Order.Basic
import Mathlib.Data.List.Induction
import GroundCore.Uplink.Confirmation

/-! Which commands the sweep for timeouts reports.  It looks at the entries that await an answer;
an accepted retry takes an entry out of these, and no call but an answer or another `track` takes
it further. -/

namespace GroundCore.Uplink

open Lib

namespace ConfirmationEntry

/-- The command is neither acknowledged nor failed. -/
def Unresolved (entry : ConfirmationEntry) : Prop :=
  entry.state ≠ .acknowledged ∧ entry.isFailed = false

def Overdue (now : DateTime) (entry : ConfirmationEntry) : Prop :=
  entry.transmittedAt + entry.timeout < now

theorem timedOut_iff {now : DateTime} {entry : ConfirmationEntry} :
    entry.timedOut now = true ↔ entry.state = .awaitingAck ∧ entry.Overdue now := by
  have hshift : now - entry.transmittedAt > entry.timeout ↔
      entry.transmittedAt + entry.timeout < now := by
    show (_ : ℤ) < _ - _ ↔ (_ : ℤ) + _ < _
    omega
  simp [timedOut, Overdue, hshift]

end ConfirmationEntry

namespace ConfirmationTracker

open ConfirmationEntry

variable {t : ConfirmationTracker} {id : CommandId} {entry : ConfirmationEntry}

/-- The next sweep reports every command that is overdue and unresolved. -/
def ReportsAll (t : ConfirmationTracker) (ord : IterOrder (CommandId × ConfirmationEntry))
    (now : DateTime) : Prop :=
  ∀ id entry, t.entries.get? id = some entry → entry.Unresolved → entry.Overdue now →
    id ∈ (t.checkTimeouts ord now).2

/-- The last call about a command is a retry at `transmittedAt` that was accepted. -/
def LastRetried (defaultTimeout : Duration) (calls : List ConfirmationCall) (id : CommandId)
    (transmittedAt : DateTime) : Prop :=
  ∃ before lastUpdate after, calls = before ++ .retry id transmittedAt lastUpdate :: after ∧
    (run step (new defaultTimeout) before).retransmitted (.retry id transmittedAt lastUpdate) =
      some id ∧
    ∀ call ∈ after, call.commandId ≠ some id

theorem mem_checkTimeouts {ord : IterOrder (CommandId × ConfirmationEntry)} {now : DateTime} :
    id ∈ (t.checkTimeouts ord now).2 ↔
      ∃ entry, t.entries.get? id = some entry ∧ entry.state = .awaitingAck ∧ entry.Overdue now := by
  simp only [checkTimeouts, List.mem_map, List.mem_filter, IterOrder.mem_order, timedOut_iff]
  constructor
  · rintro ⟨⟨_, entry⟩, ⟨hmem, hstate, hdue⟩, rfl⟩
    exact ⟨entry, HashMap.mem_entries.mp hmem, hstate, hdue⟩
  · rintro ⟨entry, hget, hstate, hdue⟩
    exact ⟨(id, entry), ⟨HashMap.mem_entries.mpr hget, hstate, hdue⟩, rfl⟩

/-- The states that the calls of the tracker give. -/
def KnownStates (t : ConfirmationTracker) : Prop :=
  ∀ id entry, t.entries.get? id = some entry → entry.Unresolved →
    entry.state = .awaitingAck ∨ entry.state = .transmitting

theorem knownStates_step (ht : t.KnownStates) (call : ConfirmationCall) :
    (t.step call).KnownStates := by
  intro id entry hget hopen
  rcases t.step_cases call id with ⟨other, -, -, hsame⟩ | ⟨-, hstep⟩
  · exact ht id entry (hsame ▸ hget) hopen
  · rw [hstep] at hget
    cases call with
    | track command transmissionId transmittedAt lastUpdate =>
      obtain rfl := Option.some.inj hget
      exact .inl rfl
    | handleAck commandId now =>
      obtain ⟨entry', -, rfl⟩ := Option.map_eq_some_iff.mp hget
      exact absurd rfl hopen.1
    | handleNack commandId reason now =>
      obtain ⟨entry', -, rfl⟩ := Option.map_eq_some_iff.mp hget
      exact absurd hopen.2 (by simp [isFailed])
    | checkTimeouts ord now =>
      obtain ⟨entry', hbefore, rfl⟩ := Option.map_eq_some_iff.mp hget
      by_cases hdue : entry'.timedOut now = true
      · rw [sweep, if_pos hdue] at hopen
        exact absurd hopen.2 (by simp [isFailed])
      · rw [sweep, if_neg hdue] at hopen ⊢
        exact ht id entry' hbefore hopen
    | retry commandId transmittedAt lastUpdate =>
      obtain ⟨entry', -, rfl⟩ := Option.map_eq_some_iff.mp hget
      by_cases hspent : entry'.retryCount ≥ entry'.maxRetries
      · rw [if_pos hspent] at hopen
        exact absurd hopen.2 (by simp [isFailed])
      · rw [if_neg hspent]
        exact .inr rfl

theorem knownStates_run (defaultTimeout : Duration) (calls : List ConfirmationCall) :
    (run step (new defaultTimeout) calls).KnownStates :=
  run_preserves (I := KnownStates) (fun _ call ht => knownStates_step ht call)
    (fun id entry hget => by rw [new, HashMap.get?_empty] at hget; contradiction) calls

/-- The command is in transmission since `transmittedAt`. -/
def InTransmission (t : ConfirmationTracker) (id : CommandId) (transmittedAt : DateTime) : Prop :=
  ∃ entry, t.entries.get? id = some entry ∧ entry.state = .transmitting ∧
    entry.transmittedAt = transmittedAt

/-- The sweep only takes entries that await an answer. -/
theorem transmitting_sweep_iff (entry : ConfirmationEntry) (now since : DateTime) :
    ((entry.sweep now).state = .transmitting ∧ (entry.sweep now).transmittedAt = since) ↔
      (entry.state = .transmitting ∧ entry.transmittedAt = since) := by
  by_cases hdue : entry.timedOut now = true
  · simp [sweep, hdue, (timedOut_iff.mp hdue).1]
  · simp [sweep, hdue]

/-- A command is in transmission after a call that retries it, or that is not about it. -/
theorem inTransmission_step_iff {call : ConfirmationCall} {since : DateTime} :
    (t.step call).InTransmission id since ↔
      (∃ lastUpdate, call = .retry id since lastUpdate ∧ t.retransmitted call = some id) ∨
        (call.commandId ≠ some id ∧ t.InTransmission id since) := by
  rcases t.step_cases call id with ⟨other, hcall, hne, hsame⟩ | ⟨hself, hstep⟩
  · have hother : call.commandId ≠ some id := fun h => hne (Option.some.inj (h.symm.trans hcall))
    rw [InTransmission, hsame]
    constructor
    · exact fun h => .inr ⟨hother, h⟩
    · rintro (⟨lastUpdate, rfl, -⟩ | ⟨-, h⟩)
      · exact absurd rfl hother
      · exact h
  · rw [InTransmission, hstep]
    cases call with
    | track command transmissionId transmittedAt lastUpdate =>
      obtain rfl := hself command.id rfl
      simp [entryStep, ConfirmationCall.commandId]
    | handleAck commandId now =>
      obtain rfl := hself commandId rfl
      simp [entryStep, ConfirmationCall.commandId]
    | handleNack commandId reason now =>
      obtain rfl := hself commandId rfl
      simp [entryStep, ConfirmationCall.commandId]
    | checkTimeouts ord now =>
      simp [entryStep, ConfirmationCall.commandId, InTransmission, transmitting_sweep_iff]
    | retry commandId transmittedAt lastUpdate =>
      obtain rfl := hself commandId rfl
      rw [retransmitted_eq_some]
      cases hget : t.entries.get? commandId with
      | none => simp [entryStep, ConfirmationCall.commandId]
      | some entry =>
        by_cases hspent : entry.retryCount ≥ entry.maxRetries
        · simp [entryStep, ConfirmationCall.commandId, hspent, Nat.not_lt.mpr hspent]
        · simp [entryStep, ConfirmationCall.commandId, hspent, Nat.not_le.mp hspent]

theorem lastRetried_append {defaultTimeout : Duration} {calls : List ConfirmationCall}
    {call : ConfirmationCall} {since : DateTime} :
    LastRetried defaultTimeout (calls ++ [call]) id since ↔
      (∃ lastUpdate, call = .retry id since lastUpdate ∧
        (run step (new defaultTimeout) calls).retransmitted call = some id) ∨
      (call.commandId ≠ some id ∧ LastRetried defaultTimeout calls id since) := by
  constructor
  · rintro ⟨before, lastUpdate, after, heq, hsent, hlast⟩
    rcases List.eq_nil_or_concat after with rfl | ⟨after, last, rfl⟩
    · obtain ⟨rfl, hcall⟩ := List.append_inj' heq rfl
      obtain rfl := List.cons.inj hcall |>.1
      exact .inl ⟨lastUpdate, rfl, hsent⟩
    · rw [List.concat_eq_append, ← List.cons_append, ← List.append_assoc] at heq
      obtain ⟨rfl, hcall⟩ := List.append_inj' heq rfl
      obtain rfl := List.cons.inj hcall |>.1
      exact .inr ⟨hlast call (by simp), before, lastUpdate, after, rfl, hsent,
        fun other hmem => hlast other (by simp [hmem])⟩
  · rintro (⟨lastUpdate, rfl, hsent⟩ | ⟨hcall, before, lastUpdate, after, rfl, hsent, hlast⟩)
    · exact ⟨calls, lastUpdate, [], rfl, hsent, fun _ hmem => absurd hmem List.not_mem_nil⟩
    · refine ⟨before, lastUpdate, after ++ [call], by simp, hsent, fun other hmem => ?_⟩
      rcases List.mem_append.mp hmem with hmem | hmem
      · exact hlast other hmem
      · rw [List.mem_singleton.mp hmem]
        exact hcall

/-- The commands in transmission are those whose last call was an accepted retry. -/
theorem inTransmission_run_iff (defaultTimeout : Duration) (calls : List ConfirmationCall)
    (since : DateTime) : (run step (new defaultTimeout) calls).InTransmission id since ↔
      LastRetried defaultTimeout calls id since := by
  induction calls using List.reverseRecOn with
  | nil => simp [InTransmission, LastRetried, new]
  | append_singleton calls call ih =>
    rw [run_append, run_cons, run_nil, inTransmission_step_iff, ih, lastRetried_append]

/-- The sweep after a run reports all that is overdue exactly when no command whose last call was
an accepted retry is overdue from that retry on. -/
theorem reportsAll_iff_no_overdue_retry (defaultTimeout : Duration)
    (calls : List ConfirmationCall) (ord : IterOrder (CommandId × ConfirmationEntry))
    (now : DateTime) :
    (run step (new defaultTimeout) calls).ReportsAll ord now ↔
      ∀ id since, LastRetried defaultTimeout calls id since → now ≤ since + defaultTimeout := by
  have hknown := knownStates_run defaultTimeout calls
  have hbounds := uniform_run defaultTimeout calls
  have htimeout : (run step (new defaultTimeout) calls).defaultTimeout = defaultTimeout :=
    run_preserves (I := fun t => t.defaultTimeout = defaultTimeout)
      (fun t call h => (defaultTimeout_step t call).trans h) rfl calls
  constructor
  · intro hall id since hretried
    obtain ⟨entry, hget, hstate, rfl⟩ := (inTransmission_run_iff _ _ _).mpr hretried
    apply Int.not_lt.mp
    intro hdue
    have hoverdue : entry.Overdue now := by
      rw [Overdue, hbounds.timeout_eq hget, htimeout]
      exact hdue
    obtain ⟨entry', hget', hawaiting, -⟩ := mem_checkTimeouts.mp
      (hall id entry hget ⟨by rw [hstate]; decide, by simp [isFailed, hstate]⟩ hoverdue)
    obtain rfl := Option.some.inj (hget.symm.trans hget')
    rw [hstate] at hawaiting
    contradiction
  · intro hretries id entry hget hopen hdue
    rcases hknown id entry hget hopen with hawaiting | hsending
    · exact mem_checkTimeouts.mpr ⟨entry, hget, hawaiting, hdue⟩
    · have hfresh := hretries id entry.transmittedAt
        ((inTransmission_run_iff _ _ _).mp ⟨entry, hget, hsending, rfl⟩)
      rw [Overdue, hbounds.timeout_eq hget, htimeout] at hdue
      exact absurd hdue (Int.not_lt.mpr hfresh)

/-- A command whose first transmission times out, and which the round of the task then retries. -/
def retriedOnce : List ConfirmationCall :=
  let tracked := (new 5).step (.track (commandOf 1 .high) 7 0 0)
  .track (commandOf 1 .high) 7 0 0 ::
    tracked.timeoutCheckerCalls (.stored _) 10 fun _ => (10, 10)

theorem retriedOnce_forgotten :
    ¬ (run step (new 5) retriedOnce).ReportsAll (.stored _) 1000 := by
  intro hall
  let entry : ConfirmationEntry :=
    { commandId := 1, transmissionId := 7, state := .transmitting, retryCount := 1, maxRetries := 3,
      transmittedAt := 10, timeout := 5, lastUpdate := 10 }
  have hmem : 1 ∈ [] := hall 1 entry rfl ⟨by decide, rfl⟩ (by
    show (10 + 5 : ℤ) < 1000
    decide)
  exact List.not_mem_nil hmem

end ConfirmationTracker

end GroundCore.Uplink
