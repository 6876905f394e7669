import GroundCore.Uplink.Confirmation

/-! Histories of the confirmation tracker: what was acknowledged, and how often a command was
retransmitted over all its entries.  Tracking a command again puts a new entry in the place of the
old one, whose count of retries is lost with it. -/

namespace GroundCore.Uplink

open Lib

namespace ConfirmationTracker

def Acknowledged (t : ConfirmationTracker) (id : CommandId) : Prop :=
  ∃ entry, t.entries.get? id = some entry ∧ entry.state = .acknowledged

/-- The retries that the entry of a command counts. -/
def retries (t : ConfirmationTracker) (id : CommandId) : ℕ :=
  ((t.entries.get? id).map (·.retryCount)).getD 0

/-- How often the calls retransmit a command. -/
def retransmissions (id : CommandId) : ConfirmationTracker → List ConfirmationCall → ℕ
  | _, [] => 0
  | t, call :: calls =>
    (if t.retransmitted call = some id then 1 else 0) + retransmissions id (t.step call) calls

end ConfirmationTracker

namespace ConfirmationCall

def tracks : ConfirmationCall → Option CommandId
  | .track command _ _ _ => some command.id
  | _ => none

end ConfirmationCall

open ConfirmationTracker

/-- Along the calls, a command that is acknowledged stays so until it is tracked again, and no
command is retransmitted more often than an entry allows. -/
structure OutcomesFinal (defaultTimeout : Duration) (calls : List ConfirmationCall) : Prop where
  kept : ∀ before call after, calls = before ++ call :: after → call.tracks = none →
    ∀ id, (run step (new defaultTimeout) before).Acknowledged id →
      ((run step (new defaultTimeout) before).step call).Acknowledged id
  bounded : ∀ id, retransmissions id (new defaultTimeout) calls ≤ maxRetries

/-- A tracker, with the retries that the entries replaced so far had counted. -/
structure Confirmations where
  tracker : ConfirmationTracker
  discarded : CommandId → ℕ

namespace Confirmations

def new (defaultTimeout : Duration) : Confirmations := ⟨.new defaultTimeout, fun _ => 0⟩

def step (c : Confirmations) (call : ConfirmationCall) : Confirmations :=
  { tracker := c.tracker.step call
    discarded := fun id =>
      if call.tracks = some id then c.discarded id + c.tracker.retries id else c.discarded id }

/-- No answer that rejects a command and no retry comes for an acknowledged command, and a retry
that its entry still allows finds the bound not used up by the entries before. -/
def Respects (c : Confirmations) : ConfirmationCall → Prop
  | .handleNack id _ _ => ¬ c.tracker.Acknowledged id
  | .retry id _ _ => ¬ c.tracker.Acknowledged id ∧
      ∀ entry, c.tracker.entries.get? id = some entry → entry.retryCount < entry.maxRetries →
        c.discarded id + entry.retryCount < maxRetries
  | .track _ _ _ _ | .handleAck _ _ | .checkTimeouts _ _ => True

/-- The retransmissions of a command over all its entries. -/
def lifetime (c : Confirmations) (id : CommandId) : ℕ := c.discarded id + c.tracker.retries id

variable {c : Confirmations} {id : CommandId}

@[simp] theorem tracker_step (c : Confirmations) (call : ConfirmationCall) :
    (c.step call).tracker = c.tracker.step call := rfl

theorem tracker_run (c : Confirmations) (calls : List ConfirmationCall) :
    (run step c calls).tracker = run ConfirmationTracker.step c.tracker calls := by
  induction calls generalizing c with
  | nil => rfl
  | cons call calls ih => exact ih (c.step call)

end Confirmations

namespace ConfirmationTracker

variable {t : ConfirmationTracker} {id : CommandId} {call : ConfirmationCall}

/-- Only a call about a command retransmits it. -/
theorem retransmitted_ne (h : ∃ other, call.commandId = some other ∧ id ≠ other) :
    t.retransmitted call ≠ some id := by
  intro heq
  obtain ⟨other, hcall, hne⟩ := h
  obtain ⟨_, _, _, rfl, -⟩ := retransmitted_eq_some.mp heq
  exact hne (Option.some.inj hcall)

end ConfirmationTracker

namespace Confirmations

variable {c : Confirmations} {id : CommandId}

/-- A call adds to the retransmissions of a command exactly when it retransmits it. -/
theorem lifetime_step (c : Confirmations) (call : ConfirmationCall) (id : CommandId) :
    (c.step call).lifetime id =
      c.lifetime id + if c.tracker.retransmitted call = some id then 1 else 0 := by
  rcases c.tracker.step_cases call id with ⟨other, hcall, hne, hsame⟩ | ⟨hself, hstep⟩
  · have htracks : call.tracks ≠ some id := by
      cases call with
      | track command transmissionId transmittedAt lastUpdate =>
        obtain rfl := Option.some.inj hcall
        exact fun heq => hne (Option.some.inj heq).symm
      | _ => exact nofun
    simp [lifetime, retries, step, hsame, htracks, retransmitted_ne ⟨other, hcall, hne⟩]
  · simp only [lifetime, retries, step, hstep]
    cases call with
    | track command transmissionId transmittedAt lastUpdate =>
      obtain rfl := hself command.id rfl
      simp [ConfirmationCall.tracks, entryStep, retransmitted]
    | handleAck commandId now =>
      simp [ConfirmationCall.tracks, entryStep, retransmitted, Function.comp_def]
    | handleNack commandId reason now =>
      simp [ConfirmationCall.tracks, entryStep, retransmitted, Function.comp_def]
    | checkTimeouts ord now =>
      have hsweep : ∀ entry : ConfirmationEntry,
          (entry.sweep now).retryCount = entry.retryCount := fun entry => by
        unfold ConfirmationEntry.sweep
        split <;> rfl
      simp [ConfirmationCall.tracks, entryStep, retransmitted, Function.comp_def, hsweep]
    | retry commandId transmittedAt lastUpdate =>
      obtain rfl := hself commandId rfl
      cases hget : c.tracker.entries.get? commandId with
      | none => simp [ConfirmationCall.tracks, entryStep, retransmitted, retry, hget]
      | some entry =>
        by_cases hspent : entry.retryCount ≥ entry.maxRetries
        · simp [ConfirmationCall.tracks, entryStep, retransmitted, retry, hget, hspent]
        · simp [ConfirmationCall.tracks, entryStep, retransmitted, retry, hget, hspent]
          omega

theorem lifetime_run (c : Confirmations) (calls : List ConfirmationCall) (id : CommandId) :
    (run step c calls).lifetime id = c.lifetime id + retransmissions id c.tracker calls := by
  induction calls generalizing c with
  | nil => rfl
  | cons call calls ih =>
    rw [run_cons, ih, lifetime_step, retransmissions, tracker_step]
    omega

theorem lifetime_new (defaultTimeout : Duration) (id : CommandId) :
    (new defaultTimeout).lifetime id = 0 := by
  simp [lifetime, new, retries, ConfirmationTracker.new]

/-- The call leaves acknowledged what is, unless it tracks a command, and no command is then
retransmitted more often than an entry allows. -/
def Upholds (c : Confirmations) (call : ConfirmationCall) : Prop :=
  (call.tracks = none → ∀ id, c.tracker.Acknowledged id → (c.tracker.step call).Acknowledged id) ∧
    ∀ id, (c.step call).lifetime id ≤ maxRetries

/-- The entry of a rejected or retried command is no longer acknowledged. -/
theorem not_acknowledged_step {t : ConfirmationTracker} {call : ConfirmationCall}
    (h : (∃ reason now, call = .handleNack id reason now) ∨
      ∃ transmittedAt lastUpdate, call = .retry id transmittedAt lastUpdate) :
    ¬ (t.step call).Acknowledged id := by
  rintro ⟨entry, hget, hstate⟩
  rcases h with ⟨reason, now, rfl⟩ | ⟨transmittedAt, lastUpdate, rfl⟩
  · rw [get?_step t (by rintro _ ⟨⟩; rfl)] at hget
    obtain ⟨entry', -, rfl⟩ := Option.map_eq_some_iff.mp hget
    contradiction
  · rw [get?_step t (by rintro _ ⟨⟩; rfl)] at hget
    obtain ⟨entry', -, rfl⟩ := Option.map_eq_some_iff.mp hget
    split at hstate <;> contradiction

/-- A call that neither tracks, rejects nor retries a command leaves it acknowledged. -/
theorem acknowledged_step {t : ConfirmationTracker} {call : ConfirmationCall}
    (htracks : call.tracks ≠ some id) (hnack : ∀ reason now, call ≠ .handleNack id reason now)
    (hretry : ∀ transmittedAt lastUpdate, call ≠ .retry id transmittedAt lastUpdate)
    (h : t.Acknowledged id) : (t.step call).Acknowledged id := by
  obtain ⟨entry, hget, hstate⟩ := h
  rcases t.step_cases call id with ⟨other, hcall, hne, hsame⟩ | ⟨hself, hstep⟩
  · exact ⟨entry, hsame.trans hget, hstate⟩
  · rw [hget] at hstep
    cases call with
    | track command transmissionId transmittedAt lastUpdate =>
      exact absurd (congrArg some (hself command.id rfl)) htracks
    | handleAck commandId now => exact ⟨_, hstep, rfl⟩
    | handleNack commandId reason now =>
      obtain rfl := hself commandId rfl
      exact absurd rfl (hnack reason now)
    | checkTimeouts ord now =>
      have hsweep : entry.sweep now = entry := by
        simp [ConfirmationEntry.sweep, ConfirmationEntry.timedOut, hstate]
      exact ⟨entry.sweep now, hstep, by rw [hsweep, hstate]⟩
    | retry commandId transmittedAt lastUpdate =>
      obtain rfl := hself commandId rfl
      exact absurd rfl (hretry transmittedAt lastUpdate)

/-- A call keeps every count within the bound exactly when it does not retransmit a command whose
count has reached it. -/
theorem bounded_step_iff (hbound : ∀ id, c.lifetime id ≤ maxRetries) (call : ConfirmationCall) :
    (∀ id, (c.step call).lifetime id ≤ maxRetries) ↔
      ∀ id, c.tracker.retransmitted call = some id → c.lifetime id < maxRetries := by
  constructor
  · intro h id hsent
    have := h id
    rw [lifetime_step, if_pos hsent] at this
    omega
  · intro h id
    have := hbound id
    rw [lifetime_step]
    split
    · next hsent =>
      have := h id hsent
      omega
    · omega

theorem upholds_iff (hbound : ∀ id, c.lifetime id ≤ maxRetries) (call : ConfirmationCall) :
    c.Upholds call ↔ c.Respects call := by
  rw [Upholds, bounded_step_iff hbound]
  cases call with
  | track command transmissionId transmittedAt lastUpdate =>
    exact ⟨fun _ => trivial, fun _ => ⟨nofun, nofun⟩⟩
  | handleAck commandId now =>
    exact ⟨fun _ => trivial, fun _ => ⟨fun _ id => acknowledged_step nofun nofun nofun, nofun⟩⟩
  | checkTimeouts ord now =>
    exact ⟨fun _ => trivial, fun _ => ⟨fun _ id => acknowledged_step nofun nofun nofun, nofun⟩⟩
  | handleNack commandId reason now =>
    constructor
    · rintro ⟨hkept, -⟩ hacked
      exact not_acknowledged_step (.inl ⟨reason, now, rfl⟩) (hkept rfl commandId hacked)
    · refine fun hnot => ⟨fun _ id hacked => acknowledged_step nofun ?_ nofun hacked, nofun⟩
      rintro _ _ ⟨⟩
      exact hnot hacked
  | retry commandId transmittedAt lastUpdate =>
    constructor
    · rintro ⟨hkept, hsent⟩
      refine ⟨fun hacked => ?_, fun entry hget hleft => ?_⟩
      · exact not_acknowledged_step (.inr ⟨transmittedAt, lastUpdate, rfl⟩)
          (hkept rfl commandId hacked)
      · have := hsent commandId
          (retransmitted_eq_some.mpr ⟨transmittedAt, lastUpdate, entry, rfl, hget, hleft⟩)
        rwa [lifetime, retries, hget] at this
    · rintro ⟨hnot, hleft⟩
      refine ⟨fun _ id hacked => acknowledged_step nofun nofun ?_ hacked, fun id hsent => ?_⟩
      · rintro _ _ ⟨⟩
        exact hnot hacked
      · obtain ⟨_, _, entry, ⟨⟩, hget, hspare⟩ := retransmitted_eq_some.mp hsent
        have := hleft entry hget hspare
        rwa [lifetime, retries, hget]

end Confirmations

open Confirmations

/-- The outcomes are final exactly in the runs in which no rejection and no retry comes for an
acknowledged command, and no retry that an entry allows comes when the entries of the command
have used up its retries together. -/
theorem outcomesFinal_iff_along_respects (defaultTimeout : Duration)
    (calls : List ConfirmationCall) :
    OutcomesFinal defaultTimeout calls ↔
      Along Confirmations.step Respects (.new defaultTimeout) calls := by
  have hstart : ∀ id, (Confirmations.new defaultTimeout).lifetime id ≤ maxRetries := fun id => by
    rw [lifetime_new]
    omega
  have hcongr : Along Confirmations.step Upholds (.new defaultTimeout) calls ↔
      Along Confirmations.step Respects (.new defaultTimeout) calls :=
    along_congr (I := fun c => ∀ id, c.lifetime id ≤ maxRetries)
      (fun c call hbound => upholds_iff hbound call) (fun _ _ _ h => h.2) hstart
  have hcount : ∀ before id, (run Confirmations.step (.new defaultTimeout) before).lifetime id =
      retransmissions id (.new defaultTimeout) before := fun before id => by
    rw [lifetime_run, lifetime_new, Nat.zero_add]
    rfl
  rw [← hcongr]
  constructor
  · rintro ⟨hkept, hbounded⟩
    rw [along_iff_split]
    rintro before call after rfl
    refine ⟨fun htracks id => ?_, fun id => ?_⟩
    · rw [tracker_run]
      exact hkept before call after rfl htracks id
    · have hall := hbounded id
      rw [← hcount, run_append, run_cons, lifetime_run] at hall
      omega
  · intro h
    refine ⟨fun before call after heq htracks id => ?_, fun id => ?_⟩
    · have := (along_iff_split.mp h before call after heq).1 htracks id
      rwa [tracker_run] at this
    · rw [← hcount]
      exact run_invariant (I := fun c => ∀ id, c.lifetime id ≤ maxRetries) (fun _ _ _ h => h.2)
        hstart h id

/-- A sweep reports a command, its acknowledgement comes, and then the retry that the sweep
led to. -/
def lateAck : List ConfirmationCall :=
  [.track (commandOf 1 .high) 7 0 0, .checkTimeouts (.stored _) 10, .handleAck 1 11,
   .retry 1 12 12]

/-- Each retransmission is tracked again. -/
def retracked : List ConfirmationCall :=
  (List.range 4).flatMap fun n => [.track (commandOf 1 .high) n n n, .retry 1 n n]

theorem outcomes_overturned : ¬ OutcomesFinal 5 lateAck ∧ ¬ OutcomesFinal 5 retracked := by
  constructor
  · intro h
    have hacked : (run ConfirmationTracker.step (.new 5) (lateAck.take 3)).Acknowledged 1 :=
      ⟨_, rfl, rfl⟩
    obtain ⟨entry, hget, hstate⟩ := h.kept (lateAck.take 3) (.retry 1 12 12) [] rfl rfl 1 hacked
    obtain rfl := Option.some.inj hget
    contradiction
  · intro h
    exact absurd (h.bounded 1) (by decide)

end GroundCore.Uplink
