import GroundCore.Uplink.Queue

/-! Runs of the command queue: which commands are cancelled, and how often a command is returned.  A
cancellation changes the lookup alone, so the command still waits. -/

namespace GroundCore.Uplink

open Lib

namespace CommandQueue

/-- The command that a call returns for transmission. -/
def delivered (ord : CommandOrder) (q : CommandQueue) : QueueCall → Option Command
  | .dequeue => (q.dequeueResult? ord).bind (·.2)
  | _ => none

/-- How often the calls return the command of an id. -/
def deliveries (ord : CommandOrder) (id : CommandId) : CommandQueue → List QueueCall → ℕ
  | _, [] => 0
  | q, call :: calls =>
    (if (q.delivered ord call).map (·.id) = some id then 1 else 0) +
      deliveries ord id (q.step ord call) calls

/-- The command of an id is known, as cancelled. -/
def Cancelled (q : CommandQueue) (id : CommandId) : Prop :=
  ∃ cmd, q.commands.get? id = some cmd ∧ cmd.state = .cancelled

end CommandQueue

namespace QueueCall

/-- The id of the command that a call adds. -/
def enqueued : QueueCall → Option CommandId
  | .enqueue command _ => some command.id
  | .enqueueWithDependencies command _ _ => some command.id
  | _ => none

/-- The call adds the command of an id, or gives it another state than cancelled. -/
def Restates (id : CommandId) : QueueCall → Prop
  | .enqueue command _ => command.id = id
  | .enqueueWithDependencies command _ _ => command.id = id
  | .updateState id' state => id' = id ∧ state ≠ .cancelled
  | .incrementRetry _ | .cancel _ | .dequeue => False

end QueueCall

def enqueues (id : CommandId) (calls : List QueueCall) : ℕ :=
  calls.countP fun call => call.enqueued = some id

open CommandQueue

/-- Each of the calls that add the command of an id leads to at most one return of it. -/
structure AtMostOnce (ord : CommandOrder) (calls : List QueueCall) : Prop where
  total : ∀ id before after, calls = before ++ after →
    deliveries ord id new before ≤ enqueues id before
  between : ∀ id before during after, calls = before ++ during ++ after →
    enqueues id during = 0 → deliveries ord id (run (step ord) new before) during ≤ 1

/-- In a run, the command of an id is cancelled with success, and further calls follow. -/
structure Withdraws (ord : CommandOrder) (calls before : List QueueCall) (id : CommandId)
    (after : List QueueCall) : Prop where
  split : calls = before ++ .cancel id :: after
  accepted : ((run (step ord) new before).cancel id).2 = .ok ()

/-- A command that was cancelled is returned by no later call and stays cancelled, and none is
returned more often than it was added. -/
structure Upholds (ord : CommandOrder) (calls : List QueueCall) : Prop where
  notReturned : ∀ before id after, Withdraws ord calls before id after →
    deliveries ord id (run (step ord) new (before ++ [.cancel id])) after = 0
  staysCancelled : ∀ before id after, Withdraws ord calls before id after →
    ∀ n, (run (step ord) new (before ++ .cancel id :: after.take n)).Cancelled id
  atMostOnce : AtMostOnce ord calls

/-- The same, where a command that was cancelled stays so exactly as long as no call adds it again
or gives it another state. -/
structure UpholdsUntilRestated (ord : CommandOrder) (calls : List QueueCall) : Prop where
  notReturned : ∀ before id after, Withdraws ord calls before id after →
    deliveries ord id (run (step ord) new (before ++ [.cancel id])) after = 0
  staysCancelled : ∀ before id after, Withdraws ord calls before id after →
    ((∀ n, (run (step ord) new (before ++ .cancel id :: after.take n)).Cancelled id) ↔
      ∀ call ∈ after, ¬ call.Restates id)
  atMostOnce : AtMostOnce ord calls

namespace CommandQueue

variable {ord : CommandOrder} {q : CommandQueue}

theorem cancelled_insert {id : CommandId} {queue : HashMap CommandId QueuedCommand}
    {dependencies : HashMap CommandId (List CommandId)} {id' : CommandId} {cmd : QueuedCommand}
    (hne : id' ≠ id) :
    Cancelled ⟨queue, q.commands.insert id cmd, dependencies⟩ id' ↔ q.Cancelled id' := by
  unfold Cancelled
  simp only [HashMap.get?_insert, if_neg hne]

theorem modifyCommand_eq (q : CommandQueue) (id : CommandId) (f : QueuedCommand → QueuedCommand) :
    (q.commands.get? id = none ∧ ∃ e, q.modifyCommand id f = (q, .error e)) ∨
    ∃ cmd, q.commands.get? id = some cmd ∧
      q.modifyCommand id f = ({ q with commands := q.commands.insert id (f cmd) }, .ok ()) := by
  unfold modifyCommand
  cases q.commands.get? id with
  | none => exact .inl ⟨rfl, _, rfl⟩
  | some cmd => exact .inr ⟨cmd, rfl, rfl⟩

/-- What a change of one command leaves cancelled. -/
theorem cancelled_modifyCommand {id id' : CommandId} {f : QueuedCommand → QueuedCommand}
    (h : q.Cancelled id') : (q.modifyCommand id f).1.Cancelled id' ↔
      (id' = id → ∀ cmd, q.commands.get? id = some cmd → (f cmd).state = .cancelled) := by
  obtain ⟨cmd', hcmd', hstate'⟩ := h
  rcases q.modifyCommand_eq id f with ⟨hnone, e, hrun⟩ | ⟨cmd, hcmd, hrun⟩ <;> rw [hrun]
  · refine ⟨fun _ heq => ?_, fun _ => ⟨cmd', hcmd', hstate'⟩⟩
    rw [heq, hnone] at hcmd'
    contradiction
  · by_cases heq : id' = id
    · subst heq
      unfold Cancelled
      simp only [HashMap.get?_insert, if_true, hcmd, Option.some.injEq, forall_eq',
        exists_eq_left', true_implies]
    · rw [cancelled_insert heq]
      exact ⟨fun _ heq' => absurd heq' heq, fun _ => ⟨cmd', hcmd', hstate'⟩⟩

/-- What adding a command leaves cancelled. -/
theorem cancelled_enqueue {id : CommandId} {command : Command} {now : DateTime}
    {queue : HashMap CommandId QueuedCommand}
    {dependencies : HashMap CommandId (List CommandId)} (h : q.Cancelled id) :
    Cancelled ⟨queue, q.commands.insert command.id (.new command now), dependencies⟩ id ↔
      command.id ≠ id := by
  by_cases heq : command.id = id
  · refine iff_of_false ?_ (not_not_intro heq)
    rintro ⟨cmd, hcmd, hstate⟩
    simp only [HashMap.get?_insert, heq, if_true, Option.some.injEq] at hcmd
    subst hcmd
    contradiction
  · exact iff_of_true ((cancelled_insert (Ne.symm heq)).mpr h) heq

/-- A cancelled command stays cancelled in a call exactly when the call does not restate it. -/
theorem cancelled_step_iff {id : CommandId} (h : q.Cancelled id) (call : QueueCall) :
    (q.step ord call).Cancelled id ↔ ¬ call.Restates id := by
  cases call with
  | enqueue command now => exact cancelled_enqueue h
  | enqueueWithDependencies command dependsOn now => exact cancelled_enqueue h
  | updateState id' state =>
    refine (cancelled_modifyCommand h).trans ?_
    obtain ⟨cmd, hcmd, -⟩ := h
    constructor
    · rintro hall ⟨rfl, hother⟩
      exact hother (hall rfl cmd hcmd)
    · rintro hnot rfl cmd' -
      by_contra hother
      exact hnot ⟨rfl, hother⟩
  | incrementRetry id' =>
    refine iff_of_true ((cancelled_modifyCommand h).mpr ?_) not_false
    rintro rfl cmd hcmd
    obtain ⟨cmd', hcmd', hstate⟩ := h
    obtain rfl := Option.some.inj (hcmd.symm.trans hcmd')
    exact hstate
  | cancel id' =>
    exact iff_of_true ((cancelled_modifyCommand h).mpr fun _ _ _ => rfl) not_false
  | dequeue =>
    rw [step_dequeue]
    exact iff_of_true h not_false

theorem cancelled_of_cancel {id : CommandId} (h : (q.cancel id).2 = .ok ()) :
    (q.step ord (.cancel id)).Cancelled id := by
  rcases q.modifyCommand_eq id fun queued => { queued with state := .cancelled } with
    ⟨-, e, hrun⟩ | ⟨cmd, -, hrun⟩
  · have herror : (q.cancel id).2 = .error e := congrArg Prod.snd hrun
    rw [herror] at h
    contradiction
  · have hafter : q.step ord (.cancel id) = _ := congrArg Prod.fst hrun
    rw [hafter]
    exact ⟨_, (HashMap.get?_insert _ _ _ _).trans (if_pos rfl), rfl⟩

/-! ### Returned commands -/

theorem delivered_eq_none (ord : CommandOrder) (q : CommandQueue) (call : QueueCall) :
    q.delivered ord call = none := by
  cases call with
  | dequeue =>
    unfold delivered
    cases h : q.dequeueResult? ord with
    | none => rfl
    | some result => rw [dequeueResult?_eq_some h]; rfl
  | _ => rfl

/-- No command is ever returned: a call that finds one waits for its own guard. -/
theorem deliveries_eq_zero (ord : CommandOrder) (id : CommandId) (q : CommandQueue)
    (calls : List QueueCall) : deliveries ord id q calls = 0 := by
  induction calls generalizing q with
  | nil => rfl
  | cons call calls ih => simp [deliveries, delivered_eq_none, ih]

theorem atMostOnce_of_run (ord : CommandOrder) (calls : List QueueCall) : AtMostOnce ord calls := by
  constructor
  · intro id before after _
    rw [deliveries_eq_zero]
    exact Nat.zero_le _
  · intro id before during after _ _
    rw [deliveries_eq_zero]
    exact Nat.zero_le _

/-- In every run no command that was cancelled is returned later, it stays cancelled exactly as long
as no call adds it again or gives it another state, and none is returned more often than it was
added. -/
theorem withdrawals_upheld (ord : CommandOrder) (calls : List QueueCall) :
    UpholdsUntilRestated ord calls := by
  refine ⟨fun _ id after _ => deliveries_eq_zero ord id _ after, ?_, atMostOnce_of_run ord calls⟩
  intro before id after hwithdraws
  let q : CommandQueue := (run (step ord) new before).step ord (.cancel id)
  have hcancelled : q.Cancelled id := cancelled_of_cancel hwithdraws.accepted
  have halong : (∀ n, (run (step ord) q (after.take n)).Cancelled id) ↔
      Along (step ord) (fun _ call => ¬ call.Restates id) q after :=
    along_iff_invariant (I := fun q => Cancelled q id) (fun _ call h => cancelled_step_iff h call)
      hcancelled
  simp only [run_append, run_cons]
  exact halong.trans along_iff_forall

/-- A cancelled command that is given another state is cancelled no more. -/
theorem requeued_not_cancelled : ¬ ∀ (ord : CommandOrder) (calls : List QueueCall),
    Upholds ord calls := by
  intro hall
  let enqueued : List QueueCall := [.enqueue (commandOf 1 .normal) 0]
  have hwithdraws : Withdraws .scan (enqueued ++ [.cancel 1, .updateState 1 .queued]) enqueued 1
      [.updateState 1 .queued] := ⟨rfl, by decide +kernel⟩
  obtain ⟨cmd, hcmd, hstate⟩ := (hall .scan _).staysCancelled _ _ _ hwithdraws 1
  let requeued : QueuedCommand := .new (commandOf 1 .normal) 0
  have hqueued : (run (step .scan) new
      (enqueued ++ .cancel 1 :: [.updateState 1 .queued])).commands.get? 1 = some requeued := by
    decide +kernel
  obtain rfl := Option.some.inj (hqueued.symm.trans hcmd)
  contradiction

end CommandQueue

end GroundCore.Uplink
