import GroundCore.Lib.PriorityQueue
import GroundCore.Lib.Run
import GroundCore.Lib.RwLock
import GroundCore.Uplink.Command

/-! The queue of commands for the uplink: a priority queue of the commands that wait, a lookup of
all commands by id, and the commands that others depend on.  Each call is made as one step; the
locks are those that the call takes itself. -/

namespace GroundCore.Uplink

open Lib
open Oisl (Uuid)

structure CommandQueue where
  queue : HashMap CommandId QueuedCommand
  commands : HashMap CommandId QueuedCommand
  dependencies : HashMap CommandId (List CommandId)

inductive QueueLock
  | queue
  | commands
  | dependencies
  deriving DecidableEq

/-- The priority queue of the command queue. -/
abbrev CommandOrder := PeekOrder CommandId QueuedCommand

namespace CommandQueue

def new : CommandQueue := ⟨∅, ∅, ∅⟩

def enqueue (q : CommandQueue) (command : Command) (now : DateTime) :
    CommandQueue × Result CommandId :=
  let queued := QueuedCommand.new command now
  ({ q with
    queue := q.queue.insert command.id queued
    commands := q.commands.insert command.id queued }, .ok command.id)

def enqueueWithDependencies (q : CommandQueue) (command : Command) (dependsOn : List CommandId)
    (now : DateTime) : CommandQueue × Result CommandId :=
  let queued := QueuedCommand.new command now
  ({ queue := q.queue.insert command.id queued
     commands := q.commands.insert command.id queued
     dependencies := q.dependencies.insert command.id dependsOn }, .ok command.id)

/-- The check that `dequeue` makes of the dependencies of a command. -/
def dependenciesSatisfied (q : CommandQueue) (id : CommandId) : Bool :=
  match q.dependencies.get? id with
  | none => true
  | some deps => deps.all fun depId =>
    ((q.commands.get? depId).map fun c => decide (c.state = .acknowledged)).getD false

/-- The loop of `dequeue`, for a number of turns; `none` when it has not returned in so many. -/
def dequeueLoop (ord : CommandOrder) :
    ℕ → CommandQueue → Guarded QueueLock (Option (CommandQueue × Option Command))
  | 0, _ => return none
  | turns + 1, q =>
    match ord.pop q.queue with
    | none => return some (q, none)
    | some ((id, queued), queue) =>
      if !q.dependenciesSatisfied id then
        -- put back, to be popped again in the next turn
        dequeueLoop ord turns { q with queue := queue.insert id queued }
      else do
        -- the guard for reading the commands is still held here
        Guarded.write .commands
        match q.commands.get? id with
        | none => do
          Guarded.dropWrite .commands
          dequeueLoop ord turns { q with queue }
        | some cmd => do
          let commands := q.commands.insert id { cmd with state := .scheduled }
          Guarded.dropWrite .commands
          return some ({ q with queue, commands }, some cmd.command)

/-- The next command to transmit, under the locks. -/
def dequeue (ord : CommandOrder) (turns : ℕ) (q : CommandQueue) :
    Guarded QueueLock (Option (CommandQueue × Option Command)) := do
  Guarded.write .queue
  Guarded.read .commands
  Guarded.read .dependencies
  let returned ← dequeueLoop ord turns q
  Guarded.dropRead .dependencies
  Guarded.dropRead .commands
  Guarded.dropWrite .queue
  return returned

/-- What a call of `dequeue` leaves and returns, when it returns.  A loop that does not return in
so many turns never returns. -/
def dequeueResult? (ord : CommandOrder) (q : CommandQueue) :
    Option (CommandQueue × Option Command) :=
  (q.dequeue ord (q.queue.entries.length + 1)).result?.join

def get (q : CommandQueue) (id : CommandId) : Option QueuedCommand := q.commands.get? id

/-- A change of a command in the lookup. -/
def modifyCommand (q : CommandQueue) (id : CommandId) (f : QueuedCommand → QueuedCommand) :
    CommandQueue × Result Unit :=
  match q.commands.get? id with
  | some queued => ({ q with commands := q.commands.insert id (f queued) }, .ok ())
  | none => (q, .error (.notFound s!"Command {id.hyphenated}"))

def updateState (q : CommandQueue) (id : CommandId) (state : CommandState) :
    CommandQueue × Result Unit :=
  q.modifyCommand id fun queued => { queued with state }

def incrementRetry (q : CommandQueue) (id : CommandId) : CommandQueue × Result Unit :=
  q.modifyCommand id fun queued => { queued with retryCount := queued.retryCount + 1 }

def cancel (q : CommandQueue) (id : CommandId) : CommandQueue × Result Unit :=
  q.modifyCommand id fun queued => { queued with state := .cancelled }

end CommandQueue

inductive QueueCall
  | enqueue (command : Command) (now : DateTime)
  | enqueueWithDependencies (command : Command) (dependsOn : List CommandId) (now : DateTime)
  | updateState (id : CommandId) (state : CommandState)
  | incrementRetry (id : CommandId)
  | cancel (id : CommandId)
  | dequeue

namespace CommandQueue

variable {ord : CommandOrder} {q : CommandQueue}

/-- The queue after a call.  A call of `dequeue` that does not return leaves no other state. -/
def step (ord : CommandOrder) (q : CommandQueue) : QueueCall → CommandQueue
  | .enqueue command now => (q.enqueue command now).1
  | .enqueueWithDependencies command dependsOn now =>
    (q.enqueueWithDependencies command dependsOn now).1
  | .updateState id state => (q.updateState id state).1
  | .incrementRetry id => (q.incrementRetry id).1
  | .cancel id => (q.cancel id).1
  | .dequeue => ((q.dequeueResult? ord).map (·.1)).getD q

@[simp] theorem queue_modifyCommand (q : CommandQueue) (id : CommandId)
    (f : QueuedCommand → QueuedCommand) : (q.modifyCommand id f).1.queue = q.queue := by
  unfold modifyCommand
  split <;> rfl

/-! ### What a call of `dequeue` does -/

/-- A loop that returns finds nothing that waits: what it pops it puts back, to go on with, or it
asks for a lock that a guard of the call keeps. -/
theorem eq_of_dequeueLoop {turns : ℕ} {q : CommandQueue} {locks locks' : QueueLock → RwLock}
    {result : CommandQueue × Option Command} (hguard : (locks .commands).readers ≠ 0)
    (h : dequeueLoop ord turns q locks = .ok (some result, locks')) :
    (∀ id, q.queue.get? id = none) ∧ result = (q, none) := by
  induction turns generalizing q with
  | zero => cases h
  | succ turns ih =>
    unfold dequeueLoop at h
    cases hpop : ord.pop q.queue with
    | none =>
      rw [hpop] at h
      cases h
      exact ⟨ord.peek_eq_none_iff.mp (Option.map_eq_none_iff.mp hpop), rfl⟩
    | some popped =>
      obtain ⟨⟨id, queued⟩, queue⟩ := popped
      simp only [hpop] at h
      split at h
      · have hnone := (ih h).1 id
        rw [HashMap.get?_insert, if_pos rfl] at hnone
        contradiction
      · obtain ⟨_, mid, hwrite, -⟩ := Guarded.bind_eq_ok h
        have hblocked : (Guarded.write .commands : Guarded QueueLock Unit) locks =
            .error .commands := Guarded.write_of_readers hguard
        rw [hblocked] at hwrite
        contradiction

/-- A call that returns finds nothing that waits, returns nothing and changes nothing. -/
theorem eq_of_dequeue {turns : ℕ} {result : CommandQueue × Option Command}
    {locks : QueueLock → RwLock}
    (h : q.dequeue ord turns (fun _ => .free) = .ok (some result, locks)) :
    (∀ id, q.queue.get? id = none) ∧ result = (q, none) := by
  obtain ⟨_, first, hqueue, hrest⟩ := Guarded.bind_eq_ok h
  obtain ⟨_, second, hcommands, hrest⟩ := Guarded.bind_eq_ok hrest
  obtain ⟨_, third, hdependencies, hrest⟩ := Guarded.bind_eq_ok hrest
  obtain ⟨returned, fourth, hloop, hreturn⟩ := Guarded.bind_eq_ok hrest
  cases hqueue
  cases hcommands
  cases hdependencies
  obtain ⟨rfl, -⟩ := Prod.mk.inj (Except.ok.inj hreturn)
  exact eq_of_dequeueLoop (by decide) hloop

/-- Nothing waits: the call returns. -/
theorem dequeue_of_empty (hempty : ∀ id, q.queue.get? id = none) (turns : ℕ) :
    (q.dequeue ord (turns + 1)).Returns (some (q, none)) := by
  have hloop : dequeueLoop ord (turns + 1) q = pure (some (q, none)) := by
    simp [dequeueLoop, PeekOrder.pop, ord.peek_eq_none_iff.mpr hempty]
  unfold dequeue
  rw [hloop]
  refine Guarded.returns_of_free rfl fun lock => ?_
  cases lock <;> rfl

theorem dequeueResult?_eq_some {result : CommandQueue × Option Command}
    (h : q.dequeueResult? ord = some result) : result = (q, none) := by
  unfold dequeueResult? at h
  obtain ⟨locks, hrun⟩ := Guarded.eq_ok_of_result? (Option.join_eq_some_iff.mp h)
  exact (eq_of_dequeue hrun).2

/-- No call of `dequeue` changes the queue. -/
@[simp] theorem step_dequeue (ord : CommandOrder) (q : CommandQueue) :
    q.step ord .dequeue = q := by
  unfold step
  cases h : q.dequeueResult? ord with
  | none => rfl
  | some result => rw [dequeueResult?_eq_some h]; rfl

/-! ### Which command `dequeue` returns

A command that waits with its dependencies satisfied is popped and never returned, since the call
then waits for a lock whose guard it keeps. -/

/-- A command that waits, is not cancelled, and depends on acknowledged commands alone. -/
structure Eligible (q : CommandQueue) (command : Command) : Prop where
  waiting : ∃ queued, q.queue.get? command.id = some queued ∧ queued.command = command
  notCancelled : ∀ cmd, q.commands.get? command.id = some cmd → cmd.state ≠ .cancelled
  dependencies : ∀ deps, q.dependencies.get? command.id = some deps → ∀ depId ∈ deps,
    ∃ cmd, q.commands.get? depId = some cmd ∧ cmd.state = .acknowledged

/-- No eligible command has a higher priority. -/
def Foremost (q : CommandQueue) (command : Command) : Prop :=
  ∀ other, q.Eligible other → other.priority.discriminant ≤ command.priority.discriminant

/-- `dequeue` returns an eligible command of the highest priority, or nothing when there is none,
and what it does not return waits on. -/
def Dispatches (ord : CommandOrder) (q : CommandQueue) : Prop :=
  ∃ turns after returned, (q.dequeue ord turns).Returns (some (after, returned)) ∧
    match returned with
    | none => (∀ command, ¬ q.Eligible command) ∧ after.queue = q.queue
    | some command => q.Eligible command ∧ q.Foremost command ∧
        ∀ id ≠ command.id, after.queue.get? id = q.queue.get? id

/-- After every run, `dequeue` returns an eligible command of the highest priority, or nothing when
there is none, exactly when nothing waits. -/
theorem dispatches_iff (ord : CommandOrder) (calls : List QueueCall) :
    Dispatches ord (run (step ord) new calls) ↔
      ∀ id, (run (step ord) new calls).queue.get? id = none := by
  constructor
  · rintro ⟨turns, after, returned, hreturns, -⟩
    exact (eq_of_dequeue hreturns).1
  · intro hempty
    refine ⟨1, _, none, dequeue_of_empty hempty 0, fun command heligible => ?_, rfl⟩
    obtain ⟨queued, hget, -⟩ := heligible.waiting
    rw [hempty] at hget
    contradiction

/-- The only command of a queue is not returned. -/
theorem only_command_waits : ¬ ∀ (ord : CommandOrder) (calls : List QueueCall),
    Dispatches ord (run (step ord) new calls) := by
  intro hall
  obtain ⟨turns, after, returned, hreturns, -⟩ :=
    hall .scan [.enqueue (commandOf 1 .emergency) 0]
  have hempty := (eq_of_dequeue hreturns).1 1
  exact absurd hempty (by decide +kernel)

end CommandQueue

end GroundCore.Uplink
