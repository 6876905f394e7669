import GroundCore.Uplink.Queue
import GroundCore.Uplink.Transmitter

/-! When the calls of the uplink wait for themselves: where a call keeps the guard of a lock that it
took for reading, and asks for the same lock for writing. -/

namespace GroundCore.Uplink

open Lib

namespace CommandQueue

/-- The command with the greatest id waits with its dependencies satisfied. -/
def TopReady (q : CommandQueue) : Prop :=
  ∃ id queued, q.queue.get? id = some queued ∧
    (∀ other queued', q.queue.get? other = some queued' → other ≤ id) ∧
    q.dependenciesSatisfied id = true

/-- Every command that waits is filed under its id. -/
def Keyed (q : CommandQueue) : Prop :=
  ∀ id queued, q.queue.get? id = some queued → queued.command.id = id

variable {ord : CommandOrder} {q : CommandQueue}

theorem Keyed.le_of_peek (h : q.Keyed) {id other : CommandId}
    {queued otherQueued : QueuedCommand} (hpeek : ord.peek q.queue = some (id, queued))
    (hother : q.queue.get? other = some otherQueued) : other ≤ id := by
  have hle := QueuedCommand.le_of_isLE (ord.isLE_of_peek hpeek hother)
  rwa [h _ _ hother, h _ _ (ord.get?_of_peek hpeek)] at hle

/-- The waiting command with the greatest id is the one that is popped. -/
theorem Keyed.peek_iff_greatest (h : q.Keyed) {id : CommandId} {queued : QueuedCommand} :
    ord.peek q.queue = some (id, queued) ↔ q.queue.get? id = some queued ∧
      ∀ other queued', q.queue.get? other = some queued' → other ≤ id := by
  constructor
  · exact fun hpeek => ⟨ord.get?_of_peek hpeek, fun _ _ hother => h.le_of_peek hpeek hother⟩
  · rintro ⟨hget, hgreatest⟩
    refine PeekOrder.peek_eq_some hget fun other queued' hother hle => ?_
    have hup := QueuedCommand.le_of_isLE hle
    rw [h _ _ hget, h _ _ hother] at hup
    exact Nat.le_antisymm (hgreatest other queued' hother) hup

/-- A command that is put back is the next to be popped. -/
theorem Keyed.putBack (h : q.Keyed) {id : CommandId} {queued : QueuedCommand}
    (hpeek : ord.peek q.queue = some (id, queued)) :
    Keyed { q with queue := (q.queue.erase id).insert id queued } ∧
      ord.peek ((q.queue.erase id).insert id queued) = some (id, queued) := by
  obtain ⟨hget, hgreatest⟩ := h.peek_iff_greatest.mp hpeek
  have hsame := HashMap.get?_insert_erase hget
  have hback : Keyed { q with queue := (q.queue.erase id).insert id queued } := by
    intro id' queued' hget'
    exact h id' queued' ((hsame id').symm.trans hget')
  refine ⟨hback, hback.peek_iff_greatest.mpr ⟨(hsame id).trans hget, ?_⟩⟩
  intro other queued' hother
  exact hgreatest other queued' ((hsame other).symm.trans hother)

/-- A command at the top whose dependencies are not satisfied is popped in every turn, and no lock
is asked for. -/
theorem Keyed.dequeueLoop_of_unready (h : q.Keyed) {id : CommandId} {queued : QueuedCommand}
    (hpeek : ord.peek q.queue = some (id, queued)) (hunready : q.dependenciesSatisfied id = false)
    (turns : ℕ) : dequeueLoop ord turns q = pure none := by
  induction turns generalizing q with
  | zero => rfl
  | succ turns ih =>
    obtain ⟨hback, hpeek'⟩ := h.putBack hpeek
    simp only [dequeueLoop, PeekOrder.pop, hpeek, Option.map_some, hunready, Bool.not_false,
      if_true]
    exact ih hback hpeek' hunready

/-- The guard for reading the commands is in the way of the one for writing them. -/
theorem dequeue_of_ready {id : CommandId} {queued : QueuedCommand}
    (hpeek : ord.peek q.queue = some (id, queued)) (hready : q.dependenciesSatisfied id = true)
    (turns : ℕ) : (q.dequeue ord (turns + 1)).BlocksItself := by
  refine ⟨.commands, ?_⟩
  unfold dequeue dequeueLoop
  simp only [PeekOrder.pop, hpeek, Option.map_some, hready, Bool.not_true, Bool.false_eq_true,
    if_false]
  rfl

/-! ### Reachable queues -/

theorem Keyed.insert (h : q.Keyed) (command : Command) (now : DateTime)
    (commands : HashMap CommandId QueuedCommand)
    (dependencies : HashMap CommandId (List CommandId)) :
    Keyed ⟨q.queue.insert command.id (.new command now), commands, dependencies⟩ := by
  intro id queued hget
  rw [HashMap.get?_insert] at hget
  split at hget
  · next heq => rw [← Option.some.inj hget, heq]; rfl
  · exact h id queued hget

theorem Keyed.modifyCommand (h : q.Keyed) (id : CommandId) (f : QueuedCommand → QueuedCommand) :
    (q.modifyCommand id f).1.Keyed := by
  intro id' queued hget
  rw [queue_modifyCommand] at hget
  exact h id' queued hget

theorem Keyed.step (h : q.Keyed) (call : QueueCall) : (q.step ord call).Keyed := by
  cases call with
  | enqueue command now => exact h.insert command now _ _
  | enqueueWithDependencies command dependsOn now => exact h.insert command now _ _
  | updateState id state => exact h.modifyCommand id _
  | incrementRetry id => exact h.modifyCommand id _
  | cancel id => exact h.modifyCommand id _
  | dequeue => rwa [step_dequeue]

theorem keyed_of_run (ord : CommandOrder) (calls : List QueueCall) :
    (run (step ord) new calls).Keyed :=
  run_preserves (fun _ call h => h.step call) (fun _ _ hget => nomatch hget) calls

theorem Keyed.blocksItself_iff (h : q.Keyed) (ord : CommandOrder) :
    (∃ turns, (q.dequeue ord turns).BlocksItself) ↔ q.TopReady := by
  constructor
  · rintro ⟨turns, hblocks⟩
    cases turns with
    | zero =>
      obtain ⟨lock, hlock⟩ := hblocks
      contradiction
    | succ turns =>
      cases hpeek : ord.peek q.queue with
      | none =>
        have hreturns : (q.dequeue ord (turns + 1)).Returns (some (q, none)) :=
          dequeue_of_empty (ord.peek_eq_none_iff.mp hpeek) turns
        exact absurd hblocks hreturns.not_blocksItself
      | some top =>
        obtain ⟨id, queued⟩ := top
        obtain ⟨hget, hgreatest⟩ := h.peek_iff_greatest.mp hpeek
        cases hready : q.dependenciesSatisfied id with
        | true => exact ⟨id, queued, hget, hgreatest, hready⟩
        | false =>
          obtain ⟨lock, hlock⟩ := hblocks
          unfold dequeue at hlock
          rw [h.dequeueLoop_of_unready hpeek hready] at hlock
          contradiction
  · rintro ⟨id, queued, hget, hgreatest, hready⟩
    exact ⟨1, dequeue_of_ready (h.peek_iff_greatest.mpr ⟨hget, hgreatest⟩) hready 0⟩

end CommandQueue

inductive TransmitterCall
  | transmit (data : List UInt8) (transmissionId : TransmissionId)
  | abort (id : TransmissionId)
  | enable
  | disable

namespace Transmitter

/-- The transmitter after a call.  A call that blocks itself leaves no other state. -/
def step (t : Transmitter) : TransmitterCall → Transmitter
  | .transmit data transmissionId => ((t.transmit data transmissionId).result?.map (·.1)).getD t
  | .abort id => ((t.abort id).result?.map (·.1)).getD t
  | .enable => t.enable
  | .disable => t.disable

end Transmitter

/-- After every run, `dequeue` does not block itself exactly when the command with the greatest id
waits for others or nothing waits, and the transmitters do not block themselves when they abort
exactly what they do not transmit. -/
theorem uplink_blocksItself_iff (ord : CommandOrder) (calls : List QueueCall)
    (sdrCalls modemCalls : List TransmitterCall) (id : TransmissionId) :
    let q := run (CommandQueue.step ord) .new calls
    let sdr := run Transmitter.step .new sdrCalls
    let modem := run Transmitter.step .new modemCalls
    ((∀ turns, ¬ (q.dequeue ord turns).BlocksItself) ↔ ¬ q.TopReady) ∧
      (¬ (SdrTransmitter.abort sdr id).BlocksItself ↔ sdr.currentTransmission ≠ some id) ∧
      (¬ (ModemTransmitter.abort modem id).BlocksItself ↔ modem.currentTransmission ≠ some id) := by
  refine ⟨?_, not_congr Transmitter.abort_blocksItself_iff,
    not_congr Transmitter.abort_blocksItself_iff⟩
  rw [← (CommandQueue.keyed_of_run ord calls).blocksItself_iff ord, not_exists]

/-- The next command of a queue with one, and the abort of a transmission under way. -/
theorem uplink_blocks_itself :
    (¬ ∀ (ord : CommandOrder) (calls : List QueueCall) (turns : ℕ),
      ¬ ((run (CommandQueue.step ord) .new calls).dequeue ord turns).BlocksItself) ∧
    (¬ ∀ (calls : List TransmitterCall) (id : TransmissionId),
      ¬ (SdrTransmitter.abort (run Transmitter.step .new calls) id).BlocksItself) ∧
    (¬ ∀ (calls : List TransmitterCall) (id : TransmissionId),
      ¬ (ModemTransmitter.abort (run Transmitter.step .new calls) id).BlocksItself) := by
  refine ⟨fun hall => ?_, fun hall => ?_, fun hall => ?_⟩
  · have hpeek : PeekOrder.scan.peek (run (CommandQueue.step .scan) .new
        [.enqueue (commandOf 1 .normal) 0]).queue =
          some (1, .new (commandOf 1 .normal) 0) := by decide +kernel
    exact hall .scan [.enqueue (commandOf 1 .normal) 0] 1
      (CommandQueue.dequeue_of_ready hpeek rfl 0)
  · exact hall [.enable, .transmit [1] 7] 7 (Transmitter.abort_of_current rfl)
  · exact hall [.enable, .transmit [1] 7] 7 (Transmitter.abort_of_current rfl)

end GroundCore.Uplink
