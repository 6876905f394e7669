import GroundCore.Core.Types
import GroundCore.Lib.RingQueue

/-! The ring buffer of a shard.  Its indices stay below the capacity and one slot stays free, so
that equal indices mean an empty buffer.  The capacity is that of a buffer in memory, so the sum of
an index and a count does not overflow; an access outside the buffer has no result. -/

namespace GroundCore.Hardware

open Lib RingQueue

variable {F32 : Type}

structure RingBuffer (F32 : Type) where
  buffer : List F32
  capacity : ℕ
  head : ℕ
  tail : ℕ

namespace RingBuffer

/-- A ring over a memory of so many elements. -/
def new (buffer : List F32) (capacity : ℕ) : RingBuffer F32 :=
  { buffer, capacity, head := 0, tail := 0 }

/-- A remainder by zero has no result. -/
def wrap (r : RingBuffer F32) (index : ℕ) : Option ℕ :=
  if r.capacity = 0 then none else some (index % r.capacity)

/-- No result where a difference would be below zero; so in `used`. -/
def available (r : RingBuffer F32) : Option ℕ :=
  if r.tail ≤ r.head then
    if r.head - r.tail + 1 ≤ r.capacity then some (r.capacity - (r.head - r.tail) - 1) else none
  else some (r.tail - r.head - 1)

def used (r : RingBuffer F32) : Option ℕ :=
  if r.tail ≤ r.head then some (r.head - r.tail)
  else if r.tail - r.head ≤ r.capacity then some (r.capacity - (r.tail - r.head)) else none

def write (r : RingBuffer F32) (samples : List F32) : Option (RingBuffer F32 × Result ℕ) := do
  let available ← r.available
  let count := min samples.length available
  let buffer ← fill (fun i => r.wrap (r.head + i)) r.buffer (samples.take count)
  let head ← r.wrap (r.head + count)
  return ({ r with buffer, head }, .ok count)

/-- With the slice after its first elements are filled in. -/
def read (r : RingBuffer F32) (slice : List F32) :
    Option (RingBuffer F32 × List F32 × Result ℕ) := do
  let available ← r.used
  let count := min slice.length available
  let items ← take (fun i => r.wrap (r.tail + i)) r.buffer count
  let tail ← r.wrap (r.tail + count)
  return ({ r with tail }, items ++ slice.drop count, .ok count)

def perform (r : RingBuffer F32) :
    Call F32 → Option (RingBuffer F32 × Answer GroundStationError F32)
  | .write samples => (r.write samples).map fun (r, result) => (r, .wrote result)
  | .read slice => (r.read slice).map fun (r, slice, result) => (r, .read slice result)

/-- The ring of a capacity keeps the queue from its tail on, with a slot to spare. -/
structure Keeps (n : ℕ) (r : RingBuffer F32) (f : Fifo F32) : Prop where
  capacity : r.capacity = n
  memory : r.buffer.length = n
  tail_lt : r.tail < n
  room : f.queue.length < n
  head : r.head = (r.tail + f.queue.length) % n
  holds : Holds r.buffer r.tail f.queue

/-- What a ring of a capacity admits. -/
def grant (n : ℕ) : ℕ → ℕ → Except GroundStationError ℕ := grantSome (n - 1)

namespace Keeps

variable {n : ℕ} {r : RingBuffer F32} {f : Fifo F32}

theorem new {buffer : List F32} (hn : 1 ≤ n) (hbuffer : buffer.length = n) :
    Keeps n (new buffer n) .empty :=
  ⟨rfl, hbuffer, hn, hn, rfl, .nil _ _⟩

theorem wrap_eq (h : Keeps n r f) (index : ℕ) : r.wrap index = some (index % n) := by
  have htail := h.tail_lt
  rw [wrap, h.capacity, if_neg (by omega)]

/-- The indices tell how much is stored. -/
theorem used_eq (h : Keeps n r f) :
    r.used = some f.queue.length ∧ r.available = some (n - 1 - f.queue.length) := by
  have htail := h.tail_lt
  have hroom := h.room
  unfold used available
  rw [h.capacity, h.head]
  by_cases hwrap : r.tail + f.queue.length < n
  · rw [Nat.mod_eq_of_lt hwrap, if_pos (by omega), if_pos (by omega), if_pos (by omega),
      Option.some_inj, Option.some_inj]
    omega
  · rw [Nat.mod_eq_sub_mod (by omega), Nat.mod_eq_of_lt (by omega), if_neg (by omega),
      if_pos (by omega), if_neg (by omega), Option.some_inj, Option.some_inj]
    omega

/-- As much of the samples is written as there is room for. -/
theorem write (h : Keeps n r f) (samples : List F32) :
    ∃ r', r.write samples = some (r', .ok (min samples.length (n - 1 - f.queue.length))) ∧
      Keeps n r' (f.step (grant n) (.write samples)) := by
  have hroom := h.room
  have hcount : (samples.take (min samples.length (n - 1 - f.queue.length))).length =
      min samples.length (n - 1 - f.queue.length) := by
    rw [List.length_take]
    omega
  have hposition : ∀ i, r.wrap (r.head + i) =
      some ((r.tail + f.queue.length + i) % r.buffer.length) := fun i => by
    rw [h.wrap_eq, h.memory, h.head, Nat.mod_add_mod]
  obtain ⟨buffer, hfill, hlength, hholds⟩ := h.holds.fill
    (samples.take (min samples.length (n - 1 - f.queue.length)))
    (by rw [h.memory, hcount]; omega) fun i _ => hposition i
  refine ⟨{ r with
    buffer, head := (r.head + min samples.length (n - 1 - f.queue.length)) % n }, ?_, ?_⟩
  · have hhead := h.wrap_eq (r.head + min samples.length (n - 1 - f.queue.length))
    simp only [RingBuffer.write, h.used_eq.2, Option.bind_eq_bind, Option.bind_some, hfill, hhead]
    rfl
  · refine ⟨h.capacity, hlength.trans h.memory, h.tail_lt, ?_, ?_, hholds⟩
    · show (f.queue ++ samples.take (min samples.length (n - 1 - f.queue.length))).length < n
      rw [List.length_append, hcount]
      omega
    · show (r.head + min samples.length (n - 1 - f.queue.length)) % n =
        (r.tail + (f.queue ++ samples.take (min samples.length
          (n - 1 - f.queue.length))).length) % n
      rw [List.length_append, hcount, h.head, Nat.mod_add_mod, Nat.add_assoc]

/-- As many samples are read as the slice has place for, from the first that is stored on. -/
theorem read (h : Keeps n r f) (slice : List F32) :
    ∃ r', r.read slice = some (r', f.queue.take (min slice.length f.queue.length) ++
          slice.drop (min slice.length f.queue.length),
        .ok (min slice.length f.queue.length)) ∧
      Keeps n r' (f.step (grant n) (.read slice)) := by
  have hposition : ∀ i, r.wrap (r.tail + i) = some ((r.tail + i) % r.buffer.length) := fun i => by
    rw [h.wrap_eq, h.memory]
  have htake := h.holds.take (min_le_right slice.length f.queue.length) fun i _ => hposition i
  refine ⟨{ r with tail := (r.tail + min slice.length f.queue.length) % n }, ?_, ?_⟩
  · have htail := h.wrap_eq (r.tail + min slice.length f.queue.length)
    simp only [RingBuffer.read, h.used_eq.1, Option.bind_eq_bind, Option.bind_some, htake, htail]
    rfl
  · have hn : 0 < n := (Nat.zero_le _).trans_lt h.tail_lt
    have hdrop := (h.holds.drop (min slice.length f.queue.length)).mod_start
    rw [h.memory] at hdrop
    refine ⟨h.capacity, h.memory, Nat.mod_lt _ hn, ?_, ?_, hdrop⟩
    · exact (List.drop_sublist _ _).length_le.trans_lt h.room
    · show r.head = ((r.tail + min slice.length f.queue.length) % n +
        (f.queue.drop (min slice.length f.queue.length)).length) % n
      rw [Nat.mod_add_mod, List.length_drop, h.head]
      congr 1
      omega

theorem perform (h : Keeps n r f) (call : Call F32) :
    ∃ r', r.perform call = some (r', (f.respond (grant n) call).2) ∧
      Keeps n r' (f.step (grant n) call) := by
  cases call with
  | write samples =>
    obtain ⟨r', hwrite, hkeeps⟩ := h.write samples
    refine ⟨r', ?_, hkeeps⟩
    rw [RingBuffer.perform, hwrite]
    rfl
  | read slice =>
    obtain ⟨r', hread, hkeeps⟩ := h.read slice
    refine ⟨r', ?_, hkeeps⟩
    rw [RingBuffer.perform, hread]
    rfl

end Keeps

/-- A ring answers every list of calls as the queue that admits one element less than its
capacity. -/
theorem performAll_new {n : ℕ} (hn : 1 ≤ n) {buffer : List F32} (hbuffer : buffer.length = n)
    (calls : List (Call F32)) :
    ∃ r, performAll perform (new buffer n) calls =
        some (r, Fifo.answers (grant n) .empty calls) ∧
      Keeps n r (run (Fifo.step (grant n)) .empty calls) :=
  performAll_refines (fun _ _ call h (_ : True) => h.perform call) (Keeps.new hn hbuffer)
    (along_of_forall fun _ _ => trivial)

end RingBuffer

end GroundCore.Hardware
