import GroundCore.Hardware.RingBuffer
import GroundCore.RfLayer.Demodulator

/-! The sample ring of a radio.  Its counters only grow and are taken modulo the capacity, so it
fills every slot; the counters are words of 64 bits, whose sums and differences must not overflow
where the program checks them.  Both rings refine a queue. -/

namespace GroundCore.RfLayer

open Lib RingQueue

variable {F32 : Type}

structure SampleRingBuffer (F32 : Type) where
  buffer : List (Sample F32)
  head : UInt64
  tail : UInt64
  capacity : UInt64

namespace SampleRingBuffer

/-- `blank` is the sample with which the memory is filled. -/
def new (capacity : UInt64) (blank : Sample F32) : SampleRingBuffer F32 :=
  { buffer := List.replicate capacity.toNat blank, head := 0, tail := 0, capacity }

/-- The index of a place after a counter; no result where their sum overflows. -/
def index (r : SampleRingBuffer F32) (counter : UInt64) (i : ℕ) : Option ℕ :=
  if counter.toNat + i < 2 ^ 64 then some ((counter.toNat + i) % r.capacity.toNat) else none

/-- The difference of the counters, and of the capacity and it; no result where one overflows.  The
addition to the head wraps. -/
def write (r : SampleRingBuffer F32) (samples : List (Sample F32)) :
    Option (SampleRingBuffer F32 × Result ℕ) :=
  if r.head < r.tail ∨ r.capacity < r.head - r.tail then none
  else
    let available := r.capacity - (r.head - r.tail)
    if available.toNat < samples.length then
      some (r, .error (.rfProcessing "Ring buffer overflow"))
    else do
      let count := min samples.length available.toNat
      let buffer ← fill (r.index r.head) r.buffer (samples.take count)
      return ({ r with buffer, head := r.head + UInt64.ofNat count }, .ok count)

/-- With the slice after its first elements are filled in. -/
def read (r : SampleRingBuffer F32) (slice : List (Sample F32)) :
    Option (SampleRingBuffer F32 × List (Sample F32) × Result ℕ) :=
  if r.head < r.tail then none
  else do
    let available := r.head - r.tail
    let count := min slice.length available.toNat
    let items ← take (r.index r.tail) r.buffer count
    return ({ r with tail := r.tail + UInt64.ofNat count }, items ++ slice.drop count, .ok count)

def perform (r : SampleRingBuffer F32) :
    Call (Sample F32) → Option (SampleRingBuffer F32 × Answer GroundStationError (Sample F32))
  | .write samples => (r.write samples).map fun (r, result) => (r, .wrote result)
  | .read slice => (r.read slice).map fun (r, slice, result) => (r, .read slice result)

/-- What a ring of a capacity admits. -/
def grant (n : ℕ) : ℕ → ℕ → Except GroundStationError ℕ :=
  grantAll (.rfProcessing "Ring buffer overflow") n

/-- The ring keeps the queue from its tail on, and its counters are those of the queue. -/
structure Keeps (n : ℕ) (r : SampleRingBuffer F32) (f : Fifo (Sample F32)) : Prop where
  capacity : r.capacity.toNat = n
  memory : r.buffer.length = n
  head : r.head.toNat = f.accepted.length
  tail : r.tail.toNat = f.delivered.length
  conserves : f.Conserves
  holds : Holds r.buffer r.tail.toNat f.queue

namespace Keeps

variable {n : ℕ} {r : SampleRingBuffer F32} {f : Fifo (Sample F32)}

theorem new {capacity : UInt64} (blank : Sample F32) :
    Keeps capacity.toNat (new capacity blank) .empty :=
  ⟨rfl, List.length_replicate, rfl, rfl, rfl, .nil _ _⟩

/-- The counters tell how much is stored. -/
theorem used_eq (h : Keeps n r f) :
    ¬ r.head < r.tail ∧ (r.head - r.tail).toNat = f.queue.length ∧ f.queue.length ≤ n ∧
      r.head.toNat = r.tail.toNat + f.queue.length := by
  have hlength := congrArg List.length h.conserves
  rw [List.length_append, ← h.head, ← h.tail] at hlength
  have hle : r.tail ≤ r.head := UInt64.le_iff_toNat_le.mpr (by omega)
  have hfits := h.holds.fits
  rw [h.memory] at hfits
  refine ⟨UInt64.not_lt.mpr hle, ?_, hfits, hlength⟩
  rw [UInt64.toNat_sub_of_le _ _ hle]
  omega

theorem available_eq (h : Keeps n r f) :
    ¬ (r.head < r.tail ∨ r.capacity < r.head - r.tail) ∧
      (r.capacity - (r.head - r.tail)).toNat = n - f.queue.length := by
  obtain ⟨hle, hused, hfits, -⟩ := h.used_eq
  have hcapacity : r.head - r.tail ≤ r.capacity := by
    rw [UInt64.le_iff_toNat_le, hused, h.capacity]
    exact hfits
  refine ⟨not_or.mpr ⟨hle, UInt64.not_lt.mpr hcapacity⟩, ?_⟩
  rw [UInt64.toNat_sub_of_le _ _ hcapacity, hused, h.capacity]

theorem toNat_add_ofNat {counter : UInt64} {count : ℕ} (h : counter.toNat + count < 2 ^ 64) :
    (counter + UInt64.ofNat count).toNat = counter.toNat + count := by
  rw [UInt64.toNat_add, UInt64.toNat_ofNat']
  omega

/-- A slice that does not fit is refused, and nothing changes. -/
theorem write_of_not_fits (h : Keeps n r f) {samples : List (Sample F32)}
    (hfits : n - f.queue.length < samples.length) :
    r.write samples = some (r, .error (.rfProcessing "Ring buffer overflow")) := by
  obtain ⟨hchecks, havailable⟩ := h.available_eq
  unfold write
  dsimp only
  rw [if_neg hchecks, havailable, if_pos hfits]

/-- A slice that fits is written, as long as the head stays below the end of the words. -/
theorem write_of_fits (h : Keeps n r f) {samples : List (Sample F32)}
    (hfits : samples.length ≤ n - f.queue.length)
    (hbound : f.accepted.length + samples.length < 2 ^ 64) :
    ∃ r', r.write samples = some (r', .ok samples.length) ∧
      Keeps n r' { f with queue := f.queue ++ samples, accepted := f.accepted ++ samples } := by
  obtain ⟨hchecks, havailable⟩ := h.available_eq
  obtain ⟨-, -, hroom, hhead⟩ := h.used_eq
  rw [← h.head] at hbound
  have hposition : ∀ i < samples.length, r.index r.head i =
      some ((r.tail.toNat + f.queue.length + i) % r.buffer.length) := fun i hi => by
    rw [index, if_pos (by omega), h.capacity, h.memory, hhead]
  obtain ⟨buffer, hfill, hlength, hholds⟩ :=
    h.holds.fill samples (by rw [h.memory]; omega) hposition
  refine ⟨{ r with buffer, head := r.head + UInt64.ofNat samples.length }, ?_, ?_⟩
  · unfold SampleRingBuffer.write
    dsimp only
    rw [if_neg hchecks, havailable, if_neg (not_lt.mpr hfits), min_eq_left hfits, List.take_length,
      hfill]
    rfl
  · refine ⟨h.capacity, hlength.trans h.memory, ?_, h.tail, ?_, hholds⟩
    · rw [toNat_add_ofNat hbound, h.head, List.length_append]
    · show f.accepted ++ samples = f.delivered ++ (f.queue ++ samples)
      rw [h.conserves, List.append_assoc]

/-- As many samples are read as the slice has place for, from the first that is stored on. -/
theorem read (h : Keeps n r f) (slice : List (Sample F32)) :
    ∃ r', r.read slice = some (r', f.queue.take (min slice.length f.queue.length) ++
          slice.drop (min slice.length f.queue.length),
        .ok (min slice.length f.queue.length)) ∧
      Keeps n r' (f.step (grant n) (.read slice)) := by
  obtain ⟨hle, hused, hroom, hhead⟩ := h.used_eq
  have hbound := r.head.toNat_lt
  have hposition : ∀ i < min slice.length f.queue.length, r.index r.tail i =
      some ((r.tail.toNat + i) % r.buffer.length) := fun i hi => by
    rw [index, if_pos (by omega), h.capacity, h.memory]
  have htake := h.holds.take (min_le_right slice.length f.queue.length) hposition
  have htail : (r.tail + UInt64.ofNat (min slice.length f.queue.length)).toNat =
      r.tail.toNat + min slice.length f.queue.length := toNat_add_ofNat (by omega)
  refine ⟨{ r with tail := r.tail + UInt64.ofNat (min slice.length f.queue.length) }, ?_, ?_⟩
  · unfold SampleRingBuffer.read
    dsimp only
    rw [if_neg hle, hused, htake]
    rfl
  · refine ⟨h.capacity, h.memory, h.head, ?_, Fifo.conserves_step h.conserves _, ?_⟩
    · show (r.tail + UInt64.ofNat (min slice.length f.queue.length)).toNat =
        (f.delivered ++ f.queue.take (min slice.length f.queue.length)).length
      rw [htail, h.tail, List.length_append, List.length_take]
      omega
    · rw [htail]
      exact h.holds.drop _

theorem perform (h : Keeps n r f) (call : Call (Sample F32))
    (hbound : (f.step (grant n) call).accepted.length < 2 ^ 64) :
    ∃ r', r.perform call = some (r', (f.respond (grant n) call).2) ∧
      Keeps n r' (f.step (grant n) call) := by
  cases call with
  | write samples =>
    by_cases hfits : samples.length ≤ n - f.queue.length
    · have hgrant : grant n f.queue.length samples.length = .ok samples.length := if_pos hfits
      have hrespond : f.respond (grant n) (.write samples) =
          ({ f with queue := f.queue ++ samples, accepted := f.accepted ++ samples },
            .wrote (.ok samples.length)) := by
        simp only [Fifo.respond, hgrant, List.take_length]
      unfold Fifo.step at hbound ⊢
      rw [hrespond] at hbound ⊢
      obtain ⟨r', hwrite, hkeeps⟩ := h.write_of_fits hfits (by simpa using hbound)
      refine ⟨r', ?_, hkeeps⟩
      rw [SampleRingBuffer.perform, hwrite]
      rfl
    · have hgrant : grant n f.queue.length samples.length =
          .error (.rfProcessing "Ring buffer overflow") := if_neg hfits
      have hrespond : f.respond (grant n) (.write samples) =
          (f, .wrote (.error (.rfProcessing "Ring buffer overflow"))) := by
        simp only [Fifo.respond, hgrant]
      refine ⟨r, ?_, ?_⟩
      · rw [SampleRingBuffer.perform, h.write_of_not_fits (not_le.mp hfits), hrespond]
        rfl
      · rw [Fifo.step, hrespond]
        exact h
  | read slice =>
    obtain ⟨r', hread, hkeeps⟩ := h.read slice
    refine ⟨r', ?_, hkeeps⟩
    rw [SampleRingBuffer.perform, hread]
    rfl

end Keeps

/-- A ring answers a list of calls as the queue that admits what fits in its capacity, as long as
the queue admits fewer samples than a word can count. -/
theorem performAll_new {capacity : UInt64} (blank : Sample F32) {calls : List (Call (Sample F32))}
    (hcount : (run (Fifo.step (grant capacity.toNat)) .empty calls).accepted.length < 2 ^ 64) :
    ∃ r, performAll perform (new capacity blank) calls =
        some (r, Fifo.answers (grant capacity.toNat) .empty calls) ∧
      Keeps capacity.toNat r (run (Fifo.step (grant capacity.toNat)) .empty calls) :=
  performAll_refines (fun _ _ call h hbound => h.perform call hbound) (Keeps.new blank)
    (Fifo.along_of_accepted_lt hcount)

/-- A sample written and read again, so many times. -/
def passThrough (x : Sample F32) (k : ℕ) : List (Call (Sample F32)) :=
  (List.replicate k [.write [x], .read [x]]).flatten

theorem run_passThrough {n : ℕ} (hn : 1 ≤ n) (x : Sample F32) (k : ℕ) :
    run (Fifo.step (grant n)) .empty (passThrough x k) =
      ⟨[], List.replicate k x, List.replicate k x⟩ := by
  induction k with
  | zero => rfl
  | succ k ih =>
    have hgrant : grant n 0 1 = .ok 1 := if_pos hn
    rw [passThrough, List.replicate_succ', List.flatten_append, run_append]
    rw [passThrough] at ih
    rw [ih, List.replicate_succ']
    simp [Fifo.step, Fifo.respond, hgrant]

/-- With the head at the last word, the place of a second sample has no number. -/
theorem Keeps.write_pair_eq_none {n : ℕ} {r : SampleRingBuffer F32} {f : Fifo (Sample F32)}
    (h : Keeps n r f) (hqueue : f.queue = []) (hlast : f.accepted.length + 1 = 2 ^ 64) (hn : 2 ≤ n)
    (x y : Sample F32) : r.write [x, y] = none := by
  obtain ⟨hchecks, havailable⟩ := h.available_eq
  rw [hqueue, List.length_nil, Nat.sub_zero] at havailable
  rw [← h.head] at hlast
  have hindex : r.index r.head 1 = none := if_neg (by omega)
  have hfill : fill (r.index r.head) r.buffer [x, y] = none := by
    rw [show [x, y] = [x] ++ [y] from rfl, fill_append_singleton, List.length_singleton, hindex]
    cases fill (r.index r.head) r.buffer [x] <;> rfl
  have hcount : min [x, y].length n = 2 := min_eq_left hn
  have hroom : ¬ n < [x, y].length := not_lt.mpr hn
  unfold write
  dsimp only
  rw [if_neg hchecks, havailable, if_neg hroom, hcount, List.take_of_length_le (le_refl 2), hfill]
  rfl

end SampleRingBuffer

/-- Both rings answer every list of calls as a bounded queue, and no access is outside their memory:
the ring of a shard keeps a slot free and admits as much of a slice as there is room for, and the
ring of a radio, as long as it accepts fewer samples than a word can count, admits a slice if all of
it fits. -/
theorem ring_buffers_refine (F32 : Type) :
    (∀ (n : ℕ) (buffer : List F32) (calls : List (Call F32)), 1 ≤ n → buffer.length = n →
      ∃ r answers queue,
        performAll Hardware.RingBuffer.perform (.new buffer n) calls = some (r, answers) ∧
        answers = Fifo.answers (grantSome (n - 1)) .empty calls ∧
        acceptedOf calls answers = deliveredOf answers ++ queue ∧
        (∀ samples, ∃ r',
          r.write samples = some (r', .ok (min samples.length (n - 1 - queue.length)))) ∧
        ∀ slice, ∃ r', r.read slice = some (r', queue.take (min slice.length queue.length) ++
            slice.drop (min slice.length queue.length),
          .ok (min slice.length queue.length))) ∧
    ∀ (capacity : UInt64) (blank : Sample F32) (calls : List (Call (Sample F32))),
      (acceptedOf calls
        (Fifo.answers (SampleRingBuffer.grant capacity.toNat) .empty calls)).length < 2 ^ 64 →
      ∃ r answers queue,
        performAll SampleRingBuffer.perform (.new capacity blank) calls = some (r, answers) ∧
        answers = Fifo.answers (SampleRingBuffer.grant capacity.toNat) .empty calls ∧
        acceptedOf calls answers = deliveredOf answers ++ queue ∧
        (∀ samples, samples.length ≤ capacity.toNat - queue.length →
          (acceptedOf calls answers).length + samples.length < 2 ^ 64 →
          ∃ r', r.write samples = some (r', .ok samples.length)) ∧
        (∀ samples, capacity.toNat - queue.length < samples.length →
          r.write samples = some (r, .error (.rfProcessing "Ring buffer overflow"))) ∧
        ∀ slice, ∃ r', r.read slice = some (r', queue.take (min slice.length queue.length) ++
            slice.drop (min slice.length queue.length),
          .ok (min slice.length queue.length)) := by
  refine ⟨fun n buffer calls hn hbuffer => ?_, fun capacity blank calls hcount => ?_⟩
  · obtain ⟨r, hrun, hkeeps⟩ := Hardware.RingBuffer.performAll_new hn hbuffer calls
    refine ⟨r, _, _, hrun, rfl, Fifo.acceptedOf_answers _ calls, fun samples => ?_, fun slice => ?_⟩
    · obtain ⟨r', hwrite, -⟩ := hkeeps.write samples
      exact ⟨r', hwrite⟩
    · obtain ⟨r', hread, -⟩ := hkeeps.read slice
      exact ⟨r', hread⟩
  · have haccepted := (Fifo.run_eq_of_answers (SampleRingBuffer.grant capacity.toNat)
      (.empty : Fifo (Sample F32)) calls).1
    rw [Fifo.empty, List.nil_append] at haccepted
    obtain ⟨r, hrun, hkeeps⟩ :=
      SampleRingBuffer.performAll_new blank (by rwa [Fifo.empty, haccepted])
    refine ⟨r, _, _, hrun, rfl, Fifo.acceptedOf_answers _ calls, fun samples hfits hbound => ?_,
      fun samples hfits => hkeeps.write_of_not_fits hfits, fun slice => ?_⟩
    · obtain ⟨r', hwrite, -⟩ := hkeeps.write_of_fits hfits (by rwa [Fifo.empty, haccepted])
      exact ⟨r', hwrite⟩
    · obtain ⟨r', hread, -⟩ := hkeeps.read slice
      exact ⟨r', hread⟩

theorem small_rings_refine :
    (∃ r, performAll Hardware.RingBuffer.perform (.new [0, 0, 0] 3)
        [.write [1, 2, 3], .read [0, 0, 0], .write [4, 5]] =
      some (r, [.wrote (.ok 2), .read [1, 2, 0] (.ok 2), .wrote (.ok 2)])) ∧
    ∃ r, performAll SampleRingBuffer.perform (.new 2 (⟨0, 0, 0, 0, 0⟩ : Sample ℕ))
        [.write [⟨1, 1, 0, 0, 1⟩], .write [⟨2, 2, 0, 0, 2⟩, ⟨3, 3, 0, 0, 3⟩],
          .read [⟨0, 0, 0, 0, 0⟩]] =
      some (r, [.wrote (.ok 1), .wrote (.error (.rfProcessing "Ring buffer overflow")),
        .read [⟨1, 1, 0, 0, 1⟩] (.ok 1)]) := by
  constructor
  · obtain ⟨r, answers, -, hrun, rfl, -⟩ := (ring_buffers_refine ℕ).1 3 [0, 0, 0]
      [.write [1, 2, 3], .read [0, 0, 0], .write [4, 5]] (by decide) rfl
    exact ⟨r, hrun⟩
  · obtain ⟨r, answers, -, hrun, rfl, -⟩ := (ring_buffers_refine ℕ).2 2 ⟨0, 0, 0, 0, 0⟩
      [.write [⟨1, 1, 0, 0, 1⟩], .write [⟨2, 2, 0, 0, 2⟩, ⟨3, 3, 0, 0, 3⟩],
        .read [⟨0, 0, 0, 0, 0⟩]] (by decide)
    exact ⟨r, hrun⟩

/-- The place of a sample has no number once the head is the last word. -/
theorem last_word_fails :
    performAll SampleRingBuffer.perform (.new 3 (⟨0, 0, 0, 0, 0⟩ : Sample ℕ))
      (SampleRingBuffer.passThrough ⟨1, 1, 0, 0, 1⟩ (2 ^ 64 - 1) ++
        [.write [⟨2, 2, 0, 0, 2⟩, ⟨3, 3, 0, 0, 3⟩]]) = none := by
  have hpass := SampleRingBuffer.run_passThrough (show 1 ≤ UInt64.toNat 3 by decide)
    (⟨1, 1, 0, 0, 1⟩ : Sample ℕ) (2 ^ 64 - 1)
  obtain ⟨r, hrun, hkeeps⟩ := SampleRingBuffer.performAll_new (⟨0, 0, 0, 0, 0⟩ : Sample ℕ)
    (by rw [hpass, List.length_replicate]; decide)
  rw [hpass] at hkeeps
  have hlast : (List.replicate (2 ^ 64 - 1) (⟨1, 1, 0, 0, 1⟩ : Sample ℕ)).length + 1 = 2 ^ 64 := by
    rw [List.length_replicate]
    omega
  have hnone := hkeeps.write_pair_eq_none rfl hlast (by decide) ⟨2, 2, 0, 0, 2⟩ ⟨3, 3, 0, 0, 3⟩
  refine performAll_append_eq_none hrun ?_
  rw [performAll, SampleRingBuffer.perform, hnone]
  rfl

end GroundCore.RfLayer
