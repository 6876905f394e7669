import Mathlib.Data.List.Induction
import Mathlib.Data.Nat.ModEq
import GroundCore.Lib.Run

/-! Queues kept in a ring of memory.  The loops that fill the ring and read it compute a position
for each element, by an arithmetic that may fail; an access outside the memory has no result.  What
a ring refines is a queue that admits so many elements of a slice. -/

namespace GroundCore.Lib.RingQueue

variable {α ε : Type}

/-! ### The memory of a ring -/

def setAt (memory : List α) (position : ℕ) (x : α) : Option (List α) :=
  if position < memory.length then some (memory.set position x) else none

/-- The memory after the elements are written, each to the position of its place. -/
def fill (position : ℕ → Option ℕ) (memory : List α) (xs : List α) : Option (List α) :=
  xs.zipIdx.foldlM (fun memory e => (position e.2).bind fun p => setAt memory p e.1) memory

/-- The elements at the positions of the first `count` places. -/
def take (position : ℕ → Option ℕ) (memory : List α) (count : ℕ) : Option (List α) :=
  (List.range count).mapM fun i => (position i).bind fun p => memory[p]?

theorem fill_append_singleton (position : ℕ → Option ℕ) (memory xs : List α) (x : α) :
    fill position memory (xs ++ [x]) = (fill position memory xs).bind fun memory =>
      (position xs.length).bind fun p => setAt memory p x := by
  rw [fill, List.zipIdx_append, List.foldlM_append, fill]
  simp

theorem take_succ (position : ℕ → Option ℕ) (memory : List α) (count : ℕ) :
    take position memory (count + 1) = (take position memory count).bind fun xs =>
      ((position count).bind fun p => memory[p]?).map fun x => xs ++ [x] := by
  rw [take, List.range_succ, List.mapM_append, take, List.mapM_cons, List.mapM_nil]
  generalize (position count).bind (fun p => memory[p]?) = last
  cases last with
  | none => cases (List.range count).mapM fun i => (position i).bind fun p => memory[p]? <;> rfl
  | some x => simp

/-- The ring holds the queue from `start` on. -/
structure Holds (memory : List α) (start : ℕ) (queue : List α) : Prop where
  fits : queue.length ≤ memory.length
  get : ∀ i < queue.length, memory[(start + i) % memory.length]? = queue[i]?

/-- Places at most a round apart have different positions. -/
theorem mod_ne {start i j n : ℕ} (hij : i < j) (hjn : j < i + n) :
    (start + i) % n ≠ (start + j) % n := by
  intro heq
  have hdvd : n ∣ start + j - (start + i) :=
    (Nat.modEq_iff_dvd' (by omega)).mp heq
  have hle := Nat.le_of_dvd (by omega) hdvd
  omega

namespace Holds

variable {memory queue : List α} {start count : ℕ} {position : ℕ → Option ℕ}

theorem nil (memory : List α) (start : ℕ) : Holds memory start [] := ⟨Nat.zero_le _, nofun⟩

/-- Only the position at which a queue starts matters. -/
theorem mod_start (h : Holds memory start queue) : Holds memory (start % memory.length) queue :=
  ⟨h.fits, fun i hi => by rw [Nat.mod_add_mod]; exact h.get i hi⟩

theorem drop (h : Holds memory start queue) (count : ℕ) :
    Holds memory (start + count) (queue.drop count) := by
  refine ⟨by rw [List.length_drop]; exact (Nat.sub_le _ _).trans h.fits, fun i hi => ?_⟩
  rw [List.length_drop] at hi
  rw [List.getElem?_drop, Nat.add_assoc]
  exact h.get _ (by omega)

/-- An element that is written after the queue is added to it. -/
theorem set (h : Holds memory start queue) (hroom : queue.length < memory.length) (x : α) :
    Holds (memory.set ((start + queue.length) % memory.length) x) start (queue ++ [x]) := by
  refine ⟨by simpa using Nat.succ_le_of_lt hroom, fun i hi => ?_⟩
  rw [List.length_append, List.length_singleton] at hi
  rw [List.length_set]
  rcases (Nat.lt_succ_iff.mp hi).lt_or_eq with hlt | rfl
  · rw [List.getElem?_set_ne (mod_ne hlt (by omega)).symm, List.getElem?_append_left hlt]
    exact h.get i hlt
  · rw [List.getElem?_set_self (Nat.mod_lt _ (by omega)), List.getElem?_concat_length]

/-- A slice for which there is room is added to the queue. -/
theorem fill (h : Holds memory start queue) (xs : List α)
    (hroom : queue.length + xs.length ≤ memory.length)
    (hposition : ∀ i < xs.length,
      position i = some ((start + queue.length + i) % memory.length)) :
    ∃ memory', RingQueue.fill position memory xs = some memory' ∧
      memory'.length = memory.length ∧ Holds memory' start (queue ++ xs) := by
  induction xs using List.reverseRecOn with
  | nil => exact ⟨memory, rfl, rfl, by rwa [List.append_nil]⟩
  | append_singleton xs x ih =>
    rw [List.length_append, List.length_singleton] at hroom hposition
    obtain ⟨memory', hfill, hlength, hholds⟩ :=
      ih (by omega) fun i hi => hposition i (by omega)
    have hlast := hposition xs.length (by omega)
    have hnext := hholds.set (by rw [List.length_append]; omega) x
    rw [List.length_append, ← Nat.add_assoc, hlength] at hnext
    refine ⟨_, ?_, ?_, by rwa [← List.append_assoc]⟩
    · rw [fill_append_singleton, hfill, Option.bind_some, hlast, Option.bind_some]
      exact if_pos (hlength ▸ Nat.mod_lt _ (by omega))
    · rw [List.length_set, hlength]

/-- The first elements of the queue are read. -/
theorem take (h : Holds memory start queue) (hcount : count ≤ queue.length)
    (hposition : ∀ i < count, position i = some ((start + i) % memory.length)) :
    RingQueue.take position memory count = some (queue.take count) := by
  induction count with
  | zero => rfl
  | succ count ih =>
    have hlt : count < queue.length := hcount
    have hlast := (h.get count hlt).trans (List.getElem?_eq_getElem hlt)
    rw [take_succ, ih (by omega) fun i hi => hposition i (by omega), Option.bind_some,
      hposition count (by omega), Option.bind_some, hlast, Option.map_some,
      List.take_succ_eq_append_getElem (by omega)]

end Holds

/-! ### Queues that grant slices -/

inductive Call (α : Type)
  | write (xs : List α)
  | read (slice : List α)

/-- What a write returns, and what a read does with the slice that it fills. -/
inductive Answer (ε α : Type)
  | wrote (result : Except ε ℕ)
  | read (slice : List α) (result : Except ε ℕ)

/-- What the writes accepted, in the order of the calls. -/
def acceptedOf : List (Call α) → List (Answer ε α) → List α
  | .write xs :: calls, .wrote (.ok count) :: answers => xs.take count ++ acceptedOf calls answers
  | _ :: calls, _ :: answers => acceptedOf calls answers
  | _, _ => []

/-- What the reads put into their slices. -/
def deliveredOf : List (Answer ε α) → List α
  | .read slice (.ok count) :: answers => slice.take count ++ deliveredOf answers
  | _ :: answers => deliveredOf answers
  | [] => []

/-- The elements in the queue, and all that were admitted to it and read from it so far. -/
structure Fifo (α : Type) where
  queue : List α
  accepted : List α
  delivered : List α

/-- As much of a slice as there is room for. -/
def grantSome (limit stored len : ℕ) : Except ε ℕ := .ok (min len (limit - stored))

/-- The whole slice, or nothing of it. -/
def grantAll (e : ε) (limit stored len : ℕ) : Except ε ℕ :=
  if len ≤ limit - stored then .ok len else .error e

namespace Fifo

def empty : Fifo α := ⟨[], [], []⟩

variable (grant : ℕ → ℕ → Except ε ℕ)

def respond (f : Fifo α) : Call α → Fifo α × Answer ε α
  | .write xs =>
    match grant f.queue.length xs.length with
    | .ok count =>
      ({ f with queue := f.queue ++ xs.take count, accepted := f.accepted ++ xs.take count },
        .wrote (.ok count))
    | .error e => (f, .wrote (.error e))
  | .read slice =>
    let count := min slice.length f.queue.length
    ({ f with queue := f.queue.drop count, delivered := f.delivered ++ f.queue.take count },
      .read (f.queue.take count ++ slice.drop count) (.ok count))

def step (f : Fifo α) (call : Call α) : Fifo α := (f.respond grant call).1

def answers (f : Fifo α) : List (Call α) → List (Answer ε α)
  | [] => []
  | call :: calls => (f.respond grant call).2 :: answers (f.step grant call) calls

variable {grant} {f : Fifo α}

/-- What was admitted is what was read, in the same order, and then what is in the queue. -/
def Conserves (f : Fifo α) : Prop := f.accepted = f.delivered ++ f.queue

theorem conserves_step (h : f.Conserves) (call : Call α) : (f.step grant call).Conserves := by
  unfold Conserves step at *
  cases call with
  | write xs =>
    simp only [respond]
    cases grant f.queue.length xs.length with
    | ok count => simp only [h, List.append_assoc]
    | error e => exact h
  | read slice => simp only [respond, h, List.append_assoc, List.take_append_drop]

theorem conserves_run (grant : ℕ → ℕ → Except ε ℕ) (calls : List (Call α)) :
    (run (step grant) (empty : Fifo α) calls).Conserves := by
  have hempty : (empty : Fifo α).Conserves := rfl
  exact run_preserves (I := Conserves) (fun _ call h => conserves_step h call) hempty calls

/-- What a run accepts and delivers can be told from the answers. -/
theorem run_eq_of_answers (grant : ℕ → ℕ → Except ε ℕ) (f : Fifo α) (calls : List (Call α)) :
    (run (step grant) f calls).accepted =
        f.accepted ++ acceptedOf calls (f.answers grant calls) ∧
      (run (step grant) f calls).delivered =
        f.delivered ++ deliveredOf (f.answers grant calls) := by
  induction calls generalizing f with
  | nil => simp [answers, acceptedOf, deliveredOf]
  | cons call calls ih =>
    obtain ⟨haccepted, hdelivered⟩ := ih (f.step grant call)
    rw [run_cons, haccepted, hdelivered, answers]
    unfold step
    cases call with
    | write xs =>
      simp only [respond]
      cases grant f.queue.length xs.length <;> simp [acceptedOf, deliveredOf]
    | read slice =>
      have hcount : (f.queue.take (min slice.length f.queue.length)).length =
          min slice.length f.queue.length := by
        rw [List.length_take]
        omega
      refine ⟨rfl, ?_⟩
      simp only [respond, deliveredOf]
      rw [List.take_left' hcount, List.append_assoc]

/-- What a queue has delivered is what it accepted, in the same order, but for what it keeps. -/
theorem acceptedOf_answers (grant : ℕ → ℕ → Except ε ℕ) (calls : List (Call α)) :
    acceptedOf calls ((empty : Fifo α).answers grant calls) =
      deliveredOf ((empty : Fifo α).answers grant calls) ++
        (run (step grant) (empty : Fifo α) calls).queue := by
  obtain ⟨haccepted, hdelivered⟩ := run_eq_of_answers grant (empty : Fifo α) calls
  have hconserves : (run (step grant) (empty : Fifo α) calls).accepted = _ :=
    conserves_run grant calls
  rwa [haccepted, hdelivered] at hconserves

theorem length_accepted_le_step (f : Fifo α) (call : Call α) :
    f.accepted.length ≤ (f.step grant call).accepted.length := by
  unfold step
  cases call with
  | write xs =>
    simp only [respond]
    cases grant f.queue.length xs.length with
    | ok count => simp
    | error e => exact le_refl _
  | read slice => exact le_refl _

theorem length_accepted_le_run (f : Fifo α) (calls : List (Call α)) :
    f.accepted.length ≤ (run (step grant) f calls).accepted.length := by
  induction calls generalizing f with
  | nil => exact le_refl _
  | cons call calls ih => exact (length_accepted_le_step f call).trans (ih _)

/-- A run that admits fewer elements than a bound admits fewer at each call. -/
theorem along_of_accepted_lt {bound : ℕ} {calls : List (Call α)}
    (h : (run (step grant) f calls).accepted.length < bound) :
    Along (step grant) (fun f call => (f.step grant call).accepted.length < bound) f calls := by
  induction calls generalizing f with
  | nil => trivial
  | cons call calls ih => exact ⟨(length_accepted_le_run _ calls).trans_lt h, ih h⟩

end Fifo

variable {σ : Type} {perform : σ → Call α → Option (σ × Answer ε α)}
  {grant : ℕ → ℕ → Except ε ℕ}

/-- The state after the calls and the answers to them. -/
def performAll (perform : σ → Call α → Option (σ × Answer ε α)) (s : σ) :
    List (Call α) → Option (σ × List (Answer ε α))
  | [] => some (s, [])
  | call :: calls => do
    let (s, answer) ← perform s call
    let (s, answers) ← performAll perform s calls
    return (s, answer :: answers)

/-- A run that fails fails with what comes before it as well. -/
theorem performAll_append_eq_none {s s' : σ} {before after : List (Call α)}
    {answers : List (Answer ε α)} (hbefore : performAll perform s before = some (s', answers))
    (hafter : performAll perform s' after = none) :
    performAll perform s (before ++ after) = none := by
  induction before generalizing s answers with
  | nil =>
    rw [performAll, Option.some.injEq, Prod.mk.injEq] at hbefore
    rw [List.nil_append, hbefore.1, hafter]
  | cons call before ih =>
    simp only [performAll, Option.bind_eq_bind, Option.bind_eq_some_iff, Prod.exists] at hbefore
    obtain ⟨next, answer, hcall, last, rest, hrest, hlast⟩ := hbefore
    obtain ⟨rfl, -⟩ := Prod.mk.inj (Option.some.inj hlast)
    simp only [List.cons_append, performAll, hcall, ih hrest, Option.bind_eq_bind,
      Option.bind_some, Option.bind_none]

/-- When each call is answered as the queue answers it, so is each list of calls. -/
theorem performAll_refines {R : σ → Fifo α → Prop} {ok : Fifo α → Call α → Prop}
    (hstep : ∀ s f call, R s f → ok f call →
      ∃ s', perform s call = some (s', (f.respond grant call).2) ∧ R s' (f.step grant call))
    {s : σ} {f : Fifo α} {calls : List (Call α)} (h : R s f)
    (hok : Along (Fifo.step grant) ok f calls) :
    ∃ s', performAll perform s calls = some (s', f.answers grant calls) ∧
      R s' (run (Fifo.step grant) f calls) := by
  induction calls generalizing s f with
  | nil => exact ⟨s, rfl, h⟩
  | cons call calls ih =>
    obtain ⟨s', hcall, hs'⟩ := hstep s f call h hok.1
    obtain ⟨s'', hcalls, hs''⟩ := ih hs' hok.2
    refine ⟨s'', ?_, hs''⟩
    simp only [performAll, hcall, hcalls, Option.bind_eq_bind, Option.bind_some, Fifo.answers]
    rfl

end GroundCore.Lib.RingQueue
