import Mathlib.Data.Nat.Notation

/-! Read-write locks, as the number of the readers and whether there is a writer, and calls that
acquire them.  A call stops at the first acquisition that is not possible.  When it starts with all
locks free, the guards that are in its way are its own. -/

namespace GroundCore.Lib

structure RwLock where
  readers : ℕ
  writer : Bool
  deriving DecidableEq

namespace RwLock

def free : RwLock := ⟨0, false⟩

/-- A reader is let in while there is no writer. -/
def read? (lock : RwLock) : Option RwLock :=
  if lock.writer then none else some { lock with readers := lock.readers + 1 }

/-- A writer is let in while there is nobody. -/
def write? (lock : RwLock) : Option RwLock :=
  if lock.writer || lock.readers ≠ 0 then none else some { lock with writer := true }

def dropRead (lock : RwLock) : RwLock := { lock with readers := lock.readers - 1 }

def dropWrite (lock : RwLock) : RwLock := { lock with writer := false }

end RwLock

/-- A call that acquires the locks `L`; its error is the lock that it waits for forever. -/
abbrev Guarded (L α : Type) := StateT (L → RwLock) (Except L) α

namespace Guarded

section

variable {L : Type} [DecidableEq L]

def acquire (take : RwLock → Option RwLock) (lock : L) : Guarded L Unit := fun locks =>
  match take (locks lock) with
  | none => .error lock
  | some taken => .ok ((), fun l => if l = lock then taken else locks l)

def read (lock : L) : Guarded L Unit := acquire RwLock.read? lock

def write (lock : L) : Guarded L Unit := acquire RwLock.write? lock

def release (drop : RwLock → RwLock) (lock : L) : Guarded L Unit := fun locks =>
  .ok ((), fun l => if l = lock then drop (locks lock) else locks l)

def dropRead (lock : L) : Guarded L Unit := release RwLock.dropRead lock

def dropWrite (lock : L) : Guarded L Unit := release RwLock.dropWrite lock

/-- A guard for reading keeps every writer out. -/
theorem write_of_readers {lock : L} {locks : L → RwLock} (h : (locks lock).readers ≠ 0) :
    write lock locks = .error lock := by
  simp [write, acquire, RwLock.write?, h]

end

variable {L α β : Type}

/-- A call that returns has come through its first part. -/
theorem bind_eq_ok {call : Guarded L α} {next : α → Guarded L β} {locks locks' : L → RwLock} {b : β}
    (h : (call >>= next) locks = .ok (b, locks')) :
    ∃ a mid, call locks = .ok (a, mid) ∧ next a mid = .ok (b, locks') := by
  cases hcall : call locks with
  | error lock =>
    have : (call >>= next) locks = .error lock := by simp [bind, StateT.bind, hcall, Except.bind]
    rw [this] at h
    contradiction
  | ok result =>
    refine ⟨result.1, result.2, rfl, ?_⟩
    have : (call >>= next) locks = next result.1 result.2 := by
      simp [bind, StateT.bind, hcall, Except.bind]
    rw [← this, h]

/-- Run alone, the call comes to an acquisition that a guard of its own blocks. -/
def BlocksItself (call : Guarded L α) : Prop := ∃ lock, call (fun _ => .free) = .error lock

/-- Run alone, the call returns `a` with all locks free again. -/
def Returns (call : Guarded L α) (a : α) : Prop :=
  call (fun _ => .free) = .ok (a, fun _ => .free)

/-- What the call returns when it is run alone. -/
def result? (call : Guarded L α) : Option α :=
  match call (fun _ => .free) with
  | .ok (a, _) => some a
  | .error _ => none

theorem eq_ok_of_result? {call : Guarded L α} {a : α} (h : call.result? = some a) :
    ∃ locks, call (fun _ => .free) = .ok (a, locks) := by
  unfold result? at h
  split at h
  · next result hrun =>
    cases h
    exact ⟨_, hrun⟩
  · contradiction

theorem returns_of_free {call : Guarded L α} {a : α} {locks : L → RwLock}
    (h : call (fun _ => .free) = .ok (a, locks)) (hfree : ∀ lock, locks lock = .free) :
    Returns call a := by
  rw [Returns, h, funext hfree]

theorem Returns.not_blocksItself {call : Guarded L α} {a : α} (h : Returns call a) :
    ¬ BlocksItself call := by
  rintro ⟨lock, hlock⟩
  rw [Returns, hlock] at h
  contradiction

theorem Returns.result? {call : Guarded L α} {a : α} (h : Returns call a) :
    call.result? = some a := by
  unfold Guarded.result?
  rw [h]

end Guarded

end GroundCore.Lib
