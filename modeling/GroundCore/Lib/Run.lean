import Mathlib.Data.List.Basic
import Mathlib.Data.List.Forall2

/-! Runs of a system whose operations are total functions on its state: the state after a list of
calls, a condition that every call of a list meets in the state it is made in, and the induction
from one call to a run. -/

namespace GroundCore.Lib

variable {σ α : Type*} {step : σ → α → σ}

/-- The state after the calls `ops`, made in order from `s`. -/
def run (step : σ → α → σ) (s : σ) (ops : List α) : σ := ops.foldl step s

@[simp] theorem run_nil (s : σ) : run step s [] = s := rfl

@[simp] theorem run_cons (s : σ) (a : α) (ops : List α) :
    run step s (a :: ops) = run step (step s a) ops := rfl

theorem run_append (s : σ) (first second : List α) :
    run step s (first ++ second) = run step (run step s first) second :=
  List.foldl_append

/-- Every call of `ops` meets `ok` in the state it is made in. -/
def Along (step : σ → α → σ) (ok : σ → α → Prop) : σ → List α → Prop
  | _, [] => True
  | s, a :: ops => ok s a ∧ Along step ok (step s a) ops

variable {ok : σ → α → Prop}

@[simp] theorem along_nil (s : σ) : Along step ok s [] := trivial

@[simp] theorem along_cons {s : σ} {a : α} {ops : List α} :
    Along step ok s (a :: ops) ↔ ok s a ∧ Along step ok (step s a) ops := Iff.rfl

theorem along_append {s : σ} {first second : List α} :
    Along step ok s (first ++ second) ↔
      Along step ok s first ∧ Along step ok (run step s first) second := by
  induction first generalizing s with
  | nil => simp
  | cons a first ih => simp [ih, and_assoc]

/-- A condition along a list of calls, read off at each place where the list can be cut. -/
theorem along_iff_split {s : σ} {ops : List α} :
    Along step ok s ops ↔
      ∀ before a after, ops = before ++ a :: after → ok (run step s before) a := by
  induction ops generalizing s with
  | nil => simp
  | cons b ops ih =>
    rw [along_cons, ih]
    constructor
    · rintro ⟨hb, hops⟩ before a after heq
      cases before with
      | nil =>
        obtain ⟨rfl, rfl⟩ := List.cons.inj heq
        exact hb
      | cons c before =>
        obtain ⟨rfl, rfl⟩ := List.cons.inj heq
        exact hops before a after rfl
    · intro h
      refine ⟨h [] b ops rfl, ?_⟩
      rintro before a after rfl
      exact h (b :: before) a after rfl

instance decidableAlong [∀ s a, Decidable (ok s a)] :
    (s : σ) → (ops : List α) → Decidable (Along step ok s ops)
  | _, [] => isTrue trivial
  | s, a :: ops =>
    have := decidableAlong (step s a) ops
    inferInstanceAs (Decidable (ok s a ∧ Along step ok (step s a) ops))

theorem along_of_forall {ok : α → Prop} {s : σ} {ops : List α} (h : ∀ a ∈ ops, ok a) :
    Along step (fun _ => ok) s ops := by
  induction ops generalizing s with
  | nil => trivial
  | cons a ops ih => exact ⟨h a List.mem_cons_self, ih fun b hb => h b (List.mem_cons_of_mem a hb)⟩

/-- A condition on the calls alone, along a list of them. -/
theorem along_iff_forall {ok : α → Prop} {s : σ} {ops : List α} :
    Along step (fun _ => ok) s ops ↔ ∀ a ∈ ops, ok a := by
  refine ⟨fun h a ha => ?_, along_of_forall⟩
  obtain ⟨before, after, rfl⟩ := List.append_of_mem ha
  exact along_iff_split.mp h before a after rfl

theorem along_and {other : σ → α → Prop} {s : σ} {ops : List α} :
    Along step (fun s a => ok s a ∧ other s a) s ops ↔
      Along step ok s ops ∧ Along step other s ops := by
  induction ops generalizing s with
  | nil => simp
  | cons a ops ih => simp [ih, and_and_and_comm]

/-- What every call that meets `ok` preserves, a run of such calls preserves. -/
theorem run_invariant {I : σ → Prop} (hstep : ∀ s a, I s → ok s a → I (step s a)) {s : σ}
    {ops : List α} (h : I s) (hok : Along step ok s ops) : I (run step s ops) := by
  induction ops generalizing s with
  | nil => exact h
  | cons a ops ih => exact ih (hstep s a h hok.1) hok.2

/-- In runs that keep `J`, when the calls that preserve `I` are exactly those that meet `ok`, a run
keeps `I` throughout exactly when all its calls meet `ok`. -/
theorem along_iff_invariant_of_along {I J : σ → Prop} {P : σ → α → Prop}
    (hkeep : ∀ s a, J s → P s a → J (step s a))
    (hstep : ∀ s a, J s → P s a → I s → (I (step s a) ↔ ok s a)) {s : σ} {ops : List α}
    (hJ : J s) (h : I s) (hpre : Along step P s ops) :
    (∀ n, I (run step s (ops.take n))) ↔ Along step ok s ops := by
  induction ops generalizing s with
  | nil => simpa using h
  | cons a ops ih =>
    have hJ' := hkeep s a hJ hpre.1
    have hiff := hstep s a hJ hpre.1 h
    constructor
    · intro hall
      have ha : I (step s a) := by simpa using hall 1
      exact ⟨hiff.mp ha, (ih hJ' ha hpre.2).mp fun n => by simpa using hall (n + 1)⟩
    · rintro ⟨ha, hops⟩ n
      cases n with
      | zero => exact h
      | succ n => simpa using (ih hJ' (hiff.mpr ha) hpre.2).mpr hops n

/-- When the calls that preserve `I` are exactly those that meet `ok`, a run keeps `I` throughout
exactly when all its calls meet `ok`. -/
theorem along_iff_invariant {I : σ → Prop} (hstep : ∀ s a, I s → (I (step s a) ↔ ok s a)) {s : σ}
    {ops : List α} (h : I s) : (∀ n, I (run step s (ops.take n))) ↔ Along step ok s ops :=
  along_iff_invariant_of_along (J := fun _ => True) (P := fun _ _ => True)
    (fun _ _ _ _ => trivial) (fun s a _ _ => hstep s a) trivial h
    (along_of_forall fun _ _ => trivial)

/-- When the calls that meet `ok` preserve `I`, and no other call leads from it to a state with `Q`,
which `I` implies, a run keeps `Q` throughout exactly when all its calls meet `ok`. -/
theorem along_iff_of_imp {I Q : σ → Prop} {P : σ → α → Prop} (himp : ∀ s, I s → Q s)
    (hkeep : ∀ s a, I s → P s a → ok s a → I (step s a))
    (hforce : ∀ s a, I s → P s a → Q (step s a) → ok s a) {s : σ} {ops : List α} (h : I s)
    (hpre : Along step P s ops) :
    (∀ n, Q (run step s (ops.take n))) ↔ Along step ok s ops := by
  induction ops generalizing s with
  | nil => simpa using himp s h
  | cons a ops ih =>
    constructor
    · intro hall
      have ha : ok s a := hforce s a h hpre.1 (by simpa using hall 1)
      exact ⟨ha, (ih (hkeep s a h hpre.1 ha) hpre.2).mp fun n => by simpa using hall (n + 1)⟩
    · rintro ⟨ha, hops⟩ n
      cases n with
      | zero => exact himp s h
      | succ n => simpa using (ih (hkeep s a h hpre.1 ha) hpre.2).mpr hops n

/-- What every call preserves, every run preserves. -/
theorem run_preserves {I : σ → Prop} (hstep : ∀ s a, I s → I (step s a)) {s : σ} (h : I s)
    (ops : List α) : I (run step s ops) := by
  induction ops generalizing s with
  | nil => exact h
  | cons a ops ih => exact ih (hstep s a h)

/-- Calls that meet `ok` in the states of an invariant, which they preserve, meet what follows from
it there. -/
theorem along_imp {I : σ → Prop} {other : σ → α → Prop}
    (hstep : ∀ s a, I s → ok s a → I (step s a)) (himp : ∀ s a, I s → ok s a → other s a) {s : σ}
    {ops : List α} (h : I s) (hok : Along step ok s ops) : Along step other s ops := by
  induction ops generalizing s with
  | nil => trivial
  | cons a ops ih => exact ⟨himp s a h hok.1, ih (hstep s a h hok.1) hok.2⟩

/-- Two conditions on calls that agree in the states of an invariant, which the calls that meet
the first preserve, are met by the same runs. -/
theorem along_congr {I : σ → Prop} {other : σ → α → Prop}
    (hiff : ∀ s a, I s → (ok s a ↔ other s a)) (hstep : ∀ s a, I s → ok s a → I (step s a)) {s : σ}
    {ops : List α} (h : I s) : Along step ok s ops ↔ Along step other s ops :=
  ⟨along_imp hstep (fun s a h => (hiff s a h).mp) h,
    along_imp (fun s a h hother => hstep s a h ((hiff s a h).mpr hother))
      (fun s a h => (hiff s a h).mpr) h⟩

variable (step ok) in
/-- A run makes no call of some kind, or there is the last one of that kind. -/
theorem along_not_or_last (s : σ) (ops : List α) :
    Along step (fun s a => ¬ ok s a) s ops ∨
      ∃ before a after, ops = before ++ a :: after ∧ ok (run step s before) a ∧
        Along step (fun s a => ¬ ok s a) (step (run step s before) a) after := by
  induction ops generalizing s with
  | nil => exact .inl trivial
  | cons a ops ih =>
    rcases ih (step s a) with hnone | ⟨before, b, after, rfl, hb, hafter⟩
    · by_cases ha : ok s a
      · exact .inr ⟨[], a, ops, rfl, ha, hnone⟩
      · exact .inl ⟨ha, hnone⟩
    · exact .inr ⟨a :: before, b, after, rfl, hb, hafter⟩

/-- Two runs in lockstep: what related calls keep between two states, lists of such calls keep. -/
theorem run_related {τ β : Type*} {step' : τ → β → τ} {R : σ → τ → Prop} {S : α → β → Prop}
    (hstep : ∀ s t a b, R s t → S a b → R (step s a) (step' t b)) {s : σ} {t : τ} (h : R s t)
    {ops : List α} {ops' : List β} (hops : List.Forall₂ S ops ops') :
    R (run step s ops) (run step' t ops') := by
  induction hops generalizing s t with
  | nil => exact h
  | cons hab _ ih => exact ih (hstep _ _ _ _ h hab)

end GroundCore.Lib
