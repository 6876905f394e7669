import Mathlib.Algebra.Order.Ring.Int
import GroundCore.Lib.Run
import GroundCore.Uplink.Scheduler

/-! When the scheduled transmissions exclude each other and stay inside their windows.  The end of
a window is never looked at, and the commands that an override compares priorities with are
searched among the waiting ones, of which there are none. -/

namespace GroundCore.Uplink

open Lib

variable {F64 F32 : Type}

namespace ScheduledTransmission

variable {x y : ScheduledTransmission F64}

def finish (x : ScheduledTransmission F64) : DateTime := x.transmissionTime + x.estimatedDuration

/-- One of the transmissions ends before the other starts. -/
def Disjoint (x y : ScheduledTransmission F64) : Prop :=
  x.finish ≤ y.transmissionTime ∨ y.finish ≤ x.transmissionTime

def InsideWindow (x : ScheduledTransmission F64) : Prop :=
  x.window.start ≤ x.transmissionTime ∧ x.finish ≤ x.window.end

theorem overlap_eq_false_iff : x.overlap y = false ↔ x.Disjoint y := by
  simp only [overlap, Disjoint, finish, Bool.and_eq_false_iff, decide_eq_false_iff_not, Int.not_lt]
  exact or_comm

end ScheduledTransmission

theorem TransmissionWindow.start_le_transmissionTime (window : TransmissionWindow F64)
    (now : DateTime) : window.start ≤ window.transmissionTime now := by
  unfold transmissionTime
  split
  · next h =>
    simp only [contains, Bool.and_eq_true, decide_eq_true_eq] at h
    exact h.1
  · exact Int.le_refl _

namespace TransmissionScheduler

open ScheduledTransmission

/-- The scheduled transmissions are pairwise disjoint, and each lies inside its window. -/
structure Exclusive (s : TransmissionScheduler F64) : Prop where
  disjoint : s.scheduled.PairwiseValues Disjoint
  inside : ∀ id x, s.scheduled.get? id = some x → x.InsideWindow

variable {s : TransmissionScheduler F64}

theorem exclusive_new (strategy : ConflictStrategy) :
    (new strategy : TransmissionScheduler F64).Exclusive :=
  ⟨HashMap.pairwiseValues_empty _, fun id x h => by rw [new, HashMap.get?_empty] at h; contradiction⟩

theorem hasConflict_eq_false_iff {x : ScheduledTransmission F64} :
    s.hasConflict x = false ↔ ∀ id y, s.scheduled.get? id = some y → x.Disjoint y := by
  rw [hasConflict, List.any_eq_false]
  constructor
  · intro h id y hget
    exact overlap_eq_false_iff.mp (Bool.not_eq_true _ ▸ h y (HashMap.mem_values.mpr ⟨id, hget⟩))
  · intro h y hmem
    obtain ⟨id, hget⟩ := HashMap.mem_values.mp hmem
    rw [overlap_eq_false_iff.mpr (h id y hget)]
    decide

/-- Without waiting commands, an override only looks whether the command itself is scheduled. -/
theorem canOverride_iff (hpending : s.pending = []) (command : Command) :
    s.canOverride command = true ↔ s.scheduled.get? command.id = none := by
  simp [canOverride, hpending]

variable [FloatOps F64 F32]

/-- A call of `schedule` that finds no window, or a conflict that its strategy refuses, changes
nothing; every other stores the transmission. -/
theorem schedule_cases (hpending : s.pending = []) (command : Command)
    (ord : IterOrder (TransmissionWindow F64)) (now : DateTime) (later : PassId → DateTime) :
    (s.suitableWindow ord now later = none ∧ (s.schedule command ord now later).1 = s) ∨
    ∃ window, s.suitableWindow ord now later = some window ∧
      ((s.hasConflict (ofCommand command window now) = true ∧
          (s.conflictStrategy ≠ .priority ∨ (s.scheduled.get? command.id).isSome) ∧
          (s.schedule command ord now later).1 = s) ∨
        ((s.hasConflict (ofCommand command window now) = false ∨
            s.conflictStrategy = .priority ∧ s.scheduled.get? command.id = none) ∧
          (s.schedule command ord now later).1 =
            { s with scheduled := s.scheduled.insert command.id (ofCommand command window now) })) := by
  unfold schedule
  cases hwindow : s.suitableWindow ord now later with
  | none => exact .inl ⟨rfl, rfl⟩
  | some window =>
    refine .inr ⟨window, rfl, ?_⟩
    cases hconflict : s.hasConflict (ofCommand command window now) with
    | false => exact .inr ⟨.inl rfl, by simp [hconflict]⟩
    | true =>
      cases hstrategy : s.conflictStrategy with
      | priority =>
        cases hget : s.scheduled.get? command.id with
        | none =>
          have hover := (canOverride_iff hpending command).mpr hget
          exact .inr ⟨.inr ⟨rfl, rfl⟩, by simp [hconflict, hover]⟩
        | some x =>
          have hover : s.canOverride command = false := by
            rw [← Bool.not_eq_true, canOverride_iff hpending, hget]
            exact nofun
          exact .inl ⟨rfl, .inr rfl, by simp [hconflict, hover]⟩
      | fcfs => exact .inl ⟨rfl, .inl nofun, by simp [hconflict]⟩
      | reject => exact .inl ⟨rfl, .inl nofun, by simp [hconflict]⟩

/-- A command whose transmission runs into another is refused: its strategy is not `Priority`, or
it is scheduled already.  One whose transmission runs into none ends before its window does. -/
def Respects (s : TransmissionScheduler F64) : SchedulerCall F64 → Prop
  | .schedule command ord now later => ∀ window, s.suitableWindow ord now later = some window →
      if s.hasConflict (ofCommand command window now) then
        s.conflictStrategy ≠ .priority ∨ (s.scheduled.get? command.id).isSome
      else
        window.transmissionTime now + window.estimatedDuration command.payload ≤ window.end
  | .addWindow _ | .removeWindow _ | .removeScheduled _ => True

/-- The transmissions after one is stored exclude each other exactly when the new one ends inside
its window and is disjoint from those of the other commands. -/
theorem exclusive_insert_iff (hs : s.Exclusive) (command : Command)
    (window : TransmissionWindow F64) (now : DateTime) :
    { s with scheduled :=
        s.scheduled.insert command.id (ofCommand command window now) }.Exclusive ↔
      (∀ id y, id ≠ command.id → s.scheduled.get? id = some y →
        (ofCommand command window now).Disjoint y) ∧
      window.transmissionTime now + window.estimatedDuration command.payload ≤ window.end := by
  constructor
  · intro h
    refine ⟨(hs.disjoint.insert_iff (fun _ _ => Or.symm) _ _).mp h.disjoint, ?_⟩
    exact (h.inside command.id _ (by rw [HashMap.get?_insert, if_pos rfl])).2
  · rintro ⟨hdisjoint, hends⟩
    refine ⟨(hs.disjoint.insert_iff (fun _ _ => Or.symm) _ _).mpr hdisjoint,
      fun id y hget => ?_⟩
    rw [HashMap.get?_insert] at hget
    split at hget
    · obtain rfl := Option.some.inj hget
      exact ⟨window.start_le_transmissionTime now, hends⟩
    · exact hs.inside id y hget

theorem exclusive_step_iff (hpending : s.pending = []) (hs : s.Exclusive)
    (call : SchedulerCall F64) : (s.step call).Exclusive ↔ s.Respects call := by
  cases call with
  | addWindow window => exact iff_of_true ⟨hs.disjoint, hs.inside⟩ trivial
  | removeWindow passId => exact iff_of_true ⟨hs.disjoint, hs.inside⟩ trivial
  | removeScheduled commandId =>
    refine iff_of_true ⟨hs.disjoint.erase commandId, fun id x hget => ?_⟩ trivial
    simp only [step, removeScheduled, HashMap.get?_erase] at hget
    split at hget
    · contradiction
    · exact hs.inside id x hget
  | schedule command ord now later =>
    simp only [step, Respects]
    rcases schedule_cases hpending command ord now later with ⟨hnone, hrun⟩ |
      ⟨window, hwindow, ⟨hconflict, hrefused, hrun⟩ | ⟨hstored, hrun⟩⟩
    · rw [hrun, hnone]
      refine iff_of_true hs fun window' hwindow' => ?_
      exact absurd hwindow'.symm (Option.some_ne_none window')
    · rw [hrun]
      refine iff_of_true hs fun window' hwindow' => ?_
      obtain rfl := Option.some.inj (hwindow.symm.trans hwindow')
      rw [if_pos hconflict]
      exact hrefused
    · rw [hrun, exclusive_insert_iff hs, hwindow]
      simp only [Option.some.injEq, forall_eq']
      cases hconflict : s.hasConflict (ofCommand command window now) with
      | false =>
        have hfree := hasConflict_eq_false_iff.mp hconflict
        rw [if_neg Bool.false_ne_true]
        exact and_iff_right fun id y _ => hfree id y
      | true =>
        obtain ⟨hpriority, hget⟩ := hstored.resolve_left (by rw [hconflict]; decide)
        rw [if_pos rfl, hget]
        -- The transmission in the way is one of another command, as this one has none.
        refine iff_of_false (fun h => ?_) (by simp [hpriority])
        have hfree : s.hasConflict (ofCommand command window now) = false :=
          hasConflict_eq_false_iff.mpr fun id y hy =>
            h.1 id y (by rintro rfl; rw [hget] at hy; contradiction) hy
        rw [hfree] at hconflict
        contradiction

theorem pending_step (call : SchedulerCall F64) (hpending : s.pending = []) :
    (s.step call).pending = [] := by
  cases call with
  | schedule command ord now later =>
    rcases schedule_cases hpending command ord now later with ⟨-, hrun⟩ |
      ⟨window, -, ⟨-, -, hrun⟩ | ⟨-, hrun⟩⟩ <;> rw [step, hrun] <;> exact hpending
  | _ => exact hpending

/-- The schedule stays exclusive throughout a run exactly when every call respects it. -/
theorem exclusive_iff_along_respects (strategy : ConflictStrategy)
    (calls : List (SchedulerCall F64)) :
    (∀ n, (run step (new strategy) (calls.take n)).Exclusive) ↔
      Along step Respects (new strategy) calls :=
  along_iff_invariant_of_along (I := Exclusive) (J := fun s => s.pending = []) (P := fun _ _ => True)
    (fun _ call hpending _ => pending_step call hpending)
    (fun _ call hpending _ hs => exclusive_step_iff hpending hs call) rfl (exclusive_new strategy)
    (along_of_forall fun _ _ => trivial)

end TransmissionScheduler

/-- A window from 0 to `end` in which a byte takes one second. -/
def windowUntil («end» : DateTime) : TransmissionWindow ℚ :=
  { passId := "pass", start := 0, «end», maxRate := 1, powerBudget := 1 }

/-- Two commands of low priority, scheduled at the start of the window. -/
def twoCommands («end» : DateTime) : List (SchedulerCall ℚ) :=
  [.addWindow (windowUntil «end»), .schedule (commandOf 1 .low) (.stored _) 0 fun _ => 0,
   .schedule (commandOf 2 .low) (.stored _) 0 fun _ => 0]

open TransmissionScheduler in
/-- Under every strategy a transmission outlasts its window, and under `Priority` two overlap. -/
theorem twoCommands_not_exclusive :
    letI := FloatOps.exact id id
    (∀ strategy, ¬ (run step (new strategy) (twoCommands 500000000)).Exclusive) ∧
      ¬ (run step (new .priority) (twoCommands 10000000000)).Exclusive := by
  let _ := FloatOps.exact id id
  constructor
  · intro strategy h
    have hrun : ((run step (new strategy) (twoCommands 500000000)).scheduled.get? 1).map
        (fun x => (x.finish, x.window.end)) = some (1000000000, 500000000) := by
      cases strategy <;> decide +kernel
    obtain ⟨x, hget, hx⟩ := Option.map_eq_some_iff.mp hrun
    obtain ⟨hfinish, hend⟩ := Prod.mk.inj hx
    have hends := (h.inside 1 x hget).2
    rw [hfinish, hend] at hends
    contradiction
  · intro h
    have hrun : ∀ id ∈ [1, 2],
        ((run step (new .priority) (twoCommands 10000000000)).scheduled.get? id).map
          (fun x => (x.transmissionTime, x.finish)) = some (0, 1000000000) := by
      decide +kernel
    obtain ⟨x, hx, htimes⟩ := Option.map_eq_some_iff.mp (hrun 1 (by decide))
    obtain ⟨y, hy, htimes'⟩ := Option.map_eq_some_iff.mp (hrun 2 (by decide))
    obtain ⟨hstart, hfinish⟩ := Prod.mk.inj htimes
    obtain ⟨hstart', hfinish'⟩ := Prod.mk.inj htimes'
    have hdisjoint := h.disjoint 1 2 x y (by decide) hx hy
    rw [ScheduledTransmission.Disjoint, hstart, hfinish, hstart', hfinish'] at hdisjoint
    exact absurd hdisjoint (by decide)

end GroundCore.Uplink
