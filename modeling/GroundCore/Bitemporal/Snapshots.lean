import GroundCore.Bitemporal.Log
import GroundCore.Lib.Buffer
import GroundCore.Lib.FiniteFloat

/-! Which snapshots of the log are held.  While the clock does not go back, the snapshots that are
held are the newest ones: room and age drop them from the front alone. -/

namespace GroundCore.Bitemporal

open Lib Buffer FloatOps

variable {Value : Type}

structure SnapshotManager (Value : Type) where
  snapshots : List (LogSnapshot Value)
  maxSnapshots : ℕ
  snapshotIntervalSec : UInt64
  lastSnapshotTime : Option DateTime

namespace SnapshotManager

def new (maxSnapshots : ℕ) (snapshotIntervalSec : UInt64) : SnapshotManager Value :=
  { snapshots := [], maxSnapshots, snapshotIntervalSec, lastSnapshotTime := none }

/-- The interval as an `i64`. -/
def interval (m : SnapshotManager Value) : ℤ := m.snapshotIntervalSec.toInt64.toInt

def shouldSnapshot (m : SnapshotManager Value) (now : DateTime) : Bool :=
  match m.lastSnapshotTime with
  | some last => m.interval ≤ Duration.numSeconds (now - last)
  | none => true

def addSnapshot (m : SnapshotManager Value) (snapshot : LogSnapshot Value) :
    SnapshotManager Value :=
  { m with snapshots := trim m.maxSnapshots (m.snapshots ++ [snapshot]) }

/-- The clock is read before the snapshot is taken and after it is added. -/
def snapshotIfNeeded (sha256 : List UInt8 → List UInt8) (m : SnapshotManager Value)
    (inputs : SnapshotInputs) (checkedAt addedAt : DateTime) (entries : List (LogEntry Value)) :
    SnapshotManager Value × Option (LogSnapshot Value) :=
  if m.shouldSnapshot checkedAt then
    let snapshot := LogSnapshot.new sha256 inputs entries
    ({ m.addSnapshot snapshot with lastSnapshotTime := some addedAt }, some snapshot)
  else (m, none)

def latest (m : SnapshotManager Value) : Option (LogSnapshot Value) := m.snapshots.getLast?

/-- The whole milliseconds between the capture and a time. -/
def distance (time : DateTime) (s : LogSnapshot Value) : ℤ :=
  |(s.capturedAt.time - time).tdiv 1000000|

/-- Of snapshots at one distance the first. -/
def findClosest (m : SnapshotManager Value) (time : DateTime) : Option (LogSnapshot Value) :=
  pick (fun s t => decide (distance time s < distance time t)) m.snapshots

def pruneOlderThan (m : SnapshotManager Value) (ageSec : ℤ) (now : DateTime) :
    SnapshotManager Value :=
  let cutoff := now - Duration.seconds ageSec
  { m with snapshots := m.snapshots.filter fun s => decide (cutoff < s.capturedAt.time) }

end SnapshotManager

inductive SnapshotCall (Value : Type)
  | snapshotIfNeeded (inputs : SnapshotInputs) (checkedAt addedAt : DateTime)
      (entries : List (LogEntry Value))
  | pruneOlderThan (ageSec : ℤ) (now : DateTime)

namespace SnapshotCall

/-- The clock of the call is not behind `now` and does not go back during the call. -/
def After (now : DateTime) : SnapshotCall Value → Prop
  | .snapshotIfNeeded inputs checkedAt addedAt _ =>
    now ≤ checkedAt ∧ checkedAt ≤ inputs.capturedAt.time ∧ inputs.capturedAt.time ≤ addedAt
  | .pruneOlderThan _ time => now ≤ time

/-- The last reading of the clock. -/
def finish : SnapshotCall Value → DateTime
  | .snapshotIfNeeded _ _ addedAt _ => addedAt
  | .pruneOlderThan _ time => time

/-- Where the call prunes, a snapshot captured at the time is new enough to stay. -/
def Spares (captured : DateTime) : SnapshotCall Value → Prop
  | .snapshotIfNeeded _ _ _ _ => True
  | .pruneOlderThan ageSec time => time - Duration.seconds ageSec < captured

end SnapshotCall

/-- The clock does not go back over the calls. -/
def Clocked : DateTime → List (SnapshotCall Value) → Prop
  | _, [] => True
  | now, call :: calls => call.After now ∧ Clocked call.finish calls

/-- The last reading of the clock over the calls. -/
def lastReading : DateTime → List (SnapshotCall Value) → DateTime
  | now, [] => now
  | _, call :: calls => lastReading call.finish calls

theorem clocked_append {now : DateTime} {first second : List (SnapshotCall Value)} :
    Clocked now (first ++ second) ↔ Clocked now first ∧ Clocked (lastReading now first) second := by
  induction first generalizing now with
  | nil => exact ⟨fun h => ⟨trivial, h⟩, And.right⟩
  | cons call first ih => simp only [List.cons_append, Clocked, lastReading, ih, and_assoc]

/-- The manager with the snapshots that were taken. -/
structure SnapshotSession (Value : Type) where
  manager : SnapshotManager Value
  taken : List (LogSnapshot Value)

namespace SnapshotSession

variable (sha256 : List UInt8 → List UInt8)

def new (maxSnapshots : ℕ) (snapshotIntervalSec : UInt64) : SnapshotSession Value :=
  ⟨.new maxSnapshots snapshotIntervalSec, []⟩

def step (s : SnapshotSession Value) : SnapshotCall Value → SnapshotSession Value
  | .snapshotIfNeeded inputs checkedAt addedAt entries =>
    let (manager, snapshot) :=
      s.manager.snapshotIfNeeded sha256 inputs checkedAt addedAt entries
    ⟨manager, s.taken ++ snapshot.toList⟩
  | .pruneOlderThan ageSec now => ⟨s.manager.pruneOlderThan ageSec now, s.taken⟩

variable {sha256} {s : SnapshotSession Value} {now : DateTime} {gap : ℤ}

theorem step_snapshot {inputs : SnapshotInputs} {checkedAt addedAt : DateTime}
    {entries : List (LogEntry Value)} (hdue : s.manager.shouldSnapshot checkedAt = true) :
    s.step sha256 (.snapshotIfNeeded inputs checkedAt addedAt entries) =
      ⟨{ s.manager.addSnapshot (.new sha256 inputs entries) with lastSnapshotTime := some addedAt },
        s.taken ++ [.new sha256 inputs entries]⟩ := by
  simp [step, SnapshotManager.snapshotIfNeeded, hdue]

theorem step_not_due {inputs : SnapshotInputs} {checkedAt addedAt : DateTime}
    {entries : List (LogEntry Value)} (hdue : s.manager.shouldSnapshot checkedAt = false) :
    s.step sha256 (.snapshotIfNeeded inputs checkedAt addedAt entries) = s := by
  simp [step, SnapshotManager.snapshotIfNeeded, hdue]

/-- The snapshots taken so far lie a gap apart and before the last reading of the clock, and those
held are the last of them. -/
structure Spaced (gap : ℤ) (now : DateTime) (s : SnapshotSession Value) : Prop where
  interval : s.manager.interval = gap
  last : ∀ snap ∈ s.taken, ∃ last, s.manager.lastSnapshotTime = some last ∧
    snap.capturedAt.time ≤ last ∧ last ≤ now
  apart : s.taken.Pairwise fun a b =>
    a.capturedAt.time + Duration.seconds gap ≤ b.capturedAt.time ∧
      a.capturedAt.time ≤ b.capturedAt.time
  newest : s.manager.snapshots <:+ s.taken

theorem Spaced.sorted (h : Spaced gap now s) :
    s.taken.Pairwise fun a b => a.capturedAt.time ≤ b.capturedAt.time :=
  h.apart.imp And.right

/-- Pruning drops from the front. -/
theorem Spaced.filter_suffix (h : Spaced gap now s) {l : List (LogSnapshot Value)}
    (hl : l <:+ s.taken) (cutoff : DateTime) :
    l.filter (fun s => decide (cutoff < s.capturedAt.time)) <:+ l := by
  refine suffix_filter ((h.sorted.sublist hl.sublist).imp fun hle hkept => ?_)
  simp only [decide_eq_true_eq] at hkept ⊢
  exact lt_of_lt_of_le hkept hle

theorem Spaced.step (h : Spaced gap now s) {call : SnapshotCall Value} (hafter : call.After now) :
    Spaced gap call.finish (s.step sha256 call) := by
  cases call with
  | snapshotIfNeeded inputs checkedAt addedAt entries =>
    obtain ⟨hchecked, hcaptured, hadded⟩ := hafter
    cases hdue : s.manager.shouldSnapshot checkedAt with
    | false =>
      rw [step_not_due hdue]
      refine ⟨h.interval, fun snap hsnap => ?_, h.apart, h.newest⟩
      obtain ⟨last, hlast, hle, hnow⟩ := h.last snap hsnap
      exact ⟨last, hlast, hle, hnow.trans (hchecked.trans (hcaptured.trans hadded))⟩
    | true =>
      rw [step_snapshot hdue]
      refine ⟨h.interval, fun snap hsnap => ⟨addedAt, rfl, ?_, le_rfl⟩, ?_, ?_⟩
      · rcases List.mem_append.mp hsnap with hold | hnew
        · obtain ⟨last, -, hle, hnow⟩ := h.last snap hold
          exact hle.trans (hnow.trans (hchecked.trans (hcaptured.trans hadded)))
        · rw [List.mem_singleton.mp hnew]
          exact hadded
      · refine List.pairwise_append.mpr ⟨h.apart, List.pairwise_singleton _ _, ?_⟩
        rintro a ha b hb
        rw [List.mem_singleton.mp hb]
        obtain ⟨last, hlast, hle, hnow⟩ := h.last a ha
        have helapsed : gap ≤ Duration.numSeconds (checkedAt - last) := by
          simpa [SnapshotManager.shouldSnapshot, hlast, h.interval] using hdue
        have hgap : Duration.seconds gap ≤ checkedAt - last :=
          (mul_le_mul_of_nonneg_right helapsed (by norm_num)).trans
            (Duration.seconds_numSeconds_le (sub_nonneg.mpr (hnow.trans hchecked)))
        have hcapture : (LogSnapshot.new sha256 inputs entries).capturedAt = inputs.capturedAt := rfl
        rw [hcapture]
        constructor <;> linarith
      · show trim _ (s.manager.snapshots ++ [_]) <:+ _
        rw [trim_eq_rtake]
        refine (List.drop_suffix _ _).trans ?_
        obtain ⟨front, hfront⟩ := h.newest
        exact ⟨front, by rw [← hfront, List.append_assoc]⟩
  | pruneOlderThan ageSec time =>
    refine ⟨h.interval, fun snap hsnap => ?_, h.apart, ?_⟩
    · obtain ⟨last, hlast, hle, hnow⟩ := h.last snap hsnap
      exact ⟨last, hlast, hle, le_trans hnow hafter⟩
    · exact (h.filter_suffix h.newest _).trans h.newest

theorem spaced_run (h : Spaced gap now s) {calls : List (SnapshotCall Value)}
    (hclock : Clocked now calls) : Spaced gap (lastReading now calls) (run (step sha256) s calls) := by
  induction calls generalizing now s with
  | nil => exact h
  | cons call calls ih => exact ih (h.step hclock.1) hclock.2

theorem spaced_new (maxSnapshots : ℕ) (snapshotIntervalSec : UInt64) (now : DateTime) :
    Spaced snapshotIntervalSec.toInt64.toInt now
      (new maxSnapshots snapshotIntervalSec : SnapshotSession Value) :=
  ⟨rfl, nofun, .nil, List.nil_suffix⟩

/-! ### The snapshot of a call -/

/-- Either the snapshot is held with all that were taken since, or only some of those are. -/
structure Fate (snapshot : LogSnapshot Value) (since : List (LogSnapshot Value)) (survives : Prop)
    (s : SnapshotSession Value) : Prop where
  held : survives → ∃ front, s.manager.snapshots = front ++ snapshot :: since
  dropped : ¬survives → s.manager.snapshots <:+ since

variable {snapshot : LogSnapshot Value} {old since : List (LogSnapshot Value)} {kept : Prop}
  {maxSnapshots : ℕ}

theorem Fate.snapshotIfNeeded
    (h : Fate snapshot since (since.length < maxSnapshots ∧ kept) s)
    (hmax : s.manager.maxSnapshots = maxSnapshots) {inputs : SnapshotInputs}
    {checkedAt addedAt : DateTime} {entries : List (LogEntry Value)}
    (hdue : s.manager.shouldSnapshot checkedAt = true) :
    let since' := since ++ [LogSnapshot.new sha256 inputs entries]
    Fate snapshot since' (since'.length < maxSnapshots ∧ kept)
      (s.step sha256 (.snapshotIfNeeded inputs checkedAt addedAt entries)) := by
  intro since'
  have hlength : since'.length = since.length + 1 := by simp [since']
  have hsnapshots : (s.step sha256
      (.snapshotIfNeeded inputs checkedAt addedAt entries)).manager.snapshots =
      (s.manager.snapshots ++ [LogSnapshot.new sha256 inputs entries]).rtake maxSnapshots := by
    rw [step_snapshot hdue, ← hmax, ← trim_eq_rtake]
    rfl
  by_cases hbefore : since.length < maxSnapshots ∧ kept
  · obtain ⟨front, hfront⟩ := h.held hbefore
    have happend : s.manager.snapshots ++ [LogSnapshot.new sha256 inputs entries] =
        front ++ snapshot :: since' := by
      rw [hfront, List.append_assoc]
      rfl
    rw [happend] at hsnapshots
    constructor
    · intro hafter
      refine ⟨front.rtake (maxSnapshots - (snapshot :: since').length), ?_⟩
      rw [hsnapshots, rtake_append_of_length_le (by rw [List.length_cons]; omega)]
    · intro hafter
      have hfull : maxSnapshots ≤ since'.length := by
        by_contra hroom
        exact hafter ⟨not_le.mp hroom, hbefore.2⟩
      rw [hsnapshots, ← List.singleton_append, ← List.append_assoc, rtake_append_of_le_length hfull]
      exact List.drop_suffix _ _
  · constructor
    · intro hafter
      exact absurd ⟨by omega, hafter.2⟩ hbefore
    · intro _
      obtain ⟨front, hfront⟩ := h.dropped hbefore
      rw [hsnapshots]
      refine (List.drop_suffix _ _).trans ⟨front, ?_⟩
      rw [← List.append_assoc, hfront]

theorem Fate.pruneOlderThan (h : Fate snapshot since (since.length < maxSnapshots ∧ kept) s)
    (hspaced : Spaced gap now s) (htaken : s.taken = old ++ snapshot :: since) (ageSec : ℤ)
    (time : DateTime) :
    Fate snapshot since (since.length < maxSnapshots ∧ kept ∧
        time - Duration.seconds ageSec < snapshot.capturedAt.time)
      (s.step sha256 (.pruneOlderThan ageSec time)) := by
  have hsuffix : snapshot :: since <:+ s.taken := ⟨old, htaken.symm⟩
  have hlater : ∀ snap ∈ since, snapshot.capturedAt.time ≤ snap.capturedAt.time := by
    have hsorted := hspaced.sorted.sublist hsuffix.sublist
    exact (List.pairwise_cons.mp hsorted).1
  have hsince : since <:+ s.taken := (List.suffix_cons snapshot since).trans hsuffix
  constructor
  · rintro ⟨hroom, hkept, hspared⟩
    obtain ⟨front, hfront⟩ := h.held ⟨hroom, hkept⟩
    refine ⟨front.filter fun s => decide (time - Duration.seconds ageSec < s.capturedAt.time), ?_⟩
    show s.manager.snapshots.filter _ = _
    rw [hfront, List.filter_append, List.filter_cons_of_pos (by simpa using hspared)]
    congr 2
    refine List.filter_eq_self.mpr fun snap hsnap => ?_
    simpa using hspared.trans_le (hlater snap hsnap)
  · intro hafter
    show s.manager.snapshots.filter _ <:+ since
    by_cases hbefore : since.length < maxSnapshots ∧ kept
    · obtain ⟨front, hfront⟩ := h.held hbefore
      have hcut : snapshot.capturedAt.time ≤ time - Duration.seconds ageSec := by
        by_contra hspared
        exact hafter ⟨hbefore.1, hbefore.2, not_le.mp hspared⟩
      have hearlier : ∀ snap ∈ front, snap.capturedAt.time ≤ snapshot.capturedAt.time := by
        have hheld := hspaced.sorted.sublist hspaced.newest.sublist
        rw [hfront] at hheld
        exact fun snap hsnap =>
          (List.pairwise_append.mp hheld).2.2 snap hsnap snapshot List.mem_cons_self
      rw [hfront, List.filter_append, List.filter_cons_of_neg (by simpa using hcut)]
      have hnone : front.filter
          (fun s => decide (time - Duration.seconds ageSec < s.capturedAt.time)) = [] := by
        refine List.filter_eq_nil_iff.mpr fun snap hsnap => ?_
        simpa using (hearlier snap hsnap).trans hcut
      rw [hnone]
      exact hspaced.filter_suffix hsince _
    · have hdropped := h.dropped hbefore
      exact (hspaced.filter_suffix (hdropped.trans hsince) _).trans hdropped

theorem maxSnapshots_step (s : SnapshotSession Value) (call : SnapshotCall Value) :
    (s.step sha256 call).manager.maxSnapshots = s.manager.maxSnapshots := by
  cases call with
  | snapshotIfNeeded inputs checkedAt addedAt entries =>
    cases hdue : s.manager.shouldSnapshot checkedAt with
    | false => rw [step_not_due hdue]
    | true => rw [step_snapshot hdue]; rfl
  | pruneOlderThan ageSec time => rfl

/-- The snapshot stays as long as fewer than the limit were taken since and no call has pruned
it. -/
theorem fate_run (h : Fate snapshot since (since.length < maxSnapshots ∧ kept) s)
    (hspaced : Spaced gap now s) (htaken : s.taken = old ++ snapshot :: since)
    (hmax : s.manager.maxSnapshots = maxSnapshots) {calls : List (SnapshotCall Value)}
    (hclock : Clocked now calls) :
    ∃ since', (run (step sha256) s calls).taken = old ++ snapshot :: since' ∧
      Fate snapshot since' (since'.length < maxSnapshots ∧ kept ∧
        ∀ call ∈ calls, call.Spares snapshot.capturedAt.time) (run (step sha256) s calls) := by
  induction calls generalizing now s since kept with
  | nil => exact ⟨since, htaken, by simpa using h⟩
  | cons call calls ih =>
    have hnext : Spaced gap call.finish (s.step sha256 call) := hspaced.step hclock.1
    have hmaxNext : (s.step sha256 call).manager.maxSnapshots = maxSnapshots :=
      (maxSnapshots_step s call).trans hmax
    rw [run_cons]
    simp only [List.forall_mem_cons, ← and_assoc (b := call.Spares _)]
    cases call with
    | snapshotIfNeeded inputs checkedAt addedAt entries =>
      have hkept : (kept ∧ (SnapshotCall.snapshotIfNeeded inputs checkedAt addedAt entries).Spares
          snapshot.capturedAt.time) = kept := by simp [SnapshotCall.Spares]
      simp only [hkept]
      cases hdue : s.manager.shouldSnapshot checkedAt with
      | false =>
        rw [step_not_due hdue] at hnext ⊢
        exact ih h hnext htaken hmax hclock.2
      | true =>
        refine ih (h.snapshotIfNeeded hmax hdue) hnext ?_ hmaxNext hclock.2
        rw [step_snapshot hdue, htaken]
        simp
    | pruneOlderThan ageSec time =>
      exact ih (h.pruneOlderThan hspaced htaken ageSec time) hnext htaken hmaxNext hclock.2

theorem maxSnapshots_run (s : SnapshotSession Value) (calls : List (SnapshotCall Value)) :
    (run (step sha256) s calls).manager.maxSnapshots = s.manager.maxSnapshots :=
  run_preserves (I := fun t => t.manager.maxSnapshots = s.manager.maxSnapshots)
    (fun t call h => (maxSnapshots_step t call).trans h) rfl calls

variable (sha256)

/-- The snapshot that a call takes is held after later calls exactly when fewer than the limit were
taken since and no later call pruned up to its capture. -/
theorem held_iff (maxSnapshots : ℕ) (snapshotIntervalSec : UInt64) (start : DateTime)
    (before after : List (SnapshotCall Value)) (inputs : SnapshotInputs)
    (checkedAt addedAt : DateTime) (entries : List (LogEntry Value))
    (hclock : Clocked start
      (before ++ .snapshotIfNeeded inputs checkedAt addedAt entries :: after)) :
    let s := run (step sha256) (new maxSnapshots snapshotIntervalSec) before
    let s' := run (step sha256) (new maxSnapshots snapshotIntervalSec)
      (before ++ .snapshotIfNeeded inputs checkedAt addedAt entries :: after)
    let since := s'.taken.drop (s.taken.length + 1)
    s.manager.shouldSnapshot checkedAt = true → (s'.taken.map (·.snapshotId)).Nodup →
      (LogSnapshot.new sha256 inputs entries ∈ s'.manager.snapshots ↔
        since.length < maxSnapshots ∧ ∀ call ∈ after, call.Spares inputs.capturedAt.time) := by
  intro s s' since hdue hids
  obtain ⟨hbefore, hcall, hafter⟩ := clocked_append.mp hclock
  have hspaced : Spaced _ _ s := spaced_run (spaced_new maxSnapshots snapshotIntervalSec start)
    hbefore
  have hmax : s.manager.maxSnapshots = maxSnapshots := maxSnapshots_run _ _
  let snapshot : LogSnapshot Value := .new sha256 inputs entries
  let call : SnapshotCall Value := .snapshotIfNeeded inputs checkedAt addedAt entries
  have hnext : Spaced _ call.finish (s.step sha256 call) := hspaced.step hcall
  have htaken : (s.step sha256 call).taken = s.taken ++ snapshot :: [] := by
    rw [step_snapshot hdue]
  have hfate : Fate snapshot [] (([] : List (LogSnapshot Value)).length < maxSnapshots ∧ True)
      (s.step sha256 call) := by
    have hsnapshots : (s.step sha256 call).manager.snapshots =
        (s.manager.snapshots ++ [snapshot]).rtake maxSnapshots := by
      rw [step_snapshot hdue, ← hmax, ← trim_eq_rtake]
      rfl
    constructor
    · intro hroom
      exact ⟨_, by rw [hsnapshots, rtake_append_of_length_le hroom.1]⟩
    · intro hnone
      have hzero : maxSnapshots = 0 := by simpa using hnone
      exact ⟨[], by rw [hsnapshots, hzero, List.rtake_zero]; rfl⟩
  obtain ⟨since', hsince, hfinal⟩ := fate_run hfate hnext htaken
    ((maxSnapshots_step s call).trans hmax) hafter
  have hrun : s' = run (step sha256) (s.step sha256 call) after := by
    show run _ _ _ = _
    rw [run_append, run_cons]
  rw [← hrun] at hsince hfinal
  have hdrop : since = since' := by
    show s'.taken.drop _ = since'
    rw [hsince, List.drop_append]
    simp
  rw [hdrop]
  simp only [true_and] at hfinal
  constructor
  · intro hmem
    by_contra hnot
    have hagain : snapshot ∈ since' := (hfinal.dropped hnot).subset hmem
    rw [hsince, List.map_append, List.map_cons] at hids
    have hfresh := (List.nodup_cons.mp (List.nodup_append.mp hids).2.1).1
    exact hfresh (List.mem_map_of_mem hagain)
  · intro hsurvives
    obtain ⟨front, hfront⟩ := hfinal.held hsurvives
    rw [hfront]
    exact List.mem_append_right _ List.mem_cons_self

variable {sha256}

/-! ### The snapshot closest to a time -/

/-- Of two captures before a time the later is the closer. -/
theorem distance_le {a b : LogSnapshot Value} {time : DateTime}
    (hab : a.capturedAt.time ≤ b.capturedAt.time) (hb : b.capturedAt.time ≤ time) :
    SnapshotManager.distance time b ≤ SnapshotManager.distance time a := by
  have hnat : ∀ d : ℤ, |d.tdiv 1000000| = (d.natAbs / 1000000 : ℕ) := by
    intro d
    rw [Int.abs_eq_natAbs, Int.natAbs_tdiv]
    rfl
  unfold SnapshotManager.distance
  rw [hnat, hnat, Nat.cast_le]
  refine Nat.div_le_div_right ?_
  have hbefore : ∀ d e : ℤ, d ≤ e → e ≤ 0 → e.natAbs ≤ d.natAbs := by omega
  exact hbefore _ _ (sub_le_sub_right hab time) (sub_nonpos.mpr hb)

theorem findClosest_le {m : SnapshotManager Value} {time : DateTime} {closest : LogSnapshot Value}
    (h : m.findClosest time = some closest) :
    closest ∈ m.snapshots ∧ ∀ snap ∈ m.snapshots,
      SnapshotManager.distance time closest ≤ SnapshotManager.distance time snap := by
  refine of_pick (R := fun s t => SnapshotManager.distance time s ≤ SnapshotManager.distance time t)
    (fun _ => le_rfl) le_trans (fun s t hcloser => ?_) (fun s t hfarther => ?_) h
  · exact (of_decide_eq_true hcloser).le
  · exact not_lt.mp (of_decide_eq_false hfarther)

variable (sha256)

/-- While the clock does not go back, snapshots are captured at least the interval apart, and the
snapshot that is found for a time after the oldest of those held is the closest of all that were
ever taken. -/
theorem closest_of_run (maxSnapshots : ℕ) (snapshotIntervalSec : UInt64) (start : DateTime)
    (calls : List (SnapshotCall Value)) (hclock : Clocked start calls) :
    let s := run (step sha256) (new maxSnapshots snapshotIntervalSec) calls
    (s.taken.Pairwise fun a b => a.capturedAt.time +
        Duration.seconds snapshotIntervalSec.toInt64.toInt ≤ b.capturedAt.time) ∧
      ∀ oldest ∈ s.manager.snapshots.head?, ∀ time, oldest.capturedAt.time ≤ time →
        ∃ closest ∈ s.manager.snapshots, s.manager.findClosest time = some closest ∧
          ∀ snap ∈ s.taken,
            SnapshotManager.distance time closest ≤ SnapshotManager.distance time snap := by
  intro s
  have hspaced : Spaced _ _ s := spaced_run (spaced_new maxSnapshots snapshotIntervalSec start)
    hclock
  refine ⟨hspaced.apart.imp And.left, fun oldest holdest time htime => ?_⟩
  obtain ⟨rest, hheld⟩ := List.head?_eq_some_iff.mp holdest
  cases hfind : s.manager.findClosest time with
  | none =>
    have hempty := pick_eq_none_iff.mp hfind
    rw [hheld] at hempty
    contradiction
  | some closest =>
    obtain ⟨hmem, hclosest⟩ := findClosest_le hfind
    refine ⟨closest, hmem, rfl, fun snap hsnap => ?_⟩
    obtain ⟨front, hfront⟩ := hspaced.newest
    rw [← hfront] at hsnap
    rcases List.mem_append.mp hsnap with hdropped | hkept
    · have hsorted := hspaced.sorted
      rw [← hfront] at hsorted
      have holder := (List.pairwise_append.mp hsorted).2.2 snap hdropped oldest
        (by rw [hheld]; exact List.mem_cons_self)
      exact (hclosest oldest (by rw [hheld]; exact List.mem_cons_self)).trans
        (distance_le holder htime)
    · exact hclosest snap hkept

end SnapshotSession

/-- The call for a snapshot at a time, of a log without entries. -/
def snapshotAt (id : String) (time : DateTime) : SnapshotCall Unit :=
  .snapshotIfNeeded ⟨id, ⟨time⟩, (0, 0), .stored _⟩ time time []

/-- The second call comes too early, and the last prunes nothing. -/
def hourly : List (SnapshotCall Unit) :=
  [snapshotAt "a" (Duration.hours 1), snapshotAt "b" (Duration.minutes 90),
    snapshotAt "c" (Duration.hours 2), .pruneOlderThan 7201 (Duration.hours 3)]

theorem clocked_hourly : Clocked 0 hourly :=
  ⟨⟨by decide, le_rfl, le_rfl⟩, ⟨by decide, le_rfl, le_rfl⟩, ⟨by decide, le_rfl, le_rfl⟩,
    show Duration.hours 2 ≤ Duration.hours 3 by decide, trivial⟩

/-- The first snapshot is still held. -/
theorem held_hourly :
    LogSnapshot.new Lib.sha256 ⟨"a", ⟨Duration.hours 1⟩, (0, 0), .stored _⟩ [] ∈
      (run (SnapshotSession.step Lib.sha256) (.new 2 3600) hourly).manager.snapshots := by
  refine (SnapshotSession.held_iff Lib.sha256 2 3600 0 [] _
    ⟨"a", ⟨Duration.hours 1⟩, (0, 0), .stored _⟩ (Duration.hours 1) (Duration.hours 1) []
    clocked_hourly rfl ?_).mpr ⟨?_, ?_⟩
  · decide +kernel
  · decide +kernel
  · intro call hcall
    simp only [List.mem_cons, List.not_mem_nil, or_false] at hcall
    rcases hcall with rfl | rfl | rfl
    · trivial
    · trivial
    · show Duration.hours 3 - Duration.seconds 7201 < Duration.hours 1
      decide

theorem closest_hourly :
    let s := run (SnapshotSession.step Lib.sha256) (.new 2 3600) hourly
    s.taken.Pairwise fun a b => a.capturedAt.time +
      Duration.seconds (3600 : UInt64).toInt64.toInt ≤ b.capturedAt.time :=
  (SnapshotSession.closest_of_run Lib.sha256 2 3600 0 hourly clocked_hourly).1

end GroundCore.Bitemporal
