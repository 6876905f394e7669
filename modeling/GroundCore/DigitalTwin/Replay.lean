import GroundCore.DigitalTwin.Divergence
import GroundCore.Lib.Run

/-! Snapshots of the digital twin, and the query for what it believed at a time. -/

namespace GroundCore.DigitalTwin

open Bitemporal Lib FloatOps

structure WorldSummary (F64 : Type) where
  entityCount : ℕ
  linkSnrMidDb : HashMap LinkId F64

structure TwinSnapshot (F64 : Type) where
  timestamp : DateTime
  worldState : WorldSummary F64
  divergenceLog : List (MetricDivergence F64)

structure SnapshotManager (F64 : Type) where
  snapshots : HashMap DateTime (TwinSnapshot F64)
  maxSnapshots : ℕ

structure CounterfactualQuery (F64 : Type) where
  queryTime : DateTime
  actualBelief : TwinSnapshot F64
  counterfactualBelief : Option (TwinSnapshot F64)
  affectingDivergences : List (MetricDivergence F64)

variable {F64 F32 : Type}

def WorldSummary.default : WorldSummary F64 := { entityCount := 0, linkSnrMidDb := ∅ }

namespace TwinSnapshot

def activeDivergences [FloatOps F64 F32] (s : TwinSnapshot F64) : List (MetricDivergence F64) :=
  s.divergenceLog.filter MetricDivergence.isAnomaly

def divergencesUpTo (s : TwinSnapshot F64) (time : DateTime) : List (MetricDivergence F64) :=
  s.divergenceLog.filter fun d => decide (d.bitemporalStamp.receptionTime.time ≤ time)

end TwinSnapshot

namespace SnapshotManager

def new (maxSnapshots : ℕ) : SnapshotManager F64 := { snapshots := ∅, maxSnapshots }

def storeSnapshot (m : SnapshotManager F64) (snapshot : TwinSnapshot F64) : SnapshotManager F64 :=
  let snapshots := m.snapshots.insert snapshot.timestamp snapshot
  if m.maxSnapshots < snapshots.entries.length then
    match snapshots.keys.min? with
    | some oldestTimestamp => { m with snapshots := snapshots.erase oldestTimestamp }
    | none => { m with snapshots }
  else { m with snapshots }

def getSnapshot (m : SnapshotManager F64) (timestamp : DateTime) : Option (TwinSnapshot F64) :=
  m.snapshots.get? timestamp

/-- The whole milliseconds between two times. -/
def milliseconds (t timestamp : DateTime) : ℤ := |t - timestamp| / 1000000

/-- Of keys at one distance the first in the order `ord`. -/
def getClosestSnapshot (m : SnapshotManager F64) (ord : IterOrder DateTime) (timestamp : DateTime) :
    Option (TwinSnapshot F64) :=
  match pick (fun t s => decide (milliseconds t timestamp < milliseconds s timestamp))
      (ord.order m.snapshots.keys) with
  | none => none
  | some closestTimestamp => m.snapshots.get? closestTimestamp

def clear (m : SnapshotManager F64) : SnapshotManager F64 := { m with snapshots := ∅ }

def snapshotCount (m : SnapshotManager F64) : ℕ := m.snapshots.entries.length

def counterfactualQuery (m : SnapshotManager F64) (ord : IterOrder DateTime)
    (queryTime : DateTime) : CounterfactualQuery F64 :=
  let actualBelief := match m.getClosestSnapshot ord queryTime with
    | some snapshot => snapshot
    | none => { timestamp := queryTime, worldState := .default, divergenceLog := [] }
  let affectingDivergences := actualBelief.divergenceLog.filter fun d =>
    decide (d.bitemporalStamp.receptionTime.time ≤ queryTime) ||
      d.changePointDetectedAt.any fun cp => decide (cp ≤ queryTime)
  { queryTime, actualBelief, counterfactualBelief := none, affectingDivergences }

end SnapshotManager

end GroundCore.DigitalTwin

/-! What a query for a time shows of what came after it.  The answer is taken from the snapshot that
is nearest to the time, on either side, and not from the latest one before it. -/

namespace GroundCore.DigitalTwin

open Bitemporal Lib FloatOps

variable {F64 : Type}

namespace SnapshotManager

/-- Every snapshot is stored under its own time. -/
def Keyed (m : SnapshotManager F64) : Prop :=
  ∀ t s, m.snapshots.get? t = some s → s.timestamp = t

theorem keyed_storeSnapshot {m : SnapshotManager F64} (h : m.Keyed) (s : TwinSnapshot F64) :
    (m.storeSnapshot s).Keyed := by
  have hinsert : ({ m with snapshots := m.snapshots.insert s.timestamp s }).Keyed := by
    intro t s' hget
    rw [HashMap.get?_insert] at hget
    split at hget
    · next ht => rw [← Option.some.inj hget, ht]
    · exact h t s' hget
  unfold storeSnapshot
  dsimp only
  split
  · split
    · next oldest _ =>
      intro t s' hget
      rw [HashMap.get?_erase] at hget
      split at hget
      · contradiction
      · exact hinsert t s' hget
    · exact hinsert
  · exact hinsert

/-- The manager after storing the snapshots in order. -/
def ofHistory (maxSnapshots : ℕ) (history : List (TwinSnapshot F64)) : SnapshotManager F64 :=
  run storeSnapshot (new maxSnapshots) history

theorem keyed_ofHistory (maxSnapshots : ℕ) (history : List (TwinSnapshot F64)) :
    (ofHistory maxSnapshots history).Keyed := by
  refine run_preserves (I := Keyed) (fun m s h => keyed_storeSnapshot h s) ?_ history
  intro t s hget
  rw [new, HashMap.get?_empty] at hget
  contradiction

/-! ### The nearest snapshot -/

/-- `t` is a key at the least distance, in whole milliseconds, from the time. -/
def Nearest (m : SnapshotManager F64) (time t : DateTime) : Prop :=
  t ∈ m.snapshots.keys ∧ ∀ t' ∈ m.snapshots.keys, milliseconds t time ≤ milliseconds t' time

theorem getClosestSnapshot_spec {m : SnapshotManager F64} (ord : IterOrder DateTime)
    (time : DateTime) (hne : m.snapshots.keys ≠ []) :
    ∃ t, m.Nearest time t ∧ m.getClosestSnapshot ord time = m.snapshots.get? t := by
  unfold getClosestSnapshot
  cases hpick : pick (fun t s => decide (milliseconds t time < milliseconds s time))
      (ord.order m.snapshots.keys) with
  | none =>
    have hnil := pick_eq_none_iff.mp hpick
    have hperm := ord.perm m.snapshots.keys
    rw [hnil] at hperm
    exact absurd hperm.symm.eq_nil hne
  | some t =>
    have hleast := of_pick (R := fun t s => milliseconds t time ≤ milliseconds s time)
      (fun _ => le_refl _) le_trans (fun x y h => (of_decide_eq_true h).le)
      (fun x y h => not_lt.mp (of_decide_eq_false h)) hpick
    simp only [IterOrder.mem_order] at hleast
    exact ⟨t, hleast, rfl⟩

/-- An order of iteration that yields `t` first. -/
def firstOrder (t : DateTime) : IterOrder DateTime where
  order l := if t ∈ l then t :: l.erase t else l
  perm l := by
    split
    · next h => exact (List.perm_cons_erase h).symm
    · exact List.Perm.refl l

theorem getClosestSnapshot_firstOrder {m : SnapshotManager F64} {time t : DateTime}
    (h : m.Nearest time t) : m.getClosestSnapshot (firstOrder t) time = m.snapshots.get? t := by
  unfold getClosestSnapshot
  have hpick : pick (fun t s => decide (milliseconds t time < milliseconds s time))
      ((firstOrder t).order m.snapshots.keys) = some t := by
    show pick _ (if t ∈ m.snapshots.keys then _ else _) = some t
    rw [if_pos h.1]
    refine pick_cons_of_forall fun s hs => decide_eq_false ?_
    exact not_lt.mpr (h.2 s (List.mem_of_mem_erase hs))
  rw [hpick]

/-! ### Replay without hindsight -/

/-- `belief` is the latest of the snapshots up to the time. -/
def IsLatest (m : SnapshotManager F64) (time : DateTime) (belief : TwinSnapshot F64) : Prop :=
  m.snapshots.get? belief.timestamp = some belief ∧ belief.timestamp ≤ time ∧
    ∀ t s, m.snapshots.get? t = some s → t ≤ time → t ≤ belief.timestamp

/-- Whatever the order of iteration, the query is answered with the belief and with what of it had
been received by the time. -/
def Replays (m : SnapshotManager F64) (time : DateTime) (belief : TwinSnapshot F64) : Prop :=
  ∀ ord, (m.counterfactualQuery ord time).actualBelief = belief ∧
    (m.counterfactualQuery ord time).affectingDivergences = belief.divergencesUpTo time

/-- Every other snapshot is farther from the time by a whole millisecond. -/
def ClearlyNearest (m : SnapshotManager F64) (time : DateTime) (belief : TwinSnapshot F64) : Prop :=
  ∀ t s, m.snapshots.get? t = some s → t ≠ belief.timestamp →
    milliseconds belief.timestamp time < milliseconds t time

/-- What is received after the time has no change point before it. -/
def NoEarlyChangePoint (time : DateTime) (belief : TwinSnapshot F64) : Prop :=
  ∀ d ∈ belief.divergenceLog, time < d.bitemporalStamp.receptionTime.time →
    ∀ cp, d.changePointDetectedAt = some cp → time < cp

theorem divergencesUpTo_iff (belief : TwinSnapshot F64) (time : DateTime) :
    (belief.divergenceLog.filter fun d =>
        decide (d.bitemporalStamp.receptionTime.time ≤ time) ||
          d.changePointDetectedAt.any fun cp => decide (cp ≤ time)) =
      belief.divergencesUpTo time ↔ NoEarlyChangePoint time belief := by
  unfold TwinSnapshot.divergencesUpTo NoEarlyChangePoint
  constructor
  · intro heq d hd hlate cp hcp
    by_contra hearly
    have hmem : d ∈ belief.divergenceLog.filter fun d =>
        decide (d.bitemporalStamp.receptionTime.time ≤ time) ||
          d.changePointDetectedAt.any fun cp => decide (cp ≤ time) := by
      rw [List.mem_filter]
      refine ⟨hd, ?_⟩
      simp [hcp, not_lt.mp hearly]
    rw [heq, List.mem_filter] at hmem
    exact absurd hlate (not_lt.mpr (of_decide_eq_true hmem.2))
  · intro hnone
    refine List.filter_congr fun d hd => ?_
    by_cases hreceived : d.bitemporalStamp.receptionTime.time ≤ time
    · simp [hreceived]
    · have hlate := hnone d hd (not_le.mp hreceived)
      cases hcp : d.changePointDetectedAt with
      | none => simp
      | some cp => simp [hlate cp hcp]

/-- The query replays the latest snapshot exactly when no other is as near, and none of its
divergences that came later has a change point before. -/
theorem replays_iff {m : SnapshotManager F64} (hkeyed : m.Keyed) {time : DateTime}
    {belief : TwinSnapshot F64} (hlatest : m.IsLatest time belief) :
    m.Replays time belief ↔ m.ClearlyNearest time belief ∧ NoEarlyChangePoint time belief := by
  have hstored : belief.timestamp ∈ m.snapshots.keys := HashMap.mem_keys.mpr ⟨belief, hlatest.1⟩
  have hne : m.snapshots.keys ≠ [] := List.ne_nil_of_mem hstored
  constructor
  · intro hreplays
    refine ⟨fun t s hget hother => ?_, ?_⟩
    · -- otherwise a nearest snapshot other than `belief` may come first
      by_contra hnear
      obtain ⟨t', hnearest, -⟩ := getClosestSnapshot_spec (.stored _) time hne
      have htied : ∃ t₀, m.Nearest time t₀ ∧ t₀ ≠ belief.timestamp := by
        by_cases heq : t' = belief.timestamp
        · refine ⟨t, ⟨HashMap.mem_keys.mpr ⟨s, hget⟩, fun r hr => ?_⟩, hother⟩
          exact (not_lt.mp hnear).trans (heq ▸ hnearest.2 r hr)
        · exact ⟨t', hnearest, heq⟩
      obtain ⟨t₀, hnearest₀, hother₀⟩ := htied
      obtain ⟨s₀, hget₀⟩ := HashMap.mem_keys.mp hnearest₀.1
      have hbelief := (hreplays (firstOrder t₀)).1
      simp only [counterfactualQuery, getClosestSnapshot_firstOrder hnearest₀, hget₀] at hbelief
      rw [← hbelief, hkeyed t₀ s₀ hget₀] at hother₀
      exact hother₀ rfl
    · have hanswer := hreplays (.stored _)
      rw [← divergencesUpTo_iff]
      have hfilter := hanswer.2
      unfold counterfactualQuery at hanswer hfilter
      dsimp only at hanswer hfilter
      rwa [hanswer.1] at hfilter
  · rintro ⟨hclear, hnone⟩ ord
    obtain ⟨t, hnearest, hclosest⟩ := getClosestSnapshot_spec ord time hne
    have ht : t = belief.timestamp := by
      by_contra hother
      obtain ⟨s, hget⟩ := HashMap.mem_keys.mp hnearest.1
      exact absurd (hnearest.2 _ hstored) (not_le.mpr (hclear t s hget hother))
    rw [ht, hlatest.1] at hclosest
    simp only [counterfactualQuery, hclosest]
    exact ⟨trivial, (divergencesUpTo_iff belief time).mpr hnone⟩

theorem exists_isLatest {m : SnapshotManager F64} (hkeyed : m.Keyed) {time : DateTime}
    (h : ∃ t s, m.snapshots.get? t = some s ∧ t ≤ time) : ∃ belief, m.IsLatest time belief := by
  obtain ⟨t, s, hget, htime⟩ := h
  have hmem : t ∈ m.snapshots.keys.filter fun t => decide (t ≤ time) := by
    rw [List.mem_filter]
    exact ⟨HashMap.mem_keys.mpr ⟨s, hget⟩, decide_eq_true htime⟩
  cases hpick : pick (fun t s => decide (s < t))
      (m.snapshots.keys.filter fun t => decide (t ≤ time)) with
  | none =>
    rw [pick_eq_none_iff.mp hpick] at hmem
    contradiction
  | some latest =>
    obtain ⟨hlatest, hgreatest⟩ := of_pick (R := fun t s => s ≤ t) (fun _ => le_refl _)
      (fun hxy hyz => hyz.trans hxy) (fun x y h => (of_decide_eq_true h).le)
      (fun x y h => not_lt.mp (of_decide_eq_false h)) hpick
    rw [List.mem_filter] at hlatest
    obtain ⟨belief, hbelief⟩ := HashMap.mem_keys.mp hlatest.1
    have hkey := hkeyed latest belief hbelief
    rw [← hkey] at hbelief hlatest hgreatest
    refine ⟨belief, hbelief, of_decide_eq_true hlatest.2, fun t s hget htime => ?_⟩
    exact hgreatest t (List.mem_filter.mpr
      ⟨HashMap.mem_keys.mpr ⟨s, hget⟩, decide_eq_true htime⟩)

/-- Two histories that retain the same snapshots up to a time are both answered with the latest of
these, whatever came later, exactly when in both no other snapshot is as near to the time, and none
of its divergences that came later has a change point before. -/
theorem replay_iff (maxSnapshots₁ maxSnapshots₂ : ℕ) (history₁ history₂ : List (TwinSnapshot F64))
    (time : DateTime)
    (hsame : ∀ t, t ≤ time → (ofHistory maxSnapshots₁ history₁).snapshots.get? t =
      (ofHistory maxSnapshots₂ history₂).snapshots.get? t)
    (hsome : ∃ t s, (ofHistory maxSnapshots₁ history₁).snapshots.get? t = some s ∧ t ≤ time) :
    ∃ belief, (ofHistory maxSnapshots₁ history₁).IsLatest time belief ∧
      (ofHistory maxSnapshots₂ history₂).IsLatest time belief ∧
      ((ofHistory maxSnapshots₁ history₁).Replays time belief ∧
          (ofHistory maxSnapshots₂ history₂).Replays time belief ↔
        (ofHistory maxSnapshots₁ history₁).ClearlyNearest time belief ∧
          (ofHistory maxSnapshots₂ history₂).ClearlyNearest time belief ∧
          NoEarlyChangePoint time belief) := by
  have hkeyed₁ := keyed_ofHistory maxSnapshots₁ history₁
  have hkeyed₂ := keyed_ofHistory maxSnapshots₂ history₂
  obtain ⟨belief, hlatest₁⟩ := exists_isLatest hkeyed₁ hsome
  have hlatest₂ : (ofHistory maxSnapshots₂ history₂).IsLatest time belief := by
    obtain ⟨hget, htime, hgreatest⟩ := hlatest₁
    refine ⟨hsame _ htime ▸ hget, htime, fun t s hgett ht => ?_⟩
    exact hgreatest t s ((hsame t ht).trans hgett) ht
  refine ⟨belief, hlatest₁, hlatest₂, ?_⟩
  rw [replays_iff hkeyed₁ hlatest₁, replays_iff hkeyed₂ hlatest₂]
  constructor
  · rintro ⟨⟨hclear₁, hnone⟩, hclear₂, -⟩
    exact ⟨hclear₁, hclear₂, hnone⟩
  · rintro ⟨hclear₁, hclear₂, hnone⟩
    exact ⟨⟨hclear₁, hnone⟩, hclear₂, hnone⟩

end SnapshotManager

/-! ### A snapshot from after the query -/

open SnapshotManager

/-- A snapshot without divergences. -/
def quiet (timestamp : DateTime) : TwinSnapshot ℚ :=
  { timestamp, worldState := .default, divergenceLog := [] }

/-- One history ends with a snapshot that the other has not. -/
theorem get?_quiet {t : DateTime} (ht : t ≤ Duration.seconds 1) :
    (ofHistory 300 [quiet 0]).snapshots.get? t =
      (ofHistory 300 [quiet 0, quiet (Duration.milliseconds 1100)]).snapshots.get? t := by
  have hne : t ≠ Duration.milliseconds 1100 := by
    rintro rfl
    exact absurd ht (by decide)
  show HashMap.get? ((∅ : HashMap DateTime (TwinSnapshot ℚ)).insert 0 (quiet 0)) t =
    HashMap.get? ((((∅ : HashMap DateTime (TwinSnapshot ℚ)).insert 0 (quiet 0))).insert
      (Duration.milliseconds 1100) (quiet (Duration.milliseconds 1100))) t
  rw [HashMap.get?_insert _ (Duration.milliseconds 1100), if_neg hne]

/-- A second after the snapshot at zero, one that is taken a tenth of a second later is nearer. -/
theorem replay_hindsight :
    (∀ t, t ≤ Duration.seconds 1 → (ofHistory 300 [quiet 0]).snapshots.get? t =
      (ofHistory 300 [quiet 0, quiet (Duration.milliseconds 1100)]).snapshots.get? t) ∧
    ((ofHistory 300 [quiet 0]).counterfactualQuery (.stored _)
      (Duration.seconds 1)).actualBelief.timestamp = 0 ∧
    ((ofHistory 300 [quiet 0, quiet (Duration.milliseconds 1100)]).counterfactualQuery (.stored _)
      (Duration.seconds 1)).actualBelief.timestamp = Duration.milliseconds 1100 :=
  ⟨fun _ ht => get?_quiet ht, by decide, by decide⟩

theorem replay_iff_quiet : ∃ belief,
    (ofHistory 300 [quiet 0]).IsLatest (Duration.seconds 1) belief ∧
    (ofHistory 300 [quiet 0, quiet (Duration.milliseconds 1100)]).IsLatest (Duration.seconds 1)
      belief ∧
    ((ofHistory 300 [quiet 0]).Replays (Duration.seconds 1) belief ∧
        (ofHistory 300 [quiet 0, quiet (Duration.milliseconds 1100)]).Replays
          (Duration.seconds 1) belief ↔
      (ofHistory 300 [quiet 0]).ClearlyNearest (Duration.seconds 1) belief ∧
        (ofHistory 300 [quiet 0, quiet (Duration.milliseconds 1100)]).ClearlyNearest
          (Duration.seconds 1) belief ∧
        NoEarlyChangePoint (Duration.seconds 1) belief) :=
  replay_iff 300 300 [quiet 0] [quiet 0, quiet (Duration.milliseconds 1100)] (Duration.seconds 1)
    (fun _ ht => get?_quiet ht) ⟨0, quiet 0, rfl, by decide⟩

end GroundCore.DigitalTwin
