import Mathlib.Data.List.Induction
import Mathlib.Data.List.Nodup
import Mathlib.Tactic.Order
import GroundCore.Lib.BTreeMap
import GroundCore.Lib.FloatOps
import GroundCore.Lib.Run
import GroundCore.Oisl.Types

/-! The forecast of the topology: snapshots of the graph by time, and the snapshot that a query at
any time gets.  Measures of quality are exact numbers. -/

namespace GroundCore.Oisl.Topology

open Lib

structure GeometryScore where
  pointingAngleRad : ℚ
  dopplerShiftHz : ℚ
  rangeKm : ℚ
  deriving DecidableEq

def GeometryScore.overallQuality (score : GeometryScore) : ℚ :=
  let angleScore := 1 - min (score.pointingAngleRad / FloatOps.f64Pi) 1
  let dopplerScore := 1 - min (score.dopplerShiftHz / 1000000) 1
  let rangeScore := 1 - min (score.rangeKm / 10000) 1
  (angleScore + dopplerScore + rangeScore) / 3

structure PotentialEdge where
  endpoints : NodeId × NodeId
  visibilityWindow : TimeWindow
  geometricQuality : GeometryScore
  expectedCapacity : DataRate
  atmosphericAttenuation : Option ℚ
  requiredPointingAccuracyRad : ℚ
  deriving DecidableEq

/-- A snapshot of the graph; of its nodes, the ids. -/
structure GraphSnapshot where
  timestamp : DateTime
  nodes : List NodeId
  potentialEdges : List PotentialEdge
  deriving DecidableEq

inductive TopologyInterpolation
  | linear
  | spline
  | nearest
  deriving DecidableEq

/-- A forecast, with its snapshots in the order of their keys. -/
structure TopologyForecast where
  horizonStart : DateTime
  horizonEnd : DateTime
  snapshots : List (DateTime × GraphSnapshot)
  interpolation : TopologyInterpolation
  sorted : snapshots.Pairwise fun a b => a.1 < b.1

namespace TopologyForecast

def new (horizonStart horizonEnd : DateTime) : TopologyForecast :=
  { horizonStart, horizonEnd, snapshots := [], interpolation := .linear, sorted := .nil }

def numMilliseconds (d : Duration) : ℤ := d.tdiv 1000000

/-- The snapshot that is nearest to a time, in whole milliseconds; the later one of two that are
equally near. -/
def nearest (forecast : TopologyForecast) (timestamp : DateTime) : Option GraphSnapshot :=
  let before := (forecast.snapshots.filter fun s => s.1 ≤ timestamp).getLast?
  let after := (forecast.snapshots.filter fun s => timestamp ≤ s.1).head?
  match before, after with
  | some (_, b), some (_, a) =>
    let bDelta := numMilliseconds |timestamp - b.timestamp|
    let aDelta := numMilliseconds |a.timestamp - timestamp|
    if bDelta < aDelta then some b else some a
  | some (_, b), none => some b
  | none, some (_, a) => some a
  | none, none => none

def getAt (forecast : TopologyForecast) (timestamp : DateTime) : Option GraphSnapshot :=
  match forecast.snapshots.find? fun s => s.1 = timestamp with
  | some (_, snapshot) => some snapshot
  | none =>
    match forecast.interpolation with
    | .nearest => forecast.nearest timestamp
    -- both fall back to the nearest snapshot
    | .linear | .spline => forecast.nearest timestamp

def queryAt (forecast : TopologyForecast) (timestamp : DateTime) : GraphSnapshot :=
  (forecast.getAt timestamp).getD { timestamp, nodes := [], potentialEdges := [] }

/-- A snapshot with the same timestamp is replaced. -/
def addSnapshot (forecast : TopologyForecast) (snapshot : GraphSnapshot) : TopologyForecast :=
  { forecast with
    snapshots := BTreeMap.insertEntry snapshot.timestamp snapshot forecast.snapshots
    sorted := BTreeMap.sorted_insertEntry forecast.sorted }

/-- All edges of the forecast. -/
def allEdges (forecast : TopologyForecast) : List PotentialEdge :=
  forecast.snapshots.flatMap fun s => s.2.potentialEdges

theorem mem_of_nearest {forecast : TopologyForecast} {timestamp : DateTime}
    {snapshot : GraphSnapshot} (h : forecast.nearest timestamp = some snapshot) :
    ∃ key, (key, snapshot) ∈ forecast.snapshots := by
  unfold nearest at h
  have hbefore : ∀ entry, (forecast.snapshots.filter fun s => s.1 ≤ timestamp).getLast? =
      some entry → entry ∈ forecast.snapshots :=
    fun entry hentry => (List.mem_filter.mp (List.mem_of_getLast? hentry)).1
  have hafter : ∀ entry, (forecast.snapshots.filter fun s => timestamp ≤ s.1).head? =
      some entry → entry ∈ forecast.snapshots :=
    fun entry hentry => (List.mem_filter.mp (List.mem_of_head? hentry)).1
  dsimp only at h
  split at h
  · next heq heq' =>
    split at h
    · exact ⟨_, Option.some.inj h ▸ hbefore _ heq⟩
    · exact ⟨_, Option.some.inj h ▸ hafter _ heq'⟩
  · next heq _ => exact ⟨_, Option.some.inj h ▸ hbefore _ heq⟩
  · next heq => exact ⟨_, Option.some.inj h ▸ hafter _ heq⟩
  · contradiction

theorem mem_of_getAt {forecast : TopologyForecast} {timestamp : DateTime}
    {snapshot : GraphSnapshot} (h : forecast.getAt timestamp = some snapshot) :
    ∃ key, (key, snapshot) ∈ forecast.snapshots := by
  unfold getAt at h
  split at h
  · next heq => exact ⟨_, Option.some.inj h ▸ List.mem_of_find?_eq_some heq⟩
  · split at h <;> exact mem_of_nearest h

/-- A query finds edges of the forecast only. -/
theorem mem_allEdges_of_queryAt {forecast : TopologyForecast} {timestamp : DateTime}
    {edge : PotentialEdge} (h : edge ∈ (forecast.queryAt timestamp).potentialEdges) :
    edge ∈ forecast.allEdges := by
  unfold queryAt at h
  cases hget : forecast.getAt timestamp with
  | none => simp [hget] at h
  | some snapshot =>
    rw [hget, Option.getD_some] at h
    obtain ⟨key, hmem⟩ := mem_of_getAt hget
    exact List.mem_flatMap.mpr ⟨(key, snapshot), hmem, h⟩

/-! ### The nearest snapshot

A query compares the distances to the snapshots before and after its time in whole milliseconds, and
takes the later one where these are equal. -/

def Stored (forecast : TopologyForecast) (snapshot : GraphSnapshot) : Prop :=
  ∃ key, (key, snapshot) ∈ forecast.snapshots

/-- Every snapshot is stored under its own time. -/
def Keyed (forecast : TopologyForecast) : Prop :=
  ∀ entry ∈ forecast.snapshots, entry.1 = entry.2.timestamp

/-- A query gets nothing only from an empty forecast, and otherwise a stored snapshot that none is
nearer than. -/
def GetsNearest (forecast : TopologyForecast) (timestamp : DateTime) : Prop :=
  (forecast.getAt timestamp = none ↔ ∀ snapshot, ¬ forecast.Stored snapshot) ∧
  ∀ snapshot, forecast.getAt timestamp = some snapshot → forecast.Stored snapshot ∧
    ∀ other, forecast.Stored other →
      |snapshot.timestamp - timestamp| ≤ |other.timestamp - timestamp|

/-- The stored snapshots `b` and `a` stand next to the time, before and after it. -/
structure Neighbours (forecast : TopologyForecast) (b a : GraphSnapshot) (timestamp : DateTime) :
    Prop where
  stored_before : forecast.Stored b
  stored_after : forecast.Stored a
  before : b.timestamp < timestamp
  after : timestamp < a.timestamp
  between : ∀ snapshot, forecast.Stored snapshot →
    snapshot.timestamp ≤ b.timestamp ∨ a.timestamp ≤ snapshot.timestamp

/-- Of two neighbours the earlier one is not nearer, or is so by whole milliseconds. -/
def Discernible (forecast : TopologyForecast) (timestamp : DateTime) : Prop :=
  ∀ b a, forecast.Neighbours b a timestamp →
    timestamp - b.timestamp < a.timestamp - timestamp →
      numMilliseconds (timestamp - b.timestamp) < numMilliseconds (a.timestamp - timestamp)

variable {forecast : TopologyForecast} {timestamp : DateTime} {entry : DateTime × GraphSnapshot}

theorem keyed_new (horizonStart horizonEnd : DateTime) (mode : TopologyInterpolation) :
    Keyed { new horizonStart horizonEnd with interpolation := mode } := by
  intro entry hentry
  simp [new] at hentry

theorem Keyed.mem (h : Keyed forecast) {snapshot : GraphSnapshot}
    (hstored : forecast.Stored snapshot) :
    (snapshot.timestamp, snapshot) ∈ forecast.snapshots := by
  obtain ⟨key, hmem⟩ := hstored
  obtain rfl : key = snapshot.timestamp := h _ hmem
  exact hmem

theorem Keyed.addSnapshot (h : Keyed forecast) (snapshot : GraphSnapshot) :
    Keyed (forecast.addSnapshot snapshot) := by
  intro entry hentry
  rcases BTreeMap.mem_of_mem_insertEntry hentry with rfl | hold
  · rfl
  · exact h entry hold

theorem Keyed.run (h : Keyed forecast) (snapshots : List GraphSnapshot) :
    Keyed (Lib.run TopologyForecast.addSnapshot forecast snapshots) := by
  induction snapshots generalizing forecast with
  | nil => exact h
  | cons snapshot snapshots ih => exact ih (h.addSnapshot snapshot)

/-- The last entry up to the time is the greatest of these. -/
theorem last_before
    (h : (forecast.snapshots.filter fun s => s.1 ≤ timestamp).getLast? = some entry) :
    entry ∈ forecast.snapshots ∧ entry.1 ≤ timestamp ∧
      ∀ other ∈ forecast.snapshots, other.1 ≤ timestamp → other.1 ≤ entry.1 := by
  obtain ⟨init, hinit⟩ := List.getLast?_eq_some_iff.mp h
  have hsorted := forecast.sorted.filter (fun s => decide (s.1 ≤ timestamp))
  rw [hinit] at hsorted
  have hmem : ∀ other, other ∈ forecast.snapshots ∧ other.1 ≤ timestamp ↔ other ∈ init ++ [entry] :=
    fun other => by rw [← hinit, List.mem_filter, decide_eq_true_eq]
  obtain ⟨hentry, hle⟩ := (hmem entry).mpr (by simp)
  refine ⟨hentry, hle, fun other hother hotherLe => ?_⟩
  rcases List.mem_append.mp ((hmem other).mp ⟨hother, hotherLe⟩) with hin | hlast
  · exact ((List.pairwise_append.mp hsorted).2.2 other hin entry (by simp)).le
  · rw [List.mem_singleton.mp hlast]

/-- The first entry from the time on is the least of these. -/
theorem first_after (h : (forecast.snapshots.filter fun s => timestamp ≤ s.1).head? = some entry) :
    entry ∈ forecast.snapshots ∧ timestamp ≤ entry.1 ∧
      ∀ other ∈ forecast.snapshots, timestamp ≤ other.1 → entry.1 ≤ other.1 := by
  obtain ⟨rest, hrest⟩ := List.head?_eq_some_iff.mp h
  have hsorted := forecast.sorted.filter (fun s => decide (timestamp ≤ s.1))
  rw [hrest] at hsorted
  have hmem : ∀ other, other ∈ forecast.snapshots ∧ timestamp ≤ other.1 ↔ other ∈ entry :: rest :=
    fun other => by rw [← hrest, List.mem_filter, decide_eq_true_eq]
  obtain ⟨hentry, hle⟩ := (hmem entry).mpr List.mem_cons_self
  refine ⟨hentry, hle, fun other hother hotherLe => ?_⟩
  rcases List.mem_cons.mp ((hmem other).mp ⟨hother, hotherLe⟩) with rfl | hin
  · exact le_refl _
  · exact ((List.pairwise_cons.mp hsorted).1 other hin).le

theorem Neighbours.unique {b a b' a' : GraphSnapshot} (h : forecast.Neighbours b a timestamp)
    (h' : forecast.Neighbours b' a' timestamp) :
    b.timestamp = b'.timestamp ∧ a.timestamp = a'.timestamp := by
  have hb := h.between b' h'.stored_before
  have hb' := h'.between b h.stored_before
  have ha := h.between a' h'.stored_after
  have ha' := h'.between a h.stored_after
  have hlt := h.before
  have hlt' := h'.before
  have hgt := h.after
  have hgt' := h'.after
  generalize b.timestamp = tb at *
  generalize b'.timestamp = tb' at *
  generalize a.timestamp = ta at *
  generalize a'.timestamp = ta' at *
  constructor
  · rcases hb with hb | hb <;> rcases hb' with hb' | hb' <;> order
  · rcases ha with ha | ha <;> rcases ha' with ha' | ha' <;> order

theorem Neighbours.abs_sub {b a : GraphSnapshot} (h : forecast.Neighbours b a timestamp) :
    |b.timestamp - timestamp| = timestamp - b.timestamp ∧
      |a.timestamp - timestamp| = a.timestamp - timestamp := by
  rw [abs_sub_comm b.timestamp]
  exact ⟨abs_of_pos (sub_pos.mpr h.before), abs_of_pos (sub_pos.mpr h.after)⟩

/-- Every other snapshot is at least as far as one of the neighbours. -/
theorem Neighbours.le_abs_sub {b a other : GraphSnapshot} (h : forecast.Neighbours b a timestamp)
    (hother : forecast.Stored other) :
    timestamp - b.timestamp ≤ |other.timestamp - timestamp| ∨
      a.timestamp - timestamp ≤ |other.timestamp - timestamp| := by
  refine (h.between other hother).imp (fun hle => ?_) fun hle => ?_
  · rw [abs_sub_comm]
    exact (sub_le_sub_left hle timestamp).trans (le_abs_self _)
  · exact (sub_le_sub_right hle timestamp).trans (le_abs_self _)

theorem abs_sub_le_of_le_of_le {q x y : DateTime} (hq : q ≤ x) (hxy : x ≤ y) :
    |x - q| ≤ |y - q| :=
  abs_le_abs_of_nonneg (sub_nonneg.mpr hq) (sub_le_sub_right hxy q)

theorem abs_sub_le_of_ge_of_ge {q x y : DateTime} (hq : x ≤ q) (hxy : y ≤ x) :
    |q - x| ≤ |q - y| :=
  abs_le_abs_of_nonneg (sub_nonneg.mpr hq) (sub_le_sub_left hxy q)

/-- Where nothing is found up to the time, every snapshot is later. -/
theorem Keyed.lt_of_none_before (h : Keyed forecast)
    (hnone : (forecast.snapshots.filter fun s => s.1 ≤ timestamp).getLast? = none)
    {snapshot : GraphSnapshot} (hstored : forecast.Stored snapshot) :
    timestamp < snapshot.timestamp := by
  have hall := List.filter_eq_nil_iff.mp (List.getLast?_eq_none_iff.mp hnone)
  simpa using hall _ (h.mem hstored)

theorem Keyed.lt_of_none_after (h : Keyed forecast)
    (hnone : (forecast.snapshots.filter fun s => timestamp ≤ s.1).head? = none)
    {snapshot : GraphSnapshot} (hstored : forecast.Stored snapshot) :
    snapshot.timestamp < timestamp := by
  have hall := List.filter_eq_nil_iff.mp (List.head?_eq_none_iff.mp hnone)
  simpa using hall _ (h.mem hstored)

/-- The first snapshot is the nearest one to a time before all of them. -/
theorem Keyed.first_le_abs_sub (h : Keyed forecast)
    (hbefore : (forecast.snapshots.filter fun s => s.1 ≤ timestamp).getLast? = none)
    (hafter : (forecast.snapshots.filter fun s => timestamp ≤ s.1).head? = some entry)
    {other : GraphSnapshot} (hother : forecast.Stored other) :
    |entry.2.timestamp - timestamp| ≤ |other.timestamp - timestamp| := by
  obtain ⟨hmem, hle, hleast⟩ := first_after hafter
  have hlt := h.lt_of_none_before hbefore hother
  rw [← h entry hmem]
  exact abs_sub_le_of_le_of_le hle (hleast _ (h.mem hother) hlt.le)

/-- The last snapshot is the nearest one to a time after all of them. -/
theorem Keyed.last_le_abs_sub (h : Keyed forecast)
    (hbefore : (forecast.snapshots.filter fun s => s.1 ≤ timestamp).getLast? = some entry)
    (hafter : (forecast.snapshots.filter fun s => timestamp ≤ s.1).head? = none)
    {other : GraphSnapshot} (hother : forecast.Stored other) :
    |entry.2.timestamp - timestamp| ≤ |other.timestamp - timestamp| := by
  obtain ⟨hmem, hle, hgreatest⟩ := last_before hbefore
  have hlt := h.lt_of_none_after hafter hother
  rw [← h entry hmem, abs_sub_comm, abs_sub_comm other.timestamp]
  exact abs_sub_le_of_ge_of_ge hle (hgreatest _ (h.mem hother) hlt.le)

/-- At a time at which none is stored, what is found before it and after it are neighbours. -/
theorem Keyed.neighbours (h : Keyed forecast) (hno : ∀ e ∈ forecast.snapshots, e.1 ≠ timestamp)
    {b a : DateTime × GraphSnapshot}
    (hbefore : (forecast.snapshots.filter fun s => s.1 ≤ timestamp).getLast? = some b)
    (hafter : (forecast.snapshots.filter fun s => timestamp ≤ s.1).head? = some a) :
    forecast.Neighbours b.2 a.2 timestamp := by
  obtain ⟨hmemB, hleB, hgreatest⟩ := last_before hbefore
  obtain ⟨hmemA, hleA, hleast⟩ := first_after hafter
  have hltB : b.1 < timestamp := lt_of_le_of_ne hleB (hno b hmemB)
  have hltA : timestamp < a.1 := lt_of_le_of_ne hleA (hno a hmemA).symm
  rw [h b hmemB] at hltB hgreatest
  rw [h a hmemA] at hltA hleast
  refine ⟨⟨_, hmemB⟩, ⟨_, hmemA⟩, hltB, hltA, fun s hs => ?_⟩
  rcases le_total s.timestamp timestamp with hs' | hs'
  · exact .inl (hgreatest _ (h.mem hs) hs')
  · exact .inr (hleast _ (h.mem hs) hs')

/-- A query gets nothing from an empty forecast; a nearest snapshot, where no two stand around the
time; else one of the two neighbours, by their distances in whole milliseconds. -/
theorem getAt_cases (hkeyed : Keyed forecast) (timestamp : DateTime) :
    (forecast.getAt timestamp = none ∧ ∀ snapshot, ¬ forecast.Stored snapshot) ∨
    (∃ snapshot, forecast.getAt timestamp = some snapshot ∧ forecast.Stored snapshot ∧
      (∀ other, forecast.Stored other →
        |snapshot.timestamp - timestamp| ≤ |other.timestamp - timestamp|) ∧
      ∀ b a, ¬ forecast.Neighbours b a timestamp) ∨
    ∃ b a, forecast.Neighbours b a timestamp ∧
      forecast.getAt timestamp =
        if numMilliseconds (timestamp - b.timestamp) < numMilliseconds (a.timestamp - timestamp)
        then some b else some a := by
  cases hfind : forecast.snapshots.find? fun s => s.1 = timestamp with
  | some found =>
    have hmem := List.mem_of_find?_eq_some hfind
    have htime : found.2.timestamp = timestamp :=
      (hkeyed found hmem).symm.trans (by simpa using List.find?_some hfind)
    refine .inr (.inl ⟨found.2, by simp only [getAt, hfind], ⟨_, hmem⟩, fun other _ => ?_, ?_⟩)
    · rw [htime, sub_self, abs_zero]
      exact abs_nonneg _
    · intro b a h
      have hbefore := h.before
      have hafter := h.after
      rcases h.between found.2 ⟨_, hmem⟩ with hle | hle <;> rw [htime] at hle <;> order
  | none =>
    have hno : ∀ entry ∈ forecast.snapshots, entry.1 ≠ timestamp := fun entry hentry =>
      by simpa using List.find?_eq_none.mp hfind entry hentry
    have hget : forecast.getAt timestamp = forecast.nearest timestamp := by
      simp only [getAt, hfind]
      split <;> rfl
    rw [hget]
    unfold nearest
    cases hbefore : (forecast.snapshots.filter fun s => s.1 ≤ timestamp).getLast? with
    | none =>
      cases hafter : (forecast.snapshots.filter fun s => timestamp ≤ s.1).head? with
      | none =>
        exact .inl ⟨rfl, fun snapshot hstored =>
          (hkeyed.lt_of_none_before hbefore hstored).asymm
            (hkeyed.lt_of_none_after hafter hstored)⟩
      | some a =>
        exact .inr (.inl ⟨a.2, rfl, ⟨_, (first_after hafter).1⟩,
          fun other hother => hkeyed.first_le_abs_sub hbefore hafter hother,
          fun b a' h => (hkeyed.lt_of_none_before hbefore h.stored_before).asymm h.before⟩)
    | some b =>
      cases hafter : (forecast.snapshots.filter fun s => timestamp ≤ s.1).head? with
      | none =>
        exact .inr (.inl ⟨b.2, rfl, ⟨_, (last_before hbefore).1⟩,
          fun other hother => hkeyed.last_le_abs_sub hbefore hafter hother,
          fun b' a h => (hkeyed.lt_of_none_after hafter h.stored_after).asymm h.after⟩)
      | some a =>
        have hneighbours := hkeyed.neighbours hno hbefore hafter
        refine .inr (.inr ⟨b.2, a.2, hneighbours, ?_⟩)
        simp only [abs_of_pos (sub_pos.mpr hneighbours.before),
          abs_of_pos (sub_pos.mpr hneighbours.after)]

theorem nearer_of_lt {d d' : Duration} (h : numMilliseconds d < numMilliseconds d') : d < d' := by
  by_contra hge
  exact h.not_ge (Int.tdiv_le_tdiv (by decide) (not_lt.mp hge))

/-- A query of a forecast gets the nearest snapshot exactly when the whole milliseconds tell which
of two neighbours that is. -/
theorem getsNearest_iff (horizonStart horizonEnd : DateTime) (mode : TopologyInterpolation)
    (snapshots : List GraphSnapshot) (timestamp : DateTime) :
    let forecast := run addSnapshot { new horizonStart horizonEnd with interpolation := mode }
      snapshots
    forecast.GetsNearest timestamp ↔ forecast.Discernible timestamp := by
  intro forecast
  have hkeyed : Keyed forecast := (keyed_new horizonStart horizonEnd mode).run snapshots
  unfold GetsNearest Discernible
  rcases getAt_cases hkeyed timestamp with
    ⟨hnone, hempty⟩ | ⟨snapshot, hget, hstored, hnearest, hno⟩ | ⟨b, a, hneighbours, hget⟩
  · have hno : ∀ b a, ¬ forecast.Neighbours b a timestamp := fun b a h => hempty b h.stored_before
    simp [hnone, hempty, hno]
  · refine iff_of_true ⟨?_, ?_⟩ fun b a h => absurd h (hno b a)
    · rw [hget]
      exact iff_of_false (Option.some_ne_none _) fun hempty => hempty snapshot hstored
    · intro s hs
      obtain rfl := Option.some.inj (hget.symm.trans hs)
      exact ⟨hstored, hnearest⟩
  · obtain ⟨hbefore, hafter⟩ := hneighbours.abs_sub
    constructor
    · intro h b' a' h' hlt
      obtain ⟨htimeB, htimeA⟩ := hneighbours.unique h'
      rw [← htimeB, ← htimeA] at hlt ⊢
      by_contra hms
      rw [if_neg hms] at hget
      have hle := (h.2 a hget).2 b hneighbours.stored_before
      rw [hbefore, hafter] at hle
      exact hlt.not_ge hle
    · intro h
      refine ⟨iff_of_false ?_ fun hempty => hempty b hneighbours.stored_before, ?_⟩
      · rw [hget]
        split <;> exact Option.some_ne_none _
      · intro s hs
        rw [hget] at hs
        split at hs
        · next hms =>
          obtain rfl := Option.some.inj hs
          refine ⟨hneighbours.stored_before, fun other hother => ?_⟩
          rw [hbefore]
          exact (hneighbours.le_abs_sub hother).elim id (nearer_of_lt hms).le.trans
        · next hms =>
          obtain rfl := Option.some.inj hs
          refine ⟨hneighbours.stored_after, fun other hother => ?_⟩
          have hle := not_lt.mp (mt (h b a hneighbours) hms)
          rw [hafter]
          exact (hneighbours.le_abs_sub hother).elim hle.trans id

/-- A fifth of a millisecond after one snapshot, the next one is taken, nine tenths away. -/
theorem later_snapshot_taken :
    ¬ (run addSnapshot (new 0 1100000) [⟨0, [], []⟩, ⟨1100000, [], []⟩]).GetsNearest 200000 := by
  rintro ⟨-, hnearest⟩
  have hmem : ((0, ⟨0, [], []⟩) : DateTime × GraphSnapshot) ∈
      (run addSnapshot (new 0 1100000) [⟨0, [], []⟩, ⟨1100000, [], []⟩]).snapshots := by decide
  exact absurd ((hnearest ⟨1100000, [], []⟩ (by decide)).2 _ ⟨_, hmem⟩) (by decide)

/-! ### Windows -/

/-- The snapshots of a window, in the order of their times.  The map panics on a window that ends
before it starts. -/
def queryWindow (forecast : TopologyForecast) (window : TimeWindow) : Option (List GraphSnapshot) :=
  if window.end < window.start then none
  else
    let range := forecast.snapshots.filter fun s => window.start ≤ s.1 ∧ s.1 ≤ window.end
    some (range.map fun s => s.2)

/-- No later snapshot was added for the time of this one. -/
def LastAdded (snapshots : List GraphSnapshot) (snapshot : GraphSnapshot) : Prop :=
  (snapshots.filter fun s => s.timestamp = snapshot.timestamp).getLast? = some snapshot

theorem mem_snapshots_run {start : TopologyForecast} (hstart : start.snapshots = [])
    (snapshots : List GraphSnapshot) (key : DateTime) (snapshot : GraphSnapshot) :
    (key, snapshot) ∈ (run addSnapshot start snapshots).snapshots ↔
      (snapshots.filter fun s => s.timestamp = key).getLast? = some snapshot := by
  induction snapshots using List.reverseRecOn with
  | nil => simp [hstart]
  | append_singleton snapshots s ih =>
    rw [run_append, List.filter_append]
    show (key, snapshot) ∈ BTreeMap.insertEntry s.timestamp s _ ↔ _
    rw [BTreeMap.mem_insertEntry (run addSnapshot start snapshots).sorted, ih]
    by_cases hkey : s.timestamp = key
    · simp [hkey, eq_comm]
    · simp [hkey, Ne.symm hkey]

/-- A snapshot that is stored under a time is what a query gets there. -/
theorem queryAt_of_mem {snapshot : GraphSnapshot} (h : (timestamp, snapshot) ∈ forecast.snapshots) :
    forecast.queryAt timestamp = snapshot := by
  have hkeys : (forecast.snapshots.map (·.1)).Nodup :=
    (List.pairwise_map.mpr forecast.sorted).imp fun hlt => hlt.ne
  have hfind : forecast.snapshots.find? (fun s => s.1 = timestamp) = some (timestamp, snapshot) := by
    cases hfound : forecast.snapshots.find? (fun s => s.1 = timestamp) with
    | none => simpa using List.find?_eq_none.mp hfound _ h
    | some entry =>
      have hkey : entry.1 = timestamp := by simpa using List.find?_some hfound
      rw [List.inj_on_of_nodup_map hkeys (List.mem_of_find?_eq_some hfound) h hkey]
  simp only [queryAt, getAt, hfind, Option.getD_some]

/-- A query over a window gets, in strict order of time, the snapshots of the window that were added
last for their times, and these are what queries at their times get. -/
theorem queryWindow_of_run (horizonStart horizonEnd : DateTime) (mode : TopologyInterpolation)
    (snapshots : List GraphSnapshot) (window : TimeWindow) :
    let forecast := run addSnapshot { new horizonStart horizonEnd with interpolation := mode }
      snapshots
    (forecast.queryWindow window = none ↔ window.end < window.start) ∧
    ∀ result, forecast.queryWindow window = some result →
      result.Pairwise (fun s s' => s.timestamp < s'.timestamp) ∧
      (∀ snapshot, snapshot ∈ result ↔ LastAdded snapshots snapshot ∧
        window.start ≤ snapshot.timestamp ∧ snapshot.timestamp ≤ window.end) ∧
      ∀ snapshot ∈ result, forecast.queryAt snapshot.timestamp = snapshot := by
  intro forecast
  have hkeyed : Keyed forecast := (keyed_new horizonStart horizonEnd mode).run snapshots
  have hmem : ∀ key snapshot, (key, snapshot) ∈ forecast.snapshots ↔ _ :=
    mem_snapshots_run rfl snapshots
  unfold queryWindow
  dsimp only
  split
  · next hreversed => exact ⟨iff_of_true rfl hreversed, fun result h => by contradiction⟩
  · next hordered =>
    refine ⟨iff_of_false (Option.some_ne_none _) hordered, fun result h => ?_⟩
    obtain rfl := Option.some.inj h
    have hresult : ∀ snapshot,
        snapshot ∈ (forecast.snapshots.filter fun s =>
            window.start ≤ s.1 ∧ s.1 ≤ window.end).map (·.2) ↔
          (snapshot.timestamp, snapshot) ∈ forecast.snapshots ∧
            window.start ≤ snapshot.timestamp ∧ snapshot.timestamp ≤ window.end := by
      intro snapshot
      rw [List.mem_map]
      constructor
      · rintro ⟨entry, hentry, rfl⟩
        rw [List.mem_filter, decide_eq_true_eq] at hentry
        rw [← hkeyed entry hentry.1]
        exact hentry
      · rintro ⟨hstored, hwindow⟩
        exact ⟨_, List.mem_filter.mpr ⟨hstored, decide_eq_true hwindow⟩, rfl⟩
    refine ⟨?_, fun snapshot => ?_, fun snapshot hsnapshot => ?_⟩
    · rw [List.pairwise_map]
      refine (forecast.sorted.filter _).imp_of_mem fun {a b} ha hb hlt => ?_
      rw [← hkeyed a (List.mem_filter.mp ha).1, ← hkeyed b (List.mem_filter.mp hb).1]
      exact hlt
    · rw [hresult, hmem]
      rfl
    · exact queryAt_of_mem ((hresult snapshot).mp hsnapshot).1

end TopologyForecast

end GroundCore.Oisl.Topology
