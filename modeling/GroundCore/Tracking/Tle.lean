import GroundCore.Core.Types
import GroundCore.Lib.NumberText
import GroundCore.Lib.HashMap

/-! Two-line elements as the tracking layer reads them: the catalog number and the epoch in the
columns of line 1.  Where the source panics there is no result.

What is fetched goes through the TLE batcher, which holds the elements until they are enough for a
batch, and is applied from there to the set of elements that the tracking layer holds. -/

namespace GroundCore.Tracking

open Lib NumberText

structure TleData where
  satelliteId : SatelliteId
  line1 : String
  line2 : String
  epoch : DateTime
  source : String
  deriving DecidableEq, Repr

/-! ### Dates -/

/-- The first day of a year, in days from the beginning of 1970. -/
def startOfYear (year : ℤ) : ℤ :=
  let before := year - 1
  365 * before + before / 4 - before / 100 + before / 400 - 719162

/-- The number of days of a year. -/
def yearLength (year : ℤ) : ℤ := startOfYear (year + 1) - startOfYear year

/-- The first year in which there are dates, and the first in which there are none. -/
def firstYear : ℤ := -262143

def endYear : ℤ := 262143

/-- `NaiveDate::from_ymd_opt(year, 1, 1)` -/
def fromYear (year : ℤ) : Option ℤ :=
  if firstYear ≤ year ∧ year < endYear then some (startOfYear year) else none

/-- A date so many days later. -/
def addDays (date days : ℤ) : Option ℤ :=
  if startOfYear firstYear ≤ date + days ∧ date + days < startOfYear endYear then
    some (date + days)
  else none

def secondsPerDay : ℤ := 86400

/-- The time so many seconds after the start of a date. -/
def addSeconds (date seconds : ℤ) : Option DateTime :=
  let time := date * secondsPerDay + seconds
  if (-9223372036854775 ≤ seconds ∧ seconds ≤ 9223372036854775) ∧
      startOfYear firstYear * secondsPerDay ≤ time ∧ time < startOfYear endYear * secondsPerDay then
    some (Duration.seconds time)
  else none

/-! ### Lines -/

/-- The year that two digits stand for. -/
def fullYear (yearPart : ℕ) : ℤ := if 56 < yearPart then 1900 + yearPart else 2000 + yearPart

def parseTleEpoch (s : List Char) : Option (Result DateTime) :=
  (splitBytes 2 s).bind fun (yearStr, dayStr) =>
    match parseU32 yearStr with
    | none => some (.error (.tracking "Invalid epoch year"))
    | some yearPart =>
      match parseF64 dayStr with
      | none => some (.error (.tracking "Invalid epoch day"))
      | some dayPart =>
        match fromYear (fullYear yearPart) with
        | none => some (.error (.tracking "Invalid year"))
        | some yearStart =>
          let days := dayPart.floor.toU32
          let fractionalDay := dayPart.sub (.ofU32 days)
          let seconds := fractionalDay.mul (.finite 86400)
          (addDays yearStart ((days.toNat : ℤ) - 1)).bind fun date =>
            (addSeconds date seconds.toI64).map .ok

/-- The two lines start with their numbers. -/
def HasTleFormat (line1 line2 : String) : Prop :=
  line1.toList.head? = some '1' ∧ line2.toList.head? = some '2'

instance (line1 line2 : String) : Decidable (HasTleFormat line1 line2) :=
  inferInstanceAs (Decidable (_ ∧ _))

namespace TleData

def fromLines (satelliteId : SatelliteId) (line1 line2 source : String) :
    Option (Result TleData) :=
  if ¬ HasTleFormat line1 line2 then some (.error (.tracking "Invalid TLE format"))
  else
    (slice 18 32 line1.toList).bind fun epochStr =>
      (parseTleEpoch epochStr).map fun epoch =>
        epoch.map fun epoch => { satelliteId, line1, line2, epoch, source }

def catalogNumber (tle : TleData) : Option (Result ℕ) :=
  (slice 2 7 tle.line1.toList).map fun numStr =>
    match parseU32 (trim numStr) with
    | none => .error (.tracking "Invalid catalog number")
    | some number => .ok number

end TleData

end GroundCore.Tracking

namespace GroundCore.Batching

open Lib

structure TleData where
  line1 : String
  line2 : String
  epoch : DateTime
  deriving DecidableEq, Repr

structure TleBatch where
  batchId : String
  createdAt : DateTime
  tles : HashMap SatelliteId TleData
  snapshotTime : DateTime

structure TleBatcher where
  pendingTles : HashMap SatelliteId TleData
  batchSize : ℕ

namespace TleBatcher

def new (batchSize : ℕ) : TleBatcher := { pendingTles := ∅, batchSize }

def addTle (batcher : TleBatcher) (satelliteId : SatelliteId) (tle : TleData) : TleBatcher :=
  { batcher with pendingTles := batcher.pendingTles.insert satelliteId tle }

def isReady (batcher : TleBatcher) : Bool :=
  decide (batcher.batchSize ≤ batcher.pendingTles.entries.length)

def flush (batcher : TleBatcher) (batchId : String) (now : DateTime) :
    TleBatcher × Option TleBatch :=
  if batcher.pendingTles.entries.isEmpty then (batcher, none)
  else
    let batch : TleBatch :=
      { batchId, createdAt := now, tles := batcher.pendingTles, snapshotTime := now }
    ({ batcher with pendingTles := ∅ }, some batch)

def forceFlush (batcher : TleBatcher) (batchId : String) (now : DateTime) :
    TleBatcher × Option TleBatch :=
  batcher.flush batchId now

end TleBatcher

end GroundCore.Batching

namespace GroundCore.Tracking

open Lib

structure TleSet where
  tles : HashMap SatelliteId TleData
  fetchedAt : DateTime

/-- The orders in which a refresh iterates over the satellites and over each batch. -/
structure RefreshOrder where
  satellites : IterOrder SatelliteId
  batch : IterOrder (SatelliteId × Batching.TleData)

/-- A function that fetches the elements of a satellite. -/
abbrev Fetch := SatelliteId → Result TleData

/-- An entry that comes from a batch. -/
def TleData.ofBatch (satelliteId : SatelliteId) (tle : Batching.TleData) : TleData :=
  { satelliteId, line1 := tle.line1, line2 := tle.line2, epoch := tle.epoch
    source := "batch_refresh" }

namespace TleSet

def new (now : DateTime) : TleSet := { tles := ∅, fetchedAt := now }

def add (set : TleSet) (tle : TleData) : TleSet :=
  { set with tles := set.tles.insert tle.satelliteId tle }

def get (set : TleSet) (satelliteId : SatelliteId) : Option TleData := set.tles.get? satelliteId

def satelliteIds (set : TleSet) (order : IterOrder SatelliteId) : List SatelliteId :=
  order.order set.tles.keys

def remove (set : TleSet) (satelliteId : SatelliteId) : TleSet × Option TleData :=
  ({ set with tles := set.tles.erase satelliteId }, set.tles.get? satelliteId)

def applyBatch (set : TleSet) (order : IterOrder (SatelliteId × Batching.TleData))
    (batch : Batching.TleBatch) : TleSet :=
  (order.order batch.tles.entries).foldl (fun set (satelliteId, tle) =>
    { set with tles := set.tles.insert satelliteId (.ofBatch satelliteId tle) }) set

/-- The batch of a flush, if there is one, is applied. -/
def applyFlush (set : TleSet) (order : IterOrder (SatelliteId × Batching.TleData)) :
    Batching.TleBatcher × Option Batching.TleBatch → TleSet × Batching.TleBatcher
  | (batcher, some batch) => (set.applyBatch order batch, batcher)
  | (batcher, none) => (set, batcher)

/-- One turn of the loop of `batchRefresh`.  Nothing reads the ids and the times of the batches. -/
def refreshOne (order : IterOrder (SatelliteId × Batching.TleData)) (fetchFn : Fetch)
    (batchId : String) (now : DateTime) (state : TleSet × Batching.TleBatcher)
    (satelliteId : SatelliteId) : TleSet × Batching.TleBatcher :=
  let (set, batcher) := state
  match fetchFn satelliteId with
  | .ok tle =>
    let tleData : Batching.TleData := { line1 := tle.line1, line2 := tle.line2, epoch := tle.epoch }
    let batcher := batcher.addTle satelliteId tleData
    if batcher.isReady then set.applyFlush order (batcher.flush batchId now) else (set, batcher)
  | .error _ => (set, batcher)

def batchRefresh (set : TleSet) (order : RefreshOrder) (fetchFn : Fetch) (batchSize : ℕ)
    (batchId : String) (now : DateTime) : TleSet × Result Unit :=
  let batcher := Batching.TleBatcher.new batchSize
  let satellitesToRefresh := set.satelliteIds order.satellites
  let (set, batcher) :=
    satellitesToRefresh.foldl (refreshOne order.batch fetchFn batchId now) (set, batcher)
  let (set, _) := set.applyFlush order.batch (batcher.forceFlush batchId now)
  ({ set with fetchedAt := now }, .ok ())

/-! ### The entries of a set under those that wait in a batcher -/

variable {order : IterOrder (SatelliteId × Batching.TleData)} {fetchFn : Fetch} {batchId : String}
  {now : DateTime} {set : TleSet} {batcher : Batching.TleBatcher}
  {state : TleSet × Batching.TleBatcher}

/-- The entry of a satellite once what waits in the batcher is applied. -/
def settled (state : TleSet × Batching.TleBatcher) (satelliteId : SatelliteId) : Option TleData :=
  match state.2.pendingTles.get? satelliteId with
  | some tle => some (.ofBatch satelliteId tle)
  | none => state.1.tles.get? satelliteId

/-- The entry of a satellite after a refresh, in place of `old`. -/
def refreshed (fetchFn : Fetch) (satelliteId : SatelliteId) (old : Option TleData) :
    Option TleData :=
  match fetchFn satelliteId with
  | .ok tle => some { tle with satelliteId, source := "batch_refresh" }
  | .error _ => old

theorem tles_applyBatch (set : TleSet) (batch : Batching.TleBatch) :
    (set.applyBatch order batch).tles =
      ((order.order batch.tles.entries).map fun e => (e.1, TleData.ofBatch e.1 e.2)).foldl
        (fun tles e => tles.insert e.1 e.2) set.tles := by
  rw [applyBatch, List.foldl_map]
  generalize order.order batch.tles.entries = entries
  induction entries generalizing set with
  | nil => rfl
  | cons e entries ih => exact ih _

/-- A batch replaces the entries of its satellites. -/
theorem get?_applyBatch (set : TleSet) (batch : Batching.TleBatch) (satelliteId : SatelliteId) :
    (set.applyBatch order batch).tles.get? satelliteId =
      match batch.tles.get? satelliteId with
      | some tle => some (.ofBatch satelliteId tle)
      | none => set.tles.get? satelliteId := by
  have hkeys : ((order.order batch.tles.entries).map fun e =>
      (e.1, TleData.ofBatch e.1 e.2)).map Prod.fst =
        (order.order batch.tles.entries).map Prod.fst := by
    rw [List.map_map]
    rfl
  have hperm := (order.perm batch.tles.entries).map Prod.fst
  have hnodup : ((order.order batch.tles.entries).map Prod.fst).Nodup :=
    hperm.nodup_iff.mpr batch.tles.nodup_keys
  have hmem : satelliteId ∈ (order.order batch.tles.entries).map Prod.fst ↔
      ∃ tle, batch.tles.get? satelliteId = some tle :=
    hperm.mem_iff.trans HashMap.mem_keys
  refine Option.ext fun entry => ?_
  rw [tles_applyBatch, HashMap.get?_foldl_insert (by rw [hkeys]; exact hnodup), hkeys, hmem]
  cases hget : batch.tles.get? satelliteId with
  | none =>
    have hnot : (satelliteId, entry) ∉ (order.order batch.tles.entries).map fun e =>
        (e.1, TleData.ofBatch e.1 e.2) := by
      intro hentry
      obtain ⟨⟨id, tle⟩, he, heq⟩ := List.mem_map.mp hentry
      obtain ⟨rfl, -⟩ := Prod.mk.inj heq
      rw [IterOrder.mem_order, HashMap.mem_entries, hget] at he
      contradiction
    simp [hnot]
  | some tle =>
    simp only [List.mem_map, IterOrder.mem_order, Prod.exists, HashMap.mem_entries, Prod.mk.injEq]
    constructor
    · rintro (⟨id, tle', hentry, rfl, rfl⟩ | ⟨hnone, -⟩)
      · rw [hget] at hentry
        rw [Option.some.inj hentry]
      · exact absurd ⟨tle, rfl⟩ hnone
    · intro hentry
      obtain rfl := Option.some.inj hentry
      exact .inl ⟨satelliteId, tle, hget, rfl, rfl⟩

/-- A flush moves what waits in the batcher to the set. -/
theorem settled_applyFlush (set : TleSet) (batcher : Batching.TleBatcher) (batchId : String)
    (now : DateTime) (satelliteId : SatelliteId) :
    settled (set.applyFlush order (batcher.flush batchId now)) satelliteId =
      settled (set, batcher) satelliteId := by
  unfold Batching.TleBatcher.flush
  split
  · rfl
  · simp only [applyFlush, settled, HashMap.get?_empty, get?_applyBatch]

/-- After a flush, nothing waits. -/
theorem settled_eq_get? (set : TleSet) (batcher : Batching.TleBatcher) (batchId : String)
    (now : DateTime) (satelliteId : SatelliteId) :
    settled (set.applyFlush order (batcher.flush batchId now)) satelliteId =
      (set.applyFlush order (batcher.flush batchId now)).1.tles.get? satelliteId := by
  have hpending : (set.applyFlush order (batcher.flush batchId now)).2.pendingTles.get?
      satelliteId = none := by
    unfold Batching.TleBatcher.flush
    split
    · next hempty =>
      have hnone : ∀ tle, batcher.pendingTles.get? satelliteId ≠ some tle := by
        intro tle hget
        rw [← HashMap.mem_entries, List.isEmpty_iff.mp hempty] at hget
        contradiction
      exact Option.eq_none_iff_forall_ne_some.mpr hnone
    · exact HashMap.get?_empty _
  rw [settled, hpending]

/-- A turn of the loop refreshes the entry of its satellite and no other. -/
theorem settled_refreshOne (state : TleSet × Batching.TleBatcher)
    (satelliteId other : SatelliteId) :
    settled (refreshOne order fetchFn batchId now state satelliteId) other =
      if other = satelliteId then refreshed fetchFn satelliteId (settled state satelliteId)
      else settled state other := by
  obtain ⟨set, batcher⟩ := state
  unfold refreshOne refreshed
  cases fetchFn satelliteId with
  | error e =>
    by_cases heq : other = satelliteId
    · rw [if_pos heq, heq]
    · rw [if_neg heq]
  | ok tle =>
    have hadd : settled (set, batcher.addTle satelliteId
        { line1 := tle.line1, line2 := tle.line2, epoch := tle.epoch }) other =
        if other = satelliteId then
          some { tle with satelliteId, source := "batch_refresh" }
        else settled (set, batcher) other := by
      simp only [settled, Batching.TleBatcher.addTle, HashMap.get?_insert]
      by_cases heq : other = satelliteId
      · simp [heq, TleData.ofBatch]
      · simp [heq]
    dsimp only
    split
    · rw [settled_applyFlush]
      exact hadd
    · exact hadd

theorem refreshed_refreshed (fetchFn : Fetch) (satelliteId : SatelliteId) (old : Option TleData) :
    refreshed fetchFn satelliteId (refreshed fetchFn satelliteId old) =
      refreshed fetchFn satelliteId old := by
  unfold refreshed
  cases fetchFn satelliteId <;> rfl

/-- The loop refreshes the entries of the satellites that it goes through. -/
theorem settled_foldl (satelliteIds : List SatelliteId) (state : TleSet × Batching.TleBatcher)
    (other : SatelliteId) :
    settled (satelliteIds.foldl (refreshOne order fetchFn batchId now) state) other =
      if other ∈ satelliteIds then refreshed fetchFn other (settled state other)
      else settled state other := by
  induction satelliteIds generalizing state with
  | nil => rfl
  | cons satelliteId satelliteIds ih =>
    rw [List.foldl_cons, ih, settled_refreshOne]
    by_cases heq : other = satelliteId
    · subst heq
      simp [refreshed_refreshed]
    · simp [heq]

/-- After a refresh, each entry is the fetched one, or the old one where the fetch failed. -/
theorem get?_batchRefresh (set : TleSet) (order : RefreshOrder) (fetchFn : Fetch) (batchSize : ℕ)
    (batchId : String) (now : DateTime) (satelliteId : SatelliteId) :
    (set.batchRefresh order fetchFn batchSize batchId now).1.tles.get? satelliteId =
      (set.tles.get? satelliteId).bind fun old =>
        refreshed fetchFn satelliteId (some old) := by
  have hids : satelliteId ∈ set.satelliteIds order.satellites ↔
      ∃ old, set.tles.get? satelliteId = some old := by
    rw [satelliteIds, IterOrder.mem_order, HashMap.mem_keys]
  have hstart : settled (set, .new batchSize) satelliteId = set.tles.get? satelliteId := rfl
  show (applyFlush _ _ (Batching.TleBatcher.flush _ _ _)).1.tles.get? satelliteId = _
  rw [← settled_eq_get?, settled_applyFlush, Prod.eta, settled_foldl, hstart]
  cases hget : set.tles.get? satelliteId with
  | none => rw [if_neg (by rw [hids, hget]; nofun)]; rfl
  | some old => rw [if_pos (hids.mpr ⟨old, hget⟩)]; rfl

/-- A refresh leaves the same entries whatever the sizes of its batches and the orders in which it
iterates: those that were fetched, and the old ones of the satellites whose fetch failed. -/
theorem batchRefresh_batchSize (set : TleSet) (fetchFn : Fetch) (order order' : RefreshOrder)
    (batchSize batchSize' : ℕ) (batchId batchId' : String) (now now' : DateTime)
    (satelliteId : SatelliteId) :
    (set.batchRefresh order fetchFn batchSize batchId now).1.tles.get? satelliteId =
      (set.batchRefresh order' fetchFn batchSize' batchId' now').1.tles.get? satelliteId ∧
    (set.batchRefresh order fetchFn batchSize batchId now).1.tles.get? satelliteId =
      (set.tles.get? satelliteId).map fun old =>
        match fetchFn satelliteId with
        | .ok tle => { tle with satelliteId, source := "batch_refresh" }
        | .error _ => old := by
  rw [get?_batchRefresh, get?_batchRefresh]
  refine ⟨rfl, ?_⟩
  unfold refreshed
  cases set.tles.get? satelliteId with
  | none => rfl
  | some old => cases fetchFn satelliteId <;> rfl

end TleSet

end GroundCore.Tracking
