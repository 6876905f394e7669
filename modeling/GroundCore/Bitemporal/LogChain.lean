import GroundCore.Bitemporal.Log
import GroundCore.Lib.Run

/-! Appending to the bitemporal log and verifying it.  `append` chains the entries in the order of
their arrival, and `verify_chain` sorts them by reception time, so the two agree when every entry
is received after those before it. -/

namespace GroundCore.Bitemporal

open Lib

variable {Value : Type} {ser : Serializer Value}

namespace BitemporalLog

/-- A log, and the entries whose `append` returned `Ok`. -/
structure History (Value : Type) where
  log : BitemporalLog Value
  accepted : List (LogEntry Value)

def History.new : History Value := ⟨.new, []⟩

def record (ser : Serializer Value) (h : History Value) (entry : LogEntry Value) : History Value :=
  match h.log.append ser entry with
  | (log, .ok ()) => ⟨log, h.accepted ++ [entry]⟩
  | (log, .error _) => ⟨log, h.accepted⟩

/-- The log verifies, whatever the order of its map, and its entries are the accepted ones, each
listed once under its pass. -/
structure Faithful (ser : Serializer Value) (h : History Value) : Prop where
  verifies : ∀ order, h.log.verifyChain ser order
  entries : h.log.entries.values.Perm h.accepted
  stored : ∀ e ∈ h.accepted, h.log.get e.entryId = some e
  listed : ∀ passId, h.log.getPassEntries passId = h.accepted.filter (·.passId = passId)
  once : ∀ passId ids, h.log.passEntries.get? passId = some ids → ids.Nodup

def Accepts (ser : Serializer Value) (log : BitemporalLog Value) (entry : LogEntry Value) : Prop :=
  entry.verify ser ∧ log.continues entry

/-- An entry that the log accepts has a new id, is received after every stored entry, and has no
previous hash if it is the first. -/
def Fits (ser : Serializer Value) (log : BitemporalLog Value) (entry : LogEntry Value) : Prop :=
  log.Accepts ser entry →
    (log.latestHash = none → entry.previousHash = none) ∧
    log.get entry.entryId = none ∧
    ∀ stored ∈ log.entries.values, stored.receptionTime.time < entry.receptionTime.time

/-- An append that is not accepted changes nothing. -/
theorem record_cases (ser : Serializer Value) (h : History Value) (entry : LogEntry Value) :
    (¬ h.log.Accepts ser entry ∧ record ser h entry = h) ∨
    (h.log.Accepts ser entry ∧ record ser h entry =
      ⟨{ entries := h.log.entries.insert entry.entryId entry
         passEntries := h.log.passEntries.insert entry.passId
           ((h.log.passEntries.get? entry.passId).getD [] ++ [entry.entryId])
         latestHash := some entry.hash }, h.accepted ++ [entry]⟩) := by
  unfold record append Accepts
  cases hverify : entry.verify ser with
  | false => exact .inl ⟨by simp, rfl⟩
  | true =>
    cases hcont : h.log.continues entry with
    | false => exact .inl ⟨by simp, rfl⟩
    | true => exact .inr ⟨⟨rfl, rfl⟩, rfl⟩

theorem verifyFrom_iff {previousHash : Option String} {entries : List (LogEntry Value)} :
    verifyFrom ser previousHash entries ↔
      Chained (·.previousHash) (fun e => some e.hash) previousHash entries ∧
        ∀ e ∈ entries, e.verify ser := by
  induction entries generalizing previousHash with
  | nil => simp [verifyFrom]
  | cons entry entries ih =>
    simp only [verifyFrom, chained_cons, List.forall_mem_cons]
    by_cases hprev : entry.previousHash = previousHash
    · by_cases hverify : entry.verify ser
      · simp [hprev, hverify, ih]
      · simp [hprev, hverify]
    · simp [hprev]

/-- What a run of fitting appends keeps: the accepted entries are a chain in the order of their
arrival, which is that of their reception times. -/
structure Ordered (ser : Serializer Value) (h : History Value) : Prop where
  chained : Chained (·.previousHash) (fun e => some e.hash) none h.accepted
  latest : h.log.latestHash = endpoint (fun e => some e.hash) none h.accepted
  verified : ∀ e ∈ h.accepted, e.verify ser
  increasing : h.accepted.Pairwise fun a b => a.receptionTime.time < b.receptionTime.time
  values : h.log.entries.values.Perm h.accepted
  stored : ∀ e ∈ h.accepted, h.log.get e.entryId = some e
  ids : (h.accepted.map (·.entryId)).Nodup
  listed : ∀ passId, (h.log.passEntries.get? passId).getD [] =
    (h.accepted.filter (·.passId = passId)).map (·.entryId)

theorem ordered_new : Ordered ser (History.new : History Value) := by
  constructor <;> simp [History.new, new]

theorem ordered_record {h : History Value} {entry : LogEntry Value} (hord : Ordered ser h)
    (hfits : h.log.Fits ser entry) : Ordered ser (record ser h entry) := by
  rcases record_cases ser h entry with ⟨-, hrun⟩ | ⟨haccepts, hrun⟩
  · rwa [hrun]
  obtain ⟨hfirst, hnew, hafter⟩ := hfits haccepts
  obtain ⟨hverify, hcont⟩ := haccepts
  rw [hrun]
  have hfresh : ∀ e ∈ h.accepted, e.entryId ≠ entry.entryId := by
    intro e he heq
    have hget := hord.stored e he
    rw [heq, hnew] at hget
    contradiction
  constructor
  · refine chained_append_singleton.mpr ⟨hord.chained, ?_⟩
    rw [← hord.latest]
    cases hlatest : h.log.latestHash with
    | none => exact hfirst hlatest
    | some latest => simpa [continues, hlatest] using hcont
  · show some entry.hash = endpoint _ none (h.accepted ++ [entry])
    rw [endpoint_append_singleton]
  · intro e he
    rcases List.mem_append.mp he with hold | hlast
    · exact hord.verified e hold
    · rwa [List.mem_singleton.mp hlast]
  · rw [List.pairwise_append]
    refine ⟨hord.increasing, List.pairwise_singleton _ _, ?_⟩
    intro e he last hlast
    rw [List.mem_singleton.mp hlast]
    exact hafter e (hord.values.mem_iff.mpr he)
  · rw [HashMap.values_insert_of_get?_eq_none hnew]
    exact (hord.values.cons entry).trans (List.perm_append_singleton entry h.accepted).symm
  · intro e he
    show HashMap.get? _ _ = _
    rw [HashMap.get?_insert]
    rcases List.mem_append.mp he with hold | hlast
    · rw [if_neg (hfresh e hold)]
      exact hord.stored e hold
    · rw [List.mem_singleton.mp hlast, if_pos rfl]
  · rw [List.map_append, List.nodup_append]
    refine ⟨hord.ids, by simp, ?_⟩
    intro id hid other hother
    obtain ⟨e, he, rfl⟩ := List.mem_map.mp hid
    have : other = entry.entryId := by simpa using hother
    rw [this]
    exact hfresh e he
  · intro passId
    simp only [HashMap.get?_insert, List.filter_append, List.map_append]
    by_cases hpass : passId = entry.passId
    · subst hpass
      simp [hord.listed]
    · simp [hpass, Ne.symm hpass, hord.listed]

instance : Std.Total (@ReceivedBy Value) := ⟨fun _ _ => Int.le_total _ _⟩

instance : IsTrans (LogEntry Value) ReceivedBy := ⟨fun _ _ _ h h' => Int.le_trans h h'⟩

theorem Ordered.sorted {h : History Value} (hord : Ordered ser h)
    (order : IterOrder (String × LogEntry Value)) :
    ((order.order h.log.entries.entries).map Prod.snd).insertionSort ReceivedBy = h.accepted := by
  have hperm : ((order.order h.log.entries.entries).map Prod.snd).Perm h.accepted :=
    ((order.perm _).map Prod.snd).trans hord.values
  have hsorted : (((order.order h.log.entries.entries).map Prod.snd).insertionSort
      ReceivedBy).Pairwise ReceivedBy := List.pairwise_insertionSort _ _
  have haccepted : h.accepted.Pairwise ReceivedBy :=
    hord.increasing.imp fun hlt => Int.le_of_lt hlt
  -- two accepted entries received at one time are the same entry
  have hsymm : Std.Symm fun a b : LogEntry Value =>
      a.receptionTime.time ≠ b.receptionTime.time := ⟨fun _ _ h => h.symm⟩
  have hne : h.accepted.Pairwise fun a b => a.receptionTime.time ≠ b.receptionTime.time :=
    hord.increasing.imp fun hlt => Int.ne_of_lt hlt
  refine List.Perm.eq_of_pairwise ?_ hsorted haccepted ((List.perm_insertionSort _ _).trans hperm)
  intro a b ha hb hab hba
  by_contra hdiff
  have ha' : a ∈ h.accepted := hperm.mem_iff.mp ((List.mem_insertionSort _).mp ha)
  exact hne.forall ha' hb hdiff (Int.le_antisymm hab hba)

theorem Ordered.faithful {h : History Value} (hord : Ordered ser h) : Faithful ser h := by
  have hget : ∀ l : List (LogEntry Value), (∀ e ∈ l, e ∈ h.accepted) →
      (l.map (·.entryId)).filterMap h.log.entries.get? = l := by
    intro l
    induction l with
    | nil => simp
    | cons e l ih =>
      intro hl
      obtain ⟨he, hrest⟩ := List.forall_mem_cons.mp hl
      have hstored : h.log.entries.get? e.entryId = some e := hord.stored e he
      rw [List.map_cons, List.filterMap_cons_some hstored, ih hrest]
  constructor
  · intro order
    unfold verifyChain
    rw [hord.sorted order]
    exact verifyFrom_iff.mpr ⟨hord.chained, hord.verified⟩
  · exact hord.values
  · exact hord.stored
  · intro passId
    have hlist := hord.listed passId
    unfold getPassEntries
    cases hids : h.log.passEntries.get? passId with
    | none =>
      rw [hids] at hlist
      simpa using hlist
    | some ids =>
      rw [hids, Option.getD_some] at hlist
      dsimp only
      rw [hlist]
      exact hget _ fun e he => (List.mem_filter.mp he).1
  · intro passId ids hids
    have hlist := hord.listed passId
    rw [hids, Option.getD_some] at hlist
    rw [hlist]
    exact hord.ids.sublist (List.filter_sublist.map _)

/-- A run in which every accepted entry fits reaches a log that verifies and holds exactly the
accepted entries. -/
theorem faithful_of_fits (ser : Serializer Value) (entries : List (LogEntry Value))
    (hfits : Along (record ser) (fun h entry => h.log.Fits ser entry) .new entries) :
    Faithful ser (run (record ser) .new entries) :=
  (run_invariant (I := Ordered ser) (fun _ _ => ordered_record) ordered_new hfits).faithful

/-- The texts of a release of `sdr-1` at the start of the epoch or a second after it. -/
def releaseSerializer : Serializer Unit where
  sha256 := Lib.sha256
  entryType _ := "\x7b\"type\":\"HardwareRelease\",\"device_id\":\"sdr-1\"\x7d"
  time t := if t = 0 then "\"1970-01-01T00:00:00Z\"" else "\"1970-01-01T00:00:01Z\""
  value _ := "null"

/-- The release of `sdr-1`, received `seconds` after it. -/
def released (entryId : String) (seconds : ℤ) (previousHash : Option String) : LogEntry Unit :=
  .new releaseSerializer entryId "pass-1" (.hardwareRelease "sdr-1") ⟨0⟩
    ⟨Duration.seconds seconds⟩ () previousHash

theorem record_first (seconds : ℤ) (previousHash : Option String) :
    record releaseSerializer .new (released "entry-1" seconds previousHash) =
      ⟨{ entries := (∅ : HashMap String (LogEntry Unit)).insert "entry-1"
           (released "entry-1" seconds previousHash)
         passEntries := (∅ : HashMap PassId (List String)).insert "pass-1" ["entry-1"]
         latestHash := some (released "entry-1" seconds previousHash).hash },
        [released "entry-1" seconds previousHash]⟩ := by
  rcases record_cases releaseSerializer .new (released "entry-1" seconds previousHash) with
    ⟨hno, -⟩ | ⟨-, hrun⟩
  · exact absurd ⟨LogEntry.verify_new .., rfl⟩ hno
  · exact hrun

theorem faithful_two_releases : Faithful releaseSerializer (run (record releaseSerializer) .new
    [released "entry-1" 0 none, released "entry-2" 1 (some (released "entry-1" 0 none).hash)]) := by
  refine faithful_of_fits releaseSerializer _ ⟨fun _ => ⟨fun _ => rfl, rfl, ?_⟩, ?_, trivial⟩
  · intro stored hstored
    simp [History.new, new] at hstored
  · rw [record_first]
    refine fun _ => ⟨?_, by decide, ?_⟩
    · intro hnone
      contradiction
    · intro stored hstored
      rcases HashMap.mem_values_of_insert hstored with rfl | hempty
      · decide
      · simp at hempty

/-- A second entry that was received before the first is appended, and the chain fails to verify. -/
theorem late_entry_not_faithful :
    ¬ ∀ (ser : Serializer Unit) (entries : List (LogEntry Unit)),
      Faithful ser (run (record ser) .new entries) := by
  intro h
  let first := released "entry-1" 1 none
  let late := released "entry-2" 0 (some first.hash)
  have hverify := (h releaseSerializer [first, late]).verifies (.stored _)
  have hfirst : record releaseSerializer .new first = _ := record_first 1 none
  rcases record_cases releaseSerializer (record releaseSerializer .new first) late with
    ⟨hno, -⟩ | ⟨-, hrun⟩
  · refine hno ⟨LogEntry.verify_new .., ?_⟩
    rw [hfirst]
    exact decide_eq_true rfl
  · rw [run_cons, run_cons, run_nil, hrun, hfirst] at hverify
    have hhead := (verifyFrom_iff.mp hverify).1.1
    contradiction

end BitemporalLog

end GroundCore.Bitemporal
