import Mathlib.Data.List.Basic
import Mathlib.Data.List.Nodup

/-! The ideal cache with least-recently-used eviction: a map of bounded size whose entries are in
the order of their last use, the latest first. -/

namespace GroundCore.Lib

structure LruMap (K V : Type) where
  capacity : ℕ
  entries : List (K × V)
  pos : 0 < capacity
  nodup : (entries.map Prod.fst).Nodup
  length_le : entries.length ≤ capacity

namespace LruMap

variable {K V : Type}

/-- A map with a key has a last entry. -/
theorem exists_last (m : LruMap K V) {k : K} (h : k ∈ m.entries.map Prod.fst) :
    ∃ before last, m.entries = before ++ [last] :=
  (List.eq_nil_or_concat' m.entries).resolve_left fun hnil => by
    rw [hnil] at h
    exact absurd h List.not_mem_nil

/-- A key has its value in every part of the entries in which it occurs. -/
theorem mem_sublist_iff (m : LruMap K V) {part : List (K × V)} (h : part.Sublist m.entries) {k : K}
    {v : V} : (k, v) ∈ part ↔ (k, v) ∈ m.entries ∧ k ∈ part.map Prod.fst := by
  constructor
  · exact fun hmem => ⟨h.subset hmem, List.mem_map_of_mem hmem⟩
  · rintro ⟨hin, hkeys⟩
    obtain ⟨e, he, hkey⟩ := List.mem_map.mp hkeys
    have hsame : e = (k, v) := List.inj_on_of_nodup_map m.nodup (h.subset he) hin hkey
    exact hsame ▸ he

variable [DecidableEq K]

/-- The entries of the other keys. -/
def others (k : K) (entries : List (K × V)) : List (K × V) :=
  entries.filter fun e => decide (e.1 ≠ k)

theorem mem_others {k : K} {entries : List (K × V)} {e : K × V} :
    e ∈ others k entries ↔ e ∈ entries ∧ e.1 ≠ k := by
  simp [others]

theorem others_eq_self {k : K} {entries : List (K × V)} (h : k ∉ entries.map Prod.fst) :
    others k entries = entries := by
  refine List.filter_eq_self.mpr fun e he => decide_eq_true ?_
  rintro rfl
  exact h (List.mem_map_of_mem he)

theorem length_others_lt {k : K} {entries : List (K × V)} (h : k ∈ entries.map Prod.fst) :
    (others k entries).length < entries.length := by
  obtain ⟨e, he, rfl⟩ := List.mem_map.mp h
  exact List.length_filter_lt_length_iff_exists.mpr ⟨e, he, by simp⟩

theorem nodup_others {k : K} {entries : List (K × V)} (h : (entries.map Prod.fst).Nodup) :
    ((others k entries).map Prod.fst).Nodup :=
  h.sublist (List.filter_sublist.map _)

def new (capacity : ℕ) (pos : 0 < capacity) : LruMap K V :=
  { capacity, entries := [], pos, nodup := List.nodup_nil, length_le := Nat.zero_le _ }

def lookup (m : LruMap K V) (k : K) : Option V :=
  (m.entries.find? fun e => decide (e.1 = k)).map Prod.snd

/-- The entry comes first; when there would be too many, the last one goes. -/
def put (m : LruMap K V) (k : K) (v : V) : LruMap K V where
  capacity := m.capacity
  entries := (k, v) :: (others k m.entries).take (m.capacity - 1)
  pos := m.pos
  nodup := by
    rw [List.map_cons, List.nodup_cons]
    refine ⟨?_, (nodup_others m.nodup).sublist ((List.take_sublist _ _).map _)⟩
    intro h
    obtain ⟨e, he, hk⟩ := List.mem_map.mp h
    exact (mem_others.mp (List.mem_of_mem_take he)).2 hk
  length_le := by
    have := m.pos
    rw [List.length_cons, List.length_take]
    omega

/-- A key that is found is used. -/
def get (m : LruMap K V) (k : K) : LruMap K V :=
  match m.lookup k with
  | none => m
  | some v => m.put k v

def remove (m : LruMap K V) (k : K) : LruMap K V where
  capacity := m.capacity
  entries := others k m.entries
  pos := m.pos
  nodup := nodup_others m.nodup
  length_le := Nat.le_trans (List.length_filter_le _ _) m.length_le

variable {m : LruMap K V} {k k' : K} {v v' : V}

theorem lookup_eq_some_iff : m.lookup k = some v ↔ (k, v) ∈ m.entries := by
  unfold lookup
  constructor
  · intro h
    obtain ⟨e, hfind, rfl⟩ := Option.map_eq_some_iff.mp h
    have hk : e.1 = k := by simpa using List.find?_some hfind
    subst hk
    exact List.mem_of_find?_eq_some hfind
  · intro h
    cases hfind : m.entries.find? fun e => decide (e.1 = k) with
    | none => exact absurd (List.find?_eq_none.mp hfind (k, v) h) (by simp)
    | some e =>
      have hk : e.1 = k := by simpa using List.find?_some hfind
      have hsame := List.inj_on_of_nodup_map m.nodup (List.mem_of_find?_eq_some hfind) h hk
      rw [hsame]
      rfl

theorem lookup_eq_none_iff : m.lookup k = none ↔ k ∉ m.entries.map Prod.fst := by
  constructor
  · intro h hmem
    obtain ⟨e, he, rfl⟩ := List.mem_map.mp hmem
    rw [lookup_eq_some_iff.mpr he] at h
    contradiction
  · intro h
    rw [Option.eq_none_iff_forall_ne_some]
    intro v hv
    exact h (List.mem_map_of_mem (lookup_eq_some_iff.mp hv))

/-- A stored key takes no further room. -/
theorem entries_put_of_mem (h : k ∈ m.entries.map Prod.fst) :
    (m.put k v).entries = (k, v) :: others k m.entries := by
  have hlt := length_others_lt h
  have hle := m.length_le
  show _ :: _ = _
  rw [List.take_of_length_le (by omega)]

/-- As long as there is room, a new key evicts nothing. -/
theorem entries_put_of_lt (h : k ∉ m.entries.map Prod.fst) (hroom : m.entries.length < m.capacity) :
    (m.put k v).entries = (k, v) :: m.entries := by
  show _ :: _ = _
  rw [others_eq_self h, List.take_of_length_le (by omega)]

/-- In a full cache a new key evicts the entry that was not used for the longest time. -/
theorem entries_put_of_full (h : k ∉ m.entries.map Prod.fst) {before : List (K × V)} {last : K × V}
    (hlast : m.entries = before ++ [last]) (hfull : m.capacity ≤ m.entries.length) :
    (m.put k v).entries = (k, v) :: before := by
  have hle := m.length_le
  show _ :: _ = _
  rw [others_eq_self h]
  rw [hlast, List.length_append, List.length_singleton] at hfull hle
  rw [hlast, List.take_append_of_le_length (by omega), List.take_of_length_le (by omega)]

end LruMap

end GroundCore.Lib
