import GroundCore.Caching.Generic
import GroundCore.Lib.LeastRecentlyUsed
import GroundCore.Lib.Run

/-! The cache against the ideal one.  A full cache makes room before it looks whether the key is
stored, so it evicts an entry although none has to go. -/

namespace GroundCore.Caching

open Lib

variable {K V : Type} [DecidableEq K]

inductive CacheCall (K V : Type)
  | get (key : K) (now : DateTime)
  | put (order : IterOrder (K × CacheEntry V)) (key : K) (value : V) (now : DateTime × DateTime)
  | remove (key : K)

/-- The cache and the ideal one after the same calls, and the last reading of the clock. -/
structure CacheSession (K V : Type) where
  cache : LruCache K V
  ideal : LruMap K V
  clock : DateTime

namespace CacheSession

/-- Both caches are empty. -/
def new (maxSize : ℕ) (pos : 0 < maxSize) (clock : DateTime) : CacheSession K V :=
  { cache := .new maxSize, ideal := .new maxSize pos, clock }

def step (s : CacheSession K V) : CacheCall K V → CacheSession K V
  | .get key now =>
    { cache := (s.cache.get key now).1, ideal := s.ideal.get key, clock := now }
  | .put order key value now =>
    { cache := s.cache.put order key value now, ideal := s.ideal.put key value, clock := now.1 }
  | .remove key =>
    { s with cache := (s.cache.remove key).1, ideal := s.ideal.remove key }

/-- The clock moves on with every call that reads it. -/
def Ticks (s : CacheSession K V) : CacheCall K V → Prop
  | .get _ now => s.clock < now
  | .put _ _ _ now => s.clock < now.1
  | .remove _ => True

instance (s : CacheSession K V) : (c : CacheCall K V) → Decidable (Ticks s c)
  | .get .. => inferInstanceAs (Decidable (_ < _))
  | .put .. => inferInstanceAs (Decidable (_ < _))
  | .remove _ => isTrue trivial

/-- Both caches store the same values. -/
def Agrees (s : CacheSession K V) : Prop :=
  ∀ key, s.cache.stored? key = s.ideal.lookup key

/-- A value is put into a full cache under a new key or under the one that was accessed least
recently. -/
def Admissible (s : CacheSession K V) : CacheCall K V → Prop
  | .put _ key _ _ => s.cache.maxSize ≤ s.cache.len →
      ∀ entry, s.cache.entries.get? key = some entry →
        ∀ key' entry', s.cache.entries.get? key' = some entry' →
          entry.lastAccessed ≤ entry'.lastAccessed
  | .get .. => True
  | .remove _ => True

/-- Both caches store the same values, and the ideal one has its entries in the order in which the
other accessed them. -/
structure Refines (s : CacheSession K V) : Prop where
  agrees : Agrees s
  capacity : s.cache.maxSize = s.ideal.capacity
  recency : s.ideal.entries.Pairwise fun e e' => ∀ entry entry',
    s.cache.entries.get? e.1 = some entry → s.cache.entries.get? e'.1 = some entry' →
      entry'.lastAccessed < entry.lastAccessed
  past : ∀ key entry, s.cache.entries.get? key = some entry → entry.lastAccessed ≤ s.clock

variable {s : CacheSession K V}

theorem refines_new (maxSize : ℕ) (pos : 0 < maxSize) (clock : DateTime) :
    Refines (new maxSize pos clock : CacheSession K V) where
  agrees _ := rfl
  capacity := rfl
  recency := List.Pairwise.nil
  past key entry h := absurd h (by simp [new, LruCache.new])

theorem agrees_iff : Agrees s ↔
    ∀ key value, s.cache.stored? key = some value ↔ (key, value) ∈ s.ideal.entries := by
  constructor
  · intro h key value
    rw [h key, LruMap.lookup_eq_some_iff]
  · intro h key
    refine Option.ext fun value => ?_
    rw [h key value, LruMap.lookup_eq_some_iff]

theorem Agrees.mem_keys (h : Agrees s) (key : K) :
    key ∈ s.ideal.entries.map Prod.fst ↔ ∃ entry, s.cache.entries.get? key = some entry := by
  have hnone := h key
  unfold LruCache.stored? at hnone
  rw [← not_iff_not, ← LruMap.lookup_eq_none_iff, ← hnone, Option.map_eq_none_iff,
    Option.eq_none_iff_forall_ne_some]
  exact not_exists.symm

/-- Both caches have as many entries. -/
theorem Agrees.len_eq (h : Agrees s) : s.cache.len = s.ideal.entries.length := by
  have hperm : s.cache.entries.keys.Perm (s.ideal.entries.map Prod.fst) :=
    (List.perm_ext_iff_of_nodup s.cache.entries.nodup_keys s.ideal.nodup).mpr fun key => by
      rw [HashMap.mem_keys, h.mem_keys]
  have hlength := hperm.length_eq
  rwa [HashMap.keys, List.length_map, List.length_map] at hlength

/-- The caches agree when both have the entry in front and, of the others, those in `rest`. -/
theorem Agrees.front (h : Agrees s) {t : CacheSession K V} {key : K} {rest : List (K × V)}
    {entry : CacheEntry V} (hideal : t.ideal.entries = (key, entry.value) :: rest)
    (hrest : rest.Sublist s.ideal.entries) (hne : ∀ e ∈ rest, e.1 ≠ key)
    (hkey : t.cache.entries.get? key = some entry)
    (hothers : ∀ key' entry', key' ≠ key → (t.cache.entries.get? key' = some entry' ↔
      s.cache.entries.get? key' = some entry' ∧ key' ∈ rest.map Prod.fst)) : Agrees t := by
  rw [agrees_iff]
  intro key' value'
  rw [hideal, List.mem_cons]
  by_cases heq : key' = key
  · subst heq
    simp only [LruCache.stored?, hkey, Option.map_some, Option.some.injEq, Prod.mk.injEq,
      true_and]
    constructor
    · exact fun hvalue => Or.inl hvalue.symm
    · rintro (hvalue | hmem)
      · exact hvalue.symm
      · exact absurd rfl (hne _ hmem)
  · rw [s.ideal.mem_sublist_iff hrest, ← agrees_iff.mp h]
    simp only [LruCache.stored?, Option.map_eq_some_iff, hothers _ _ heq, Prod.mk.injEq, heq,
      false_and, false_or]
    constructor
    · rintro ⟨entry', ⟨hget, hin⟩, hvalue⟩
      exact ⟨⟨entry', hget, hvalue⟩, hin⟩
    · rintro ⟨⟨entry', hget, hvalue⟩, hin⟩
      exact ⟨entry', ⟨hget, hin⟩, hvalue⟩

/-- A call that makes one entry the latest and keeps the entries `rest` of the others. -/
theorem Refines.front (h : Refines s) {t : CacheSession K V}
    (hcapacity : t.cache.maxSize = t.ideal.capacity) {key : K} {rest : List (K × V)}
    {entry : CacheEntry V} (hideal : t.ideal.entries = (key, entry.value) :: rest)
    (hrest : rest.Sublist s.ideal.entries) (hkey : t.cache.entries.get? key = some entry)
    (hothers : ∀ key' entry', key' ≠ key → (t.cache.entries.get? key' = some entry' ↔
      s.cache.entries.get? key' = some entry' ∧ key' ∈ rest.map Prod.fst))
    (hnow : s.clock < entry.lastAccessed) (hclock : t.clock = entry.lastAccessed) : Refines t := by
  have hne : ∀ e ∈ rest, e.1 ≠ key := by
    have hnodup := t.ideal.nodup
    rw [hideal, List.map_cons, List.nodup_cons] at hnodup
    intro e he heq
    exact hnodup.1 (List.mem_map.mpr ⟨e, he, heq⟩)
  have hkept : ∀ key' entry', key' ≠ key → t.cache.entries.get? key' = some entry' →
      s.cache.entries.get? key' = some entry' :=
    fun key' entry' hdiff hget => ((hothers key' entry' hdiff).mp hget).1
  refine ⟨h.agrees.front hideal hrest hne hkey hothers, hcapacity, ?_, ?_⟩
  · rw [hideal, List.pairwise_cons]
    constructor
    · intro e he latest entry' hlatest hentry'
      rw [hkey] at hlatest
      obtain rfl := Option.some.inj hlatest
      exact Int.lt_of_le_of_lt (h.past _ _ (hkept _ _ (hne e he) hentry')) hnow
    · refine (h.recency.sublist hrest).imp_of_mem ?_
      intro e e' he he' hlt a b ha hb
      exact hlt a b (hkept _ _ (hne e he) ha) (hkept _ _ (hne e' he') hb)
  · intro key' entry' hentry'
    rw [hclock]
    by_cases heq : key' = key
    · subst heq
      rw [hkey] at hentry'
      obtain rfl := Option.some.inj hentry'
      exact Int.le_refl _
    · exact Int.le_of_lt (Int.lt_of_le_of_lt (h.past _ _ (hkept _ _ heq hentry')) hnow)

/-- The call makes a stored entry the latest and keeps all others. -/
theorem Refines.front_of_mem (h : Refines s) {t : CacheSession K V} {key : K}
    {entry : CacheEntry V} (hmem : key ∈ s.ideal.entries.map Prod.fst)
    (hideal : t.ideal = s.ideal.put key entry.value) (hcapacity : t.cache.maxSize = s.cache.maxSize)
    (hcache : ∀ key', t.cache.entries.get? key' =
      if key' = key then some entry else s.cache.entries.get? key')
    (hnow : s.clock < entry.lastAccessed) (hclock : t.clock = entry.lastAccessed) : Refines t := by
  have hentries : t.ideal.entries = (key, entry.value) :: LruMap.others key s.ideal.entries := by
    rw [hideal]
    exact LruMap.entries_put_of_mem hmem
  have hkey : t.cache.entries.get? key = some entry := by rw [hcache, if_pos rfl]
  refine h.front ?_ hentries List.filter_sublist hkey ?_ hnow hclock
  · rw [hideal, hcapacity]
    exact h.capacity
  · intro key' entry' hne
    rw [hcache, if_neg hne]
    refine (and_iff_left_of_imp fun hget => ?_).symm
    obtain ⟨e, he, rfl⟩ := List.mem_map.mp ((h.agrees.mem_keys key').mpr ⟨entry', hget⟩)
    exact List.mem_map_of_mem (LruMap.mem_others.mpr ⟨he, hne⟩)

theorem Refines.get (h : Refines s) {key : K} {now : DateTime} (htick : s.clock < now) :
    Refines (s.step (.get key now)) := by
  cases hget : s.cache.entries.get? key with
  | none =>
    have hstored : s.cache.stored? key = none := by simp [LruCache.stored?, hget]
    have hlookup : s.ideal.lookup key = none := by rw [← h.agrees key, hstored]
    have hideal : s.ideal.get key = s.ideal := by
      unfold LruMap.get
      rw [hlookup]
    have hstep : s.step (.get key now) = { s with clock := now } := by
      show CacheSession.mk _ _ _ = _
      rw [LruCache.get_of_stored?_eq_none hstored, hideal]
    rw [hstep]
    exact ⟨h.agrees, h.capacity, h.recency, fun _ _ hentry =>
      Int.le_trans (h.past _ _ hentry) (Int.le_of_lt htick)⟩
  | some entry =>
    have hmem := (h.agrees.mem_keys key).mpr ⟨entry, hget⟩
    have hlookup : s.ideal.lookup key = some entry.value := by
      rw [← h.agrees key]
      simp [LruCache.stored?, hget]
    have hideal : (s.step (.get key now)).ideal =
        s.ideal.put key ({ entry with lastAccessed := now } : CacheEntry V).value := by
      show s.ideal.get key = _
      unfold LruMap.get
      rw [hlookup]
    refine h.front_of_mem hmem hideal ?_ ?_ htick rfl
    · show (s.cache.get key now).1.maxSize = _
      unfold LruCache.get
      rw [hget]
    · intro key'
      show (s.cache.get key now).1.entries.get? key' = _
      unfold LruCache.get
      rw [hget]
      exact HashMap.get?_insert _ _ _ _

theorem Refines.remove (h : Refines s) (key : K) : Refines (s.step (.remove key)) := by
  have hget : ∀ key' entry', (s.cache.entries.erase key).get? key' = some entry' →
      key' ≠ key ∧ s.cache.entries.get? key' = some entry' := by
    intro key' entry' hentry'
    rw [HashMap.get?_erase] at hentry'
    split at hentry'
    · contradiction
    · next hne => exact ⟨hne, hentry'⟩
  refine ⟨agrees_iff.mpr fun key' value' => ?_, h.capacity, ?_, fun key' entry' hentry' =>
    h.past key' entry' (hget key' entry' hentry').2⟩
  · show (s.cache.remove key).1.stored? key' = some value' ↔ _ ∈ LruMap.others key s.ideal.entries
    rw [LruCache.stored?_remove, LruMap.mem_others, ← agrees_iff.mp h.agrees]
    by_cases heq : key' = key
    · simp [heq]
    · simp [heq]
  · refine (h.recency.sublist List.filter_sublist).imp fun hlt a b ha hb => ?_
    exact hlt a b (hget _ _ ha).2 (hget _ _ hb).2

/-! ### Eviction -/

/-- The last entry of the ideal cache was accessed before every other. -/
theorem Refines.last_lt (h : Refines s) {before : List (K × V)} {last : K × V}
    (hlast : s.ideal.entries = before ++ [last]) {entry : CacheEntry V}
    (hentry : s.cache.entries.get? last.1 = some entry) {key' : K} {entry' : CacheEntry V}
    (hne : key' ≠ last.1) (hentry' : s.cache.entries.get? key' = some entry') :
    entry.lastAccessed < entry'.lastAccessed := by
  have hmem := (h.agrees.mem_keys key').mpr ⟨entry', hentry'⟩
  have hrecency := h.recency
  rw [hlast, List.map_append, List.mem_append] at hmem
  rw [hlast, List.pairwise_append] at hrecency
  rcases hmem with hmem | hmem
  · obtain ⟨e, he, rfl⟩ := List.mem_map.mp hmem
    exact hrecency.2.2 e he last List.mem_cons_self entry' entry hentry' hentry
  · exact absurd (List.mem_singleton.mp hmem) hne

/-- The cache evicts the last entry of the ideal one. -/
theorem Refines.evictLru (h : Refines s) {before : List (K × V)} {last : K × V}
    (hlast : s.ideal.entries = before ++ [last]) (order : IterOrder (K × CacheEntry V)) :
    s.cache.evictLru order = { s.cache with entries := s.cache.entries.erase last.1 } := by
  have hlen := h.agrees.len_eq
  obtain ⟨entry, hentry⟩ := (h.agrees.mem_keys last.1).mp (by rw [hlast]; simp)
  obtain ⟨hempty, -⟩ | ⟨key, first, hfirst, hle, hevict⟩ := s.cache.evictLru_spec order
  · rw [hempty, hlast] at hlen
    simp at hlen
  · have hkey : key = last.1 := by
      by_contra hne
      have hlt := h.last_lt hlast hentry hne hfirst
      exact absurd (hle _ _ hentry) (Int.not_le.mpr hlt)
    rw [hevict, hkey]

theorem maxSize_evictLru (cache : LruCache K V) (order : IterOrder (K × CacheEntry V)) :
    (cache.evictLru order).maxSize = cache.maxSize := by
  obtain ⟨-, hsame⟩ | ⟨key, entry, -, -, hevict⟩ := cache.evictLru_spec order
  · rw [hsame]
  · rw [hevict]

/-! ### Storing a value -/

section Put

variable {order : IterOrder (K × CacheEntry V)} {key : K} {value : V} {now : DateTime × DateTime}

theorem maxSize_put (cache : LruCache K V) :
    (cache.put order key value now).maxSize = cache.maxSize := by
  show (if cache.maxSize ≤ cache.len then cache.evictLru order else cache).maxSize = _
  split
  · exact maxSize_evictLru _ _
  · rfl

theorem get?_put_of_room {cache : LruCache K V} (hroom : ¬ cache.maxSize ≤ cache.len) (key' : K) :
    (cache.put order key value now).entries.get? key' =
      if key' = key then some { value, lastAccessed := now.1, createdAt := now.2 }
      else cache.entries.get? key' := by
  have hput : (cache.put order key value now).entries =
      (if cache.maxSize ≤ cache.len then cache.evictLru order else cache).entries.insert key
        { value, lastAccessed := now.1, createdAt := now.2 } := rfl
  rw [hput, if_neg hroom, HashMap.get?_insert]

theorem Refines.get?_put_of_full (h : Refines s) (hfull : s.cache.maxSize ≤ s.cache.len)
    {before : List (K × V)} {last : K × V} (hlast : s.ideal.entries = before ++ [last])
    (key' : K) :
    (s.cache.put order key value now).entries.get? key' =
      if key' = key then some { value, lastAccessed := now.1, createdAt := now.2 }
      else if key' = last.1 then none else s.cache.entries.get? key' := by
  have hput : (s.cache.put order key value now).entries =
      (if s.cache.maxSize ≤ s.cache.len then s.cache.evictLru order else s.cache).entries.insert key
        { value, lastAccessed := now.1, createdAt := now.2 } := rfl
  rw [hput, if_pos hfull, HashMap.get?_insert, h.evictLru hlast order, HashMap.get?_erase]

/-- A stored key whose `put` is admissible in a full cache is the one that is evicted. -/
theorem Refines.eq_last_of_admissible (h : Refines s) (hok : Admissible s (.put order key value now))
    (hfull : s.cache.maxSize ≤ s.cache.len) (hmem : key ∈ s.ideal.entries.map Prod.fst)
    {before : List (K × V)} {last : K × V} (hlast : s.ideal.entries = before ++ [last]) :
    key = last.1 := by
  obtain ⟨entry, hentry⟩ := (h.agrees.mem_keys key).mp hmem
  obtain ⟨oldest, holdest⟩ := (h.agrees.mem_keys last.1).mp (by rw [hlast]; simp)
  by_contra hne
  have hlt := h.last_lt hlast holdest hne hentry
  exact absurd (hok hfull entry hentry last.1 oldest holdest) (Int.not_le.mpr hlt)

theorem Refines.put_of_mem (h : Refines s) (htick : s.clock < now.1)
    (hok : Admissible s (.put order key value now)) (hmem : key ∈ s.ideal.entries.map Prod.fst) :
    Refines (s.step (.put order key value now)) := by
  have hideal : (s.step (.put order key value now)).ideal = s.ideal.put key
      ({ value, lastAccessed := now.1, createdAt := now.2 } : CacheEntry V).value := rfl
  refine h.front_of_mem hmem hideal (maxSize_put s.cache) (fun key' => ?_) htick rfl
  by_cases hfull : s.cache.maxSize ≤ s.cache.len
  · obtain ⟨before, last, hlast⟩ := s.ideal.exists_last hmem
    have hkey := h.eq_last_of_admissible hok hfull hmem hlast
    refine (h.get?_put_of_full hfull hlast key').trans ?_
    by_cases heq : key' = key
    · rw [if_pos heq, if_pos heq]
    · rw [if_neg heq, if_neg heq, if_neg (hkey ▸ heq)]
  · exact get?_put_of_room hfull key'

theorem Refines.put_of_full (h : Refines s) (htick : s.clock < now.1)
    (hmem : key ∉ s.ideal.entries.map Prod.fst) (hfull : s.cache.maxSize ≤ s.cache.len) :
    Refines (s.step (.put order key value now)) := by
  have hlen := h.agrees.len_eq
  have hcapacity := h.capacity
  have hpos := s.ideal.pos
  obtain ⟨before, last, hlast⟩ :=
    (List.eq_nil_or_concat' s.ideal.entries).resolve_left fun hnil => by
      rw [hnil, List.length_nil] at hlen
      omega
  have hentries : (s.step (.put order key value now)).ideal.entries = (key, value) :: before :=
    LruMap.entries_put_of_full hmem hlast (by omega)
  have hcache : ∀ key', (s.step (.put order key value now)).cache.entries.get? key' =
      if key' = key then some { value, lastAccessed := now.1, createdAt := now.2 }
      else if key' = last.1 then none else s.cache.entries.get? key' :=
    h.get?_put_of_full hfull hlast
  have hnodup := s.ideal.nodup
  rw [hlast, List.map_append, List.nodup_append] at hnodup
  refine h.front ((maxSize_put s.cache).trans hcapacity) hentries
    (hlast ▸ List.sublist_append_left _ _) ((hcache key).trans (if_pos rfl))
    (fun key' entry' hne => ?_) htick rfl
  have hkeys := h.agrees.mem_keys key'
  rw [hlast, List.map_append, List.mem_append] at hkeys
  rw [hcache, if_neg hne]
  by_cases heq : key' = last.1
  · rw [if_pos heq]
    refine iff_of_false (by simp) fun hin => ?_
    exact hnodup.2.2 key' hin.2 last.1 List.mem_cons_self heq
  · rw [if_neg heq]
    refine (and_iff_left_of_imp fun hget => ?_).symm
    exact (hkeys.mpr ⟨entry', hget⟩).resolve_right fun hin => heq (List.mem_singleton.mp hin)

theorem Refines.put_of_room (h : Refines s) (htick : s.clock < now.1)
    (hmem : key ∉ s.ideal.entries.map Prod.fst) (hroom : ¬ s.cache.maxSize ≤ s.cache.len) :
    Refines (s.step (.put order key value now)) := by
  have hlen := h.agrees.len_eq
  have hcapacity := h.capacity
  have hentries : (s.step (.put order key value now)).ideal.entries =
      (key, value) :: s.ideal.entries := LruMap.entries_put_of_lt hmem (by omega)
  have hcache : ∀ key', (s.step (.put order key value now)).cache.entries.get? key' =
      if key' = key then some { value, lastAccessed := now.1, createdAt := now.2 }
      else s.cache.entries.get? key' := get?_put_of_room hroom
  refine h.front ((maxSize_put s.cache).trans hcapacity) hentries (List.Sublist.refl _)
    ((hcache key).trans (if_pos rfl)) (fun key' entry' hne => ?_) htick rfl
  rw [hcache, if_neg hne]
  exact (and_iff_left_of_imp fun hget => (h.agrees.mem_keys key').mpr ⟨entry', hget⟩).symm

/-- An admissible `put` refines that of the ideal cache. -/
theorem Refines.put (h : Refines s) (htick : s.clock < now.1)
    (hok : Admissible s (.put order key value now)) :
    Refines (s.step (.put order key value now)) := by
  by_cases hmem : key ∈ s.ideal.entries.map Prod.fst
  · exact h.put_of_mem htick hok hmem
  · by_cases hfull : s.cache.maxSize ≤ s.cache.len
    · exact h.put_of_full htick hmem hfull
    · exact h.put_of_room htick hmem hfull

/-- A `put` that leaves the caches in agreement was admissible. -/
theorem Refines.admissible_of_agrees (h : Refines s)
    (hafter : Agrees (s.step (.put order key value now))) :
    Admissible s (.put order key value now) := by
  intro hfull entry hentry key' entry' hentry'
  have hmem := (h.agrees.mem_keys key).mpr ⟨entry, hentry⟩
  obtain ⟨before, last, hlast⟩ := s.ideal.exists_last hmem
  have hkey : key = last.1 := by
    by_contra hne
    have hideal : (last.1, last.2) ∈ (s.ideal.put key value).entries := by
      rw [LruMap.entries_put_of_mem hmem]
      refine List.mem_cons_of_mem _ (LruMap.mem_others.mpr ⟨?_, Ne.symm hne⟩)
      rw [hlast]
      exact List.mem_append_right _ List.mem_cons_self
    have hstored := (agrees_iff.mp hafter last.1 last.2).mpr hideal
    have hgone : (s.cache.put order key value now).stored? last.1 = none := by
      rw [LruCache.stored?, h.get?_put_of_full hfull hlast, if_neg (Ne.symm hne), if_pos rfl]
      rfl
    exact absurd (hgone.symm.trans hstored) (by simp)
  subst hkey
  by_cases heq : key' = last.1
  · subst heq
    rw [hentry] at hentry'
    obtain rfl := Option.some.inj hentry'
    exact Int.le_refl _
  · exact Int.le_of_lt (h.last_lt hlast hentry heq hentry')

end Put

/-- The cache has at most as many entries as it may have. -/
def Fits (maxSize : ℕ) (s : CacheSession K V) : Prop :=
  s.cache.maxSize = maxSize ∧ s.cache.len ≤ maxSize

theorem Fits.step {maxSize : ℕ} (pos : 0 < maxSize) (h : Fits maxSize s) (c : CacheCall K V) :
    Fits maxSize (s.step c) := by
  obtain ⟨rfl, hlen⟩ := h
  unfold LruCache.len at hlen
  cases c with
  | get key now =>
    show (s.cache.get key now).1.maxSize = _ ∧ (s.cache.get key now).1.entries.entries.length ≤ _
    unfold LruCache.get
    cases hget : s.cache.entries.get? key with
    | none => exact ⟨rfl, hlen⟩
    | some entry =>
      refine ⟨rfl, ?_⟩
      show (s.cache.entries.insert key _).entries.length ≤ _
      rw [HashMap.length_insert, HashMap.length_erase hget]
      exact hlen
  | put order key value now =>
    have hroom : ∀ entries : HashMap K (CacheEntry V), entries.entries.length < s.cache.maxSize →
        (entries.insert key { value, lastAccessed := now.1, createdAt := now.2 }).entries.length ≤
          s.cache.maxSize := by
      intro entries hlt
      have := entries.length_erase_le key
      rw [HashMap.length_insert]
      omega
    show (if s.cache.maxSize ≤ s.cache.entries.entries.length then s.cache.evictLru order
        else s.cache).maxSize = _ ∧
      (HashMap.insert (if s.cache.maxSize ≤ s.cache.entries.entries.length then
        s.cache.evictLru order else s.cache).entries key _).entries.length ≤ _
    by_cases hfull : s.cache.maxSize ≤ s.cache.entries.entries.length
    · rw [if_pos hfull]
      refine ⟨maxSize_evictLru _ _, hroom _ ?_⟩
      obtain ⟨hempty, -⟩ | ⟨victim, entry, hentry, -, hevict⟩ := s.cache.evictLru_spec order
      · unfold LruCache.len at hempty
        omega
      · have hless := HashMap.length_erase hentry
        rw [hevict]
        show (s.cache.entries.erase victim).entries.length < s.cache.maxSize
        omega
    · rw [if_neg hfull]
      exact ⟨rfl, hroom _ (by omega)⟩
  | remove key => exact ⟨rfl, Nat.le_trans (s.cache.entries.length_erase_le key) hlen⟩

/-- A cache stores what the ideal one does, at all times, exactly when every `put` is admissible; it
never has more entries than it may have. -/
theorem agrees_iff_admissible {maxSize : ℕ} (pos : 0 < maxSize) {clock : DateTime}
    {calls : List (CacheCall K V)} (hticks : Along step Ticks (new maxSize pos clock) calls) :
    ((∀ n, Agrees (run step (new maxSize pos clock : CacheSession K V) (calls.take n))) ↔
      Along step Admissible (new maxSize pos clock) calls) ∧
    ∀ n, (run step (new maxSize pos clock : CacheSession K V) (calls.take n)).cache.len ≤
      maxSize := by
  constructor
  · refine along_iff_of_imp (I := Refines) (Q := Agrees) (fun s h => h.agrees) ?_ ?_
      (refines_new maxSize pos clock) hticks
    · intro s c h htick hok
      cases c with
      | get key now => exact h.get htick
      | put order key value now => exact h.put htick hok
      | remove key => exact h.remove key
    · intro s c h _ hafter
      cases c with
      | get key now => trivial
      | put order key value now => exact h.admissible_of_agrees hafter
      | remove key => trivial
  · intro n
    have hfits : Fits maxSize (new maxSize pos clock : CacheSession K V) := ⟨rfl, Nat.zero_le _⟩
    exact (run_preserves (I := Fits maxSize) (fun _ c h => h.step pos c) hfits (calls.take n)).2

/-- One entry at most, and each value under a new key. -/
theorem agrees_iff_admissible_one :
    Agrees (run step (new 1 Nat.one_pos 0 : CacheSession ℕ String)
      [.put (IterOrder.stored _) 1 "a" (1, 1), .get 1 2, .put (IterOrder.stored _) 2 "b" (3, 3),
        .remove 2]) := by
  have hticks : Along step Ticks (new 1 Nat.one_pos 0 : CacheSession ℕ String)
      [.put (IterOrder.stored _) 1 "a" (1, 1), .get 1 2, .put (IterOrder.stored _) 2 "b" (3, 3),
        .remove 2] := by decide
  refine (agrees_iff_admissible Nat.one_pos hticks).1.mpr ⟨?_, trivial, ?_, trivial, trivial⟩ 4
  · intro hfull
    exact absurd hfull (by decide)
  · intro _ entry hentry
    have hnone : none = some entry := hentry
    contradiction

/-- A value that is put again into a full cache under its own key evicts another. -/
theorem present_key_evicts :
    Along step Ticks (new 2 Nat.two_pos 0 : CacheSession ℕ String)
      [.put (IterOrder.stored _) 1 "a" (1, 1), .put (IterOrder.stored _) 2 "b" (2, 2),
        .put (IterOrder.stored _) 2 "c" (3, 3)] ∧
    ¬ Agrees (run step (new 2 Nat.two_pos 0 : CacheSession ℕ String)
      [.put (IterOrder.stored _) 1 "a" (1, 1), .put (IterOrder.stored _) 2 "b" (2, 2),
        .put (IterOrder.stored _) 2 "c" (3, 3)]) := by
  refine ⟨by decide, fun hagrees => ?_⟩
  exact absurd (hagrees 1) (by decide)

end CacheSession

end GroundCore.Caching
