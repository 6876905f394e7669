import GroundCore.Core.Types
import GroundCore.Lib.HashMap

/-! The generic least-recently-used cache. -/

namespace GroundCore.Caching

open Lib

structure CacheEntry (V : Type) where
  value : V
  lastAccessed : DateTime
  createdAt : DateTime

structure LruCache (K V : Type) where
  entries : HashMap K (CacheEntry V)
  maxSize : ℕ

namespace LruCache

variable {K V : Type}

def new (maxSize : ℕ) : LruCache K V := ⟨∅, maxSize⟩

/-- The one of two entries that was accessed less recently; the first if neither was. -/
def lessRecent (a b : K × CacheEntry V) : K × CacheEntry V :=
  if b.2.lastAccessed < a.2.lastAccessed then b else a

/-- A scan by `lessRecent` ends at an entry that no other was accessed before. -/
theorem foldl_lessRecent (entries : List (K × CacheEntry V)) (first : K × CacheEntry V) :
    entries.foldl lessRecent first ∈ first :: entries ∧
      ∀ e ∈ first :: entries,
        (entries.foldl lessRecent first).2.lastAccessed ≤ e.2.lastAccessed := by
  induction entries generalizing first with
  | nil => simp
  | cons e entries ih =>
    obtain ⟨hmem, hle⟩ := ih (lessRecent first e)
    have hchoice : lessRecent first e ∈ first :: e :: entries ∧
        (lessRecent first e).2.lastAccessed ≤ first.2.lastAccessed ∧
        (lessRecent first e).2.lastAccessed ≤ e.2.lastAccessed := by
      unfold lessRecent
      split
      · next hlt => exact ⟨by simp, Int.le_of_lt hlt, Int.le_refl _⟩
      · next hge => exact ⟨by simp, Int.le_refl _, Int.not_lt.mp hge⟩
    obtain ⟨hin, hfirst, hsecond⟩ := hchoice
    rw [List.foldl_cons]
    constructor
    · rcases List.mem_cons.mp hmem with heq | hmem
      · rw [heq]
        exact hin
      · exact List.mem_cons_of_mem _ (List.mem_cons_of_mem _ hmem)
    · intro e' he'
      rcases List.mem_cons.mp he' with rfl | he'
      · exact Int.le_trans (hle _ List.mem_cons_self) hfirst
      · rcases List.mem_cons.mp he' with rfl | he'
        · exact Int.le_trans (hle _ List.mem_cons_self) hsecond
        · exact hle e' (List.mem_cons_of_mem _ he')

variable [DecidableEq K]

/-- The value at a key, and the cache with the entry marked as accessed. -/
def get (cache : LruCache K V) (key : K) (now : DateTime) : LruCache K V × Option V :=
  match cache.entries.get? key with
  | none => (cache, none)
  | some entry =>
    ({ cache with entries := cache.entries.insert key { entry with lastAccessed := now } },
      some entry.value)

def evictLru (cache : LruCache K V) (order : IterOrder (K × CacheEntry V)) : LruCache K V :=
  match order.order cache.entries.entries with
  | [] => cache
  | entry :: entries =>
    { cache with entries := cache.entries.erase (entries.foldl lessRecent entry).1 }

/-- Stores a value.  A full cache evicts an entry even if the key is stored already. -/
def put (cache : LruCache K V) (order : IterOrder (K × CacheEntry V)) (key : K) (value : V)
    (now : DateTime × DateTime) : LruCache K V :=
  let cache :=
    if cache.maxSize ≤ cache.entries.entries.length then cache.evictLru order else cache
  { cache with
    entries := cache.entries.insert key { value, lastAccessed := now.1, createdAt := now.2 } }

def remove (cache : LruCache K V) (key : K) : LruCache K V × Option V :=
  ({ cache with entries := cache.entries.erase key }, (cache.entries.get? key).map (·.value))

def len (cache : LruCache K V) : ℕ := cache.entries.entries.length

/-- The value stored at a key. -/
def stored? (cache : LruCache K V) (key : K) : Option V :=
  (cache.entries.get? key).map (·.value)

@[simp] theorem stored?_new (maxSize : ℕ) (key : K) :
    (new maxSize : LruCache K V).stored? key = none := rfl

@[simp] theorem get_snd (cache : LruCache K V) (key : K) (now : DateTime) :
    (cache.get key now).2 = cache.stored? key := by
  unfold get stored?
  cases cache.entries.get? key <;> rfl

theorem get_of_stored?_eq_none {cache : LruCache K V} {key : K} (h : cache.stored? key = none)
    (now : DateTime) : cache.get key now = (cache, none) := by
  have hget : cache.entries.get? key = none := Option.map_eq_none_iff.mp h
  simp [get, hget]

@[simp] theorem stored?_get (cache : LruCache K V) (key key' : K) (now : DateTime) :
    (cache.get key now).1.stored? key' = cache.stored? key' := by
  unfold get stored?
  cases hget : cache.entries.get? key with
  | none => rfl
  | some entry =>
    rw [HashMap.get?_insert]
    split
    · next heq => simp [heq, hget]
    · rfl

theorem stored?_of_evictLru {cache : LruCache K V} {order : IterOrder (K × CacheEntry V)} {key : K}
    {value : V} (h : (cache.evictLru order).stored? key = some value) :
    cache.stored? key = some value := by
  unfold evictLru at h
  split at h
  · exact h
  · simp only [stored?, HashMap.get?_erase] at h ⊢
    split at h
    · contradiction
    · exact h

/-- What is stored after `put` is the new value, or it was stored before. -/
theorem stored?_of_put {cache : LruCache K V} {order : IterOrder (K × CacheEntry V)} {key key' : K}
    {value value' : V} {now : DateTime × DateTime}
    (h : (cache.put order key value now).stored? key' = some value') :
    (key' = key ∧ value' = value) ∨ (key' ≠ key ∧ cache.stored? key' = some value') := by
  simp only [put, stored?, HashMap.get?_insert] at h
  split at h
  · next heq => exact .inl ⟨heq, (Option.some.inj h).symm⟩
  · next hne =>
    refine .inr ⟨hne, ?_⟩
    split at h
    · exact stored?_of_evictLru h
    · exact h

@[simp] theorem stored?_remove (cache : LruCache K V) (key key' : K) :
    (cache.remove key).1.stored? key' = if key' = key then none else cache.stored? key' := by
  simp only [remove, stored?, HashMap.get?_erase]
  split <;> rfl

/-- Eviction takes an entry that no other was accessed before, if there is any. -/
theorem evictLru_spec (cache : LruCache K V) (order : IterOrder (K × CacheEntry V)) :
    (cache.len = 0 ∧ cache.evictLru order = cache) ∨
    ∃ key entry, cache.entries.get? key = some entry ∧
      (∀ key' entry', cache.entries.get? key' = some entry' →
        entry.lastAccessed ≤ entry'.lastAccessed) ∧
      cache.evictLru order = { cache with entries := cache.entries.erase key } := by
  have hmem : ∀ e, e ∈ order.order cache.entries.entries ↔ e ∈ cache.entries.entries :=
    fun e => IterOrder.mem_order order
  have hlength := (order.perm cache.entries.entries).length_eq
  unfold evictLru
  cases horder : order.order cache.entries.entries with
  | nil =>
    rw [horder] at hlength
    exact Or.inl ⟨hlength.symm, rfl⟩
  | cons first entries =>
    obtain ⟨hin, hle⟩ := foldl_lessRecent entries first
    rw [← horder] at hin hle
    refine Or.inr ⟨_, (entries.foldl lessRecent first).2, ?_, ?_, rfl⟩
    · exact HashMap.mem_entries.mp ((hmem _).mp hin)
    · intro key' entry' hget
      exact hle (key', entry') ((hmem _).mpr (HashMap.mem_entries.mpr hget))

def clear (cache : LruCache K V) : LruCache K V := { cache with entries := ∅ }

/-! ### Answers through a cache -/

/-- A lookup: the value that is computed unless one is stored at the key, and what the cache reads
from outside. -/
structure Lookup (K V : Type) where
  key : K
  value : V
  now : DateTime
  order : IterOrder (K × CacheEntry V)
  stamps : DateTime × DateTime

def getOrCompute (cache : LruCache K V) (l : Lookup K V) : LruCache K V × V :=
  match cache.get l.key l.now with
  | (cache, some cached) => (cache, cached)
  | (cache, none) => (cache.put l.order l.key l.value l.stamps, l.value)

def answers (cache : LruCache K V) : List (Lookup K V) → List V
  | [] => []
  | l :: ls => (cache.getOrCompute l).2 :: answers (cache.getOrCompute l).1 ls

variable {cache : LruCache K V} {l : Lookup K V} {ls : List (Lookup K V)}

theorem getOrCompute_of_hit {value : V} (h : cache.stored? l.key = some value) :
    cache.getOrCompute l = ((cache.get l.key l.now).1, value) := by
  have hget : cache.get l.key l.now = ((cache.get l.key l.now).1, some value) :=
    Prod.ext rfl ((get_snd ..).trans h)
  rw [getOrCompute, hget]

theorem getOrCompute_of_miss (h : cache.stored? l.key = none) :
    cache.getOrCompute l = (cache.put l.order l.key l.value l.stamps, l.value) := by
  rw [getOrCompute, get_of_stored?_eq_none h]

/-- Lookups under one key compute one value. -/
def Consistent (ls : List (Lookup K V)) : Prop :=
  ∀ l ∈ ls, ∀ l' ∈ ls, l.key = l'.key → l.value = l'.value

/-- What is stored under the key of a lookup is the value that it computes. -/
theorem answers_of_consistent (hstored : ∀ l ∈ ls, ∀ value,
    cache.stored? l.key = some value → value = l.value) (h : Consistent ls) :
    cache.answers ls = ls.map (·.value) := by
  induction ls generalizing cache with
  | nil => rfl
  | cons l ls ih =>
    have hmem : ∀ l' ∈ ls, l' ∈ l :: ls := fun _ => List.mem_cons_of_mem _
    have hrest : Consistent ls := fun a ha b hb => h a (hmem a ha) b (hmem b hb)
    rw [answers, List.map_cons]
    cases hget : cache.stored? l.key with
    | some value =>
      obtain rfl := hstored l List.mem_cons_self value hget
      rw [getOrCompute_of_hit hget, ih (fun l' hl' value' hvalue => ?_) hrest]
      rw [stored?_get] at hvalue
      exact hstored l' (hmem l' hl') value' hvalue
    | none =>
      rw [getOrCompute_of_miss hget, ih (fun l' hl' value' hvalue => ?_) hrest]
      rcases stored?_of_put hvalue with ⟨hkey, rfl⟩ | ⟨-, hbefore⟩
      · exact h l List.mem_cons_self l' (hmem l' hl') hkey.symm
      · exact hstored l' (hmem l' hl') value' hbefore

theorem len_get (cache : LruCache K V) (key : K) (now : DateTime) :
    (cache.get key now).1.len = cache.len := by
  unfold get len
  cases hget : cache.entries.get? key with
  | none => rfl
  | some entry =>
    show (cache.entries.insert key _).entries.length = _
    rw [HashMap.length_insert, HashMap.length_erase hget]

theorem maxSize_get (cache : LruCache K V) (key : K) (now : DateTime) :
    (cache.get key now).1.maxSize = cache.maxSize := by
  unfold get
  cases cache.entries.get? key <;> rfl

/-- A cache that has room for one more entry evicts none. -/
theorem put_of_room (hroom : cache.len < cache.maxSize) (order : IterOrder (K × CacheEntry V))
    (key : K) (value : V) (now : DateTime × DateTime) :
    (∀ key', (cache.put order key value now).stored? key' =
        if key' = key then some value else cache.stored? key') ∧
      (cache.put order key value now).len ≤ cache.len + 1 ∧
      (cache.put order key value now).maxSize = cache.maxSize := by
  have hfits : ¬ cache.maxSize ≤ cache.entries.entries.length := Nat.not_le.mpr hroom
  simp only [put, if_neg hfits]
  refine ⟨fun key' => ?_, ?_, trivial⟩
  · simp only [stored?, HashMap.get?_insert]
    split <;> rfl
  · unfold len
    rw [HashMap.length_insert]
    have := HashMap.length_erase_le cache.entries key
    omega

/-- Without evictions, the answers are right only if lookups under one key compute one value. -/
theorem consistent_of_answers (hroom : cache.len + ls.length ≤ cache.maxSize)
    (h : cache.answers ls = ls.map (·.value)) :
    (∀ l ∈ ls, ∀ value, cache.stored? l.key = some value → value = l.value) ∧ Consistent ls := by
  induction ls generalizing cache with
  | nil => exact ⟨nofun, nofun⟩
  | cons l ls ih =>
    rw [answers, List.map_cons] at h
    obtain ⟨hhead, htail⟩ := List.cons.inj h
    rw [List.length_cons] at hroom
    have hall : ∀ value, (cache.getOrCompute l).1.stored? l.key = some value → value = l.value →
        (∀ l' ∈ ls, ∀ value, (cache.getOrCompute l).1.stored? l'.key = some value →
          value = l'.value) → Consistent ls → Consistent (l :: ls) := by
      intro value hvalue heq hrest hconsistent
      have hfirst : ∀ l' ∈ ls, l.key = l'.key → l.value = l'.value := fun l' hl' hkey =>
        heq.symm.trans (hrest l' hl' value (hkey ▸ hvalue))
      intro a ha b hb hkey
      rcases List.mem_cons.mp ha with rfl | ha'
      · rcases List.mem_cons.mp hb with rfl | hb'
        · rfl
        · exact hfirst b hb' hkey
      · rcases List.mem_cons.mp hb with rfl | hb'
        · exact (hfirst a ha' hkey.symm).symm
        · exact hconsistent a ha' b hb' hkey
    cases hget : cache.stored? l.key with
    | some value =>
      rw [getOrCompute_of_hit hget] at hhead htail hall
      obtain ⟨hrest, hconsistent⟩ := ih (by rw [len_get, maxSize_get]; omega) htail
      have hstored : (cache.get l.key l.now).1.stored? l.key = some value := by rwa [stored?_get]
      refine ⟨fun l' hl' value' hvalue => ?_, hall value hstored hhead hrest hconsistent⟩
      rcases List.mem_cons.mp hl' with rfl | hl'
      · exact (Option.some.inj (hget.symm.trans hvalue)).symm.trans hhead
      · exact hrest l' hl' value' (by rwa [stored?_get])
    | none =>
      rw [getOrCompute_of_miss hget] at htail hall
      obtain ⟨hput, hlen, hmax⟩ :=
        put_of_room (by omega : cache.len < cache.maxSize) l.order l.key l.value l.stamps
      have hfits : (cache.put l.order l.key l.value l.stamps).len + ls.length ≤
          (cache.put l.order l.key l.value l.stamps).maxSize := by
        rw [hmax]
        omega
      obtain ⟨hrest, hconsistent⟩ := ih hfits htail
      refine ⟨fun l' hl' value' hvalue => ?_,
        hall l.value (by rw [hput, if_pos rfl]) rfl hrest hconsistent⟩
      rcases List.mem_cons.mp hl' with rfl | hl'
      · rw [hget] at hvalue
        contradiction
      · refine hrest l' hl' value' ?_
        rw [hput]
        split
        · next hkey =>
          rw [hkey, hget] at hvalue
          contradiction
        · exact hvalue

/-- The answers of every new cache are those that would be computed, exactly when lookups under one
key compute one value. -/
theorem answers_new_iff_consistent (ls : List (Lookup K V)) :
    (∀ maxSize, (new maxSize).answers ls = ls.map (·.value)) ↔ Consistent ls := by
  constructor
  · intro h
    have hroom : (new ls.length : LruCache K V).len + ls.length ≤ ls.length :=
      Nat.le_of_eq (Nat.zero_add ls.length)
    exact (consistent_of_answers hroom (h ls.length)).2
  · intro h maxSize
    exact answers_of_consistent (fun _ _ _ hvalue => by simp at hvalue) h

end LruCache

end GroundCore.Caching
