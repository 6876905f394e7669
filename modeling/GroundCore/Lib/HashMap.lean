import Mathlib.Data.List.AList

/-! Hash maps as association lists with distinct keys.  The order of the entries of such a list
carries no meaning: what a program reads by iterating over a hash map is read through an
`IterOrder`, which may be any permutation of the entries. -/

namespace GroundCore.Lib

/-- An order of iteration: a permutation for every list of entries. -/
structure IterOrder (α : Type) where
  order : List α → List α
  perm : ∀ l, (order l).Perm l

/-- The order in which the entries are stored. -/
def IterOrder.stored (α : Type) : IterOrder α := ⟨id, List.Perm.refl⟩

@[simp] theorem IterOrder.mem_order {α : Type} (ord : IterOrder α) {l : List α} {a : α} :
    a ∈ ord.order l ↔ a ∈ l := (ord.perm l).mem_iff

/-- A hash map from `K` to `V`. -/
def HashMap (K V : Type) := AList fun _ : K => V

namespace HashMap

variable {K V W : Type}

instance : EmptyCollection (HashMap K V) := ⟨(∅ : AList fun _ : K => V)⟩

/-- The entries, in the order in which they are stored. -/
def entries (m : HashMap K V) : List (K × V) := (AList.entries m).map fun e => (e.1, e.2)

def keys (m : HashMap K V) : List K := m.entries.map Prod.fst

def values (m : HashMap K V) : List V := m.entries.map Prod.snd

/-- Every value replaced by its image under `f`. -/
def mapValues (f : V → W) (m : HashMap K V) : HashMap K W :=
  ⟨(AList.entries m).map fun e => ⟨e.1, f e.2⟩, by
    have h := AList.keys_nodup m
    simpa [AList.keys, List.NodupKeys, List.keys, Function.comp_def] using h⟩

theorem nodup_keys (m : HashMap K V) : m.keys.Nodup := by
  have h := AList.keys_nodup m
  simpa [keys, entries, AList.keys, List.keys, Function.comp_def] using h

@[simp] theorem entries_empty : (∅ : HashMap K V).entries = [] := rfl

@[simp] theorem values_empty : (∅ : HashMap K V).values = [] := rfl

@[simp] theorem entries_mapValues (f : V → W) (m : HashMap K V) :
    (m.mapValues f).entries = m.entries.map fun e => (e.1, f e.2) := by
  simp [entries, mapValues]

variable [DecidableEq K]

def get? (m : HashMap K V) (k : K) : Option V := AList.lookup k m

def insert (m : HashMap K V) (k : K) (v : V) : HashMap K V := AList.insert k v m

def erase (m : HashMap K V) (k : K) : HashMap K V := AList.erase k m

/-- The map after `f` is applied to the value at `k` through a mutable reference. -/
def modify (m : HashMap K V) (k : K) (f : V → V) : HashMap K V :=
  match m.get? k with
  | none => m
  | some v => m.insert k (f v)

@[simp] theorem get?_empty (k : K) : (∅ : HashMap K V).get? k = none := AList.lookup_empty k

@[simp] theorem get?_insert (m : HashMap K V) (k k' : K) (v : V) :
    (m.insert k v).get? k' = if k' = k then some v else m.get? k' := by
  split
  · next h => subst h; exact AList.lookup_insert m
  · next h => exact AList.lookup_insert_ne h

@[simp] theorem get?_erase (m : HashMap K V) (k k' : K) :
    (m.erase k).get? k' = if k' = k then none else m.get? k' := by
  split
  · next h => subst h; exact AList.lookup_erase k' m
  · next h => exact AList.lookup_erase_ne h

/-- An entry that is taken out and put back. -/
theorem get?_insert_erase {m : HashMap K V} {k : K} {v : V} (h : m.get? k = some v) (k' : K) :
    ((m.erase k).insert k v).get? k' = m.get? k' := by
  rw [get?_insert, get?_erase]
  split
  · next heq => rw [heq, h]
  · rfl

theorem get?_modify (m : HashMap K V) (k k' : K) (f : V → V) :
    (m.modify k f).get? k' = if k' = k then (m.get? k').map f else m.get? k' := by
  unfold modify
  cases h : m.get? k with
  | none =>
    by_cases heq : k' = k
    · simp [heq, h]
    · simp [heq]
  | some v =>
    by_cases heq : k' = k
    · simp [heq, h]
    · simp [heq]

@[simp] theorem get?_mapValues (m : HashMap K V) (f : V → W) (k : K) :
    (m.mapValues f).get? k = (m.get? k).map f := by
  show List.dlookup k ((AList.entries m).map fun e => (⟨e.1, f e.2⟩ : Σ _ : K, W)) =
    (List.dlookup k (AList.entries m)).map f
  induction AList.entries m with
  | nil => rfl
  | cons e entries ih =>
    rw [List.map_cons]
    by_cases heq : k = e.1
    · subst heq
      rw [List.dlookup_cons_eq, List.dlookup_cons_eq]
      rfl
    · rw [← ih.trans (congrArg (Option.map f) (List.dlookup_cons_ne entries e heq).symm)]
      exact List.dlookup_cons_ne _ (⟨e.1, f e.2⟩ : Σ _ : K, W) heq

theorem mem_entries {m : HashMap K V} {k : K} {v : V} :
    (k, v) ∈ m.entries ↔ m.get? k = some v := by
  have h : (k, v) ∈ m.entries ↔ (⟨k, v⟩ : Σ _ : K, V) ∈ AList.entries m := by
    simp only [entries, List.mem_map, Prod.mk.injEq]
    constructor
    · rintro ⟨⟨_, _⟩, hmem, rfl, rfl⟩
      exact hmem
    · exact fun hmem => ⟨_, hmem, rfl, rfl⟩
  rw [h]
  exact AList.mem_lookup_iff.symm

theorem mem_keys {m : HashMap K V} {k : K} : k ∈ m.keys ↔ ∃ v, m.get? k = some v := by
  constructor
  · intro h
    obtain ⟨⟨k, v⟩, hmem, rfl⟩ := List.mem_map.mp h
    exact ⟨v, mem_entries.mp hmem⟩
  · rintro ⟨v, h⟩
    exact List.mem_map.mpr ⟨(k, v), mem_entries.mpr h, rfl⟩

/-- The entry of a key and the entries of the others. -/
theorem entries_perm_erase {m : HashMap K V} {k : K} {v : V} (h : m.get? k = some v) :
    m.entries.Perm ((k, v) :: (m.erase k).entries) := by
  have hmem : (⟨k, v⟩ : Σ _ : K, V) ∈ AList.entries m := AList.mem_lookup_iff.mp h
  obtain ⟨w, front, back, hfront, heq, herase⟩ :=
    List.exists_of_kerase (List.mem_keys_of_mem hmem)
  have hw : w = v := by
    have := List.dlookup_append front (⟨k, w⟩ :: back) k
    have hlook : List.dlookup k (AList.entries m) = some v := h
    rw [heq] at hlook
    rw [hlook, List.dlookup_eq_none.mpr hfront] at this
    simpa using this.symm
  subst hw
  have hentries : (m.erase k).entries = (front ++ back).map fun e => (e.1, e.2) := by
    show (List.kerase k (AList.entries m)).map _ = _
    rw [herase]
  rw [hentries, entries, heq]
  simp only [List.map_append, List.map_cons]
  exact List.perm_middle

theorem erase_of_get?_eq_none {m : HashMap K V} {k : K} (h : m.get? k = none) : m.erase k = m :=
  AList.ext (List.kerase_of_notMem_keys (AList.lookup_eq_none.mp h))

theorem length_erase {m : HashMap K V} {k : K} {v : V} (h : m.get? k = some v) :
    (m.erase k).entries.length + 1 = m.entries.length :=
  (entries_perm_erase h).length_eq.symm

theorem length_erase_le (m : HashMap K V) (k : K) :
    (m.erase k).entries.length ≤ m.entries.length := by
  cases h : m.get? k with
  | none => rw [erase_of_get?_eq_none h]
  | some v => have := length_erase h; omega

theorem length_insert (m : HashMap K V) (k : K) (v : V) :
    (m.insert k v).entries.length = (m.erase k).entries.length + 1 := rfl

theorem mem_values {m : HashMap K V} {v : V} : v ∈ m.values ↔ ∃ k, m.get? k = some v := by
  constructor
  · intro h
    obtain ⟨⟨k, w⟩, hmem, rfl⟩ := List.mem_map.mp h
    exact ⟨k, mem_entries.mp hmem⟩
  · rintro ⟨k, h⟩
    exact List.mem_map.mpr ⟨(k, v), mem_entries.mpr h, rfl⟩

theorem mem_values_of_insert {m : HashMap K V} {k : K} {v w : V}
    (h : w ∈ (m.insert k v).values) : w = v ∨ w ∈ m.values := by
  obtain ⟨k', hget⟩ := mem_values.mp h
  rw [get?_insert] at hget
  split at hget
  · exact .inl (Option.some.inj hget).symm
  · exact .inr (mem_values.mpr ⟨k', hget⟩)

theorem values_insert (m : HashMap K V) (k : K) (v : V) :
    (m.insert k v).values = v :: (m.erase k).values := rfl

theorem values_insert_of_get?_eq_none {m : HashMap K V} {k : K} (h : m.get? k = none) (v : V) :
    (m.insert k v).values = v :: m.values := by
  rw [values_insert, erase_of_get?_eq_none h]

theorem values_perm_erase {m : HashMap K V} {k : K} {v : V} (h : m.get? k = some v) :
    m.values.Perm (v :: (m.erase k).values) :=
  (entries_perm_erase h).map Prod.snd

theorem mapValues_eq_self {m : HashMap K V} {f : V → V} (h : ∀ v ∈ m.values, f v = v) :
    m.mapValues f = m := by
  apply AList.ext
  show (AList.entries m).map (fun e => (⟨e.1, f e.2⟩ : Σ _ : K, V)) = AList.entries m
  conv_rhs => rw [← List.map_id (AList.entries m)]
  refine List.map_congr_left fun e he => ?_
  have hvalue : e.2 ∈ m.values := mem_values.mpr ⟨e.1, AList.mem_lookup_iff.mpr he⟩
  rw [h e.2 hvalue]
  rfl

/-- Values replaced at some keys, each by its own function. -/
theorem get?_foldl_modify {ks : List K} (hnodup : ks.Nodup) (f : K → V → V) (m : HashMap K V)
    (k : K) : (ks.foldl (fun m k => m.modify k (f k)) m).get? k =
      if k ∈ ks then (m.get? k).map (f k) else m.get? k := by
  induction ks generalizing m with
  | nil => simp
  | cons first ks ih =>
    rw [List.nodup_cons] at hnodup
    rw [List.foldl_cons, ih hnodup.2, get?_modify]
    by_cases hfirst : k = first
    · subst hfirst
      simp [hnodup.1]
    · simp [hfirst]

theorem get?_foldl_insert {l : List (K × V)} (hnodup : (l.map Prod.fst).Nodup) (m : HashMap K V)
    (k : K) (v : V) :
    (l.foldl (fun m e => m.insert e.1 e.2) m).get? k = some v ↔
      (k, v) ∈ l ∨ k ∉ l.map Prod.fst ∧ m.get? k = some v := by
  induction l generalizing m with
  | nil => simp
  | cons e l ih =>
    rw [List.map_cons, List.nodup_cons] at hnodup
    rw [List.foldl_cons, ih hnodup.2, get?_insert]
    by_cases hkey : e.1 = k
    · subst hkey
      simp [hnodup.1, Prod.ext_iff, eq_comm, or_comm]
    · simp [Ne.symm hkey, Prod.ext_iff]

/-- The entries of a map, inserted in any order into an empty one, give back what the map holds. -/
theorem get?_foldl_insert_entries (ord : IterOrder (K × V)) (m : HashMap K V) (k : K) :
    ((ord.order m.entries).foldl (fun m e => m.insert e.1 e.2) (∅ : HashMap K V)).get? k =
      m.get? k := by
  have hnodup : ((ord.order m.entries).map Prod.fst).Nodup :=
    ((ord.perm m.entries).map Prod.fst).nodup_iff.mpr m.nodup_keys
  refine Option.ext fun v => ?_
  rw [get?_foldl_insert hnodup, get?_empty, IterOrder.mem_order, mem_entries]
  simp

/-- `R` holds of the values of every two keys. -/
def PairwiseValues (R : V → V → Prop) (m : HashMap K V) : Prop :=
  ∀ k k' v v', k ≠ k' → m.get? k = some v → m.get? k' = some v' → R v v'

theorem pairwiseValues_empty (R : V → V → Prop) : PairwiseValues R (∅ : HashMap K V) :=
  fun k k' v v' _ h => by rw [get?_empty] at h; contradiction

theorem PairwiseValues.erase {R : V → V → Prop} {m : HashMap K V} (h : m.PairwiseValues R) (k : K) :
    (m.erase k).PairwiseValues R := by
  intro k₁ k₂ v₁ v₂ hne h₁ h₂
  rw [get?_erase] at h₁ h₂
  split at h₁ <;> split at h₂ <;> try contradiction
  exact h k₁ k₂ v₁ v₂ hne h₁ h₂

/-- A symmetric relation holds of every two values after an insertion exactly when it holds of the
new value and each that stays. -/
theorem PairwiseValues.insert_iff {R : V → V → Prop} (hsymm : ∀ v v', R v v' → R v' v)
    {m : HashMap K V} (h : m.PairwiseValues R) (k : K) (v : V) :
    (m.insert k v).PairwiseValues R ↔ ∀ k' v', k' ≠ k → m.get? k' = some v' → R v v' := by
  constructor
  · intro hins k' v' hne hget
    exact hins k k' v v' hne.symm (by rw [get?_insert, if_pos rfl])
      (by rw [get?_insert, if_neg hne, hget])
  · intro hnew k₁ k₂ v₁ v₂ hne h₁ h₂
    rw [get?_insert] at h₁ h₂
    split at h₁
    · next heq₁ =>
      obtain rfl := Option.some.inj h₁
      rw [if_neg fun heq₂ => hne (heq₁.trans heq₂.symm)] at h₂
      exact hnew k₂ v₂ (fun heq₂ => hne (heq₁.trans heq₂.symm)) h₂
    · next hne₁ =>
      split at h₂
      · obtain rfl := Option.some.inj h₂
        exact hsymm _ _ (hnew k₁ v₁ hne₁ h₁)
      · exact h k₁ k₂ v₁ v₂ hne h₁ h₂

end HashMap

end GroundCore.Lib

/-! Hash sets as lists of distinct elements.  What a program reads by iterating over a set is read
through an `IterOrder`. -/

namespace GroundCore.Lib

/-- The order of the entries that puts `a` last, if it is among them. -/
def IterOrder.endingWith {α : Type} [DecidableEq α] (a : α) : IterOrder α where
  order l := if a ∈ l then l.erase a ++ [a] else l
  perm l := by
    split
    · next h => exact (List.perm_append_singleton a _).trans (List.perm_cons_erase h).symm
    · exact .refl l

/-- The order of the entries that puts `a` first, if it is among them. -/
def IterOrder.startingWith {α : Type} [DecidableEq α] (a : α) : IterOrder α where
  order l := if a ∈ l then a :: l.erase a else l
  perm l := by
    split
    · next h => exact (List.perm_cons_erase h).symm
    · exact .refl l

theorem IterOrder.order_startingWith {α : Type} [DecidableEq α] {a : α} {l : List α} (h : a ∈ l) :
    ∃ rest, (startingWith a).order l = a :: rest ∧ rest ⊆ l :=
  ⟨l.erase a, if_pos h, fun _ hb => List.mem_of_mem_erase hb⟩

structure HashSet (α : Type) where
  elems : List α
  nodup : elems.Nodup

namespace HashSet

variable {α : Type} {s : HashSet α} {a b : α}

instance : EmptyCollection (HashSet α) := ⟨⟨[], .nil⟩⟩

instance : Membership α (HashSet α) := ⟨fun s a => a ∈ s.elems⟩

def len (s : HashSet α) : ℕ := s.elems.length

@[simp] theorem mem_elems : a ∈ s.elems ↔ a ∈ s := Iff.rfl

@[simp] theorem not_mem_empty : ¬ a ∈ (∅ : HashSet α) := List.not_mem_nil

@[simp] theorem len_empty : (∅ : HashSet α).len = 0 := rfl

variable [DecidableEq α]

instance (a : α) (s : HashSet α) : Decidable (a ∈ s) := inferInstanceAs (Decidable (a ∈ s.elems))

def insert (s : HashSet α) (a : α) : HashSet α := ⟨s.elems.insert a, s.nodup.insert⟩

def erase (s : HashSet α) (a : α) : HashSet α := ⟨s.elems.erase a, s.nodup.erase a⟩

@[simp] theorem mem_insert : b ∈ s.insert a ↔ b = a ∨ b ∈ s := List.mem_insert_iff

@[simp] theorem mem_erase : b ∈ s.erase a ↔ b ≠ a ∧ b ∈ s := s.nodup.mem_erase_iff

theorem len_insert (h : ¬ a ∈ s) : (s.insert a).len = s.len + 1 := List.length_insert_of_not_mem h

theorem len_erase (h : a ∈ s) : (s.erase a).len + 1 = s.len :=
  List.length_erase_add_one h

/-- A swap of an element for a new one leaves the size of a set as it is. -/
theorem len_swap (ha : a ∈ s) (hb : ¬ b ∈ s) : ((s.erase a).insert b).len = s.len := by
  rw [len_insert (mt mem_erase.mp fun h => hb h.2), len_erase ha]

theorem mem_swap {c : α} : c ∈ (s.erase a).insert b ↔ c = b ∨ c ≠ a ∧ c ∈ s := by
  rw [mem_insert, mem_erase]

end HashSet

end GroundCore.Lib
