import Mathlib.Data.List.Basic
import Mathlib.Data.List.Pairwise
import Mathlib.Order.Lattice

/-! Maps whose entries are kept in the order of their keys. -/

namespace GroundCore.Lib

/-- A map from `K` to `V`; the order of the keys is strict, so no key has two values. -/
structure BTreeMap (K V : Type) [LinearOrder K] where
  entries : List (K × V)
  sorted : entries.Pairwise fun e e' => e.1 < e'.1

namespace BTreeMap

variable {K V : Type} [LinearOrder K]

instance : EmptyCollection (BTreeMap K V) := ⟨⟨[], List.Pairwise.nil⟩⟩

/-- The entries with the value at `k` set. -/
def insertEntry (k : K) (v : V) : List (K × V) → List (K × V)
  | [] => [(k, v)]
  | e :: es =>
    if k < e.1 then (k, v) :: e :: es
    else if k = e.1 then (k, v) :: es
    else e :: insertEntry k v es

theorem mem_of_mem_insertEntry {k : K} {v : V} {es : List (K × V)} {e : K × V}
    (h : e ∈ insertEntry k v es) : e = (k, v) ∨ e ∈ es := by
  induction es with
  | nil => exact Or.inl (List.mem_singleton.mp h)
  | cons e' es ih =>
    unfold insertEntry at h
    split at h
    · exact List.mem_cons.mp h
    · split at h
      · exact (List.mem_cons.mp h).imp id (List.mem_cons_of_mem e')
      · rcases List.mem_cons.mp h with rfl | h
        · exact Or.inr List.mem_cons_self
        · exact (ih h).imp id (List.mem_cons_of_mem e')

theorem sorted_insertEntry {k : K} {v : V} {es : List (K × V)}
    (h : es.Pairwise fun e e' => e.1 < e'.1) :
    (insertEntry k v es).Pairwise fun e e' => e.1 < e'.1 := by
  induction es with
  | nil => exact List.pairwise_singleton _ _
  | cons e es ih =>
    obtain ⟨he, hes⟩ := List.pairwise_cons.mp h
    unfold insertEntry
    split
    · next hlt =>
      refine List.pairwise_cons.mpr ⟨fun e' he' => ?_, h⟩
      rcases List.mem_cons.mp he' with rfl | he'
      · exact hlt
      · exact hlt.trans (he e' he')
    · next hge =>
      split
      · next heq => exact List.pairwise_cons.mpr ⟨fun e' he' => heq ▸ he e' he', hes⟩
      · next hne =>
        refine List.pairwise_cons.mpr ⟨fun e' he' => ?_, ih hes⟩
        rcases mem_of_mem_insertEntry he' with rfl | he'
        · exact lt_of_le_of_ne (not_lt.mp hge) (Ne.symm hne)
        · exact he e' he'

/-- Another value at `k` is replaced, and no other entry changes. -/
theorem mem_insertEntry {k : K} {v : V} {es : List (K × V)}
    (h : es.Pairwise fun e e' => e.1 < e'.1) {e : K × V} :
    e ∈ insertEntry k v es ↔ e = (k, v) ∨ e ∈ es ∧ e.1 ≠ k := by
  induction es with
  | nil => simp [insertEntry]
  | cons e' es ih =>
    obtain ⟨he', hes⟩ := List.pairwise_cons.mp h
    have hrest : k ≤ e'.1 → ∀ e ∈ es, e.1 ≠ k := fun hle e he => (hle.trans_lt (he' e he)).ne'
    unfold insertEntry
    split
    · next hlt =>
      simp only [List.mem_cons]
      constructor
      · rintro (h | rfl | h)
        · exact Or.inl h
        · exact Or.inr ⟨Or.inl rfl, hlt.ne'⟩
        · exact Or.inr ⟨Or.inr h, hrest hlt.le e h⟩
      · rintro (h | ⟨h, -⟩)
        · exact Or.inl h
        · exact Or.inr h
    · split
      · next heq =>
        simp only [List.mem_cons]
        constructor
        · rintro (h | h)
          · exact Or.inl h
          · exact Or.inr ⟨Or.inr h, hrest heq.le e h⟩
        · rintro (h | ⟨rfl | h, hne⟩)
          · exact Or.inl h
          · exact absurd heq.symm hne
          · exact Or.inr h
      · next hne =>
        rw [List.mem_cons, ih hes, List.mem_cons]
        constructor
        · rintro (rfl | h | ⟨h, hk⟩)
          · exact Or.inr ⟨Or.inl rfl, Ne.symm hne⟩
          · exact Or.inl h
          · exact Or.inr ⟨Or.inr h, hk⟩
        · rintro (h | ⟨h | h, hk⟩)
          · exact Or.inr (Or.inl h)
          · exact Or.inl h
          · exact Or.inr (Or.inr ⟨h, hk⟩)

def insert (m : BTreeMap K V) (k : K) (v : V) : BTreeMap K V :=
  ⟨insertEntry k v m.entries, sorted_insertEntry m.sorted⟩

/-- The entries that `keep` holds of. -/
def retain (m : BTreeMap K V) (keep : K → V → Bool) : BTreeMap K V :=
  ⟨m.entries.filter fun e => keep e.1 e.2, m.sorted.filter _⟩

/-- The entries from a key on. -/
def rangeFrom (m : BTreeMap K V) (k : K) : List (K × V) :=
  m.entries.filter fun e => decide (k ≤ e.1)

/-- The entries up to a key. -/
def rangeTo (m : BTreeMap K V) (k : K) : List (K × V) :=
  m.entries.filter fun e => decide (e.1 ≤ k)

def values (m : BTreeMap K V) : List V := m.entries.map Prod.snd

@[simp] theorem entries_empty : (∅ : BTreeMap K V).entries = [] := rfl

@[simp] theorem mem_entries_insert {m : BTreeMap K V} {k : K} {v : V} {e : K × V} :
    e ∈ (m.insert k v).entries ↔ e = (k, v) ∨ e ∈ m.entries ∧ e.1 ≠ k :=
  mem_insertEntry m.sorted

@[simp] theorem mem_entries_retain {m : BTreeMap K V} {keep : K → V → Bool} {e : K × V} :
    e ∈ (m.retain keep).entries ↔ e ∈ m.entries ∧ keep e.1 e.2 = true :=
  List.mem_filter

@[simp] theorem mem_rangeFrom {m : BTreeMap K V} {k : K} {e : K × V} :
    e ∈ m.rangeFrom k ↔ e ∈ m.entries ∧ k ≤ e.1 := by
  simp [rangeFrom]

theorem mem_values {m : BTreeMap K V} {v : V} : v ∈ m.values ↔ ∃ k, (k, v) ∈ m.entries := by
  simp [values]

/-- No key has two values. -/
theorem value_unique {m : BTreeMap K V} {k : K} {v v' : V} (h : (k, v) ∈ m.entries)
    (h' : (k, v') ∈ m.entries) : v = v' := by
  have : Std.Symm fun e e' : K × V => e.1 ≠ e'.1 := ⟨fun _ _ => Ne.symm⟩
  have hkeys : m.entries.Pairwise fun e e' => e.1 ≠ e'.1 := m.sorted.imp ne_of_lt
  by_contra hne
  exact hkeys.forall h h' (fun heq => hne (congrArg Prod.snd heq)) rfl

theorem eq_of_key_eq {m : BTreeMap K V} {e e' : K × V} (h : e ∈ m.entries) (h' : e' ∈ m.entries)
    (hkey : e.1 = e'.1) : e = e' :=
  Prod.ext hkey (value_unique h (by rwa [hkey]))

/-- The last entry up to a key is the one with the greatest such key. -/
theorem getLast?_rangeTo_eq_some_iff {m : BTreeMap K V} {k : K} {e : K × V} :
    (m.rangeTo k).getLast? = some e ↔
      e ∈ m.entries ∧ e.1 ≤ k ∧ ∀ e' ∈ m.entries, e'.1 ≤ k → e'.1 ≤ e.1 := by
  have hmem : ∀ e', e' ∈ m.rangeTo k ↔ e' ∈ m.entries ∧ e'.1 ≤ k := by simp [rangeTo]
  have hlast : ∀ e, (m.rangeTo k).getLast? = some e →
      e ∈ m.entries ∧ e.1 ≤ k ∧ ∀ e' ∈ m.entries, e'.1 ≤ k → e'.1 ≤ e.1 := by
    intro e h
    obtain ⟨hin, hle⟩ := (hmem e).mp (List.mem_of_getLast? h)
    refine ⟨hin, hle, fun e' he' hle' => ?_⟩
    obtain ⟨es, hes⟩ := List.getLast?_eq_some_iff.mp h
    have hsorted : (m.rangeTo k).Pairwise fun e e' => e.1 < e'.1 := m.sorted.filter _
    have he' := (hmem e').mpr ⟨he', hle'⟩
    rw [hes] at hsorted he'
    rcases List.mem_append.mp he' with he' | he'
    · exact ((List.pairwise_append.mp hsorted).2.2 e' he' e (List.mem_singleton_self e)).le
    · rw [List.mem_singleton.mp he']
  refine ⟨hlast e, fun ⟨hin, hle, hgreatest⟩ => ?_⟩
  cases hl : (m.rangeTo k).getLast? with
  | none =>
    have hempty := List.getLast?_eq_none_iff.mp hl
    have := (hmem e).mpr ⟨hin, hle⟩
    rw [hempty] at this
    contradiction
  | some e' =>
    obtain ⟨hin', hle', hgreatest'⟩ := hlast e' hl
    rw [eq_of_key_eq hin' hin (le_antisymm (hgreatest e' hin' hle') (hgreatest' e hin hle))]

/-- The first entry from a key on is the one with the least such key. -/
theorem head?_rangeFrom_eq_some_iff {m : BTreeMap K V} {k : K} {e : K × V} :
    (m.rangeFrom k).head? = some e ↔
      e ∈ m.entries ∧ k ≤ e.1 ∧ ∀ e' ∈ m.entries, k ≤ e'.1 → e.1 ≤ e'.1 := by
  have hfirst : ∀ e, (m.rangeFrom k).head? = some e →
      e ∈ m.entries ∧ k ≤ e.1 ∧ ∀ e' ∈ m.entries, k ≤ e'.1 → e.1 ≤ e'.1 := by
    intro e h
    obtain ⟨hin, hle⟩ := mem_rangeFrom.mp (List.mem_of_head? h)
    refine ⟨hin, hle, fun e' he' hle' => ?_⟩
    obtain ⟨es, hes⟩ := List.head?_eq_some_iff.mp h
    have hsorted : (m.rangeFrom k).Pairwise fun e e' => e.1 < e'.1 := m.sorted.filter _
    have he' := mem_rangeFrom.mpr ⟨he', hle'⟩
    rw [hes] at hsorted he'
    rcases List.mem_cons.mp he' with rfl | he'
    · exact le_rfl
    · exact ((List.pairwise_cons.mp hsorted).1 e' he').le
  refine ⟨hfirst e, fun ⟨hin, hle, hleast⟩ => ?_⟩
  cases hh : (m.rangeFrom k).head? with
  | none =>
    have hempty := List.head?_eq_none_iff.mp hh
    have := mem_rangeFrom.mpr ⟨hin, hle⟩
    rw [hempty] at this
    contradiction
  | some e' =>
    obtain ⟨hin', hle', hleast'⟩ := hfirst e' hh
    rw [eq_of_key_eq hin' hin (le_antisymm (hleast' e hin hle) (hleast e' hin' hle'))]

/-- When the keys can be read off the values, no value is there twice. -/
theorem nodup_map_rangeFrom {m : BTreeMap K V} {key : V → K}
    (hkey : ∀ e ∈ m.entries, e.1 = key e.2) (k : K) :
    ((m.rangeFrom k).map Prod.snd).Nodup := by
  have hvalues : (m.rangeFrom k).Pairwise fun e e' => e.2 ≠ e'.2 := by
    refine List.Pairwise.imp_of_mem ?_ (m.sorted.filter _)
    intro e e' he he' hlt heq
    rw [hkey e (List.mem_of_mem_filter he), hkey e' (List.mem_of_mem_filter he'), heq] at hlt
    exact lt_irrefl _ hlt
  exact List.pairwise_map.mpr hvalues

end BTreeMap

end GroundCore.Lib
