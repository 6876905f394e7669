import Mathlib.Data.List.Nodup
import GroundCore.Lib.HashMap

/-! Secondary indexes: for every key, the ids of the records of that key, in the order of a list of
records.  A record may have no key. -/

namespace GroundCore.Lib

variable {α K I : Type} [DecidableEq K]

/-- The ids under a key; a key without an entry has none. -/
def HashMap.ids (index : HashMap K (List I)) (k : K) : List I := (index.get? k).getD []

/-- The index lists exactly the records of each key. -/
def Indexes (index : HashMap K (List I)) (key : α → Option K) (id : α → I) (l : List α) : Prop :=
  ∀ k, index.ids k = (l.filter fun a => key a = some k).map id

namespace Indexes

variable {index : HashMap K (List I)} {key : α → Option K} {id : α → I} {l : List α}

theorem empty : Indexes (∅ : HashMap K (List I)) key id [] := fun _ => rfl

/-- The index after a record is appended. -/
def push (index : HashMap K (List I)) (k : Option K) (i : I) : HashMap K (List I) :=
  match k with
  | none => index
  | some k => index.insert k (index.ids k ++ [i])

/-- The index after an id is removed. -/
def drop [DecidableEq I] (index : HashMap K (List I)) (k : Option K) (i : I) :
    HashMap K (List I) :=
  match k with
  | none => index
  | some k => index.modify k fun ids => ids.filter (· ≠ i)

theorem append (h : Indexes index key id l) (a : α) :
    Indexes (push index (key a) (id a)) key id (l ++ [a]) := by
  intro k
  rw [List.filter_append, List.map_append, ← h k]
  cases hkey : key a with
  | none => simp [push, hkey]
  | some k' =>
    by_cases heq : k = k'
    · subst heq
      simp [push, HashMap.ids, hkey]
    · simp [push, HashMap.ids, hkey, heq, Ne.symm heq]

/-- With distinct ids, erasing the record of an id leaves the others. -/
theorem eraseP_eq_filter [DecidableEq I] (hdistinct : (l.map id).Nodup) (i : I) :
    (l.eraseP fun b => id b = i) = l.filter fun b => id b ≠ i := by
  induction l with
  | nil => rfl
  | cons b l ih =>
    rw [List.map_cons, List.nodup_cons] at hdistinct
    by_cases hb : id b = i
    · have hrest : ∀ c ∈ l, id c ≠ i :=
        fun c hc heq => hdistinct.1 (List.mem_map.mpr ⟨c, hc, heq.trans hb.symm⟩)
      rw [List.eraseP_cons_of_pos (by simpa using hb), List.filter_cons_of_neg (by simpa using hb)]
      exact (List.filter_eq_self.mpr fun c hc => by simpa using hrest c hc).symm
    · rw [List.eraseP_cons_of_neg (by simpa using hb), List.filter_cons_of_pos (by simpa using hb),
        ih hdistinct.2]

theorem erase [DecidableEq I] (h : Indexes index key id l) (hdistinct : (l.map id).Nodup) {a : α}
    (ha : a ∈ l) :
    Indexes (drop index (key a) (id a)) key id (l.eraseP fun b => id b = id a) := by
  have hinj : ∀ b ∈ l, id b = id a → b = a :=
    fun b hb heq => List.inj_on_of_nodup_map hdistinct hb ha heq
  -- removing the id from the lists of other keys would change nothing
  have hdrop : ∀ k, (drop index (key a) (id a)).ids k = (index.ids k).filter (· ≠ id a) := by
    intro k
    have hother : key a ≠ some k → (index.ids k).filter (· ≠ id a) = index.ids k := by
      intro hne
      refine List.filter_eq_self.mpr fun i hi => ?_
      rw [h k] at hi
      obtain ⟨b, hb, rfl⟩ := List.mem_map.mp hi
      obtain ⟨hmem, hkey⟩ := List.mem_filter.mp hb
      have : id b ≠ id a := fun heq => hne (by rw [← hinj b hmem heq]; simpa using hkey)
      simpa using this
    cases hkey : key a with
    | none => exact (hother (by simp [hkey])).symm
    | some k' =>
      by_cases heq : k = k'
      · subst heq
        simp only [drop, HashMap.ids, HashMap.get?_modify, if_true]
        cases index.get? k <;> rfl
      · rw [hother (by simpa [hkey] using Ne.symm heq)]
        simp [drop, HashMap.ids, HashMap.get?_modify, heq]
  intro k
  rw [hdrop, h k, eraseP_eq_filter hdistinct, List.filter_map, List.filter_filter,
    List.filter_filter]
  congr 1
  exact List.filter_congr fun b _ => Bool.and_comm _ _

theorem mem_iff (h : Indexes index key id l) {k : K} {i : I} :
    i ∈ index.ids k ↔ ∃ a ∈ l, key a = some k ∧ id a = i := by
  rw [h k]
  simp [and_assoc]

end Indexes

end GroundCore.Lib
