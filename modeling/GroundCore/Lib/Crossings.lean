import Mathlib.Data.List.Chain
import Mathlib.Order.Lattice

/-! The windows of two neighbours in a list, and where a list of samples enters and leaves a set.
The last fall comes before the first rise exactly when the samples start and end inside and are
outside once in between. -/

namespace GroundCore.Lib

variable {α β : Type*}

/-- The pairs of neighbours. -/
def windows (l : List α) : List (α × α) := l.zip l.tail

section Windows

variable {l u v : List α} {p q : α} {r : α × α → Bool}

@[simp] theorem windows_nil : windows ([] : List α) = [] := rfl

@[simp] theorem windows_singleton (p : α) : windows [p] = [] := rfl

@[simp] theorem windows_cons_cons (p q : α) (l : List α) :
    windows (p :: q :: l) = (p, q) :: windows (q :: l) := rfl

theorem windows_append (u v : List α) (p : α) :
    windows (u ++ p :: v) = windows (u ++ [p]) ++ windows (p :: v) := by
  induction u with
  | nil => rfl
  | cons a u ih =>
    cases u with
    | nil => rfl
    | cons b u => exact congrArg ((a, b) :: ·) ih

theorem mem_of_mem_windows {w : α × α} (h : w ∈ windows l) : w.1 ∈ l ∧ w.2 ∈ l :=
  ⟨(List.of_mem_zip h).1, List.mem_of_mem_tail (List.of_mem_zip h).2⟩

theorem forall_mem_windows_iff {R : α → α → Prop} :
    (∀ w ∈ windows l, R w.1 w.2) ↔ l.IsChain R := by
  induction l with
  | nil => simp
  | cons a l ih =>
    cases l with
    | nil => simp
    | cons b l =>
      rw [windows_cons_cons, List.forall_mem_cons, ih, List.isChain_cons_cons]

/-- A list is cut at each of its windows. -/
theorem eq_append_of_windows_eq {as bs : List (α × α)} (h : windows l = as ++ (p, q) :: bs) :
    ∃ u v, l = u ++ p :: q :: v ∧ windows (u ++ [p]) = as ∧ windows (q :: v) = bs := by
  induction as generalizing l with
  | nil =>
    match l, h with
    | a :: b :: l, h =>
      obtain ⟨hab, hbs⟩ := List.cons.inj h
      obtain ⟨rfl, rfl⟩ := Prod.mk.inj hab
      exact ⟨[], l, rfl, rfl, hbs⟩
  | cons w as ih =>
    match l, h with
    | a :: b :: l, h =>
      obtain ⟨hw, hrest⟩ := List.cons.inj h
      obtain ⟨u, v, hl, has, hbs⟩ := ih hrest
      refine ⟨a :: u, v, by rw [hl]; rfl, ?_, hbs⟩
      cases u with
      | nil =>
        obtain ⟨rfl, -⟩ := List.cons.inj hl
        rw [← has, ← hw]
        rfl
      | cons c u =>
        obtain ⟨rfl, -⟩ := List.cons.inj hl
        rw [← has, ← hw]
        rfl

/-- The first window of a kind. -/
theorem find?_windows_eq_some_iff :
    (windows l).find? r = some (p, q) ↔
      ∃ u v, l = u ++ p :: q :: v ∧ r (p, q) ∧ ∀ w ∈ windows (u ++ [p]), r w = false := by
  rw [List.find?_eq_some_iff_append]
  constructor
  · rintro ⟨hr, as, bs, heq, hfirst⟩
    obtain ⟨u, v, hl, has, -⟩ := eq_append_of_windows_eq heq
    exact ⟨u, v, hl, hr, fun w hw => by simpa using hfirst w (has ▸ hw)⟩
  · rintro ⟨u, v, rfl, hr, hfirst⟩
    exact ⟨hr, windows (u ++ [p]), windows (q :: v), windows_append u (q :: v) p,
      fun w hw => by simp [hfirst w hw]⟩

/-- The last window of a kind. -/
theorem find?_reverse_windows_eq_some_iff :
    (windows l).reverse.find? r = some (p, q) ↔
      ∃ u v, l = u ++ p :: q :: v ∧ r (p, q) ∧ ∀ w ∈ windows (q :: v), r w = false := by
  rw [List.find?_eq_some_iff_append]
  constructor
  · rintro ⟨hr, as, bs, heq, hlast⟩
    have hwindows : windows l = bs.reverse ++ (p, q) :: as.reverse := by
      rw [← List.reverse_reverse (windows l), heq]
      simp
    obtain ⟨u, v, hl, -, hbs⟩ := eq_append_of_windows_eq hwindows
    refine ⟨u, v, hl, hr, fun w hw => ?_⟩
    rw [hbs] at hw
    simpa using hlast w (List.mem_reverse.mp hw)
  · rintro ⟨u, v, rfl, hr, hlast⟩
    refine ⟨hr, (windows (q :: v)).reverse, (windows (u ++ [p])).reverse, ?_, fun w hw => ?_⟩
    · rw [windows_append, windows_cons_cons]
      simp
    · simp [hlast w (List.mem_reverse.mp hw)]

end Windows

section Crossings

variable {inside : α → Bool} {l : List α}

def rises (inside : α → Bool) (w : α × α) : Bool := !inside w.1 && inside w.2

def falls (inside : α → Bool) (w : α × α) : Bool := inside w.1 && !inside w.2

/-- The samples start inside, are outside once, and end inside. -/
def Dips (inside : α → Bool) (l : List α) : Prop :=
  ∃ first gap last, l = first ++ gap ++ last ∧ first ≠ [] ∧ gap ≠ [] ∧ last ≠ [] ∧
    (∀ x ∈ first, inside x) ∧ (∀ x ∈ gap, inside x = false) ∧ ∀ x ∈ last, inside x

/-- Without a rise, whatever comes before a sample inside is inside. -/
theorem no_rise_iff : (∀ w ∈ windows l, rises inside w = false) ↔
    l.Pairwise fun x y => inside y → inside x := by
  have htrans : IsTrans α fun x y => inside y → inside x := ⟨fun _ _ _ h h' hz => h (h' hz)⟩
  rw [← List.isChain_iff_pairwise, ← forall_mem_windows_iff]
  apply forall₂_congr
  intro w _
  cases h1 : inside w.1 <;> cases h2 : inside w.2 <;> simp [rises, h1, h2]

/-- Without a fall, whatever comes after a sample inside is inside. -/
theorem no_fall_iff : (∀ w ∈ windows l, falls inside w = false) ↔
    l.Pairwise fun x y => inside x → inside y := by
  have htrans : IsTrans α fun x y => inside x → inside y := ⟨fun _ _ _ h h' hx => h' (h hx)⟩
  rw [← List.isChain_iff_pairwise, ← forall_mem_windows_iff]
  apply forall₂_congr
  intro w _
  cases h1 : inside w.1 <;> cases h2 : inside w.2 <;> simp [falls, h1, h2]

variable [LinearOrder β] {key : α → β}

theorem exists_concat_of_ne_nil (h : l ≠ []) : ∃ u p, l = u ++ [p] :=
  ⟨l.dropLast, l.getLast h, (List.dropLast_append_getLast h).symm⟩

theorem fall_le_rise_of_dips (hkey : l.Pairwise fun x y => key x < key y) (h : Dips inside l) :
    ∃ w w', (windows l).find? (rises inside) = some w ∧
      (windows l).reverse.find? (falls inside) = some w' ∧ key w'.2 ≤ key w.1 := by
  obtain ⟨first, gap, last, hl, hfirst, hgap, hlast, hin, hout, hin'⟩ := h
  obtain ⟨u', p', hu'⟩ := exists_concat_of_ne_nil hfirst
  obtain ⟨u, p, hu⟩ := exists_concat_of_ne_nil hgap
  obtain ⟨q', v', hv'⟩ := List.exists_cons_of_ne_nil hgap
  obtain ⟨q, v, hv⟩ := List.exists_cons_of_ne_nil hlast
  have hp : inside p = false := hout p (by simp [hu])
  have hq : inside q = true := hin' q (by simp [hv])
  have hp' : inside p' = true := hin p' (by simp [hu'])
  have hq' : inside q' = false := hout q' (by simp [hv'])
  have hbefore : (first ++ gap).Pairwise fun x y => inside y → inside x :=
    List.pairwise_append.mpr ⟨List.pairwise_of_forall_mem_list fun x hx y hy _ => hin x hx,
      List.pairwise_of_forall_mem_list fun x hx y hy h => absurd h (by simp [hout y hy]),
      fun x hx y hy _ => hin x hx⟩
  have hafter : (gap ++ last).Pairwise fun x y => inside x → inside y :=
    List.pairwise_append.mpr
      ⟨List.pairwise_of_forall_mem_list fun x hx y hy h => absurd h (by simp [hout x hx]),
        List.pairwise_of_forall_mem_list fun x hx y hy _ => hin' y hy, fun x hx y hy _ => hin' y hy⟩
  refine ⟨(p, q), (p', q'), find?_windows_eq_some_iff.mpr ⟨first ++ u, v, ?_, ?_, ?_⟩,
    find?_reverse_windows_eq_some_iff.mpr ⟨u', v' ++ last, ?_, ?_, ?_⟩, ?_⟩
  · rw [hl, hv, hu]
    simp
  · simp [rises, hp, hq]
  · rw [List.append_assoc, ← hu]
    exact no_rise_iff.mpr hbefore
  · rw [hl, hu', hv']
    simp
  · simp [falls, hp', hq']
  · rw [← List.cons_append, ← hv']
    exact no_fall_iff.mpr hafter
  · have hgap : gap.Pairwise fun x y => key x < key y := by
      rw [hl] at hkey
      exact (List.pairwise_append.mp (List.pairwise_append.mp hkey).1).2.1
    have hmem : p ∈ q' :: v' := by simp [← hv', hu]
    rw [hv'] at hgap
    rcases List.mem_cons.mp hmem with rfl | hmem
    · exact le_rfl
    · exact ((List.pairwise_cons.mp hgap).1 p hmem).le

theorem dips_of_fall_le_rise (hkey : l.Pairwise fun x y => key x < key y) {w w' : α × α}
    (hrise : (windows l).find? (rises inside) = some w)
    (hfall : (windows l).reverse.find? (falls inside) = some w') (hle : key w'.2 ≤ key w.1) :
    Dips inside l := by
  obtain ⟨p, q⟩ := w
  obtain ⟨p', q'⟩ := w'
  obtain ⟨u, v, hl, hpq, hbefore⟩ := find?_windows_eq_some_iff.mp hrise
  obtain ⟨u', v', hl', hpq', hafter⟩ := find?_reverse_windows_eq_some_iff.mp hfall
  obtain ⟨hp, hq⟩ : inside p = false ∧ inside q = true := by simpa [rises] using hpq
  obtain ⟨hp', hq'⟩ : inside p' = true ∧ inside q' = false := by simpa [falls] using hpq'
  have hbefore := no_rise_iff.mp hbefore
  have hafter := no_fall_iff.mp hafter
  have heq : (u ++ [p]) ++ q :: v = (u' ++ [p']) ++ q' :: v' := by
    rw [List.append_assoc, List.append_assoc]
    exact hl.symm.trans hl'
  rcases List.append_eq_append_iff.mp heq with ⟨m, hu', hv⟩ | ⟨gap, hu, hv'⟩
  · -- The rise cannot come first, for then the time after the fall would be later.
    rw [hl, show u ++ p :: q :: v = (u ++ [p]) ++ q :: v by simp, hv] at hkey
    have hlt := (List.pairwise_append.mp hkey).2.2 p (by simp) q' (by simp)
    exact absurd hle (not_le.mpr hlt)
  · have hgap : gap ≠ [] := by
      rintro rfl
      obtain ⟨rfl, -⟩ := List.cons.inj hv'
      rw [hq] at hq'
      contradiction
    obtain ⟨q₀, m, rfl⟩ := List.exists_cons_of_ne_nil hgap
    obtain ⟨rfl, hv'⟩ := List.cons.inj hv'
    rw [hu, List.append_assoc] at hbefore
    obtain ⟨-, hrest, hcross⟩ := List.pairwise_append.mp hbefore
    rw [hv'] at hafter
    refine ⟨u' ++ [p'], q' :: m, q :: v, ?_, by simp, by simp, by simp, fun x hx => ?_,
      fun x hx => ?_, fun x hx => ?_⟩
    · rw [← hu, hl]
      simp
    · rcases List.mem_append.mp hx with hx | hx
      · exact hcross x hx p' (by simp) hp'
      · rwa [List.mem_singleton.mp hx]
    · rcases List.mem_cons.mp hx with rfl | hx
      · exact hq'
      · have hgap := (List.pairwise_append.mp hrest).2.1
        by_contra hinside
        have := (List.pairwise_cons.mp hgap).1 x hx (by simpa using hinside)
        rw [hq'] at this
        contradiction
    · rcases List.mem_cons.mp hx with rfl | hx
      · exact hq
      · have hlast := (List.pairwise_append.mp hafter).2.1
        exact (List.pairwise_cons.mp hlast).1 x hx hq

end Crossings

end GroundCore.Lib
