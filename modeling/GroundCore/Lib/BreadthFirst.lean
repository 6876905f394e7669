import Mathlib.Data.Finset.Card
import Mathlib.Data.List.Shortlex
import GroundCore.Lib.HashMap

/-! Breadth-first search over lists of neighbours, with a map that remembers from where each vertex
was reached.  Walks are ordered by their length and, where that is the same, by the places of their
hops in the lists of neighbours; the search finds the first walk of all. -/

namespace GroundCore.Lib.BreadthFirst

variable {ν ε : Type}

/-- The vertices at both ends of a step and the label of its edge. -/
abbrev Hop (ν ε : Type) := ν × ν × ε

/-! ### Walks -/

section Walks

variable (next : ν → List (ν × ε))

/-- The hops lead from `u` to `v`, each along an edge of the vertex that was reached. -/
def IsWalk : ν → List (Hop ν ε) → ν → Prop
  | u, [], v => u = v
  | u, h :: w, v => h.1 = u ∧ h.2 ∈ next u ∧ IsWalk h.2.1 w v

variable {next}

theorem isWalk_append {u v : ν} {w w' : List (Hop ν ε)} :
    IsWalk next u (w ++ w') v ↔ ∃ x, IsWalk next u w x ∧ IsWalk next x w' v := by
  induction w generalizing u with
  | nil => simp [IsWalk]
  | cons h w ih => simp [IsWalk, ih, and_assoc]

theorem isWalk_snoc {u v x : ν} {w : List (Hop ν ε)} {l : ε} (hw : IsWalk next u w x)
    (hedge : (v, l) ∈ next x) : IsWalk next u (w ++ [(x, v, l)]) v :=
  isWalk_append.mpr ⟨x, hw, rfl, hedge, rfl⟩

/-- A walk stays where every edge stays. -/
theorem IsWalk.mem_of_closed {P : ν → Prop} (hclosed : ∀ u, P u → ∀ e ∈ next u, P e.1) {u v : ν}
    {w : List (Hop ν ε)} (hw : IsWalk next u w v) (hu : P u) : P v := by
  induction w generalizing u with
  | nil => exact hw ▸ hu
  | cons h w ih => exact ih hw.2.2 (hclosed u hu _ hw.2.1)

/-- The first vertex of a walk outside `P`, with the hops before and after it. -/
theorem IsWalk.exists_leaves {P : ν → Prop} {u v : ν} {w : List (Hop ν ε)}
    (hw : IsWalk next u w v) (hv : ¬ P v) :
    ∃ before after x, w = before ++ after ∧ IsWalk next u before x ∧ IsWalk next x after v ∧
      ¬ P x ∧ (x = u ∨ ∃ y e, P y ∧ e ∈ next y ∧ e.1 = x) := by
  induction w generalizing u with
  | nil => exact ⟨[], [], u, rfl, rfl, hw, hw ▸ hv, .inl rfl⟩
  | cons h w ih =>
    by_cases hu : P u
    · obtain ⟨before, after, x, rfl, hbefore, hafter, hx, hcase⟩ := ih hw.2.2
      refine ⟨h :: before, after, x, rfl, ⟨hw.1, hw.2.1, hbefore⟩, hafter, hx, .inr ?_⟩
      rcases hcase with rfl | hcase
      · exact ⟨u, h.2, hu, hw.2.1, rfl⟩
      · exact hcase
    · exact ⟨[], h :: w, u, rfl, rfl, hw, hu, .inl rfl⟩

end Walks

/-! ### The order of the walks -/

section Order

variable [DecidableEq ν] [DecidableEq ε] (next : ν → List (ν × ε))

/-- The place of a hop among the edges of the vertex it starts at. -/
def rank (h : Hop ν ε) : ℕ := (next h.1).idxOf h.2

/-- Fewer hops, or as many and at the first difference a hop that is listed earlier. -/
def Before (w w' : List (Hop ν ε)) : Prop :=
  List.Shortlex (· < ·) (w.map (rank next)) (w'.map (rank next))

/-- The walk from `u` to `v` that comes before every other. -/
def First (u : ν) (w : List (Hop ν ε)) (v : ν) : Prop :=
  IsWalk next u w v ∧ ∀ w', IsWalk next u w' v → w' = w ∨ Before next w w'

variable {next} {w w' : List (Hop ν ε)} {h h' : Hop ν ε}

theorem before_of_length_lt (hlt : w.length < w'.length) : Before next w w' :=
  .of_length_lt (by simpa using hlt)

theorem Before.length_le (hbefore : Before next w w') : w.length ≤ w'.length := by
  rcases List.shortlex_def.mp hbefore with hlt | ⟨heq, -⟩ <;> simp at * <;> omega

theorem Before.irrefl (w : List (Hop ν ε)) : ¬ Before next w w := by
  intro hbefore
  rcases List.shortlex_def.mp hbefore with hlt | ⟨-, hlex⟩
  · exact Nat.lt_irrefl _ hlt
  · exact List.lex_irrefl Nat.lt_irrefl _ hlex

theorem Before.trans {w'' : List (Hop ν ε)} (h₁ : Before next w w') (h₂ : Before next w' w'') :
    Before next w w'' := by
  rcases List.shortlex_def.mp h₁ with hlt | ⟨heq, hlex⟩
  · have := Before.length_le h₂
    exact before_of_length_lt (by simp at hlt; omega)
  · rcases List.shortlex_def.mp h₂ with hlt' | ⟨heq', hlex'⟩
    · exact before_of_length_lt (by simp at heq hlt'; omega)
    · exact .of_lex (heq.trans heq') (List.lex_trans Nat.lt_trans hlex hlex')

/-- Lists of one length that differ before what is added to them. -/
theorem lex_append_of_length_eq {a b : List ℕ} (hlex : List.Lex (· < ·) a b)
    (hlength : a.length = b.length) (x y : List ℕ) : List.Lex (· < ·) (a ++ x) (b ++ y) := by
  induction hlex with
  | nil => simp at hlength
  | rel hlt => exact .rel hlt
  | cons _ ih => exact .cons (ih (by simpa using hlength))

theorem Before.snoc (hbefore : Before next w w') (h h' : Hop ν ε) :
    Before next (w ++ [h]) (w' ++ [h']) := by
  rcases List.shortlex_def.mp hbefore with hlt | ⟨heq, hlex⟩
  · exact before_of_length_lt (by simpa using hlt)
  · refine .of_lex (by simpa using heq) ?_
    rw [List.map_append, List.map_append]
    exact lex_append_of_length_eq hlex heq _ _

theorem before_snoc_of_rank (w : List (Hop ν ε)) (hrank : rank next h < rank next h') :
    Before next (w ++ [h]) (w ++ [h']) := by
  refine .of_lex (by simp) ?_
  rw [List.map_append, List.map_append]
  exact List.Lex.append_left _ (.rel hrank) _

theorem First.length_le {u v : ν} (hfirst : First next u w v) (hw' : IsWalk next u w' v) :
    w.length ≤ w'.length := by
  rcases hfirst.2 w' hw' with rfl | hbefore
  · exact le_rfl
  · exact hbefore.length_le

/-- One walk is the first of all. -/
theorem First.unique {u v : ν} (hfirst : First next u w v) (hfirst' : First next u w' v) :
    w = w' := by
  rcases hfirst.2 w' hfirst'.1 with heq | hbefore
  · exact heq.symm
  · rcases hfirst'.2 w hfirst.1 with heq | hbefore'
    · exact heq
    · exact absurd (hbefore.trans hbefore') (Before.irrefl w)

end Order

/-! ### The search -/

section Search

variable [DecidableEq ν]

/-- The vertices that were reached, those of them that are still to be left, and from where each of
them was reached. -/
structure Frontier (ν ε : Type) where
  visited : List ν
  queue : List ν
  parents : HashMap ν (ν × ε)

def Frontier.start (source : ν) : Frontier ν ε :=
  { visited := [source], queue := [source], parents := ∅ }

/-- One edge of the vertex `current`. -/
def visit (current : ν) (f : Frontier ν ε) (edge : ν × ε) : Frontier ν ε :=
  if edge.1 ∈ f.visited then f
  else
    { visited := edge.1 :: f.visited, queue := f.queue ++ [edge.1]
      parents := f.parents.insert edge.1 (current, edge.2) }

/-- The parents when the destination is taken from the queue; `some none` when the queue is empty
before, and `none` when the fuel ends. -/
def search (next : ν → List (ν × ε)) (destination : ν) :
    ℕ → Frontier ν ε → Option (Option (HashMap ν (ν × ε)))
  | 0, _ => none
  | fuel + 1, f =>
    match f.queue with
    | [] => some none
    | current :: queue =>
      if current = destination then some (some f.parents)
      else search next destination fuel ((next current).foldl (visit current) { f with queue })

/-- The parents lead from `v` back to the source along the hops. -/
inductive Traced (parents : HashMap ν (ν × ε)) (source : ν) : List (Hop ν ε) → ν → Prop
  | nil : Traced parents source [] source
  | snoc {u v : ν} {w : List (Hop ν ε)} {l : ε} : Traced parents source w u → v ≠ source →
      parents.get? v = some (u, l) → Traced parents source (w ++ [(u, v, l)]) v

/-- A new entry leaves the traces as they are. -/
theorem Traced.insert {parents : HashMap ν (ν × ε)} {source v x : ν} {w : List (Hop ν ε)}
    (htraced : Traced parents source w v) (hfresh : parents.get? x = none) (p : ν × ε) :
    Traced (parents.insert x p) source w v := by
  induction htraced with
  | nil => exact .nil
  | @snoc u v w l _ hne hget ih =>
    refine .snoc ih hne ?_
    rw [HashMap.get?_insert, if_neg ?_, hget]
    rintro rfl
    rw [hfresh] at hget
    contradiction

variable [DecidableEq ε]

/-- The vertices in the order in which they are reached: each has the first of the walks that lead
to it, this walk is traced by the parents, and the walks come one before the other.  Every edge that
was checked leads to one of the vertices, and every vertex but the source was reached by one. -/
structure Tree (next : ν → List (ν × ε)) (source : ν) (path : ν → List (Hop ν ε))
    (checked : ν → ν × ε → Prop) (order : List ν) (parents : HashMap ν (ν × ε)) : Prop where
  source_mem : source ∈ order
  traced : ∀ v ∈ order, Traced parents source (path v) v
  first : ∀ v ∈ order, First next source (path v) v
  sorted : order.Pairwise fun u v => Before next (path u) (path v)
  parent : ∀ v ∈ order, v = source ∨ ∃ u l, checked u (v, l) ∧ path v = path u ++ [(u, v, l)]
  closed : ∀ u e, checked u e → u ∈ order ∧ e.1 ∈ order
  fresh : ∀ v ∉ order, parents.get? v = none
  short : ∀ v ∈ order, (path v).length < order.length

namespace Tree

variable {next : ν → List (ν × ε)} {source : ν} {path : ν → List (Hop ν ε)}
  {checked checked' : ν → ν × ε → Prop} {order : List ν} {parents : HashMap ν (ν × ε)}

theorem nodup (tree : Tree next source path checked order parents) : order.Nodup :=
  tree.sorted.imp fun {u v} hbefore (heq : u = v) => Before.irrefl (path v) (heq ▸ hbefore)

theorem path_source (tree : Tree next source path checked order parents) : path source = [] := by
  have hnil : IsWalk next source [] source := rfl
  have hle := (tree.first source tree.source_mem).length_le hnil
  exact List.eq_nil_of_length_eq_zero (Nat.le_zero.mp hle)

theorem start : Tree next source (fun _ => []) (fun _ _ => False) [source] ∅ where
  source_mem := List.mem_singleton_self source
  traced v hv := by rw [List.mem_singleton.mp hv]; exact .nil
  first v hv := by
    rw [List.mem_singleton.mp hv]
    refine ⟨rfl, fun w' _ => ?_⟩
    cases w' with
    | nil => exact .inl rfl
    | cons h w' => exact .inr (before_of_length_lt (Nat.zero_lt_succ _))
  sorted := List.pairwise_singleton ..
  parent v hv := .inl (List.mem_singleton.mp hv)
  closed _ _ h := h.elim
  fresh v _ := HashMap.get?_empty v
  short _ _ := Nat.one_pos

theorem congr (tree : Tree next source path checked order parents)
    (h : ∀ u e, checked u e ↔ checked' u e) : Tree next source path checked' order parents := by
  have heq : checked = checked' := funext fun u => funext fun e => propext (h u e)
  exact heq ▸ tree

/-- An edge to a vertex that was reached before. -/
theorem check (tree : Tree next source path checked order parents) {current : ν} {edge : ν × ε}
    (hcurrent : current ∈ order) (hedge : edge.1 ∈ order) :
    Tree next source path (fun u e => checked u e ∨ u = current ∧ e = edge) order parents :=
  { tree with
    parent := fun v hv => (tree.parent v hv).imp id fun ⟨u, l, hchecked, hpath⟩ =>
      ⟨u, l, .inl hchecked, hpath⟩
    closed := fun u e h => by
      rcases h with h | ⟨rfl, rfl⟩
      · exact tree.closed u e h
      · exact ⟨hcurrent, hedge⟩ }

/-- The walk to a vertex that is not left yet comes no earlier than that to the vertex that is being
left. -/
theorem eq_or_before_of_not_mem {done queue : List ν} {current x : ν}
    (tree : Tree next source path checked (done ++ current :: queue) parents)
    (hx : x ∈ done ++ current :: queue) (hdone : x ∉ done) {w : List (Hop ν ε)}
    (hw : IsWalk next source w x) :
    w = path current ∧ x = current ∨ Before next (path current) w := by
  rcases List.mem_cons.mp ((List.mem_append.mp hx).resolve_left hdone) with rfl | hqueue
  · exact ((tree.first x hx).2 w hw).imp (⟨·, rfl⟩) id
  · have hsorted := (List.pairwise_append.mp tree.sorted).2.1
    have hbefore := (List.pairwise_cons.mp hsorted).1 x hqueue
    rcases (tree.first x hx).2 w hw with rfl | hlater
    · exact .inr hbefore
    · exact .inr (hbefore.trans hlater)

/-- The hops by which a new vertex is reached from the vertex that is being left, where `seen` are
the edges of it that were checked before. -/
theorem first_of_new {done queue : List ν} {current : ν} {seen rest : List (ν × ε)} {edge : ν × ε}
    (tree : Tree next source path
      (fun u e => u ∈ done ∧ e ∈ next u ∨ u = current ∧ e ∈ seen) (done ++ current :: queue)
      parents)
    (hnext : next current = seen ++ edge :: rest) (hnew : edge.1 ∉ done ++ current :: queue) :
    First next source (path current ++ [(current, edge)]) edge.1 := by
  have hseen : ∀ e ∈ seen, e.1 ≠ edge.1 := fun e he heq =>
    hnew (heq ▸ (tree.closed current e (.inr ⟨rfl, he⟩)).2)
  refine ⟨isWalk_snoc (tree.first current (by simp)).1 (by simp [hnext]), fun w' hw' => ?_⟩
  -- `x` is the first vertex of the other walk that was not left yet
  obtain ⟨before, after, x, rfl, hbefore, hafter, hx, hcase⟩ :=
    hw'.exists_leaves (P := (· ∈ done)) fun h => hnew (List.mem_append_left _ h)
  have hxorder : x ∈ done ++ current :: queue := by
    rcases hcase with rfl | ⟨y, e, hy, he, rfl⟩
    · exact tree.source_mem
    · exact (tree.closed y e (.inl ⟨hy, he⟩)).2
  have hcompare := tree.eq_or_before_of_not_mem hxorder hx hbefore
  cases after with
  | nil =>
    obtain rfl : x = edge.1 := hafter
    exact absurd hxorder hnew
  | cons hop after =>
    obtain ⟨rfl, hedge, hafter⟩ := hafter
    cases after with
    | cons hop' after =>
      refine .inr (before_of_length_lt ?_)
      have hle : (path current).length ≤ before.length := by
        rcases hcompare with ⟨rfl, -⟩ | hlater
        · exact le_rfl
        · exact hlater.length_le
      simp only [List.length_append, List.length_cons, List.length_nil]
      omega
    | nil =>
      have hend : hop.2.1 = edge.1 := hafter
      rcases hcompare with ⟨rfl, hcurrent⟩ | hlater
      · by_cases heq : hop.2 = edge
        · exact .inl (by rw [← heq, ← hcurrent])
        · refine .inr (before_snoc_of_rank _ ?_)
          rw [rank, rank, hcurrent, hnext,
            List.idxOf_append_of_notMem fun h => hseen edge h rfl,
            List.idxOf_append_of_notMem fun h => hseen hop.2 h hend, List.idxOf_cons_self,
            List.idxOf_cons_ne _ (Ne.symm heq)]
          omega
      · exact .inr (hlater.snoc _ _)

/-- The walk to a new vertex comes after all the others. -/
theorem before_new {done queue : List ν} {current : ν} {seen rest : List (ν × ε)} {edge : ν × ε}
    (tree : Tree next source path
      (fun u e => u ∈ done ∧ e ∈ next u ∨ u = current ∧ e ∈ seen) (done ++ current :: queue)
      parents)
    (hnext : next current = seen ++ edge :: rest) (hnew : edge.1 ∉ done ++ current :: queue) {v : ν}
    (hv : v ∈ done ++ current :: queue) :
    Before next (path v) (path current ++ [(current, edge)]) := by
  obtain ⟨-, -, hdone⟩ := List.pairwise_append.mp tree.sorted
  have hshort : (path v).length ≤ (path current).length →
      Before next (path v) (path current ++ [(current, edge)]) := fun hle =>
    before_of_length_lt (by simpa [Nat.lt_succ_iff] using hle)
  by_cases hleft : v ∈ done
  · exact hshort (hdone v hleft current List.mem_cons_self).length_le
  · rcases tree.parent v hv with rfl | ⟨u, l, ⟨hu, -⟩ | ⟨rfl, hl⟩, hpath⟩
    · exact hshort (by rw [tree.path_source]; exact Nat.zero_le _)
    · rw [hpath]
      exact (hdone u hu current List.mem_cons_self).snoc _ _
    · rw [hpath]
      have hedge : edge ∉ seen := fun h => hnew (tree.closed u edge (.inr ⟨rfl, h⟩)).2
      refine before_snoc_of_rank _ ?_
      rw [rank, rank, hnext, List.idxOf_append_of_mem hl, List.idxOf_append_of_notMem hedge]
      exact Nat.lt_add_right _ (List.idxOf_lt_length_of_mem hl)

theorem closed_of_new {done queue : List ν} {current : ν} {seen : List (ν × ε)} {edge : ν × ε}
    (tree : Tree next source path
      (fun u e => u ∈ done ∧ e ∈ next u ∨ u = current ∧ e ∈ seen) (done ++ current :: queue)
      parents)
    (hcurrent : current ∈ done ++ current :: queue) (u : ν) (e : ν × ε)
    (h : u ∈ done ∧ e ∈ next u ∨ u = current ∧ e ∈ seen ++ [edge]) :
    u ∈ done ++ current :: queue ++ [edge.1] ∧ e.1 ∈ done ++ current :: queue ++ [edge.1] := by
  have hold : ∀ {u e}, u ∈ done ∧ e ∈ next u ∨ u = current ∧ e ∈ seen →
      u ∈ done ++ current :: queue ++ [edge.1] ∧ e.1 ∈ done ++ current :: queue ++ [edge.1] :=
    fun h => (tree.closed _ _ h).imp (List.mem_append_left _) (List.mem_append_left _)
  rcases h with h | ⟨rfl, he⟩
  · exact hold (.inl h)
  · rcases List.mem_append.mp he with he | he
    · exact hold (.inr ⟨rfl, he⟩)
    · rw [List.mem_singleton.mp he]
      exact ⟨List.mem_append_left _ hcurrent, by simp⟩

/-- An edge to a new vertex, which is reached by it. -/
theorem reach {done queue : List ν} {current : ν} {seen rest : List (ν × ε)} {edge : ν × ε}
    (tree : Tree next source path
      (fun u e => u ∈ done ∧ e ∈ next u ∨ u = current ∧ e ∈ seen) (done ++ current :: queue)
      parents)
    (hnext : next current = seen ++ edge :: rest) (hnew : edge.1 ∉ done ++ current :: queue) :
    Tree next source (Function.update path edge.1 (path current ++ [(current, edge)]))
      (fun u e => u ∈ done ∧ e ∈ next u ∨ u = current ∧ e ∈ seen ++ [edge])
      (done ++ current :: queue ++ [edge.1]) (parents.insert edge.1 (current, edge.2)) := by
  have hcurrent : current ∈ done ++ current :: queue := by simp
  have hold : ∀ v ∈ done ++ current :: queue,
      Function.update path edge.1 (path current ++ [(current, edge)]) v = path v := fun v hv =>
    Function.update_of_ne (fun heq : v = edge.1 => hnew (heq ▸ hv)) _ _
  have hpath := Function.update_self edge.1 (path current ++ [(current, edge)]) path
  have hfresh := tree.fresh edge.1 hnew
  have hsource : edge.1 ≠ source := fun heq => hnew (by rw [heq]; exact tree.source_mem)
  constructor
  case source_mem => exact List.mem_append_left _ tree.source_mem
  case traced =>
    refine List.forall_mem_append.mpr ⟨fun v hv => ?_, List.forall_mem_singleton.mpr ?_⟩
    · rw [hold v hv]
      exact (tree.traced v hv).insert hfresh _
    · rw [hpath]
      refine .snoc ((tree.traced current hcurrent).insert hfresh _) hsource ?_
      rw [HashMap.get?_insert, if_pos rfl]
  case first =>
    refine List.forall_mem_append.mpr ⟨fun v hv => ?_, List.forall_mem_singleton.mpr ?_⟩
    · rw [hold v hv]
      exact tree.first v hv
    · rw [hpath]
      exact tree.first_of_new hnext hnew
  case sorted =>
    refine List.pairwise_append.mpr ⟨tree.sorted.imp_of_mem fun {u v} hu hv hbefore => ?_,
      List.pairwise_singleton .., fun v hv => List.forall_mem_singleton.mpr ?_⟩
    · rw [hold u hu, hold v hv]
      exact hbefore
    · rw [hpath, hold v hv]
      exact tree.before_new hnext hnew hv
  case parent =>
    refine List.forall_mem_append.mpr ⟨fun v hv => ?_, List.forall_mem_singleton.mpr ?_⟩
    · rw [hold v hv]
      refine (tree.parent v hv).imp id ?_
      rintro ⟨u, l, hchecked, hwalk⟩
      refine ⟨u, l, hchecked.imp id fun h => ⟨h.1, List.mem_append_left _ h.2⟩, ?_⟩
      rw [hold u (tree.closed u _ hchecked).1]
      exact hwalk
    · refine .inr ⟨current, edge.2, .inr ⟨rfl, by simp⟩, ?_⟩
      rw [hpath, hold current hcurrent]
  case closed => exact tree.closed_of_new hcurrent
  case fresh =>
    intro v hv
    rw [List.mem_append, not_or, List.mem_singleton] at hv
    rw [HashMap.get?_insert, if_neg hv.2]
    exact tree.fresh v hv.1
  case short =>
    rw [List.length_append, List.length_singleton]
    refine List.forall_mem_append.mpr ⟨fun v hv => ?_, List.forall_mem_singleton.mpr ?_⟩
    · rw [hold v hv]
      exact Nat.lt_succ_of_lt (tree.short v hv)
    · rw [hpath, List.length_append, List.length_singleton]
      exact Nat.succ_lt_succ (tree.short current hcurrent)

end Tree

variable {next : ν → List (ν × ε)} {source : ν}

/-- The state between two vertices, of which `done` were left. -/
structure Reached (next : ν → List (ν × ε)) (source : ν) (done : List ν) (f : Frontier ν ε) :
    Prop where
  tree : ∃ path, Tree next source path (fun u e => u ∈ done ∧ e ∈ next u) (done ++ f.queue)
    f.parents
  visited : ∀ v, v ∈ f.visited ↔ v ∈ done ++ f.queue

/-- The state between two edges of the vertex `current`, which was taken from the queue. -/
structure Leaving (next : ν → List (ν × ε)) (source : ν) (done : List ν) (current : ν)
    (seen : List (ν × ε)) (f : Frontier ν ε) : Prop where
  tree : ∃ path, Tree next source path
    (fun u e => u ∈ done ∧ e ∈ next u ∨ u = current ∧ e ∈ seen) (done ++ current :: f.queue)
    f.parents
  visited : ∀ v, v ∈ f.visited ↔ v ∈ done ++ current :: f.queue

theorem Leaving.visit {done : List ν} {current : ν} {seen rest : List (ν × ε)} {edge : ν × ε}
    {f : Frontier ν ε} (h : Leaving next source done current seen f)
    (hnext : next current = seen ++ edge :: rest) :
    Leaving next source done current (seen ++ [edge]) (visit current f edge) := by
  obtain ⟨path, tree⟩ := h.tree
  unfold BreadthFirst.visit
  split
  · next hmem =>
    have hcurrent : current ∈ done ++ current :: f.queue := by simp
    refine ⟨⟨path, (tree.check hcurrent ((h.visited _).mp hmem)).congr fun u e => ?_⟩, h.visited⟩
    rw [List.mem_append, List.mem_singleton]
    tauto
  · next hmem =>
    have hreached := tree.reach hnext (mt (h.visited _).mpr hmem)
    refine ⟨⟨_, by simpa using hreached⟩, fun v => ?_⟩
    have hvisited := h.visited v
    simp only [List.mem_cons, List.mem_append, List.not_mem_nil, or_false] at hvisited ⊢
    tauto

theorem Leaving.visits {done : List ν} {current : ν} {seen rest : List (ν × ε)} {f : Frontier ν ε}
    (h : Leaving next source done current seen f) (hnext : next current = seen ++ rest) :
    Leaving next source done current (next current)
      (rest.foldl (BreadthFirst.visit current) f) := by
  induction rest generalizing seen f with
  | nil => simpa [hnext] using h
  | cons edge rest ih => exact ih (h.visit hnext) (by simp [hnext])

theorem Reached.leaving {done queue : List ν} {current : ν} {f : Frontier ν ε}
    (h : Reached next source done f) (hqueue : f.queue = current :: queue) :
    Leaving next source done current [] { f with queue } := by
  obtain ⟨path, tree⟩ := h.tree
  rw [hqueue] at tree
  exact ⟨⟨path, tree.congr fun u e => by simp⟩, fun v => hqueue ▸ h.visited v⟩

theorem Leaving.reached {done : List ν} {current : ν} {f : Frontier ν ε}
    (h : Leaving next source done current (next current) f) :
    Reached next source (done ++ [current]) f := by
  obtain ⟨path, tree⟩ := h.tree
  have horder : done ++ [current] ++ f.queue = done ++ current :: f.queue := by simp
  refine ⟨⟨path, ?_⟩, fun v => by rw [horder]; exact h.visited v⟩
  rw [horder]
  refine tree.congr fun u e => ?_
  rw [List.mem_append, List.mem_singleton, or_and_right]
  exact or_congr_right (and_congr_right fun heq => by rw [heq])

theorem reached_start (source : ν) : Reached next source [] (.start source) :=
  ⟨⟨_, Tree.start.congr fun u e => by simp⟩, fun v => by simp [Frontier.start]⟩

/-- With an empty queue, a vertex that was not left is not reachable. -/
theorem Reached.not_isWalk {done : List ν} {f : Frontier ν ε} {v : ν}
    (h : Reached next source done f) (hqueue : f.queue = []) (hv : v ∉ done)
    (w : List (Hop ν ε)) : ¬ IsWalk next source w v := by
  obtain ⟨path, tree⟩ := h.tree
  rw [hqueue, List.append_nil] at tree
  intro hw
  exact hv (hw.mem_of_closed (P := (· ∈ done)) (fun u hu e he => (tree.closed u e ⟨hu, he⟩).2)
    tree.source_mem)

/-- No vertex is left twice. -/
theorem Reached.length_le {nodes : Finset ν} {done : List ν} {f : Frontier ν ε}
    (h : Reached next source done f) (hsource : source ∈ nodes)
    (hclosed : ∀ u ∈ nodes, ∀ e ∈ next u, e.1 ∈ nodes) :
    (done ++ f.queue).length ≤ nodes.card := by
  obtain ⟨path, tree⟩ := h.tree
  rw [← List.toFinset_card_of_nodup tree.nodup]
  refine Finset.card_le_card fun v hv => ?_
  exact (tree.first v (List.mem_toFinset.mp hv)).1.mem_of_closed hclosed hsource

/-- More fuel than there are vertices is enough: either the parents trace the first walk to the
destination, or there is none. -/
theorem Reached.search {nodes : Finset ν} {done : List ν} {f : Frontier ν ε} {destination : ν}
    {fuel : ℕ} (h : Reached next source done f) (hsource : source ∈ nodes)
    (hclosed : ∀ u ∈ nodes, ∀ e ∈ next u, e.1 ∈ nodes) (hdone : destination ∉ done)
    (hfuel : nodes.card < done.length + fuel) :
    (∃ parents w, search next destination fuel f = some (some parents) ∧
      First next source w destination ∧ Traced parents source w destination ∧
      w.length < nodes.card) ∨
    search next destination fuel f = some none ∧ ∀ w, ¬ IsWalk next source w destination := by
  have hlength := h.length_le hsource hclosed
  induction fuel generalizing done f with
  | zero =>
    rw [List.length_append] at hlength
    omega
  | succ fuel ih =>
    cases hqueue : f.queue with
    | nil => exact .inr ⟨by rw [BreadthFirst.search, hqueue], h.not_isWalk hqueue hdone⟩
    | cons current queue =>
      by_cases heq : current = destination
      · subst heq
        obtain ⟨path, tree⟩ := h.tree
        have hmem : current ∈ done ++ f.queue := by simp [hqueue]
        refine .inl ⟨f.parents, path current, ?_, tree.first _ hmem, tree.traced _ hmem,
          (tree.short _ hmem).trans_le hlength⟩
        rw [BreadthFirst.search, hqueue]
        exact if_pos rfl
      · have hnext := ((h.leaving hqueue).visits (List.nil_append _).symm).reached
        have hsearch : BreadthFirst.search next destination (fuel + 1) f =
            BreadthFirst.search next destination fuel
              ((next current).foldl (BreadthFirst.visit current) { f with queue }) := by
          rw [BreadthFirst.search, hqueue]
          exact if_neg heq
        rw [hsearch]
        exact ih hnext (by simp [hdone, Ne.symm heq])
          (by rw [List.length_append, List.length_singleton]; omega)
          (hnext.length_le hsource hclosed)

end Search

end GroundCore.Lib.BreadthFirst
