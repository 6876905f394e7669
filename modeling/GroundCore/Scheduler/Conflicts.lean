import Mathlib.Data.List.Nodup
import Mathlib.Data.List.ProdSigma
import GroundCore.Lib.Pairs
import GroundCore.Scheduler.Schedule

/-! The conflicts of a schedule against the pairwise definition of a conflict.  The index by device
replaces the scan of all pairs, and a pass that names one device twice meets itself there: it is
reported in conflict with itself. -/

namespace GroundCore.Scheduler

open Lib

section Pairs

variable {α β : Type} {x y : α} {l : List α}

theorem pairs_append_perm (u v : List α) :
    (pairs (u ++ v)).Perm (pairs u ++ u ×ˢ v ++ pairs v) := by
  induction u with
  | nil => exact .refl _
  | cons x u ih =>
    simp only [List.cons_append, pairs, List.map_append, List.product_cons, List.append_assoc]
    apply List.Perm.append_left
    have hswap : (v.map (Prod.mk x) ++ (pairs u ++ (u ×ˢ v ++ pairs v))).Perm
        (pairs u ++ (v.map (Prod.mk x) ++ (u ×ˢ v ++ pairs v))) := by
      simpa using List.perm_append_comm_assoc _ _ _
    rw [List.append_assoc] at ih
    exact (List.Perm.append_left _ ih).trans hswap

theorem mem_pairs_append {u v : List α} :
    (x, y) ∈ pairs (u ++ v) ↔ (x, y) ∈ pairs u ∨ (x ∈ u ∧ y ∈ v) ∨ (x, y) ∈ pairs v := by
  rw [(pairs_append_perm u v).mem_iff, List.mem_append, List.mem_append, List.mem_product, or_assoc]

theorem mem_of_mem_pairs {e : α × α} (h : e ∈ pairs l) : e.1 ∈ l ∧ e.2 ∈ l := by
  induction l with
  | nil => exact absurd h List.not_mem_nil
  | cons a l ih =>
    rcases List.mem_append.mp h with h | h
    · obtain ⟨b, hb, rfl⟩ := List.mem_map.mp h
      exact ⟨List.mem_cons_self, List.mem_cons_of_mem a hb⟩
    · exact ⟨List.mem_cons_of_mem a (ih h).1, List.mem_cons_of_mem a (ih h).2⟩

theorem pairs_map (f : α → β) (l : List α) : pairs (l.map f) = (pairs l).map (Prod.map f f) := by
  induction l with
  | nil => rfl
  | cons a l ih => simp [pairs, ih, Function.comp_def]

/-- A relation that holds between each element and those after it holds of every pair. -/
theorem rel_of_mem_pairs {R : α → α → Prop} (hl : l.Pairwise R) {e : α × α} (h : e ∈ pairs l) :
    R e.1 e.2 := by
  induction hl with
  | nil => exact absurd h List.not_mem_nil
  | cons hhead _ ih =>
    rcases List.mem_append.mp h with h | h
    · obtain ⟨b, hb, rfl⟩ := List.mem_map.mp h
      exact hhead b hb
    · exact ih h

theorem nodup_pairs (hl : l.Nodup) : (pairs l).Nodup := by
  induction l with
  | nil => exact List.nodup_nil
  | cons a l ih =>
    obtain ⟨ha, hl⟩ := List.nodup_cons.mp hl
    apply List.Nodup.append (hl.map (Prod.mk_right_injective a)) (ih hl)
    intro e he he'
    obtain ⟨b, -, rfl⟩ := List.mem_map.mp he
    exact ha (mem_of_mem_pairs he').1

theorem mem_pairs_replicate {n : ℕ} {a : α} :
    (x, y) ∈ pairs (List.replicate n a) ↔ x = a ∧ y = a ∧ 2 ≤ n := by
  induction n with
  | zero => simp [pairs]
  | succ n ih =>
    rw [List.replicate_succ, pairs, List.mem_append, ih]
    simp only [List.mem_map, List.mem_replicate, Prod.mk.injEq]
    constructor
    · rintro (⟨_, ⟨hn, rfl⟩, rfl, rfl⟩ | ⟨rfl, rfl, hn⟩)
      · exact ⟨rfl, rfl, by omega⟩
      · exact ⟨rfl, rfl, by omega⟩
    · rintro ⟨rfl, rfl, hn⟩
      exact .inl ⟨_, ⟨by omega, rfl⟩, rfl, rfl⟩

/-- A pair of a list that is put together from lists lies within one of them, or across two. -/
theorem mem_pairs_flatMap {f : β → List α} {bs : List β} :
    (x, y) ∈ pairs (bs.flatMap f) ↔
      (∃ b ∈ bs, (x, y) ∈ pairs (f b)) ∨ ∃ e ∈ pairs bs, x ∈ f e.1 ∧ y ∈ f e.2 := by
  induction bs with
  | nil => simp [pairs]
  | cons b bs ih =>
    have hcross : (∃ e ∈ pairs (b :: bs), x ∈ f e.1 ∧ y ∈ f e.2) ↔
        (x ∈ f b ∧ y ∈ bs.flatMap f) ∨ ∃ e ∈ pairs bs, x ∈ f e.1 ∧ y ∈ f e.2 := by
      simp only [pairs, List.mem_append, or_and_right, exists_or, List.mem_map, List.mem_flatMap]
      apply or_congr_left
      constructor
      · rintro ⟨_, ⟨c, hc, rfl⟩, hx, hy⟩
        exact ⟨hx, c, hc, hy⟩
      · rintro ⟨hx, c, hc, hy⟩
        exact ⟨(b, c), ⟨c, hc, rfl⟩, hx, hy⟩
    rw [List.flatMap_cons, mem_pairs_append, ih, hcross]
    rw [List.exists_mem_cons_iff, or_assoc]
    exact or_congr_right or_left_comm

end Pairs

variable {F64 : Type}

namespace ScheduledPass

def sharesDevice (p q : ScheduledPass F64) : Bool :=
  p.hardwareAllocation.devices.any fun device => device ∈ q.hardwareAllocation.devices

/-- The conflict of two passes that overlap. -/
def overlapConflict (p q : ScheduledPass F64) : Option ScheduleConflict :=
  if windowsOverlap p.scheduledWindow q.scheduledWindow then
    some { pass1Id := p.passId, pass2Id := q.passId, conflictType := .hardwareOverlap }
  else none

/-- A pass that names no device twice. -/
def namesDevicesOnce (p : ScheduledPass F64) : Bool := decide p.hardwareAllocation.devices.Nodup

theorem sharesDevice_iff {p q : ScheduledPass F64} :
    p.sharesDevice q ↔
      ∃ d, d ∈ p.hardwareAllocation.devices ∧ d ∈ q.hardwareAllocation.devices := by
  simp [sharesDevice]

theorem not_namesDevicesOnce_iff {p : ScheduledPass F64} :
    !p.namesDevicesOnce ↔ ∃ d, 2 ≤ p.hardwareAllocation.devices.count d := by
  simp [namesDevicesOnce, List.nodup_iff_count_le_one, Nat.lt_iff_add_one_le]

end ScheduledPass

namespace Schedule

/-- One conflict for each pair of passes that share a device and overlap. -/
def pairwiseConflicts (s : Schedule F64) : List ScheduleConflict :=
  ((pairs s.passes).filter fun e => e.1.sharesDevice e.2).filterMap fun e => e.1.overlapConflict e.2

/-- One conflict for each pass that names a device twice and whose window is not empty. -/
def selfConflicts (s : Schedule F64) : List ScheduleConflict :=
  (s.passes.filter fun p => !p.namesDevicesOnce).filterMap fun p => p.overlapConflict p

variable {s : Schedule F64}

/-- The positions that meet in the group of some device. -/
def meetings (s : Schedule F64) : List (ℕ × ℕ) :=
  ((pairs s.passes.zipIdx).filter fun e => e.1.1.sharesDevice e.2.1).map
      (Prod.map Prod.snd Prod.snd) ++
    (s.passes.zipIdx.filter fun e => !e.1.namesDevicesOnce).map fun e => (e.2, e.2)

section DeviceIndex

theorem get?_index_devices (index : HashMap String (List ℕ)) (devices : List String) (i : ℕ)
    (d : String) :
    ((devices.foldl (fun index device =>
        index.insert device ((index.get? device).getD [] ++ [i])) index).get? d).getD [] =
      (index.get? d).getD [] ++ List.replicate (devices.count d) i := by
  induction devices generalizing index with
  | nil => simp
  | cons device devices ih =>
    rw [List.foldl_cons, ih, HashMap.get?_insert, List.count_cons]
    by_cases h : d = device
    · subst h
      simp [List.replicate_succ]
    · simp [h, Ne.symm h]

/-- The group of a device holds the position of a pass as often as the pass names the device. -/
theorem get?_deviceIndex (s : Schedule F64) (d : String) :
    (s.deviceIndex.get? d).getD [] = s.passes.zipIdx.flatMap fun e =>
      List.replicate (e.1.hardwareAllocation.devices.count d) e.2 := by
  have hrun : ∀ (es : List (ScheduledPass F64 × ℕ)) (index : HashMap String (List ℕ)),
      ((es.foldl (fun index pass =>
        pass.1.hardwareAllocation.devices.foldl (fun index device =>
          index.insert device ((index.get? device).getD [] ++ [pass.2])) index) index).get? d).getD
            [] =
        (index.get? d).getD [] ++ es.flatMap fun e =>
          List.replicate (e.1.hardwareAllocation.devices.count d) e.2 := by
    intro es
    induction es with
    | nil => simp
    | cons e es ih =>
      intro index
      rw [List.foldl_cons, ih, get?_index_devices, List.flatMap_cons, List.append_assoc]
  rw [deviceIndex, hrun]
  simp

theorem mem_group_iff {pair : ℕ × ℕ} {ord : IterOrder (List ℕ)} :
    pair ∈ (ord.order s.deviceIndex.values).flatMap pairs ↔
      ∃ d, pair ∈ pairs ((s.deviceIndex.get? d).getD []) := by
  simp only [List.mem_flatMap, IterOrder.mem_order, HashMap.mem_values]
  constructor
  · rintro ⟨group, ⟨d, hd⟩, hpair⟩
    exact ⟨d, by rw [hd]; exact hpair⟩
  · rintro ⟨d, hpair⟩
    cases hd : s.deviceIndex.get? d with
    | none => rw [hd] at hpair; exact absurd hpair List.not_mem_nil
    | some group => exact ⟨group, ⟨d, hd⟩, by rwa [hd] at hpair⟩

/-- The pairs that the groups hold are those of the meetings. -/
theorem mem_groups_iff {pair : ℕ × ℕ} {ord : IterOrder (List ℕ)} :
    pair ∈ (ord.order s.deviceIndex.values).flatMap pairs ↔ pair ∈ s.meetings := by
  obtain ⟨i, j⟩ := pair
  simp only [mem_group_iff, get?_deviceIndex, mem_pairs_flatMap, mem_pairs_replicate, meetings,
    List.mem_append, List.mem_map, List.mem_filter, ScheduledPass.sharesDevice_iff,
    ScheduledPass.not_namesDevicesOnce_iff, List.mem_replicate, ne_eq, List.count_eq_zero, not_not]
  constructor
  · rintro ⟨d, ⟨e, he, rfl, rfl, hcount⟩ | ⟨e, he, ⟨h1, rfl⟩, h2, rfl⟩⟩
    · exact .inr ⟨e, ⟨he, d, hcount⟩, rfl⟩
    · exact .inl ⟨e, ⟨he, d, h1, h2⟩, rfl⟩
  · rintro (⟨e, ⟨he, d, h1, h2⟩, heq⟩ | ⟨e, ⟨he, d, hcount⟩, heq⟩)
    · obtain ⟨rfl, rfl⟩ := Prod.mk.inj heq
      exact ⟨d, .inr ⟨e, he, ⟨h1, rfl⟩, h2, rfl⟩⟩
    · obtain ⟨rfl, rfl⟩ := Prod.mk.inj heq
      exact ⟨d, .inl ⟨e, he, rfl, rfl, hcount⟩⟩

end DeviceIndex

section Meetings

/-- Within a group the positions are in order, so a pair is its own key. -/
theorem pairKey_of_mem_meetings {pair : ℕ × ℕ} (h : pair ∈ s.meetings) : pairKey pair = pair := by
  rcases List.mem_append.mp h with h | h
  · obtain ⟨e, he, rfl⟩ := List.mem_map.mp h
    exact if_pos (rel_of_mem_pairs (pairwise_zipIdx s.passes) (List.mem_filter.mp he).1)
  · obtain ⟨e, -, rfl⟩ := List.mem_map.mp h
    exact if_neg (lt_irrefl _)

theorem nodup_meetings (s : Schedule F64) : s.meetings.Nodup := by
  have hsnd : (s.passes.zipIdx.map Prod.snd).Nodup := by
    rw [List.zipIdx_map_snd]
    exact List.nodup_range'
  have hcross := nodup_pairs hsnd
  rw [pairs_map] at hcross
  apply List.Nodup.append
  · exact hcross.sublist (List.filter_sublist.map _)
  · have hself : (s.passes.zipIdx.map fun e => (e.2, e.2)) =
        (s.passes.zipIdx.map Prod.snd).map fun i => (i, i) := by
      rw [List.map_map]
      rfl
    have hinj : Function.Injective fun i : ℕ => (i, i) := fun i j h => (Prod.mk.inj h).1
    refine List.Nodup.sublist (List.filter_sublist.map _) ?_
    rw [hself]
    exact hsnd.map hinj
  · intro pair hpair hpair'
    obtain ⟨e, he, rfl⟩ := List.mem_map.mp hpair
    obtain ⟨e', -, heq⟩ := List.mem_map.mp hpair'
    obtain ⟨h1, h2⟩ := Prod.mk.inj heq
    have hlt := rel_of_mem_pairs (pairwise_zipIdx s.passes) (List.mem_filter.mp he).1
    omega

theorem conflictAt_of_mem {e e' : ScheduledPass F64 × ℕ} (he : e ∈ s.passes.zipIdx)
    (he' : e' ∈ s.passes.zipIdx) : s.conflictAt (e.2, e'.2) = e.1.overlapConflict e'.1 := by
  have h1 : s.passes[e.2]? = some e.1 := List.mem_zipIdx_iff_getElem?.mp he
  have h2 : s.passes[e'.2]? = some e'.1 := List.mem_zipIdx_iff_getElem?.mp he'
  simp only [conflictAt, h1, h2, ScheduledPass.overlapConflict]
  rfl

theorem filterMap_meetings (s : Schedule F64) :
    s.meetings.filterMap s.conflictAt = s.pairwiseConflicts ++ s.selfConflicts := by
  rw [meetings, List.filterMap_append, List.filterMap_map, List.filterMap_map]
  have hpasses : s.passes = s.passes.zipIdx.map Prod.fst := (List.zipIdx_map_fst 0 s.passes).symm
  congr 1
  · rw [pairwiseConflicts, hpasses, pairs_map, List.filter_map, List.filterMap_map, ← hpasses]
    apply List.filterMap_congr
    intro e he
    obtain ⟨h1, h2⟩ := mem_of_mem_pairs (List.mem_filter.mp he).1
    exact conflictAt_of_mem h1 h2
  · rw [selfConflicts, hpasses, List.filter_map, List.filterMap_map, ← hpasses]
    apply List.filterMap_congr
    intro e he
    exact conflictAt_of_mem (List.mem_filter.mp he).1 (List.mem_filter.mp he).1

end Meetings

/-- When every pair is its own key, the conflicts are those of the keys that have been seen. -/
theorem conflicts_of_seen (found : List (ℕ × ℕ) × List ScheduleConflict) (ps : List (ℕ × ℕ))
    (hkey : ∀ pair ∈ ps, pairKey pair = pair)
    (hfound : found.2 = found.1.reverse.filterMap s.conflictAt) :
    (ps.foldl s.conflictStep found).2 =
      (ps.foldl s.conflictStep found).1.reverse.filterMap s.conflictAt := by
  induction ps generalizing found with
  | nil => exact hfound
  | cons pair ps ih =>
    obtain ⟨hpair, hps⟩ := List.forall_mem_cons.mp hkey
    rw [List.foldl_cons]
    apply ih _ hps
    unfold conflictStep
    split
    · exact hfound
    · simp only [hpair, List.reverse_cons, List.filterMap_append, hfound]
      cases h : s.conflictAt pair <;> simp [h]

/-- The conflicts are those of the pairs of passes, and those of the passes that meet themselves. -/
theorem checkConflicts_perm (s : Schedule F64) (ord : IterOrder (List ℕ)) :
    (s.checkConflicts ord).Perm (s.pairwiseConflicts ++ s.selfConflicts) := by
  have hkey : ∀ pair ∈ (ord.order s.deviceIndex.values).flatMap pairs, pairKey pair = pair :=
    fun pair hpair => pairKey_of_mem_meetings (mem_groups_iff.mp hpair)
  obtain ⟨hnodup, hmem, -⟩ :=
    s.conflictStep_run ([], []) ((ord.order s.deviceIndex.values).flatMap pairs) List.nodup_nil rfl
  rw [checkConflicts, conflicts_of_seen ([], []) _ hkey rfl, ← filterMap_meetings]
  apply List.Perm.filterMap
  apply (List.reverse_perm _).trans
  apply (List.perm_ext_iff_of_nodup hnodup s.nodup_meetings).mpr
  intro pair
  rw [hmem, List.map_congr_left hkey, List.map_id', mem_groups_iff]
  simp only [List.not_mem_nil, false_or]

theorem selfConflicts_eq_nil_iff :
    s.selfConflicts = [] ↔ ∀ p ∈ s.passes,
      p.hardwareAllocation.devices.Nodup ∨ p.scheduledWindow.end ≤ p.scheduledWindow.start := by
  simp only [selfConflicts, List.filterMap_eq_nil_iff, List.mem_filter,
    ScheduledPass.overlapConflict, windowsOverlap, ScheduledPass.namesDevicesOnce, and_imp]
  apply forall₂_congr
  intro p _
  simp
  tauto

/-- One conflict for each pair of passes that share a device and overlap, and no other, exactly when
no pass with a window that is not empty names a device twice. -/
theorem checkConflicts_pairwise_iff (s : Schedule F64) (ord : IterOrder (List ℕ)) :
    (s.checkConflicts ord).Perm s.pairwiseConflicts ↔ ∀ p ∈ s.passes,
      p.hardwareAllocation.devices.Nodup ∨ p.scheduledWindow.end ≤ p.scheduledWindow.start := by
  rw [← selfConflicts_eq_nil_iff]
  have hperm := s.checkConflicts_perm ord
  constructor
  · intro h
    have hlength := (hperm.symm.trans h).length_eq
    rw [List.length_append] at hlength
    exact List.length_eq_zero_iff.mp (by omega)
  · intro h
    rwa [h, List.append_nil] at hperm

/-- A dish that turns itself: the antenna and the rotator of the pass have one name. -/
def dishSchedule : Schedule ℚ :=
  { passes := [{
      passId := "pass", requestId := "request", customerId := "customer", satelliteId := "sat"
      scheduledWindow := { start := 0, «end» := Duration.minutes 10, minDurationSec := 300 }
      hardwareAllocation :=
        { sdrDevices := ["sdr"], shadowSdr := none, antennaId := "dish", rotatorId := "dish" }
      scheduledAt := 0, status := .scheduled, keyholeWarning := none }]
    generatedAt := 0, horizon := (0, Duration.hours 24), version := 0 }

/-- The only pass of a schedule is reported in conflict with itself. -/
theorem dish_conflicts_with_itself :
    dishSchedule.checkConflicts (.stored _) =
        [{ pass1Id := "pass", pass2Id := "pass", conflictType := .hardwareOverlap }] ∧
      dishSchedule.pairwiseConflicts = [] ∧
      ¬ (dishSchedule.checkConflicts (.stored _)).Perm dishSchedule.pairwiseConflicts := by
  decide +kernel

end Schedule

end GroundCore.Scheduler
