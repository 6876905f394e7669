import GroundCore.Lib.PiecewiseLinear
import GroundCore.RfFrontEnd.Devices

/-! The calibration of an attenuator.  The scan of the table stops at the first point beyond the
commanded attenuation and takes the point before it in the table, in the order in which the points
were added: that reads the interpolation through the points when each point lies on the line that
the scan reads its attenuation from. -/

namespace GroundCore.RfFrontEnd

open Lib PiecewiseLinear

variable {K : Type}

/-- What the scan of a table for `c` ends with, by the place where it stops. -/
inductive Scan [LinearOrder K] (c : K) (table : List (K × K)) :
    Option (K × K) → Option (K × K) → Prop
  | first {q : K × K} {rest : List (K × K)} (htable : table = q :: rest) (hq : c < q.1) :
      Scan c table none (some q)
  | between {front rest : List (K × K)} {o q : K × K} (htable : table = front ++ o :: q :: rest)
      (hfront : ∀ x ∈ front, x.1 ≤ c) (ho : o.1 ≤ c) (hq : c < q.1) : Scan c table (some o) (some q)
  | last {front : List (K × K)} {o : K × K} (htable : table = front ++ [o])
      (hall : ∀ x ∈ table, x.1 ≤ c) : Scan c table (some o) none

/-- The point is on the line through two points, or has the value of the only one. -/
def Lies [Field K] (p : K × K) : Option (K × K) → Option (K × K) → Prop
  | some o, some q => (p.2 - o.2) * (q.1 - o.1) = (q.2 - o.2) * (p.1 - o.1)
  | some o, none => p.2 = o.2
  | none, some q => p.2 = q.2
  | none, none => True

/-- Each point lies where the scan reads the attenuation of its command from. -/
def Aligned [Field K] [LinearOrder K] (table : List (K × K)) : Prop :=
  ∀ p ∈ table, ∀ lower upper, Scan p.1 table lower upper → Lies p lower upper

namespace Scan

section Places

variable [LinearOrder K] {c c' : K} {table : List (K × K)} {lower upper : Option (K × K)}

theorem surrounding_append {before : List (K × K)} (h : ∀ x ∈ before, x.1 ≤ c)
    (lower : Option (K × K)) (rest : List (K × K)) :
    VariableAttenuator.surrounding c lower (before ++ rest) =
      VariableAttenuator.surrounding c (before.getLast?.or lower) rest := by
  induction before generalizing lower with
  | nil => rfl
  | cons x before ih =>
    obtain ⟨hx, hbefore⟩ := List.forall_mem_cons.mp h
    rw [List.cons_append, VariableAttenuator.surrounding, if_pos hx, ih hbefore, List.getLast?_cons]
    cases before.getLast? <;> rfl

theorem surrounding_eq (h : Scan c table lower upper) :
    VariableAttenuator.surrounding c none table = (lower, upper) := by
  cases h with
  | first htable hq => rw [htable, VariableAttenuator.surrounding, if_neg (not_le.mpr hq)]
  | @between front rest o q htable hfront ho hq =>
    have hbefore : ∀ x ∈ front ++ [o], x.1 ≤ c :=
      List.forall_mem_append.mpr ⟨hfront, List.forall_mem_singleton.mpr ho⟩
    have hsplit : table = (front ++ [o]) ++ q :: rest := by
      rw [htable, List.append_assoc, List.singleton_append]
    rw [hsplit, surrounding_append hbefore, VariableAttenuator.surrounding,
      if_neg (not_le.mpr hq), List.getLast?_concat]
    rfl
  | last htable hall =>
    rw [← List.append_nil table, surrounding_append hall, htable, List.getLast?_concat]
    rfl

theorem exists_scan (c : K) (h : table ≠ []) : ∃ lower upper, Scan c table lower upper := by
  cases hfind : table.find? fun x => decide (c < x.1) with
  | none =>
    have hall : ∀ x ∈ table, x.1 ≤ c := by simpa using hfind
    exact ⟨_, none, last (List.dropLast_append_getLast h).symm hall⟩
  | some q =>
    obtain ⟨hq, before, rest, htable, hbefore⟩ := List.find?_eq_some_iff_append.mp hfind
    have hq : c < q.1 := by simpa using hq
    have hbefore : ∀ x ∈ before, x.1 ≤ c := by simpa using hbefore
    cases hlast : before.getLast? with
    | none =>
      rw [List.getLast?_eq_none_iff.mp hlast] at htable
      exact ⟨none, some q, first htable hq⟩
    | some o =>
      obtain ⟨front, hfront⟩ := List.getLast?_eq_some_iff.mp hlast
      rw [hfront] at htable hbefore
      obtain ⟨hfront, ho⟩ := List.forall_mem_append.mp hbefore
      rw [List.append_assoc] at htable
      exact ⟨some o, some q, between htable hfront (ho o (List.mem_singleton_self o)) hq⟩

/-- The scan stops at the same place for a command that has the same points up to it, and is
before the point at which it stops. -/
theorem of_side (h : Scan c table lower upper) (hlower : ∀ x ∈ table, x.1 ≤ c → x.1 ≤ c')
    (hupper : ∀ q, upper = some q → c' < q.1) : Scan c' table lower upper := by
  cases h with
  | first htable _ => exact first htable (hupper _ rfl)
  | between htable hfront ho _ =>
    refine between htable (fun x hx => hlower x ?_ (hfront x hx)) (hlower _ ?_ ho) (hupper _ rfl)
    · rw [htable]
      exact List.mem_append_left _ hx
    · simp [htable]
  | last htable hall => exact last htable fun x hx => hlower x hx (hall x hx)

/-- The commands of a scan increase from the point before its end to the one at its end. -/
theorem lt_of_between {o q : K × K} (h : Scan c table (some o) (some q)) : o.1 < q.1 := by
  cases h with
  | between htable hfront ho hq => exact ho.trans_lt hq

theorem lt_upper {q : K × K} (h : Scan c table lower (some q)) : c < q.1 ∧ q ∈ table := by
  cases h with
  | first htable hq => exact ⟨hq, by simp [htable]⟩
  | between htable hfront ho hq => exact ⟨hq, by simp [htable]⟩

theorem le_of_last (h : Scan c table lower none) : ∀ x ∈ table, x.1 ≤ c := by
  cases h with
  | last htable hall => exact hall

theorem lower_le {o : K × K} (h : Scan c table (some o) upper) : o.1 ≤ c ∧ o ∈ table := by
  cases h with
  | between htable hfront ho hq => exact ⟨ho, by simp [htable]⟩
  | last htable hall => exact ⟨hall _ (by simp [htable]), by simp [htable]⟩

end Places

variable [Field K] [LinearOrder K] {c : K} {table : List (K × K)} {lower upper : Option (K × K)}

theorem lies_iff (h : Scan c table lower upper) {p : K × K} :
    Lies p lower upper ↔ blend p.1 lower upper = p.2 := by
  cases h with
  | first htable hq => exact eq_comm
  | @between front rest o q htable hfront ho hq =>
    have hne : q.1 - o.1 ≠ 0 := sub_ne_zero.mpr (ho.trans_lt hq).ne'
    show (p.2 - o.2) * (q.1 - o.1) = (q.2 - o.2) * (p.1 - o.1) ↔ through o q p.1 = p.2
    rw [through, div_mul_eq_mul_div, ← eq_sub_iff_add_eq', div_eq_iff hne, eq_comm,
      mul_comm (q.2 - o.2)]
  | last htable hall => exact eq_comm

end Scan

namespace VariableAttenuator

variable [Field K] [LinearOrder K]

/-- The attenuator after the calibration points are added in order. -/
def calibrated (a : VariableAttenuator K) (points : List (K × K)) : VariableAttenuator K :=
  points.foldl (fun a point => a.addCalibrationPoint point.1 point.2) a

omit [Field K] [LinearOrder K] in
theorem calibrationTable_calibrated (a : VariableAttenuator K) (points : List (K × K)) :
    (a.calibrated points).calibrationTable = a.calibrationTable ++ points := by
  induction points generalizing a with
  | nil => exact (List.append_nil _).symm
  | cons point points ih =>
    rw [calibrated, List.foldl_cons]
    exact (ih _).trans (by simp [addCalibrationPoint])

variable {a : VariableAttenuator K} {c : K} {lower upper : Option (K × K)}

theorem getCalibratedAttenuation_of_scan (h : Scan c a.calibrationTable lower upper) :
    a.getCalibratedAttenuation c = blend c lower upper := by
  have hne : ¬ a.calibrationTable.isEmpty = true := by
    rw [List.isEmpty_iff]
    cases h with
    | first htable _ => simp [htable]
    | between htable _ _ _ => simp [htable]
    | last htable _ => simp [htable]
  rw [getCalibratedAttenuation, if_neg hne, h.surrounding_eq]
  cases lower <;> cases upper <;> rfl

theorem getCalibratedAttenuation_nil (h : a.calibrationTable = []) :
    a.getCalibratedAttenuation c = c := by
  rw [getCalibratedAttenuation, h]
  rfl

end VariableAttenuator

/-- The points of a table. -/
def pointSet (table : List (K × K)) : Set (K × K) := {p | p ∈ table}

section Interpolation

variable [Field K] [LinearOrder K] {c : K} {table : List (K × K)}
  {lower upper lower' upper' : Option (K × K)}

/-- In an aligned table the neighbours of a command are where the scan reads from. -/
theorem Aligned.neighbours_lie (h : Aligned table) (hinj : (pointSet table).InjOn Prod.fst)
    (hscan : Scan c table lower upper) (hnext : Neighbours (pointSet table) c lower' upper') :
    (∀ p, lower' = some p → blend p.1 lower upper = p.2) ∧
      ∀ u, upper' = some u → blend u.1 lower upper = u.2 := by
  constructor
  · intro p hp
    obtain ⟨hmem, hle, hmax⟩ := (hnext.lower_iff p).mp hp
    have hsame : Scan p.1 table lower upper := by
      refine hscan.of_side (fun x hx hxc => hmax x hx hxc) fun q hq => ?_
      subst hq
      exact hle.trans_lt hscan.lt_upper.1
    exact hsame.lies_iff.mp (h p hmem _ _ hsame)
  · intro u hu
    obtain ⟨hmem, hlt, hmin⟩ := (hnext.upper_iff u).mp hu
    cases upper with
    | none => exact absurd hlt (not_lt.mpr (hscan.le_of_last u hmem))
    | some q =>
      obtain ⟨hcq, hq⟩ := hscan.lt_upper
      rcases (hmin q hq hcq).lt_or_eq with huq | huq
      · have hsame : Scan u.1 table lower (some q) := by
          refine hscan.of_side (fun x _ hxc => hxc.trans hlt.le) fun q' hq' => ?_
          obtain rfl := Option.some.inj hq'
          exact huq
        exact hsame.lies_iff.mp (h u hmem _ _ hsame)
      · obtain rfl : u = q := hinj hmem hq huq
        cases lower with
        | none => rfl
        | some o => exact through_right hscan.lt_of_between.ne

/-- What an aligned table is scanned for is the value between the neighbours. -/
theorem Aligned.blend_eq (h : Aligned table) (hinj : (pointSet table).InjOn Prod.fst)
    (hscan : Scan c table lower upper) (hnext : Neighbours (pointSet table) c lower' upper') :
    blend c lower' upper' = blend c lower upper := by
  have hfin : (pointSet table).Finite := table.finite_toSet
  obtain ⟨hlies, hlies'⟩ := h.neighbours_lie hinj hscan hnext
  -- a point at which the scan stops has a neighbour of the command on its side
  have hlower : ∀ o, lower = some o → ∃ p, lower' = some p := by
    intro o ho
    subst ho
    obtain ⟨p, hp⟩ := exists_isLower hfin ⟨o, hscan.lower_le.2, hscan.lower_le.1⟩
    exact ⟨p, (hnext.lower_iff p).mpr hp⟩
  have hupper : ∀ q, upper = some q → ∃ u, upper' = some u := by
    intro q hq
    subst hq
    obtain ⟨u, hu⟩ := exists_isUpper hfin ⟨q, hscan.lt_upper.2, hscan.lt_upper.1⟩
    exact ⟨u, (hnext.upper_iff u).mpr hu⟩
  rcases lower with - | o <;> rcases upper with - | q
  · cases hscan
  · obtain ⟨u, rfl⟩ := hupper q rfl
    have hu : q.2 = u.2 := hlies' u rfl
    rcases lower' with - | p
    · exact hu.symm
    · have hp : q.2 = p.2 := hlies p rfl
      show through p u c = q.2
      rw [through, ← hp, ← hu, sub_self, mul_zero, add_zero]
  · obtain ⟨p, rfl⟩ := hlower o rfl
    have hp : o.2 = p.2 := hlies p rfl
    rcases upper' with - | u
    · exact hp.symm
    · obtain ⟨hmem, hlt, -⟩ := (hnext.upper_iff u).mp rfl
      exact absurd hlt (not_lt.mpr (hscan.le_of_last u hmem))
  · obtain ⟨p, rfl⟩ := hlower o rfl
    obtain ⟨u, rfl⟩ := hupper q rfl
    have hpu : p.1 < u.1 :=
      ((hnext.lower_iff p).mp rfl).2.1.trans_lt ((hnext.upper_iff u).mp rfl).2.1
    exact through_eq hscan.lt_of_between.ne hpu.ne (hlies p rfl) (hlies' u rfl) c

namespace VariableAttenuator

variable {a : VariableAttenuator K}

/-- The calibrated attenuation is the interpolation through the points, for every command, exactly
when the table is aligned. -/
theorem interpolates_iff_aligned (hinj : (pointSet a.calibrationTable).InjOn Prod.fst) :
    (∀ c, Interpolates (pointSet a.calibrationTable) c (a.getCalibratedAttenuation c)) ↔
      Aligned a.calibrationTable := by
  constructor
  · intro h p hp lower upper hscan
    have hvalue := (h p.1).at_point hp
    rw [getCalibratedAttenuation_of_scan hscan] at hvalue
    exact hscan.lies_iff.mpr hvalue
  · intro h c
    obtain ⟨lower', upper', hnext⟩ := exists_neighbours hinj c
    refine ⟨lower', upper', hnext, ?_⟩
    by_cases hne : a.calibrationTable = []
    · rw [getCalibratedAttenuation_nil hne]
      have hnone : ∀ p, p ∉ pointSet a.calibrationTable := by simp [pointSet, hne]
      rcases lower' with - | p
      · rcases upper' with - | u
        · rfl
        · exact absurd ((hnext.upper_iff u).mp rfl).1 (hnone u)
      · exact absurd ((hnext.lower_iff p).mp rfl).1 (hnone p)
    · obtain ⟨lower, upper, hscan⟩ := Scan.exists_scan c hne
      rw [getCalibratedAttenuation_of_scan hscan, h.blend_eq hinj hscan hnext]

end VariableAttenuator

end Interpolation

theorem injOn_pointSet {table : List (K × K)} (h : (table.map Prod.fst).Nodup) :
    (pointSet table).InjOn Prod.fst :=
  fun _ hp _ hq heq => List.inj_on_of_nodup_map h hp hq heq

/-- What points of distinct commands calibrate is the interpolation through them, which does not
fall where they do not, exactly when they are aligned in the order in which they were added; two
orders in which they are aligned calibrate the same. -/
theorem calibrated_interpolates_iff [Field K] [LinearOrder K] [IsStrictOrderedRing K]
    (minAttenuation maxAttenuation stepSize : K) (points : List (K × K))
    (h : (points.map Prod.fst).Nodup) :
    let calibrated points :=
      ((VariableAttenuator.new minAttenuation maxAttenuation stepSize).calibrated
        points).getCalibratedAttenuation
    ((∀ c, Interpolates (pointSet points) c (calibrated points c)) ∧
        ((∀ p ∈ points, ∀ q ∈ points, p.1 < q.1 → p.2 ≤ q.2) → Monotone (calibrated points)) ↔
      Aligned points) ∧
    ∀ points', points'.Perm points → Aligned points → Aligned points' →
      calibrated points' = calibrated points := by
  intro calibrated
  have htable : ∀ points : List (K × K), ((VariableAttenuator.new minAttenuation maxAttenuation
      stepSize).calibrated points).calibrationTable = points :=
    fun points => VariableAttenuator.calibrationTable_calibrated _ points
  have hiff : ∀ points : List (K × K), (points.map Prod.fst).Nodup →
      ((∀ c, Interpolates (pointSet points) c (calibrated points c)) ↔ Aligned points) := by
    intro points hnodup
    have hinj := injOn_pointSet hnodup
    rw [← htable points] at hinj
    have hpoints := VariableAttenuator.interpolates_iff_aligned hinj
    rwa [htable points] at hpoints
  refine ⟨?_, fun points' hperm halign halign' => funext fun c => ?_⟩
  · rw [← hiff points h]
    refine and_iff_left_of_imp fun hvalues hrising c c' hle => ?_
    exact (hvalues c).mono (hvalues c') points.finite_toSet ⟨injOn_pointSet h, hrising⟩ hle
  · have hnodup' : (points'.map Prod.fst).Nodup := (hperm.map Prod.fst).nodup_iff.mpr h
    have hvalue' := (hiff points' hnodup').mpr halign' c
    have hset : pointSet points' = pointSet points := Set.ext fun p => hperm.mem_iff
    rw [hset] at hvalue'
    exact hvalue'.unique ((hiff points h).mpr halign c)

/-- Points that are added in the order of their commands are aligned. -/
theorem aligned_of_sorted [Field K] [LinearOrder K] {points : List (K × K)}
    (h : points.Pairwise fun p q => p.1 < q.1) : Aligned points := by
  intro p hp lower upper hscan
  -- the scan for the command of a point stops right after the point
  cases hscan with
  | first htable hq =>
    rw [htable, List.pairwise_cons] at h
    rw [htable, List.mem_cons] at hp
    rcases hp with rfl | hp
    · exact absurd hq (lt_irrefl _)
    · exact absurd (h.1 p hp) hq.not_gt
  | @between front rest o q htable hfront ho hq =>
    rw [htable, List.pairwise_append, List.pairwise_cons, List.pairwise_cons] at h
    obtain ⟨-, ⟨-, hrest, -⟩, hcross⟩ := h
    have hpo : p = o := by
      rw [htable, List.mem_append, List.mem_cons, List.mem_cons] at hp
      rcases hp with hp | rfl | rfl | hp
      · exact absurd (hcross p hp o List.mem_cons_self) ho.not_gt
      · rfl
      · exact absurd hq (lt_irrefl _)
      · exact absurd (hrest p hp) hq.not_gt
    show (p.2 - o.2) * (q.1 - o.1) = (q.2 - o.2) * (p.1 - o.1)
    rw [hpo, sub_self, sub_self, zero_mul, mul_zero]
  | @last front o htable hall =>
    have ho : o.1 ≤ p.1 := hall o (by simp [htable])
    rw [htable, List.pairwise_append] at h
    rw [htable, List.mem_append, List.mem_singleton] at hp
    rcases hp with hp | rfl
    · exact absurd (h.2.2 p hp o (List.mem_singleton_self o)) ho.not_gt
    · rfl

theorem two_points_calibrated :
    let calibrated points :=
      ((VariableAttenuator.new (0 : ℚ) 31.5 0.5).calibrated points).getCalibratedAttenuation
    (∀ c, Interpolates (pointSet [(0, 0.5), (10, 10.5)]) c
        (calibrated [(0, 0.5), (10, 10.5)] c)) ∧
      Monotone (calibrated [(0, 0.5), (10, 10.5)]) := by
  have hsorted : ([(0, 0.5), (10, 10.5)] : List (ℚ × ℚ)).Pairwise fun p q => p.1 < q.1 := by
    decide +kernel
  obtain ⟨hvalues, hmono⟩ := (calibrated_interpolates_iff (0 : ℚ) 31.5 0.5 [(0, 0.5), (10, 10.5)]
    (by decide +kernel)).1.mpr (aligned_of_sorted hsorted)
  exact ⟨hvalues, hmono (by decide +kernel)⟩

/-- With the greater command added first, the command of the other point is read as 10 dB. -/
theorem later_lower_point_ignored :
    let points : List (ℚ × ℚ) := [(10, 10), (0, 0)]
    ¬ ∀ c, Interpolates (pointSet points) c
      (((VariableAttenuator.new (0 : ℚ) 31.5 0.5).calibrated points).getCalibratedAttenuation c) := by
  intro points h
  have hread : ((VariableAttenuator.new (0 : ℚ) 31.5 0.5).calibrated
      points).getCalibratedAttenuation 0 = 10 := by
    decide +kernel
  have hvalue := (h 0).at_point (p := (0, 0)) (by simp [points, pointSet])
  rw [hread] at hvalue
  exact absurd hvalue (by decide)

end GroundCore.RfFrontEnd
