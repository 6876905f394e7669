import Mathlib.Algebra.Order.Field.Rat
import GroundCore.Core.Types
import GroundCore.Lib.BTreeMap
import GroundCore.Lib.FiniteFloat
import GroundCore.Lib.Run
import GroundCore.Lib.Pairs

/-! The propagation cache: orbital states by time, and answers in between by interpolation.

The distances to the cached times are compared and divided in whole seconds: a query at a cached
time divides zero by zero, one less than a second beyond the window is still within it, and one with
entries on one side only gets the state of another time. -/

namespace GroundCore.Caching.Propagation

open Lib FloatOps

structure CacheEntry (F64 : Type) where
  position : F64 × F64 × F64
  velocity : F64 × F64 × F64
  time : DateTime
  tleEpoch : DateTime

structure PropagationCache (F64 : Type) where
  entries : BTreeMap DateTime (CacheEntry F64)
  interpolationWindow : Duration
  maxAge : Duration

variable {F64 F32 : Type}

namespace PropagationCache

def new (interpolationWindowSec maxAgeSec : ℤ) : PropagationCache F64 :=
  { entries := ∅, interpolationWindow := Duration.seconds interpolationWindowSec
    maxAge := Duration.seconds maxAgeSec }

/-- The last entry up to a time. -/
def before (cache : PropagationCache F64) (time : DateTime) : Option (DateTime × CacheEntry F64) :=
  (cache.entries.rangeTo time).getLast?

/-- The first entry from a time on. -/
def after (cache : PropagationCache F64) (time : DateTime) : Option (DateTime × CacheEntry F64) :=
  (cache.entries.rangeFrom time).head?

/-- The whole seconds of a distance are within those of the interpolation window. -/
def withinWindow (cache : PropagationCache F64) (distance : Duration) : Bool :=
  decide (|Duration.numSeconds distance| ≤ Duration.numSeconds cache.interpolationWindow)

section Lookup

variable [FloatOps F64 F32]

def interpolate (t x y : F64) : F64 := x * (lit 1 - t) + y * t

def interpolateVector (t : F64) (v w : F64 × F64 × F64) : F64 × F64 × F64 :=
  (interpolate t v.1 w.1, interpolate t v.2.1 w.2.1, interpolate t v.2.2 w.2.2)

/-- How far a time is between two others, in whole seconds. -/
def fraction (time t1 t2 : DateTime) : F64 :=
  let totalDt : F64 := lit (Duration.numSeconds (t2 - t1))
  lit (Duration.numSeconds (time - t1)) / totalDt

def lookupInterpolatable (cache : PropagationCache F64) (time : DateTime) :
    Option (CacheEntry F64) :=
  match cache.before time, cache.after time with
  | some (t1, s1), some (t2, s2) =>
    if cache.withinWindow (time - t1) && cache.withinWindow (t2 - time) then
      let t := fraction time t1 t2
      some { position := interpolateVector t s1.position s2.position
             velocity := interpolateVector t s1.velocity s2.velocity
             time, tleEpoch := s1.tleEpoch }
    else none
  | some (t1, s1), none => if cache.withinWindow (time - t1) then some s1 else none
  | none, some (t2, s2) => if cache.withinWindow (t2 - time) then some s2 else none
  | none, none => none

def cleanup (cache : PropagationCache F64) (now : DateTime) : PropagationCache F64 :=
  { cache with entries := cache.entries.retain fun time _ => decide (now - time < cache.maxAge) }

def lookupOrCompute (cache : PropagationCache F64) (now time : DateTime)
    (computeFn : DateTime → CacheEntry F64) : PropagationCache F64 × Option (CacheEntry F64) :=
  let cache := cache.cleanup now
  match cache.lookupInterpolatable time with
  | some entry => (cache, some entry)
  | none =>
    let entry := computeFn time
    ({ cache with entries := cache.entries.insert time entry }, some entry)

end Lookup

def invalidateAll (cache : PropagationCache F64) : PropagationCache F64 :=
  { cache with entries := ∅ }

end PropagationCache

open ExactFloat

variable {F64 F32 : Type}

namespace PropagationCache

def Caches (cache : PropagationCache F64) (time : DateTime) : Prop :=
  ∃ entry, (time, entry) ∈ cache.entries.entries

def beforeTime (cache : PropagationCache F64) (time : DateTime) : Option DateTime :=
  (cache.before time).map Prod.fst

def afterTime (cache : PropagationCache F64) (time : DateTime) : Option DateTime :=
  (cache.after time).map Prod.fst

/-- The state of each entry is the one of its time. -/
def Dated (cache : PropagationCache F64) : Prop :=
  ∀ e ∈ cache.entries.entries, e.2.time = e.1

/-- The query is not at a cached time; the states on either side, if they count as within the
window, are within it and at least a second apart; and a state on one side only does not count as
within the window. -/
def Safe (cache : PropagationCache F64) (time : DateTime) : Prop :=
  match cache.beforeTime time, cache.afterTime time with
  | some t1, some t2 => t1 < time ∧
      (cache.withinWindow (time - t1) → cache.withinWindow (t2 - time) →
        Duration.numSeconds (t2 - t1) ≠ 0 ∧
        time - t1 ≤ cache.interpolationWindow ∧ t2 - time ≤ cache.interpolationWindow)
  | some t1, none => ¬ cache.withinWindow (time - t1)
  | none, some t2 => ¬ cache.withinWindow (t2 - time)
  | none, none => True

/-- The entries next to a time, on either side of it. -/
structure Surrounds (cache : PropagationCache F64) (time : DateTime)
    (e e' : DateTime × CacheEntry F64) : Prop where
  mem : e ∈ cache.entries.entries
  mem' : e' ∈ cache.entries.entries
  lt : e.1 < time
  lt' : time < e'.1
  next : ∀ d ∈ cache.entries.entries, d.1 ≤ e.1 ∨ e'.1 ≤ d.1

/-- An interpolation between entries whose distance has no whole second. -/
def DividesByZero (cache : PropagationCache F64) (time : DateTime) : Prop :=
  ∃ e e', cache.before time = some e ∧ cache.after time = some e' ∧
    cache.withinWindow (time - e.1) ∧ cache.withinWindow (e'.1 - time) ∧
    Duration.numSeconds (e'.1 - e.1) = 0

section Neighbours

variable {cache : PropagationCache F64} {time t : DateTime} {e e' : DateTime × CacheEntry F64}

theorem before_eq_some_iff : cache.before time = some e ↔
    e ∈ cache.entries.entries ∧ e.1 ≤ time ∧
      ∀ d ∈ cache.entries.entries, d.1 ≤ time → d.1 ≤ e.1 :=
  BTreeMap.getLast?_rangeTo_eq_some_iff

theorem after_eq_some_iff : cache.after time = some e ↔
    e ∈ cache.entries.entries ∧ time ≤ e.1 ∧
      ∀ d ∈ cache.entries.entries, time ≤ d.1 → e.1 ≤ d.1 :=
  BTreeMap.head?_rangeFrom_eq_some_iff

theorem before_eq_none_iff :
    cache.before time = none ↔ ∀ d ∈ cache.entries.entries, ¬ d.1 ≤ time := by
  simp [before, BTreeMap.rangeTo]

theorem after_eq_none_iff :
    cache.after time = none ↔ ∀ d ∈ cache.entries.entries, ¬ time ≤ d.1 := by
  simp [after, BTreeMap.rangeFrom]

/-- A time with entries on both sides is not cached when the one before it is earlier. -/
theorem surrounds_of_lt (hbefore : cache.before time = some e) (hafter : cache.after time = some e')
    (hlt : e.1 < time) : cache.Surrounds time e e' := by
  obtain ⟨hmem, hle, hlast⟩ := before_eq_some_iff.mp hbefore
  obtain ⟨hmem', hle', hfirst⟩ := after_eq_some_iff.mp hafter
  refine ⟨hmem, hmem', hlt, lt_of_le_of_ne hle' fun heq => ?_, fun d hd => ?_⟩
  · exact absurd (heq.trans_le (hlast e' hmem' heq.ge)) (not_le.mpr hlt)
  · rcases le_total d.1 time with hd' | hd'
    · exact .inl (hlast d hd hd')
    · exact .inr (hfirst d hd hd')

theorem Surrounds.notMem (h : cache.Surrounds time e e') (entry : CacheEntry F64) :
    (time, entry) ∉ cache.entries.entries := fun hmem => by
  rcases h.next _ hmem with hle | hle
  · exact absurd h.lt (not_lt.mpr hle)
  · exact absurd h.lt' (not_lt.mpr hle)

/-- No other entries surround a time. -/
theorem Surrounds.unique {d d' : DateTime × CacheEntry F64} (h : cache.Surrounds time e e')
    (h' : cache.Surrounds time d d') : d.1 = e.1 ∧ d'.1 = e'.1 := by
  have hle : ∀ {e e' d d' : DateTime × CacheEntry F64}, cache.Surrounds time e e' →
      cache.Surrounds time d d' → d.1 ≤ e.1 ∧ e'.1 ≤ d'.1 := fun h h' =>
    ⟨(h.next _ h'.mem).resolve_right (not_le.mpr (h'.lt.trans h.lt')),
      (h.next _ h'.mem').resolve_left (not_le.mpr (h.lt.trans h'.lt'))⟩
  exact ⟨le_antisymm (hle h h').1 (hle h' h).1, le_antisymm (hle h' h).2 (hle h h').2⟩

end Neighbours

section Answer

variable [FloatOps F64 F32] {cache : PropagationCache F64} {now time : DateTime}
  {computeFn : DateTime → CacheEntry F64}

def answer (cache : PropagationCache F64) (time : DateTime)
    (computeFn : DateTime → CacheEntry F64) : CacheEntry F64 :=
  (cache.lookupInterpolatable time).getD (computeFn time)

theorem lookupOrCompute_snd (cache : PropagationCache F64) (now time : DateTime)
    (computeFn : DateTime → CacheEntry F64) :
    (cache.lookupOrCompute now time computeFn).2 =
      some ((cache.cleanup now).answer time computeFn) := by
  simp only [lookupOrCompute, answer]
  cases (cache.cleanup now).lookupInterpolatable time <;> rfl

theorem answer_of_none (h : cache.lookupInterpolatable time = none) :
    cache.answer time computeFn = computeFn time := by rw [answer, h]; rfl

theorem answer_of_some {entry : CacheEntry F64} (h : cache.lookupInterpolatable time = some entry) :
    cache.answer time computeFn = entry := by rw [answer, h]; rfl

/-- The state in between two entries. -/
def blended (time : DateTime) (e e' : DateTime × CacheEntry F64) : CacheEntry F64 :=
  { position := interpolateVector (fraction time e.1 e'.1) e.2.position e'.2.position
    velocity := interpolateVector (fraction time e.1 e'.1) e.2.velocity e'.2.velocity
    time, tleEpoch := e.2.tleEpoch }

section Lookup

variable {e e' : DateTime × CacheEntry F64}

theorem lookup_between (hbefore : cache.before time = some e)
    (hafter : cache.after time = some e') :
    cache.lookupInterpolatable time =
      if cache.withinWindow (time - e.1) && cache.withinWindow (e'.1 - time) then
        some (blended time e e')
      else none := by
  simp only [lookupInterpolatable, hbefore, hafter]
  rfl

theorem lookup_after_last (hbefore : cache.before time = some e)
    (hafter : cache.after time = none) :
    cache.lookupInterpolatable time =
      if cache.withinWindow (time - e.1) then some e.2 else none := by
  simp only [lookupInterpolatable, hbefore, hafter]

theorem lookup_before_first (hbefore : cache.before time = none)
    (hafter : cache.after time = some e) :
    cache.lookupInterpolatable time =
      if cache.withinWindow (e.1 - time) then some e.2 else none := by
  simp only [lookupInterpolatable, hbefore, hafter]

theorem lookup_empty (hbefore : cache.before time = none) (hafter : cache.after time = none) :
    cache.lookupInterpolatable time = none := by
  simp only [lookupInterpolatable, hbefore, hafter]

end Lookup

variable [ExactDivision F64 F32]

/-- The components of `z` are those of `x` and `y` in the proportion of `1 - w` to `w`. -/
def IsBlend (w : ℚ) (x y z : F64 × F64 × F64) : Prop :=
  val z.1 = val x.1 * (1 - w) + val y.1 * w ∧ val z.2.1 = val x.2.1 * (1 - w) + val y.2.1 * w ∧
    val z.2.2 = val x.2.2 * (1 - w) + val y.2.2 * w

/-- The answer to a query has its time; it is the stored state when the time is cached, and else the
computed one or a blend of the states on either side, both within the window; and nothing is divided
by zero. -/
structure Faithful (cache : PropagationCache F64) (time : DateTime)
    (computeFn : DateTime → CacheEntry F64) (answer : CacheEntry F64) : Prop where
  dated : answer.time = time
  stored : ∀ entry, (time, entry) ∈ cache.entries.entries → answer = entry
  fresh : ¬ cache.Caches time → answer = computeFn time ∨ ∃ e e', cache.Surrounds time e e' ∧
    time - e.1 ≤ cache.interpolationWindow ∧ e'.1 - time ≤ cache.interpolationWindow ∧
    ∃ w : ℚ, 0 ≤ w ∧ w ≤ 1 ∧ IsBlend w e.2.position e'.2.position answer.position ∧
      IsBlend w e.2.velocity e'.2.velocity answer.velocity
  divides : ¬ cache.DividesByZero time

theorem isBlend_interpolateVector (t : F64) (v w : F64 × F64 × F64) :
    IsBlend (val t) v w (interpolateVector t v w) := by
  simp only [IsBlend, interpolateVector, interpolate, val_add, val_mul, val_sub, val_lit, and_self]

/-- The fraction of a time between two others that are at least a second apart. -/
theorem fraction_mem_unit {t1 t2 : DateTime} (h1 : t1 ≤ time) (h2 : time ≤ t2)
    (h : Duration.numSeconds (t2 - t1) ≠ 0) :
    0 ≤ val (fraction time t1 t2 : F64) ∧ val (fraction time t1 t2 : F64) ≤ 1 := by
  have hnonneg : 0 ≤ Duration.numSeconds (time - t1) :=
    Duration.numSeconds_nonneg_iff.mpr (lt_of_lt_of_le (by decide) (Int.sub_nonneg_of_le h1))
  have hle : Duration.numSeconds (time - t1) ≤ Duration.numSeconds (t2 - t1) :=
    Duration.numSeconds_mono (Int.sub_le_sub_right h2 t1)
  have hnonneg' : (0 : ℚ) ≤ Duration.numSeconds (time - t1) := Int.cast_nonneg hnonneg
  have hle' : (Duration.numSeconds (time - t1) : ℚ) ≤ Duration.numSeconds (t2 - t1) :=
    Int.cast_le.mpr hle
  have hne : (Duration.numSeconds (t2 - t1) : ℚ) ≠ 0 := Int.cast_ne_zero.mpr h
  rw [fraction, ExactDivision.val_div _ _ (by rwa [val_lit]), val_lit, val_lit]
  exact ⟨div_nonneg hnonneg' (hnonneg'.trans hle'), div_le_one_of_le₀ hle' (hnonneg'.trans hle')⟩

/-- A state that is computed afresh. -/
theorem faithful_of_lookup_eq_none (hcompute : (computeFn time).time = time)
    (hlookup : cache.lookupInterpolatable time = none) (hcached : ¬ cache.Caches time)
    (hdivides : ¬ cache.DividesByZero time) :
    Faithful cache time computeFn (cache.answer time computeFn) := by
  rw [answer_of_none hlookup]
  exact ⟨hcompute, fun entry hmem => absurd ⟨entry, hmem⟩ hcached, fun _ => .inl rfl, hdivides⟩

/-- Entries within the window and at least a second apart, or not both within it. -/
theorem faithful_between {e e' : DateTime × CacheEntry F64} (hbefore : cache.before time = some e)
    (hafter : cache.after time = some e') (hlt : e.1 < time)
    (hwindow : cache.withinWindow (time - e.1) → cache.withinWindow (e'.1 - time) →
      Duration.numSeconds (e'.1 - e.1) ≠ 0 ∧
      time - e.1 ≤ cache.interpolationWindow ∧ e'.1 - time ≤ cache.interpolationWindow)
    (hcompute : (computeFn time).time = time) :
    Faithful cache time computeFn (cache.answer time computeFn) := by
  have hsurrounds := surrounds_of_lt hbefore hafter hlt
  have hcached : ¬ cache.Caches time := fun ⟨entry, hmem⟩ => hsurrounds.notMem entry hmem
  have hdivides : ¬ cache.DividesByZero time := by
    rintro ⟨d, d', hd, hd', h1, h2, hzero⟩
    obtain rfl := Option.some.inj (hbefore.symm.trans hd)
    obtain rfl := Option.some.inj (hafter.symm.trans hd')
    exact (hwindow h1 h2).1 hzero
  have hlookup := lookup_between hbefore hafter
  by_cases hin : (cache.withinWindow (time - e.1) && cache.withinWindow (e'.1 - time)) = true
  · obtain ⟨h1, h2⟩ := Bool.and_eq_true_iff.mp hin
    obtain ⟨hne, hle, hle'⟩ := hwindow h1 h2
    rw [if_pos hin] at hlookup
    rw [answer_of_some hlookup]
    obtain ⟨hnonneg, hle_one⟩ : 0 ≤ val (fraction time e.1 e'.1 : F64) ∧
        val (fraction time e.1 e'.1 : F64) ≤ 1 :=
      fraction_mem_unit hsurrounds.lt.le hsurrounds.lt'.le hne
    exact ⟨rfl, fun entry hmem => absurd ⟨entry, hmem⟩ hcached,
      fun _ => .inr ⟨e, e', hsurrounds, hle, hle', _, hnonneg, hle_one,
        isBlend_interpolateVector _ _ _, isBlend_interpolateVector _ _ _⟩, hdivides⟩
  · rw [if_neg hin] at hlookup
    exact faithful_of_lookup_eq_none hcompute hlookup hcached hdivides

/-- A safe query is answered faithfully. -/
theorem faithful_of_safe (hcompute : (computeFn time).time = time) (hsafe : cache.Safe time) :
    Faithful cache time computeFn (cache.answer time computeFn) := by
  unfold Safe beforeTime afterTime at hsafe
  cases hbefore : cache.before time with
  | none =>
    have hcached : ¬ cache.Caches time := fun ⟨entry, hmem⟩ =>
      before_eq_none_iff.mp hbefore _ hmem le_rfl
    have hdivides : ¬ cache.DividesByZero time := by
      rintro ⟨e, e', he, -⟩
      rw [hbefore] at he
      contradiction
    cases hafter : cache.after time with
    | none =>
      exact faithful_of_lookup_eq_none hcompute (lookup_empty hbefore hafter) hcached hdivides
    | some e' =>
      rw [hbefore, hafter] at hsafe
      have hlookup := (lookup_before_first hbefore hafter).trans (if_neg hsafe)
      exact faithful_of_lookup_eq_none hcompute hlookup hcached hdivides
  | some e =>
    cases hafter : cache.after time with
    | none =>
      rw [hbefore, hafter] at hsafe
      have hlookup := (lookup_after_last hbefore hafter).trans (if_neg hsafe)
      apply faithful_of_lookup_eq_none hcompute hlookup
      · exact fun ⟨entry, hmem⟩ => after_eq_none_iff.mp hafter _ hmem le_rfl
      rintro ⟨d, d', -, hd', -⟩
      rw [hafter] at hd'
      contradiction
    | some e' =>
      rw [hbefore, hafter] at hsafe
      exact faithful_between hbefore hafter hsafe.1 hsafe.2 hcompute

/-- A state of the same time that is not the given one. -/
def other (time : DateTime) (entry : CacheEntry F64) : CacheEntry F64 :=
  { entry with time, tleEpoch := entry.tleEpoch + Duration.seconds 1 }

theorem other_ne (time : DateTime) (entry : CacheEntry F64) : other time entry ≠ entry := by
  intro h
  have hepoch : entry.tleEpoch + Duration.seconds 1 = entry.tleEpoch := congrArg (·.tleEpoch) h
  exact absurd hepoch (by rw [add_eq_left]; decide)

/-- A cached time divides by zero, or its state is computed again. -/
theorem not_faithful_of_mem {entry : CacheEntry F64} (hmem : (time, entry) ∈ cache.entries.entries)
    (hcompute : computeFn time = other time entry) :
    ¬ Faithful cache time computeFn (cache.answer time computeFn) := by
  intro h
  have hbefore : cache.before time = some (time, entry) :=
    before_eq_some_iff.mpr ⟨hmem, le_rfl, fun _ _ hle => hle⟩
  have hafter : cache.after time = some (time, entry) :=
    after_eq_some_iff.mpr ⟨hmem, le_rfl, fun _ _ hle => hle⟩
  have hlookup := lookup_between hbefore hafter
  by_cases hin : (cache.withinWindow (time - time) && cache.withinWindow (time - time)) = true
  · obtain ⟨h1, h2⟩ := Bool.and_eq_true_iff.mp hin
    exact h.divides ⟨_, _, hbefore, hafter, h1, h2, by rw [Int.sub_self]; rfl⟩
  · rw [if_neg hin] at hlookup
    have hstored := h.stored entry hmem
    rw [answer_of_none hlookup, hcompute] at hstored
    exact other_ne time entry hstored

/-- Entries that count as within the window and are not, or that are less than a second apart, give
no faithful answer. -/
theorem not_faithful_between {e e' : DateTime × CacheEntry F64}
    (hbefore : cache.before time = some e) (hafter : cache.after time = some e') (hlt : e.1 < time)
    (h1 : cache.withinWindow (time - e.1)) (h2 : cache.withinWindow (e'.1 - time))
    (hwindow : ¬ (Duration.numSeconds (e'.1 - e.1) ≠ 0 ∧
      time - e.1 ≤ cache.interpolationWindow ∧ e'.1 - time ≤ cache.interpolationWindow))
    (hcompute : computeFn time = other time (blended time e e')) :
    ¬ Faithful cache time computeFn (cache.answer time computeFn) := by
  intro h
  have hsurrounds := surrounds_of_lt hbefore hafter hlt
  have hlookup := lookup_between hbefore hafter
  rw [if_pos (Bool.and_eq_true_iff.mpr ⟨h1, h2⟩)] at hlookup
  rw [answer_of_some hlookup] at h
  rcases h.fresh fun ⟨entry, hmem⟩ => hsurrounds.notMem entry hmem with
    heq | ⟨d, d', hd, hle, hle', -⟩
  · exact other_ne _ _ (heq.trans hcompute).symm
  · obtain ⟨hd1, hd2⟩ := hsurrounds.unique hd
    rw [hd1] at hle
    rw [hd2] at hle'
    exact hwindow ⟨fun hzero => h.divides ⟨e, e', hbefore, hafter, h1, h2, hzero⟩, hle, hle'⟩

/-- An answer that is the state of another time. -/
theorem not_faithful_of_lookup {e : DateTime × CacheEntry F64} (hdated : cache.Dated)
    (hmem : e ∈ cache.entries.entries) (hne : e.1 ≠ time)
    (hlookup : cache.lookupInterpolatable time = some e.2) :
    ¬ Faithful cache time computeFn (cache.answer time computeFn) := by
  intro h
  have hanswer := h.dated
  rw [answer_of_some hlookup, hdated e hmem] at hanswer
  exact hne hanswer

/-- A query that is not safe is answered unfaithfully for some state of its time. -/
theorem exists_not_faithful (hdated : cache.Dated) (hsafe : ¬ cache.Safe time) :
    ∃ entry : CacheEntry F64, entry.time = time ∧ ∀ computeFn : DateTime → CacheEntry F64,
      computeFn time = entry → ¬ Faithful cache time computeFn (cache.answer time computeFn) := by
  unfold Safe beforeTime afterTime at hsafe
  cases hbefore : cache.before time with
  | none =>
    cases hafter : cache.after time with
    | none =>
      rw [hbefore, hafter] at hsafe
      exact absurd trivial hsafe
    | some e' =>
      rw [hbefore, hafter] at hsafe
      have hin : cache.withinWindow (e'.1 - time) = true := not_not.mp hsafe
      have hmem := (after_eq_some_iff.mp hafter).1
      refine ⟨other time e'.2, rfl, fun computeFn _ => not_faithful_of_lookup hdated hmem
        (fun heq => before_eq_none_iff.mp hbefore _ hmem heq.le) ?_⟩
      rw [lookup_before_first hbefore hafter, if_pos hin]
  | some e =>
    have hmem := (before_eq_some_iff.mp hbefore).1
    cases hafter : cache.after time with
    | none =>
      rw [hbefore, hafter] at hsafe
      have hin : cache.withinWindow (time - e.1) = true := not_not.mp hsafe
      refine ⟨other time e.2, rfl, fun computeFn _ => not_faithful_of_lookup hdated hmem
        (fun heq => after_eq_none_iff.mp hafter _ hmem heq.ge) ?_⟩
      rw [lookup_after_last hbefore hafter, if_pos hin]
    | some e' =>
      rw [hbefore, hafter] at hsafe
      by_cases hlt : e.1 < time
      · obtain ⟨h1, hsafe⟩ := Classical.not_imp.mp (fun h => hsafe ⟨hlt, h⟩)
        obtain ⟨h2, hsafe⟩ := Classical.not_imp.mp hsafe
        exact ⟨_, rfl, fun computeFn hcompute =>
          not_faithful_between hbefore hafter hlt h1 h2 hsafe hcompute⟩
      · have heq : e.1 = time :=
          le_antisymm (before_eq_some_iff.mp hbefore).2.1 (not_lt.mp hlt)
        have hcached : (time, e.2) ∈ cache.entries.entries := by rwa [← heq]
        exact ⟨_, rfl, fun computeFn hcompute => not_faithful_of_mem hcached hcompute⟩

end Answer

section SameTimes

/-- The caches agree in all but the states that they store. -/
structure SameTimes (cache cache' : PropagationCache F64) : Prop where
  caches : ∀ time, cache.Caches time ↔ cache'.Caches time
  interpolationWindow : cache.interpolationWindow = cache'.interpolationWindow
  maxAge : cache.maxAge = cache'.maxAge

variable {cache cache' : PropagationCache F64} {now time t : DateTime}

theorem beforeTime_eq_some_iff : cache.beforeTime time = some t ↔
    cache.Caches t ∧ t ≤ time ∧ ∀ u, cache.Caches u → u ≤ time → u ≤ t := by
  simp only [beforeTime, Option.map_eq_some_iff, before_eq_some_iff]
  constructor
  · rintro ⟨e, ⟨hmem, hle, hlast⟩, rfl⟩
    exact ⟨⟨e.2, hmem⟩, hle, fun u ⟨entry, hu⟩ => hlast _ hu⟩
  · rintro ⟨⟨entry, hmem⟩, hle, hlast⟩
    exact ⟨(t, entry), ⟨hmem, hle, fun d hd => hlast d.1 ⟨d.2, hd⟩⟩, rfl⟩

theorem afterTime_eq_some_iff : cache.afterTime time = some t ↔
    cache.Caches t ∧ time ≤ t ∧ ∀ u, cache.Caches u → time ≤ u → t ≤ u := by
  simp only [afterTime, Option.map_eq_some_iff, after_eq_some_iff]
  constructor
  · rintro ⟨e, ⟨hmem, hle, hfirst⟩, rfl⟩
    exact ⟨⟨e.2, hmem⟩, hle, fun u ⟨entry, hu⟩ => hfirst _ hu⟩
  · rintro ⟨⟨entry, hmem⟩, hle, hfirst⟩
    exact ⟨(t, entry), ⟨hmem, hle, fun d hd => hfirst d.1 ⟨d.2, hd⟩⟩, rfl⟩

theorem isSome_if_some {α : Type} (b : Bool) (a : α) : (if b then some a else none).isSome = b := by
  cases b <;> rfl

/-- Whether a query is answered from the cache, by the cached times. -/
theorem isSome_lookupInterpolatable [FloatOps F64 F32] (cache : PropagationCache F64)
    (time : DateTime) : (cache.lookupInterpolatable time).isSome =
      match cache.beforeTime time, cache.afterTime time with
      | some t1, some t2 => cache.withinWindow (time - t1) && cache.withinWindow (t2 - time)
      | some t1, none => cache.withinWindow (time - t1)
      | none, some t2 => cache.withinWindow (t2 - time)
      | none, none => false := by
  unfold beforeTime afterTime
  cases hbefore : cache.before time with
  | none =>
    cases hafter : cache.after time with
    | none =>
      rw [lookup_empty hbefore hafter]
      rfl
    | some e' =>
      rw [lookup_before_first hbefore hafter, isSome_if_some]
      rfl
  | some e =>
    cases hafter : cache.after time with
    | none =>
      rw [lookup_after_last hbefore hafter, isSome_if_some]
      rfl
    | some e' =>
      rw [lookup_between hbefore hafter, isSome_if_some]
      rfl

namespace SameTimes

theorem refl (cache : PropagationCache F64) : SameTimes cache cache :=
  ⟨fun _ => Iff.rfl, rfl, rfl⟩

theorem beforeTime_eq (h : SameTimes cache cache') (time : DateTime) :
    cache.beforeTime time = cache'.beforeTime time := by
  apply Option.ext
  intro t
  simp only [beforeTime_eq_some_iff, h.caches]

theorem afterTime_eq (h : SameTimes cache cache') (time : DateTime) :
    cache.afterTime time = cache'.afterTime time := by
  apply Option.ext
  intro t
  simp only [afterTime_eq_some_iff, h.caches]

theorem withinWindow_eq (h : SameTimes cache cache') (distance : Duration) :
    cache.withinWindow distance = cache'.withinWindow distance := by
  rw [withinWindow, withinWindow, h.interpolationWindow]

theorem safe_iff (h : SameTimes cache cache') : cache.Safe time ↔ cache'.Safe time := by
  simp only [Safe, h.beforeTime_eq, h.afterTime_eq, h.withinWindow_eq, h.interpolationWindow]

theorem cleanup (h : SameTimes cache cache') (now : DateTime) :
    SameTimes (cache.cleanup now) (cache'.cleanup now) := by
  refine ⟨fun t => ?_, h.interpolationWindow, h.maxAge⟩
  have hcaches := h.caches t
  unfold Caches at hcaches ⊢
  simp only [PropagationCache.cleanup, BTreeMap.mem_entries_retain, h.maxAge]
  constructor
  · rintro ⟨entry, hmem, hkeep⟩
    obtain ⟨entry', hmem'⟩ := hcaches.mp ⟨entry, hmem⟩
    exact ⟨entry', hmem', hkeep⟩
  · rintro ⟨entry, hmem, hkeep⟩
    obtain ⟨entry', hmem'⟩ := hcaches.mpr ⟨entry, hmem⟩
    exact ⟨entry', hmem', hkeep⟩

theorem insert (h : SameTimes cache cache') (t : DateTime) (entry entry' : CacheEntry F64) :
    SameTimes { cache with entries := cache.entries.insert t entry }
      { cache' with entries := cache'.entries.insert t entry' } := by
  refine ⟨fun u => ?_, h.interpolationWindow, h.maxAge⟩
  have hcaches := h.caches u
  unfold Caches at hcaches ⊢
  simp only [BTreeMap.mem_entries_insert, exists_or, exists_and_right, hcaches, Prod.mk.injEq,
    exists_and_left, exists_eq]

theorem lookupInterpolatable_isSome [FloatOps F64 F32] (h : SameTimes cache cache')
    (time : DateTime) : (cache.lookupInterpolatable time).isSome =
      (cache'.lookupInterpolatable time).isSome := by
  simp only [isSome_lookupInterpolatable, h.beforeTime_eq, h.afterTime_eq, h.withinWindow_eq]

end SameTimes

end SameTimes

section Runs

inductive Call
  | lookupOrCompute (now time : DateTime)
  | invalidateAll

variable [FloatOps F64 F32]

/-- A call and its place in the history, which tells the function that it is given. -/
def step (computeFns : ℕ → DateTime → CacheEntry F64) (cache : PropagationCache F64)
    (call : Call × ℕ) : PropagationCache F64 :=
  match call with
  | (.lookupOrCompute now time, n) => (cache.lookupOrCompute now time (computeFns n)).1
  | (.invalidateAll, _) => cache.invalidateAll

/-- The call is not a query or its query is safe. -/
def SafeCall (cache : PropagationCache F64) : Call × ℕ → Prop
  | (.lookupOrCompute now time, _) => (cache.cleanup now).Safe time
  | (.invalidateAll, _) => True

variable {cache cache' : PropagationCache F64}
  {computeFns computeFns' : ℕ → DateTime → CacheEntry F64}

theorem SameTimes.step (h : SameTimes cache cache') (call : Call × ℕ) :
    SameTimes (step computeFns cache call) (step computeFns' cache' call) := by
  obtain ⟨call, n⟩ := call
  cases call with
  | lookupOrCompute now time =>
    have hclean := h.cleanup now
    have hsome := hclean.lookupInterpolatable_isSome time
    simp only [PropagationCache.step, lookupOrCompute]
    cases hlookup : (cache.cleanup now).lookupInterpolatable time with
    | none =>
      cases hlookup' : (cache'.cleanup now).lookupInterpolatable time with
      | none => exact hclean.insert time _ _
      | some entry' => simp [hlookup, hlookup'] at hsome
    | some entry =>
      cases hlookup' : (cache'.cleanup now).lookupInterpolatable time with
      | none => simp [hlookup, hlookup'] at hsome
      | some entry' => exact hclean
  | invalidateAll => exact ⟨fun _ => Iff.rfl, h.interpolationWindow, h.maxAge⟩

theorem SameTimes.safeCall_iff (h : SameTimes cache cache') (call : Call × ℕ) :
    SafeCall cache call ↔ SafeCall cache' call := by
  obtain ⟨call, n⟩ := call
  cases call with
  | lookupOrCompute now time => exact (h.cleanup now).safe_iff
  | invalidateAll => exact Iff.rfl

/-- The cached times do not depend on the functions. -/
theorem sameTimes_run (computeFns computeFns' : ℕ → DateTime → CacheEntry F64)
    (calls : List (Call × ℕ)) (h : SameTimes cache cache') :
    SameTimes (run (step computeFns) cache calls) (run (step computeFns') cache' calls) := by
  apply run_related (R := SameTimes) (S := Eq) _ h
  · exact List.forall₂_eq_eq_eq ▸ rfl
  · rintro cache cache' call _ h rfl
    exact h.step call

theorem dated_step (hcompute : ∀ n time, (computeFns n time).time = time) (h : cache.Dated)
    (call : Call × ℕ) : (step computeFns cache call).Dated := by
  obtain ⟨call, n⟩ := call
  cases call with
  | lookupOrCompute now time =>
    have hclean : (cache.cleanup now).Dated := fun e he =>
      h e (BTreeMap.mem_entries_retain.mp he).1
    simp only [step, lookupOrCompute]
    cases (cache.cleanup now).lookupInterpolatable time with
    | none =>
      intro e he
      rcases BTreeMap.mem_entries_insert.mp he with rfl | ⟨he, -⟩
      · exact hcompute n time
      · exact hclean e he
    | some entry => exact hclean
  | invalidateAll => exact fun e he => absurd he List.not_mem_nil

/-- The functions of other calls do not matter. -/
theorem run_congr {calls : List (Call × ℕ)}
    (h : ∀ call ∈ calls, computeFns call.2 = computeFns' call.2) (cache : PropagationCache F64) :
    run (step computeFns) cache calls = run (step computeFns') cache calls := by
  apply List.foldl_ext
  rintro cache ⟨call, n⟩ hmem
  have hn := h _ hmem
  cases call with
  | lookupOrCompute now time => simp only [step]; rw [hn]
  | invalidateAll => rfl

variable [ExactDivision F64 F32]

/-- The query is answered faithfully, given what is cached once the old entries are gone. -/
def Answered (computeFns : ℕ → DateTime → CacheEntry F64) (cache : PropagationCache F64) :
    Call × ℕ → Prop
  | (.lookupOrCompute now time, n) =>
    ∃ entry, (cache.lookupOrCompute now time (computeFns n)).2 = some entry ∧
      Faithful (cache.cleanup now) time (computeFns n) entry
  | (.invalidateAll, _) => True

/-- A query of the history that is not safe is answered unfaithfully for some functions. -/
theorem exists_not_answered {calls : List Call} {before after : List (Call × ℕ)} {call : Call × ℕ}
    (anyFns : ℕ → DateTime → CacheEntry F64) (hnew : cache.Dated)
    (hcalls : calls.zipIdx = before ++ call :: after)
    (hrisky : ¬ SafeCall (run (step anyFns) cache before) call) :
    ∃ computeFns : ℕ → DateTime → CacheEntry F64, (∀ n time, (computeFns n time).time = time) ∧
      ¬ Answered computeFns (run (step computeFns) cache before) call := by
  obtain ⟨call, n⟩ := call
  let datedFns : ℕ → DateTime → CacheEntry F64 := fun n time => { anyFns n time with time }
  have hsame := sameTimes_run anyFns datedFns before (SameTimes.refl cache)
  rw [hsame.safeCall_iff] at hrisky
  cases call with
  | invalidateAll => exact absurd trivial hrisky
  | lookupOrCompute now time =>
    have hdated : ((run (step datedFns) cache before).cleanup now).Dated := fun e he =>
      run_preserves (I := Dated) (fun cache call h => dated_step (fun _ _ => rfl) h call) hnew
        before e (BTreeMap.mem_entries_retain.mp he).1
    obtain ⟨entry, htime, hwrong⟩ := exists_not_faithful hdated hrisky
    -- The query gets the state that makes its answer wrong; the calls before it keep theirs.
    let computeFns : ℕ → DateTime → CacheEntry F64 := fun m t =>
      if m = n ∧ t = time then entry else datedFns m t
    have hcompute : ∀ m t, (computeFns m t).time = t := by
      intro m t
      show (if m = n ∧ t = time then entry else datedFns m t).time = t
      split
      · next h => rw [h.2, htime]
      · rfl
    have hearlier : ∀ call ∈ before, computeFns call.2 = datedFns call.2 := by
      intro call hmem
      have hplaces := pairwise_zipIdx calls
      rw [hcalls] at hplaces
      have hlt := (List.pairwise_append.mp hplaces).2.2 call hmem (_, n) List.mem_cons_self
      funext t
      exact if_neg fun h => hlt.ne h.1
    refine ⟨computeFns, hcompute, ?_⟩
    rw [run_congr hearlier]
    rintro ⟨answer, hanswer, hfaithful⟩
    rw [lookupOrCompute_snd, Option.some.injEq] at hanswer
    subst hanswer
    exact hwrong (computeFns n) (if_pos ⟨rfl, rfl⟩) hfaithful

/-- In a history of calls all answers are faithful, whatever states are computed, exactly when all
queries are safe. -/
theorem answered_iff_safe (interpolationWindowSec maxAgeSec : ℤ) (calls : List Call)
    (anyFns : ℕ → DateTime → CacheEntry F64) :
    (∀ computeFns : ℕ → DateTime → CacheEntry F64, (∀ n time, (computeFns n time).time = time) →
      Along (step computeFns) (Answered computeFns) (new interpolationWindowSec maxAgeSec)
        calls.zipIdx) ↔
    Along (step anyFns) SafeCall (new interpolationWindowSec maxAgeSec) calls.zipIdx := by
  constructor
  · intro hanswered
    rw [along_iff_split]
    intro before call after hcalls
    by_contra hrisky
    obtain ⟨computeFns, hcompute, hwrong⟩ :=
      exists_not_answered anyFns (fun e he => absurd he List.not_mem_nil) hcalls hrisky
    exact hwrong (along_iff_split.mp (hanswered computeFns hcompute) before call after hcalls)
  · intro hsafe computeFns hcompute
    rw [along_iff_split] at hsafe ⊢
    rintro before ⟨call, n⟩ after hcalls
    have hcall := hsafe before _ after hcalls
    rw [(sameTimes_run anyFns computeFns before (SameTimes.refl _)).safeCall_iff] at hcall
    cases call with
    | invalidateAll => trivial
    | lookupOrCompute now time =>
      exact ⟨_, lookupOrCompute_snd _ _ _ _, faithful_of_safe (hcompute n time) hcall⟩

end Runs

section Example

/-- A satellite that stands still. -/
def still (time : DateTime) : CacheEntry ℚ :=
  { position := (7000, 0, 0), velocity := (0, 0, 0), time, tleEpoch := 0 }

/-- Once time zero is cached, a query half a minute later is answered with the state of time zero,
and a query at time zero divides zero by zero. -/
theorem still_unfaithful :
    letI := FloatOps.exact id id
    letI := ExactDivision.exact id id
    let cache := step (fun _ => still) (new 60 600) (.lookupOrCompute 0 0, 0)
    (cache.lookupOrCompute 0 (Duration.seconds 30) still).2 = some (still 0) ∧
      (cache.cleanup 0).DividesByZero 0 ∧
      ¬ Along (step fun _ => still) (Answered fun _ => still) (new 60 600)
        [(.lookupOrCompute 0 0, 0), (.lookupOrCompute 0 (Duration.seconds 30), 1)] ∧
      ¬ Along (step fun _ => still) (Answered fun _ => still) (new 60 600)
        [(.lookupOrCompute 0 0, 0), (.lookupOrCompute 0 0, 1)] := by
  intro cache
  let _ := FloatOps.exact id id
  let _ := ExactDivision.exact id id
  have hdivides : (cache.cleanup 0).DividesByZero 0 :=
    ⟨(0, still 0), (0, still 0), rfl, rfl, by decide, by decide, by decide⟩
  have hlate : (cache.lookupOrCompute 0 (Duration.seconds 30) still).2 = some (still 0) := rfl
  refine ⟨hlate, hdivides, ?_, ?_⟩
  · rintro ⟨-, ⟨entry, hentry, hfaithful⟩, -⟩
    obtain rfl := Option.some.inj (hlate.symm.trans hentry)
    exact absurd hfaithful.dated (by decide)
  · rintro ⟨-, ⟨entry, -, hfaithful⟩, -⟩
    exact hfaithful.divides hdivides

end Example

end PropagationCache

end GroundCore.Caching.Propagation
