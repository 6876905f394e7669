import GroundCore.Federation.Verification
import GroundCore.Lib.Run
import GroundCore.Optical.Link.Failover

/-! Challenge passes.  A challenge is completed through the identifier of its pass, which several
challenges may have, and the first of them is taken whether or not it was completed before.  Beside
the manager runs a record of the results with which each challenge was first completed.  As in the
manager of handoffs, whether the record that is found was completed before is not looked at, so what
was reported is final in some runs only. -/

namespace GroundCore.Federation

open Lib

structure ChallengeResult (F64 : Type) where
  peerId : PeerId
  verification : AttestationVerification F64
  trustDelta : F64

structure ChallengePass (F64 : Type) where
  passId : PassId
  satelliteId : String
  scheduledTime : DateTime
  peersToVerify : List PeerId
  completed : Bool
  results : List (ChallengeResult F64)

structure ChallengePassManager (F64 : Type) where
  challenges : List (ChallengePass F64)

variable {F64 : Type}

namespace ChallengePassManager

def new : ChallengePassManager F64 := { challenges := [] }

def scheduleChallenge (m : ChallengePassManager F64) (passId : PassId) (satelliteId : String)
    (scheduledTime : DateTime) (peersToVerify : List PeerId) : ChallengePassManager F64 :=
  { challenges := m.challenges ++
      [{ passId, satelliteId, scheduledTime, peersToVerify, completed := false, results := [] }] }

/-- The places of the challenges to which `due_challenges` hands out references. -/
def dueChallenges (m : ChallengePassManager F64) (now : DateTime) : List ℕ :=
  (List.range m.challenges.length).filter fun i =>
    m.challenges[i]?.any fun c => !c.completed && decide (c.scheduledTime ≤ now)

/-- What is written through one of these references. -/
def writeDue (m : ChallengePassManager F64) (i : ℕ) (written : ChallengePass F64)
    (now : DateTime) : ChallengePassManager F64 :=
  if i ∈ m.dueChallenges now then { challenges := m.challenges.set i written } else m

/-- The place of the first challenge of the pass. -/
def find (m : ChallengePassManager F64) (passId : PassId) : Option ℕ :=
  m.challenges.findIdx? (·.passId = passId)

def passIdAt (m : ChallengePassManager F64) (i : ℕ) : Option PassId :=
  m.challenges[i]?.map ChallengePass.passId

def completeChallenge (m : ChallengePassManager F64) (passId : PassId)
    (results : List (ChallengeResult F64)) : ChallengePassManager F64 × Result Unit :=
  match m.find passId with
  | some i =>
    ({ challenges := m.challenges.modify i fun c => { c with results, completed := true } }, .ok ())
  | none => (m, .error (.federation s!"Challenge {passId} not found"))

def getPeerResults (m : ChallengePassManager F64) (peerId : PeerId) :
    List (ChallengeResult F64) :=
  (m.challenges.flatMap ChallengePass.results).filter fun r => r.peerId = peerId

/-- Some call of `completeChallenge` completes the challenge at the place `i`. -/
def CanComplete (m : ChallengePassManager F64) (i : ℕ) : Prop :=
  ∃ passId results c, (m.completeChallenge passId results).1.challenges[i]? = some c ∧
    c.completed = true

end ChallengePassManager

inductive ChallengeCall (F64 : Type)
  | scheduleChallenge (passId : PassId) (satelliteId : String) (scheduledTime : DateTime)
      (peersToVerify : List PeerId)
  | writeDue (i : ℕ) (written : ChallengePass F64) (now : DateTime)
  | completeChallenge (passId : PassId) (results : List (ChallengeResult F64))

/-- A manager, and the results with which the challenge at each place was first completed. -/
structure ChallengeSession (F64 : Type) where
  manager : ChallengePassManager F64
  verdict : ℕ → Option (List (ChallengeResult F64))

namespace ChallengeSession

def new : ChallengeSession F64 := { manager := .new, verdict := fun _ => none }

def step (s : ChallengeSession F64) : ChallengeCall F64 → ChallengeSession F64
  | .scheduleChallenge passId satelliteId scheduledTime peersToVerify =>
    { s with
      manager := s.manager.scheduleChallenge passId satelliteId scheduledTime peersToVerify }
  | .writeDue i written now => { s with manager := s.manager.writeDue i written now }
  | .completeChallenge passId results =>
    { manager := (s.manager.completeChallenge passId results).1
      verdict := fun i =>
        if s.manager.find passId = some i then some ((s.verdict i).getD results)
        else s.verdict i }

/-- A challenge of the pass was completed. -/
def Answered (s : ChallengeSession F64) (passId : PassId) : Prop :=
  ∃ i, s.verdict i ≠ none ∧ s.manager.passIdAt i = some passId

/-- A completed challenge has the results with which it was first completed, and the other
challenges of its pass can be completed. -/
structure Final (s : ChallengeSession F64) : Prop where
  results : ∀ i results, s.verdict i = some results →
    ∃ c, s.manager.challenges[i]? = some c ∧ c.results = results
  others : ∀ j c, s.manager.challenges[j]? = some c → c.completed = false →
    s.Answered c.passId → s.manager.CanComplete j

/-- The call neither changes results nor leaves a challenge that is not completed behind another of
its pass, once one of the pass was completed. -/
def KeepsApart (s : ChallengeSession F64) : ChallengeCall F64 → Prop
  | .scheduleChallenge passId _ _ _ => ¬ s.Answered passId
  | .writeDue i written now =>
    i ∈ s.manager.dueChallenges now → s.Answered written.passId →
      ∀ j c, s.manager.challenges[j]? = some c → c.passId = written.passId →
        (j < i → written.completed = true) ∧ (i < j → c.completed = true)
  | .completeChallenge passId results =>
    ∀ i, s.manager.find passId = some i →
      (∀ first, s.verdict i = some first → first = results) ∧
      ∀ j c, j ≠ i → s.manager.challenges[j]? = some c → c.passId = passId → c.completed = true

end ChallengeSession

namespace ChallengePassManager

variable {m : ChallengePassManager F64} {passId : PassId} {i j : ℕ} {c : ChallengePass F64}

theorem passIdAt_of_getElem? (hc : m.challenges[j]? = some c) : m.passIdAt j = some c.passId := by
  rw [passIdAt, hc, Option.map_some]

theorem find_eq_some_iff : m.find passId = some i ↔
    m.passIdAt i = some passId ∧ ∀ j < i, m.passIdAt j ≠ some passId := by
  simp only [find, passIdAt, List.findIdx?_eq_some_iff_getElem, decide_eq_true_eq,
    Option.map_eq_some_iff, List.getElem?_eq_some_iff, ne_eq]
  constructor
  · rintro ⟨hi, hpass, hbefore⟩
    refine ⟨⟨_, ⟨hi, rfl⟩, hpass⟩, ?_⟩
    rintro j hj ⟨_, ⟨_, rfl⟩, hpass⟩
    exact hbefore j hj hpass
  · rintro ⟨⟨_, ⟨hi, rfl⟩, hpass⟩, hbefore⟩
    exact ⟨hi, hpass, fun j hj hpass => hbefore j hj ⟨_, ⟨by omega, rfl⟩, hpass⟩⟩

theorem mem_dueChallenges {now : DateTime} : i ∈ m.dueChallenges now ↔
    ∃ c, m.challenges[i]? = some c ∧ c.completed = false ∧ c.scheduledTime ≤ now := by
  simp only [dueChallenges, List.mem_filter, List.mem_range, Option.any_eq_true, Bool.and_eq_true,
    Bool.not_eq_true', decide_eq_true_eq]
  constructor
  · exact And.right
  · rintro ⟨c, hc, hdue⟩
    exact ⟨(List.getElem?_eq_some_iff.mp hc).1, c, hc, hdue⟩

/-- A completion leaves all challenges but the first of the pass. -/
theorem getElem?_completeChallenge (results : List (ChallengeResult F64)) :
    (m.completeChallenge passId results).1.challenges[j]? =
      (m.challenges[j]?).map fun c =>
        if m.find passId = some j then { c with results, completed := true } else c := by
  unfold completeChallenge
  cases hfind : m.find passId with
  | none => simp
  | some i => simp [List.getElem?_modify]

theorem passIdAt_completeChallenge (results : List (ChallengeResult F64)) :
    (m.completeChallenge passId results).1.passIdAt j = m.passIdAt j := by
  rw [passIdAt, getElem?_completeChallenge, Option.map_map, passIdAt]
  congr 1
  funext c
  simp only [Function.comp]
  split <;> rfl

theorem getElem?_writeDue {written : ChallengePass F64} {now : DateTime}
    (hdue : i ∈ m.dueChallenges now) :
    (m.writeDue i written now).challenges[j]? =
      if j = i then some written else m.challenges[j]? := by
  obtain ⟨c, hc, -⟩ := mem_dueChallenges.mp hdue
  have hi := (List.getElem?_eq_some_iff.mp hc).1
  simp only [writeDue, if_pos hdue, List.getElem?_set, hi, if_true, eq_comm]

theorem getElem?_scheduleChallenge {satelliteId : String} {scheduledTime : DateTime}
    {peersToVerify : List PeerId} :
    (m.scheduleChallenge passId satelliteId scheduledTime peersToVerify).challenges[j]? = some c ↔
      m.challenges[j]? = some c ∨ j = m.challenges.length ∧
        { passId, satelliteId, scheduledTime, peersToVerify, completed := false, results := [] } = c
        := by
  simp only [scheduleChallenge]
  rcases lt_trichotomy j m.challenges.length with hj | rfl | hj
  · rw [List.getElem?_append_left hj]
    simp [hj.ne]
  · simp
  · rw [List.getElem?_eq_none (by simp; omega), List.getElem?_eq_none (by omega)]
    simp [hj.ne']

/-- A challenge can be completed only as long as it is the first of its pass. -/
theorem canComplete_iff (hc : m.challenges[j]? = some c) (hopen : c.completed = false) :
    m.CanComplete j ↔ ∀ i < j, m.passIdAt i ≠ some c.passId := by
  simp only [CanComplete, getElem?_completeChallenge, hc, Option.map_some, Option.some.injEq]
  constructor
  · rintro ⟨passId, results, _, rfl, hcompleted⟩
    split at hcompleted
    · next hfind =>
      obtain ⟨hpass, hfirst⟩ := find_eq_some_iff.mp hfind
      rw [passIdAt_of_getElem? hc, Option.some.injEq] at hpass
      exact hpass ▸ hfirst
    · exact absurd hcompleted (by simp [hopen])
  · intro hfirst
    have hfind := find_eq_some_iff.mpr ⟨passIdAt_of_getElem? hc, hfirst⟩
    exact ⟨c.passId, [], _, rfl, by rw [if_pos hfind]⟩

theorem passIdAt_writeDue {written : ChallengePass F64} {now : DateTime}
    (hdue : i ∈ m.dueChallenges now) :
    (m.writeDue i written now).passIdAt j =
      if j = i then some written.passId else m.passIdAt j := by
  rw [passIdAt, getElem?_writeDue hdue]
  split <;> rfl

theorem passIdAt_scheduleChallenge {satelliteId : String} {scheduledTime : DateTime}
    {peersToVerify : List PeerId} (hj : j < m.challenges.length) :
    (m.scheduleChallenge passId satelliteId scheduledTime peersToVerify).passIdAt j =
      m.passIdAt j := by
  rw [passIdAt, scheduleChallenge, List.getElem?_append_left hj, passIdAt]

end ChallengePassManager

namespace ChallengeSession

open ChallengePassManager

/-- What the calls keep beside: a challenge that was completed stays so. -/
structure Kept (s : ChallengeSession F64) : Prop extends s.Final where
  completed : ∀ i c, s.verdict i ≠ none → s.manager.challenges[i]? = some c → c.completed = true

variable {s : ChallengeSession F64} {passId : PassId} {i j : ℕ} {c : ChallengePass F64}

/-- Of the challenges of a pass, once one was completed, an open one has none before it. -/
theorem Final.completed_of_lt (hs : s.Final) (hij : i < j)
    (hi : s.manager.passIdAt i = some c.passId) (hc : s.manager.challenges[j]? = some c)
    (hanswered : s.Answered c.passId) : c.completed = true := by
  by_contra hopen
  rw [Bool.not_eq_true] at hopen
  exact (canComplete_iff hc hopen).mp (hs.others j c hc hopen hanswered) i hij hi

theorem Final.lt_length (hs : s.Final) (hi : s.verdict i ≠ none) :
    i < s.manager.challenges.length := by
  obtain ⟨results, hresults⟩ := Option.ne_none_iff_exists'.mp hi
  obtain ⟨c, hc, -⟩ := hs.results i results hresults
  exact (List.getElem?_eq_some_iff.mp hc).1

theorem kept_new : (new : ChallengeSession F64).Kept where
  results := by simp [new]
  others := by simp [new, ChallengePassManager.new]
  completed := by simp [new]

section Schedule

variable {satelliteId : String} {scheduledTime : DateTime} {peersToVerify : List PeerId}

theorem Final.answered_scheduleChallenge (hs : s.Final) {other : PassId} :
    (s.step (.scheduleChallenge passId satelliteId scheduledTime peersToVerify)).Answered other ↔
      s.Answered other := by
  refine exists_congr fun i => and_congr_right fun hi => ?_
  simp only [step, passIdAt_scheduleChallenge (hs.lt_length hi)]

theorem Kept.schedule (hs : s.Kept) (hnew : ¬ s.Answered passId) :
    (s.step (.scheduleChallenge passId satelliteId scheduledTime peersToVerify)).Kept where
  results i results hi := by
    obtain ⟨c, hc, hresults⟩ := hs.results i results hi
    exact ⟨c, getElem?_scheduleChallenge.mpr (.inl hc), hresults⟩
  others j c hc hopen hanswered := by
    rw [hs.answered_scheduleChallenge] at hanswered
    obtain hold | ⟨-, rfl⟩ := getElem?_scheduleChallenge.mp hc
    · have hj := (List.getElem?_eq_some_iff.mp hold).1
      rw [canComplete_iff hc hopen]
      intro i hi hpass
      simp only [step, passIdAt_scheduleChallenge (hi.trans hj)] at hpass
      exact absurd (hs.completed_of_lt hi hpass hold hanswered) (by simp [hopen])
    · exact absurd hanswered hnew
  completed i c hi hc := by
    obtain hold | ⟨rfl, -⟩ := getElem?_scheduleChallenge.mp hc
    · exact hs.completed i c hi hold
    · exact absurd (hs.lt_length hi) (lt_irrefl _)

theorem Kept.not_answered_of_final (hs : s.Kept)
    (hfinal : (s.step (.scheduleChallenge passId satelliteId scheduledTime
      peersToVerify)).Final) : ¬ s.Answered passId := by
  intro hanswered
  obtain ⟨i, hi, hpass⟩ := hs.answered_scheduleChallenge.mpr hanswered
  have hlast : (s.manager.scheduleChallenge passId satelliteId scheduledTime
      peersToVerify).challenges[s.manager.challenges.length]? = some _ :=
    getElem?_scheduleChallenge.mpr (.inr ⟨rfl, rfl⟩)
  refine absurd (hfinal.completed_of_lt (hs.lt_length hi) ?_ hlast ⟨i, hi, ?_⟩) (by simp) <;>
    exact hpass

end Schedule

section Write

variable {written : ChallengePass F64} {now : DateTime}

/-- A challenge that is written was not completed, so no record is of it. -/
theorem Kept.ne_of_due (hs : s.Kept) (hdue : i ∈ s.manager.dueChallenges now)
    (hj : s.verdict j ≠ none) : j ≠ i := by
  rintro rfl
  obtain ⟨c, hc, hopen, -⟩ := mem_dueChallenges.mp hdue
  exact absurd (hs.completed j c hj hc) (by simp [hopen])

theorem Kept.answered_writeDue (hs : s.Kept) (hdue : i ∈ s.manager.dueChallenges now) :
    (s.step (.writeDue i written now)).Answered passId ↔ s.Answered passId := by
  refine exists_congr fun j => and_congr_right fun hj => ?_
  simp only [step, passIdAt_writeDue hdue, if_neg (hs.ne_of_due hdue hj)]

theorem Kept.write (hs : s.Kept) (hdue : i ∈ s.manager.dueChallenges now)
    (hapart : s.KeepsApart (.writeDue i written now)) :
    (s.step (.writeDue i written now)).Kept where
  results k results hk := by
    have hne : k ≠ i := hs.ne_of_due hdue (Option.ne_none_iff_exists'.mpr ⟨results, hk⟩)
    obtain ⟨c, hc, hresults⟩ := hs.results k results hk
    exact ⟨c, by simp only [step, getElem?_writeDue hdue, if_neg hne, hc], hresults⟩
  others j c hc hopen hanswered := by
    rw [hs.answered_writeDue hdue] at hanswered
    rw [canComplete_iff hc hopen]
    intro k hk hpass
    simp only [step, getElem?_writeDue hdue, passIdAt_writeDue hdue] at hc hpass
    split at hc
    · next hj =>
      subst hj
      obtain rfl := Option.some.inj hc
      rw [if_neg hk.ne] at hpass
      obtain ⟨d, hd, hdpass⟩ := Option.map_eq_some_iff.mp hpass
      exact absurd ((hapart hdue hanswered k d hd hdpass).1 hk) (by simp [hopen])
    · split at hpass
      · next hki =>
        subst hki
        have hsame := Option.some.inj hpass
        exact absurd ((hapart hdue (hsame ▸ hanswered) j c hc hsame.symm).2 hk) (by simp [hopen])
      · exact absurd (hs.completed_of_lt hk hpass hc hanswered) (by simp [hopen])
  completed k c hk hc := by
    simp only [step, getElem?_writeDue hdue, if_neg (hs.ne_of_due hdue hk)] at hc
    exact hs.completed k c hk hc

theorem Kept.keepsApart_writeDue_of_final (hs : s.Kept)
    (hfinal : (s.step (.writeDue i written now)).Final) :
    s.KeepsApart (.writeDue i written now) := by
  intro hdue hanswered j c hc hpass
  replace hanswered : (s.step (.writeDue i written now)).Answered written.passId :=
    (hs.answered_writeDue hdue).mpr hanswered
  constructor
  · intro hj
    refine hfinal.completed_of_lt hj ?_ ?_ hanswered
    · simp only [step, passIdAt_writeDue hdue, if_neg hj.ne, passIdAt_of_getElem? hc, hpass]
    · simp only [step, getElem?_writeDue hdue, if_true]
  · intro hi
    refine hfinal.completed_of_lt hi ?_ ?_ (hpass ▸ hanswered)
    · simp only [step, passIdAt_writeDue hdue, if_true, hpass]
    · simp only [step, getElem?_writeDue hdue, if_neg hi.ne', hc]

end Write

section Complete

variable {results : List (ChallengeResult F64)}

theorem answered_completeChallenge {other : PassId} :
    (s.step (.completeChallenge passId results)).Answered other ↔
      s.Answered other ∨ other = passId ∧ ∃ i, s.manager.find passId = some i := by
  simp only [Answered, step, passIdAt_completeChallenge]
  constructor
  · rintro ⟨i, hi, hpass⟩
    split at hi
    · next hfind =>
      have hsame := hpass.symm.trans (find_eq_some_iff.mp hfind).1
      exact .inr ⟨Option.some.inj hsame, i, hfind⟩
    · exact .inl ⟨i, hi, hpass⟩
  · rintro (⟨i, hi, hpass⟩ | ⟨rfl, i, hfind⟩)
    · refine ⟨i, ?_, hpass⟩
      split
      · simp
      · exact hi
    · exact ⟨i, by simp [hfind], (find_eq_some_iff.mp hfind).1⟩

theorem Kept.complete (hs : s.Kept) (hapart : s.KeepsApart (.completeChallenge passId results)) :
    (s.step (.completeChallenge passId results)).Kept where
  results i first hi := by
    simp only [step] at hi ⊢
    simp only [getElem?_completeChallenge]
    by_cases hfind : s.manager.find passId = some i
    · obtain ⟨c, hc, -⟩ := Option.map_eq_some_iff.mp (find_eq_some_iff.mp hfind).1
      refine ⟨{ c with results, completed := true }, by simp [hc, hfind], ?_⟩
      rw [if_pos hfind, Option.some.injEq] at hi
      cases hverdict : s.verdict i with
      | none => simpa [hverdict] using hi
      | some earlier =>
        rw [hverdict, Option.getD_some] at hi
        exact hi ▸ ((hapart i hfind).1 earlier hverdict).symm
    · rw [if_neg hfind] at hi
      obtain ⟨c, hc, hresults⟩ := hs.results i first hi
      exact ⟨c, by simp [hc, hfind], hresults⟩
  others j c hc hopen hanswered := by
    rw [canComplete_iff hc hopen]
    intro k hk hpass
    simp only [step, getElem?_completeChallenge, passIdAt_completeChallenge,
      Option.map_eq_some_iff] at hc hpass
    obtain ⟨old, hold, rfl⟩ := hc
    split at hopen
    · exact absurd hopen (by simp)
    · next hj =>
      rw [if_neg hj] at hanswered hpass
      rcases answered_completeChallenge.mp hanswered with hanswered | ⟨hpassId, i, hfind⟩
      · exact absurd (hs.completed_of_lt hk hpass hold hanswered) (by simp [hopen])
      · have hne : j ≠ i := by
          rintro rfl
          exact hj hfind
        exact absurd ((hapart i hfind).2 j old hne hold hpassId) (by simp [hopen])
  completed i c hi hc := by
    simp only [step, getElem?_completeChallenge, Option.map_eq_some_iff] at hi hc
    obtain ⟨old, hold, rfl⟩ := hc
    split
    · rfl
    · next hfind =>
      rw [if_neg hfind] at hi
      exact hs.completed i old hi hold

theorem keepsApart_completeChallenge_of_final
    (hfinal : (s.step (.completeChallenge passId results)).Final) :
    s.KeepsApart (.completeChallenge passId results) := by
  intro i hfind
  constructor
  · intro first hfirst
    have hverdict : (s.step (.completeChallenge passId results)).verdict i = some first :=
      (if_pos hfind).trans (by rw [hfirst, Option.getD_some])
    obtain ⟨c, hc, rfl⟩ := hfinal.results i first hverdict
    simp only [step, getElem?_completeChallenge, hfind, if_true, Option.map_eq_some_iff] at hc
    obtain ⟨old, -, rfl⟩ := hc
    rfl
  · rintro j c hj hc rfl
    have hother : s.manager.find c.passId ≠ some j := by
      rw [hfind]
      exact fun h => hj (Option.some.inj h).symm
    have hbefore : i < j := by
      by_contra hnot
      exact (find_eq_some_iff.mp hfind).2 j (by omega) (passIdAt_of_getElem? hc)
    refine hfinal.completed_of_lt hbefore ?_ ?_
      (answered_completeChallenge.mpr (.inr ⟨rfl, i, hfind⟩))
    · exact (passIdAt_completeChallenge results).trans (find_eq_some_iff.mp hfind).1
    · simp only [step, getElem?_completeChallenge, hc, Option.map_some, if_neg hother]

end Complete

theorem Kept.step (hs : s.Kept) (call : ChallengeCall F64) (hapart : s.KeepsApart call) :
    (s.step call).Kept := by
  cases call with
  | scheduleChallenge passId satelliteId scheduledTime peersToVerify => exact hs.schedule hapart
  | writeDue i written now =>
    by_cases hdue : i ∈ s.manager.dueChallenges now
    · exact hs.write hdue hapart
    · simp only [ChallengeSession.step, writeDue, if_neg hdue]
      exact hs
  | completeChallenge passId results => exact hs.complete hapart

theorem Kept.keepsApart_of_final (hs : s.Kept) {call : ChallengeCall F64}
    (hfinal : (s.step call).Final) : s.KeepsApart call := by
  cases call with
  | scheduleChallenge => exact hs.not_answered_of_final hfinal
  | writeDue => exact hs.keepsApart_writeDue_of_final hfinal
  | completeChallenge => exact keepsApart_completeChallenge_of_final hfinal

/-- The results are final throughout a run, and every other challenge of a pass stays within reach,
exactly when the calls keep the passes apart. -/
theorem final_iff_keepsApart {calls : List (ChallengeCall F64)} :
    (∀ n, (run ChallengeSession.step (new : ChallengeSession F64) (calls.take n)).Final) ↔
      Along ChallengeSession.step KeepsApart (new : ChallengeSession F64) calls :=
  along_iff_of_imp (I := Kept) (P := fun _ _ => True) (fun _ hs => hs.toFinal)
    (fun _ call hs _ hapart => hs.step call hapart)
    (fun _ _ hs _ hfinal => hs.keepsApart_of_final hfinal) kept_new
    (along_of_forall fun _ _ => trivial)

end ChallengeSession

/-! ### Outcomes of handoffs and challenges -/

open Optical.Link Optical.Attestation

/-- For identifiers that are drawn once, the outcomes of handoffs are final exactly in the runs that
complete no handoff twice.  The results of challenges are final, and the other challenges of a pass
can be completed, exactly in the runs whose calls keep the passes apart. -/
theorem outcomes_final_iff {F64 : Type} (handoffs : List FailoverCall)
    (hfresh : Along FailoverSession.step FailoverSession.Fresh .new handoffs)
    (challenges : List (ChallengeCall F64)) :
    ((∀ n, (run FailoverSession.step .new (handoffs.take n)).Final) ↔
      Along FailoverSession.step FailoverSession.CompletesOnce .new handoffs) ∧
    ((∀ n, (run ChallengeSession.step .new (challenges.take n)).Final) ↔
      Along ChallengeSession.step ChallengeSession.KeepsApart .new challenges) :=
  ⟨FailoverSession.final_iff_completesOnce hfresh, ChallengeSession.final_iff_keepsApart⟩

/-! ### Completed twice -/

def linkUuid : Uuid := ⟨List.replicate 16 1, rfl⟩

def handoffUuid : Uuid := ⟨List.replicate 16 2, rfl⟩

/-- A handoff that succeeds, and cleans up. -/
def completedOnce : List FailoverCall :=
  [.initiateHandoff linkUuid (.seamless 50) handoffUuid 0,
   .completeHandoff handoffUuid true 0 (Duration.seconds 1), .cleanupCompleted]

/-- A handoff that succeeds, and is then reported as failed. -/
def completedTwice : List FailoverCall :=
  [.initiateHandoff linkUuid (.seamless 50) handoffUuid 0,
   .completeHandoff handoffUuid true 0 (Duration.seconds 1),
   .completeHandoff handoffUuid false 900 (Duration.seconds 5)]

/-- What was found of a peer. -/
def challengeResult (passed : Bool) : ChallengeResult ℚ :=
  { peerId := "station-b"
    verification :=
      { passId := "pass-1", localCapture := none, peerCapture := "0af3", bytewiseMatchRate := 1
        bitemporalConsistency := passed, passed, details := "" }
    trustDelta := 0 }

def challengeOf (satelliteId : String) : ChallengeCall ℚ :=
  .scheduleChallenge "pass-1" satelliteId 0 ["station-b"]

/-- A challenge that a peer fails. -/
def oneChallenge : List (ChallengeCall ℚ) :=
  [challengeOf "sat-1", .completeChallenge "pass-1" [challengeResult false]]

theorem outcomes_final_iff_once :
    (∀ n, (run FailoverSession.step .new (completedOnce.take n)).Final) ∧
    ∀ n, (run ChallengeSession.step .new (oneChallenge.take n)).Final := by
  obtain ⟨hhandoffs, hchallenges⟩ := outcomes_final_iff completedOnce (by decide) oneChallenge
  refine ⟨hhandoffs.mpr (by decide), hchallenges.mpr ⟨?_, ?_, trivial⟩⟩
  · rintro ⟨i, hi, -⟩
    exact hi rfl
  · rintro i hfind
    obtain rfl : 0 = i := Option.some.inj hfind
    refine ⟨nofun, ?_⟩
    rintro (_ | j) c hj hc -
    · exact absurd rfl hj
    · contradiction

/-- A second report changes the outcome of a handoff, and the results of a challenge; and a second
challenge of a pass is out of reach once the first is completed. -/
theorem outcomes_final_fails :
    Along FailoverSession.step FailoverSession.Fresh .new completedTwice ∧
    ¬ (run FailoverSession.step .new completedTwice).Final ∧
    ¬ (run ChallengeSession.step .new
      (oneChallenge ++ [.completeChallenge "pass-1" [challengeResult true]])).Final ∧
    ¬ (run ChallengeSession.step .new (challengeOf "sat-2" :: oneChallenge)).Final := by
  refine ⟨by decide, fun h => ?_, fun h => ?_, fun h => ?_⟩
  · exact absurd (h.refused (.ok ()) (by decide)) (by decide)
  · obtain ⟨c, hc, hresults⟩ := h.results 0 [challengeResult false] rfl
    obtain rfl := Option.some.inj hc
    exact absurd (congrArg (List.map fun r => r.verification.passed) hresults) (by decide)
  · have hsecond : (run ChallengeSession.step .new
        (challengeOf "sat-2" :: oneChallenge)).manager.challenges[1]? = some _ := rfl
    refine absurd (h.completed_of_lt Nat.one_pos ?_ hsecond ⟨0, nofun, ?_⟩) (by decide) <;> rfl

end GroundCore.Federation
