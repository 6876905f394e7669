import GroundCore.Scheduler.Annealing

/-! Where the passes of the annealing stay.  A pass is created in the whole window of its request,
so every shift of it that is made and accepted takes it out of that window. -/

namespace GroundCore.Scheduler

open Lib

variable {F64 F32 : Type}

/-- The pass lies in the window of the request that it was created from, the first with its id, and
in the horizon, and takes as long as the request. -/
def InPlace (requests : List PassRequest) (horizon : DateTime × DateTime)
    (pass : ScheduledPass F64) : Prop :=
  ∃ request, requests.find? (fun r => r.requestId = pass.requestId) = some request ∧
    request.window.start ≤ pass.scheduledWindow.start ∧
    pass.scheduledWindow.end ≤ request.window.end ∧
    horizon.1 ≤ pass.scheduledWindow.start ∧ pass.scheduledWindow.end ≤ horizon.2 ∧
    pass.scheduledWindow.end - pass.scheduledWindow.start =
      request.window.end - request.window.start

def AllInPlace (requests : List PassRequest) (horizon : DateTime × DateTime)
    (schedule : Schedule F64) : Prop :=
  ∀ pass ∈ schedule.passes, InPlace requests horizon pass

/-- The move shifts a pass, and not by nothing. -/
def MoveChoices.Displaces (choices : MoveChoices) (schedule : Schedule F64) : Prop :=
  choices.operation % 4 = 0 ∧ choices.displacement ≠ 0 ∧
    ∃ pass, schedule.passes[choices.idx % schedule.passes.length]? = some pass ∧
      pass.scheduledWindow.start + choices.displacement > choices.now ∧
      pass.scheduledWindow.start + choices.displacement +
          (pass.scheduledWindow.end - pass.scheduledWindow.start) <
        pass.scheduledWindow.end + Duration.hours 1

section Moves

variable {requests : List PassRequest} {horizon : DateTime × DateTime} {choices : MoveChoices}
  {schedule : Schedule F64}

/-- A pass in place takes all the time of its request, so it can go nowhere else. -/
theorem inPlace_displaced_iff {pass : ScheduledPass F64} (h : InPlace requests horizon pass)
    (displacement : Duration) :
    InPlace requests horizon (pass.displaced displacement) ↔ displacement = 0 := by
  obtain ⟨request, hfind, hstart, hend, hfrom, hto, hlength⟩ := h
  constructor
  · rintro ⟨request', hfind', hstart', hend', -, -, -⟩
    obtain rfl := Option.some.inj (hfind.symm.trans hfind')
    have hstart' : request.window.start ≤ pass.scheduledWindow.start + displacement := hstart'
    have hend' : pass.scheduledWindow.start + displacement +
      (pass.scheduledWindow.end - pass.scheduledWindow.start) ≤ request.window.end := hend'
    unfold DateTime Duration at *
    omega
  · rintro rfl
    have hsame : pass.displaced 0 = pass := by
      unfold ScheduledPass.displaced
      simp
    rw [hsame]
    exact ⟨request, hfind, hstart, hend, hfrom, hto, hlength⟩

/-- A pass for the first unscheduled request lies in the window of that request. -/
theorem inPlace_createPassFromRequest {request : PassRequest} {scheduled : List String}
    (hwindows : ∀ r ∈ requests, horizon.1 ≤ r.window.start ∧ r.window.end ≤ horizon.2)
    (hfind : requests.find? (fun r => r.requestId ∉ scheduled) = some request)
    (hardware : HardwareConfig) (choices : MoveChoices) :
    InPlace requests horizon
      (createPassFromRequest hardware choices request : ScheduledPass F64) := by
  obtain ⟨hnew, before, after, rfl, hbefore⟩ := List.find?_eq_some_iff_append.mp hfind
  have hfirst : (before ++ request :: after).find?
      (fun r => r.requestId = request.requestId) = some request := by
    refine List.find?_eq_some_iff_append.mpr ⟨by simp, before, after, rfl, fun r hr => ?_⟩
    -- A request before it with its id would be unscheduled too.
    have hscheduled : r.requestId ∈ scheduled := by simpa using hbefore r hr
    have hunscheduled : request.requestId ∉ scheduled := by simpa using hnew
    have hne : r.requestId ≠ request.requestId := fun heq => hunscheduled (heq ▸ hscheduled)
    simpa using hne
  obtain ⟨hfrom, hto⟩ := hwindows request (by simp)
  exact ⟨request, hfirst, Int.le_refl _, Int.le_refl _, hfrom, hto, rfl⟩

/-- The hardware is no part of the place. -/
theorem inPlace_reallocateHardware {pass : ScheduledPass F64} (h : InPlace requests horizon pass)
    (hardware : HardwareConfig) (choices : MoveChoices) :
    InPlace requests horizon (reallocateHardware hardware choices pass) := by
  have hsame : (reallocateHardware hardware choices pass).scheduledWindow = pass.scheduledWindow := by
    unfold reallocateHardware
    split <;> rfl
  obtain ⟨hrequest, -⟩ := requestId_reallocateHardware hardware choices pass
  unfold InPlace
  rw [hsame, hrequest]
  exact h

/-- All elements of a list after one is modified, when they have the property before. -/
theorem forall_modify_iff {α : Type} {P : α → Prop} {l : List α} (h : ∀ a ∈ l, P a) (idx : ℕ)
    (f : α → α) : (∀ a ∈ l.modify idx f, P a) ↔ ∀ a, l[idx]? = some a → P (f a) := by
  constructor
  · intro hall a hget
    apply hall
    apply List.mem_of_getElem? (i := idx)
    rw [List.getElem?_modify, hget]
    simp
  · intro hidx a hmem
    obtain ⟨j, hget⟩ := List.mem_iff_getElem?.mp hmem
    rw [List.getElem?_modify] at hget
    obtain ⟨b, hb, rfl⟩ := Option.map_eq_some_iff.mp hget
    split
    · next heq =>
      subst heq
      exact hidx b hb
    · exact h b (List.mem_of_getElem? hb)

/-- The neighbour of a schedule whose passes are in place has them in place exactly when the move
displaces none. -/
theorem allInPlace_generateNeighbor_iff
    (hwindows : ∀ r ∈ requests, horizon.1 ≤ r.window.start ∧ r.window.end ≤ horizon.2)
    (h : AllInPlace requests horizon schedule) (hardware : HardwareConfig)
    (choices : MoveChoices) :
    AllInPlace requests horizon (generateNeighbor hardware requests choices schedule) ↔
      ¬ choices.Displaces schedule := by
  unfold AllInPlace
  rcases generateNeighbor_cases hardware requests choices schedule with
    ⟨hop, heq⟩ | ⟨hop, hcases⟩
  · rw [heq, forall_modify_iff h]
    constructor
    · rintro hplaces ⟨-, hne, pass, hget, hguard⟩
      have hshift := hplaces pass hget
      have hdisplaced : shiftTimeSlot choices pass = pass.displaced choices.displacement := by
        rw [shiftTimeSlot_eq, if_pos hguard]
      rw [hdisplaced, inPlace_displaced_iff (h pass (List.mem_of_getElem? hget))] at hshift
      exact hne hshift
    · intro hstays pass hget
      have hpass := h pass (List.mem_of_getElem? hget)
      rw [shiftTimeSlot_eq]
      split
      · next hguard =>
        rw [inPlace_displaced_iff hpass]
        by_contra hne
        exact hstays ⟨hop, hne, pass, hget, hguard⟩
      · exact hpass
  · have hstays : ¬ choices.Displaces schedule := by
      rintro ⟨hzero, -, pass, hget, -⟩
      rw [hop hzero] at hget
      contradiction
    refine iff_of_true ?_ hstays
    rcases hcases with ⟨-, heq⟩ | ⟨-, hperm | ⟨request, hfind, heq⟩⟩
    · rw [heq, forall_modify_iff h]
      exact fun pass hget =>
        inPlace_reallocateHardware (h pass (List.mem_of_getElem? hget)) hardware choices
    · exact fun pass hmem => h pass (hperm.mem_iff.mp hmem)
    · rw [heq]
      intro pass hmem
      rcases List.mem_append.mp hmem with hmem | hmem
      · exact h pass hmem
      · rw [List.mem_singleton.mp hmem]
        exact inPlace_createPassFromRequest hwindows hfind hardware choices

end Moves

namespace ScheduleOptimizer

section Run

variable [ExpOps F64 F32] {o : ScheduleOptimizer F64} {requests : List PassRequest}
  {horizon : DateTime × DateTime}

/-- The iteration takes its neighbour. -/
def accepts (o : ScheduleOptimizer F64) (requests : List PassRequest) (s : AnnealingState F64)
    (it : Iteration F64) : Bool :=
  let neighbor := generateNeighbor o.hardware requests it.choices s.schedule
  let scoreDelta := o.evaluateSchedule it.conflictOrder neighbor - s.bestScore
  FloatOps.lt (FloatOps.lit 0) scoreDelta ||
    FloatOps.lt it.draw (ExpOps.exp (scoreDelta / s.temperature))

/-- The iteration takes no neighbour in which it has displaced a pass. -/
def Stays (o : ScheduleOptimizer F64) (requests : List PassRequest) (s : AnnealingState F64)
    (it : Iteration F64) : Prop :=
  it.choices.Displaces s.schedule → o.accepts requests s it = false

/-- The passes of the current and of the best schedule are in place. -/
def StateInPlace (requests : List PassRequest) (horizon : DateTime × DateTime)
    (s : AnnealingState F64) : Prop :=
  AllInPlace requests horizon s.schedule ∧ AllInPlace requests horizon s.bestSchedule

theorem anneal_cases (o : ScheduleOptimizer F64) (requests : List PassRequest)
    (s : AnnealingState F64) (it : Iteration F64) :
    let neighbor := generateNeighbor o.hardware requests it.choices s.schedule
    let after := o.anneal requests s it
    (o.accepts requests s it = false ∧ after.schedule = s.schedule ∧
      after.bestSchedule = s.bestSchedule) ∨
    (o.accepts requests s it = true ∧ after.schedule = neighbor ∧
      (after.bestSchedule = neighbor ∨ after.bestSchedule = s.bestSchedule)) := by
  intro neighbor after
  cases haccept : o.accepts requests s it with
  | false =>
    have hafter : after = _ := if_neg (by rw [Bool.not_eq_true]; exact haccept)
    rw [hafter]
    exact .inl ⟨rfl, rfl, rfl⟩
  | true =>
    have hafter : after = _ := if_pos haccept
    rw [hafter]
    split
    · exact .inr ⟨rfl, rfl, .inl rfl⟩
    · exact .inr ⟨rfl, rfl, .inr rfl⟩

theorem stateInPlace_anneal_iff
    (hwindows : ∀ r ∈ requests, horizon.1 ≤ r.window.start ∧ r.window.end ≤ horizon.2)
    {s : AnnealingState F64} (hs : StateInPlace requests horizon s) (it : Iteration F64) :
    StateInPlace requests horizon (o.anneal requests s it) ↔ o.Stays requests s it := by
  have hneighbor := allInPlace_generateNeighbor_iff hwindows hs.1 o.hardware it.choices
  unfold StateInPlace Stays
  rcases anneal_cases o requests s it with ⟨hrefused, hcurrent, hbest⟩ | ⟨haccept, hcurrent, hbest⟩
  · rw [hcurrent, hbest, hrefused]
    exact iff_of_true hs fun _ => rfl
  · rw [hcurrent, haccept, hneighbor]
    constructor
    · exact fun h hdisplaces => absurd hdisplaces h.1
    · intro h
      have hstays : ¬ it.choices.Displaces s.schedule := fun hdisplaces => by
        have := h hdisplaces
        contradiction
      refine ⟨hstays, ?_⟩
      rcases hbest with heq | heq <;> rw [heq]
      · exact hneighbor.mpr hstays
      · exact hs.2

variable [FiniteFloat F64 F32]

/-- The passes stay in place throughout an annealing from an empty schedule exactly when no
iteration takes a displaced pass, and then the schedule that is returned has them in place. -/
theorem optimize_inPlace_iff (o : ScheduleOptimizer F64) (requests : List PassRequest)
    (horizonStart horizonEnd now : DateTime) (ord : IterOrder (List ℕ)) (inputs : ℕ → Iteration F64)
    (restored : Option (Schedule F64))
    (hwindows : ∀ r ∈ requests, horizonStart ≤ r.window.start ∧ r.window.end ≤ horizonEnd) :
    let start := o.initialState (initialSchedule horizonStart horizonEnd now none) ord
    let stays := Along (o.anneal requests) (o.Stays requests) start (o.iterations inputs)
    ((∀ n, StateInPlace requests (horizonStart, horizonEnd)
        (run (o.anneal requests) start ((o.iterations inputs).take n))) ↔ stays) ∧
      (stays → AllInPlace requests (horizonStart, horizonEnd)
        (o.optimize requests horizonStart horizonEnd now none ord inputs restored)) := by
  intro start stays
  have hempty : StateInPlace requests (horizonStart, horizonEnd) start :=
    ⟨fun _ hmem => absurd hmem List.not_mem_nil, fun _ hmem => absurd hmem List.not_mem_nil⟩
  have hiff : (∀ n, StateInPlace requests (horizonStart, horizonEnd)
      (run (o.anneal requests) start ((o.iterations inputs).take n))) ↔ stays :=
    along_iff_invariant (I := StateInPlace requests (horizonStart, horizonEnd))
      (fun _ it hs => stateInPlace_anneal_iff hwindows hs it) hempty
  refine ⟨hiff, fun hstays => ?_⟩
  have hall := hiff.mpr hstays (o.iterations inputs).length
  rw [List.take_length] at hall
  rw [optimize_eq]
  exact hall.2

end Run

end ScheduleOptimizer

section Example

/-- A request for the first four minutes of the horizon. -/
def shortRequest : PassRequest :=
  { requestId := "b", customerId := "customer", satelliteId := "sat"
    window := { start := 0, «end» := Duration.minutes 4, minDurationSec := 120 }
    slaTier := .standard }

def threeIterations : ScheduleOptimizer ℚ :=
  { smallOptimizer with config := { smallOptimizer.config with maxIterations := 3 } }

/-- The short request gets a pass, which is then shifted, and then the other request gets one. -/
def shiftBetween (n : ℕ) : Iteration ℚ := iterationOf ([3, 0, 3].getD n 0) n

open ScheduleOptimizer in
theorem shiftBetween_out_of_place :
    letI := ExpOps.exact id id fun x => 1 + x
    ¬ AllInPlace [shortRequest, requestOf "a"] (0, Duration.hours 24)
      (threeIterations.optimize [shortRequest, requestOf "a"] 0 (Duration.hours 24) 0 none (.stored _)
        shiftBetween none) := by
  let _ := ExpOps.exact id id fun x => 1 + x
  have hends : ∃ pass ∈ (threeIterations.optimize [shortRequest, requestOf "a"] 0
      (Duration.hours 24) 0 none (.stored _) shiftBetween none).passes,
      pass.requestId = "b" ∧ pass.scheduledWindow.end = Duration.minutes 14 := by
    decide +kernel
  obtain ⟨pass, hmem, hrequest, hend⟩ := hends
  intro hall
  obtain ⟨request, hfind, -, hinside, -⟩ := hall pass hmem
  rw [hrequest] at hfind
  obtain rfl : shortRequest = request := Option.some.inj hfind
  rw [hend] at hinside
  exact absurd hinside (by decide)

/-- Without a shift the passes stay where they were asked for. -/
theorem unshifted_in_place :
    letI := ExpOps.exact id id fun x => 1 + x
    AllInPlace [shortRequest, requestOf "a"] (0, Duration.hours 24)
      (threeIterations.optimize [shortRequest, requestOf "a"] 0 (Duration.hours 24) 0 none (.stored _)
        (fun n => iterationOf 3 n) none) := by
  let _ := ExpOps.exact id id fun x => 1 + x
  let _ := FiniteFloat.exact id id
  refine (ScheduleOptimizer.optimize_inPlace_iff threeIterations [shortRequest, requestOf "a"] 0
    (Duration.hours 24) 0 (.stored _) (fun n => iterationOf 3 n) none ?_).2 ?_
  · decide
  · have hits : threeIterations.iterations (fun n => iterationOf 3 n) =
        [iterationOf 3 0, iterationOf 3 1, iterationOf 3 2] := rfl
    rw [hits]
    exact ⟨fun h => absurd h.1 (by decide), fun h => absurd h.1 (by decide),
      fun h => absurd h.1 (by decide), trivial⟩

end Example

end GroundCore.Scheduler
