import Mathlib.Data.List.Induction
import Mathlib.Tactic.IntervalCases
import GroundCore.Agent.Proposal

/-! One live approval for each execution.  The operations guard only the execution, by the stored
status: an approval also revives a proposal that was executed or rejected, and a proposal may be
created with the status of an approved one. -/

namespace GroundCore.Agent

open Lib ProposalManager

namespace ProposalCall

/-- The call approves the proposal. -/
def Approves (id : String) : ProposalCall → Prop
  | approve proposalId _ _ => proposalId = id
  | _ => False

/-- The call rejects the proposal. -/
def Rejects (id : String) : ProposalCall → Prop
  | reject proposalId _ _ => proposalId = id
  | _ => False

end ProposalCall

/-! ### What the calls of a run record -/

/-- The status of a proposal after the calls. -/
def statusAfter (calls : List ProposalCall) (id : String) : Option ApprovalStatus :=
  (run step new calls).statusOf id

/-- The last creation of a proposal, with the calls since then. -/
def sinceCreation (id : String) (calls : List ProposalCall) :
    Option (ActionProposal × List ProposalCall) :=
  calls.foldl (fun created call =>
    match call with
    | .create proposal =>
      if proposal.proposalId = id then some (proposal, [])
      else created.map fun c => (c.1, c.2 ++ [call])
    | _ => created.map fun c => (c.1, c.2 ++ [call])) none

/-- The proposal was approved since its creation, and not rejected after that. -/
def ApprovedSinceCreation (id : String) (calls : List ProposalCall) : Prop :=
  ∃ proposal before approval after,
    sinceCreation id calls = some (proposal, before ++ approval :: after) ∧ approval.Approves id ∧
      ∀ call ∈ after, ¬ call.Rejects id

/-- The proposal was created as approved, and not decided on since. -/
def CreatedApproved (id : String) (calls : List ProposalCall) : Prop :=
  ∃ proposal since, sinceCreation id calls = some (proposal, since) ∧
    proposal.approvalStatus = .approved ∧
      ∀ call ∈ since, ¬ call.Approves id ∧ ¬ call.Rejects id

/-- The `n`th call executes the proposal. -/
def ExecutedAt (calls : List ProposalCall) (id : String) (n : ℕ) : Prop :=
  ∃ now, calls[n]? = some (.execute id now) ∧
    ((run step new (calls.take n)).execute id now).2 = .ok ()

/-- A proposal in this state is not to be approved again. -/
def Settled (status : Option ApprovalStatus) : Prop :=
  status = some .executed ∨ status = some .rejected

instance (status : Option ApprovalStatus) : Decidable (Settled status) :=
  inferInstanceAs (Decidable (_ ∨ _))

/-- The ids of the proposals that are created. -/
def createdIds (calls : List ProposalCall) : List String :=
  calls.filterMap fun
    | .create proposal => some proposal.proposalId
    | _ => none

/-- Every execution of a run has a live approval of its own. -/
structure LiveApprovals (calls : List ProposalCall) : Prop where
  executedOnce : ∀ id n m, ExecutedAt calls id n → ExecutedAt calls id m → n = m
  executedWhenApproved : ∀ id n, ExecutedAt calls id n → ApprovedSinceCreation id (calls.take n)
  settledForGood : ∀ id n m, n ≤ m → Settled (statusAfter (calls.take n) id) →
    statusAfter (calls.take m) id ≠ some .approved

/-- No call approves a proposal that is executed or rejected, and none executes one that was
created as approved and not decided on since. -/
structure Disciplined (calls : List ProposalCall) : Prop where
  approvesOpen : ∀ id approvedBy now n, calls[n]? = some (.approve id approvedBy now) →
    ¬ Settled (statusAfter (calls.take n) id)
  executesDecided : ∀ id now n, calls[n]? = some (.execute id now) →
    ¬ CreatedApproved id (calls.take n)

/-! ### One more call -/

section Snoc

variable {id : String} {calls : List ProposalCall} {call : ProposalCall}

theorem statusAfter_snoc :
    statusAfter (calls ++ [call]) id = ((run step new calls).step call).statusOf id := by
  rw [statusAfter, run_append, run_cons, run_nil]

theorem sinceCreation_create {proposal : ActionProposal} :
    sinceCreation id (calls ++ [.create proposal]) =
      if proposal.proposalId = id then some (proposal, [])
      else (sinceCreation id calls).map fun c => (c.1, c.2 ++ [.create proposal]) := by
  rw [sinceCreation, List.foldl_append]
  rfl

/-- A call that does not create the proposal is one more since its creation. -/
theorem sinceCreation_snoc (h : ∀ proposal, call = .create proposal → proposal.proposalId ≠ id) :
    sinceCreation id (calls ++ [call]) =
      (sinceCreation id calls).map fun c => (c.1, c.2 ++ [call]) := by
  cases call with
  | create proposal => rw [sinceCreation_create, if_neg (h proposal rfl)]
  | approve proposalId approvedBy now => rw [sinceCreation, List.foldl_append]; rfl
  | reject proposalId rejectedBy now => rw [sinceCreation, List.foldl_append]; rfl
  | execute proposalId now => rw [sinceCreation, List.foldl_append]; rfl

theorem ApprovedSinceCreation.snoc (happroved : ApprovedSinceCreation id calls)
    (h : ∀ proposal, call = .create proposal → proposal.proposalId ≠ id)
    (hrejects : ¬ call.Rejects id) : ApprovedSinceCreation id (calls ++ [call]) := by
  obtain ⟨proposal, before, approval, after, hsince, happroval, hafter⟩ := happroved
  refine ⟨proposal, before, approval, after ++ [call], ?_, happroval, ?_⟩
  · rw [sinceCreation_snoc h, hsince, Option.map_some, List.append_assoc, List.cons_append]
  · intro c hc
    rcases List.mem_append.mp hc with hc | hc
    · exact hafter c hc
    · rw [List.mem_singleton.mp hc]
      exact hrejects

theorem createdApproved_snoc_iff
    (h : ∀ proposal, call = .create proposal → proposal.proposalId ≠ id) :
    CreatedApproved id (calls ++ [call]) ↔
      CreatedApproved id calls ∧ ¬ call.Approves id ∧ ¬ call.Rejects id := by
  unfold CreatedApproved
  rw [sinceCreation_snoc h]
  constructor
  · rintro ⟨proposal, since, hsince, hstatus, hcalls⟩
    obtain ⟨⟨created, earlier⟩, hearlier, heq⟩ := Option.map_eq_some_iff.mp hsince
    cases heq
    exact ⟨⟨created, earlier, hearlier, hstatus, fun c hc => hcalls c (List.mem_append_left _ hc)⟩,
      hcalls call (List.mem_append_right _ List.mem_cons_self)⟩
  · rintro ⟨⟨proposal, since, hsince, hstatus, hcalls⟩, hcall⟩
    refine ⟨proposal, since ++ [call], by rw [hsince, Option.map_some], hstatus, fun c hc => ?_⟩
    rcases List.mem_append.mp hc with hc | hc
    · exact hcalls c hc
    · rw [List.mem_singleton.mp hc]
      exact hcall

end Snoc

/-! ### Status and history -/

theorem isSome_sinceCreation (id : String) (calls : List ProposalCall) :
    (sinceCreation id calls).isSome = (statusAfter calls id).isSome := by
  induction calls using List.reverseRecOn with
  | nil => rfl
  | append_singleton calls call ih =>
    rw [statusAfter_snoc]
    rw [statusAfter] at ih
    cases call with
    | create proposal =>
      rw [sinceCreation_create, statusOf_create]
      split
      · rfl
      · rw [Option.isSome_map, ih]
    | approve proposalId approvedBy now =>
      rw [sinceCreation_snoc (by simp), Option.isSome_map, ih, step, approve,
        isSome_statusOf_recordDecision]
    | reject proposalId rejectedBy now =>
      rw [sinceCreation_snoc (by simp), Option.isSome_map, ih, step, reject,
        isSome_statusOf_recordDecision]
    | execute proposalId now =>
      rw [sinceCreation_snoc (by simp), Option.isSome_map, ih, statusOf_execute]
      split
      · next h => rw [h.2, Option.isSome_some, Option.isSome_some]
      · rfl

/-- A proposal with the status of an approved one was approved by a call, or created so. -/
theorem approved_cases {id : String} {calls : List ProposalCall}
    (h : statusAfter calls id = some .approved) :
    ApprovedSinceCreation id calls ∨ CreatedApproved id calls := by
  induction calls using List.reverseRecOn with
  | nil => contradiction
  | append_singleton calls call ih =>
    rw [statusAfter_snoc] at h
    -- a call about another proposal, or one without effect, leaves both ways open
    have hkeep : statusAfter calls id = some .approved →
        (∀ proposal, call = .create proposal → proposal.proposalId ≠ id) → ¬ call.Approves id →
          ¬ call.Rejects id →
            ApprovedSinceCreation id (calls ++ [call]) ∨ CreatedApproved id (calls ++ [call]) := by
      intro hstatus hcreate happroves hrejects
      rcases ih hstatus with happroved | hcreated
      · exact .inl (happroved.snoc hcreate hrejects)
      · exact .inr ((createdApproved_snoc_iff hcreate).mpr ⟨hcreated, happroves, hrejects⟩)
    cases call with
    | create proposal =>
      rw [statusOf_create] at h
      split at h
      · next hid =>
        exact .inr ⟨proposal, [], by rw [sinceCreation_create, if_pos hid],
          Option.some_inj.mp h, fun _ hc => absurd hc List.not_mem_nil⟩
      · next hid => exact hkeep h (by simpa using hid) not_false not_false
    | approve proposalId approvedBy now =>
      rw [step, approve, statusOf_recordDecision] at h
      split at h
      · next hid =>
        obtain ⟨status, hstatus, -⟩ := Option.map_eq_some_iff.mp h
        have hsome : (sinceCreation id calls).isSome := by
          rw [isSome_sinceCreation, statusAfter, hstatus, Option.isSome_some]
        obtain ⟨⟨proposal, since⟩, hsince⟩ := Option.isSome_iff_exists.mp hsome
        exact .inl ⟨proposal, since, .approve proposalId approvedBy now, [],
          by rw [sinceCreation_snoc (by simp), hsince, Option.map_some], hid,
          fun _ hc => absurd hc List.not_mem_nil⟩
      · next hid => exact hkeep h (by simp) hid not_false
    | reject proposalId rejectedBy now =>
      rw [step, reject, statusOf_recordDecision] at h
      split at h
      · obtain ⟨status, -, hstatus⟩ := Option.map_eq_some_iff.mp h
        contradiction
      · next hid => exact hkeep h (by simp) not_false hid
    | execute proposalId now =>
      rw [statusOf_execute] at h
      split at h
      · contradiction
      · exact hkeep h (by simp) not_false not_false

theorem CreatedApproved.not_approvedSinceCreation {id : String} {calls : List ProposalCall}
    (h : CreatedApproved id calls) : ¬ ApprovedSinceCreation id calls := by
  obtain ⟨proposal, since, hsince, -, hcalls⟩ := h
  rintro ⟨created, before, approval, after, hsince', happroval, -⟩
  rw [hsince, Option.some_inj] at hsince'
  cases hsince'
  exact (hcalls approval (List.mem_append_right _ List.mem_cons_self)).1 happroval

theorem ExecutedAt.lt {calls : List ProposalCall} {id : String} {n : ℕ}
    (h : ExecutedAt calls id n) : n < calls.length := by
  obtain ⟨now, hcall, -⟩ := h
  exact (List.getElem?_eq_some_iff.mp hcall).1

theorem executedAt_append {calls : List ProposalCall} {id : String} {n : ℕ}
    (h : n < calls.length) (more : List ProposalCall) :
    ExecutedAt (calls ++ more) id n ↔ ExecutedAt calls id n := by
  unfold ExecutedAt
  rw [List.getElem?_append_left h, List.take_append_of_le_length (Nat.le_of_lt h)]

/-- What was created as approved still has that status, unless it was executed without approval. -/
theorem statusAfter_createdApproved {id : String} {calls : List ProposalCall}
    (hlive : ∀ n, ExecutedAt calls id n → ApprovedSinceCreation id (calls.take n))
    (h : CreatedApproved id calls) : statusAfter calls id = some .approved := by
  induction calls using List.reverseRecOn with
  | nil =>
    obtain ⟨proposal, since, hsince, -⟩ := h
    contradiction
  | append_singleton calls call ih =>
    have hearlier : ∀ n, ExecutedAt calls id n → ApprovedSinceCreation id (calls.take n) := by
      intro n hexecuted
      have htake : (calls ++ [call]).take n = calls.take n :=
        List.take_append_of_le_length (Nat.le_of_lt hexecuted.lt)
      rw [← htake]
      exact hlive n ((executedAt_append hexecuted.lt [call]).mpr hexecuted)
    rw [statusAfter_snoc]
    cases call with
    | create proposal =>
      rw [statusOf_create]
      split
      · next hid =>
        obtain ⟨created, since, hsince, hstatus, -⟩ := h
        rw [sinceCreation_create, if_pos hid] at hsince
        cases hsince
        rw [hstatus]
      · next hid =>
        exact ih hearlier ((createdApproved_snoc_iff (by simpa using hid)).mp h).1
    | approve proposalId approvedBy now =>
      obtain ⟨hcreated, hother, -⟩ := (createdApproved_snoc_iff (by simp)).mp h
      have hid : ¬ proposalId = id := hother
      rw [step, approve, statusOf_recordDecision, if_neg hid]
      exact ih hearlier hcreated
    | reject proposalId rejectedBy now =>
      obtain ⟨hcreated, -, hother⟩ := (createdApproved_snoc_iff (by simp)).mp h
      have hid : ¬ proposalId = id := hother
      rw [step, reject, statusOf_recordDecision, if_neg hid]
      exact ih hearlier hcreated
    | execute proposalId now =>
      have hcreated := ((createdApproved_snoc_iff (by simp)).mp h).1
      have hstatus := ih hearlier hcreated
      rw [statusOf_execute]
      split
      · next hexecutes =>
        -- the execution would have succeeded without an approval
        have hexecuted : ExecutedAt (calls ++ [.execute proposalId now]) id calls.length := by
          refine ⟨now, by rw [List.getElem?_concat_length, hexecutes.1], ?_⟩
          rw [List.take_left, execute_ok_iff]
          exact hexecutes.2
        have happroved := hlive _ hexecuted
        rw [List.take_left] at happroved
        exact absurd happroved hcreated.not_approvedSinceCreation
      · exact hstatus

/-! ### Settled proposals -/

theorem createdIds_append (first second : List ProposalCall) :
    createdIds (first ++ second) = createdIds first ++ createdIds second :=
  List.filterMap_append

theorem mem_createdIds {id : String} {calls : List ProposalCall}
    (h : (statusAfter calls id).isSome) : id ∈ createdIds calls := by
  rw [← isSome_sinceCreation] at h
  induction calls using List.reverseRecOn with
  | nil => contradiction
  | append_singleton calls call ih =>
    rw [createdIds_append, List.mem_append]
    by_cases hcreate : ∃ proposal, call = .create proposal ∧ proposal.proposalId = id
    · obtain ⟨proposal, rfl, rfl⟩ := hcreate
      exact .inr List.mem_cons_self
    · rw [sinceCreation_snoc fun proposal hcall hid => hcreate ⟨proposal, hcall, hid⟩,
        Option.isSome_map] at h
      exact .inl (ih h)

/-- A settled proposal stays settled through a call that does not approve it. -/
theorem settled_step {m : ProposalManager} {id : String} {call : ProposalCall}
    (hcreate : ∀ proposal, call = .create proposal → proposal.proposalId ≠ id)
    (happrove : ¬ call.Approves id) (h : Settled (m.statusOf id)) :
    Settled ((m.step call).statusOf id) := by
  cases call with
  | create proposal => rwa [statusOf_create, if_neg (hcreate proposal rfl)]
  | approve proposalId approvedBy now =>
    have hid : ¬ proposalId = id := happrove
    rwa [step, approve, statusOf_recordDecision, if_neg hid]
  | reject proposalId rejectedBy now =>
    rw [step, reject, statusOf_recordDecision]
    split
    · rcases h with h | h
      · exact .inr (by rw [h, Option.map_some])
      · exact .inr (by rw [h, Option.map_some])
    · exact h
  | execute proposalId now =>
    rw [statusOf_execute]
    split
    · exact .inl rfl
    · exact h

section Runs

variable {calls : List ProposalCall} {id : String} {n m : ℕ}

/-- A proposal is created at most once, and so not after it has a status. -/
theorem not_created_again (hdistinct : (createdIds calls).Nodup) (hn : n < calls.length)
    (h : (statusAfter (calls.take n) id).isSome) (proposal : ActionProposal)
    (hcall : calls[n] = .create proposal) : proposal.proposalId ≠ id := by
  rintro rfl
  have hsplit : calls = calls.take n ++ .create proposal :: calls.drop (n + 1) := by
    rw [← hcall, ← List.drop_eq_getElem_cons hn, List.take_append_drop]
  rw [hsplit, createdIds_append, List.nodup_append] at hdistinct
  exact hdistinct.2.2 _ (mem_createdIds h) _ List.mem_cons_self rfl

theorem statusAfter_take_succ (hn : n < calls.length) :
    statusAfter (calls.take (n + 1)) id =
      ((run step new (calls.take n)).step calls[n]).statusOf id := by
  rw [List.take_succ_eq_append_getElem hn, statusAfter_snoc]

theorem settled_of_le (hdistinct : (createdIds calls).Nodup) (hdisciplined : Disciplined calls)
    (hle : n ≤ m) (h : Settled (statusAfter (calls.take n) id)) :
    Settled (statusAfter (calls.take m) id) := by
  induction m, hle using Nat.le_induction with
  | base => exact h
  | succ m hle ih =>
    rcases Nat.lt_or_ge m calls.length with hm | hm
    · rw [statusAfter_take_succ hm]
      have hsome : (statusAfter (calls.take m) id).isSome := by
        rcases ih with ih | ih
        · rw [ih, Option.isSome_some]
        · rw [ih, Option.isSome_some]
      refine settled_step (not_created_again hdistinct hm hsome) ?_ ih
      intro happroves
      cases hcall : calls[m] with
      | approve proposalId approvedBy now =>
        rw [hcall] at happroves
        obtain rfl : proposalId = id := happroves
        exact hdisciplined.approvesOpen _ _ _ m
          ((List.getElem?_eq_getElem hm).trans (congrArg some hcall)) ih
      | _ => rw [hcall] at happroves; exact happroves
    · rw [List.take_of_length_le (by omega)] at ih ⊢
      exact ih

/-- An execution finds its proposal approved and leaves it executed. -/
theorem ExecutedAt.status (h : ExecutedAt calls id n) :
    statusAfter (calls.take n) id = some .approved ∧
      statusAfter (calls.take (n + 1)) id = some .executed := by
  have hn := h.lt
  obtain ⟨now, hcall, hok⟩ := h
  have happroved := (execute_ok_iff _ _ _).mp hok
  refine ⟨happroved, ?_⟩
  rw [List.getElem?_eq_getElem hn, Option.some_inj] at hcall
  rw [statusAfter_take_succ hn, hcall, statusOf_execute, if_pos ⟨rfl, happroved⟩]

/-- A run keeps its executions to one live approval each exactly when no call approves a proposal
that is executed or rejected, and none executes one that was created as approved. -/
theorem live_approvals_iff (hdistinct : (createdIds calls).Nodup) :
    LiveApprovals calls ↔ Disciplined calls := by
  constructor
  · intro h
    refine ⟨fun id approvedBy now n hcall hsettled => ?_, fun id now n hcall hcreated => ?_⟩
    · have hn := (List.getElem?_eq_some_iff.mp hcall).1
      apply h.settledForGood id n (n + 1) (Nat.le_succ n) hsettled
      rw [List.getElem?_eq_getElem hn, Option.some_inj] at hcall
      rw [statusAfter_take_succ hn, hcall, step, approve, statusOf_recordDecision, if_pos rfl]
      rcases hsettled with hstatus | hstatus
      · rw [statusAfter] at hstatus
        rw [hstatus, Option.map_some]
      · rw [statusAfter] at hstatus
        rw [hstatus, Option.map_some]
    · have hearlier : ∀ k, ExecutedAt (calls.take n) id k →
          ApprovedSinceCreation id ((calls.take n).take k) := by
        intro k hk
        have hlt := hk.lt
        have hexecuted := (executedAt_append hlt (calls.drop n)).mpr hk
        rw [List.take_append_drop] at hexecuted
        rw [List.length_take] at hlt
        rw [List.take_take, min_eq_left (by omega)]
        exact h.executedWhenApproved id k hexecuted
      have hstatus := statusAfter_createdApproved hearlier hcreated
      exact hcreated.not_approvedSinceCreation
        (h.executedWhenApproved id n ⟨now, hcall, (execute_ok_iff _ _ _).mpr hstatus⟩)
  · intro h
    have hsettled : ∀ id n m, n ≤ m → Settled (statusAfter (calls.take n) id) →
        statusAfter (calls.take m) id ≠ some .approved := by
      intro id n m hle hsettled happroved
      have hlater := settled_of_le hdistinct h hle hsettled
      rw [happroved] at hlater
      rcases hlater with hlater | hlater
      · contradiction
      · contradiction
    have honce : ∀ id n m, ExecutedAt calls id n → ExecutedAt calls id m → ¬ n < m :=
      fun id n m hn hm hlt => hsettled id (n + 1) m hlt (.inl hn.status.2) hm.status.1
    refine ⟨fun id n m hn hm => ?_, fun id n hn => ?_, hsettled⟩
    · have h1 := honce id n m hn hm
      have h2 := honce id m n hm hn
      omega
    · rcases approved_cases hn.status.1 with happroved | hcreated
      · exact happroved
      · obtain ⟨now, hcall, -⟩ := hn
        exact absurd hcreated (h.executesDecided id now n hcall)

end Runs

/-! ### Two runs without a live approval -/

/-- A proposal that waits for a decision, or comes with one. -/
def proposalWith (status : ApprovalStatus) : ActionProposal :=
  { proposalId := "p1", riskLevel := .high, approvalStatus := status, decidedAt := none
    decidedBy := none, executionResult := none }

/-- One approval each for two executions of the same proposal. -/
def revived : List ProposalCall :=
  [.create (proposalWith .pending), .approve "p1" "operator" 1, .execute "p1" 2,
    .approve "p1" "operator" 3, .execute "p1" 4]

/-- A proposal that its creator approves. -/
def selfApproved : List ProposalCall := [.create (proposalWith .approved), .execute "p1" 1]

/-- Both runs create one proposal.  The first executes it twice, the second without approval. -/
theorem approvals_not_live :
    (createdIds revived).Nodup ∧ ¬ LiveApprovals revived ∧
    (createdIds selfApproved).Nodup ∧ ¬ LiveApprovals selfApproved := by
  refine ⟨by decide, fun h => ?_, by decide, fun h => ?_⟩
  · have htwice := h.executedOnce "p1" 2 4 ⟨2, rfl, by decide⟩ ⟨4, rfl, by decide⟩
    contradiction
  · obtain ⟨proposal, before, approval, after, hsince, -⟩ :=
      h.executedWhenApproved "p1" 1 ⟨1, rfl, by decide⟩
    have hnone : sinceCreation "p1" (selfApproved.take 1) = some (proposalWith .approved, []) := by
      decide
    rw [hnone, Option.some_inj, Prod.mk.injEq] at hsince
    exact List.cons_ne_nil _ _ (List.append_eq_nil_iff.mp hsince.2.symm).2

/-- A proposal that is approved and executed once. -/
theorem live_approvals_iff_once : LiveApprovals (revived.take 3) := by
  refine (live_approvals_iff (by decide)).mpr ⟨?_, ?_⟩
  · intro id approvedBy now n hcall
    have hn : n < 3 := (List.getElem?_eq_some_iff.mp hcall).1
    interval_cases n
    · cases hcall
    · cases hcall
      decide
    · cases hcall
  · intro id now n hcall
    have hn : n < 3 := (List.getElem?_eq_some_iff.mp hcall).1
    interval_cases n
    · cases hcall
    · cases hcall
    · cases hcall
      rintro ⟨proposal, since, hsince, hstatus, -⟩
      have hpending : sinceCreation "p1" ((revived.take 3).take 2) =
          some (proposalWith .pending, [.approve "p1" "operator" 1]) := by decide
      rw [hpending, Option.some_inj, Prod.mk.injEq] at hsince
      rw [← hsince.1] at hstatus
      contradiction

end GroundCore.Agent
