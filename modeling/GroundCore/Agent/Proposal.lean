import GroundCore.Core.Types
import GroundCore.Lib.HashMap
import GroundCore.Lib.Run

/-! The proposals of the agent, each with the status that an operator's decision or its execution
gives it. -/

namespace GroundCore.Agent

open Lib

inductive RiskLevel
  | low
  | medium
  | high
  | critical
  deriving DecidableEq, Repr

inductive ApprovalStatus
  | pending
  | approved
  | rejected
  | executed
  | failed
  deriving DecidableEq, Repr

structure ExecutionResult where
  success : Bool
  output : String
  completedAt : DateTime
  deriving DecidableEq, Repr

structure ActionProposal where
  proposalId : String
  riskLevel : RiskLevel
  approvalStatus : ApprovalStatus
  decidedAt : Option DateTime
  decidedBy : Option String
  executionResult : Option ExecutionResult
  deriving DecidableEq, Repr

structure ProposalManager where
  proposals : HashMap String ActionProposal

namespace ProposalManager

def new : ProposalManager := { proposals := ∅ }

/-- The status is the one that the proposal comes with. -/
def createProposal (m : ProposalManager) (proposal : ActionProposal) : ProposalManager × String :=
  let id := proposal.proposalId
  ({ proposals := m.proposals.insert id proposal }, id)

def getProposal (m : ProposalManager) (proposalId : String) : Option ActionProposal :=
  m.proposals.get? proposalId

/-- Approval and rejection write their status over any other. -/
def recordDecision (m : ProposalManager) (proposalId : String) (status : ApprovalStatus)
    (decidedBy : String) (now : DateTime) : ProposalManager × Except String Unit :=
  match m.proposals.get? proposalId with
  | none => (m, .error "Proposal not found")
  | some proposal =>
    let proposal :=
      { proposal with
        approvalStatus := status
        decidedAt := some now
        decidedBy := some decidedBy }
    ({ proposals := m.proposals.insert proposalId proposal }, .ok ())

def approve (m : ProposalManager) (proposalId approvedBy : String) (now : DateTime) :
    ProposalManager × Except String Unit :=
  m.recordDecision proposalId .approved approvedBy now

def reject (m : ProposalManager) (proposalId rejectedBy : String) (now : DateTime) :
    ProposalManager × Except String Unit :=
  m.recordDecision proposalId .rejected rejectedBy now

def execute (m : ProposalManager) (proposalId : String) (now : DateTime) :
    ProposalManager × Except String Unit :=
  match m.proposals.get? proposalId with
  | none => (m, .error "Proposal not found")
  | some proposal =>
    if proposal.approvalStatus ≠ .approved then (m, .error "Proposal not approved")
    else
      let proposal :=
        { proposal with
          approvalStatus := .executed
          executionResult := some
            { success := true, output := "Action executed successfully", completedAt := now } }
      ({ proposals := m.proposals.insert proposalId proposal }, .ok ())

def pendingProposals (m : ProposalManager) (ord : IterOrder ActionProposal) :
    List ActionProposal :=
  (ord.order m.proposals.values).filter fun p => p.approvalStatus = .pending

/-- The pending proposals of consequential actions. -/
def requiresApproval (m : ProposalManager) (ord : IterOrder ActionProposal) :
    List ActionProposal :=
  (ord.order m.proposals.values).filter fun p =>
    p.approvalStatus = .pending ∧ (p.riskLevel = .medium ∨ p.riskLevel = .high ∨
      p.riskLevel = .critical)

/-- The pending proposals of routine actions. -/
def autonomousActions (m : ProposalManager) (ord : IterOrder ActionProposal) :
    List ActionProposal :=
  (ord.order m.proposals.values).filter fun p =>
    p.approvalStatus = .pending ∧ p.riskLevel = .low

end ProposalManager

/-! ### Calls -/

/-- The calls that change proposals, with the reading of the clock. -/
inductive ProposalCall
  | create (proposal : ActionProposal)
  | approve (proposalId approvedBy : String) (now : DateTime)
  | reject (proposalId rejectedBy : String) (now : DateTime)
  | execute (proposalId : String) (now : DateTime)
  deriving DecidableEq, Repr

namespace ProposalManager

def step (m : ProposalManager) : ProposalCall → ProposalManager
  | .create proposal => (m.createProposal proposal).1
  | .approve proposalId approvedBy now => (m.approve proposalId approvedBy now).1
  | .reject proposalId rejectedBy now => (m.reject proposalId rejectedBy now).1
  | .execute proposalId now => (m.execute proposalId now).1

/-- The status of a stored proposal. -/
def statusOf (m : ProposalManager) (proposalId : String) : Option ApprovalStatus :=
  (m.getProposal proposalId).map ActionProposal.approvalStatus

variable (m : ProposalManager) (id : String)

theorem statusOf_create (proposal : ActionProposal) :
    (m.step (.create proposal)).statusOf id =
      if proposal.proposalId = id then some proposal.approvalStatus else m.statusOf id := by
  simp only [step, createProposal, statusOf, getProposal, HashMap.get?_insert]
  by_cases h : proposal.proposalId = id
  · rw [if_pos h, if_pos h.symm, Option.map_some]
  · rw [if_neg h, if_neg (Ne.symm h)]

theorem statusOf_recordDecision (proposalId : String) (status : ApprovalStatus)
    (decidedBy : String) (now : DateTime) :
    (m.recordDecision proposalId status decidedBy now).1.statusOf id =
      if proposalId = id then (m.statusOf id).map fun _ => status else m.statusOf id := by
  unfold recordDecision
  by_cases h : proposalId = id
  · subst h
    rw [if_pos rfl]
    cases hget : m.proposals.get? proposalId with
    | none => simp [statusOf, getProposal, hget]
    | some proposal => simp [statusOf, getProposal, hget]
  · rw [if_neg h]
    cases m.proposals.get? proposalId with
    | none => rfl
    | some proposal => simp [statusOf, getProposal, Ne.symm h]

theorem isSome_statusOf_recordDecision (proposalId : String) (status : ApprovalStatus)
    (decidedBy : String) (now : DateTime) :
    ((m.recordDecision proposalId status decidedBy now).1.statusOf id).isSome =
      (m.statusOf id).isSome := by
  rw [statusOf_recordDecision]
  split
  · exact Option.isSome_map
  · rfl

theorem statusOf_execute (proposalId : String) (now : DateTime) :
    (m.step (.execute proposalId now)).statusOf id =
      if proposalId = id ∧ m.statusOf id = some .approved then some .executed
      else m.statusOf id := by
  simp only [step]
  unfold execute
  by_cases h : proposalId = id
  · subst h
    cases hget : m.proposals.get? proposalId with
    | none => simp [statusOf, getProposal, hget]
    | some proposal =>
      by_cases happroved : proposal.approvalStatus = .approved
      · simp [statusOf, getProposal, hget, happroved]
      · simp [statusOf, getProposal, hget, happroved]
  · rw [if_neg fun hand => h hand.1]
    cases m.proposals.get? proposalId with
    | none => rfl
    | some proposal =>
      by_cases happroved : proposal.approvalStatus = .approved
      · simp [statusOf, getProposal, happroved, Ne.symm h]
      · simp [happroved]

/-- Execution succeeds exactly on an approved proposal. -/
theorem execute_ok_iff (now : DateTime) :
    (m.execute id now).2 = .ok () ↔ m.statusOf id = some .approved := by
  unfold execute
  cases hget : m.proposals.get? id with
  | none => simp [statusOf, getProposal, hget]
  | some proposal =>
    by_cases happroved : proposal.approvalStatus = .approved
    · simp [statusOf, getProposal, hget, happroved]
    · simp [statusOf, getProposal, hget, happroved]

end ProposalManager

end GroundCore.Agent
