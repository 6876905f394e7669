import GroundCore.Lib.Run
import GroundCore.Oisl.Federation.Plane

/-! Runs of the federation plane that add peers and links.  The policy of a peer limits the number
of links to it, which no check compares with the links that there are. -/

namespace GroundCore.Oisl.Federation

open Lib

inductive LinkCall
  | addPeer (peer : FederationPeer)
  | establishLink (localTerminal peerTerminal : TerminalId) (peerOperator : OperatorId)
      (agreement : RevenueAgreement) (clock : AttestationClock) (linkId : LinkId)

/-- The checks of `establishLink` let a peer pass. -/
def FederationPeer.Passes (peer : FederationPeer) : Prop :=
  peer.trustScore.isLow = false ∧ peer.federationPolicy.allowsCrossOperatorLinks = true

namespace FederationPlane

def linkStep (plane : FederationPlane) : LinkCall → FederationPlane
  | .addPeer peer => plane.addPeer peer
  | .establishLink localTerminal peerTerminal peerOperator agreement clock linkId =>
    (plane.establishLink localTerminal peerTerminal peerOperator agreement clock linkId).1

/-- The number of links to a peer. -/
def linksWith (plane : FederationPlane) (operatorId : OperatorId) : ℕ :=
  plane.crossOperatorLinks.countP fun link => link.peerOperator = operatorId

/-- No peer has more links than its policy allows at a time. -/
def WithinLimits (plane : FederationPlane) : Prop :=
  ∀ operatorId peer, plane.federationPeers.get? operatorId = some peer →
    plane.linksWith operatorId ≤ peer.federationPolicy.maxConcurrentLinks

/-- What an attempt at a link promises: a link goes to a trusted peer whose policy allows links, and
a failure leaves the links as they are. -/
def Vetted (plane : FederationPlane) : LinkCall → Prop
  | .addPeer _ => True
  | .establishLink localTerminal peerTerminal peerOperator agreement clock linkId =>
    match plane.establishLink localTerminal peerTerminal peerOperator agreement clock linkId with
    | (_, .ok _) => ∃ peer, plane.federationPeers.get? peerOperator = some peer ∧
        peer.trustScore.AtLeastHalf ∧ peer.federationPolicy.allowsCrossOperatorLinks = true
    | (after, .error _) => after.crossOperatorLinks = plane.crossOperatorLinks

/-- The call keeps within the limits and what it promises. -/
def Upholds (plane : FederationPlane) (call : LinkCall) : Prop :=
  (plane.linkStep call).WithinLimits ∧ plane.Vetted call

/-- A peer comes with a limit that its links keep to, and a link to a peer that passes the checks
finds room under the limit and a score that is a number. -/
def Limited (plane : FederationPlane) : LinkCall → Prop
  | .addPeer peer =>
    plane.linksWith peer.operatorId ≤ peer.federationPolicy.maxConcurrentLinks
  | .establishLink _ _ peerOperator _ _ _ =>
    ∀ peer, plane.federationPeers.get? peerOperator = some peer → peer.Passes →
      peer.trustScore.value.isSome ∧
        plane.linksWith peerOperator < peer.federationPolicy.maxConcurrentLinks

variable {plane : FederationPlane}

/-- An attempt at a link fails for a peer that is not known or does not pass, and changes nothing,
or it adds one link. -/
theorem establishLink_cases (plane : FederationPlane) (localTerminal peerTerminal : TerminalId)
    (peerOperator : OperatorId) (agreement : RevenueAgreement) (clock : AttestationClock)
    (linkId : LinkId) :
    (∃ e, plane.establishLink localTerminal peerTerminal peerOperator agreement clock linkId =
        (plane, .error e) ∧
      ∀ peer, plane.federationPeers.get? peerOperator = some peer → ¬ peer.Passes) ∨
    ∃ peer after, plane.federationPeers.get? peerOperator = some peer ∧ peer.Passes ∧
      plane.establishLink localTerminal peerTerminal peerOperator agreement clock linkId =
        (after, .ok linkId) ∧
      after.federationPeers = plane.federationPeers ∧
      ∃ link, link.peerOperator = peerOperator ∧
        after.crossOperatorLinks = plane.crossOperatorLinks ++ [link] := by
  unfold establishLink FederationPeer.Passes
  cases hget : plane.federationPeers.get? peerOperator with
  | none => exact .inl ⟨_, rfl, fun _ hpeer => nomatch hpeer⟩
  | some peer =>
    cases hlow : peer.trustScore.isLow with
    | true =>
      refine .inl ⟨.insufficientTrust peerOperator peer.trustScore, by simp [hlow], ?_⟩
      rintro _ ⟨⟩
      simp [hlow]
    | false =>
      cases hallows : peer.federationPolicy.allowsCrossOperatorLinks with
      | false =>
        refine .inl ⟨.policyViolation peerOperator
          "Peer policy does not allow cross-operator links", by simp [hlow, hallows], ?_⟩
        rintro _ ⟨⟩
        simp [hallows]
      | true =>
        simp only [hlow, hallows, Bool.not_true, Bool.false_eq_true, if_false]
        exact .inr ⟨peer, _, rfl, ⟨hlow, hallows⟩, rfl, rfl, _, rfl, rfl⟩

theorem withinLimits_addPeer_iff (h : plane.WithinLimits) (peer : FederationPeer) :
    (plane.addPeer peer).WithinLimits ↔
      plane.linksWith peer.operatorId ≤ peer.federationPolicy.maxConcurrentLinks := by
  constructor
  · intro hafter
    exact hafter peer.operatorId peer ((HashMap.get?_insert _ _ _ _).trans (if_pos rfl))
  · intro hroom operatorId peer' hget
    have hget' : (if operatorId = peer.operatorId then some peer
        else plane.federationPeers.get? operatorId) = some peer' :=
      (HashMap.get?_insert _ _ _ _).symm.trans hget
    split at hget'
    · next heq =>
      obtain rfl := Option.some.inj hget'
      rw [heq]
      exact hroom
    · exact h operatorId peer' hget'

theorem linksWith_of_append {after : FederationPlane} {link : CrossOperatorLink}
    (h : after.crossOperatorLinks = plane.crossOperatorLinks ++ [link])
    (operatorId : OperatorId) :
    after.linksWith operatorId =
      plane.linksWith operatorId + if link.peerOperator = operatorId then 1 else 0 := by
  simp [linksWith, h, List.countP_append, List.countP_singleton]

theorem upholds_iff_limited (h : plane.WithinLimits) (call : LinkCall) :
    plane.Upholds call ↔ plane.Limited call := by
  cases call with
  | addPeer peer => exact (and_iff_left trivial).trans (withinLimits_addPeer_iff h peer)
  | establishLink localTerminal peerTerminal peerOperator agreement clock linkId =>
    simp only [Upholds, Vetted, Limited, linkStep]
    rcases plane.establishLink_cases localTerminal peerTerminal peerOperator agreement clock
        linkId with ⟨e, hrun, hfails⟩ | ⟨peer, after, hget, hpasses, hrun, hpeers, link, hlink,
          hlinks⟩ <;> rw [hrun]
    · exact ⟨fun _ peer hget hpasses => absurd hpasses (hfails peer hget), fun _ => ⟨h, rfl⟩⟩
    · have hcount := linksWith_of_append hlinks
      constructor
      · rintro ⟨hafter, peer', hget', htrust, -⟩ _ hget'' -
        have hroom := hafter peerOperator peer (hpeers ▸ hget)
        rw [hcount, if_pos hlink] at hroom
        obtain rfl := Option.some.inj (hget.symm.trans hget')
        obtain rfl := Option.some.inj (hget.symm.trans hget'')
        exact ⟨(TrustScore.atLeastHalf_iff.mp htrust).2, hroom⟩
      · intro hlimited
        obtain ⟨hnumber, hroom⟩ := hlimited peer hget hpasses
        refine ⟨?_, peer, hget, TrustScore.atLeastHalf_iff.mpr ⟨hpasses.1, hnumber⟩, hpasses.2⟩
        intro operatorId peer' hget'
        rw [hpeers] at hget'
        rw [hcount]
        split
        · next heq =>
          obtain rfl : peerOperator = operatorId := hlink.symm.trans heq
          obtain rfl := Option.some.inj (hget.symm.trans hget')
          exact hroom
        · exact h operatorId peer' hget'

/-- The calls of a run keep to the limits and to what they promise exactly when each comes with room
under the limit of its peer, and each link with a score that is a number. -/
theorem limits_upheld_iff (calls : List LinkCall) :
    Along linkStep Upholds new calls ↔ Along linkStep Limited new calls :=
  along_congr (I := WithinLimits) (fun _ call h => upholds_iff_limited h call)
    (fun _ _ _ hcall => hcall.1) fun _ _ hget => nomatch hget

def relayPeer : FederationPeer :=
  { operatorId := "spire"
    trustScore := .num (9 / 10)
    federationPolicy := { FederationPolicy.default with maxConcurrentLinks := 1 } }

def relayLink (linkId : LinkId) : LinkCall :=
  .establishLink 1 2 "spire" ⟨50, 50, 30, "agreement"⟩ ⟨0, 0, 0⟩ linkId

/-- A second link to a peer that allows one. -/
theorem second_link_established : ¬ ∀ calls, (run linkStep new calls).WithinLimits := by
  intro hall
  have h := hall [.addPeer relayPeer, relayLink 1, relayLink 2] "spire" relayPeer (by decide +kernel)
  exact absurd h (by decide +kernel)

end FederationPlane

end GroundCore.Oisl.Federation
