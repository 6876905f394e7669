import GroundCore.Core.Types
import GroundCore.Federation.Verification

/-! What the checks of a bitemporal proof let through.  Spans are compared in whole seconds, which
are rounded toward zero, and the last sample is not checked for causality. -/

namespace GroundCore.Federation.AttestationVerification

open Duration

/-- What the comment on the check lists, of both ends of the pass. -/
structure Plausible (proof : BitemporalProof) : Prop where
  events : proof.firstEventTime ≤ proof.lastEventTime
  receptions : proof.firstReceptionTime ≤ proof.lastReceptionTime
  firstCausal : proof.firstEventTime ≤ proof.firstReceptionTime
  lastCausal : proof.lastEventTime ≤ proof.lastReceptionTime
  duration : proof.lastEventTime - proof.firstEventTime ≤ seconds maxPassDurationSecs
  samples : 1 ≤ proof.sampleCount

/-- The windows of the events overlap, or the gap between them is at most the drift. -/
def WithinDrift (peer «local» : BitemporalProof) : Prop :=
  «local».firstEventTime - peer.lastEventTime ≤ milliseconds maxBitemporalDriftMs ∧
    peer.firstEventTime - «local».lastEventTime ≤ milliseconds maxBitemporalDriftMs

/-- A span that rounding toward zero takes for one that is not negative. -/
def RoundsToZero (span : Duration) : Prop := -seconds 1 < span ∧ span < 0

/-- A span that rounding toward zero takes for the longest pass. -/
def RoundsToLongest (span : Duration) : Prop :=
  seconds maxPassDurationSecs < span ∧ span < seconds (maxPassDurationSecs + 1)

/-- One of the checks is missed by less than a second, or the last sample is received before it is
emitted, and all else is in order. -/
def Slips (proof : BitemporalProof) : Prop :=
  let eventSpan : Duration := proof.lastEventTime - proof.firstEventTime
  let receptionSpan : Duration := proof.lastReceptionTime - proof.firstReceptionTime
  (proof.firstEventTime ≤ proof.firstReceptionTime ∧ 1 ≤ proof.sampleCount) ∧
    (RoundsToZero eventSpan ∨ 0 ≤ eventSpan ∧ eventSpan ≤ seconds maxPassDurationSecs ∨
      RoundsToLongest eventSpan) ∧
    (RoundsToZero receptionSpan ∨ 0 ≤ receptionSpan) ∧
    (RoundsToZero eventSpan ∨ RoundsToLongest eventSpan ∨ RoundsToZero receptionSpan ∨
      proof.lastReceptionTime < proof.lastEventTime)

/-- The check in terms of the times. -/
theorem proofInternallyConsistent_iff {proof : BitemporalProof} :
    proofInternallyConsistent proof = true ↔
      (-seconds 1 < proof.lastEventTime - proof.firstEventTime ∧
        proof.lastEventTime - proof.firstEventTime < seconds (maxPassDurationSecs + 1)) ∧
      -seconds 1 < proof.lastReceptionTime - proof.firstReceptionTime ∧
      proof.firstEventTime ≤ proof.firstReceptionTime ∧ 1 ≤ proof.sampleCount := by
  have hevent : proofInternallyConsistent proof = true ↔
      (((0 ≤ numSeconds (proof.lastEventTime - proof.firstEventTime) ∧
        0 ≤ numSeconds (proof.lastReceptionTime - proof.firstReceptionTime)) ∧
        proof.firstEventTime ≤ proof.firstReceptionTime) ∧
        numSeconds (proof.lastEventTime - proof.firstEventTime) ≤ maxPassDurationSecs) ∧
        1 ≤ proof.sampleCount := by
    simp only [proofInternallyConsistent, Bool.and_eq_true, decide_eq_true_eq]
    rfl
  rw [hevent, numSeconds_nonneg_iff, numSeconds_nonneg_iff, numSeconds_le_iff (by decide)]
  tauto

theorem of_checkBitemporalConsistency {peer «local» : BitemporalProof}
    (h : checkBitemporalConsistency (some peer) (some «local») = true) :
    proofInternallyConsistent peer = true ∧ WithinDrift peer «local» := by
  simp only [checkBitemporalConsistency] at h
  cases hconsistent : proofInternallyConsistent peer with
  | false => simp [hconsistent] at h
  | true =>
    simp only [hconsistent, Bool.not_true, Bool.false_eq_true, if_false] at h
    rw [Bool.not_eq_true', Bool.or_eq_false_iff, decide_eq_false_iff_not,
      decide_eq_false_iff_not, not_lt, not_lt] at h
    obtain ⟨hpeer, hlocal⟩ := h
    exact ⟨rfl, by linarith, by linarith⟩

theorem consistent_of_slips {proof : BitemporalProof} (h : Slips proof) :
    proofInternallyConsistent proof = true := by
  obtain ⟨⟨hcausal, hsamples⟩, hevent, hreception, -⟩ := h
  simp only [RoundsToZero, RoundsToLongest, seconds, maxPassDurationSecs] at hevent hreception
  rw [proofInternallyConsistent_iff]
  simp only [seconds, maxPassDurationSecs]
  refine ⟨⟨?_, ?_⟩, ?_, hcausal, hsamples⟩
  · rcases hevent with h | h | h <;> linarith
  · rcases hevent with h | h | h <;> linarith
  · rcases hreception with h | h <;> linarith

theorem not_plausible_of_slips {proof : BitemporalProof} (h : Slips proof) :
    ¬ Plausible proof := by
  intro hsound
  obtain ⟨hevents, hreceptions, -, hcausal, hduration, -⟩ := hsound
  obtain ⟨-, -, -, hzero | hlongest | hzero | hlast⟩ := h
  · exact absurd hzero.2 (not_lt.mpr (sub_nonneg.mpr hevents))
  · exact absurd hlongest.1 (not_lt.mpr hduration)
  · exact absurd hzero.2 (not_lt.mpr (sub_nonneg.mpr hreceptions))
  · exact absurd hlast (not_lt.mpr hcausal)

theorem plausible_of_not_slips {proof : BitemporalProof} (h : ¬ Slips proof)
    (hconsistent : proofInternallyConsistent proof = true) : Plausible proof := by
  obtain ⟨⟨hlow, hhigh⟩, hreception, hcausal, hsamples⟩ :=
    proofInternallyConsistent_iff.mp hconsistent
  have hevent : RoundsToZero (proof.lastEventTime - proof.firstEventTime) ∨
      0 ≤ proof.lastEventTime - proof.firstEventTime ∧
        proof.lastEventTime - proof.firstEventTime ≤ seconds maxPassDurationSecs ∨
      RoundsToLongest (proof.lastEventTime - proof.firstEventTime) := by
    rcases lt_or_ge (proof.lastEventTime - proof.firstEventTime) 0 with hneg | hnonneg
    · exact .inl ⟨hlow, hneg⟩
    · rcases le_or_gt (proof.lastEventTime - proof.firstEventTime)
        (seconds maxPassDurationSecs) with hle | hgt
      · exact .inr (.inl ⟨hnonneg, hle⟩)
      · exact .inr (.inr ⟨hgt, hhigh⟩)
  have hspan : RoundsToZero (proof.lastReceptionTime - proof.firstReceptionTime) ∨
      0 ≤ proof.lastReceptionTime - proof.firstReceptionTime := by
    rcases lt_or_ge (proof.lastReceptionTime - proof.firstReceptionTime) 0 with hneg | hnonneg
    · exact .inl ⟨hreception, hneg⟩
    · exact .inr hnonneg
  have hnone : ¬ (RoundsToZero (proof.lastEventTime - proof.firstEventTime) ∨
      RoundsToLongest (proof.lastEventTime - proof.firstEventTime) ∨
      RoundsToZero (proof.lastReceptionTime - proof.firstReceptionTime) ∨
      proof.lastReceptionTime < proof.lastEventTime) :=
    fun hslip => h ⟨⟨hcausal, hsamples⟩, hevent, hspan, hslip⟩
  rw [not_or, not_or, not_or] at hnone
  obtain ⟨hzero, hlongest, hzero', hlast⟩ := hnone
  obtain ⟨hnonneg, hle⟩ := (hevent.resolve_left hzero).resolve_right hlongest
  exact ⟨sub_nonneg.mp hnonneg, sub_nonneg.mp (hspan.resolve_left hzero'), hcausal,
    not_lt.mp hlast, hle, hsamples⟩

/-- A proof that passes the checks is plausible, and near the local one that it is compared with,
exactly unless it slips through the checks. -/
theorem plausible_iff_not_slips (proof : BitemporalProof) :
    ((proofInternallyConsistent proof = true → Plausible proof) ∧
      ∀ «local», checkBitemporalConsistency (some proof) (some «local») = true →
        Plausible proof ∧ WithinDrift proof «local») ↔ ¬ Slips proof := by
  constructor
  · rintro ⟨hsound, -⟩ hslips
    exact not_plausible_of_slips hslips (hsound (consistent_of_slips hslips))
  · intro hslips
    refine ⟨plausible_of_not_slips hslips, fun «local» hcheck => ?_⟩
    obtain ⟨hconsistent, hdrift⟩ := of_checkBitemporalConsistency hcheck
    exact ⟨plausible_of_not_slips hslips hconsistent, hdrift⟩

/-- The events run backwards by half a second, and the last sample is received before it is
emitted. -/
def hasty : BitemporalProof :=
  { firstEventTime := milliseconds 500, firstReceptionTime := milliseconds 500
    lastEventTime := 0, lastReceptionTime := -milliseconds 100, sampleCount := 1 }

/-- Both proofs pass the checks, and neither is plausible. -/
theorem implausible_accepted :
    (proofInternallyConsistent hasty = true ∧ ¬ hasty.firstEventTime ≤ hasty.lastEventTime ∧
      ¬ hasty.firstReceptionTime ≤ hasty.lastReceptionTime ∧
      ¬ hasty.lastEventTime ≤ hasty.lastReceptionTime) ∧
    ¬ ∀ proof, proofInternallyConsistent proof = true → Plausible proof := by
  have hconsistent : proofInternallyConsistent hasty = true := by decide
  have hevents : ¬ hasty.firstEventTime ≤ hasty.lastEventTime := by decide
  exact ⟨⟨hconsistent, hevents, by decide, by decide⟩,
    fun h => hevents (h hasty hconsistent).events⟩

end GroundCore.Federation.AttestationVerification
