import GroundCore.Bitemporal.Provenance
import GroundCore.Lib.Pairs
import GroundCore.Lib.Double

/-! The comparison of the chains that two stations have of one pass.  It counts the pairs of links
that are close in time, so that a link with several counterparts counts several times. -/

namespace GroundCore.Bitemporal

open Lib

structure CrossVerificationResult where
  matchRate : Double
  bitemporalConsistency : Bool
  details : String
  deriving DecidableEq

/-- The arithmetic of `i32`; `none` is the panic of a result that does not fit. -/
def checkedI32 (n : ℤ) : Option ℤ := if -2 ^ 31 ≤ n ∧ n < 2 ^ 31 then some n else none

namespace ProvenanceVerifier

open ProvenanceChain

variable {Value : Type} (sha256 : List UInt8 → List UInt8)

/-- The whole milliseconds between the event times of two links. -/
def timeDiff (link1 link2 : ProvenanceLink Value) : ℤ :=
  |(link1.eventTime.time - link2.eventTime.time).tdiv 1000000|

/-- Event times match within a tenth of a second. -/
def closeInTime (link1 link2 : ProvenanceLink Value) : Bool := timeDiff link1 link2 < 100

/-- The two loops over the links. -/
def matchedLinks (links1 links2 : List (ProvenanceLink Value)) : Option ℤ :=
  links1.foldlM (fun matched link1 =>
    links2.foldlM (fun matched link2 =>
      if closeInTime link1 link2 then checkedI32 (matched + 1) else some matched) matched) 0

def matchRate (matched : ℤ) (totalLinks : ℕ) : Option Double :=
  if 0 < totalLinks then
    (checkedI32 (2 * matched)).map fun doubled : ℤ => .div (.finite doubled) (.round totalLinks)
  else some (.finite 0)

def crossVerifyChains (_verifier : ProvenanceVerifier) (chain1 chain2 : ProvenanceChain Value) :
    Option (Result CrossVerificationResult) :=
  if !chain1.verify sha256 || !chain2.verify sha256 then
    some (.ok ⟨.finite 0, false, "One or both chains invalid"⟩)
  else if chain1.satelliteId ≠ chain2.satelliteId then
    some (.ok ⟨.finite 0, false, "Different satellites"⟩)
  else do
    let matched ← matchedLinks chain1.links chain2.links
    let totalLinks := chain1.links.length + chain2.links.length
    let rate ← matchRate matched totalLinks
    some (.ok ⟨rate, Double.lt (.round 0.8) rate,
      s!"Matched {matched} of {totalLinks / 2} links"⟩)

/-! ### The loops -/

variable {sha256} {links1 links2 : List (ProvenanceLink Value)}

theorem checkedI32_of_lt {n : ℕ} (h : n < 2 ^ 31) : checkedI32 n = some (n : ℤ) :=
  if_pos ⟨by omega, by omega⟩

theorem checkedI32_of_le {n : ℕ} (h : 2 ^ 31 ≤ n) : checkedI32 n = none :=
  if_neg (by omega)

/-- A loop that adds a count for each element, until the sum is too great. -/
theorem foldlM_checkedI32 {α : Type} {step : ℤ → α → Option ℤ} {f : α → ℕ}
    (hstep : ∀ (n : ℕ) (a : α), n < 2 ^ 31 → step n a = checkedI32 (n + f a : ℕ)) (l : List α)
    {n : ℕ} (hn : n < 2 ^ 31) :
    l.foldlM step (n : ℤ) = checkedI32 (n + (l.map f).sum : ℕ) := by
  induction l generalizing n with
  | nil => exact (checkedI32_of_lt hn).symm
  | cons a l ih =>
    rw [List.foldlM_cons, hstep n a hn, List.map_cons, List.sum_cons, ← add_assoc]
    rcases lt_or_ge (n + f a) (2 ^ 31) with hlt | hge
    · rw [checkedI32_of_lt hlt]
      exact ih hlt
    · rw [checkedI32_of_le hge, checkedI32_of_le (hge.trans (Nat.le_add_right _ _))]
      rfl

/-- The inner loop counts the counterparts of a link. -/
theorem foldlM_closeInTime (n : ℕ) (link1 : ProvenanceLink Value) (hn : n < 2 ^ 31) :
    links2.foldlM (fun matched link2 =>
      if closeInTime link1 link2 then checkedI32 (matched + 1) else some matched) (n : ℤ) =
      checkedI32 (n + counterparts closeInTime links2 link1 : ℕ) := by
  rw [counterparts_eq_sum]
  refine foldlM_checkedI32 (fun n link2 hn => ?_) links2 hn
  split
  · push_cast
    rfl
  · exact (checkedI32_of_lt hn).symm

theorem matchedLinks_eq :
    matchedLinks links1 links2 = checkedI32 (pairCount closeInTime links1 links2 : ℕ) := by
  rw [← Nat.zero_add (pairCount _ _ _)]
  exact foldlM_checkedI32 foldlM_closeInTime links1 (by norm_num)

/-! ### The times -/

theorem abs_tdiv_lt_iff (d : ℤ) : |d.tdiv 1000000| < 100 ↔ |d| < 100 * 1000000 := by
  rw [abs_lt, abs_lt]
  rcases le_total 0 d with h | h
  · rw [Int.tdiv_eq_ediv_of_nonneg h]
    omega
  · have hneg : d.tdiv 1000000 = -(-d / 1000000) := by
      rw [← Int.tdiv_eq_ediv_of_nonneg (by omega), Int.neg_tdiv, neg_neg]
    rw [hneg]
    omega

/-- The event times are less than a tenth of a second apart. -/
abbrev Within (link1 link2 : ProvenanceLink Value) : Prop :=
  |link1.eventTime.time - link2.eventTime.time| < Duration.milliseconds 100

theorem closeInTime_iff {link1 link2 : ProvenanceLink Value} :
    closeInTime link1 link2 ↔ Within link1 link2 :=
  decide_eq_true_iff.trans (abs_tdiv_lt_iff _)

theorem flip_closeInTime : flip (closeInTime : ProvenanceLink Value → _) = closeInTime := by
  funext link1 link2
  rw [flip, Bool.eq_iff_iff, closeInTime_iff, closeInTime_iff, Within, abs_sub_comm]

theorem pairCount_closeInTime_comm :
    pairCount closeInTime links2 links1 = pairCount closeInTime links1 links2 := by
  rw [← pairCount_flip, flip_closeInTime]

/-! ### The rate -/

theorem matchRate_spec {matched totalLinks : ℕ} (hfit : matched < 2 ^ 30)
    (hempty : totalLinks = 0 → matched = 0) :
    ∃ rate, matchRate matched totalLinks = some (.finite rate) ∧ 0 ≤ rate ∧
      (rate ≤ 1 ↔ 2 * matched ≤ totalLinks) ∧
      (rate = 1 ↔ 0 < totalLinks ∧ 2 * matched = totalLinks) := by
  rcases Nat.eq_zero_or_pos totalLinks with rfl | hpos
  · refine ⟨0, rfl, le_rfl, ?_, ?_⟩
    · simp [hempty rfl]
    · simp
  · have hdoubled : checkedI32 (2 * matched) = some ((2 * matched : ℕ) : ℤ) := by
      rw [← checkedI32_of_lt (by omega)]
      push_cast
      rfl
    obtain ⟨rate, hrate, hnonneg, hle, hone⟩ :=
      Double.div_natCast (a := 2 * matched) (by omega) hpos
    refine ⟨rate, ?_, hnonneg, hle, ?_⟩
    · rw [matchRate, if_pos hpos, hdoubled, Option.map_some, Int.cast_natCast, hrate]
    · rw [hone]
      exact ⟨fun h => ⟨hpos, h⟩, And.right⟩

variable (verifier : ProvenanceVerifier) {chain1 chain2 : ProvenanceChain Value}

theorem crossVerifyChains_eq (hvalid1 : chain1.verify sha256) (hvalid2 : chain2.verify sha256)
    (hsatellite : chain1.satelliteId = chain2.satelliteId) :
    verifier.crossVerifyChains sha256 chain1 chain2 = (do
      let matched ← checkedI32 (pairCount closeInTime chain1.links chain2.links : ℕ)
      let totalLinks := chain1.links.length + chain2.links.length
      let rate ← matchRate matched totalLinks
      some (.ok ⟨rate, Double.lt (.round 0.8) rate,
        s!"Matched {matched} of {totalLinks / 2} links"⟩)) := by
  rw [crossVerifyChains, hvalid1, hvalid2, if_neg (by decide), if_neg (not_not.mpr hsatellite),
    matchedLinks_eq]

theorem crossVerifyChains_of_lt (hvalid1 : chain1.verify sha256) (hvalid2 : chain2.verify sha256)
    (hsatellite : chain1.satelliteId = chain2.satelliteId)
    (hfit : pairCount closeInTime chain1.links chain2.links < 2 ^ 30) :
    ∃ result rate, verifier.crossVerifyChains sha256 chain1 chain2 = some (.ok result) ∧
      result.matchRate = .finite rate ∧
      matchRate (pairCount closeInTime chain1.links chain2.links : ℕ)
        (chain1.links.length + chain2.links.length) = some (.finite rate) := by
  obtain ⟨rate, hrate, -⟩ := matchRate_spec hfit pairCount_of_length_eq_zero
  rw [crossVerifyChains_eq verifier hvalid1 hvalid2 hsatellite,
    checkedI32_of_lt (hfit.trans (by norm_num)), Option.bind_eq_bind, Option.bind_some]
  simp only [hrate]
  exact ⟨_, rate, rfl, rfl, rfl⟩

/-- Too many pairs are counted, or too many to be doubled. -/
theorem crossVerifyChains_of_le (hvalid1 : chain1.verify sha256) (hvalid2 : chain2.verify sha256)
    (hsatellite : chain1.satelliteId = chain2.satelliteId)
    (hfit : 2 ^ 30 ≤ pairCount closeInTime chain1.links chain2.links) :
    verifier.crossVerifyChains sha256 chain1 chain2 = none := by
  have hpos : 0 < chain1.links.length + chain2.links.length := by
    by_contra hzero
    rw [pairCount_of_length_eq_zero (Nat.eq_zero_of_not_pos hzero)] at hfit
    norm_num at hfit
  rw [crossVerifyChains_eq verifier hvalid1 hvalid2 hsatellite]
  rcases lt_or_ge (pairCount closeInTime chain1.links chain2.links) (2 ^ 31) with hlt | hge
  · have hdoubled : checkedI32 (2 * (pairCount closeInTime chain1.links chain2.links : ℕ)) = none :=
      if_neg (by omega)
    rw [checkedI32_of_lt hlt, Option.bind_eq_bind, Option.bind_some]
    simp only [matchRate, if_pos hpos, hdoubled]
    rfl
  · rw [checkedI32_of_le hge]
    rfl

/-- The rate of a comparison is a part of one whole, whichever chain comes first, and all of it only
if every link has a counterpart. -/
def RateReflects (sha256 : List UInt8 → List UInt8) (verifier : ProvenanceVerifier)
    (chain1 chain2 : ProvenanceChain Value) : Prop :=
  ∃ result result',
    verifier.crossVerifyChains sha256 chain1 chain2 = some (.ok result) ∧
    verifier.crossVerifyChains sha256 chain2 chain1 = some (.ok result') ∧
    (∃ rate, result.matchRate = .finite rate ∧ 0 ≤ rate ∧ rate ≤ 1) ∧
    result.matchRate = result'.matchRate ∧
    (result.matchRate = .finite 1 →
      (∀ link1 ∈ chain1.links, ∃ link2 ∈ chain2.links, Within link1 link2) ∧
      ∀ link2 ∈ chain2.links, ∃ link1 ∈ chain1.links, Within link1 link2)

/-- The rate is as promised exactly when links with several counterparts do not outweigh those with
none, and the pairs can be counted and doubled. -/
theorem rateReflects_iff (hvalid1 : chain1.verify sha256) (hvalid2 : chain2.verify sha256)
    (hsatellite : chain1.satelliteId = chain2.satelliteId) :
    RateReflects sha256 verifier chain1 chain2 ↔
      Sparse closeInTime chain1.links chain2.links ∧
        pairCount closeInTime chain1.links chain2.links < 2 ^ 30 := by
  rcases Nat.lt_or_ge (pairCount closeInTime chain1.links chain2.links) (2 ^ 30) with hfit | hfit
  · obtain ⟨result, rate, hresult, hfinite, hrate⟩ :=
      crossVerifyChains_of_lt verifier hvalid1 hvalid2 hsatellite hfit
    obtain ⟨result', rate', hresult', hfinite', hrate'⟩ :=
      crossVerifyChains_of_lt verifier hvalid2 hvalid1 hsatellite.symm
        (pairCount_closeInTime_comm.trans_lt hfit)
    have hsame : rate = rate' := by
      rw [pairCount_closeInTime_comm, add_comm, hrate] at hrate'
      simpa using hrate'
    obtain ⟨_, hrate₁, hnonneg, hle, hone⟩ := matchRate_spec hfit pairCount_of_length_eq_zero
    obtain rfl : rate = _ := by simpa using hrate.symm.trans hrate₁
    rw [sparse_iff]
    simp only [closeInTime_iff]
    constructor
    · rintro ⟨r, -, hr, -, ⟨rate₀, hrate₀, -, hrate₀_le⟩, -, hall⟩
      obtain rfl : result = r := by simpa using hresult.symm.trans hr
      obtain rfl : rate = rate₀ := by simpa using hfinite.symm.trans hrate₀
      refine ⟨⟨hle.mp hrate₀_le, fun hwhole => ?_⟩, hfit⟩
      rcases Nat.eq_zero_or_pos (chain1.links.length + chain2.links.length) with hzero | hpos
      · have hnil := Nat.add_eq_zero_iff.mp hzero
        simp [List.eq_nil_of_length_eq_zero hnil.1, List.eq_nil_of_length_eq_zero hnil.2]
      · exact hall (by rw [hfinite, hone.mpr ⟨hpos, hwhole⟩])
    · rintro ⟨⟨hfew, hall⟩, -⟩
      refine ⟨result, result', hresult, hresult', ⟨rate, hfinite, hnonneg, hle.mpr hfew⟩,
        by rw [hfinite, hfinite', hsame], fun hwhole => hall ?_⟩
      exact (hone.mp (by simpa using hfinite.symm.trans hwhole)).2
  · refine iff_of_false ?_ fun h => absurd h.2 (not_lt.mpr hfit)
    rintro ⟨result, -, hresult, -⟩
    rw [crossVerifyChains_of_le verifier hvalid1 hvalid2 hsatellite hfit] at hresult
    contradiction

/-! ### Two stations -/

/-- A second demodulation, after the first. -/
def redemodulated : ProvenanceLink Unit :=
  { demodulated Lib.sha256 9 with previousHash := some (demodulated Lib.sha256 8).hash }

/-- A chain of two links with one event time. -/
def redemodulation : ProvenanceChain Unit :=
  recomputeChainHash Lib.sha256
    { passId := "pass-1"
      satelliteId := "sat-1"
      stationId := "station-1"
      links := [demodulated Lib.sha256 8, redemodulated]
      chainHash := "" }

theorem verify_demodulation (bitsDecoded : UInt64) :
    (demodulation Lib.sha256 bitsDecoded).verify Lib.sha256 :=
  ((built_demodulation Lib.sha256 bitsDecoded).verify_iff rfl).mpr rfl

theorem verify_redemodulation : redemodulation.verify Lib.sha256 := by
  have hlinked : linked none redemodulation.links := linked_iff.mpr ⟨rfl, rfl, trivial⟩
  rw [verify, hlinked, Bool.true_and]
  exact beq_self_eq_true _

/-- One link in each chain, at one time. -/
theorem single_links_reflected :
    RateReflects Lib.sha256 ⟨∅⟩ (demodulation Lib.sha256 8) (demodulation Lib.sha256 9) :=
  (rateReflects_iff ⟨∅⟩ (verify_demodulation 8) (verify_demodulation 9) rfl).mpr
    ⟨by decide +kernel, by decide +kernel⟩

/-- Two links of one chain that both match the only link of the other make a rate of four thirds. -/
theorem two_links_match_one :
    ¬ ∀ (sha256 : List UInt8 → List UInt8) (verifier : ProvenanceVerifier)
      (chain1 chain2 : ProvenanceChain Unit), chain1.verify sha256 → chain2.verify sha256 →
        chain1.satelliteId = chain2.satelliteId → RateReflects sha256 verifier chain1 chain2 := by
  intro h
  obtain ⟨result, -, hresult, -, ⟨rate, hrate, -, hle⟩, -⟩ := h Lib.sha256 ⟨∅⟩ redemodulation
    (demodulation Lib.sha256 8) verify_redemodulation (verify_demodulation 8) rfl
  have hfit : pairCount closeInTime redemodulation.links (demodulation Lib.sha256 8).links <
      2 ^ 30 := by decide +kernel
  obtain ⟨result', rate', hresult', hrate', hquotient⟩ :=
    crossVerifyChains_of_lt ⟨∅⟩ verify_redemodulation (verify_demodulation 8) rfl hfit
  obtain rfl : result = result' := by simpa using hresult.symm.trans hresult'
  obtain rfl : rate = rate' := by simpa using hrate.symm.trans hrate'
  obtain ⟨rate₁, hrate₁, -, hle₁, -⟩ := matchRate_spec hfit pairCount_of_length_eq_zero
  obtain rfl : rate = rate₁ := by simpa using hquotient.symm.trans hrate₁
  exact absurd (hle₁.mp hle) (by decide +kernel)

end ProvenanceVerifier

end GroundCore.Bitemporal
