import Mathlib
import GroundCore.Lib.Angles

/-! The scintillation of an optical link as a distribution of its signal-to-noise ratio.
Floating-point numbers are read as real numbers.  Stronger turbulence widens the distribution only
up to a peak: beyond it the aperture averages more away than the turbulence adds. -/

namespace GroundCore.Optical.Link

open Lib Angles Real

noncomputable section

structure AtmosphericSite where
  cn2 : ℝ
  pathLengthM : ℝ
  wavelengthM : ℝ
  apertureDiameterM : ℝ
  windSpeedMPerS : ℝ

namespace AtmosphericSite

def typicalRooftop (wavelengthM apertureDiameterM : ℝ) : AtmosphericSite :=
  { cn2 := 1e-14
    pathLengthM := 20000.0 / sin (toRadians 30.0)
    wavelengthM
    apertureDiameterM
    windSpeedMPerS := 10.0 }

def excellentSite (wavelengthM apertureDiameterM : ℝ) : AtmosphericSite :=
  { cn2 := 5e-16
    pathLengthM := 20000.0 / sin (toRadians 30.0)
    wavelengthM
    apertureDiameterM
    windSpeedMPerS := 7.0 }

def atElevation (cn2 elevationDeg wavelengthM apertureDiameterM windSpeedMPerS : ℝ) :
    AtmosphericSite :=
  let hTurbM := 20000.0
  let pathLengthM := hTurbM / max (sin (toRadians elevationDeg)) 0.01
  { cn2, pathLengthM, wavelengthM, apertureDiameterM, windSpeedMPerS }

end AtmosphericSite

inductive ScintillationSeverity
  | weak
  | moderate
  | strong
  | saturated

open Classical in
def ScintillationSeverity.fromRytov (sigmaRSq : ℝ) : ScintillationSeverity :=
  if sigmaRSq < 0.1 then .weak
  else if sigmaRSq < 0.3 then .moderate
  else if sigmaRSq < 1.0 then .strong
  else .saturated

structure SnrDistribution where
  nominalSnrDb : ℝ
  scintillationStdDevDb : ℝ
  rytovVariance : ℝ
  severity : ScintillationSeverity
  apertureAveragingFactor : ℝ
  fadeCoherenceTimeS : ℝ

/-! ### The model -/

namespace ScintillationModel

def rytovVariance (site : AtmosphericSite) : ℝ :=
  let k := 2.0 * π / site.wavelengthM
  1.23 * site.cn2 * k ^ (7.0 / 6.0 : ℝ) * site.pathLengthM ^ (11.0 / 6.0 : ℝ)

def friedParameter (site : AtmosphericSite) : ℝ :=
  let k := 2.0 * π / site.wavelengthM
  (0.423 * k * k * site.cn2 * site.pathLengthM) ^ (-3.0 / 5.0 : ℝ)

def apertureAveragingFactor (site : AtmosphericSite) : ℝ :=
  let r0 := friedParameter site
  let ratio := site.apertureDiameterM / r0
  (1.0 + 1.062 * ratio ^ (5.0 / 3.0 : ℝ)) ^ (-6.0 / 5.0 : ℝ)

def fadeCoherenceTime (site : AtmosphericSite) : ℝ :=
  let r0 := friedParameter site
  0.314 * r0 / max site.windSpeedMPerS 0.1

def scintillationStdDevDb (site : AtmosphericSite) : ℝ :=
  let sigmaRSq := rytovVariance site
  let a := apertureAveragingFactor site
  let sigmaIEff := a * min sigmaRSq 1.0
  let logVariance := log (1.0 + sigmaIEff)
  10.0 / log 10.0 * √logVariance

def snrDistribution (site : AtmosphericSite) (nominalSnrDb : ℝ) : SnrDistribution :=
  let rytov := rytovVariance site
  { nominalSnrDb
    scintillationStdDevDb := scintillationStdDevDb site
    rytovVariance := rytov
    severity := .fromRytov rytov
    apertureAveragingFactor := apertureAveragingFactor site
    fadeCoherenceTimeS := fadeCoherenceTime site }

end ScintillationModel

/-! ### The distribution -/

/-- Rational approximation to the normal CDF Φ(x). -/
def normalCdf (x : ℝ) : ℝ :=
  let t := 1.0 / (1.0 + 0.2316419 * |x|)
  let poly := t * (0.319381530 + t * (-0.356563782 + t * (1.781477937 + t * (-1.821255978 +
    t * 1.330274429))))
  let pdf := exp (-0.5 * x * x) / √(2.0 * π)
  let cdf := 1.0 - pdf * poly
  open Classical in if 0 ≤ x then cdf else 1.0 - cdf

/-- Rational approximation to the probit. -/
def probit (p : ℝ) : ℝ :=
  open Classical in
  let sign := if p < 0.5 then -1.0 else 1.0
  let q := min p (1.0 - p)
  let t := √(-2.0 * log q)
  let numerator := 2.515517 + 0.802853 * t + 0.010328 * t * t
  let denominator := 1.0 + 1.432788 * t + 0.189269 * t * t + 0.001308 * t * t * t
  sign * (t - numerator / denominator)

namespace SnrDistribution

variable (d : SnrDistribution)

def percentileDb (p : ℝ) : ℝ :=
  let p := max 1e-6 (min p (1.0 - 1e-6))
  let z := probit p
  d.nominalSnrDb + z * d.scintillationStdDevDb

def p10Db : ℝ := d.percentileDb 0.10

def p50Db : ℝ := d.percentileDb 0.50

def p90Db : ℝ := d.percentileDb 0.90

open Classical in
def availabilityAtThreshold (thresholdDb : ℝ) : ℝ :=
  if d.scintillationStdDevDb < 1e-9 then
    if thresholdDb ≤ d.nominalSnrDb then 1.0 else 0.0
  else
    let margin := (d.nominalSnrDb - thresholdDb) / d.scintillationStdDevDb
    normalCdf margin

open Classical in
def expectedFadeDurationS (thresholdDb : ℝ) : ℝ :=
  let pAvail := d.availabilityAtThreshold thresholdDb
  if 1.0 - 1e-9 ≤ pAvail then 0.0
  else
    let pFade := 1.0 - pAvail
    d.fadeCoherenceTimeS * pFade / max pAvail 1e-9

def apertureDiversityBeneficial : Bool :=
  match d.severity with
  | .strong | .saturated => true
  | _ => false

end SnrDistribution

/-! ### Averaging by the aperture -/

section Averaging

variable {load : ℝ}

/-- The part of a variance that grows with `x` that is left when the averaging grows as well. -/
def averaged (load x : ℝ) : ℝ := x * (1 + load * x) ^ (-6.0 / 5.0 : ℝ)

theorem averaged_eq (load : ℝ) :
    averaged load = fun x => x * (1 + load * x) ^ (-6 / 5 : ℝ) := by
  have hexp : (-6.0 / 5.0 : ℝ) = -6 / 5 := by norm_num
  rw [← hexp]
  rfl

theorem hasDerivAt_averaged (hload : 0 < load) {x : ℝ} (hx : 0 ≤ x) :
    HasDerivAt (averaged load) ((1 + load * x) ^ (-11 / 5 : ℝ) * (1 - load * x / 5)) x := by
  have hpos : 0 < 1 + load * x := by positivity
  have hbase : HasDerivAt (fun x => 1 + load * x) load x := by
    simpa using ((hasDerivAt_id x).const_mul load).const_add 1
  have hpow := hbase.rpow_const (p := -6 / 5) (Or.inl hpos.ne')
  have hsplit : (1 + load * x) ^ (-6 / 5 : ℝ) =
      (1 + load * x) ^ (-11 / 5 : ℝ) * (1 + load * x) := by
    rw [← rpow_add_one hpos.ne']
    norm_num
  have hexp : (-6 / 5 - 1 : ℝ) = -11 / 5 := by norm_num
  rw [averaged_eq]
  refine ((hasDerivAt_id x).mul hpow).congr_deriv ?_
  rw [hexp, hsplit]
  simp only [id]
  ring

/-- The averaging wins from where it makes a factor of six. -/
theorem averaged_strictMonoOn (hload : 0 < load) :
    StrictMonoOn (averaged load) (Set.Icc 0 (5 / load)) := by
  apply strictMonoOn_of_hasDerivWithinAt_pos (convex_Icc _ _)
  · intro x hx
    exact (hasDerivAt_averaged hload hx.1).continuousAt.continuousWithinAt
  · intro x hx
    rw [interior_Icc] at hx
    exact (hasDerivAt_averaged hload hx.1.le).hasDerivWithinAt
  · intro x hx
    rw [interior_Icc] at hx
    have hfive : load * x < 5 := by
      rw [mul_comm]
      exact (lt_div_iff₀ hload).mp hx.2
    have hbase : 0 < 1 + load * x := by
      have := mul_pos hload hx.1
      linarith
    exact mul_pos (rpow_pos_of_pos hbase _) (by linarith)

theorem averaged_strictAntiOn (hload : 0 < load) :
    StrictAntiOn (averaged load) (Set.Ici (5 / load)) := by
  have hpos : ∀ x ∈ Set.Ici (5 / load), 0 ≤ x := fun x hx => (by positivity : 0 ≤ 5 / load).trans hx
  apply strictAntiOn_of_hasDerivWithinAt_neg (convex_Ici _)
  · intro x hx
    exact (hasDerivAt_averaged hload (hpos x hx)).continuousAt.continuousWithinAt
  · intro x hx
    exact (hasDerivAt_averaged hload (hpos x (interior_subset hx))).hasDerivWithinAt
  · intro x hx
    have hx0 := hpos x (interior_subset hx)
    rw [interior_Ici] at hx
    have hfive : 5 < load * x := by
      rw [mul_comm]
      exact (div_lt_iff₀ hload).mp hx
    have hbase : 0 < 1 + load * x := by linarith
    exact mul_neg_of_pos_of_neg (rpow_pos_of_pos hbase _) (by linarith)

theorem averaging_strictAntiOn (hload : 0 < load) :
    StrictAntiOn (fun x => (1 + load * x) ^ (-6 / 5 : ℝ)) (Set.Ici 0) := by
  intro x hx y hy hxy
  have hx0 : 0 ≤ x := hx
  have hlt : 1 + load * x < 1 + load * y := by linarith [mul_lt_mul_of_pos_left hxy hload]
  exact rpow_lt_rpow_of_neg (by positivity) hlt (by norm_num)

/-- What is left of a variance that saturates at one. -/
def residual (slope load x : ℝ) : ℝ := (1 + load * x) ^ (-6.0 / 5.0 : ℝ) * min (slope * x) 1

variable {slope : ℝ}

theorem residual_eq (slope load x : ℝ) :
    residual slope load x = (1 + load * x) ^ (-6 / 5 : ℝ) * min (slope * x) 1 := by
  have hexp : (-6.0 / 5.0 : ℝ) = -6 / 5 := by norm_num
  rw [← hexp]
  rfl

theorem residual_of_le (hslope : 0 < slope) {x : ℝ} (hx : x ≤ 1 / slope) :
    residual slope load x = slope * averaged load x := by
  have hle : slope * x ≤ 1 := by
    rw [mul_comm]
    exact (le_div_iff₀ hslope).mp hx
  rw [residual_eq, min_eq_left hle, averaged_eq]
  ring

theorem residual_of_ge (hslope : 0 < slope) {x : ℝ} (hx : 1 / slope ≤ x) :
    residual slope load x = (1 + load * x) ^ (-6 / 5 : ℝ) := by
  have hle : 1 ≤ slope * x := by
    rw [mul_comm]
    exact (div_le_iff₀ hslope).mp hx
  rw [residual_eq, min_eq_right hle, mul_one]

theorem residual_strictMonoOn (hslope : 0 < slope) (hload : 0 < load) :
    StrictMonoOn (residual slope load) (Set.Icc 0 (min (1 / slope) (5 / load))) := by
  intro x hx y hy hxy
  have hyle := le_min_iff.mp hy.2
  rw [residual_of_le hslope (hxy.le.trans hyle.1), residual_of_le hslope hyle.1]
  exact mul_lt_mul_of_pos_left (averaged_strictMonoOn hload ⟨hx.1, hxy.le.trans hyle.2⟩
    ⟨hy.1, hyle.2⟩ hxy) hslope

theorem residual_strictAntiOn (hslope : 0 < slope) (hload : 0 < load) :
    StrictAntiOn (residual slope load) (Set.Ici (min (1 / slope) (5 / load))) := by
  intro x hx y _ hxy
  have hsat : 0 < 1 / slope := by positivity
  have hbelow : x < 1 / slope → 5 / load ≤ x := fun hlt =>
    (min_le_iff.mp hx).resolve_left (not_le.mpr hlt)
  have hx0 : 0 ≤ x := (le_min hsat.le (by positivity)).trans hx
  rcases lt_or_ge x (1 / slope) with hxs | hxs
  · have hfrom := hbelow hxs
    rcases le_or_gt y (1 / slope) with hys | hys
    · rw [residual_of_le hslope hxs.le, residual_of_le hslope hys]
      exact mul_lt_mul_of_pos_left (averaged_strictAntiOn hload hfrom (hfrom.trans hxy.le) hxy)
        hslope
    · calc residual slope load y
          < residual slope load (1 / slope) := by
            rw [residual_of_ge hslope hys.le, residual_of_ge hslope le_rfl]
            exact averaging_strictAntiOn hload hsat.le (hsat.trans hys).le hys
        _ < residual slope load x := by
            rw [residual_of_le hslope le_rfl, residual_of_le hslope hxs.le]
            exact mul_lt_mul_of_pos_left (averaged_strictAntiOn hload hfrom
              (hfrom.trans hxs.le) hxs) hslope
  · rw [residual_of_ge hslope hxs, residual_of_ge hslope (hxs.trans hxy.le)]
    exact averaging_strictAntiOn hload hx0 (hx0.trans hxy.le) hxy

end Averaging

/-! ### The peak of the deviation -/

namespace ScintillationModel

/-- The term by which the aperture averages, which grows with the turbulence. -/
def apertureLoad (site : AtmosphericSite) : ℝ :=
  1.062 * (site.apertureDiameterM / friedParameter site) ^ (5.0 / 3.0 : ℝ)

/-- The turbulence at which the variance saturates or the averaging wins, whichever is smaller. -/
def peakCn2 (site : AtmosphericSite) : ℝ :=
  min (1 / rytovVariance { site with cn2 := 1 }) (5.0 / apertureLoad { site with cn2 := 1 })

section Turbulence

variable {site : AtmosphericSite} {cn2 : ℝ}

theorem rytovVariance_cn2 (site : AtmosphericSite) (cn2 : ℝ) :
    rytovVariance { site with cn2 } = rytovVariance { site with cn2 := 1 } * cn2 := by
  simp only [rytovVariance, mul_one]
  ac_rfl

theorem rytovVariance_pos (hpath : 0 < site.pathLengthM) (hwavelength : 0 < site.wavelengthM) :
    0 < rytovVariance { site with cn2 := 1 } := by
  have hk : 0 < 2.0 * π / site.wavelengthM := by positivity
  simp only [rytovVariance]
  positivity

/-- The power of the ratio undoes the power of the coherence length. -/
theorem div_rpow_rpow {d x : ℝ} (hd : 0 ≤ d) (hx : 0 < x) :
    (d / x ^ (-3.0 / 5.0 : ℝ)) ^ (5.0 / 3.0 : ℝ) = d ^ (5.0 / 3.0 : ℝ) * x := by
  have hneg : (-3.0 / 5.0 : ℝ) = -(3 / 5) := by norm_num
  have hprod : (3 / 5 : ℝ) * (5.0 / 3.0) = 1 := by norm_num
  rw [hneg, rpow_neg hx.le, div_inv_eq_mul, mul_rpow hd (by positivity), ← rpow_mul hx.le, hprod,
    rpow_one]

theorem apertureAveragingFactor_eq (site : AtmosphericSite) :
    apertureAveragingFactor site = (1 + apertureLoad site) ^ (-6 / 5 : ℝ) := by
  have hexp : (-6.0 / 5.0 : ℝ) = -6 / 5 := by norm_num
  have hone : (1.0 : ℝ) = 1 := by norm_num
  rw [← hexp, ← hone]
  rfl

theorem apertureLoad_cn2 (hpath : 0 < site.pathLengthM) (hwavelength : 0 < site.wavelengthM)
    (haperture : 0 < site.apertureDiameterM) (hcn2 : 0 < cn2) :
    apertureLoad { site with cn2 } = apertureLoad { site with cn2 := 1 } * cn2 := by
  have hk : 0 < 2.0 * π / site.wavelengthM := by positivity
  simp only [apertureLoad, friedParameter]
  rw [div_rpow_rpow haperture.le (by positivity), div_rpow_rpow haperture.le (by positivity),
    mul_one]
  ac_rfl

theorem apertureLoad_pos (hpath : 0 < site.pathLengthM) (hwavelength : 0 < site.wavelengthM)
    (haperture : 0 < site.apertureDiameterM) : 0 < apertureLoad { site with cn2 := 1 } := by
  have hk : 0 < 2.0 * π / site.wavelengthM := by positivity
  simp only [apertureLoad, friedParameter]
  positivity

theorem scintillationStdDevDb_eq (hpath : 0 < site.pathLengthM)
    (hwavelength : 0 < site.wavelengthM) (haperture : 0 < site.apertureDiameterM)
    (hcn2 : 0 < cn2) :
    scintillationStdDevDb { site with cn2 } = 10 / log 10 * √(log (1 +
      residual (rytovVariance { site with cn2 := 1 }) (apertureLoad { site with cn2 := 1 })
        cn2)) := by
  have hten : (10.0 : ℝ) = 10 := by norm_num
  have hone : (1.0 : ℝ) = 1 := by norm_num
  rw [scintillationStdDevDb]
  simp only [apertureAveragingFactor_eq, apertureLoad_cn2 hpath hwavelength haperture hcn2,
    rytovVariance_cn2 site cn2, residual_eq, hten, hone]

theorem stdDev_strictMonoOn : StrictMonoOn (fun v => 10 / log 10 * √(log (1 + v))) (Set.Ici 0) := by
  intro v hv w _ hlt
  have hv0 : 0 ≤ v := hv
  have hlog : log (1 + v) < log (1 + w) := log_lt_log (by positivity) (by linarith)
  have hnonneg : 0 ≤ log (1 + v) := log_nonneg (by linarith)
  have hten : 0 < log 10 := log_pos (by norm_num)
  exact mul_lt_mul_of_pos_left (sqrt_lt_sqrt hnonneg hlog) (by positivity)

/-- The predicted deviation widens with the turbulence exactly up to its peak: from there on
stronger turbulence narrows it. -/
theorem scintillationStdDevDb_unimodal (hpath : 0 < site.pathLengthM)
    (hwavelength : 0 < site.wavelengthM) (haperture : 0 < site.apertureDiameterM) :
    StrictMonoOn (fun cn2 => scintillationStdDevDb { site with cn2 })
        (Set.Ioc 0 (peakCn2 site)) ∧
      StrictAntiOn (fun cn2 => scintillationStdDevDb { site with cn2 })
        (Set.Ici (peakCn2 site)) := by
  have hslope := rytovVariance_pos hpath hwavelength
  have hload := apertureLoad_pos hpath hwavelength haperture
  have heq : ∀ {cn2}, 0 < cn2 → scintillationStdDevDb { site with cn2 } = 10 / log 10 *
      √(log (1 + residual (rytovVariance { site with cn2 := 1 })
        (apertureLoad { site with cn2 := 1 }) cn2)) :=
    fun hcn2 => scintillationStdDevDb_eq hpath hwavelength haperture hcn2
  have hresidual : ∀ {cn2}, 0 < cn2 → 0 ≤ residual (rytovVariance { site with cn2 := 1 })
      (apertureLoad { site with cn2 := 1 }) cn2 := by
    intro cn2 hcn2
    rw [residual]
    positivity
  have hfive : (5.0 : ℝ) = 5 := by norm_num
  rw [peakCn2, hfive]
  constructor
  · intro x hx y hy hxy
    show scintillationStdDevDb { site with cn2 := x } < scintillationStdDevDb { site with cn2 := y }
    rw [heq hx.1, heq hy.1]
    exact stdDev_strictMonoOn (hresidual hx.1) (hresidual hy.1)
      (residual_strictMonoOn hslope hload ⟨hx.1.le, hx.2⟩ ⟨hy.1.le, hy.2⟩ hxy)
  · intro x hx y hy hxy
    have hpeak : 0 < min (1 / rytovVariance { site with cn2 := 1 })
        (5 / apertureLoad { site with cn2 := 1 }) := lt_min (by positivity) (by positivity)
    have hx0 : 0 < x := hpeak.trans_le hx
    have hy0 : 0 < y := hpeak.trans_le hy
    show scintillationStdDevDb { site with cn2 := y } < scintillationStdDevDb { site with cn2 := x }
    rw [heq hx0, heq hy0]
    exact stdDev_strictMonoOn (hresidual hy0) (hresidual hx0)
      (residual_strictAntiOn hslope hload hx hy hxy)

end Turbulence

end ScintillationModel

/-- A telescope of twenty centimetres on a rooftop. -/
theorem scintillationStdDevDb_rooftop :
    let site := AtmosphericSite.typicalRooftop 1.55e-6 0.2
    StrictMonoOn (fun cn2 => ScintillationModel.scintillationStdDevDb { site with cn2 })
        (Set.Ioc 0 (ScintillationModel.peakCn2 site)) ∧
      StrictAntiOn (fun cn2 => ScintillationModel.scintillationStdDevDb { site with cn2 })
        (Set.Ici (ScintillationModel.peakCn2 site)) := by
  intro site
  have hpath : 0 < site.pathLengthM := by
    have hthirty : toRadians 30.0 = π / 6 := by
      rw [toRadians]
      norm_num
      ring
    show 0 < 20000.0 / sin (toRadians 30.0)
    rw [hthirty, sin_pi_div_six]
    norm_num
  have hwavelength : 0 < site.wavelengthM := by
    show (0 : ℝ) < 1.55e-6
    norm_num
  have haperture : 0 < site.apertureDiameterM := by
    show (0 : ℝ) < 0.2
    norm_num
  exact ScintillationModel.scintillationStdDevDb_unimodal hpath hwavelength haperture

/-! ### Availability -/

def tailPolynomial (t : ℝ) : ℝ :=
  t * (0.319381530 + t * (-0.356563782 + t * (1.781477937 + t * (-1.821255978 + t * 1.330274429))))

def tail (x : ℝ) : ℝ :=
  exp (-0.5 * x * x) / √(2.0 * π) * tailPolynomial (1.0 / (1.0 + 0.2316419 * x))

theorem hasDerivAt_quintic (a b c d e t : ℝ) :
    HasDerivAt (fun t => t * (a + t * (b + t * (c + t * (d + t * e)))))
      (a + 2 * b * t + 3 * c * t ^ 2 + 4 * d * t ^ 3 + 5 * e * t ^ 4) t := by
  have hid := hasDerivAt_id t
  have hnest := hid.mul ((hid.mul ((hid.mul ((hid.mul ((hid.mul_const e).const_add d)).const_add
    c)).const_add b)).const_add a)
  refine hnest.congr_deriv ?_
  simp only [id, Pi.mul_apply]
  ring

theorem tailPolynomial_strictMono : StrictMono tailPolynomial := by
  refine strictMono_of_hasDerivAt_pos (fun t => hasDerivAt_quintic _ _ _ _ _ t) fun t => ?_
  norm_num
  nlinarith [sq_nonneg (t * (t - 0.5477)), sq_nonneg (t - 0.1), sq_nonneg t]

theorem tailPolynomial_pos {t : ℝ} (ht : 0 < t) : 0 < tailPolynomial t := by
  have hzero : tailPolynomial 0 = 0 := zero_mul _
  rw [← hzero]
  exact tailPolynomial_strictMono ht

theorem tail_pos {x : ℝ} (hx : 0 ≤ x) : 0 < tail x :=
  mul_pos (by positivity) (tailPolynomial_pos (by positivity))

theorem tail_strictAntiOn : StrictAntiOn tail (Set.Ici 0) := by
  intro x hx y hy hxy
  have hx0 : 0 ≤ x := hx
  have hy0 : 0 ≤ y := hy
  have hsq : x * x < y * y := mul_self_lt_mul_self hx0 hxy
  have hexp : exp (-0.5 * y * y) < exp (-0.5 * x * x) := by
    apply exp_lt_exp.mpr
    rw [mul_assoc, mul_assoc]
    exact mul_lt_mul_of_neg_left hsq (by norm_num)
  have hdensity : exp (-0.5 * y * y) / √(2.0 * π) < exp (-0.5 * x * x) / √(2.0 * π) :=
    div_lt_div_of_pos_right hexp (by positivity)
  have hdenominator : 1.0 + 0.2316419 * x < 1.0 + 0.2316419 * y := by
    have := mul_lt_mul_of_pos_left hxy (by norm_num : (0 : ℝ) < 0.2316419)
    linarith
  have ht : 1.0 / (1.0 + 0.2316419 * y) < 1.0 / (1.0 + 0.2316419 * x) :=
    div_lt_div_of_pos_left (by norm_num) (by positivity) hdenominator
  exact mul_lt_mul'' hdensity (tailPolynomial_strictMono ht) (by positivity)
    (tailPolynomial_pos (by positivity)).le

/-- The approximation is off at zero, by less than a billionth. -/
theorem tail_zero_lt : tail 0 < 1 / 2 := by
  have hpi := pi_gt_d20
  have hroot : 2.506628273 < √(2.0 * π) := by
    apply lt_sqrt_of_sq_lt
    norm_num at hpi ⊢
    linarith
  have hone : tailPolynomial 1 = 1.253314136 := by norm_num [tailPolynomial]
  have hunit : (1.0 / (1.0 + 0.2316419 * 0) : ℝ) = 1 := by norm_num
  rw [tail, hunit, hone, mul_zero, exp_zero, div_mul_eq_mul_div, one_mul, div_lt_iff₀ (by positivity)]
  norm_num at hroot ⊢
  linarith

theorem tail_lt_half {x : ℝ} (hx : 0 ≤ x) : tail x < 1 / 2 := by
  rcases hx.eq_or_lt with rfl | hpos
  · exact tail_zero_lt
  · exact (tail_strictAntiOn (Set.mem_Ici.mpr le_rfl) hx hpos).trans tail_zero_lt

theorem normalCdf_eq (x : ℝ) : normalCdf x = if 0 ≤ x then 1 - tail |x| else tail |x| := by
  have hone : (1.0 : ℝ) = 1 := by norm_num
  have hsq : -0.5 * |x| * |x| = -0.5 * x * x := by rw [mul_assoc, abs_mul_abs_self, mul_assoc]
  simp only [normalCdf, tail, hsq, tailPolynomial, hone, sub_sub_cancel]

theorem normalCdf_mem (x : ℝ) : 0 < normalCdf x ∧ normalCdf x < 1 := by
  have hpos := tail_pos (abs_nonneg x)
  have hlt := tail_lt_half (abs_nonneg x)
  rw [normalCdf_eq]
  split <;> constructor <;> linarith

theorem normalCdf_strictMono : StrictMono normalCdf := by
  intro x y hxy
  have hx := tail_lt_half (abs_nonneg x)
  have hy := tail_lt_half (abs_nonneg y)
  rw [normalCdf_eq, normalCdf_eq]
  rcases le_or_gt 0 x with hx0 | hx0
  · have hy0 : 0 ≤ y := hx0.trans hxy.le
    rw [if_pos hx0, if_pos hy0, abs_of_nonneg hx0, abs_of_nonneg hy0]
    exact sub_lt_sub_left (tail_strictAntiOn hx0 hy0 hxy) 1
  · rw [if_neg hx0.not_ge]
    rcases le_or_gt 0 y with hy0 | hy0
    · rw [if_pos hy0]
      linarith
    · rw [if_neg hy0.not_ge, abs_of_neg hx0, abs_of_neg hy0]
      exact tail_strictAntiOn (Set.mem_Ici.mpr (by linarith)) (Set.mem_Ici.mpr (by linarith))
        (by linarith)

theorem normalCdf_neg {x : ℝ} (hx : x ≠ 0) : normalCdf (-x) = 1 - normalCdf x := by
  rw [normalCdf_eq, normalCdf_eq, abs_neg]
  rcases lt_or_gt_of_ne hx with hneg | hpos
  · rw [if_pos (by linarith), if_neg hneg.not_ge]
  · rw [if_neg (by linarith), if_pos hpos.le, sub_sub_cancel]

namespace SnrDistribution

variable {d : SnrDistribution}

theorem availability_antitone : Antitone d.availabilityAtThreshold := by
  intro x y hxy
  unfold availabilityAtThreshold
  by_cases hnarrow : d.scintillationStdDevDb < 1e-9
  · rw [if_pos hnarrow, if_pos hnarrow]
    by_cases hy : y ≤ d.nominalSnrDb
    · rw [if_pos hy, if_pos (hxy.trans hy)]
    · rw [if_neg hy]
      split <;> norm_num
  · rw [if_neg hnarrow, if_neg hnarrow]
    have hpos : 0 < d.scintillationStdDevDb := lt_of_lt_of_le (by norm_num) (not_lt.mp hnarrow)
    exact normalCdf_strictMono.monotone
      (div_le_div_of_nonneg_right (sub_le_sub_left hxy _) hpos.le)

theorem availability_mem (x : ℝ) :
    0 ≤ d.availabilityAtThreshold x ∧ d.availabilityAtThreshold x ≤ 1 := by
  unfold availabilityAtThreshold
  split
  · split <;> norm_num
  · exact ⟨(normalCdf_mem _).1.le, (normalCdf_mem _).2.le⟩

/-- Fades below a higher threshold are not expected to be shorter. -/
theorem expectedFadeDurationS_monotone (hcoherence : 0 ≤ d.fadeCoherenceTimeS) :
    Monotone d.expectedFadeDurationS := by
  intro x y hxy
  have havail : d.availabilityAtThreshold y ≤ d.availabilityAtThreshold x :=
    availability_antitone hxy
  obtain ⟨-, hone⟩ := availability_mem (d := d) y
  have hones : (1.0 : ℝ) = 1 := by norm_num
  unfold expectedFadeDurationS
  dsimp only
  by_cases hx : 1.0 - 1e-9 ≤ d.availabilityAtThreshold x
  · rw [if_pos hx, hones]
    split
    · exact le_rfl
    · have hfade : 0 ≤ 1 - d.availabilityAtThreshold y := by linarith
      norm_num
      positivity
  · have hy : ¬1.0 - 1e-9 ≤ d.availabilityAtThreshold y := fun h => hx (h.trans havail)
    rw [if_neg hx, if_neg hy, hones]
    have hfade : 0 ≤ 1 - d.availabilityAtThreshold y := by linarith
    apply div_le_div₀ (mul_nonneg hcoherence hfade)
    · exact mul_le_mul_of_nonneg_left (by linarith) hcoherence
    · positivity
    · exact max_le_max_right _ havail

/-- Where the link scintillates, its availability falls strictly as the threshold rises and stays
between zero and one, thresholds equally far above and below the nominal ratio have complementary
availabilities, and the expected fade never gets shorter. -/
theorem availability_of_threshold (hspread : 1e-9 ≤ d.scintillationStdDevDb)
    (hcoherence : 0 ≤ d.fadeCoherenceTimeS) :
    StrictAnti d.availabilityAtThreshold ∧
      (∀ x, 0 < d.availabilityAtThreshold x ∧ d.availabilityAtThreshold x < 1) ∧
      (∀ m ≠ 0, d.availabilityAtThreshold (d.nominalSnrDb + m) +
        d.availabilityAtThreshold (d.nominalSnrDb - m) = 1) ∧
      Monotone d.expectedFadeDurationS := by
  have hpos : 0 < d.scintillationStdDevDb := lt_of_lt_of_le (by norm_num) hspread
  have heq : ∀ x, d.availabilityAtThreshold x =
      normalCdf ((d.nominalSnrDb - x) / d.scintillationStdDevDb) :=
    fun x => if_neg hspread.not_gt
  refine ⟨fun x y hxy => ?_, fun x => ?_, fun m hm => ?_, expectedFadeDurationS_monotone hcoherence⟩
  · rw [heq, heq]
    exact normalCdf_strictMono (div_lt_div_of_pos_right (sub_lt_sub_left hxy _) hpos)
  · rw [heq]
    exact normalCdf_mem _
  · have hbelow : (d.nominalSnrDb - (d.nominalSnrDb + m)) / d.scintillationStdDevDb =
        -(m / d.scintillationStdDevDb) := by
      rw [sub_add_cancel_left, neg_div]
    rw [heq, heq, hbelow, sub_sub_cancel, normalCdf_neg (div_ne_zero hm hpos.ne')]
    exact sub_add_cancel 1 _

end SnrDistribution

/-- A link of ten decibels that scintillates by two. -/
def fading : SnrDistribution :=
  { nominalSnrDb := 10.0
    scintillationStdDevDb := 2.0
    rytovVariance := 0.2
    severity := .moderate
    apertureAveragingFactor := 1.0
    fadeCoherenceTimeS := 0.01 }

theorem availability_fading : StrictAnti fading.availabilityAtThreshold := by
  refine (SnrDistribution.availability_of_threshold ?_ ?_).1
  · show (1e-9 : ℝ) ≤ 2.0
    norm_num
  · show (0 : ℝ) ≤ 0.01
    norm_num

/-! ### Percentiles -/

theorem rational_strictAntiOn {c0 c1 c2 d0 d1 d2 d3 : ℝ} (hd0 : 0 < d0) (hd1 : 0 ≤ d1)
    (hd2 : 0 ≤ d2) (hd3 : 0 ≤ d3) (h01 : c1 * d0 < c0 * d1) (h02 : c2 * d0 ≤ c0 * d2)
    (h03 : 0 ≤ c0 * d3) (h12 : c2 * d1 ≤ c1 * d2) (h13 : 0 ≤ c1 * d3) (h23 : 0 ≤ c2 * d3) :
    StrictAntiOn (fun t : ℝ => (c0 + c1 * t + c2 * t * t) /
      (d0 + d1 * t + d2 * t * t + d3 * t * t * t)) (Set.Ici 0) := by
  intro s hs t ht hst
  have hs0 : 0 ≤ s := hs
  have ht0 : 0 ≤ t := ht
  have hpositive : ∀ x : ℝ, 0 ≤ x → 0 < d0 + d1 * x + d2 * x * x + d3 * x * x * x := by
    intro x hx
    positivity
  show _ / _ < _ / _
  rw [div_lt_div_iff₀ (hpositive t ht0) (hpositive s hs0)]
  have hsq : 0 ≤ t ^ 2 - s ^ 2 := by nlinarith
  have hcube : 0 ≤ t ^ 3 - s ^ 3 := by nlinarith [mul_nonneg hs0 ht0, sq_nonneg s, sq_nonneg t]
  have hst0 : 0 ≤ s * t := mul_nonneg hs0 ht0
  -- the coefficients of the product, one pair of powers at a time
  have hsplit : (c0 + c1 * s + c2 * s * s) * (d0 + d1 * t + d2 * t * t + d3 * t * t * t) -
      (c0 + c1 * t + c2 * t * t) * (d0 + d1 * s + d2 * s * s + d3 * s * s * s) =
      (c0 * d1 - c1 * d0) * (t - s) + (c0 * d2 - c2 * d0) * (t ^ 2 - s ^ 2) +
        c0 * d3 * (t ^ 3 - s ^ 3) + (c1 * d2 - c2 * d1) * (s * t * (t - s)) +
        c1 * d3 * (s * t * (t ^ 2 - s ^ 2)) + c2 * d3 * ((s * t) ^ 2 * (t - s)) := by
    ring
  have h1 : 0 < (c0 * d1 - c1 * d0) * (t - s) := mul_pos (sub_pos.mpr h01) (sub_pos.mpr hst)
  have h2 := mul_nonneg (sub_nonneg.mpr h02) hsq
  have h3 := mul_nonneg h03 hcube
  have h4 := mul_nonneg (sub_nonneg.mpr h12) (mul_nonneg hst0 (sub_nonneg.mpr hst.le))
  have h5 := mul_nonneg h13 (mul_nonneg hst0 hsq)
  have h6 := mul_nonneg h23 (mul_nonneg (sq_nonneg (s * t)) (sub_nonneg.mpr hst.le))
  linarith

/-- The distance from the median, in deviations. -/
def quantile (t : ℝ) : ℝ :=
  t - (2.515517 + 0.802853 * t + 0.010328 * t * t) /
    (1.0 + 1.432788 * t + 0.189269 * t * t + 0.001308 * t * t * t)

theorem quantile_strictMonoOn : StrictMonoOn quantile (Set.Ici 0) := by
  intro s hs t ht hst
  have hratio : StrictAntiOn (fun t : ℝ => (2.515517 + 0.802853 * t + 0.010328 * t * t) /
      (1.0 + 1.432788 * t + 0.189269 * t * t + 0.001308 * t * t * t)) (Set.Ici 0) := by
    apply rational_strictAntiOn <;> norm_num
  exact sub_lt_sub hst (hratio hs ht hst)

theorem probit_of_lt {p : ℝ} (hp : p < 0.5) : probit p = -quantile √(-2.0 * log p) := by
  have hmin : min p (1.0 - p) = p := by
    apply min_eq_left
    norm_num at hp ⊢
    linarith
  rw [probit, if_pos hp, hmin, quantile]
  norm_num

theorem probit_of_ge {p : ℝ} (hp : 0.5 ≤ p) : probit p = quantile √(-2.0 * log (1.0 - p)) := by
  have hmin : min p (1.0 - p) = 1.0 - p := by
    apply min_eq_right
    norm_num at hp ⊢
    linarith
  rw [probit, if_neg hp.not_gt, hmin, quantile]
  norm_num

/-- Small probabilities are many deviations away. -/
theorem quantile_sqrt_log_lt {p q : ℝ} (hp : 0 < p) (hpq : p < q) (hq : q < 1) :
    quantile √(-2.0 * log q) < quantile √(-2.0 * log p) := by
  have hlog := log_lt_log hp hpq
  have hneg := log_neg (hp.trans hpq) hq
  have hlt : -2.0 * log q < -2.0 * log p := mul_lt_mul_of_neg_left hlog (by norm_num)
  have hnonneg : 0 ≤ -2.0 * log q := mul_nonneg_of_nonpos_of_nonpos (by norm_num) hneg.le
  exact quantile_strictMonoOn (sqrt_nonneg _) (sqrt_nonneg _) (sqrt_lt_sqrt hnonneg hlt)

/-- At the median the rational function overshoots. -/
theorem quantile_median_neg : quantile 1.17741003 < 0 := by
  norm_num [quantile]

theorem sqrt_log_median_le : √(-2.0 * log 0.5) ≤ 1.17741003 := by
  have hhalf : log 0.5 = -log 2 := by
    rw [← log_inv]
    norm_num
  have hlog := log_two_lt_d9
  apply sqrt_le_iff.mpr
  rw [hhalf]
  norm_num at hlog ⊢
  linarith

namespace SnrDistribution

variable {d : SnrDistribution}

theorem percentileDb_eq {p : ℝ} (hlow : 1e-6 ≤ p) (hhigh : p ≤ 1 - 1e-6) :
    d.percentileDb p = d.nominalSnrDb + probit p * d.scintillationStdDevDb := by
  have hone : (1.0 : ℝ) = 1 := by norm_num
  rw [percentileDb, hone, min_eq_left hhigh, max_eq_right hlow]

/-- The percentiles of a link that scintillates rise up to the median and from the median on, but
not across it: the median is below the nominal ratio, and percentiles before it are above. -/
theorem percentileDb_halves (hspread : 0 < d.scintillationStdDevDb) :
    StrictMonoOn d.percentileDb (Set.Ico 1e-6 0.5) ∧
      StrictMonoOn d.percentileDb (Set.Icc 0.5 (1 - 1e-6)) ∧
      d.p50Db < d.nominalSnrDb ∧
      ∃ p ∈ Set.Ico (1e-6 : ℝ) 0.5, d.nominalSnrDb < d.percentileDb p := by
  refine ⟨fun p hp q hq hpq => ?_, fun p hp q hq hpq => ?_, ?_, ?_⟩
  · have hp1 : p ≤ 1 - 1e-6 := hp.2.le.trans (by norm_num)
    have hq1 : q ≤ 1 - 1e-6 := hq.2.le.trans (by norm_num)
    have hp0 : 0 < p := lt_of_lt_of_le (by norm_num) hp.1
    have hquantile := quantile_sqrt_log_lt hp0 hpq (lt_of_lt_of_le hq.2 (by norm_num))
    rw [percentileDb_eq hp.1 hp1, percentileDb_eq hq.1 hq1, probit_of_lt hp.2, probit_of_lt hq.2]
    have hmul := mul_lt_mul_of_pos_right (neg_lt_neg hquantile) hspread
    linarith
  · have hp0 : 1e-6 ≤ p := le_trans (by norm_num) hp.1
    have hq0 : 1e-6 ≤ q := le_trans (by norm_num) hq.1
    have hq1 : 0 < 1.0 - q := by
      have := hq.2
      norm_num at this ⊢
      linarith
    have hp1 : 1.0 - p < 1 := by
      have := hp.1
      norm_num at this ⊢
      linarith
    have hquantile := quantile_sqrt_log_lt hq1 (sub_lt_sub_left hpq 1.0) hp1
    rw [percentileDb_eq hp0 hp.2, percentileDb_eq hq0 hq.2, probit_of_ge hp.1, probit_of_ge hq.1]
    have hmul := mul_lt_mul_of_pos_right hquantile hspread
    linarith
  · have hhalf : (0.50 : ℝ) = 0.5 := by norm_num
    have hcomplement : (1.0 - 0.5 : ℝ) = 0.5 := by norm_num
    have hneg : quantile √(-2.0 * log 0.5) < 0 :=
      lt_of_le_of_lt (quantile_strictMonoOn.monotoneOn (sqrt_nonneg _)
        (Set.mem_Ici.mpr (by norm_num)) sqrt_log_median_le) quantile_median_neg
    rw [p50Db, hhalf, percentileDb_eq (by norm_num) (by norm_num), probit_of_ge le_rfl, hcomplement]
    have hmul := mul_neg_of_neg_of_pos hneg hspread
    linarith
  · have hroot : √(-2.0 * log (exp (-(1.17741003 ^ 2 / 2)))) = 1.17741003 := by
      rw [log_exp]
      apply (sqrt_eq_iff_mul_self_eq (by norm_num) (by norm_num)).mpr
      norm_num
    have hlog := log_two_lt_d9
    have hlt : exp (-(1.17741003 ^ 2 / 2)) < (0.5 : ℝ) := by
      have htwo : (0.5 : ℝ) = exp (-log 2) := by
        rw [exp_neg, exp_log (by norm_num)]
        norm_num
      rw [htwo, exp_lt_exp]
      norm_num at hlog ⊢
      linarith
    have hge : (1e-6 : ℝ) ≤ exp (-(1.17741003 ^ 2 / 2)) := by
      have := add_one_le_exp (-(1.17741003 ^ 2 / 2) : ℝ)
      norm_num at this ⊢
      linarith
    refine ⟨exp (-(1.17741003 ^ 2 / 2)), ⟨hge, hlt⟩, ?_⟩
    rw [percentileDb_eq hge (hlt.le.trans (by norm_num)), probit_of_lt hlt, hroot]
    have hmul := mul_pos (neg_pos.mpr quantile_median_neg) hspread
    linarith

end SnrDistribution

theorem percentileDb_fading :
    fading.p50Db < 10.0 ∧ ∃ p ∈ Set.Ico (1e-6 : ℝ) 0.5, 10.0 < fading.percentileDb p := by
  have hspread : 0 < fading.scintillationStdDevDb := by
    show (0 : ℝ) < 2.0
    norm_num
  exact (SnrDistribution.percentileDb_halves hspread).2.2

end

end GroundCore.Optical.Link
