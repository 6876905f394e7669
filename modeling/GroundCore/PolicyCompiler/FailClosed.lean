import GroundCore.PolicyCompiler.Parser

/-! Whether the parser of policies fails closed.  It insists on the fields without a default, so
these reach the policy whenever a document is accepted.  A field with a default reaches the policy
exactly when it is absent or of its type: of another type it turns into the default, which for a
licence and for coordination is that none is needed. -/

namespace GroundCore.PolicyCompiler

open Lib JsonValue

def PowerType.name : PowerType → String
  | eirp => "eirp"
  | conducted => "conducted"

def LicenseType.name : LicenseType → String
  | none => "none"
  | general => "general"
  | specific _ => "specific"
  | amateur _ => "amateur"

def CoordinationProcess.name : CoordinationProcess → String
  | preCoordination _ => "pre"
  | dynamic _ => "dynamic"
  | none => "none"

theorem LicenseType.eq_amateur {licenseType : LicenseType} (h : licenseType.name = "amateur") :
    ∃ operatorClass, licenseType = amateur operatorClass := by
  cases licenseType with
  | amateur operatorClass => exact ⟨operatorClass, rfl⟩
  | _ => simp [name] at h

theorem CoordinationProcess.eq_dynamic {process : CoordinationProcess}
    (h : process.name = "dynamic") : ∃ responseTime, process = dynamic responseTime := by
  cases process with
  | dynamic responseTime => exact ⟨responseTime, rfl⟩
  | _ => simp [name] at h

theorem CoordinationProcess.eq_preCoordination {process : CoordinationProcess}
    (h : process.name = "pre") : ∃ noticeDays, process = preCoordination noticeDays := by
  cases process with
  | preCoordination noticeDays => exact ⟨noticeDays, rfl⟩
  | _ => simp [name] at h

namespace PolicyParser

variable {F64 F32 : Type} [FloatOps F64 F32]

/-- Every field that the parser reads of a band is absent or of its type, and what it says is in
the rules. -/
structure BandCarried (item : JsonValue F64) (rules : BandRules F64) : Prop where
  name : Carried (item.at? "band" "name") asStr (· = rules.band.name)
  minFrequency : Carried (item.at? "band" "min_frequency") asU64 (· = rules.band.lowerHz)
  maxFrequency : Carried (item.at? "band" "max_frequency") asU64 (· = rules.band.upperHz)
  regulatoryBody : Carried (item.at? "band" "regulatory_body") asStr (· = rules.band.regulatoryBody)
  jurisdiction : Carried (item.at? "band" "jurisdiction") asStr (· = rules.band.jurisdiction)
  maxPower :
    Carried (item.at? "power_limits" "max_power_dbm") asF64 (· = rules.powerLimits.maxPowerDbm)
  powerType : Carried (item.at? "power_limits" "power_type") asStr
    (toLowercase · = rules.powerLimits.powerType.name)
  licenseObject : Typed (item.get? "license_requirement") asObject
  licenseType : Carried (item.at? "license_requirement" "license_type") asStr
    (toLowercase · = rules.licenseRequirement.licenseType.name)
  operatorClass : ∀ operatorClass, rules.licenseRequirement.licenseType = .amateur operatorClass →
    Carried (item.at? "license_requirement" "class") asStr (· = operatorClass)
  licenseClass : ∀ licenseClass, rules.licenseRequirement.licenseType = .specific licenseClass →
    Carried (item.at? "license_requirement" "license_class") asStr (· = licenseClass)
  requiresCoordination : Carried (item.at? "license_requirement" "requires_coordination") asBool
    (· = rules.licenseRequirement.requiresCoordination)
  coordinationObject : Typed (item.get? "coordination") asObject
  bodies :
    Carried (item.at? "coordination" "bodies") asTexts (· = rules.coordination.coordinationBodies)
  process : Carried (item.at? "coordination" "process") asStr
    (toLowercase · = rules.coordination.process.name)
  responseTime : ∀ responseTime, rules.coordination.process = .dynamic responseTime →
    Carried (item.at? "coordination" "response_time_ms") asU64 (· = responseTime)
  noticeDays : ∀ noticeDays, rules.coordination.process = .preCoordination noticeDays →
    Carried (item.at? "coordination" "notice_days") asU64 (· = noticeDays)

/-- Every field is carried into the policy, for each band in its place, and every band is a range
of frequencies. -/
structure FailsClosed (value : JsonValue F64) (policy : RegulatoryPolicy F64) : Prop where
  name : Carried (value.get? "name") asStr (· = policy.name)
  jurisdiction : Carried (value.get? "jurisdiction") asStr (· = policy.jurisdiction)
  version : Carried (value.get? "version") asStr (· = policy.version)
  bandRules :
    Carried (value.get? "band_rules") asArray (List.Forall₂ BandCarried · policy.bandRules)
  ordered : ∀ rules ∈ policy.bandRules, rules.band.lowerHz ≤ rules.band.upperHz

/-- The word in a field, or the one that stands for an absent field. -/
def wordAt (field : Option (JsonValue F64)) (fallback : String) : String :=
  toLowercase ((field.bind asStr).getD fallback)

/-- The fields of a band with a default are absent or of their type, and the lower bound is at most
the upper one. -/
structure BandTyped (item : JsonValue F64) : Prop where
  ordered : ∀ lower upper, (item.at? "band" "min_frequency").bind asU64 = some lower →
    (item.at? "band" "max_frequency").bind asU64 = some upper → lower ≤ upper
  regulatoryBody : Typed (item.at? "band" "regulatory_body") asStr
  jurisdiction : Typed (item.at? "band" "jurisdiction") asStr
  powerType : Typed (item.at? "power_limits" "power_type") asStr
  licenseObject : Typed (item.get? "license_requirement") asObject
  licenseType : Typed (item.at? "license_requirement" "license_type") asStr
  operatorClass : wordAt (item.at? "license_requirement" "license_type") "none" = "amateur" →
    Typed (item.at? "license_requirement" "class") asStr
  requiresCoordination : Typed (item.at? "license_requirement" "requires_coordination") asBool
  coordinationObject : Typed (item.get? "coordination") asObject
  bodies : Typed (item.at? "coordination" "bodies") asTexts
  process : Typed (item.at? "coordination" "process") asStr
  responseTime : wordAt (item.at? "coordination" "process") "none" = "dynamic" →
    Typed (item.at? "coordination" "response_time_ms") asU64
  noticeDays : wordAt (item.at? "coordination" "process") "none" = "pre" →
    Typed (item.at? "coordination" "notice_days") asU64

structure WellTyped (value : JsonValue F64) : Prop where
  version : Typed (value.get? "version") asStr
  bandRules : Typed (value.get? "band_rules") asArray
  bands : ∀ items, (value.get? "band_rules").bind asArray = some items →
    ∀ item ∈ items, BandTyped item

/-! ### What each part of the parser reads -/

theorem okOrElse_eq_ok {α : Type} {a : Option α} {message : String} {b : α} :
    okOrElse a message = .ok b ↔ a = some b := by
  cases a with
  | none => exact iff_of_false nofun nofun
  | some a => exact ⟨fun h => by cases h; rfl, fun h => by cases h; rfl⟩

variable {item : JsonValue F64}

theorem parseFrequencyBand_eq_ok {band : FrequencyBand} (h : parseFrequencyBand item = .ok band) :
    (item.at? "band" "name").bind asStr = some band.name ∧
    (item.at? "band" "min_frequency").bind asU64 = some band.lowerHz ∧
    (item.at? "band" "max_frequency").bind asU64 = some band.upperHz ∧
    ((item.at? "band" "regulatory_body").bind asStr).getD "UNKNOWN" = band.regulatoryBody ∧
    ((item.at? "band" "jurisdiction").bind asStr).getD "GLOBAL" = band.jurisdiction := by
  obtain ⟨name, hname, h⟩ := bind_eq_ok.mp h
  obtain ⟨lower, hlower, h⟩ := bind_eq_ok.mp h
  obtain ⟨upper, hupper, h⟩ := bind_eq_ok.mp h
  cases h
  rw [okOrElse_eq_ok, read_index_index asStr _ _ _ rfl] at hname
  rw [okOrElse_eq_ok, read_index_index asU64 _ _ _ rfl] at hlower hupper
  refine ⟨hname, hlower, hupper, ?_, ?_⟩ <;> rw [← read_index_index asStr _ _ _ rfl]

theorem parsePowerType_eq_ok {text : String} {powerType : PowerType}
    (h : parsePowerType text = .ok powerType) : toLowercase text = powerType.name := by
  unfold parsePowerType at h
  split at h
  case h_1 hword =>
    cases h
    exact hword
  case h_2 hword =>
    cases h
    exact hword
  case h_3 => cases h

theorem parsePowerLimits_eq_ok {limit : PowerLimit F64} (h : parsePowerLimits item = .ok limit) :
    (item.at? "power_limits" "max_power_dbm").bind asF64 = some limit.maxPowerDbm ∧
    wordAt (item.at? "power_limits" "power_type") "eirp" = limit.powerType.name := by
  obtain ⟨power, hpower, h⟩ := bind_eq_ok.mp h
  obtain ⟨powerType, hpowerType, h⟩ := bind_eq_ok.mp h
  cases h
  rw [okOrElse_eq_ok, read_index_index asF64 _ _ _ rfl] at hpower
  rw [read_index_index asStr _ _ _ rfl] at hpowerType
  exact ⟨hpower, parsePowerType_eq_ok hpowerType⟩

theorem parseLicenseType_eq_ok {requirement : JsonValue F64} {text : String}
    {licenseType : LicenseType} (h : parseLicenseType requirement text = .ok licenseType) :
    toLowercase text = licenseType.name ∧
    (∀ operatorClass, licenseType = .amateur operatorClass →
      (requirement.index "class").asStr.getD "technician" = operatorClass) ∧
    ∀ licenseClass, licenseType = .specific licenseClass →
      (requirement.index "license_class").asStr = some licenseClass := by
  unfold parseLicenseType at h
  split at h
  case h_1 hword =>
    cases h
    exact ⟨hword, nofun, nofun⟩
  case h_2 hword =>
    cases h
    exact ⟨hword, nofun, nofun⟩
  case h_3 hword =>
    cases h
    exact ⟨hword, fun _ hclass => by cases hclass; rfl, nofun⟩
  case h_4 hword =>
    obtain ⟨licenseClass, hclass, h⟩ := bind_eq_ok.mp h
    cases h
    exact ⟨hword, nofun, fun _ h => by cases h; exact okOrElse_eq_ok.mp hclass⟩
  case h_5 => cases h

theorem parseLicenseRequirement_eq_ok {requirement : LicenseRequirement}
    (h : parseLicenseRequirement item = .ok requirement) :
    wordAt (item.at? "license_requirement" "license_type") "none" = requirement.licenseType.name ∧
    (∀ operatorClass, requirement.licenseType = .amateur operatorClass →
      ((item.at? "license_requirement" "class").bind asStr).getD "technician" = operatorClass) ∧
    (∀ licenseClass, requirement.licenseType = .specific licenseClass →
      (item.at? "license_requirement" "license_class").bind asStr = some licenseClass) ∧
    ((item.at? "license_requirement" "requires_coordination").bind asBool).getD false =
      requirement.requiresCoordination := by
  obtain ⟨licenseType, htype, h⟩ := bind_eq_ok.mp h
  cases h
  obtain ⟨hword, hoperator, hlicense⟩ := parseLicenseType_eq_ok htype
  rw [read_index_index asStr _ _ _ rfl] at hword
  simp only [read_index_index asStr _ _ _ rfl] at hoperator hlicense
  refine ⟨hword, hoperator, hlicense, ?_⟩
  rw [read_index_index asBool _ _ _ rfl]

theorem parseCoordinationProcess_eq_ok {coordination : JsonValue F64} {text : String}
    {process : CoordinationProcess}
    (h : parseCoordinationProcess coordination text = .ok process) :
    toLowercase text = process.name ∧
    (∀ responseTime, process = .dynamic responseTime →
      (coordination.index "response_time_ms").asU64.getD 100 = responseTime) ∧
    ∀ noticeDays, process = .preCoordination noticeDays →
      (coordination.index "notice_days").asU64.getD 30 = noticeDays := by
  unfold parseCoordinationProcess at h
  split at h
  case h_1 hword =>
    cases h
    exact ⟨hword, nofun, nofun⟩
  case h_2 hword =>
    cases h
    exact ⟨hword, fun _ htime => by cases htime; rfl, nofun⟩
  case h_3 hword =>
    cases h
    exact ⟨hword, nofun, fun _ hdays => by cases hdays; rfl⟩
  case h_4 => cases h

theorem parseCoordinationRequirement_eq_ok {requirement : CoordinationRequirement}
    (h : parseCoordinationRequirement item = .ok requirement) :
    (((item.at? "coordination" "bodies").bind asArray).map (·.filterMap asStr)).getD [] =
      requirement.coordinationBodies ∧
    wordAt (item.at? "coordination" "process") "none" = requirement.process.name ∧
    (∀ responseTime, requirement.process = .dynamic responseTime →
      ((item.at? "coordination" "response_time_ms").bind asU64).getD 100 = responseTime) ∧
    ∀ noticeDays, requirement.process = .preCoordination noticeDays →
      ((item.at? "coordination" "notice_days").bind asU64).getD 30 = noticeDays := by
  obtain ⟨process, hprocess, h⟩ := bind_eq_ok.mp h
  cases h
  obtain ⟨hword, htime, hdays⟩ := parseCoordinationProcess_eq_ok hprocess
  rw [read_index_index asStr _ _ _ rfl] at hword
  simp only [read_index_index asU64 _ _ _ rfl] at htime hdays
  refine ⟨?_, hword, htime, hdays⟩
  rw [read_index_index asArray _ _ _ rfl]

theorem parseBandRules_eq_ok {rules : BandRules F64} (h : parseBandRules item = .ok rules) :
    parseFrequencyBand item = .ok rules.band ∧ parsePowerLimits item = .ok rules.powerLimits ∧
    parseLicenseRequirement item = .ok rules.licenseRequirement ∧
    parseCoordinationRequirement item = .ok rules.coordination := by
  obtain ⟨band, hband, h⟩ := bind_eq_ok.mp h
  obtain ⟨limits, hlimits, h⟩ := bind_eq_ok.mp h
  obtain ⟨requirement, hrequirement, h⟩ := bind_eq_ok.mp h
  obtain ⟨coordination, hcoordination, h⟩ := bind_eq_ok.mp h
  cases h
  exact ⟨hband, hlimits, hrequirement, hcoordination⟩

/-! ### What an accepted document loses -/

theorem bandTyped_of_carried {rules : BandRules F64} (h : parseBandRules item = .ok rules)
    (hcarried : BandCarried item rules) (hordered : rules.band.lowerHz ≤ rules.band.upperHz) :
    BandTyped item := by
  obtain ⟨hband, -, hrequirement, hcoordination⟩ := parseBandRules_eq_ok h
  obtain ⟨-, hmin, hmax, -, -⟩ := parseFrequencyBand_eq_ok hband
  obtain ⟨hlicense, -, -, -⟩ := parseLicenseRequirement_eq_ok hrequirement
  obtain ⟨-, hprocess, -, -⟩ := parseCoordinationRequirement_eq_ok hcoordination
  exact {
    ordered := fun lower upper hlower hupper => by
      rw [hmin] at hlower
      rw [hmax] at hupper
      cases hlower
      cases hupper
      exact hordered
    regulatoryBody := hcarried.regulatoryBody.typed
    jurisdiction := hcarried.jurisdiction.typed
    powerType := hcarried.powerType.typed
    licenseObject := hcarried.licenseObject
    licenseType := hcarried.licenseType.typed
    operatorClass := fun hword => by
      obtain ⟨operatorClass, htype⟩ := LicenseType.eq_amateur (hlicense.symm.trans hword)
      exact (hcarried.operatorClass operatorClass htype).typed
    requiresCoordination := hcarried.requiresCoordination.typed
    coordinationObject := hcarried.coordinationObject
    bodies := hcarried.bodies.typed
    process := hcarried.process.typed
    responseTime := fun hword => by
      obtain ⟨responseTime, hdynamic⟩ := CoordinationProcess.eq_dynamic (hprocess.symm.trans hword)
      exact (hcarried.responseTime responseTime hdynamic).typed
    noticeDays := fun hword => by
      obtain ⟨noticeDays, hpre⟩ :=
        CoordinationProcess.eq_preCoordination (hprocess.symm.trans hword)
      exact (hcarried.noticeDays noticeDays hpre).typed }

theorem bandCarried_of_typed {rules : BandRules F64} (h : parseBandRules item = .ok rules)
    (htyped : BandTyped item) :
    BandCarried item rules ∧ rules.band.lowerHz ≤ rules.band.upperHz := by
  obtain ⟨hband, hlimits, hrequirement, hcoordination⟩ := parseBandRules_eq_ok h
  obtain ⟨hname, hmin, hmax, hbody, hjurisdiction⟩ := parseFrequencyBand_eq_ok hband
  obtain ⟨hpower, hpowerType⟩ := parsePowerLimits_eq_ok hlimits
  obtain ⟨hlicense, hoperator, hspecific, hrequires⟩ := parseLicenseRequirement_eq_ok hrequirement
  obtain ⟨hbodies, hprocess, htime, hdays⟩ := parseCoordinationRequirement_eq_ok hcoordination
  refine ⟨?_, htyped.ordered _ _ hmin hmax⟩
  exact {
    name := carried_of_eq_some hname rfl
    minFrequency := carried_of_eq_some hmin rfl
    maxFrequency := carried_of_eq_some hmax rfl
    regulatoryBody := htyped.regulatoryBody.carried_of_getD hbody
    jurisdiction := htyped.jurisdiction.carried_of_getD hjurisdiction
    maxPower := carried_of_eq_some hpower rfl
    powerType := htyped.powerType.carried_of_getD hpowerType
    licenseObject := htyped.licenseObject
    licenseType := htyped.licenseType.carried_of_getD hlicense
    operatorClass := fun operatorClass htype => by
      have hword : wordAt (item.at? "license_requirement" "license_type") "none" = "amateur" := by
        rw [hlicense, htype]
        rfl
      exact (htyped.operatorClass hword).carried_of_getD (hoperator operatorClass htype)
    licenseClass := fun licenseClass htype => carried_of_eq_some (hspecific licenseClass htype) rfl
    requiresCoordination := htyped.requiresCoordination.carried_of_getD hrequires
    coordinationObject := htyped.coordinationObject
    bodies := htyped.bodies.carried fun texts htexts => by
      obtain ⟨value, hvalue, htexts⟩ := Option.bind_eq_some_iff.mp htexts
      obtain ⟨items, hitems, htexts⟩ := Option.bind_eq_some_iff.mp htexts
      rw [hvalue, Option.bind_some, hitems, Option.map_some, Option.getD_some,
        filterMap_of_mapM htexts] at hbodies
      exact hbodies
    process := htyped.process.carried_of_getD hprocess
    responseTime := fun responseTime hdynamic => by
      have hword : wordAt (item.at? "coordination" "process") "none" = "dynamic" := by
        rw [hprocess, hdynamic]
        rfl
      exact (htyped.responseTime hword).carried_of_getD (htime responseTime hdynamic)
    noticeDays := fun noticeDays hpre => by
      have hword : wordAt (item.at? "coordination" "process") "none" = "pre" := by
        rw [hprocess, hpre]
        rfl
      exact (htyped.noticeDays hword).carried_of_getD (hdays noticeDays hpre) }

theorem band_carried_iff {rules : BandRules F64} (h : parseBandRules item = .ok rules) :
    BandCarried item rules ∧ rules.band.lowerHz ≤ rules.band.upperHz ↔ BandTyped item :=
  ⟨fun ⟨hcarried, hordered⟩ => bandTyped_of_carried h hcarried hordered, bandCarried_of_typed h⟩

/-- What `parse_value` reads outside the bands, and that it reads every band in its place. -/
theorem parseValue_eq_ok {now : DateTime} {value : JsonValue F64} {policy : RegulatoryPolicy F64}
    (h : parseValue now value = .ok policy) :
    (value.get? "name").bind asStr = some policy.name ∧
    (value.get? "jurisdiction").bind asStr = some policy.jurisdiction ∧
    ((value.get? "version").bind asStr).getD "1.0" = policy.version ∧
    List.Forall₂ (fun item rules => parseBandRules item = .ok rules)
      (((value.get? "band_rules").bind asArray).getD []) policy.bandRules := by
  obtain ⟨name, hname, h⟩ := bind_eq_ok.mp h
  obtain ⟨jurisdiction, hjurisdiction, h⟩ := bind_eq_ok.mp h
  rw [okOrElse_eq_ok, read_index asStr _ _ rfl] at hname hjurisdiction
  rw [read_index asStr _ _ rfl, read_index asArray _ _ rfl] at h
  cases hversion : (value.get? "version").bind asStr <;> rw [hversion] at h <;>
    cases hbands : (value.get? "band_rules").bind asArray <;> rw [hbands] at h
  case none.none | some.none =>
    cases h
    exact ⟨hname, hjurisdiction, rfl, .nil⟩
  case none.some | some.some =>
    obtain ⟨bandRules, hrules, h⟩ := bind_eq_ok.mp h
    cases h
    exact ⟨hname, hjurisdiction, rfl, forall₂_of_mapM hrules⟩

/-- An accepted document fails closed exactly when every field with a default is absent or of its
type, and every band has its lower bound first. -/
theorem failsClosed_iff_wellTyped (now : DateTime) (value : JsonValue F64)
    (policy : RegulatoryPolicy F64) (h : parseValue now value = .ok policy) :
    FailsClosed value policy ↔ WellTyped value := by
  obtain ⟨hname, hjurisdiction, hversion, hbands⟩ := parseValue_eq_ok h
  have hiff := forall₂_and_iff hbands fun _ _ => band_carried_iff
  constructor
  · intro hclosed
    refine ⟨hclosed.version.typed, hclosed.bandRules.typed, fun items hitems => ?_⟩
    rw [hitems, Option.getD_some] at hiff
    refine hiff.mp ⟨?_, hclosed.ordered⟩
    obtain hnone | ⟨array, items', harray, hitems', hcarried⟩ := hclosed.bandRules
    · rw [hnone] at hitems
      contradiction
    · rw [harray, Option.bind_some, hitems'] at hitems
      cases hitems
      exact hcarried
  · intro htyped
    have hitems : ∀ item ∈ ((value.get? "band_rules").bind asArray).getD [], BandTyped item := by
      cases hread : (value.get? "band_rules").bind asArray with
      | none => exact nofun
      | some items => exact htyped.bands items hread
    obtain ⟨hcarried, hordered⟩ := hiff.mpr hitems
    exact {
      name := carried_of_eq_some hname rfl
      jurisdiction := carried_of_eq_some hjurisdiction rfl
      version := htyped.version.carried_of_getD hversion
      bandRules := htyped.bandRules.carried_of_getD hcarried
      ordered := hordered }

section Documents

open JsonValue in
/-- A policy of one band, with the given licence requirement and nothing on coordination. -/
def lBandDocument (requirement : JsonValue ℚ) : JsonValue ℚ :=
  object [("name", string "Test Policy"), ("jurisdiction", string "US"),
    ("band_rules", array [object [
      ("band", object [("name", string "L-band"),
        ("min_frequency", number (.posInt 1000000000)),
        ("max_frequency", number (.posInt 2000000000))]),
      ("power_limits", object [("max_power_dbm", number (.float 30))]),
      ("license_requirement", requirement)]])]

def lBandPolicy (licenseType : LicenseType) : RegulatoryPolicy ℚ :=
  { name := "Test Policy"
    version := "1.0"
    jurisdiction := "US"
    bandRules := [{
      band := {
        name := "L-band"
        lowerHz := 1000000000
        upperHz := 2000000000
        regulatoryBody := "UNKNOWN"
        jurisdiction := "GLOBAL" }
      powerLimits := { maxPowerDbm := 30, powerType := .eirp }
      licenseRequirement := { licenseType, requiresCoordination := false }
      coordination := { coordinationBodies := [], process := .none } }]
    issuedAt := 0 }

theorem general_license_carried :
    letI := FloatOps.exact id id
    FailsClosed (lBandDocument (.object [("license_type", .string "General")]))
      (lBandPolicy .general) := by
  let _ := FloatOps.exact id id
  refine (failsClosed_iff_wellTyped 0 _ _ rfl).mpr ⟨nofun, ?_, ?_⟩
  · rintro value hvalue
    cases hvalue
    rfl
  · intro items hitems
    cases hitems
    rw [List.forall_mem_singleton]
    constructor
    case ordered =>
      intro lower upper hlower hupper
      cases hlower
      cases hupper
      decide
    case licenseObject | licenseType =>
      intro value hvalue
      cases hvalue
      rfl
    case operatorClass | responseTime | noticeDays => exact fun hword => absurd hword (by decide)
    all_goals exact nofun

/-- A licence type that is a number turns into the licence type that asks for none. -/
theorem numeric_license_dropped :
    letI := FloatOps.exact id id
    parseValue 0 (lBandDocument (.object [("license_type", .number (.posInt 5))])) =
      .ok (lBandPolicy .none) ∧
    ¬ FailsClosed (lBandDocument (.object [("license_type", .number (.posInt 5))]))
      (lBandPolicy .none) := by
  let _ := FloatOps.exact id id
  refine ⟨rfl, fun hclosed => ?_⟩
  obtain h | ⟨value, items, hvalue, hitems, hbands⟩ := hclosed.bandRules
  · nomatch h
  · cases hvalue
    cases hitems
    obtain ⟨hband, -⟩ := List.forall₂_cons.mp hbands
    nomatch hband.licenseType.typed _ rfl

end Documents

end PolicyParser

end GroundCore.PolicyCompiler
