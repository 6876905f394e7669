import GroundCore.Core.Types
import GroundCore.Lib.ExceptLoops
import GroundCore.Lib.Json

/-! The regulatory rules that the policy compiler reads and turns into types. -/

namespace GroundCore.PolicyCompiler

structure FrequencyBand where
  name : String
  lowerHz : UInt64
  upperHz : UInt64
  regulatoryBody : String
  jurisdiction : String

inductive PowerType
  | eirp
  | conducted
  deriving DecidableEq, Repr

structure PowerLimit (F64 : Type) where
  maxPowerDbm : F64
  powerType : PowerType

inductive LicenseType
  | none
  | general
  | specific (licenseClass : String)
  | amateur (operatorClass : String)
  deriving DecidableEq, Repr

structure LicenseRequirement where
  licenseType : LicenseType
  requiresCoordination : Bool

inductive CoordinationProcess
  | preCoordination (noticeDays : UInt64)
  | dynamic (responseTimeMs : UInt64)
  | none
  deriving DecidableEq, Repr

structure CoordinationRequirement where
  coordinationBodies : List String
  process : CoordinationProcess

structure BandRules (F64 : Type) where
  band : FrequencyBand
  powerLimits : PowerLimit F64
  licenseRequirement : LicenseRequirement
  coordination : CoordinationRequirement

structure RegulatoryPolicy (F64 : Type) where
  name : String
  version : String
  jurisdiction : String
  bandRules : List (BandRules F64)
  issuedAt : DateTime

/-- `RegulatoryPolicy::new` at the time `now`. -/
def RegulatoryPolicy.new {F64 : Type} (name jurisdiction : String) (now : DateTime) :
    RegulatoryPolicy F64 :=
  { name, version := "1.0", jurisdiction, bandRules := [], issuedAt := now }

end GroundCore.PolicyCompiler

/-! The parser of policy documents: it looks each field up in a JSON value, insists on some of them
and falls back on a default for the others. -/

namespace GroundCore.PolicyCompiler

open Lib

/-- `ok_or_else` with an `InvalidConfiguration`. -/
def okOrElse {α : Type} (a : Option α) (message : String) : Result α :=
  match a with
  | some a => .ok a
  | none => .error (.invalidConfiguration message)

/-- `to_lowercase`, as it decides between the words of a policy: no letter outside ASCII has one of
their letters as its lower case. -/
def toLowercase (text : String) : String := String.ofList (text.toList.map Char.toLower)

namespace PolicyParser

variable {F64 F32 : Type} [FloatOps F64 F32]

def parseFrequencyBand (value : JsonValue F64) : Result FrequencyBand := do
  let name ← okOrElse ((value.index "band").index "name").asStr "Missing band name"
  let minFrequency ←
    okOrElse ((value.index "band").index "min_frequency").asU64 "Missing min frequency"
  let maxFrequency ←
    okOrElse ((value.index "band").index "max_frequency").asU64 "Missing max frequency"
  let regulatoryBody := ((value.index "band").index "regulatory_body").asStr.getD "UNKNOWN"
  let jurisdiction := ((value.index "band").index "jurisdiction").asStr.getD "GLOBAL"
  return { name, lowerHz := minFrequency, upperHz := maxFrequency, regulatoryBody, jurisdiction }

def parsePowerType (text : String) : Result PowerType :=
  match toLowercase text with
  | "eirp" => .ok .eirp
  | "conducted" => .ok .conducted
  | _ => .error (.invalidConfiguration s!"Unknown power type: {text}")

def parsePowerLimits (value : JsonValue F64) : Result (PowerLimit F64) := do
  let maxPowerDbm ←
    okOrElse ((value.index "power_limits").index "max_power_dbm").asF64 "Missing max power"
  let powerType ←
    parsePowerType (((value.index "power_limits").index "power_type").asStr.getD "eirp")
  return { maxPowerDbm, powerType }

def parseLicenseType (requirement : JsonValue F64) (text : String) : Result LicenseType :=
  match toLowercase text with
  | "none" => .ok .none
  | "general" => .ok .general
  | "amateur" => .ok (.amateur ((requirement.index "class").asStr.getD "technician"))
  | "specific" => do
    let licenseClass ←
      okOrElse (requirement.index "license_class").asStr "Missing license class"
    return .specific licenseClass
  | _ => .error (.invalidConfiguration s!"Unknown license type: {text}")

def parseLicenseRequirement (value : JsonValue F64) : Result LicenseRequirement := do
  let requirement := value.index "license_requirement"
  let licenseType ←
    parseLicenseType requirement ((requirement.index "license_type").asStr.getD "none")
  let requiresCoordination := (requirement.index "requires_coordination").asBool.getD false
  return { licenseType, requiresCoordination }

def parseCoordinationProcess (coordination : JsonValue F64) (text : String) :
    Result CoordinationProcess :=
  match toLowercase text with
  | "none" => .ok .none
  | "dynamic" => .ok (.dynamic ((coordination.index "response_time_ms").asU64.getD 100))
  | "pre" => .ok (.preCoordination ((coordination.index "notice_days").asU64.getD 30))
  | _ => .error (.invalidConfiguration s!"Unknown coordination process: {text}")

def parseCoordinationRequirement (value : JsonValue F64) : Result CoordinationRequirement := do
  let coordination := value.index "coordination"
  -- the bodies that are not texts are passed over
  let coordinationBodies :=
    ((coordination.index "bodies").asArray.map (·.filterMap JsonValue.asStr)).getD []
  let process ←
    parseCoordinationProcess coordination ((coordination.index "process").asStr.getD "none")
  return { coordinationBodies, process }

def parseBandRules (value : JsonValue F64) : Result (BandRules F64) := do
  let band ← parseFrequencyBand value
  let powerLimits ← parsePowerLimits value
  let licenseRequirement ← parseLicenseRequirement value
  let coordination ← parseCoordinationRequirement value
  return { band, powerLimits, licenseRequirement, coordination }

/-- `parse_value` at the time `now`. -/
def parseValue (now : DateTime) (value : JsonValue F64) : Result (RegulatoryPolicy F64) := do
  let name ← okOrElse (value.index "name").asStr "Missing policy name"
  let jurisdiction ← okOrElse (value.index "jurisdiction").asStr "Missing jurisdiction"
  let policy := RegulatoryPolicy.new name jurisdiction now
  let policy :=
    match (value.index "version").asStr with
    | some version => { policy with version }
    | none => policy
  match (value.index "band_rules").asArray with
  | some bands =>
    let bandRules ← bands.mapM parseBandRules
    return { policy with bandRules }
  | none => return policy

end PolicyParser

end GroundCore.PolicyCompiler
