import GroundCore.PolicyCompiler.Parser

/-! The generator of types from a policy.  Each band gives a type of its own, a licence, a
coordination proof and a frequency, whose names are made from the name of the band. -/

namespace GroundCore.PolicyCompiler

/-- The characters of Unicode identifiers. -/
structure IdentChars where
  xidStart : Char → Bool
  xidContinue : Char → Bool
  continue_of_start : ∀ c, xidStart c = true → xidContinue c = true
  start_of_alpha : ∀ c, c.isAlpha = true → xidStart c = true

namespace IdentChars

def isStart (chars : IdentChars) (c : Char) : Bool := c = '_' || chars.xidStart c

def isIdent (chars : IdentChars) (text : String) : Bool :=
  match text.toList with
  | [] => false
  | c :: rest => chars.isStart c && rest.all chars.xidContinue

/-- `format_ident!`, which panics on what is no identifier. -/
def formatIdent (chars : IdentChars) (text : String) : Option String :=
  if chars.isIdent text then some text else none

end IdentChars

inductive FieldType
  | string
  | strings
  | u64
  | dateTime
  | unitPhantom
  | phantom (band : String)
  deriving DecidableEq, Repr

structure Field where
  name : String
  type : FieldType
  deriving DecidableEq, Repr

inductive Item
  | struct (doc : String) (derives : List String) (name : String) (fields : List Field)
  /-- The constants of a band's type. -/
  | frequencyImpl (name : String) (minFrequency maxFrequency : UInt64)
  /-- The method `is_valid` of a licence. -/
  | validityImpl (name : String)
  /-- The function `transmit`. -/
  | transmit
  deriving DecidableEq, Repr

/-- The name that an item adds to its module. -/
def Item.definedName : Item → Option String
  | struct _ _ name _ => some name
  | frequencyImpl _ _ _ => none
  | validityImpl _ => none
  | transmit => some "transmit"

structure GeneratedTypes where
  items : List Item
  deriving DecidableEq, Repr

/-- `band.name.replace("-", "").replace(" ", "")`. -/
def bandSuffix (name : String) : String :=
  String.ofList ((name.toList.filter (· ≠ '-')).filter (· ≠ ' '))

namespace GeneratedTypes

variable (chars : IdentChars)

def generateBandType (band : FrequencyBand) : Option (List Item) := do
  let name ← chars.formatIdent ("Band" ++ bandSuffix band.name)
  let bandName := band.name
  let lowerMhz := band.lowerHz / 1000000
  let upperMhz := band.upperHz / 1000000
  let doc := s!"{bandName} frequency band ({lowerMhz}-{upperMhz} MHz)"
  return [.struct doc ["Debug", "Clone", "Copy", "PartialEq", "Eq", "Hash"] name
      [{ name := "_phantom", type := .unitPhantom }],
    .frequencyImpl name band.lowerHz band.upperHz]

def generateLicenseType (band : FrequencyBand) (requirement : LicenseRequirement) :
    Option (List Item) := do
  let suffix := bandSuffix band.name
  let bandName ← chars.formatIdent ("Band" ++ suffix)
  let licenseName ← chars.formatIdent (suffix ++ "License")
  let doc := "License for " ++ band.name ++ " transmission"
  let derives := ["Debug", "Clone"]
  match requirement.licenseType with
  | .none =>
    return [.struct doc derives licenseName
      [{ name := "holder", type := .string }, { name := "band", type := .phantom bandName }]]
  | .general =>
    return [.struct doc derives licenseName
        [{ name := "holder", type := .string }, { name := "band", type := .phantom bandName },
          { name := "valid_from", type := .dateTime },
          { name := "valid_until", type := .dateTime }],
      .validityImpl licenseName]
  | .specific _ =>
    return [.struct doc derives licenseName
        [{ name := "holder", type := .string }, { name := "license_class", type := .string },
          { name := "band", type := .phantom bandName },
          { name := "valid_from", type := .dateTime },
          { name := "valid_until", type := .dateTime }],
      .validityImpl licenseName]
  | .amateur _ =>
    return [.struct doc derives licenseName
      [{ name := "callsign", type := .string }, { name := "class", type := .string },
        { name := "band", type := .phantom bandName }]]

def generateCoordinationType (band : FrequencyBand) : Option Item := do
  let suffix := bandSuffix band.name
  let bandName ← chars.formatIdent ("Band" ++ suffix)
  let coordName ← chars.formatIdent (suffix ++ "CoordinationProof")
  let doc := "Coordination proof for " ++ band.name ++ " transmission"
  return .struct doc ["Debug", "Clone"] coordName
    [{ name := "coordinated_with", type := .strings },
      { name := "band", type := .phantom bandName },
      { name := "coordination_date", type := .dateTime }]

def generateFrequencyType (band : FrequencyBand) : Option Item := do
  let suffix := bandSuffix band.name
  let bandName ← chars.formatIdent ("Band" ++ suffix)
  let freqName ← chars.formatIdent (suffix ++ "Frequency")
  let name := band.name
  let lowerMhz := band.lowerHz / 1000000
  let upperMhz := band.upperHz / 1000000
  let doc := s!"Frequency type for {name} band ({lowerMhz}-{upperMhz} MHz)"
  return .struct doc ["Debug", "Clone", "Copy"] freqName
    [{ name := "hz", type := .u64 }, { name := "band", type := .phantom bandName }]

/-- `from_policy`, with no result where it panics. -/
def fromPolicy {F64 : Type} (policy : RegulatoryPolicy F64) : Option GeneratedTypes := do
  let bandTypes ← policy.bandRules.mapM fun rules => generateBandType chars rules.band
  let licenseTypes ← policy.bandRules.mapM fun rules =>
    generateLicenseType chars rules.band rules.licenseRequirement
  let coordinationTypes ←
    policy.bandRules.mapM fun rules => generateCoordinationType chars rules.band
  let frequencyTypes ← policy.bandRules.mapM fun rules => generateFrequencyType chars rules.band
  return { items := bandTypes.flatten ++ licenseTypes.flatten ++ coordinationTypes ++
    frequencyTypes ++ [.transmit] }

def definedNames (generated : GeneratedTypes) : List String :=
  generated.items.filterMap Item.definedName

end GeneratedTypes

end GroundCore.PolicyCompiler
