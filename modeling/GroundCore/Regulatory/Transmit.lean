import GroundCore.Lib.FloatOps
import GroundCore.Regulatory.Reporting

/-! Permission to transmit.  A licence is read back from the store as it was filed, and the check of
a transmission against the store agrees with the transmission under the licence, coordination
apart. -/

namespace GroundCore.Regulatory

open Lib FloatOps

structure Band where
  name : String
  minFrequency : ℕ
  maxFrequency : ℕ

def lBand : Band := ⟨"L-band", 1000000000, 2000000000⟩

def sBand : Band := ⟨"S-band", 2000000000, 4000000000⟩

def cBand : Band := ⟨"C-band", 4000000000, 8000000000⟩

structure Frequency (band : Band) where
  hz : ℕ

def Frequency.new (band : Band) (hz : ℕ) : Option (Frequency band) :=
  if band.minFrequency ≤ hz ∧ hz ≤ band.maxFrequency then some ⟨hz⟩ else none

structure Power (F64 : Type) where
  dbm : F64

structure CoordinationProof (band : Band) where
  coordinatedWith : List String
  coordinationDate : DateTime

/-- `GroundStationError::Regulatory`. -/
structure RegulatoryError where
  message : String
  deriving DecidableEq

inductive ViolationType (F64 : Type)
  | missingLicense (band : String)
  | expiredLicense (holder : CustomerId) (band : String)
  | powerExceedsLimit (band : String) (requestedDbm allowedDbm : F64)
  | missingCoordination (band : String)
  | frequencyOutsideBand (band : String) (frequency : ℕ)

inductive Severity
  | low
  | medium
  | high
  | critical

structure ComplianceViolation (F64 : Type) where
  violationType : ViolationType F64
  description : String
  severity : Severity

structure ComplianceResult (F64 : Type) where
  compliant : Bool
  violations : List (ComplianceViolation F64)
  checkedAt : DateTime

namespace Value

variable {F64 : Type}

def asUnit : Value F64 → Option Unit
  | .null => some ()
  | _ => none

def asF64 : Value F64 → Option F64
  | .number x => some x
  | _ => none

end Value

variable {F64 F32 : Type} (fromStr : String → Option DateTime)

namespace License

def ofFields (holder band validFrom validUntil maxPowerDbm : Value F64) : Option (License F64) := do
  let holder ← holder.asStr
  let _ ← band.asUnit
  let validFrom ← validFrom.asStr >>= fromStr
  let validUntil ← validUntil.asStr >>= fromStr
  let maxPowerDbm ← maxPowerDbm.asF64
  return { holder, validFrom, validUntil, maxPowerDbm }

/-- `serde_json::from_value`: the fields by name, or all of them in order.  `fromStr` reads a text
as a `DateTime<Utc>`. -/
def fromValue : Value F64 → Option (License F64)
  | .object fields => do
    let holder ← fields.lookup "holder"
    let band ← fields.lookup "band"
    let validFrom ← fields.lookup "valid_from"
    let validUntil ← fields.lookup "valid_until"
    let maxPowerDbm ← fields.lookup "max_power_dbm"
    ofFields fromStr holder band validFrom validUntil maxPowerDbm
  | .array [holder, band, validFrom, validUntil, maxPowerDbm] =>
    ofFields fromStr holder band validFrom validUntil maxPowerDbm
  | _ => none

variable [FloatOps F64 F32]

def powerAllowed (license : License F64) (powerDbm : F64) : Bool := le powerDbm license.maxPowerDbm

end License

def LicenseStore.getLicense (store : LicenseStore F64) (holder : CustomerId) (band : Band) :
    Option (License F64) :=
  store.licenses.get? (licenseKey holder band.name) >>= License.fromValue fromStr

section Operations

variable [FloatOps F64 F32]

/-- `now` is the reading of the clock, and `display` the text of a power. -/
def checkTransmitPermission (display : F64 → String) (store : LicenseStore F64) (band : Band)
    (holder : CustomerId) (frequency : ℕ) (powerDbm : F64) (now checkedAt : DateTime) :
    ComplianceResult F64 :=
  let licensing : List (ComplianceViolation F64) :=
    match store.getLicense fromStr holder band with
    | none =>
      [⟨.missingLicense band.name, s!"No license found for {band.name} band", .critical⟩]
    | some license =>
      (if license.isValid now then []
        else [⟨.expiredLicense holder band.name, s!"License for {band.name} band has expired",
          .critical⟩]) ++
      (if license.powerAllowed powerDbm then []
        else [⟨.powerExceedsLimit band.name powerDbm license.maxPowerDbm,
          s!"Power {display powerDbm} dBm exceeds license limit {display license.maxPowerDbm} dBm",
          .high⟩])
  let outside : List (ComplianceViolation F64) :=
    if frequency < band.minFrequency ∨ band.maxFrequency < frequency then
      [⟨.frequencyOutsideBand band.name frequency,
        s!"Frequency {frequency} Hz is outside {band.name} band " ++
          s!"({band.minFrequency}-{band.maxFrequency} Hz)", .critical⟩]
    else []
  let violations := licensing ++ outside
  { compliant := violations.isEmpty, violations, checkedAt }

/-- The band of the license is a type parameter. -/
def transmit {band : Band} (license : License F64) (_frequency : Frequency band) (power : Power F64)
    (coordination : Option (CoordinationProof band)) (requiresCoordination : Bool)
    (now : DateTime) : Except RegulatoryError Unit :=
  if !license.isValid now then .error ⟨"License not valid"⟩
  else if !license.powerAllowed power.dbm then .error ⟨"Power exceeds limit"⟩
  else if requiresCoordination && coordination.isNone then .error ⟨"Coordination required"⟩
  else .ok ()

def transmitNoCoordination {band : Band} (license : License F64) (frequency : Frequency band)
    (power : Power F64) (now : DateTime) : Except RegulatoryError Unit :=
  transmit license frequency power none false now

def transmitWithCoordination {band : Band} (license : License F64) (frequency : Frequency band)
    (power : Power F64) (coordination : CoordinationProof band) (now : DateTime) :
    Except RegulatoryError Unit :=
  transmit license frequency power (some coordination) true now

end Operations

/-! ### The check and the transmission -/

section Agreement

variable [FloatOps F64 F32] {fromStr}

theorem transmit_eq_ok_iff {band : Band} (license : License F64) (frequency : Frequency band)
    (power : Power F64) (coordination : Option (CoordinationProof band))
    (requiresCoordination : Bool) (now : DateTime) :
    transmit license frequency power coordination requiresCoordination now = .ok () ↔
      license.isValid now = true ∧ license.powerAllowed power.dbm = true ∧
        (requiresCoordination = true → coordination.isSome = true) := by
  unfold transmit
  cases license.isValid now with
  | false => simp
  | true =>
    cases license.powerAllowed power.dbm with
    | false => simp
    | true => cases requiresCoordination <;> cases coordination <;> simp

/-- The check passes when the licence that is found allows the transmission in its band. -/
theorem compliant_iff (display : F64 → String) (store : LicenseStore F64) (band : Band)
    (holder : CustomerId) (frequency : ℕ) (powerDbm : F64) (now checkedAt : DateTime) :
    (checkTransmitPermission fromStr display store band holder frequency powerDbm now
        checkedAt).compliant = true ↔
      ∃ license, store.getLicense fromStr holder band = some license ∧
        license.isValid now = true ∧ license.powerAllowed powerDbm = true ∧
        band.minFrequency ≤ frequency ∧ frequency ≤ band.maxFrequency := by
  have houtside : ¬(frequency < band.minFrequency ∨ band.maxFrequency < frequency) ↔
      band.minFrequency ≤ frequency ∧ frequency ≤ band.maxFrequency := by omega
  rw [← houtside]
  unfold checkTransmitPermission
  dsimp only
  cases store.getLicense fromStr holder band with
  | none => simp
  | some license =>
    cases license.isValid now <;> cases license.powerAllowed powerDbm <;> simp

/-- For every store, the check passes exactly when the holder's licence is found and transmitting
under it on the frequency succeeds but for coordination, which the check does not look at. -/
theorem compliant_iff_transmits (display : F64 → String) (store : LicenseStore F64) (band : Band)
    (holder : CustomerId) (frequency : ℕ) (powerDbm : F64) (now checkedAt : DateTime) :
    (checkTransmitPermission fromStr display store band holder frequency powerDbm now
        checkedAt).compliant = true ↔
      ∃ license f, store.getLicense fromStr holder band = some license ∧
        Frequency.new band frequency = some f ∧
        ∀ coordination requiresCoordination,
          transmit license f ⟨powerDbm⟩ coordination requiresCoordination now = .ok () ↔
            (requiresCoordination = true → coordination.isSome = true) := by
  rw [compliant_iff]
  constructor
  · rintro ⟨license, hget, hvalid, hpower, hband⟩
    refine ⟨license, ⟨frequency⟩, hget, by rw [Frequency.new, if_pos hband], fun proof required => ?_⟩
    rw [transmit_eq_ok_iff]
    exact ⟨fun h => h.2.2, fun h => ⟨hvalid, hpower, h⟩⟩
  · rintro ⟨license, f, hget, hnew, htransmit⟩
    have hband : band.minFrequency ≤ frequency ∧ frequency ≤ band.maxFrequency := by
      by_contra hnot
      rw [Frequency.new, if_neg hnot] at hnew
      contradiction
    have hok := (htransmit none false).mpr (by simp)
    obtain ⟨hvalid, hpower, -⟩ := (transmit_eq_ok_iff _ _ _ _ _ _).mp hok
    exact ⟨license, hget, hvalid, hpower, hband⟩

end Agreement

/-! ### The licences of a run -/

section Runs

variable {serde : Serde F64} {fromStr}

/-- The band that a call names. -/
def LicensingCall.bandName : LicensingCall F64 → String
  | .addLicense grant => grant.band
  | .removeLicense _ bandName => bandName

/-- The licence last granted to the holder for the band, unless it was removed since. -/
def lastGranted (holder : CustomerId) (band : String) (held : Option (License F64)) :
    List (LicensingCall F64) → Option (License F64)
  | [] => held
  | .addLicense grant :: calls =>
    lastGranted holder band
      (if grant.license.holder = holder ∧ grant.band = band then some grant.license else held) calls
  | .removeLicense owner bandName :: calls =>
    lastGranted holder band (if owner = holder ∧ bandName = band then none else held) calls

/-- The licence can be read back from the value that is stored for it. -/
structure Restorable (serde : Serde F64) (fromStr : String → Option DateTime)
    (license : License F64) : Prop where
  validFrom : (fromStr (serde.format license.validFrom)).isSome
  validUntil : (fromStr (serde.format license.validUntil)).isSome
  finite : serde.isFinite license.maxPowerDbm = true

/-- The name of a band without a colon tells where the name of the holder ends. -/
theorem licenseKey_inj {holder owner : CustomerId} {band bandName : String}
    (hband : ':' ∉ band.toList) (hname : ':' ∉ bandName.toList) :
    licenseKey owner bandName = licenseKey holder band ↔ owner = holder ∧ bandName = band := by
  have hcolon : ":".toList = [':'] := rfl
  refine ⟨fun heq => ?_, fun h => by rw [h.1, h.2]⟩
  have hlists : owner.toList ++ ':' :: bandName.toList = holder.toList ++ ':' :: band.toList := by
    simpa [licenseKey, hcolon] using congrArg String.toList heq
  rw [← String.toList_inj, ← @String.toList_inj bandName]
  rcases List.append_eq_append_iff.mp hlists with ⟨more, hholder, hrest⟩ | ⟨more, howner, hrest⟩
  · cases more with
    | nil => exact ⟨by simpa using hholder.symm, by simpa using hrest⟩
    | cons c more =>
      obtain ⟨-, htail⟩ := List.cons.inj hrest
      exact absurd (by rw [htail]; simp) hname
  · cases more with
    | nil => exact ⟨by simpa using howner, by simpa using hrest.symm⟩
    | cons c more =>
      obtain ⟨-, htail⟩ := List.cons.inj hrest
      exact absurd (by rw [htail]; simp) hband

theorem fromValue_toValue (hround : ∀ t u, fromStr (serde.format t) = some u → u = t)
    {license restored : License F64} :
    License.fromValue fromStr (license.toValue serde) = some restored ↔
      restored = license ∧ Restorable serde fromStr license := by
  have hfields : License.fromValue fromStr (license.toValue serde) =
      License.ofFields fromStr (.string license.holder) .null
        (.string (serde.format license.validFrom)) (.string (serde.format license.validUntil))
        (if serde.isFinite license.maxPowerDbm then .number license.maxPowerDbm else .null) := by
    simp [License.fromValue, License.toValue, List.lookup_cons]
  rw [hfields]
  constructor
  · intro h
    cases hfrom : fromStr (serde.format license.validFrom) with
    | none => simp [License.ofFields, Value.asStr, hfrom] at h
    | some validFrom =>
      cases huntil : fromStr (serde.format license.validUntil) with
      | none => simp [License.ofFields, Value.asStr, huntil] at h
      | some validUntil =>
        cases hfinite : serde.isFinite license.maxPowerDbm with
        | false => simp [License.ofFields, Value.asF64, hfinite] at h
        | true =>
          obtain rfl := hround _ _ hfrom
          obtain rfl := hround _ _ huntil
          refine ⟨?_, by simp [hfrom], by simp [huntil], hfinite⟩
          simpa [License.ofFields, Value.asStr, Value.asUnit, Value.asF64, hfrom, huntil,
            hfinite] using h.symm
  · rintro ⟨rfl, hrestorable⟩
    obtain ⟨validFrom, hfrom⟩ := Option.isSome_iff_exists.mp hrestorable.validFrom
    obtain ⟨validUntil, huntil⟩ := Option.isSome_iff_exists.mp hrestorable.validUntil
    obtain rfl := hround _ _ hfrom
    obtain rfl := hround _ _ huntil
    simp [License.ofFields, Value.asStr, Value.asUnit, Value.asF64, hfrom, huntil,
      hrestorable.finite]

/-- What is filed under the key of the holder and band is the licence that was last granted. -/
theorem license_granted_run {holder : CustomerId} {band : String} (hband : ':' ∉ band.toList)
    (s : Licensing F64) (calls : List (LicensingCall F64))
    (hcalls : ∀ call ∈ calls, ':' ∉ call.bandName.toList) :
    ((run (Licensing.step serde) s calls).granted.get? (licenseKey holder band)).map (·.license) =
      lastGranted holder band ((s.granted.get? (licenseKey holder band)).map (·.license)) calls := by
  induction calls generalizing s with
  | nil => rfl
  | cons call calls ih =>
    rw [run_cons, ih _ fun c hc => hcalls c (List.mem_cons_of_mem call hc)]
    have hname := hcalls call List.mem_cons_self
    cases call with
    | addLicense grant =>
      have hkey : licenseKey holder band = licenseKey grant.license.holder grant.band ↔
          grant.license.holder = holder ∧ grant.band = band :=
        eq_comm.trans (licenseKey_inj hband hname)
      simp only [Licensing.step, lastGranted, HashMap.get?_insert, hkey]
      split <;> rfl
    | removeLicense owner bandName =>
      have hkey : licenseKey holder band = licenseKey owner bandName ↔
          owner = holder ∧ bandName = band :=
        eq_comm.trans (licenseKey_inj hband hname)
      simp only [Licensing.step, lastGranted, HashMap.get?_erase, hkey]
      split <;> rfl

/-- What is found for the holder and band is the licence that was last granted, as it was granted,
if it can be read back. -/
theorem getLicense_run (hround : ∀ t u, fromStr (serde.format t) = some u → u = t)
    {holder : CustomerId} {band : Band} (hband : ':' ∉ band.name.toList)
    {calls : List (LicensingCall F64)} (hcalls : ∀ call ∈ calls, ':' ∉ call.bandName.toList)
    {license : License F64} :
    (run (Licensing.step serde) .new calls).store.getLicense fromStr holder band = some license ↔
      lastGranted holder band.name none calls = some license ∧
        Restorable serde fromStr license := by
  have hfiled : Filed serde (run (Licensing.step serde) .new calls) := filed_run calls
  have hnew : (Licensing.new : Licensing F64).granted.get? (licenseKey holder band.name) = none :=
    HashMap.get?_empty _
  have hlast : ((run (Licensing.step serde) .new calls).granted.get?
      (licenseKey holder band.name)).map (·.license) = lastGranted holder band.name none calls := by
    rw [license_granted_run hband .new calls hcalls, hnew, Option.map_none]
  rw [← hlast, LicenseStore.getLicense, hfiled.stored]
  cases (run (Licensing.step serde) .new calls).granted.get? (licenseKey holder band.name) with
  | none => simp
  | some grant =>
    rw [Option.map_some, Option.map_some, Option.bind_eq_bind, Option.bind_some,
      fromValue_toValue hround, Option.some.injEq]
    constructor
    · rintro ⟨rfl, hrestorable⟩
      exact ⟨rfl, hrestorable⟩
    · rintro ⟨rfl, hrestorable⟩
      exact ⟨rfl, hrestorable⟩

variable [FloatOps F64 F32]

/-- Over every run of granting and removing licences for bands without a colon in their names, a
transmission passes the check exactly when the licence that the holder was last granted for the band
still stands, can be read back, is valid at the time and allows the power, and the frequency is in
the band. -/
theorem compliant_of_run (hround : ∀ t u, fromStr (serde.format t) = some u → u = t)
    (display : F64 → String) (calls : List (LicensingCall F64))
    (hcalls : ∀ call ∈ calls, ':' ∉ call.bandName.toList) (band : Band)
    (hband : ':' ∉ band.name.toList) (holder : CustomerId) (frequency : ℕ) (powerDbm : F64)
    (now checkedAt : DateTime) :
    (checkTransmitPermission fromStr display (run (Licensing.step serde) .new calls).store band
        holder frequency powerDbm now checkedAt).compliant = true ↔
      ∃ license, lastGranted holder band.name none calls = some license ∧
        Restorable serde fromStr license ∧ license.isValid now = true ∧
        license.powerAllowed powerDbm = true ∧
        band.minFrequency ≤ frequency ∧ frequency ≤ band.maxFrequency := by
  rw [compliant_iff]
  simp only [getLicense_run hround hband hcalls, and_assoc]

end Runs

/-- A licence that is granted again after it was removed. -/
def regranted : List (LicensingCall ℚ) :=
  [.addLicense ⟨⟨"a", 0, Duration.hours 24, 30⟩, "L-band"⟩, .removeLicense "a" "L-band",
    .addLicense ⟨⟨"a", 0, Duration.hours 48, 20⟩, "L-band"⟩]

def midnights : Serde ℚ where
  format := Serde.midnights.format
  parseFromRfc3339 := Serde.midnights.parseFromRfc3339
  isFinite _ := true

theorem compliant_of_regranted :
    letI := FloatOps.exact id id
    (checkTransmitPermission midnights.parseFromRfc3339 (fun _ => "")
      (run (Licensing.step midnights) .new regranted).store lBand "a" 1500000000 (20 : ℚ)
      (Duration.hours 24) (Duration.hours 24)).compliant = true := by
  let _ := FloatOps.exact id id
  have hround : ∀ t u, midnights.parseFromRfc3339 (midnights.format t) = some u → u = t :=
    Serde.midnights_round
  refine (compliant_of_run hround (fun _ => "") regranted (by decide) lBand (by decide) "a"
    1500000000 20 (Duration.hours 24) (Duration.hours 24)).mpr
    ⟨⟨"a", 0, Duration.hours 48, 20⟩, by simp [lastGranted, regranted, lBand], ⟨?_, ?_, rfl⟩, ?_⟩
  · decide +kernel
  · decide +kernel
  · decide +kernel

end GroundCore.Regulatory
