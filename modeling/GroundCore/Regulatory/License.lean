import GroundCore.Core.Types
import GroundCore.Lib.HashMap

/-! The store of licences.  A licence is kept as a JSON value under a key made of its holder and
its band, and a key is read back only by the text with which it starts. -/

namespace GroundCore.Regulatory

open Lib

/-- A `serde_json::Value`. -/
inductive Value (F64 : Type)
  | null
  | bool (b : Bool)
  | number (x : F64)
  | string (text : String)
  | array (values : List (Value F64))
  | object (fields : List (String × Value F64))

namespace Value

variable {F64 : Type}

def get (value : Value F64) (field : String) : Option (Value F64) :=
  match value with
  | .object fields => fields.lookup field
  | _ => none

def asStr : Value F64 → Option String
  | .string text => some text
  | _ => none

end Value

/-- What the serialisation of a licence takes from other crates: the text of a `DateTime<Utc>`, the
reading of a text as RFC 3339, and which numbers JSON can write. -/
structure Serde (F64 : Type) where
  format : DateTime → String
  parseFromRfc3339 : String → Option DateTime
  isFinite : F64 → Bool

/-- `text.replace(" ", "T")`. -/
def replaceSpaces (text : String) : String :=
  String.ofList (text.toList.map fun c => if c = ' ' then 'T' else c)

structure License (F64 : Type) where
  holder : CustomerId
  validFrom : DateTime
  validUntil : DateTime
  maxPowerDbm : F64

structure LicenseStore (F64 : Type) where
  licenses : HashMap String (Value F64)

def licenseKey (holder : CustomerId) (band : String) : String := holder ++ ":" ++ band

section Operations

variable {F64 : Type}

namespace License

/-- `now` is the reading of the clock. -/
def isValid (license : License F64) (now : DateTime) : Bool :=
  decide (license.validFrom ≤ now) && decide (now < license.validUntil)

/-- The band is a type parameter and leaves no text. -/
def toValue (serde : Serde F64) (license : License F64) : Value F64 :=
  .object
    [("holder", .string license.holder),
      ("band", .null),
      ("valid_from", .string (serde.format license.validFrom)),
      ("valid_until", .string (serde.format license.validUntil)),
      ("max_power_dbm",
        if serde.isFinite license.maxPowerDbm then .number license.maxPowerDbm else .null)]

end License

namespace LicenseStore

def new : LicenseStore F64 := { licenses := ∅ }

def addLicense (store : LicenseStore F64) (key : String) (license : Value F64) :
    LicenseStore F64 :=
  { licenses := store.licenses.insert key license }

/-- The end of a licence as the check reads it: first as the text stands, then with its spaces
replaced. -/
def readTimestamp (serde : Serde F64) (text : String) : Option DateTime :=
  (serde.parseFromRfc3339 text).or (serde.parseFromRfc3339 (replaceSpaces text))

def checkLicenseValidity (serde : Serde F64) (store : LicenseStore F64) (key : String)
    (now : DateTime) : Option Bool := do
  let value ← store.licenses.get? key
  let field ← value.get "valid_until"
  let untilStr ← field.asStr
  let validUntil ← readTimestamp serde untilStr
  return decide (now < validUntil)

def removeLicense (store : LicenseStore F64) (holder : CustomerId) (bandName : String) :
    LicenseStore F64 :=
  { licenses := store.licenses.erase (licenseKey holder bandName) }

def getHolderLicenses (ord : IterOrder String) (store : LicenseStore F64) (holder : CustomerId) :
    List String :=
  (ord.order store.licenses.keys).filter fun key => key.startsWith (holder ++ ":")

end LicenseStore

end Operations

/-! ### Keys -/

/-- The key of a licence of `owner` for `band` starts as the keys of `holder` do, although the
owner is another: the owner's name goes on after the name of the holder and a colon, or the holder's
name goes on so after the owner's and the band continues it. -/
def Shadows (holder owner : CustomerId) (band : String) : Prop :=
  (∃ rest, owner = holder ++ ":" ++ rest) ∨
    ∃ rest more, holder = owner ++ ":" ++ rest ∧ band = rest ++ ":" ++ more

theorem Shadows.ne {holder owner : CustomerId} {band : String} (h : Shadows holder owner band) :
    owner ≠ holder := by
  have hlong : ∀ a b : String, a ≠ a ++ ":" ++ b := by
    intro a b heq
    have hlength := congrArg String.length heq
    have hcolon : ":".length = 1 := rfl
    rw [String.length_append, String.length_append, hcolon] at hlength
    omega
  rintro rfl
  rcases h with ⟨rest, heq⟩ | ⟨rest, more, heq, -⟩
  · exact hlong _ rest heq
  · exact hlong _ rest heq

/-- The keys that start with the name of `holder` and a colon are those of the holder and those
that shadow them. -/
theorem startsWith_licenseKey {holder owner : CustomerId} {band : String} :
    (licenseKey owner band).startsWith (holder ++ ":") = true ↔
      owner = holder ∨ Shadows holder owner band := by
  have hcolon : ":".toList = [':'] := rfl
  rw [String.startsWith_string_iff]
  simp only [licenseKey, String.toList_append, hcolon]
  constructor
  · rintro ⟨rest, heq⟩
    rw [List.append_assoc, List.append_assoc] at heq
    rcases List.append_eq_append_iff.mp heq with ⟨more, howner, htail⟩ | ⟨more, hholder, htail⟩
    · cases more with
      | nil => exact Or.inl (String.toList_inj.mp (by simpa using howner))
      | cons c more =>
        obtain ⟨rfl, -⟩ := List.cons.inj htail
        refine Or.inr (Or.inl ⟨String.ofList more, String.toList_inj.mp ?_⟩)
        simpa [hcolon] using howner
    · cases more with
      | nil => exact Or.inl (String.toList_inj.mp (by simpa using hholder.symm))
      | cons c more =>
        obtain ⟨rfl, hband⟩ := List.cons.inj htail
        refine Or.inr (Or.inr ⟨String.ofList more, String.ofList rest, ?_, ?_⟩)
        · exact String.toList_inj.mp (by simpa [hcolon] using hholder)
        · exact String.toList_inj.mp (by simpa [hcolon] using hband)
  · rintro (rfl | ⟨rest, rfl⟩ | ⟨rest, more, rfl, rfl⟩)
    · exact ⟨band.toList, by simp⟩
    · exact ⟨rest.toList ++ ':' :: band.toList, by simp⟩
    · exact ⟨more.toList, by simp⟩

/-! ### Instants -/

section Instants

variable {F64 : Type} {serde : Serde F64}

/-- A time whose text can be read back. -/
def Readable (serde : Serde F64) (t : DateTime) : Prop :=
  (serde.parseFromRfc3339 (serde.format t)).isSome

theorem replaceSpaces_eq_self {text : String} (h : ' ' ∉ text.toList) :
    replaceSpaces text = text := by
  have hmap : text.toList.map (fun c => if c = ' ' then 'T' else c) = text.toList := by
    conv_rhs => rw [← List.map_id text.toList]
    refine List.map_congr_left fun c hc => if_neg ?_
    rintro rfl
    exact h hc
  rw [replaceSpaces, hmap, String.ofList_toList]

/-- What the check reads of a licence's end: the end itself, or nothing. -/
theorem readTimestamp_format (hspace : ∀ t, ' ' ∉ (serde.format t).toList)
    (hround : ∀ t u, serde.parseFromRfc3339 (serde.format t) = some u → u = t) {t u : DateTime} :
    LicenseStore.readTimestamp serde (serde.format t) = some u ↔ u = t ∧ Readable serde t := by
  rw [LicenseStore.readTimestamp, replaceSpaces_eq_self (hspace t), Option.or_self]
  constructor
  · intro h
    exact ⟨hround t u h, Option.isSome_of_eq_some h⟩
  · rintro ⟨rfl, hread⟩
    obtain ⟨v, hv⟩ := Option.isSome_iff_exists.mp hread
    rw [hv, hround u v hv]

theorem checkLicenseValidity_toValue {store : LicenseStore F64} {key : String}
    {license : License F64} (hget : store.licenses.get? key = some (license.toValue serde))
    (now : DateTime) :
    store.checkLicenseValidity serde key now =
      (LicenseStore.readTimestamp serde (serde.format license.validUntil)).map
        fun validUntil => decide (now < validUntil) := by
  have hfield : (license.toValue serde).get "valid_until" =
      some (.string (serde.format license.validUntil)) := by
    simp [License.toValue, Value.get, List.lookup_cons]
  simp only [LicenseStore.checkLicenseValidity, hget, hfield, Value.asStr, Option.bind_eq_bind,
    Option.bind_some]
  cases LicenseStore.readTimestamp serde (serde.format license.validUntil) with
  | none => rfl
  | some validUntil => rfl

/-- The check holds of a stored licence that ends later, at a time that can be read. -/
theorem checkLicenseValidity_eq_true (hspace : ∀ t, ' ' ∉ (serde.format t).toList)
    (hround : ∀ t u, serde.parseFromRfc3339 (serde.format t) = some u → u = t)
    {store : LicenseStore F64} {key : String} {license : License F64}
    (hget : store.licenses.get? key = some (license.toValue serde)) {now : DateTime} :
    store.checkLicenseValidity serde key now = some true ↔
      Readable serde license.validUntil ∧ now < license.validUntil := by
  rw [checkLicenseValidity_toValue hget, Option.map_eq_some_iff]
  simp only [readTimestamp_format hspace hround, decide_eq_true_eq]
  constructor
  · rintro ⟨validUntil, ⟨rfl, hread⟩, hlt⟩
    exact ⟨hread, hlt⟩
  · rintro ⟨hread, hlt⟩
    exact ⟨_, ⟨rfl, hread⟩, hlt⟩

/-- The check agrees with the licence when it has ended, and before its end when that can be read
exactly if the period has begun. -/
theorem checkLicenseValidity_iff_isValid (hspace : ∀ t, ' ' ∉ (serde.format t).toList)
    (hround : ∀ t u, serde.parseFromRfc3339 (serde.format t) = some u → u = t)
    {store : LicenseStore F64} {key : String} {license : License F64}
    (hget : store.licenses.get? key = some (license.toValue serde)) {now : DateTime} :
    (store.checkLicenseValidity serde key now = some true ↔ license.isValid now = true) ↔
      license.validUntil ≤ now ∨ (Readable serde license.validUntil ↔ license.validFrom ≤ now) := by
  rw [checkLicenseValidity_eq_true hspace hround hget]
  simp only [License.isValid, Bool.and_eq_true, decide_eq_true_eq]
  by_cases hend : now < license.validUntil
  · have hnot : ¬license.validUntil ≤ now := Int.not_le.mpr hend
    simp only [hend, and_true, hnot, false_or]
  · simp only [hend, and_false, Int.not_lt.mp hend, true_or]

end Instants

end GroundCore.Regulatory
