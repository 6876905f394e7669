import Mathlib.Logic.Equiv.Nat
import GroundCore.Bitemporal.Log
import GroundCore.Lib.JsonText

/-! What the hash of a log entry binds.  The texts of the fields are hashed one after the other,
without their lengths.  The type and the two times are JSON texts that end where they end; the ids
and the data are not, and an absent previous hash looks like an empty one. -/

namespace GroundCore.Bitemporal

open Lib JsonText

/-- The bit pattern is not that of an infinity or of an undefined number. -/
def isFinite (bits : F32Bits) : Bool := (bits >>> 23) &&& 0xff != 0xff

/-- The texts of finite `f32` in JSON, and of times. -/
structure TextFormats where
  float32 : F32Bits → String
  rfc3339 : DateTime → String

namespace LogEntryType

/-- An `f32` that is not finite is written as null. -/
def snrScalar (formats : TextFormats) (snr : F32Bits) : Scalar :=
  .token (if isFinite snr then formats.float32 snr else "null").toList

/-- The fields of the JSON object of an entry type, its tag first. -/
def fields (formats : TextFormats) : LogEntryType → List (String × Scalar)
  | sampleReceived sampleId frequency snr =>
    [("type", .string "SampleReceived"), ("sample_id", ofNat sampleId.toNat),
      ("frequency", ofNat frequency.toNat), ("snr", snrScalar formats snr)]
  | demodulatorStateChange carrierLocked symbolSync =>
    [("type", .string "DemodulatorStateChange"), ("carrier_locked", ofBool carrierLocked),
      ("symbol_sync", ofBool symbolSync)]
  | hardwareAllocation deviceId hardwareType =>
    [("type", .string "HardwareAllocation"), ("device_id", .string deviceId),
      ("hardware_type", .string hardwareType)]
  | hardwareRelease deviceId =>
    [("type", .string "HardwareRelease"), ("device_id", .string deviceId)]
  | passStarted satelliteId expectedDurationSec =>
    [("type", .string "PassStarted"), ("satellite_id", .string satelliteId),
      ("expected_duration_sec", ofNat expectedDurationSec.toNat)]
  | passCompleted samplesReceived bytesDecoded =>
    [("type", .string "PassCompleted"), ("samples_received", ofNat samplesReceived.toNat),
      ("bytes_decoded", ofNat bytesDecoded.toNat)]
  | passFailed reason => [("type", .string "PassFailed"), ("reason", .string reason)]
  | shadowPromoted fromDevice toDevice =>
    [("type", .string "ShadowPromoted"), ("from_device", .string fromDevice),
      ("to_device", .string toDevice)]
  | schedulerDecision decisionType rationale =>
    [("type", .string "SchedulerDecision"), ("decision_type", .string decisionType),
      ("rationale", .string rationale)]
  | federationEvent peerStation eventType =>
    [("type", .string "FederationEvent"), ("peer_station", .string peerStation),
      ("event_type", .string eventType)]
  | error errorType message =>
    [("type", .string "Error"), ("error_type", .string errorType), ("message", .string message)]

/-- The signal-to-noise ratio of a received sample. -/
def snr? : LogEntryType → Option F32Bits
  | sampleReceived _ _ snr => some snr
  | _ => none

/-- Two ratios that are written as null are the same. -/
def SameNullSnr (a b : LogEntryType) : Prop :=
  ∀ x ∈ a.snr?, ∀ y ∈ b.snr?, isFinite x = false → isFinite y = false → x = y

end LogEntryType

/-- What is documented of the JSON texts: objects and strings are written in the compact form, and
times and finite numbers so that they can be read back. -/
structure Serializer.Documented {Value : Type} (ser : Serializer Value) (formats : TextFormats) :
    Prop where
  entryType : ∀ entryType,
    ser.entryType entryType = String.ofList (objectText (entryType.fields formats))
  time : ∀ time, ser.time time = String.ofList (stringText (formats.rfc3339 time))
  rfc3339 : Function.Injective formats.rfc3339
  float32 : ∀ x y, isFinite x → isFinite y → formats.float32 x = formats.float32 y → x = y
  numeric : ∀ x, isFinite x → ∀ c ∈ (formats.float32 x).toList,
    c.isDigit ∨ c ∈ ['-', '+', '.', 'e']
  value : Function.Injective ser.value

variable {Value : Type} {ser : Serializer Value} {formats : TextFormats}

/-! ### Entry types -/

theorem Serializer.Documented.snrScalar_inj (h : ser.Documented formats) {x y : F32Bits}
    (heq : LogEntryType.snrScalar formats x = LogEntryType.snrScalar formats y) :
    x = y ∨ isFinite x = false ∧ isFinite y = false := by
  have hnull : ∀ z, isFinite z = true → formats.float32 z ≠ "null" := by
    intro z hz hnull
    have hchar := h.numeric z hz 'n' (by rw [hnull]; decide +kernel)
    simp at hchar
  have htext := String.toList_inj.mp (Scalar.token.inj heq)
  cases hx : isFinite x <;> cases hy : isFinite y <;> simp only [hx, hy, if_true] at htext
  · exact .inr ⟨rfl, rfl⟩
  · exact absurd htext.symm (hnull y hy)
  · exact absurd htext (hnull x hx)
  · exact .inl (h.float32 x y hx hy htext)

theorem Serializer.Documented.valid_snrScalar (h : ser.Documented formats) (snr : F32Bits) :
    (LogEntryType.snrScalar formats snr).Valid := by
  unfold LogEntryType.snrScalar
  split
  · next hfinite =>
    intro c hc
    have hnumeric := h.numeric snr hfinite c hc
    refine ⟨?_, ?_, ?_⟩ <;> rintro rfl <;> simp at hnumeric
  · simp [Scalar.Valid]

theorem Serializer.Documented.valid_fields (h : ser.Documented formats)
    (entryType : LogEntryType) : ∀ field ∈ entryType.fields formats, field.2.Valid := by
  have hstring : ∀ s, (Scalar.string s).Valid := fun _ => trivial
  cases entryType <;>
    simp [LogEntryType.fields, hstring, valid_ofNat, valid_ofBool, h.valid_snrScalar]

/-- The fields tell the tag, and with it what they are of. -/
theorem Serializer.Documented.fields_inj (h : ser.Documented formats) {a b : LogEntryType}
    (hsnr : a.SameNullSnr b) (heq : a.fields formats = b.fields formats) : a = b := by
  cases a <;> cases b <;>
    simp [LogEntryType.fields, ofNat_inj, ofBool_inj, UInt64.toNat_inj] at heq ⊢ <;> try exact heq
  obtain ⟨hid, hfrequency, hscalar⟩ := heq
  refine ⟨hid, hfrequency, ?_⟩
  rcases h.snrScalar_inj hscalar with heq | ⟨hx, hy⟩
  · exact heq
  · exact hsnr _ rfl _ rfl hx hy

/-! ### Entries -/

namespace LogEntry

variable {a b : LogEntry Value}

/-- The hash of the content of an entry, which may not be the one that the entry stores. -/
def contentHash (ser : Serializer Value) (entry : LogEntry Value) : String :=
  computeHash ser entry.entryId entry.passId entry.entryType entry.eventTime entry.receptionTime
    entry.data entry.previousHash

/-- The entries have the same content. -/
structure Agrees (a b : LogEntry Value) : Prop where
  entryId : a.entryId = b.entryId
  passId : a.passId = b.passId
  entryType : a.entryType = b.entryType
  eventTime : a.eventTime = b.eventTime
  receptionTime : a.receptionTime = b.receptionTime
  data : a.data = b.data
  previousHash : a.previousHash = b.previousHash

/-- What the hashed text does not show is the same in both entries. -/
structure SameBoundaries (ser : Serializer Value) (a b : LogEntry Value) : Prop where
  entryId : a.entryId.length = b.entryId.length
  passId : a.passId.length = b.passId.length
  snr : a.entryType.SameNullSnr b.entryType
  data : (ser.value a.data).length = (ser.value b.data).length
  previousHash : a.previousHash.isSome = b.previousHash.isSome

theorem Agrees.sameBoundaries (h : a.Agrees b) : a.SameBoundaries ser b := by
  refine ⟨by rw [h.entryId], by rw [h.passId], ?_, by rw [h.data], by rw [h.previousHash]⟩
  intro x hx y hy _ _
  rw [h.entryType] at hx
  exact Option.some.inj (hx.symm.trans hy)

/-- The text that is hashed, as the list of its characters. -/
theorem text_eq_of_contentHash_eq (hhash : Function.Injective ser.sha256)
    (hser : ser.Documented formats) (hsame : a.contentHash ser = b.contentHash ser) :
    a.entryId.toList ++ (a.passId.toList ++ (objectText (a.entryType.fields formats) ++
        (stringText (formats.rfc3339 a.eventTime.time) ++
          (stringText (formats.rfc3339 a.receptionTime.time) ++
            ((ser.value a.data).toList ++ (a.previousHash.getD "").toList))))) =
      b.entryId.toList ++ (b.passId.toList ++ (objectText (b.entryType.fields formats) ++
        (stringText (formats.rfc3339 b.eventTime.time) ++
          (stringText (formats.rfc3339 b.receptionTime.time) ++
            ((ser.value b.data).toList ++ (b.previousHash.getD "").toList))))) := by
  have htext := toUTF8_toList_inj.mp (hhash (hexLower_inj.mp hsame))
  have hlist := congrArg String.toList htext
  simpa only [hser.entryType, hser.time, String.toList_append, String.toList_ofList,
    List.append_assoc] using hlist

theorem previousHash_eq {x y : Option String} (hsome : x.isSome = y.isSome)
    (h : x.getD "" = y.getD "") : x = y := by
  cases x with
  | none =>
    cases y with
    | none => rfl
    | some y => contradiction
  | some x =>
    cases y with
    | none => contradiction
    | some y => exact congrArg some h

/-- Entries with one hash have the same content exactly when the boundaries that the hashed text
does not show are at the same places. -/
theorem agrees_iff_sameBoundaries (hhash : Function.Injective ser.sha256)
    (hser : ser.Documented formats) (hsame : a.contentHash ser = b.contentHash ser) :
    a.Agrees b ↔ a.SameBoundaries ser b := by
  refine ⟨Agrees.sameBoundaries, fun hbounds => ?_⟩
  have htext := text_eq_of_contentHash_eq hhash hser hsame
  obtain ⟨hentry, htext⟩ := List.append_inj htext
    (by simpa only [String.length_toList] using hbounds.entryId)
  obtain ⟨hpass, htext⟩ := List.append_inj htext
    (by simpa only [String.length_toList] using hbounds.passId)
  obtain ⟨hfields, htext⟩ :=
    objectText_append_inj (hser.valid_fields _) (hser.valid_fields _) htext
  obtain ⟨hevent, htext⟩ := stringText_append_inj htext
  obtain ⟨hreception, htext⟩ := stringText_append_inj htext
  obtain ⟨hdata, hprevious⟩ := List.append_inj htext
    (by simpa only [String.length_toList] using hbounds.data)
  constructor
  · exact String.toList_inj.mp hentry
  · exact String.toList_inj.mp hpass
  · exact hser.fields_inj hbounds.snr hfields
  · exact congrArg EventTime.mk (hser.rfc3339 hevent)
  · exact congrArg ReceptionTime.mk (hser.rfc3339 hreception)
  · exact hser.value (String.toList_inj.mp hdata)
  · exact previousHash_eq hbounds.previousHash (String.toList_inj.mp hprevious)

/-! ### A boundary that moves -/

/-- The text of the start of the epoch, and a number for every other time. -/
def epochFormats : TextFormats where
  float32 bits := String.ofList (Nat.toDigits 10 bits.toNat)
  rfc3339 time :=
    if time = 0 then "1970-01-01T00:00:00Z"
    else String.ofList (Nat.toDigits 10 (Equiv.intEquivNat time))

theorem toDigits_inj {m n : ℕ} : Nat.toDigits 10 m = Nat.toDigits 10 n ↔ m = n := by
  refine ⟨fun h => ?_, fun h => h ▸ rfl⟩
  have hread := congrArg (Nat.ofDigitChars 10 · 0) h
  simpa only [Nat.ofDigitChars_ten_toDigits] using hread

theorem digits_ne_epoch (n : ℕ) :
    String.ofList (Nat.toDigits 10 n) ≠ "1970-01-01T00:00:00Z" := by
  intro h
  have hmem : '-' ∈ Nat.toDigits 10 n := by
    rw [← String.toList_ofList (l := Nat.toDigits 10 n), h]
    decide +kernel
  exact absurd (Nat.isDigit_of_mem_toDigits (by decide) (by decide) hmem) (by decide)

theorem rfc3339_epochFormats_injective : Function.Injective epochFormats.rfc3339 := by
  intro s t h
  simp only [epochFormats] at h
  split at h <;> split at h
  · next hs ht => exact hs.trans ht.symm
  · exact absurd h.symm (digits_ne_epoch _)
  · exact absurd h (digits_ne_epoch _)
  · exact Equiv.intEquivNat.injective (toDigits_inj.mp (String.ofList_injective h))

/-- The texts of entries with null for their data. -/
def nullSerializer (messages : List (List UInt8)) : Serializer Unit where
  sha256 := sha256On messages
  entryType entryType := String.ofList (objectText (entryType.fields epochFormats))
  time time := String.ofList (stringText (epochFormats.rfc3339 time))
  value _ := "null"

theorem documented_nullSerializer (messages : List (List UInt8)) :
    (nullSerializer messages).Documented epochFormats where
  entryType _ := rfl
  time _ := rfl
  rfc3339 := rfc3339_epochFormats_injective
  float32 x y _ _ h := UInt32.toNat_inj.mp (toDigits_inj.mp (String.ofList_injective h))
  numeric x _ c hc := by
    rw [epochFormats, String.toList_ofList] at hc
    exact .inl (Nat.isDigit_of_mem_toDigits (by decide) (by decide) hc)
  value := Function.injective_of_subsingleton _

/-- An entry at the start of the epoch, received at once. -/
def epochEntry (entryId passId hash : String) : LogEntry Unit where
  entryId
  passId
  entryType := .passFailed ""
  eventTime := ⟨0⟩
  receptionTime := ⟨0⟩
  data := ()
  hash
  previousHash := none

/-- The text that is hashed for the entry of a pass. -/
def epochText (ids : String) : List UInt8 :=
  (ids ++ (nullSerializer []).entryType (.passFailed "") ++
    (nullSerializer []).time 0 ++ (nullSerializer []).time 0 ++ "null" ++ "").toUTF8.toList

/-- A digit may be the end of the id of the entry or the start of that of the pass. -/
theorem moved_digit_same_hash :
    ¬ ∀ (ser : Serializer Unit) (formats : TextFormats), Function.Injective ser.sha256 →
      ser.Documented formats → ∀ a b : LogEntry Unit,
        a.contentHash ser = b.contentHash ser → a.Agrees b := by
  intro hclaim
  have hids : "entry-1" ++ "1-pass" = "entry-11" ++ "-pass" := rfl
  have hsame : (epochEntry "entry-1" "1-pass" "").contentHash
        (nullSerializer [epochText "entry-11-pass"]) =
      (epochEntry "entry-11" "-pass" "").contentHash
        (nullSerializer [epochText "entry-11-pass"]) := by
    simp only [contentHash, epochEntry, computeHash, hids]
  have h := hclaim (nullSerializer [epochText "entry-11-pass"]) epochFormats
    (sha256On_injective (List.nodup_singleton _)) (documented_nullSerializer _)
    (epochEntry "entry-1" "1-pass" "") (epochEntry "entry-11" "-pass" "") hsame
  exact absurd h.entryId (by decide)

/-- An entry that stores a hash has the content of the one that stores none. -/
theorem stored_hash_agrees :
    (epochEntry "entry-1" "1-pass" "").Agrees (epochEntry "entry-1" "1-pass" "00") := by
  let ser := nullSerializer [epochText "entry-11-pass"]
  have hser : ser.Documented epochFormats := documented_nullSerializer _
  have hhash : Function.Injective ser.sha256 := sha256On_injective (List.nodup_singleton _)
  have hsame : (epochEntry "entry-1" "1-pass" "").contentHash ser =
      (epochEntry "entry-1" "1-pass" "00").contentHash ser := rfl
  refine (agrees_iff_sameBoundaries hhash hser hsame).mpr ⟨rfl, rfl, ?_, rfl, rfl⟩
  rintro x ⟨⟩

end LogEntry

end GroundCore.Bitemporal
