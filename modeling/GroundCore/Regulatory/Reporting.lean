import GroundCore.Lib.Run
import GroundCore.Regulatory.License

/-! The compliance report of a holder.  The report reads the store alone: the keys that start with
the holder's name, and the end of each licence under them.  What it says of the licences that were
filed is settled by their keys and by the two ends of their periods. -/

namespace GroundCore.Regulatory

open Lib

structure ComplianceReport where
  holder : CustomerId
  totalLicenses : ℕ
  validLicenses : ℕ
  expiredLicenses : ℕ
  overallCompliant : Bool
  checkedAt : DateTime

/-- The counters of the report's loop. -/
structure LicenseCounts where
  total : ℕ
  valid : ℕ
  expired : ℕ

section Operations

variable {F64 : Type}

/-- One licence of the report's loop. -/
def LicenseCounts.count (counts : LicenseCounts) (validity : Option Bool) : LicenseCounts :=
  let counts := { counts with total := counts.total + 1 }
  match validity with
  | some true => { counts with valid := counts.valid + 1 }
  | some false => { counts with expired := counts.expired + 1 }
  | none => counts

/-- `clock` is the reading of the clock at the check of each key, `checkedAt` the last one. -/
def getHolderCompliance (serde : Serde F64) (ord : IterOrder String) (store : LicenseStore F64)
    (holder : CustomerId) (clock : String → DateTime) (checkedAt : DateTime) : ComplianceReport :=
  let licenseKeys := store.getHolderLicenses ord holder
  let counts := licenseKeys.foldl
    (fun (counts : LicenseCounts) key =>
      counts.count (store.checkLicenseValidity serde key (clock key)))
    { total := 0, valid := 0, expired := 0 }
  { holder
    totalLicenses := counts.total
    validLicenses := counts.valid
    expiredLicenses := counts.expired
    overallCompliant :=
      decide (0 < counts.total) && counts.expired == 0 && decide (0 < counts.valid)
    checkedAt }

/-- A licence and the band it was issued for. -/
structure Grant (F64 : Type) where
  license : License F64
  band : String

/-- The store beside the licences from which it was filled. -/
structure Licensing (F64 : Type) where
  store : LicenseStore F64
  granted : HashMap String (Grant F64)

inductive LicensingCall (F64 : Type)
  | addLicense (grant : Grant F64)
  | removeLicense (holder : CustomerId) (bandName : String)

namespace Licensing

def new : Licensing F64 := { store := .new, granted := ∅ }

def step (serde : Serde F64) (s : Licensing F64) : LicensingCall F64 → Licensing F64
  | .addLicense grant =>
    let key := licenseKey grant.license.holder grant.band
    { store := s.store.addLicense key (grant.license.toValue serde)
      granted := s.granted.insert key grant }
  | .removeLicense holder bandName =>
    { store := s.store.removeLicense holder bandName
      granted := s.granted.erase (licenseKey holder bandName) }

/-- The keys of a holder's own licences. -/
def keysOf (s : Licensing F64) (holder : CustomerId) : List String :=
  (s.granted.entries.filter fun e => decide (e.2.license.holder = holder)).map Prod.fst

end Licensing

end Operations

/-! ### Counting -/

theorem foldl_count (validity : String → Option Bool) (keys : List String)
    (counts : LicenseCounts) :
    keys.foldl (fun (counts : LicenseCounts) key => counts.count (validity key)) counts =
      { total := counts.total + keys.length
        valid := counts.valid + keys.countP fun key => validity key == some true
        expired := counts.expired + keys.countP fun key => validity key == some false } := by
  induction keys generalizing counts with
  | nil => rfl
  | cons key keys ih =>
    rw [List.foldl_cons, ih, List.length_cons, List.countP_cons, List.countP_cons]
    have htotal : counts.total + 1 + keys.length = counts.total + (keys.length + 1) := by omega
    cases hvalid : validity key with
    | none => simp [LicenseCounts.count, htotal]
    | some valid =>
      cases valid with
      | false =>
        simp [LicenseCounts.count, htotal]
        omega
      | true =>
        simp [LicenseCounts.count, htotal]
        omega

section Reports

variable {F64 : Type} {serde : Serde F64} {s : Licensing F64}

/-- The store holds the value of each granted licence, under the key of its holder and band. -/
structure Filed (serde : Serde F64) (s : Licensing F64) : Prop where
  stored : ∀ key, s.store.licenses.get? key =
    (s.granted.get? key).map fun grant => grant.license.toValue serde
  keyed : ∀ key grant, s.granted.get? key = some grant →
    key = licenseKey grant.license.holder grant.band

theorem filed_new : Filed serde (Licensing.new : Licensing F64) where
  stored key := by simp [Licensing.new, LicenseStore.new]
  keyed key grant h := by simp [Licensing.new] at h

theorem Filed.addLicense (h : Filed serde s) (grant : Grant F64) :
    Filed serde (s.step serde (.addLicense grant)) := by
  refine ⟨fun key => ?_, fun key grant' hget => ?_⟩
  · simp only [Licensing.step, LicenseStore.addLicense, HashMap.get?_insert]
    split
    · rfl
    · exact h.stored key
  · simp only [Licensing.step, HashMap.get?_insert] at hget
    split at hget
    · next heq =>
      obtain rfl := Option.some.inj hget
      exact heq
    · exact h.keyed key grant' hget

theorem Filed.removeLicense (h : Filed serde s) (holder : CustomerId) (bandName : String) :
    Filed serde (s.step serde (.removeLicense holder bandName)) := by
  refine ⟨fun key => ?_, fun key grant hget => ?_⟩
  · simp only [Licensing.step, LicenseStore.removeLicense, HashMap.get?_erase]
    split
    · rfl
    · exact h.stored key
  · simp only [Licensing.step, HashMap.get?_erase] at hget
    split at hget
    · contradiction
    · exact h.keyed key grant hget

theorem filed_run (calls : List (LicensingCall F64)) :
    Filed serde (run (Licensing.step serde) Licensing.new calls) := by
  refine run_preserves (fun s call h => ?_) filed_new calls
  cases call with
  | addLicense grant => exact h.addLicense grant
  | removeLicense holder bandName => exact h.removeLicense holder bandName

theorem Filed.get?_store (h : Filed serde s) {key : String} {grant : Grant F64}
    (hget : s.granted.get? key = some grant) :
    s.store.licenses.get? key = some (grant.license.toValue serde) := by
  rw [h.stored, hget]
  rfl

theorem Filed.mem_keys (h : Filed serde s) {key : String} :
    key ∈ s.store.licenses.keys ↔ ∃ grant, s.granted.get? key = some grant := by
  rw [HashMap.mem_keys]
  simp only [h.stored key, Option.map_eq_some_iff]
  constructor
  · rintro ⟨_, grant, hget, -⟩
    exact ⟨grant, hget⟩
  · rintro ⟨grant, hget⟩
    exact ⟨_, grant, hget, rfl⟩

/-- A listed key is that of a licence of the holder, or of one that shadows the holder's keys. -/
theorem Filed.mem_getHolderLicenses (h : Filed serde s) {ord : IterOrder String}
    {holder : CustomerId} {key : String} :
    key ∈ s.store.getHolderLicenses ord holder ↔
      ∃ grant, s.granted.get? key = some grant ∧
        (grant.license.holder = holder ∨ Shadows holder grant.license.holder grant.band) := by
  rw [LicenseStore.getHolderLicenses, List.mem_filter, IterOrder.mem_order, h.mem_keys]
  constructor
  · rintro ⟨⟨grant, hget⟩, hstarts⟩
    rw [h.keyed key grant hget] at hstarts
    exact ⟨grant, hget, startsWith_licenseKey.mp hstarts⟩
  · rintro ⟨grant, hget, hholder⟩
    refine ⟨⟨grant, hget⟩, ?_⟩
    rw [h.keyed key grant hget]
    exact startsWith_licenseKey.mpr hholder

theorem nodup_getHolderLicenses (ord : IterOrder String) (store : LicenseStore F64)
    (holder : CustomerId) : (store.getHolderLicenses ord holder).Nodup :=
  ((ord.perm _).nodup_iff.mpr store.licenses.nodup_keys).filter _

theorem mem_keysOf {holder : CustomerId} {key : String} :
    key ∈ s.keysOf holder ↔
      ∃ grant, s.granted.get? key = some grant ∧ grant.license.holder = holder := by
  rw [Licensing.keysOf, List.mem_map]
  constructor
  · rintro ⟨⟨key, grant⟩, hmem, rfl⟩
    obtain ⟨hentry, hholder⟩ := List.mem_filter.mp hmem
    exact ⟨grant, HashMap.mem_entries.mp hentry, of_decide_eq_true hholder⟩
  · rintro ⟨grant, hget, hholder⟩
    exact ⟨(key, grant),
      List.mem_filter.mpr ⟨HashMap.mem_entries.mpr hget, decide_eq_true hholder⟩, rfl⟩

theorem nodup_keysOf (s : Licensing F64) (holder : CustomerId) : (s.keysOf holder).Nodup :=
  s.granted.nodup_keys.sublist (List.filter_sublist.map Prod.fst)

/-- The listed keys are those of the holder exactly when no stored licence shadows them. -/
theorem Filed.getHolderLicenses_perm_iff (h : Filed serde s) (ord : IterOrder String)
    (holder : CustomerId) :
    (s.store.getHolderLicenses ord holder).Perm (s.keysOf holder) ↔
      ∀ key grant, s.granted.get? key = some grant →
        ¬Shadows holder grant.license.holder grant.band := by
  rw [List.perm_ext_iff_of_nodup (nodup_getHolderLicenses ord s.store holder)
    (nodup_keysOf s holder)]
  simp only [h.mem_getHolderLicenses, mem_keysOf]
  constructor
  · intro hkeys key grant hget hshadows
    obtain ⟨grant', hget', hholder⟩ := (hkeys key).mp ⟨grant, hget, Or.inr hshadows⟩
    obtain rfl := Option.some.inj (hget'.symm.trans hget)
    exact hshadows.ne hholder
  · intro hnone key
    constructor
    · rintro ⟨grant, hget, hholder | hshadows⟩
      · exact ⟨grant, hget, hholder⟩
      · exact absurd hshadows (hnone key grant hget)
    · rintro ⟨grant, hget, hholder⟩
      exact ⟨grant, hget, Or.inl hholder⟩

theorem validLicenses_eq (ord : IterOrder String) (store : LicenseStore F64) (holder : CustomerId)
    (clock : String → DateTime) (checkedAt : DateTime) :
    (getHolderCompliance serde ord store holder clock checkedAt).validLicenses =
      (store.getHolderLicenses ord holder).countP fun key =>
        store.checkLicenseValidity serde key (clock key) == some true := by
  simp only [getHolderCompliance, foldl_count, Nat.zero_add]

theorem totalLicenses_eq (ord : IterOrder String) (store : LicenseStore F64) (holder : CustomerId)
    (clock : String → DateTime) (checkedAt : DateTime) :
    (getHolderCompliance serde ord store holder clock checkedAt).totalLicenses =
      (store.getHolderLicenses ord holder).length := by
  simp only [getHolderCompliance, foldl_count, Nat.zero_add]

/-- Where no stored licence shadows the holder's keys and every check agrees with its licence, the
report counts the holder's licences and those of them that are valid. -/
theorem Filed.report_exact (h : Filed serde s) (ord : IterOrder String) {holder : CustomerId}
    {clock : String → DateTime} (checkedAt : DateTime)
    (hnone : ∀ key grant, s.granted.get? key = some grant →
      ¬Shadows holder grant.license.holder grant.band)
    (hagrees : ∀ key grant, s.granted.get? key = some grant → grant.license.holder = holder →
      (s.store.checkLicenseValidity serde key (clock key) = some true ↔
        grant.license.isValid (clock key) = true)) :
    (getHolderCompliance serde ord s.store holder clock checkedAt).totalLicenses =
        (s.keysOf holder).length ∧
      (getHolderCompliance serde ord s.store holder clock checkedAt).validLicenses =
        s.granted.entries.countP fun e =>
          e.2.license.isValid (clock e.1) && decide (e.2.license.holder = holder) := by
  have hperm := (h.getHolderLicenses_perm_iff ord holder).mpr hnone
  constructor
  · rw [totalLicenses_eq, hperm.length_eq]
  · rw [validLicenses_eq, hperm.countP_eq, Licensing.keysOf, List.countP_map, List.countP_filter]
    refine List.countP_congr fun e he => ?_
    have hget : s.granted.get? e.1 = some e.2 := HashMap.mem_entries.mp he
    simp only [Function.comp_apply, Bool.and_eq_true, beq_iff_eq, decide_eq_true_eq]
    exact and_congr_left (hagrees e.1 e.2 hget)

/-- In every store filled by adding and removing licences, the report counts the listed keys whose
check holds; the list is that of the holder's licences exactly when no stored licence shadows their
keys, and the check of each agrees with the licence exactly when the licence has ended, or its end
can be read if and only if its period has begun. -/
theorem getHolderCompliance_run (hspace : ∀ t, ' ' ∉ (serde.format t).toList)
    (hround : ∀ t u, serde.parseFromRfc3339 (serde.format t) = some u → u = t)
    (calls : List (LicensingCall F64)) (ord : IterOrder String) (holder : CustomerId)
    (clock : String → DateTime) (checkedAt : DateTime) :
    let s := run (Licensing.step serde) Licensing.new calls
    let report := getHolderCompliance serde ord s.store holder clock checkedAt
    let listed := s.store.getHolderLicenses ord holder
    let counted := fun key =>
      key ∈ listed ∧ s.store.checkLicenseValidity serde key (clock key) = some true
    (report.validLicenses = listed.countP fun key => counted key) ∧
      (listed.Perm (s.keysOf holder) ↔
        ∀ key grant, s.granted.get? key = some grant →
          ¬Shadows holder grant.license.holder grant.band) ∧
      ((∀ key grant, s.granted.get? key = some grant → grant.license.holder = holder →
          (counted key ↔ grant.license.isValid (clock key) = true)) ↔
        ∀ key grant, s.granted.get? key = some grant → grant.license.holder = holder →
          grant.license.validUntil ≤ clock key ∨
            (Readable serde grant.license.validUntil ↔
              grant.license.validFrom ≤ clock key)) := by
  intro s report listed counted
  have hfiled : Filed serde s := filed_run calls
  refine ⟨?_, hfiled.getHolderLicenses_perm_iff ord holder, ?_⟩
  · show (getHolderCompliance serde ord s.store holder clock checkedAt).validLicenses = _
    rw [validLicenses_eq]
    refine List.countP_congr fun key hkey => ?_
    simp [counted, listed, hkey]
  · refine forall_congr' fun key => forall_congr' fun grant => forall_congr' fun hget =>
      forall_congr' fun hholder => ?_
    have hlisted : key ∈ listed := hfiled.mem_getHolderLicenses.mpr ⟨grant, hget, Or.inl hholder⟩
    rw [← checkLicenseValidity_iff_isValid hspace hround (hfiled.get?_store hget)]
    simp only [counted, hlisted, true_and]

end Reports

/-- The texts of the first three midnights of 1970. -/
def Serde.midnights : Serde ℤ where
  format t :=
    if t = 0 then "1970-01-01T00:00:00Z"
    else if t = Duration.hours 24 then "1970-01-02T00:00:00Z"
    else if t = Duration.hours 48 then "1970-01-03T00:00:00Z"
    else ""
  parseFromRfc3339 text :=
    if text = "1970-01-01T00:00:00Z" then some 0
    else if text = "1970-01-02T00:00:00Z" then some (Duration.hours 24)
    else if text = "1970-01-03T00:00:00Z" then some (Duration.hours 48)
    else none
  isFinite _ := true

theorem Serde.midnights_space (t : DateTime) : ' ' ∉ (Serde.midnights.format t).toList := by
  simp only [Serde.midnights]
  split_ifs <;> decide

theorem Serde.midnights_round (t u : DateTime)
    (h : Serde.midnights.parseFromRfc3339 (Serde.midnights.format t) = some u) : u = t := by
  simp only [Serde.midnights] at h
  split_ifs at h <;> simp_all

/-- Two licences of `a`, one of which ends after a day, one that is removed, and one of `b`. -/
def fourLicenses : List (LicensingCall ℤ) :=
  [.addLicense ⟨⟨"a", 0, Duration.hours 48, 30⟩, "L-band"⟩,
    .addLicense ⟨⟨"b", 0, Duration.hours 48, 30⟩, "L-band"⟩,
    .addLicense ⟨⟨"a", 0, Duration.hours 24, 30⟩, "S-band"⟩,
    .addLicense ⟨⟨"a", 0, Duration.hours 48, 30⟩, "X-band"⟩, .removeLicense "a" "X-band"]

/-- After a day the licences of `a` are listed, and the one that has not ended is counted. -/
theorem getHolderCompliance_run_four :
    let s := run (Licensing.step Serde.midnights) Licensing.new fourLicenses
    let listed := s.store.getHolderLicenses (.stored String) "a"
    listed.Perm (s.keysOf "a") ∧
      (∀ key grant, s.granted.get? key = some grant → grant.license.holder = "a" →
        (key ∈ listed ∧ s.store.checkLicenseValidity Serde.midnights key (Duration.hours 24) =
          some true ↔ grant.license.isValid (Duration.hours 24) = true)) ∧
      (getHolderCompliance Serde.midnights (.stored String) s.store "a"
        (fun _ => Duration.hours 24) (Duration.hours 24)).validLicenses = 1 := by
  intro s listed
  have hcases : ∀ key grant, s.granted.get? key = some grant →
      grant = ⟨⟨"a", 0, Duration.hours 48, 30⟩, "L-band"⟩ ∨
        grant = ⟨⟨"b", 0, Duration.hours 48, 30⟩, "L-band"⟩ ∨
          grant = ⟨⟨"a", 0, Duration.hours 24, 30⟩, "S-band"⟩ := by
    intro key grant hget
    simp only [s, fourLicenses, run_cons, run_nil, Licensing.step, Licensing.new,
      HashMap.get?_insert, HashMap.get?_erase, HashMap.get?_empty] at hget
    split_ifs at hget
    · exact .inr (.inr (Option.some.inj hget).symm)
    · exact .inr (.inl (Option.some.inj hget).symm)
    · exact .inl (Option.some.inj hget).symm
  obtain ⟨-, hlisted, hcounted⟩ := getHolderCompliance_run Serde.midnights_space
    Serde.midnights_round fourLicenses (.stored String) "a" (fun _ => Duration.hours 24)
    (Duration.hours 24)
  refine ⟨hlisted.mpr fun key grant hget hshadows => ?_, hcounted.mpr ?_, by decide +kernel⟩
  · rcases hcases key grant hget with rfl | rfl | rfl
    · exact hshadows.ne rfl
    · exact absurd (startsWith_licenseKey.mpr (.inr hshadows)) (by decide +kernel)
    · exact hshadows.ne rfl
  · intro key grant hget hholder
    rcases hcases key grant hget with rfl | rfl | rfl
    · exact .inr (iff_of_true rfl (by decide +kernel))
    · exact absurd hholder (by decide)
    · exact .inl (le_refl _)

/-- A licence of the holder `a:b` is listed for the holder `a`, and a licence of `a` that has not
begun is counted as valid. -/
theorem getHolderCompliance_shadowed :
    let s := run (Licensing.step Serde.midnights) Licensing.new
      [.addLicense ⟨⟨"a:b", 0, Duration.hours 48, 30⟩, "L-band"⟩,
        .addLicense ⟨⟨"a", Duration.hours 24, Duration.hours 48, 30⟩, "S-band"⟩]
    ¬(s.store.getHolderLicenses (.stored String) "a").Perm (s.keysOf "a") ∧
      s.store.checkLicenseValidity Serde.midnights "a:S-band" 0 = some true ∧
      (⟨"a", Duration.hours 24, Duration.hours 48, 30⟩ : License ℤ).isValid 0 = false := by
  decide +kernel

end GroundCore.Regulatory
