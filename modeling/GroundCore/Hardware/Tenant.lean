import GroundCore.Core.Types
import GroundCore.Lib.HashMap
import GroundCore.Lib.Run
import GroundCore.Lib.SealedBox

/-! The shards of the tenants.  A tenant's data opens with the key that its shard was created with,
and with no other: removing the shard loses the data for good. -/

namespace GroundCore.Hardware

open Lib

inductive PageProtection
  | none
  | readOnly
  | readWrite
  | readExecute

structure ProtectedMemoryRegion where
  baseAddress : ℕ
  size : ℕ
  protection : PageProtection

structure TenantCrypto where
  keyId : String
  keyRotation : DateTime
  keyBytes : List UInt8

namespace TenantCrypto

/-- The key is the one that the operating system fills in. -/
def new (keyId : String) (keyBytes : List UInt8) (now : DateTime) : TenantCrypto :=
  { keyId, keyRotation := now, keyBytes }

def errors : BoxErrors GroundStationError where
  badKey := .hardware
    "Tenant crypto key not initialized (key_bytes empty after deserialization)"
  tooShort := .hardware "Ciphertext too short to contain a 12-byte nonce"
  encryption e := .hardware s!"AES-GCM encrypt failed: {e}"
  decryption e := .hardware s!"AES-GCM decrypt failed: {e}"

/-- The nonce is the one that the operating system generates. -/
def encrypt (aead : Aead) (c : TenantCrypto) (nonce data : List UInt8) : Result (List UInt8) :=
  aead.sealBox errors c.keyBytes nonce data

def decrypt (aead : Aead) (c : TenantCrypto) (data : List UInt8) : Result (List UInt8) :=
  aead.openBox errors c.keyBytes data

end TenantCrypto

structure TenantShard where
  tenantId : CustomerId
  memoryRegion : ProtectedMemoryRegion
  pagePermissions : PageProtection
  cryptoContext : TenantCrypto
  createdAt : DateTime

def TenantShard.new (tenantId : CustomerId) (arenaSize : ℕ) (protection : PageProtection)
    (crypto : TenantCrypto) (now : DateTime) : TenantShard :=
  let baseAddress := 0
  { tenantId
    memoryRegion := ⟨baseAddress, arenaSize, protection⟩
    pagePermissions := protection
    cryptoContext := crypto
    createdAt := now }

structure TenantShardManager where
  shards : HashMap CustomerId TenantShard
  defaultShardSize : ℕ

namespace TenantShardManager

def new (defaultShardSize : ℕ) : TenantShardManager := { shards := ∅, defaultShardSize }

/-- The key and the time are used where the shard is new. -/
def getOrCreate (m : TenantShardManager) (tenantId : CustomerId) (keyBytes : List UInt8)
    (now : DateTime) : TenantShardManager :=
  if (m.shards.get? tenantId).isNone then
    let crypto := TenantCrypto.new s!"key-{tenantId}" keyBytes now
    let shard := TenantShard.new tenantId m.defaultShardSize .readWrite crypto now
    { m with shards := m.shards.insert tenantId shard }
  else m

def get (m : TenantShardManager) (tenantId : CustomerId) : Option TenantShard :=
  m.shards.get? tenantId

def remove (m : TenantShardManager) (tenantId : CustomerId) : TenantShardManager :=
  { m with shards := m.shards.erase tenantId }

end TenantShardManager

inductive TenantCall
  | getOrCreate (tenantId : CustomerId) (keyBytes : List UInt8) (now : DateTime)
  | remove (tenantId : CustomerId)

def TenantShardManager.step (m : TenantShardManager) : TenantCall → TenantShardManager
  | .getOrCreate tenantId keyBytes now => m.getOrCreate tenantId keyBytes now
  | .remove tenantId => m.remove tenantId

/-- The key of the first creation for the tenant since its last removal, if there is one. -/
def heldKey (tenantId : CustomerId) (held : Option (List UInt8)) :
    List TenantCall → Option (List UInt8)
  | [] => held
  | .getOrCreate owner keyBytes _ :: calls =>
    heldKey tenantId (if owner = tenantId then held.or (some keyBytes) else held) calls
  | .remove owner :: calls => heldKey tenantId (if owner = tenantId then none else held) calls

namespace TenantShardManager

/-- The key that a tenant's shard holds. -/
def keyOf (m : TenantShardManager) (tenantId : CustomerId) : Option (List UInt8) :=
  (m.get tenantId).map (·.cryptoContext.keyBytes)

theorem keyOf_getOrCreate (m : TenantShardManager) (owner tenantId : CustomerId)
    (keyBytes : List UInt8) (now : DateTime) :
    (m.getOrCreate owner keyBytes now).keyOf tenantId =
      if owner = tenantId then (m.keyOf tenantId).or (some keyBytes) else m.keyOf tenantId := by
  unfold keyOf get getOrCreate
  cases hget : m.shards.get? owner with
  | none =>
    by_cases heq : tenantId = owner
    · subst heq
      simp [hget, TenantShard.new, TenantCrypto.new]
    · simp [heq, Ne.symm heq]
  | some shard =>
    by_cases heq : owner = tenantId
    · subst heq
      simp [hget]
    · simp [heq]

theorem keyOf_remove (m : TenantShardManager) (owner tenantId : CustomerId) :
    (m.remove owner).keyOf tenantId = if owner = tenantId then none else m.keyOf tenantId := by
  unfold keyOf get remove
  by_cases heq : tenantId = owner
  · simp [heq]
  · simp [heq, Ne.symm heq]

/-- The shard of a tenant keeps the key that it was created with. -/
theorem keyOf_run (m : TenantShardManager) (tenantId : CustomerId) (calls : List TenantCall) :
    (run step m calls).keyOf tenantId = heldKey tenantId (m.keyOf tenantId) calls := by
  induction calls generalizing m with
  | nil => rfl
  | cons call calls ih =>
    rw [run_cons, ih]
    cases call with
    | getOrCreate owner keyBytes now => rw [step, keyOf_getOrCreate, heldKey]
    | remove owner => rw [step, keyOf_remove, heldKey]

/-- After any calls a tenant's shard opens data to a message exactly when the data was sealed from
the message, by that shard or any other, under the key that the tenant's shard was created with. -/
theorem decrypts_of_run {aead : Aead} (h : aead.Lawful) (defaultShardSize : ℕ)
    (calls : List TenantCall) (tenantId : CustomerId) (data message : List UInt8) :
    (∃ shard, (run step (new defaultShardSize) calls).get tenantId = some shard ∧
        shard.cryptoContext.decrypt aead data = .ok message) ↔
      ∃ c : TenantCrypto, heldKey tenantId none calls = some c.keyBytes ∧
        ∃ nonce, nonce.length = aead.nonceLength ∧ c.encrypt aead nonce message = .ok data := by
  have hkey := keyOf_run (new defaultShardSize) tenantId calls
  have hnew : (new defaultShardSize).keyOf tenantId = none := by
    simp [keyOf, get, new]
  rw [hnew] at hkey
  rw [← hkey, keyOf]
  simp only [TenantCrypto.decrypt, TenantCrypto.encrypt, Aead.openBox_iff_sealBox h]
  constructor
  · rintro ⟨shard, hget, hsealed⟩
    exact ⟨shard.cryptoContext, by rw [hget, Option.map_some], hsealed⟩
  · rintro ⟨c, hheld, hsealed⟩
    obtain ⟨shard, hget, hbytes⟩ := Option.map_eq_some_iff.mp hheld
    exact ⟨shard, hget, by rwa [hbytes]⟩

end TenantShardManager

/-- The tag of the empty message under the key and the nonce of zeros. -/
def emptyTag : List UInt8 :=
  [0x53, 0x0f, 0x8a, 0xfb, 0xc7, 0x45, 0x36, 0xb9, 0xa9, 0x63, 0xb4, 0xf1, 0xc4, 0xcb, 0x73, 0x8b]

/-- AES-256-GCM at the key and the nonce of zeros and the empty message, and nowhere else. -/
def emptyAes : Aead where
  keyLength := 32
  nonceLength := 12
  encrypt key nonce message :=
    if key = List.replicate 32 0 ∧ nonce = List.replicate 12 0 ∧ message = [] then .ok emptyTag
    else .error "aead::Error"
  decrypt key nonce ciphertext :=
    if key = List.replicate 32 0 ∧ nonce = List.replicate 12 0 ∧ ciphertext = emptyTag then .ok []
    else .error "aead::Error"

theorem emptyAes_lawful : emptyAes.Lawful := by
  intro key nonce _ _ message ciphertext
  simp only [emptyAes]
  by_cases hzeros : key = List.replicate 32 0 ∧ nonce = List.replicate 12 0
  · rw [hzeros.1, hzeros.2]
    by_cases hmessage : message = []
    · by_cases htag : ciphertext = emptyTag
      · simp [hmessage, htag]
      · simp [hmessage, htag, Ne.symm htag]
    · by_cases htag : ciphertext = emptyTag
      · simp [hmessage, htag, Ne.symm hmessage]
      · simp [hmessage, htag]
  · have hneither : ∀ p : Prop,
        ¬(key = List.replicate 32 0 ∧ nonce = List.replicate 12 0 ∧ p) :=
      fun p hall => hzeros ⟨hall.1, hall.2.1⟩
    rw [if_neg (hneither _), if_neg (hneither _)]
    simp

theorem decrypts_empty :
    ∃ shard, (run TenantShardManager.step (.new 4096)
        [.getOrCreate "a" (List.replicate 32 0) 0, .remove "b"]).get "a" = some shard ∧
      shard.cryptoContext.decrypt emptyAes (List.replicate 12 0 ++ emptyTag) = .ok [] :=
  (TenantShardManager.decrypts_of_run emptyAes_lawful 4096 _ "a" _ []).mpr
    ⟨.new "key-a" (List.replicate 32 0) 0, rfl, List.replicate 12 0, rfl, by decide⟩

end GroundCore.Hardware
