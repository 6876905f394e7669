import GroundCore.Core.Types
import GroundCore.Hardware.Pool
import GroundCore.Hardware.PoolSteps

/-! The circuit breakers of the devices: a device that fails repeatedly is not offered until a
cooldown has passed, and then for a probe.

Over whole histories of calls, a device that has failed once is unhealthy for good, so it is not
offered again and its breaker is never half-open: no success is ever counted, and the breaker opens
at the third failure, whether the three come in a row or not. -/

namespace GroundCore.Hardware

open Lib

/-- Consecutive failures before the circuit opens. -/
def circuitOpenThreshold : ℕ := 3

/-- Seconds the circuit stays open before it allows a probe. -/
def circuitCooldownSecs : ℤ := 60

inductive CircuitState
  | closed
  | open (openedAt : DateTime)
  | halfOpen
  deriving DecidableEq, Repr

structure CircuitBreaker where
  state : CircuitState
  consecutiveFailures : ℕ
  totalTrips : ℕ
  deriving DecidableEq, Repr

namespace CircuitBreaker

def new : CircuitBreaker := { state := .closed, consecutiveFailures := 0, totalTrips := 0 }

def recordFailure (breaker : CircuitBreaker) (now : DateTime) : CircuitBreaker :=
  let breaker := { breaker with consecutiveFailures := breaker.consecutiveFailures + 1 }
  if breaker.consecutiveFailures ≥ circuitOpenThreshold then
    { breaker with state := .open now, totalTrips := breaker.totalTrips + 1 }
  else breaker

def recordSuccess (breaker : CircuitBreaker) : CircuitBreaker :=
  { breaker with consecutiveFailures := 0, state := .closed }

def allowsAllocation (breaker : CircuitBreaker) (now : DateTime) : CircuitBreaker × Bool :=
  match breaker.state with
  | .closed => (breaker, true)
  | .halfOpen => (breaker, true)
  | .open openedAt =>
    if Duration.numSeconds (now - openedAt) ≥ circuitCooldownSecs then
      ({ breaker with state := .halfOpen }, true)
    else (breaker, false)

/-- The breaker is open and its cooldown has not passed. -/
def coolingDown (breaker : CircuitBreaker) (now : DateTime) : Bool :=
  match breaker.state with
  | .open openedAt => Duration.numSeconds (now - openedAt) < circuitCooldownSecs
  | .closed | .halfOpen => false

end CircuitBreaker

abbrev Breakers := HashMap String CircuitBreaker

/-- The scan of `find_available`: it stops when it has found enough devices, so the breakers of
those behind are not looked at.  `clock` is the reading of the clock at each device. -/
def scanAvailable (hardwareType : HardwareType) (clock : String → DateTime) :
    ℕ → List HardwareDevice → Breakers → Breakers × List String
  | 0, _, breakers => (breakers, [])
  | _ + 1, [], breakers => (breakers, [])
  | count + 1, d :: ds, breakers =>
    if d.hardwareType ≠ hardwareType || !d.isAvailable then
      scanAvailable hardwareType clock (count + 1) ds breakers
    else
      let breaker := ((breakers.get? d.deviceId).getD .new).allowsAllocation (clock d.deviceId)
      let breakers := breakers.insert d.deviceId breaker.1
      if breaker.2 then
        let found := scanAvailable hardwareType clock count ds breakers
        (found.1, d.deviceId :: found.2)
      else scanAvailable hardwareType clock (count + 1) ds breakers

/-- The devices and allocations of a pool, and its breakers. -/
structure GuardedPool where
  pool : HardwarePool
  circuitBreakers : Breakers

namespace GuardedPool

def findAvailable (s : GuardedPool) (order : IterOrder HardwareDevice) (hardwareType : HardwareType)
    (count : ℕ) (clock : String → DateTime) : GuardedPool × List String :=
  let found := scanAvailable hardwareType clock count (order.order s.pool.devices.values)
    s.circuitBreakers
  ({ s with circuitBreakers := found.1 }, found.2)

def allocate (s : GuardedPool) (passId : PassId) (deviceIds : List String) (durationSec : ℕ)
    (now : DateTime) : GuardedPool × Result HardwareAllocation :=
  let after := s.pool.allocate passId deviceIds durationSec now
  ({ s with pool := after.1 }, after.2)

def markUnhealthy (s : GuardedPool) (deviceId : String) (now : DateTime) :
    GuardedPool × Result Unit :=
  match s.pool.devices.get? deviceId with
  | none => (s, .error (.hardware s!"Device {deviceId} not found"))
  | some device =>
    let breaker := ((s.circuitBreakers.get? deviceId).getD .new).recordFailure now
    ({ pool := { s.pool with
         devices := s.pool.devices.insert deviceId { device with healthy := false } }
       circuitBreakers := s.circuitBreakers.insert deviceId breaker }, .ok ())

/-- A breaker that is not half-open is left as it is. -/
def recordSuccess (s : GuardedPool) (deviceId : String) : GuardedPool :=
  match s.circuitBreakers.get? deviceId with
  | none => s
  | some breaker =>
    if breaker.state = .halfOpen then
      { s with circuitBreakers := s.circuitBreakers.insert deviceId breaker.recordSuccess }
    else s

end GuardedPool

inductive Outcome
  | failure
  | success
  deriving DecidableEq, Repr

inductive BreakerCall
  | markUnhealthy (deviceId : String) (now : DateTime)
  | recordSuccess (deviceId : String)
  | findAvailable (order : IterOrder HardwareDevice) (hardwareType : HardwareType) (count : ℕ)
      (clock : String → DateTime)
  | allocate (passId : PassId) (deviceIds : List String) (durationSec : ℕ) (now : DateTime)

/-- A pool with the outcomes that were recorded for each device, the latest first, and how often the
device was handed out with a half-open breaker since the last one. -/
structure BreakerSession where
  guarded : GuardedPool
  outcomes : String → List Outcome
  probes : String → ℕ

namespace BreakerSession

/-- A pool to which some devices were added. -/
def new (devices : List HardwareDevice) : BreakerSession :=
  { guarded := { pool := devices.foldl HardwarePool.addDevice .new, circuitBreakers := ∅ }
    outcomes := fun _ => [], probes := fun _ => 0 }

def devices (s : BreakerSession) : Devices := s.guarded.pool.devices

/-- The breaker of a device, a new one if it has none yet. -/
def breaker (s : BreakerSession) (id : String) : CircuitBreaker :=
  (s.guarded.circuitBreakers.get? id).getD .new

def isOpen (s : BreakerSession) (id : String) : Bool :=
  match (s.breaker id).state with
  | .open _ => true
  | .closed | .halfOpen => false

def isHalfOpen (s : BreakerSession) (id : String) : Bool := (s.breaker id).state = .halfOpen

def failures (s : BreakerSession) (id : String) : ℕ := (s.outcomes id).count .failure

/-- An outcome is recorded for a device. -/
def record (s : BreakerSession) (id : String) (outcome : Outcome) (guarded : GuardedPool) :
    BreakerSession :=
  { guarded, outcomes := Function.update s.outcomes id (outcome :: s.outcomes id)
    probes := Function.update s.probes id 0 }

def step (s : BreakerSession) : BreakerCall → BreakerSession
  | .markUnhealthy id now =>
    match s.guarded.markUnhealthy id now with
    | (_, .error _) => s
    | (guarded, .ok ()) => s.record id .failure guarded
  | .recordSuccess id => s.record id .success (s.guarded.recordSuccess id)
  | .findAvailable order hardwareType count clock =>
    let found := s.guarded.findAvailable order hardwareType count clock
    let s := { s with guarded := found.1 }
    { s with probes := fun id =>
        if id ∈ found.2 ∧ s.isHalfOpen id then s.probes id + 1 else s.probes id }
  | .allocate passId deviceIds durationSec now =>
    { s with guarded := (s.guarded.allocate passId deviceIds durationSec now).1 }

/-- What a call must not break: a breaker opens only when the last three outcomes of its device are
failures or a probe fails; no device is allocated whose breaker is cooling down; and a device with a
half-open breaker is handed out at most once. -/
structure Lawful (s : BreakerSession) (call : BreakerCall) : Prop where
  opens : ∀ id, s.isOpen id = false → (s.step call).isOpen id = true →
    ((s.step call).outcomes id).take 3 = [.failure, .failure, .failure] ∨
      s.isHalfOpen id = true ∧ ∃ now, call = .markUnhealthy id now
  allocates : ∀ passId deviceIds durationSec now,
    call = .allocate passId deviceIds durationSec now → ∀ id,
      (allocatedTo (s.step call).devices id ≠ allocatedTo s.devices id ∨
        (∃ allocation, (s.guarded.allocate passId deviceIds durationSec now).2 = .ok allocation) ∧
          id ∈ deviceIds) →
      (s.breaker id).coolingDown now = false
  probes : ∀ id, (s.step call).isHalfOpen id = true → (s.step call).probes id ≤ 1

/-- When a device of the pool fails for the third time, no success was recorded for it since its
first failure. -/
def Careful (s : BreakerSession) : BreakerCall → Prop
  | .markUnhealthy id _ => (s.devices.get? id).isSome → s.failures id = 2 →
      (s.outcomes id).take 2 = [.failure, .failure]
  | _ => True

/-- A breaker counts all failures of its device, of which the third opens it, and a device that has
failed is unhealthy. -/
structure Steady (s : BreakerSession) : Prop where
  keyed : ∀ id d, s.devices.get? id = some d → d.deviceId = id
  counts : ∀ id, (s.breaker id).consecutiveFailures = s.failures id
  state : ∀ id, (s.breaker id).state = .closed ∧ s.failures id < 3 ∨
    (∃ openedAt, (s.breaker id).state = .open openedAt) ∧ 3 ≤ s.failures id
  unhealthy : ∀ id, 0 < s.failures id → ∃ d, s.devices.get? id = some d ∧ d.healthy = false

variable {s : BreakerSession} {id : String}

theorem steady_new (devices : List HardwareDevice) : Steady (new devices) := by
  refine ⟨?_, fun _ => rfl, fun _ => .inl ⟨rfl, Nat.zero_lt_succ 2⟩,
    fun _ h => absurd h (Nat.lt_irrefl 0)⟩
  have hkeyed : ∀ pool : HardwarePool, (∀ id d, pool.devices.get? id = some d → d.deviceId = id) →
      ∀ id d, (devices.foldl HardwarePool.addDevice pool).devices.get? id = some d →
        d.deviceId = id := by
    induction devices with
    | nil => exact fun _ h => h
    | cons device devices ih =>
      refine fun pool h => ih _ fun id d hd => ?_
      rw [HardwarePool.addDevice, HashMap.get?_insert] at hd
      split at hd
      · next heq =>
        obtain rfl := Option.some.inj hd
        exact heq.symm
      · exact h id d hd
  exact hkeyed .new fun id d hd => by simp [HardwarePool.new] at hd

theorem Steady.isOpen_iff (h : Steady s) (id : String) :
    s.isOpen id = true ↔ 3 ≤ s.failures id := by
  unfold isOpen
  rcases h.state id with ⟨hclosed, hfew⟩ | ⟨⟨openedAt, hopen⟩, hmany⟩
  · rw [hclosed]
    simpa using hfew
  · rw [hopen]
    simpa using hmany

theorem Steady.isHalfOpen_eq (h : Steady s) (id : String) : s.isHalfOpen id = false := by
  unfold isHalfOpen
  rcases h.state id with ⟨hclosed, -⟩ | ⟨⟨openedAt, hopen⟩, -⟩
  · rw [hclosed]
    rfl
  · rw [hopen]
    rfl

/-- An available device has not failed. -/
theorem Steady.closed_of_available (h : Steady s) {d : HardwareDevice}
    (hd : s.devices.get? id = some d) (havailable : d.isAvailable = true) :
    s.failures id = 0 ∧ (s.breaker id).state = .closed := by
  have hzero : s.failures id = 0 := by
    by_contra hne
    obtain ⟨d', hd', hhealth⟩ := h.unhealthy id (Nat.pos_of_ne_zero hne)
    obtain rfl := Option.some.inj (hd.symm.trans hd')
    simp [HardwareDevice.isAvailable, hhealth] at havailable
  refine ⟨hzero, ?_⟩
  rcases h.state id with ⟨hclosed, -⟩ | ⟨-, hmany⟩
  · exact hclosed
  · omega

section Scan

variable {hardwareType : HardwareType} {clock : String → DateTime}

theorem allowsAllocation_of_closed {b : CircuitBreaker} (h : b.state = .closed) (now : DateTime) :
    b.allowsAllocation now = (b, true) := by
  rw [CircuitBreaker.allowsAllocation, h]

theorem getD_insert_self (breakers : Breakers) (key id : String) :
    ((breakers.insert key ((breakers.get? key).getD .new)).get? id).getD .new =
      (breakers.get? id).getD CircuitBreaker.new := by
  rw [HashMap.get?_insert]
  split
  · next heq => rw [heq]; rfl
  · rfl

/-- The breaker of a device that is offered is closed, and stays as it is. -/
theorem getD_offered {d : HardwareDevice} {ds : List HardwareDevice} {breakers : Breakers}
    (hclosed : ∀ e ∈ d :: ds, e.isAvailable = true →
      ((breakers.get? e.deviceId).getD .new).state = .closed)
    (hoffered : ¬ (d.hardwareType ≠ hardwareType || !d.isAvailable) = true)
    (clock : String → DateTime) (id : String) :
    ((breakers.insert d.deviceId (((breakers.get? d.deviceId).getD .new).allowsAllocation
      (clock d.deviceId)).1).get? id).getD .new = (breakers.get? id).getD CircuitBreaker.new := by
  have havailable : d.isAvailable = true := by
    by_contra hnot
    simp [hnot] at hoffered
  rw [allowsAllocation_of_closed (hclosed d List.mem_cons_self havailable)]
  exact getD_insert_self breakers d.deviceId id

/-- A scan that meets closed breakers changes none. -/
theorem scanAvailable_breakers (count : ℕ) (ds : List HardwareDevice) (breakers : Breakers)
    (hclosed : ∀ d ∈ ds, d.isAvailable = true →
      ((breakers.get? d.deviceId).getD .new).state = .closed) (id : String) :
    ((scanAvailable hardwareType clock count ds breakers).1.get? id).getD .new =
      (breakers.get? id).getD .new := by
  fun_induction scanAvailable hardwareType clock count ds breakers with
  | case1 => rfl
  | case2 => rfl
  | case3 count d ds breakers _ ih => exact ih fun d hd => hclosed d (List.mem_cons_of_mem _ hd)
  | case4 count d ds breakers hoffered breaker breakers' _ found ih =>
    have hsame := getD_offered hclosed hoffered clock
    refine (ih fun e he havailable => ?_).trans (hsame id)
    rw [hsame]
    exact hclosed e (List.mem_cons_of_mem _ he) havailable
  | case5 count d ds breakers hoffered breaker breakers' _ ih =>
    have hsame := getD_offered hclosed hoffered clock
    refine (ih fun e he havailable => ?_).trans (hsame id)
    rw [hsame]
    exact hclosed e (List.mem_cons_of_mem _ he) havailable

end Scan

section Steps

variable {passId : PassId} {devices : Devices}

/-- The loop of `allocate` changes a device only when it marks it while it is available. -/
theorem get?_allocateEach (passId : PassId) (devices : Devices) (ids : List String) (id : String) :
    (allocateEach passId devices ids).1.get? id = devices.get? id ∨
      ∃ d : HardwareDevice, devices.get? id = some d ∧ d.isAvailable = true ∧
        (allocateEach passId devices ids).1.get? id =
          some { d with currentAllocation := some passId } := by
  induction ids generalizing devices with
  | nil => exact .inl rfl
  | cons key ids ih =>
    rw [allocateEach]
    cases hkey : devices.get? key with
    | none => exact .inl rfl
    | some device =>
      by_cases havailable : device.isAvailable = true
      · simp only [HardwareDevice.allocate, havailable]
        have hrest := ih (devices.insert key { device with currentAllocation := some passId })
        rw [HashMap.get?_insert] at hrest
        by_cases heq : id = key
        · subst heq
          rw [if_pos rfl] at hrest
          rcases hrest with hsame | ⟨d, hd, hmarked, -⟩
          · exact .inr ⟨device, hkey, havailable, hsame⟩
          · obtain rfl := Option.some.inj hd
            simp [HardwareDevice.isAvailable] at hmarked
        · rw [if_neg heq] at hrest
          exact hrest
      · simp only [HardwareDevice.allocate, havailable]
        exact .inl rfl

theorem devices_allocate (s : BreakerSession) (passId : PassId) (deviceIds : List String)
    (durationSec : ℕ) (now : DateTime) :
    (s.step (.allocate passId deviceIds durationSec now)).devices =
      (allocateEach passId s.devices deviceIds).1 := by
  show (s.guarded.pool.allocate passId deviceIds durationSec now).1.devices =
    (allocateEach passId s.guarded.pool.devices deviceIds).1
  unfold HardwarePool.allocate
  rcases allocateEach passId s.guarded.pool.devices deviceIds with ⟨devices, _ | _⟩ <;> rfl

theorem Steady.allocate (h : Steady s) (passId : PassId) (deviceIds : List String)
    (durationSec : ℕ) (now : DateTime) :
    Steady (s.step (.allocate passId deviceIds durationSec now)) := by
  refine ⟨fun id d hd => ?_, h.counts, h.state, fun id hpos => ?_⟩
  · rw [devices_allocate] at hd
    rcases get?_allocateEach passId s.devices deviceIds id with heq | ⟨e, he, -, heq⟩
    · exact h.keyed id d (heq ▸ hd)
    · rw [heq] at hd
      obtain rfl := Option.some.inj hd
      exact h.keyed id e he
  · obtain ⟨d, hd, hhealth⟩ := h.unhealthy id hpos
    rw [devices_allocate]
    rcases get?_allocateEach passId s.devices deviceIds id with heq | ⟨e, he, -, heq⟩
    · exact ⟨d, heq.trans hd, hhealth⟩
    · obtain rfl := Option.some.inj (hd.symm.trans he)
      exact ⟨_, heq, hhealth⟩

theorem breaker_findAvailable (h : Steady s) (order : IterOrder HardwareDevice)
    (hardwareType : HardwareType) (count : ℕ) (clock : String → DateTime) (id : String) :
    (s.step (.findAvailable order hardwareType count clock)).breaker id = s.breaker id := by
  apply scanAvailable_breakers
  intro d hd havailable
  obtain ⟨key, hkey⟩ := HashMap.mem_values.mp (order.mem_order.mp hd)
  obtain rfl := h.keyed key d hkey
  exact (h.closed_of_available hkey havailable).2

theorem Steady.findAvailable (h : Steady s) (order : IterOrder HardwareDevice)
    (hardwareType : HardwareType) (count : ℕ) (clock : String → DateTime) :
    Steady (s.step (.findAvailable order hardwareType count clock)) := by
  have hbreaker := breaker_findAvailable h order hardwareType count clock
  refine ⟨h.keyed, fun id => ?_, fun id => ?_, h.unhealthy⟩
  · rw [hbreaker]
    exact h.counts id
  · rw [hbreaker]
    exact h.state id

/-- No breaker is half-open, so a success changes nothing. -/
theorem recordSuccess_eq (h : Steady s) (id : String) : s.guarded.recordSuccess id = s.guarded := by
  unfold GuardedPool.recordSuccess
  cases hget : s.guarded.circuitBreakers.get? id with
  | none => rfl
  | some b =>
    have hhalf := h.isHalfOpen_eq id
    simp only [isHalfOpen, breaker, hget, Option.getD_some, decide_eq_false_iff_not] at hhalf
    exact if_neg hhalf

theorem failures_record (s : BreakerSession) (key : String) (outcome : Outcome)
    (guarded : GuardedPool) (id : String) :
    (s.record key outcome guarded).failures id =
      s.failures id + if id = key ∧ outcome = .failure then 1 else 0 := by
  by_cases heq : id = key
  · subst heq
    cases outcome <;> simp [failures, record]
  · simp [failures, record, heq]

theorem Steady.recordSuccess (h : Steady s) (key : String) :
    Steady (s.step (.recordSuccess key)) := by
  have hfailures : ∀ id, (s.step (.recordSuccess key)).failures id = s.failures id := fun id => by
    simp [step, failures_record]
  have hguarded : (s.step (.recordSuccess key)).guarded = s.guarded := recordSuccess_eq h key
  have hbreaker : ∀ id, (s.step (.recordSuccess key)).breaker id = s.breaker id := fun id => by
    rw [breaker, hguarded]
    rfl
  have hdevices : (s.step (.recordSuccess key)).devices = s.devices := by
    rw [devices, hguarded]
    rfl
  refine ⟨fun id d hd => ?_, fun id => ?_, fun id => ?_, fun id hpos => ?_⟩
  · exact h.keyed id d (hdevices ▸ hd)
  · rw [hbreaker, hfailures]
    exact h.counts id
  · rw [hbreaker, hfailures]
    exact h.state id
  · rw [hfailures] at hpos
    rw [hdevices]
    exact h.unhealthy id hpos

section MarkUnhealthy

variable {key : String} {now : DateTime} {device : HardwareDevice}

theorem markUnhealthy_none (hdevice : s.devices.get? key = none) :
    s.step (.markUnhealthy key now) = s := by
  simp only [devices] at hdevice
  simp only [step, GuardedPool.markUnhealthy, hdevice]

theorem markUnhealthy_some (hdevice : s.devices.get? key = some device) :
    s.step (.markUnhealthy key now) = s.record key .failure
      { pool := { s.guarded.pool with
          devices := s.devices.insert key { device with healthy := false } }
        circuitBreakers :=
          s.guarded.circuitBreakers.insert key ((s.breaker key).recordFailure now) } := by
  simp only [devices] at hdevice
  simp only [step, GuardedPool.markUnhealthy, hdevice]
  rfl

theorem breaker_markUnhealthy (hdevice : s.devices.get? key = some device) (id : String) :
    (s.step (.markUnhealthy key now)).breaker id =
      if id = key then (s.breaker key).recordFailure now else s.breaker id := by
  rw [markUnhealthy_some hdevice, breaker, record, HashMap.get?_insert]
  split <;> rfl

theorem failures_markUnhealthy (hdevice : s.devices.get? key = some device) (id : String) :
    (s.step (.markUnhealthy key now)).failures id = s.failures id + if id = key then 1 else 0 := by
  rw [markUnhealthy_some hdevice, failures_record]
  simp

/-- A failure counts, and from the third on it opens the breaker. -/
theorem recordFailure_eq (b : CircuitBreaker) (now : DateTime) :
    (b.recordFailure now).consecutiveFailures = b.consecutiveFailures + 1 ∧
      (b.recordFailure now).state =
        if 3 ≤ b.consecutiveFailures + 1 then .open now else b.state := by
  unfold CircuitBreaker.recordFailure circuitOpenThreshold
  simp only [ge_iff_le]
  split
  · exact ⟨rfl, rfl⟩
  · exact ⟨rfl, rfl⟩

theorem Steady.markUnhealthy (h : Steady s) (key : String) (now : DateTime) :
    Steady (s.step (.markUnhealthy key now)) := by
  cases hdevice : s.devices.get? key with
  | none =>
    rw [markUnhealthy_none hdevice]
    exact h
  | some device =>
    obtain ⟨hcount, hstate⟩ := recordFailure_eq (s.breaker key) now
    rw [h.counts key] at hcount hstate
    have hdevices : (s.step (.markUnhealthy key now)).devices =
        s.devices.insert key { device with healthy := false } := by
      rw [markUnhealthy_some hdevice]
      rfl
    refine ⟨fun id d hd => ?_, fun id => ?_, fun id => ?_, fun id hpos => ?_⟩
    · rw [hdevices, HashMap.get?_insert] at hd
      split at hd
      · next heq =>
        obtain rfl := Option.some.inj hd
        exact (h.keyed key device hdevice).trans heq.symm
      · exact h.keyed id d hd
    · rw [breaker_markUnhealthy hdevice, failures_markUnhealthy hdevice]
      split
      · next heq => rw [hcount, heq]
      · exact h.counts id
    · rw [breaker_markUnhealthy hdevice, failures_markUnhealthy hdevice]
      by_cases heq : id = key
      · subst heq
        rw [if_pos rfl, if_pos rfl, hstate]
        by_cases hthird : 3 ≤ s.failures id + 1
        · exact .inr ⟨⟨now, if_pos hthird⟩, hthird⟩
        · rw [if_neg hthird]
          rcases h.state id with ⟨hclosed, -⟩ | ⟨-, hmany⟩
          · exact .inl ⟨hclosed, by omega⟩
          · omega
      · rw [if_neg heq, if_neg heq]
        exact h.state id
    · rw [hdevices, HashMap.get?_insert]
      split
      · exact ⟨_, rfl, rfl⟩
      · next hne =>
        rw [failures_markUnhealthy hdevice, if_neg hne] at hpos
        exact h.unhealthy id hpos

end MarkUnhealthy

theorem Steady.step (h : Steady s) (call : BreakerCall) : Steady (s.step call) := by
  cases call with
  | markUnhealthy key now => exact h.markUnhealthy key now
  | recordSuccess key => exact h.recordSuccess key
  | findAvailable order hardwareType count clock =>
    exact h.findAvailable order hardwareType count clock
  | allocate passId deviceIds durationSec now =>
    exact h.allocate passId deviceIds durationSec now

/-- The call records a failure for the device. -/
def Fails (s : BreakerSession) (id : String) (call : BreakerCall) : Prop :=
  (∃ now, call = .markUnhealthy id now) ∧ (s.devices.get? id).isSome

theorem failures_step (s : BreakerSession) (call : BreakerCall) (id : String) :
    Fails s id call ∧ (s.step call).failures id = s.failures id + 1 ∨
      ¬ Fails s id call ∧ (s.step call).failures id = s.failures id := by
  cases call with
  | markUnhealthy key now =>
    cases hdevice : s.devices.get? key with
    | none =>
      rw [markUnhealthy_none hdevice]
      refine .inr ⟨?_, rfl⟩
      rintro ⟨⟨_, heq⟩, hsome⟩
      obtain ⟨rfl, -⟩ := BreakerCall.markUnhealthy.inj heq
      simp [hdevice] at hsome
    | some device =>
      rw [failures_markUnhealthy hdevice]
      by_cases heq : id = key
      · subst heq
        exact .inl ⟨⟨⟨now, rfl⟩, by simp [hdevice]⟩, by rw [if_pos rfl]⟩
      · refine .inr ⟨?_, by rw [if_neg heq]; rfl⟩
        rintro ⟨⟨_, hcall⟩, -⟩
        exact heq (BreakerCall.markUnhealthy.inj hcall).1.symm
  | recordSuccess key =>
    refine .inr ⟨fun h => ?_, by simp [step, failures_record]⟩
    obtain ⟨_, hcall⟩ := h.1
    contradiction
  | findAvailable order hardwareType count clock =>
    refine .inr ⟨fun h => ?_, rfl⟩
    obtain ⟨_, hcall⟩ := h.1
    contradiction
  | allocate passId deviceIds durationSec now =>
    refine .inr ⟨fun h => ?_, rfl⟩
    obtain ⟨_, hcall⟩ := h.1
    contradiction

/-- A breaker opens at the third failure of its device. -/
theorem opens_iff (h : Steady s) (call : BreakerCall) (id : String) :
    s.isOpen id = false ∧ (s.step call).isOpen id = true ↔ s.failures id = 2 ∧ Fails s id call := by
  rw [← Bool.not_eq_true, h.isOpen_iff, (h.step call).isOpen_iff]
  rcases failures_step s call id with ⟨hfails, heq⟩ | ⟨hfails, heq⟩
  · rw [heq, and_iff_left hfails]
    omega
  · rw [heq]
    constructor
    · rintro ⟨hless, hmany⟩
      exact absurd hmany hless
    · exact fun h => absurd h.2 hfails

/-- The outcomes of a device that fails. -/
theorem outcomes_of_fails {now : DateTime} (hdevice : (s.devices.get? id).isSome) :
    (s.step (.markUnhealthy id now)).outcomes id = .failure :: s.outcomes id := by
  obtain ⟨device, hdevice⟩ := Option.isSome_iff_exists.mp hdevice
  rw [markUnhealthy_some hdevice, record]
  exact Function.update_self ..

/-- No device that is allocated has a breaker that is cooling down. -/
theorem not_coolingDown_of_allocate (h : Steady s) {passId : PassId} {deviceIds : List String}
    {durationSec : ℕ} {now : DateTime}
    (hallocated : allocatedTo (s.step (.allocate passId deviceIds durationSec now)).devices id ≠
        allocatedTo s.devices id ∨
      (∃ allocation, (s.guarded.allocate passId deviceIds durationSec now).2 = .ok allocation) ∧
        id ∈ deviceIds) :
    (s.breaker id).coolingDown now = false := by
  have havailable : ∃ d, s.devices.get? id = some d ∧ d.isAvailable = true := by
    rcases hallocated with hne | ⟨⟨allocation, hok⟩, hmem⟩
    · rw [devices_allocate] at hne
      rcases get?_allocateEach passId s.devices deviceIds id with heq | ⟨d, hd, havailable, -⟩
      · exact absurd (by rw [allocatedTo, heq]; rfl) hne
      · exact ⟨d, hd, havailable⟩
    · have hloop : (allocateEach passId s.devices deviceIds).2 = .ok () := by
        have hok : (s.guarded.pool.allocate passId deviceIds durationSec now).2 = .ok allocation :=
          hok
        unfold HardwarePool.allocate at hok
        show (allocateEach passId s.guarded.pool.devices deviceIds).2 = .ok ()
        rcases hrun : allocateEach passId s.guarded.pool.devices deviceIds with ⟨devices, e | _⟩
        · rw [hrun] at hok
          contradiction
        · rfl
      have hall := ((allocateEach_spec passId s.devices deviceIds).1.mp hloop).2 id hmem
      unfold available at hall
      cases hd : s.devices.get? id with
      | none => simp [hd] at hall
      | some d => exact ⟨d, rfl, by simpa [hd] using hall⟩
  obtain ⟨d, hd, havailable⟩ := havailable
  obtain ⟨-, hclosed⟩ := h.closed_of_available hd havailable
  rw [CircuitBreaker.coolingDown, hclosed]

theorem lawful_iff_careful (h : Steady s) (call : BreakerCall) :
    Lawful s call ↔ Careful s call := by
  constructor
  · intro hlawful
    cases call with
    | markUnhealthy key now =>
      intro hdevice htwo
      obtain ⟨hclosed, hopen⟩ := (opens_iff h _ key).mpr ⟨htwo, ⟨now, rfl⟩, hdevice⟩
      rcases hlawful.opens key hclosed hopen with hthree | ⟨hhalf, -⟩
      · rw [outcomes_of_fails hdevice] at hthree
        exact (List.cons.inj hthree).2
      · rw [h.isHalfOpen_eq key] at hhalf
        contradiction
    | recordSuccess key => trivial
    | findAvailable order hardwareType count clock => trivial
    | allocate passId deviceIds durationSec now => trivial
  · intro hcareful
    refine ⟨fun id hclosed hopen => ?_, ?_, fun id hhalf => ?_⟩
    · obtain ⟨htwo, ⟨now, rfl⟩, hdevice⟩ := (opens_iff h call id).mp ⟨hclosed, hopen⟩
      left
      rw [outcomes_of_fails hdevice]
      exact congrArg (Outcome.failure :: ·) (hcareful hdevice htwo)
    · rintro passId deviceIds durationSec now rfl id hallocated
      exact not_coolingDown_of_allocate h hallocated
    · rw [(h.step call).isHalfOpen_eq id] at hhalf
      contradiction

end Steps

/-- In a history of calls the breakers keep their law exactly when no success is recorded between
the first and the third failure of a device. -/
theorem lawful_iff_careful_run (devices : List HardwareDevice) (calls : List BreakerCall) :
    Along step Lawful (new devices) calls ↔ Along step Careful (new devices) calls :=
  along_congr (I := Steady) (fun _ call h => lawful_iff_careful h call)
    (fun _ call h _ => h.step call) (steady_new devices)

/-- An SDR that can receive on one band. -/
def sdr : HardwareDevice :=
  .new "sdr-0" .sdr (.new (400000000, 450000000) 2000000) 0

/-- Three failures with a success between the first two open the breaker. -/
theorem sdr_opens_early :
    let s := run step (new [sdr])
      [.markUnhealthy "sdr-0" 0, .recordSuccess "sdr-0", .markUnhealthy "sdr-0" 0]
    s.isOpen "sdr-0" = false ∧ (s.step (.markUnhealthy "sdr-0" 0)).isOpen "sdr-0" = true ∧
      (s.step (.markUnhealthy "sdr-0" 0)).outcomes "sdr-0" =
        [.failure, .failure, .success, .failure] ∧
      ¬ Lawful s (.markUnhealthy "sdr-0" 0) := by
  intro s
  have hsteady : Steady s := run_preserves (fun _ call h => h.step call) (steady_new [sdr]) _
  refine ⟨by decide, by decide, by decide, fun hlawful => ?_⟩
  exact absurd ((lawful_iff_careful hsteady _).mp hlawful (by decide) (by decide)) (by decide)

end BreakerSession

end GroundCore.Hardware
