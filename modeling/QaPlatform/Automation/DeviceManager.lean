import Mathlib.Data.Finset.Card
import Mathlib.Data.List.MinMax
import Mathlib.Data.Prod.Lex
import Mathlib.Data.String.Basic
import QaPlatform.Automation.Models
import QaPlatform.Base.Table
import QaPlatform.Core

/-!
# The in-memory device manager

`InMemoryDeviceManager` of `app/automation/devices.py`. Its lock makes every
method one step; a method that raises keeps what it changed before it raised
(an expiry sweep, in particular), so each returns the manager beside its result.
`str.casefold` is the parameter `casefold`: nothing depends on which fold it is.
-/

namespace QaPlatform.Automation

/-- `Device` of `app/automation/models.py`. -/
structure Device where
  id : Uuid
  name : String
  kind : String
  platform : String
  capabilities : Finset String
  agentId : String
  enabled : Bool
  status : DeviceStatus
  lastHeartbeatAt : Option Instant
  activeLeaseId : Option Uuid
  version : Nat
  createdAt : Instant
  updatedAt : Instant
deriving DecidableEq

/-- `DeviceLease`; of its token it has the hash only. -/
structure DeviceLease where
  id : Uuid
  deviceId : Uuid
  taskId : String
  owner : String
  tokenHash : TokenHash
  status : DeviceLeaseStatus
  acquiredAt : Instant
  expiresAt : Instant
  releasedAt : Option Instant
  version : Nat
deriving DecidableEq

instance : Keyed Device := ⟨Device.id⟩
instance : Keyed DeviceLease := ⟨DeviceLease.id⟩

@[simp] theorem Device.key_eq (d : Device) : key d = d.id := rfl
@[simp] theorem DeviceLease.key_eq (l : DeviceLease) : key l = l.id := rfl

/-- The field constraints that constructing a `Device` checks. -/
def Device.Valid (d : Device) : Prop :=
  (1 ≤ d.name.length ∧ d.name.length ≤ 150) ∧ (1 ≤ d.kind.length ∧ d.kind.length ≤ 50)
    ∧ (1 ≤ d.platform.length ∧ d.platform.length ≤ 100)
    ∧ (1 ≤ d.agentId.length ∧ d.agentId.length ≤ 200)
    ∧ d.capabilities.card ≤ 100
    ∧ ∀ item ∈ d.capabilities, 1 ≤ item.length ∧ item.length ≤ 100

instance (d : Device) : Decidable d.Valid := by
  unfold Device.Valid
  infer_instance

/-- The exceptions of the in-memory managers, with their messages. -/
inductive ManagerError where
  | notFound (message : String)
  | conflict (message : String)
  | lease (message : String)
  | validation (message : String)
  /-- pydantic's `ValidationError`, outside the automation hierarchy. -/
  | schema
  /-- `hmac.compare_digest` on a text that is not ASCII. -/
  | typeError
deriving DecidableEq, Repr

/-- The write that hands an expired lease back. -/
def DeviceLease.expire (lease : DeviceLease) (now : Instant) : DeviceLease :=
  { lease with
    status := .expired
    releasedAt := some now
    version := lease.version + 1 }

/-- What `acquire` returns: the device, its lease, and the token, once. -/
structure ClaimedDeviceLease where
  device : Device
  lease : DeviceLease
  leaseToken : String
deriving DecidableEq

/-- `InMemoryDeviceManager`: devices, leases, the names in use, and when a device counts as
offline. -/
structure InMemoryDeviceManager where
  devices : Table Device
  leases : Table DeviceLease
  /-- `_names`: casefolded name to device id. -/
  names : List (String × Uuid)
  offlineAfterSeconds : Nat

namespace InMemoryDeviceManager

/-- `__init__`, which refuses a threshold that is not positive. -/
def init (offlineAfterSeconds : Nat) : Except ManagerError InMemoryDeviceManager :=
  if offlineAfterSeconds < 1 then
    .error (.validation "device offline threshold must be positive")
  else
    .ok ⟨Table.empty, Table.empty, [], offlineAfterSeconds⟩

/-- The threshold, in microseconds. -/
def offlineAfter (m : InMemoryDeviceManager) : Int := seconds m.offlineAfterSeconds

/-! ## Helpers -/

/-- `_effective_status`: what a device is shown as, given its lease and its last heartbeat. -/
def effectiveStatus (m : InMemoryDeviceManager) (device : Device) (now : Instant) :
    DeviceStatus :=
  if device.status = .maintenance then .maintenance
  else if ¬ device.enabled then .offline
  else match device.lastHeartbeatAt with
    | none => .offline
    | some heartbeat =>
      if heartbeat + m.offlineAfter ≤ now then .offline
      else if device.activeLeaseId.isSome then device.status
      else .idle

/-- `_available_status`: what a device becomes when it is let go. -/
def availableStatus (m : InMemoryDeviceManager) (device : Device) (now : Instant) :
    DeviceStatus :=
  if device.status = .maintenance then .maintenance
  else if ¬ device.enabled then .offline
  else match device.lastHeartbeatAt with
    | none => .offline
    | some heartbeat => if now < heartbeat + m.offlineAfter then .idle else .offline

/-- `_effective_copy`: the device with the status it is shown with. -/
def effectiveCopy (m : InMemoryDeviceManager) (device : Device) (now : Instant) : Device :=
  { device with status := m.effectiveStatus device now }

/-- `_require_device`. -/
def requireDevice (m : InMemoryDeviceManager) (deviceId : Uuid) : Except ManagerError Device :=
  match m.devices.get? deviceId with
  | some device => .ok device
  | none => .error (.notFound "device was not found")

/-- The body of the sweep. A lease's device is always registered, so the
`KeyError` of the source cannot occur. -/
def expireOne (now : Instant) (m : InMemoryDeviceManager) (lease : DeviceLease) :
    InMemoryDeviceManager :=
  if lease.status = .active ∧ lease.expiresAt ≤ now then
    let leases := m.leases.put (lease.expire now)
    match m.devices.get? lease.deviceId with
    | none => { m with leases }
    | some device =>
      if device.activeLeaseId = some lease.id then
        { m with
          leases
          devices := m.devices.put { device with
            activeLeaseId := none
            status := m.availableStatus device now
            version := device.version + 1
            updatedAt := now } }
      else { m with leases }
  else m

/-- `_expire_locked`: the manager after the sweep and the leases it expired. -/
def expireLocked (m : InMemoryDeviceManager) (now : Instant) :
    InMemoryDeviceManager × List DeviceLease :=
  (m.leases.rows.foldl (expireOne now) m,
    (m.leases.rows.filter (fun l => l.status = .active ∧ l.expiresAt ≤ now)).map
      (·.expire now))

/-- `_require_lease`: an active lease of the owner that has not run out, and its device. -/
def requireLease (m : InMemoryDeviceManager) (leaseId : Uuid) (owner leaseToken : String)
    (now : Instant) : Except ManagerError (DeviceLease × Device) :=
  match m.leases.get? leaseId with
  | none => .error (.notFound "device lease was not found")
  | some lease =>
    if lease.status ≠ .active ∨ lease.owner ≠ owner ∨ lease.expiresAt ≤ now
        ∨ lease.tokenHash ≠ tokenHash leaseToken then
      .error (.lease "device lease is invalid or expired")
    else match m.devices.get? lease.deviceId with
      | none => .error (.notFound "device was not found")
      | some device =>
        if device.activeLeaseId ≠ some lease.id then
          .error (.lease "device lease is no longer active")
        else .ok (lease, device)

/-! ## Methods -/

/-- `register`: a new device under a name that nobody has, however it is written. -/
def register (casefold : String → String) (m : InMemoryDeviceManager)
    (name agentId kind platform : String) (capabilities : Finset String) (now : Instant) :
    InMemoryDeviceManager × Except ManagerError Device :=
  if casefold name ∈ m.names.map Prod.fst then
    (m, .error (.conflict "device name already exists"))
  else if m.devices.rows.any (·.agentId = agentId) then
    (m, .error (.conflict "device agent id already exists"))
  else
    let device (id : Uuid) : Device :=
      { id, name, agentId, kind, platform, capabilities, enabled := true
        status := .offline, lastHeartbeatAt := none, activeLeaseId := none, version := 0
        createdAt := now, updatedAt := now }
    let id := m.devices.next
    if ¬ (device id).Valid then (m, .error .schema)
    else
      ({ m with devices := m.devices.add device, names := m.names ++ [(casefold name, id)] },
        .ok (device id))

/-- `heartbeat`, which only the agent of the device may send. -/
def heartbeat (m : InMemoryDeviceManager) (deviceId : Uuid) (agentId : String) (now : Instant) :
    InMemoryDeviceManager × Except ManagerError Device :=
  match m.requireDevice deviceId with
  | .error e => (m, .error e)
  | .ok device =>
    if ¬ (isAscii device.agentId ∧ isAscii agentId) then (m, .error .typeError)
    else if device.agentId ≠ agentId then
      (m, .error (.lease "device agent identity does not match"))
    else
      let status :=
        if device.status ≠ .maintenance ∧ device.activeLeaseId = none then
          if device.enabled then .idle else .offline
        else device.status
      let device := { device with
        lastHeartbeatAt := some now
        status
        version := device.version + 1
        updatedAt := now }
      ({ m with devices := m.devices.put device }, .ok (m.effectiveCopy device now))

/-- `get`, after the leases that have run out. -/
def get (m : InMemoryDeviceManager) (deviceId : Uuid) (now : Instant) :
    InMemoryDeviceManager × Except ManagerError Device :=
  let m := (m.expireLocked now).1
  (m, (m.requireDevice deviceId).map (m.effectiveCopy · now))

/-- `list_devices`; the source sorts the copies by name, which no state depends on. -/
def listDevices (m : InMemoryDeviceManager) (now : Instant) :
    InMemoryDeviceManager × Except ManagerError (List Device) :=
  let m := (m.expireLocked now).1
  (m, .ok (m.devices.rows.map (m.effectiveCopy · now)))

/-- The devices `acquire` chooses from, after its sweep. -/
def acquireCandidates (m : InMemoryDeviceManager) (required : Finset String) (now : Instant) :
    List Device :=
  m.devices.rows.filter (fun device =>
    device.enabled ∧ m.effectiveStatus device now = .idle ∧ required ⊆ device.capabilities)

/-- `acquire`: the first idle device that has what is asked for, leased under a new token. -/
def acquire (casefold : String → String) (m : InMemoryDeviceManager) (taskId owner : String)
    (required : Finset String) (leaseSeconds : Int) (leaseToken : String) (now : Instant) :
    InMemoryDeviceManager × Except ManagerError (Option ClaimedDeviceLease) :=
  if taskId = "" ∨ owner = "" ∨ leaseSeconds < 1 then
    (m, .error (.validation "device lease request is invalid"))
  else
    let m := (m.expireLocked now).1
    match (m.acquireCandidates required now).argmin (fun d => toLex (casefold d.name, d.id)) with
    | none => (m, .ok none)
    | some device =>
      let lease (id : Uuid) : DeviceLease :=
        { id, deviceId := device.id, taskId, owner
          tokenHash := tokenHash leaseToken, status := .active, acquiredAt := now
          expiresAt := now + seconds leaseSeconds, releasedAt := none, version := 0 }
      let id := m.leases.next
      let device := { device with
        activeLeaseId := some id
        status := .reserved
        version := device.version + 1
        updatedAt := now }
      ({ m with leases := m.leases.add lease, devices := m.devices.put device },
        .ok (some ⟨device, lease id, leaseToken⟩))

/-- `start_work`: the device of a valid lease becomes busy. -/
def startWork (m : InMemoryDeviceManager) (leaseId : Uuid) (owner leaseToken : String)
    (now : Instant) : InMemoryDeviceManager × Except ManagerError ClaimedDeviceLease :=
  match m.requireLease leaseId owner leaseToken now with
  | .error e => (m, .error e)
  | .ok (lease, device) =>
    let device := { device with status := .busy, version := device.version + 1, updatedAt := now }
    ({ m with devices := m.devices.put device }, .ok ⟨device, lease, leaseToken⟩)

/-- `renew`: a valid lease ends later. -/
def renew (m : InMemoryDeviceManager) (leaseId : Uuid) (owner leaseToken : String)
    (leaseSeconds : Int) (now : Instant) :
    InMemoryDeviceManager × Except ManagerError DeviceLease :=
  if leaseSeconds < 1 then
    (m, .error (.validation "device lease duration must be positive"))
  else match m.requireLease leaseId owner leaseToken now with
    | .error e => (m, .error e)
    | .ok (lease, _) =>
      let lease := { lease with
        expiresAt := now + seconds leaseSeconds
        version := lease.version + 1 }
      ({ m with leases := m.leases.put lease }, .ok lease)

/-- `release`: a valid lease ends, and its device is let go. -/
def release (m : InMemoryDeviceManager) (leaseId : Uuid) (owner leaseToken : String)
    (now : Instant) : InMemoryDeviceManager × Except ManagerError DeviceLease :=
  match m.requireLease leaseId owner leaseToken now with
  | .error e => (m, .error e)
  | .ok (lease, device) =>
    let lease := { lease with
      status := .released
      releasedAt := some now
      version := lease.version + 1 }
    let device := { device with
      activeLeaseId := none
      status := m.availableStatus device now
      version := device.version + 1
      updatedAt := now }
    ({ m with leases := m.leases.put lease, devices := m.devices.put device }, .ok lease)

/-- `set_maintenance`. Leaving maintenance does not look at the lease of the device. -/
def setMaintenance (m : InMemoryDeviceManager) (deviceId : Uuid) (enabled : Bool)
    (now : Instant) : InMemoryDeviceManager × Except ManagerError Device :=
  match m.requireDevice deviceId with
  | .error e => (m, .error e)
  | .ok device =>
    if enabled ∧ device.activeLeaseId.isSome then
      (m, .error (.conflict "an actively leased device cannot enter maintenance"))
    else
      let device := { device with
        -- the helper does not look at the active lease
        status := if enabled then .maintenance else m.availableStatus device now
        version := device.version + 1
        updatedAt := now }
      ({ m with devices := m.devices.put device }, .ok (m.effectiveCopy device now))

/-! ## Runs -/

/-- A method call, with the token `secrets.token_urlsafe` returns in it. -/
inductive Call where
  | register (name agentId kind platform : String) (capabilities : Finset String)
  | heartbeat (deviceId : Uuid) (agentId : String)
  | get (deviceId : Uuid)
  | listDevices
  | acquire (taskId owner : String) (required : Finset String) (leaseSeconds : Int)
      (leaseToken : String)
  | startWork (leaseId : Uuid) (owner leaseToken : String)
  | renew (leaseId : Uuid) (owner leaseToken : String) (leaseSeconds : Int)
  | release (leaseId : Uuid) (owner leaseToken : String)
  | setMaintenance (deviceId : Uuid) (enabled : Bool)
  | expireLeases

/-- The manager after a call at a time. -/
def call (casefold : String → String) (m : InMemoryDeviceManager) (now : Instant) :
    Call → InMemoryDeviceManager
  | .register name agentId kind platform capabilities =>
    (m.register casefold name agentId kind platform capabilities now).1
  | .heartbeat deviceId agentId => (m.heartbeat deviceId agentId now).1
  | .get deviceId => (m.get deviceId now).1
  | .listDevices => (m.listDevices now).1
  | .acquire taskId owner required leaseSeconds leaseToken =>
    (m.acquire casefold taskId owner required leaseSeconds leaseToken now).1
  | .startWork leaseId owner leaseToken => (m.startWork leaseId owner leaseToken now).1
  | .renew leaseId owner leaseToken leaseSeconds =>
    (m.renew leaseId owner leaseToken leaseSeconds now).1
  | .release leaseId owner leaseToken => (m.release leaseId owner leaseToken now).1
  | .setMaintenance deviceId enabled => (m.setMaintenance deviceId enabled now).1
  | .expireLeases => (m.expireLocked now).1

end InMemoryDeviceManager

end QaPlatform.Automation
