import Mathlib.Data.Finset.Card
import Mathlib.Data.List.MinMax
import Mathlib.Data.Prod.Lex
import QaPlatform.Runtime.Tasks

/-!
# Persistent devices and device leases

The device half of `PersistentRuntimeService`. Methods that sweep expired
leases first (`list_devices`, `get_device`, `update_device`, `acquire_device`)
do so in transactions of their own, one for each lease that the locator query
lists: `expireDeviceLease` is one of these, and such a method is a run of them
followed by its own transaction. Other transactions may come in between.
-/

namespace QaPlatform.Runtime

open Automation (TaskStatus DeviceStatus DeviceLeaseStatus)

/-- A row of the devices. -/
structure DeviceRecord where
  id : Uuid
  name : String
  kind : String
  platform : String
  /-- Stored as a sorted list. -/
  capabilities : Finset String
  agentId : String
  enabled : Bool
  status : DeviceStatus
  lastHeartbeatAt : Option Instant
  activeLeaseId : Option Uuid
  version : Nat
  createdAt : Instant
  updatedAt : Instant

/-- A row of the device leases, with the hash of its token. -/
structure DeviceLeaseRecord where
  id : Uuid
  deviceId : Uuid
  taskId : Uuid
  owner : String
  tokenHash : TokenHash
  status : DeviceLeaseStatus
  acquiredAt : Instant
  expiresAt : Instant
  releasedAt : Option Instant
  version : Nat

instance : Keyed DeviceRecord := ⟨DeviceRecord.id⟩
instance : Keyed DeviceLeaseRecord := ⟨DeviceLeaseRecord.id⟩

@[simp] theorem DeviceRecord.key_eq (d : DeviceRecord) : key d = d.id := rfl
@[simp] theorem DeviceLeaseRecord.key_eq (l : DeviceLeaseRecord) : key l = l.id := rfl

/-- The tables that device methods read and write. -/
structure DeviceStore where
  queue : TaskStore
  devices : Table DeviceRecord
  leases : Table DeviceLeaseRecord

/-- `DeviceCreate`. -/
structure DeviceCreate where
  name : String
  agentId : String
  kind : String
  platform : String
  capabilities : Finset String

/-- A field of a PATCH document: left out, `null`, or set. -/
inductive PatchField (α : Type) where
  | unset
  | null
  | value (a : α)

/-- The value of a field of a PATCH, or the old one. -/
def PatchField.getD (field : PatchField α) (old : α) : α :=
  match field with
  | .value a => a
  | .unset | .null => old

/-- The field has been sent as `null`. -/
def PatchField.isNull : PatchField α → Bool
  | .null => true
  | .unset | .value _ => false

/-- Checks a field that is set. -/
def PatchField.check (field : PatchField α) (f : α → Except DomainError Unit) :
    Except DomainError Unit :=
  match field with
  | .value a => f a
  | .unset | .null => .ok ()

/-- `DevicePatch`. -/
structure DevicePatch where
  name : PatchField String
  kind : PatchField String
  platform : PatchField String
  capabilities : PatchField (Finset String)
  enabled : PatchField Bool
  maintenance : Option Bool
  version : Nat

/-- `DeviceAcquire`. -/
structure DeviceAcquire where
  taskId : Uuid
  owner : String
  taskLeaseToken : String
  requiredCapabilities : Finset String
  leaseSeconds : Int

/-- `ClaimedDevice`: the device, its lease, and the token, once. -/
structure ClaimedDevice where
  device : DeviceRecord
  lease : DeviceLeaseRecord
  leaseToken : String

/-! ## Helpers -/

/-- What `_validate_capabilities` lets through. -/
def CapabilitiesValid (values : Finset String) : Prop :=
  values.card ≤ 100 ∧ ∀ value ∈ values, value ≠ "" ∧ value.length ≤ 100

instance (values : Finset String) : Decidable (CapabilitiesValid values) := by
  unfold CapabilitiesValid
  infer_instance

/-- `_validate_capabilities`. -/
def validateCapabilities (values : Finset String) : Except DomainError Unit :=
  refuse (¬ CapabilitiesValid values) (.businessValidation "设备能力标签无效")

/-- A heartbeat younger than the offline threshold. -/
def DeviceRecord.Heartbeating (offlineAfter : Int) (now : Instant) (record : DeviceRecord) :
    Prop :=
  record.lastHeartbeatAt.any (fun heartbeat => now < heartbeat + offlineAfter)

instance (offlineAfter : Int) (now : Instant) (record : DeviceRecord) :
    Decidable (record.Heartbeating offlineAfter now) := by
  unfold DeviceRecord.Heartbeating
  infer_instance

/-- `_effective_device_status`: what a device is shown as. -/
def effectiveDeviceStatus (offlineAfter : Int) (record : DeviceRecord) (now : Instant) :
    DeviceStatus :=
  if record.status = .maintenance then .maintenance
  else if ¬ record.enabled then .offline
  else if ¬ record.Heartbeating offlineAfter now then .offline
  else if record.activeLeaseId.isSome then record.status
  else .idle

/-- `_available_device_status`, which does not ask whether the device is leased. -/
def availableDeviceStatus (offlineAfter : Int) (record : DeviceRecord) (now : Instant) :
    DeviceStatus :=
  if ¬ record.enabled then .offline
  else if ¬ record.Heartbeating offlineAfter now then .offline
  else .idle

/-- `_validate_device_task_state`. -/
def validateDeviceTaskState (record : AutomationTaskRecord) (owner : String) (now : Instant) :
    Except DomainError Unit := do
  refuse (record.status ≠ .running ∨ record.leaseOwner ≠ some owner
      ∨ record.leaseTokenHash.isNone ∨ record.leaseExpiresAt.all (· ≤ now))
    (.authorization "设备关联的任务租约无效或已过期")
  refuse record.cancelRequested (.invalidState "任务已请求取消，不能开始设备工作")

/-- `_validate_leased_device_state`. -/
def validateLeasedDeviceState (offlineAfter : Int) (record : DeviceRecord) (now : Instant) :
    Except DomainError Unit :=
  let status := effectiveDeviceStatus offlineAfter record now
  refuse (¬ (status = .reserved ∨ status = .busy))
    (.invalidState "设备已离线、停用或不可继续执行")

namespace DeviceStore

/-- The row of a device, or the error for a number that is not known. -/
def requireDevice (s : DeviceStore) (deviceId : Uuid) : Except DomainError DeviceRecord :=
  match s.devices.get? deviceId with
  | none => .error (.notFound "设备" deviceId)
  | some record => .ok record

/-- `_require_device_lease`: the lease with its device and task, all locked. -/
def requireDeviceLease (s : DeviceStore) (leaseId : Uuid) (owner leaseToken : String)
    (now : Instant) :
    Except DomainError (DeviceLeaseRecord × DeviceRecord × AutomationTaskRecord) :=
  match s.leases.get? leaseId with
  | none => .error (.notFound "设备租约" leaseId)
  | some lease =>
    match s.queue.tasks.get? lease.taskId, s.devices.get? lease.deviceId with
    | some task, some device =>
      if lease.status ≠ .active ∨ lease.owner ≠ owner ∨ lease.expiresAt ≤ now
          ∨ lease.tokenHash ≠ tokenHash leaseToken ∨ device.activeLeaseId ≠ some lease.id then
        .error (.authorization "设备租约无效或已过期")
      else .ok (lease, device, task)
    | _, _ => .error (.conflict "设备租约关联数据不完整")

/-- `list_expired_device_lease_ids`: the leases that a sweep starts with. -/
def listExpiredDeviceLeaseIds (s : DeviceStore) (now : Instant) : List Uuid :=
  ((s.leases.rows.filter fun l => l.status = .active ∧ l.expiresAt ≤ now).mergeSort
    fun a b => columnsLe [a.expiresAt, a.id] [b.expiresAt, b.id]).map DeviceLeaseRecord.id

/-- One transaction of `_expire_device_leases`. -/
def expireDeviceLease (offlineAfter : Int) (s : DeviceStore) (leaseId : Uuid) (now : Instant) :
    Except DomainError DeviceStore :=
  match s.leases.get? leaseId with
  | none => .ok s
  | some lease =>
    match s.queue.tasks.get? lease.taskId, s.devices.get? lease.deviceId with
    | some _, some device =>
      if lease.status ≠ .active ∨ now < lease.expiresAt then .ok s
      else
        let leases := s.leases.put { lease with
          status := .expired
          releasedAt := some now
          version := lease.version + 1 }
        if device.activeLeaseId = some lease.id then
          .ok { s with
            leases
            devices := s.devices.put { device with
              activeLeaseId := none
              status := availableDeviceStatus offlineAfter device now
              version := device.version + 1
              updatedAt := now } }
        else .ok { s with leases }
    | _, _ => .error (.conflict "设备租约关联数据不完整")

/-- The filter shared by the two candidate queries. -/
def Candidate (heartbeatAfter : Instant) (d : DeviceRecord) : Prop :=
  d.enabled ∧ d.status = .idle ∧ d.activeLeaseId = none
    ∧ d.lastHeartbeatAt.any (heartbeatAfter < ·)

instance (heartbeatAfter : Instant) (d : DeviceRecord) :
    Decidable (Candidate heartbeatAfter d) := by
  unfold Candidate
  infer_instance

/-- `build_device_candidate_statement`: one unlocked row, the first by name. -/
def claimDeviceCandidate (lower : String → String) (s : DeviceStore) (candidateIds : List Uuid)
    (heartbeatAfter : Instant) (skipped : List Uuid) : Option DeviceRecord :=
  (s.devices.rows.filter fun d =>
    d.id ∈ candidateIds ∧ Candidate heartbeatAfter d ∧ d.id ∉ skipped).argmin
    fun d => toLex (lower d.name, d.id)

/-- The loop of `acquire_device` over the snapshot's candidates, one fewer each round. -/
def claimLoop (lower : String → String) (offlineAfter : Int) (s : DeviceStore)
    (required : Finset String) (now : Instant) (skipped : List Uuid) :
    Nat → List Uuid → Option DeviceRecord
  | 0, _ => none
  | rounds + 1, candidateIds =>
    match s.claimDeviceCandidate lower candidateIds (now - offlineAfter) skipped with
    | none => none
    | some candidate =>
      if candidate.enabled ∧ effectiveDeviceStatus offlineAfter candidate now = .idle
          ∧ required ⊆ candidate.capabilities then
        some candidate
      else s.claimLoop lower offlineAfter required now skipped rounds
        (candidateIds.erase candidate.id)

/-! ## Methods -/

/-- `create_device`. -/
def createDevice (s : DeviceStore) (payload : DeviceCreate) (now : Instant) :
    Except DomainError DeviceStore := do
  validateCapabilities payload.capabilities
  refuse (strip payload.name = "" ∨ strip payload.agentId = "")
    (.businessValidation "设备名称和 agent_id 不能为空")
  refuse (s.devices.rows.any fun d => d.name = strip payload.name ∨ d.agentId = payload.agentId)
    .integrity
  return { s with devices := s.devices.add fun id =>
    { id, name := strip payload.name, kind := payload.kind, platform := payload.platform
      capabilities := payload.capabilities, agentId := payload.agentId, enabled := true
      status := .offline, lastHeartbeatAt := none, activeLeaseId := none, version := 0
      createdAt := now, updatedAt := now } }

/-- The fields that a PATCH sets before the status is looked at. -/
def patchFields (record : DeviceRecord) (payload : DevicePatch) : DeviceRecord :=
  { record with
    name := match payload.name with
      | .value name => strip name
      | .unset | .null => record.name
    kind := payload.kind.getD record.kind
    platform := payload.platform.getD record.platform
    capabilities := payload.capabilities.getD record.capabilities
    enabled := payload.enabled.getD record.enabled }

/-- `update_device`, the PATCH of a device. -/
def updateDevice (offlineAfter : Int) (s : DeviceStore) (deviceId : Uuid) (payload : DevicePatch)
    (now : Instant) : Except DomainError DeviceStore := do
  let record ← s.requireDevice deviceId
  refuse (record.version ≠ payload.version)
    (.conflict "设备已被其他请求修改，请刷新后重试")
  refuse (payload.name.isNull ∨ payload.kind.isNull ∨ payload.platform.isNull
      ∨ payload.capabilities.isNull ∨ payload.enabled.isNull)
    (.businessValidation "设备更新字段不能设为空")
  payload.capabilities.check validateCapabilities
  let record := patchFields record payload
  refuse (payload.maintenance = some true ∧ record.activeLeaseId.isSome)
    (.conflict "有活动租约的设备不能进入维护状态")
  let status := match payload.maintenance with
    | some true => .maintenance
    -- the helper does not look at the active lease
    | some false => availableDeviceStatus offlineAfter record now
    | none => if ¬ record.enabled ∧ record.activeLeaseId = none then .offline else record.status
  refuse (s.devices.rows.any (fun d => d.id ≠ record.id ∧ d.name = record.name)) .integrity
  return { s with devices := s.devices.put { record with
    status
    version := record.version + 1
    updatedAt := now } }

/-- `delete_device`; a device that was ever leased stays. -/
def deleteDevice (s : DeviceStore) (deviceId : Uuid) : Except DomainError DeviceStore := do
  let _ ← s.requireDevice deviceId
  refuse (s.leases.rows.any (·.deviceId = deviceId))
    (.conflict "设备已有租约历史，只能停用，不能删除")
  return { s with devices := s.devices.erase deviceId }

/-- `heartbeat_device`, which only the agent of the device may send. -/
def heartbeatDevice (s : DeviceStore) (deviceId : Uuid) (agentId : String) (now : Instant) :
    Except DomainError DeviceStore := do
  let record ← s.requireDevice deviceId
  let same ← compareDigest record.agentId agentId
  refuse (¬ same) (.authorization "设备 agent 身份不匹配")
  let status :=
    if record.status ≠ .maintenance ∧ record.activeLeaseId = none then
      if record.enabled then .idle else .offline
    else record.status
  return { s with devices := s.devices.put { record with
    lastHeartbeatAt := some now
    status
    version := record.version + 1
    updatedAt := now } }

/-- `acquire_device`, where `skipped` are the rows that others hold locked. -/
def acquireDevice (lower : String → String) (offlineAfter : Int) (s : DeviceStore)
    (payload : DeviceAcquire) (token : String) (now : Instant) (skipped : List Uuid) :
    Except DomainError (DeviceStore × Option ClaimedDevice) := do
  validateCapabilities payload.requiredCapabilities
  let task ← s.queue.requireTaskLease payload.taskId payload.owner payload.taskLeaseToken now
  refuse (task.cancelRequested) (.invalidState "任务已请求取消，不能申请或续租设备")
  let candidateIds := (s.devices.rows.filter fun d =>
    Candidate (now - offlineAfter) d ∧ payload.requiredCapabilities ⊆ d.capabilities).map
      DeviceRecord.id
  match s.claimLoop lower offlineAfter payload.requiredCapabilities now skipped
      candidateIds.length candidateIds with
  | none => return (s, none)
  | some device =>
    let lease (id : Uuid) : DeviceLeaseRecord :=
      { id, deviceId := device.id, taskId := payload.taskId, owner := payload.owner
        tokenHash := tokenHash token, status := .active, acquiredAt := now
        -- the task's lease was found unexpired above
        expiresAt := min (now + seconds payload.leaseSeconds) (task.leaseExpiresAt.getD now)
        releasedAt := none, version := 0 }
    let id := s.leases.next
    refuse (s.leases.rows.any (fun l => l.tokenHash = tokenHash token
          ∨ l.deviceId = device.id ∧ l.status = .active)
        ∨ s.devices.rows.any (·.activeLeaseId = some id))
      .integrity
    let device := { device with
      activeLeaseId := some id
      status := .reserved
      version := device.version + 1
      updatedAt := now }
    return ({ s with leases := s.leases.add lease, devices := s.devices.put device },
      some ⟨device, lease id, token⟩)

/-- `start_device_work`. -/
def startDeviceWork (offlineAfter : Int) (s : DeviceStore) (leaseId : Uuid)
    (owner leaseToken : String) (now : Instant) :
    Except DomainError (DeviceStore × ClaimedDevice) := do
  let (lease, device, task) ← s.requireDeviceLease leaseId owner leaseToken now
  validateDeviceTaskState task owner now
  validateLeasedDeviceState offlineAfter device now
  let device := { device with status := .busy, version := device.version + 1, updatedAt := now }
  return ({ s with devices := s.devices.put device }, ⟨device, lease, leaseToken⟩)

/-- `renew_device_lease`. -/
def renewDeviceLease (offlineAfter : Int) (s : DeviceStore) (leaseId : Uuid)
    (owner leaseToken taskLeaseToken : String) (leaseSeconds : Int) (now : Instant) :
    Except DomainError (DeviceStore × DeviceLeaseRecord) := do
  let (lease, device, task) ← s.requireDeviceLease leaseId owner leaseToken now
  validateTaskLeaseRecord task owner taskLeaseToken now
  refuse (task.cancelRequested) (.invalidState "任务已请求取消，不能申请或续租设备")
  validateLeasedDeviceState offlineAfter device now
  let lease := { lease with
    expiresAt := min (now + seconds leaseSeconds) (task.leaseExpiresAt.getD now)
    version := lease.version + 1 }
  return ({ s with leases := s.leases.put lease }, lease)

/-- `release_device_lease`. -/
def releaseDeviceLease (offlineAfter : Int) (s : DeviceStore) (leaseId : Uuid)
    (owner leaseToken : String) (now : Instant) :
    Except DomainError (DeviceStore × DeviceLeaseRecord) := do
  let (lease, device, _) ← s.requireDeviceLease leaseId owner leaseToken now
  let lease := { lease with
    status := .released
    releasedAt := some now
    version := lease.version + 1 }
  let device := { device with
    activeLeaseId := none
    status := availableDeviceStatus offlineAfter device now
    version := device.version + 1
    updatedAt := now }
  return ({ s with leases := s.leases.put lease, devices := s.devices.put device }, lease)

/-! ## Runs -/

/-- What stays fixed while the service runs. -/
structure Config where
  taskTypes : List String
  render : Rendering
  /-- The database's `lower`. -/
  lower : String → String
  offlineAfter : Int

/-- A transaction of the device and task methods. -/
inductive Call where
  | task (c : TaskStore.Call)
  | createDevice (payload : DeviceCreate)
  | updateDevice (deviceId : Uuid) (payload : DevicePatch)
  | deleteDevice (deviceId : Uuid)
  | heartbeatDevice (deviceId : Uuid) (agentId : String)
  | expireDeviceLease (leaseId : Uuid)
  | acquireDevice (payload : DeviceAcquire) (token : String) (skipped : List Uuid)
  | startDeviceWork (leaseId : Uuid) (owner leaseToken : String)
  | renewDeviceLease (leaseId : Uuid) (owner leaseToken taskLeaseToken : String)
      (leaseSeconds : Int)
  | releaseDeviceLease (leaseId : Uuid) (owner leaseToken : String)

/-- The store that a transaction commits. -/
def call (cfg : Config) (s : DeviceStore) (now : Instant) : Call → Except DomainError DeviceStore
  | .task c => (s.queue.call cfg.taskTypes cfg.render now c).map ({ s with queue := · })
  | .createDevice payload => s.createDevice payload now
  | .updateDevice deviceId payload => s.updateDevice cfg.offlineAfter deviceId payload now
  | .deleteDevice deviceId => s.deleteDevice deviceId
  | .heartbeatDevice deviceId agentId => s.heartbeatDevice deviceId agentId now
  | .expireDeviceLease leaseId => s.expireDeviceLease cfg.offlineAfter leaseId now
  | .acquireDevice payload token skipped =>
    (s.acquireDevice cfg.lower cfg.offlineAfter payload token now skipped).map (·.1)
  | .startDeviceWork leaseId owner leaseToken =>
    (s.startDeviceWork cfg.offlineAfter leaseId owner leaseToken now).map (·.1)
  | .renewDeviceLease leaseId owner leaseToken taskLeaseToken leaseSeconds =>
    (s.renewDeviceLease cfg.offlineAfter leaseId owner leaseToken taskLeaseToken leaseSeconds
      now).map (·.1)
  | .releaseDeviceLease leaseId owner leaseToken =>
    (s.releaseDeviceLease cfg.offlineAfter leaseId owner leaseToken now).map (·.1)

/-- A transaction at a time; one that raises changes nothing. -/
def step (cfg : Config) (s : DeviceStore) (e : Instant × Call) : DeviceStore :=
  match s.call cfg e.1 e.2 with
  | .ok s' => s'
  | .error _ => s

end DeviceStore

end QaPlatform.Runtime
