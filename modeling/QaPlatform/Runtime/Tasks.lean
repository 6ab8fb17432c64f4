import Mathlib.Data.String.Basic
import QaPlatform.Automation.Models
import QaPlatform.Base.Order
import QaPlatform.Base.Table
import QaPlatform.Runtime.Json

/-!
# The persistent task queue

The task half of `PersistentRuntimeService` (`app/runtime/service.py`) with the
queries of `app/runtime/repository.py`. A method is a database transaction: it
returns the store it commits, or an error and commits nothing. Rows that
another transaction has locked are skipped by the claiming queries; which rows
these are is the argument `skipped`.
-/

namespace QaPlatform.Runtime

open Automation (TaskStatus)

/-- The row of a task, with its lease if it has one. -/
structure AutomationTaskRecord where
  id : Uuid
  taskType : String
  payload : Json
  queue : String
  priority : Nat
  status : TaskStatus
  idempotencyKey : Option String
  requestFingerprint : Digest Json
  sourceScheduleId : Option Uuid
  attempts : Nat
  maxAttempts : Nat
  availableAt : Instant
  leaseOwner : Option String
  leaseTokenHash : Option TokenHash
  leaseExpiresAt : Option Instant
  heartbeatAt : Option Instant
  cancelRequested : Bool
  result : Option Json
  errorCode : Option String
  createdAt : Instant
  startedAt : Option Instant
  finishedAt : Option Instant

/-- The status of a wake-up. -/
inductive WakeupStatus where
  | pending
  | claimed
  | retryWait
  | published
deriving DecidableEq, Repr

/-- The row of a wake-up, which a dispatcher claims, publishes and settles. -/
structure AutomationTaskWakeupOutboxRecord where
  id : Uuid
  taskId : Uuid
  generation : Nat
  status : WakeupStatus
  publishAttempts : Nat
  availableAt : Instant
  leaseOwner : Option String
  leaseTokenHash : Option TokenHash
  leaseExpiresAt : Option Instant
  lastErrorCode : Option String
  version : Nat
  createdAt : Instant
  updatedAt : Instant
  publishedAt : Option Instant

instance : Keyed AutomationTaskRecord := ⟨AutomationTaskRecord.id⟩
instance : Keyed AutomationTaskWakeupOutboxRecord := ⟨AutomationTaskWakeupOutboxRecord.id⟩

@[simp] theorem AutomationTaskRecord.key_eq (r : AutomationTaskRecord) : key r = r.id := rfl

/-- The tables of tasks and of their wake-ups. -/
structure TaskStore where
  tasks : Table AutomationTaskRecord
  outbox : Table AutomationTaskWakeupOutboxRecord

/-- `TaskEnqueue`. -/
structure TaskEnqueue where
  taskType : String
  payload : Json
  queue : String
  priority : Nat
  maxAttempts : Nat
  idempotencyKey : Option String
  availableAt : Option Instant

/-! ## Fingerprints -/

/-- How the texts that the standard library makes of a time and an identifier read. -/
structure Rendering where
  isoformat : Instant → String
  uuid : Uuid → String

/-- The request document whose fingerprint an idempotency key is bound to. -/
def TaskEnqueue.request (payload : TaskEnqueue) (render : Rendering)
    (sourceScheduleId : Option Uuid) : Json :=
  "\x7b\"available_at\":"
    ++ jsonOption (fun t => jsonString (render.isoformat t)) payload.availableAt
    ++ ",\"max_attempts\":" ++ toString payload.maxAttempts
    ++ ",\"payload\":" ++ payload.payload
    ++ ",\"priority\":" ++ toString payload.priority
    ++ ",\"queue\":" ++ jsonString payload.queue
    ++ ",\"source_schedule_id\":"
    ++ jsonOption (fun u => jsonString (render.uuid u)) sourceScheduleId
    ++ ",\"task_type\":" ++ jsonString payload.taskType ++ "\x7d"

namespace TaskStore

/-! ## Helpers -/

/-- `_add_task_wakeup_outbox`; one row for each task and generation. -/
def addTaskWakeupOutbox (s : TaskStore) (task : AutomationTaskRecord) (now : Instant) :
    Except DomainError TaskStore := do
  refuse (s.outbox.rows.any fun r => r.taskId = task.id ∧ r.generation = task.attempts) .integrity
  return { s with outbox := s.outbox.add fun id =>
    { id, taskId := task.id, generation := task.attempts, status := .pending
      publishAttempts := 0, availableAt := task.availableAt, leaseOwner := none
      leaseTokenHash := none, leaseExpiresAt := none, lastErrorCode := none, version := 0
      createdAt := now, updatedAt := now, publishedAt := none } }

/-- The row of a task, or the error for a number that is not known. -/
def requireTask (s : TaskStore) (taskId : Uuid) : Except DomainError AutomationTaskRecord :=
  match s.tasks.get? taskId with
  | none => .error (.notFound "自动化任务" taskId)
  | some record => .ok record

end TaskStore

/-- `_validate_task_lease_record`. -/
def validateTaskLeaseRecord (record : AutomationTaskRecord) (workerId leaseToken : String)
    (now : Instant) : Except DomainError Unit :=
  refuse (record.status ≠ .running ∨ record.leaseOwner ≠ some workerId
      ∨ record.leaseTokenHash ≠ some (tokenHash leaseToken)
      ∨ record.leaseExpiresAt.all (· ≤ now))
    (.authorization "任务租约无效或已过期")

/-- `_clear_task_lease`. -/
def AutomationTaskRecord.clearTaskLease (record : AutomationTaskRecord) : AutomationTaskRecord :=
  { record with
    leaseOwner := none
    leaseTokenHash := none
    leaseExpiresAt := none
    heartbeatAt := none }

/-- The wait before a task runs again after its `attempts`-th attempt. -/
def retryDelay (attempts : Nat) : Int := seconds (min 300 (2 ^ (attempts - 1)) : Nat)

namespace TaskStore

/-- The row of a task that runs under the lease. -/
def requireTaskLease (s : TaskStore) (taskId : Uuid) (workerId leaseToken : String)
    (now : Instant) : Except DomainError AutomationTaskRecord := do
  let record ← s.requireTask taskId
  validateTaskLeaseRecord record workerId leaseToken now
  return record

/-- `build_expired_task_lease_statement`. -/
def lockExpiredTaskLeases (s : TaskStore) (now : Instant) (skipped : List Uuid) :
    List AutomationTaskRecord :=
  (s.tasks.rows.filter fun r => r.status = .running ∧ r.leaseExpiresAt.any (· ≤ now)
    ∧ r.id ∉ skipped).mergeSort
    fun a b => columnsLe [a.leaseExpiresAt.getD 0, a.id] [b.leaseExpiresAt.getD 0, b.id]

/-- The recovery of one task whose lease has expired. -/
def recoverExpiredTask (now : Instant) (s : TaskStore) (record : AutomationTaskRecord) :
    Except DomainError TaskStore := do
  let record := { record with errorCode := some "lease_expired" }
  let finished (status : TaskStatus) :=
    { record.clearTaskLease with status, finishedAt := some now }
  if record.cancelRequested then
    return { s with tasks := s.tasks.put (finished .cancelled) }
  else if record.attempts < record.maxAttempts then
    let record := { record with
      status := .retryWait
      availableAt := now + retryDelay record.attempts }
    let s ← s.addTaskWakeupOutbox record now
    return { s with tasks := s.tasks.put record.clearTaskLease }
  else
    return { s with tasks := s.tasks.put (finished .deadLetter) }

/-- `_recover_expired_tasks`, over the rows that are not locked. -/
def recoverExpiredTasks (s : TaskStore) (now : Instant) (skipped : List Uuid) :
    Except DomainError TaskStore :=
  (s.lockExpiredTaskLeases now skipped).foldlM (recoverExpiredTask now) s

/-- `build_task_claim_statement`, without its order. -/
def claimable (queues : List String) (now : Instant) (record : AutomationTaskRecord) : Prop :=
  record.queue ∈ queues ∧ (record.status = .queued ∨ record.status = .retryWait)
    ∧ record.attempts < record.maxAttempts ∧ record.availableAt ≤ now
    ∧ record.cancelRequested = false

instance (queues : List String) (now : Instant) (record : AutomationTaskRecord) :
    Decidable (claimable queues now record) := by
  unfold claimable
  infer_instance

/-- The first claimable row by priority, then by age. -/
def claimTaskCandidate (s : TaskStore) (queues : List String) (now : Instant)
    (skipped : List Uuid) : Option AutomationTaskRecord :=
  firstBy (fun r => [-(r.priority : Int), r.availableAt, r.createdAt, r.id])
    (s.tasks.rows.filter fun r => claimable queues now r ∧ r.id ∉ skipped)

/-! ## Methods -/

/-- `_enqueue_record`: the task, and whether it was there already. -/
def enqueueRecord (s : TaskStore) (taskTypes : List String) (render : Rendering)
    (payload : TaskEnqueue) (sourceScheduleId : Option Uuid) (now : Instant) :
    Except DomainError (TaskStore × AutomationTaskRecord × Bool) := do
  refuse (payload.taskType ∉ taskTypes)
    (.businessValidation
      "未知 task_type；仅允许服务端固定注册表中的教学任务，不能执行 shell 或模块路径")
  let due := payload.availableAt.getD now
  let fingerprint ← jsonFingerprint (payload.request render sourceScheduleId)
  match payload.idempotencyKey.bind fun idempotencyKey => s.tasks.rows.find? fun r =>
      r.taskType = payload.taskType ∧ r.idempotencyKey = some idempotencyKey with
  | some previous =>
    refuse (previous.requestFingerprint ≠ fingerprint)
      (.conflict "幂等键已用于不同的任务参数")
    return (s, previous, true)
  | none =>
    let record (id : Uuid) : AutomationTaskRecord :=
      { id, taskType := payload.taskType, payload := payload.payload, queue := payload.queue
        priority := payload.priority, status := .queued
        idempotencyKey := payload.idempotencyKey, requestFingerprint := fingerprint
        sourceScheduleId, attempts := 0, maxAttempts := payload.maxAttempts, availableAt := due
        leaseOwner := none, leaseTokenHash := none, leaseExpiresAt := none, heartbeatAt := none
        cancelRequested := false, result := none, errorCode := none, createdAt := now
        startedAt := none, finishedAt := none }
    let id := s.tasks.next
    let s ← { s with tasks := s.tasks.add record }.addTaskWakeupOutbox (record id) now
    return (s, record id, false)

/-- `enqueue_task`; the flag says that an earlier task has been returned. -/
def enqueueTask (s : TaskStore) (taskTypes : List String) (render : Rendering)
    (payload : TaskEnqueue) (now : Instant) :
    Except DomainError (TaskStore × AutomationTaskRecord × Bool) := do
  refuse (payload.taskType ∉ taskTypes)
    (.businessValidation
      "未知 task_type；仅允许服务端固定注册表中的教学任务，不能执行 shell 或模块路径")
  refuse (strip payload.queue = "") (.businessValidation "队列名不能为空")
  s.enqueueRecord taskTypes render payload none now

/-- `claim_task`, in one transaction with the recovery before it. -/
def claimTask (s : TaskStore) (workerId : String) (queues : List String) (leaseSeconds : Int)
    (token : String) (now : Instant) (skipped : List Uuid) :
    Except DomainError (TaskStore × Option (AutomationTaskRecord × String)) := do
  -- a repeated or an empty name makes the set smaller than the list
  refuse (¬ queues.Nodup ∨ queues.any (strip · = ""))
    (.businessValidation "队列名不能为空")
  let s ← s.recoverExpiredTasks now skipped
  match s.claimTaskCandidate queues now skipped with
  | none => return (s, none)
  | some record =>
    let record := { record with
      status := .running
      attempts := record.attempts + 1
      errorCode := none
      result := none
      finishedAt := none
      leaseOwner := some workerId
      leaseTokenHash := some (tokenHash token)
      leaseExpiresAt := some (now + seconds leaseSeconds)
      heartbeatAt := some now
      startedAt := record.startedAt.or (some now) }
    return ({ s with tasks := s.tasks.put record }, some (record, token))

/-- `heartbeat_task`, which sets the end of the lease from now. -/
def heartbeatTask (s : TaskStore) (taskId : Uuid) (workerId leaseToken : String)
    (leaseSeconds : Int) (now : Instant) :
    Except DomainError (TaskStore × AutomationTaskRecord) := do
  let record ← s.requireTaskLease taskId workerId leaseToken now
  let record := { record with
    heartbeatAt := some now
    leaseExpiresAt := some (now + seconds leaseSeconds) }
  return ({ s with tasks := s.tasks.put record }, record)

/-- `complete_task`. -/
def completeTask (s : TaskStore) (taskId : Uuid) (workerId leaseToken : String) (result : Json)
    (now : Instant) : Except DomainError (TaskStore × AutomationTaskRecord) := do
  let _ ← jsonFingerprint result
  let record ← s.requireTaskLease taskId workerId leaseToken now
  let record := { record.clearTaskLease with
    status := if record.cancelRequested then .cancelled else .succeeded
    result := if record.cancelRequested then none else some result
    finishedAt := some now }
  return ({ s with tasks := s.tasks.put record }, record)

/-- `fail_task`. -/
def failTask (s : TaskStore) (taskId : Uuid) (workerId leaseToken errorCode : String)
    (retryable : Bool) (now : Instant) :
    Except DomainError (TaskStore × AutomationTaskRecord) := do
  let record ← s.requireTaskLease taskId workerId leaseToken now
  let record := { record with errorCode := some errorCode }
  let finished (status : TaskStatus) :=
    { record.clearTaskLease with status, finishedAt := some now }
  if record.cancelRequested then
    return ({ s with tasks := s.tasks.put (finished .cancelled) }, finished .cancelled)
  else if retryable ∧ record.attempts < record.maxAttempts then
    let record := { record with
      status := .retryWait
      availableAt := now + retryDelay record.attempts }
    let s ← s.addTaskWakeupOutbox record now
    return ({ s with tasks := s.tasks.put record.clearTaskLease }, record.clearTaskLease)
  else if retryable then
    return ({ s with tasks := s.tasks.put (finished .deadLetter) }, finished .deadLetter)
  else
    return ({ s with tasks := s.tasks.put (finished .failed) }, finished .failed)

/-- `cancel_task`: a waiting task is over at once, a running one is told. -/
def cancelTask (s : TaskStore) (taskId : Uuid) (now : Instant) :
    Except DomainError (TaskStore × AutomationTaskRecord) := do
  let record ← s.requireTask taskId
  let record :=
    if record.status = .queued ∨ record.status = .retryWait then
      { record.clearTaskLease with
        status := .cancelled
        cancelRequested := true
        finishedAt := some now }
    else if record.status = .running then { record with cancelRequested := true }
    else record
  return ({ s with tasks := s.tasks.put record }, record)

/-- `retry_task`, for a task that has failed. -/
def retryTask (s : TaskStore) (taskId : Uuid) (now : Instant) :
    Except DomainError (TaskStore × AutomationTaskRecord) := do
  let record ← s.requireTask taskId
  refuse (record.status ≠ .failed) (.invalidState "只有非重试失败的任务可由管理员手动重试")
  refuse (record.maxAttempts ≤ record.attempts) (.invalidState "任务已达到最大尝试次数")
  let record := { record with
    status := .retryWait
    availableAt := now
    finishedAt := none
    errorCode := none }
  let s ← s.addTaskWakeupOutbox record now
  return ({ s with tasks := s.tasks.put record }, record)

/-- `dead_letter_task`, for a task that is not running. -/
def deadLetterTask (s : TaskStore) (taskId : Uuid) (errorCode : String) (now : Instant) :
    Except DomainError (TaskStore × AutomationTaskRecord) := do
  let record ← s.requireTask taskId
  refuse (record.status = .running)
    (.invalidState "运行中的任务必须由持有租约的 worker 结束")
  refuse (record.status = .succeeded ∨ record.status = .cancelled)
    (.invalidState "已成功或已取消的任务不能进入死信")
  let record := { record.clearTaskLease with
    status := .deadLetter
    errorCode := some errorCode
    finishedAt := some now }
  return ({ s with tasks := s.tasks.put record }, record)

/-! ## Runs -/

/-- A call of one of the task methods, with the token that `secrets` returns in it. -/
inductive Call where
  | enqueueTask (payload : TaskEnqueue)
  | claimTask (workerId : String) (queues : List String) (leaseSeconds : Int) (token : String)
      (skipped : List Uuid)
  | heartbeatTask (taskId : Uuid) (workerId leaseToken : String) (leaseSeconds : Int)
  | completeTask (taskId : Uuid) (workerId leaseToken : String) (result : Json)
  | failTask (taskId : Uuid) (workerId leaseToken errorCode : String) (retryable : Bool)
  | cancelTask (taskId : Uuid)
  | retryTask (taskId : Uuid)
  | deadLetterTask (taskId : Uuid) (errorCode : String)

/-- The store that a call commits. -/
def call (taskTypes : List String) (render : Rendering) (s : TaskStore) (now : Instant) :
    Call → Except DomainError TaskStore
  | .enqueueTask payload => (s.enqueueTask taskTypes render payload now).map (·.1)
  | .claimTask workerId queues leaseSeconds token skipped =>
    (s.claimTask workerId queues leaseSeconds token now skipped).map (·.1)
  | .heartbeatTask taskId workerId leaseToken leaseSeconds =>
    (s.heartbeatTask taskId workerId leaseToken leaseSeconds now).map (·.1)
  | .completeTask taskId workerId leaseToken result =>
    (s.completeTask taskId workerId leaseToken result now).map (·.1)
  | .failTask taskId workerId leaseToken errorCode retryable =>
    (s.failTask taskId workerId leaseToken errorCode retryable now).map (·.1)
  | .cancelTask taskId => (s.cancelTask taskId now).map (·.1)
  | .retryTask taskId => (s.retryTask taskId now).map (·.1)
  | .deadLetterTask taskId errorCode => (s.deadLetterTask taskId errorCode now).map (·.1)

end TaskStore

end QaPlatform.Runtime
