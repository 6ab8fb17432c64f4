import Mathlib.Algebra.Order.Ring.Rat
import QaPlatform.Automation.DeviceManager
import QaPlatform.Base.Effects
import QaPlatform.Base.Order
import QaPlatform.Runtime.Json

/-!
# The in-memory task queue

`InMemoryTaskQueue` of `app/automation/tasks.py`. Its lock makes every method one
step; a method that raises keeps what it has changed before, so each returns the
queue beside its result. The floats of the retry policy are exact here: at the
midpoint of the jitter the source's are too.
-/

namespace QaPlatform.Automation

open QaPlatform.Runtime (jsonOption jsonString)

/-- `AutomationTask`; of the lease token it has the hash only. -/
structure AutomationTask where
  id : Uuid
  taskType : String
  payload : Json
  queue : String
  priority : Nat
  status : TaskStatus
  idempotencyKey : Option String
  requestFingerprint : Digest Json
  sourceScheduleId : Option Uuid
  attempts : Nat
  maxAttempts : Nat
  availableAt : Instant
  leaseOwner : Option String
  leaseTokenHash : Option TokenHash
  leaseExpiresAt : Option Instant
  heartbeatAt : Option Instant
  cancelRequested : Bool
  result : Option Json
  errorCode : Option String
  createdAt : Instant
  startedAt : Option Instant
  finishedAt : Option Instant
deriving DecidableEq

instance : Keyed AutomationTask := ⟨AutomationTask.id⟩

@[simp] theorem AutomationTask.key_eq (t : AutomationTask) : key t = t.id := rfl

/-- The field constraints that constructing an `AutomationTask` checks. -/
def AutomationTask.Valid (t : AutomationTask) : Prop :=
  (1 ≤ t.taskType.length ∧ t.taskType.length ≤ 100)
    ∧ (1 ≤ t.queue.length ∧ t.queue.length ≤ 100)
    ∧ t.priority ≤ 100 ∧ (1 ≤ t.maxAttempts ∧ t.maxAttempts ≤ 100)
    ∧ ∀ idempotencyKey ∈ t.idempotencyKey,
      1 ≤ idempotencyKey.length ∧ idempotencyKey.length ≤ 200

instance (t : AutomationTask) : Decidable t.Valid := by
  unfold AutomationTask.Valid
  infer_instance

/-- A `datetime`: the instant it reads as in UTC, and whether it has a time zone. -/
structure DateTime where
  utc : Instant
  aware : Bool
deriving DecidableEq

/-- `_as_utc`. -/
def asUtc (value : DateTime) : Except ManagerError Instant := do
  refuse (value.aware = false) (.validation "automation timestamps must be timezone-aware")
  return value.utc

/-- `_fingerprint`. -/
def fingerprint (encoded : Json) : Except ManagerError (Digest Json) := do
  refuse (262144 < encoded.utf8ByteSize) (.validation "task payload exceeds 256 KiB")
  return ⟨encoded⟩

/-! ## Retries -/

/-- `RetryPolicy`, in rational seconds where the source has floats. -/
structure RetryPolicy where
  baseSeconds : ℚ := 1
  maximumSeconds : ℚ := 300
  jitterRatio : ℚ := 1 / 5

/-- The wait in seconds. -/
def RetryPolicy.delay (policy : RetryPolicy) (attempt : Nat) (entropy : ℚ) :
    Except ManagerError ℚ := do
  refuse (attempt < 1 ∨ ¬ (0 ≤ entropy ∧ entropy ≤ 1)) (.validation "retry policy input is invalid")
  let base := min policy.maximumSeconds (policy.baseSeconds * 2 ^ (attempt - 1))
  let jitter := base * policy.jitterRatio * (2 * entropy - 1)
  return max 0 (base + jitter)

/-- `timedelta(seconds=n)`, to the nearest microsecond, from halfway to the even one. -/
def timedelta (n : ℚ) : Int :=
  let below := (n * 1000000).floor
  let rest := n * 1000000 - below
  if rest < 1 / 2 ∨ rest = 1 / 2 ∧ below % 2 = 0 then below else below + 1

/-- What a queue is set up with. -/
structure QueueSetup where
  retryPolicy : RetryPolicy := {}
  /-- What `random.random` returns, call after call. -/
  entropy : Nat → ℚ
  isoformat : Instant → String
  uuid : Uuid → String

/-- `InMemoryTaskQueue`: the tasks, the idempotency keys, and the entropy that has been drawn. -/
structure InMemoryTaskQueue where
  tasks : Table AutomationTask
  /-- `_idempotency`. -/
  idempotency : List ((String × String) × Uuid × Digest Json)
  /-- How often `_entropy` has been called. -/
  drawn : Nat

/-- The request document whose fingerprint an idempotency key is bound to. -/
def requestValue (setup : QueueSetup) (taskType : String) (payload : Json) (queue : String)
    (priority maxAttempts : Nat) (sourceScheduleId : Option Uuid) (availableAt : Option Instant) :
    Json :=
  "\x7b\"available_at\":" ++ jsonOption (fun t => jsonString (setup.isoformat t)) availableAt
    ++ ",\"max_attempts\":" ++ toString maxAttempts
    ++ ",\"payload\":" ++ payload
    ++ ",\"priority\":" ++ toString priority
    ++ ",\"queue\":" ++ jsonString queue
    ++ ",\"source_schedule_id\":"
    ++ jsonOption (fun u => jsonString (setup.uuid u)) sourceScheduleId
    ++ ",\"task_type\":" ++ jsonString taskType ++ "\x7d"

/-- `_clear_lease`. -/
def AutomationTask.clearLease (task : AutomationTask) : AutomationTask :=
  { task with
    leaseOwner := none
    leaseTokenHash := none
    leaseExpiresAt := none
    heartbeatAt := none }

namespace InMemoryTaskQueue

/-- The empty queue. -/
def init : InMemoryTaskQueue := ⟨.empty, [], 0⟩

/-! ## Helpers -/

/-- `_require`. -/
def require (q : InMemoryTaskQueue) (taskId : Uuid) : Except ManagerError AutomationTask :=
  demand (.notFound "automation task was not found") (q.tasks.get? taskId)

/-- `_require_valid_lease`: the task runs under this worker and token, and its lease has not run
out. -/
def requireValidLease (q : InMemoryTaskQueue) (taskId : Uuid) (workerId leaseToken : String)
    (now : Instant) : Except ManagerError AutomationTask := do
  let task ← q.require taskId
  refuse (task.status ≠ .running ∨ task.leaseOwner ≠ some workerId
      ∨ task.leaseTokenHash ≠ some (tokenHash leaseToken)
      ∨ task.leaseExpiresAt.all (· ≤ now))
    (.lease "task lease is invalid or expired")
  return task

/-- The object under the id of `task` is now `task`. -/
def write (q : InMemoryTaskQueue) (task : AutomationTask) : InMemoryTaskQueue :=
  { q with tasks := q.tasks.put task }

/-- A delay of the retry policy, with the next of the jitters. -/
def delay (setup : QueueSetup) (q : InMemoryTaskQueue) (attempts : Nat) :
    InMemoryTaskQueue × Except ManagerError ℚ :=
  ({ q with drawn := q.drawn + 1 }, setup.retryPolicy.delay attempts (setup.entropy q.drawn))

/-- The task goes back to wait for its next attempt. -/
def retryLater (setup : QueueSetup) (q : InMemoryTaskQueue) (task : AutomationTask)
    (now : Instant) : InMemoryTaskQueue × Except ManagerError AutomationTask :=
  let task := { task with status := .retryWait }
  -- a policy that raises leaves the new status beside the old lease
  andThen ((q.write task).delay setup task.attempts) fun q delay =>
  let task := { task.clearLease with availableAt := now + timedelta delay }
  (q.write task, .ok task)

/-- The task is over. -/
def finish (q : InMemoryTaskQueue) (task : AutomationTask) (status : TaskStatus) (now : Instant) :
    InMemoryTaskQueue × Except ManagerError AutomationTask :=
  let task := { task.clearLease with status, finishedAt := some now }
  (q.write task, .ok task)

/-- The recovery of one task whose lease has expired. -/
def recoverTask (setup : QueueSetup) (now : Instant) (q : InMemoryTaskQueue)
    (task : AutomationTask) : InMemoryTaskQueue × Except ManagerError AutomationTask :=
  let task := { task with errorCode := some "lease_expired" }
  if task.cancelRequested then q.finish task .cancelled now
  else if task.attempts < task.maxAttempts then q.retryLater setup task now
  else q.finish task .deadLetter now

/-- `_recover_expired_locked`; what it does to one task is nothing to another. -/
def recoverExpiredLocked (setup : QueueSetup) (q : InMemoryTaskQueue) (now : Instant) :
    InMemoryTaskQueue × Except ManagerError (List AutomationTask) :=
  inTurn (recoverTask setup now) q
    (q.tasks.rows.filter fun t => t.status = .running ∧ t.leaseExpiresAt.any (· ≤ now))

/-- The tasks that a claim chooses from. -/
def candidates (q : InMemoryTaskQueue) (queues : List String) (now : Instant) :
    List AutomationTask :=
  q.tasks.rows.filter fun t =>
    t.queue ∈ queues ∧ (t.status = .queued ∨ t.status = .retryWait) ∧ t.availableAt ≤ now
      ∧ t.cancelRequested = false

/-! ## Methods -/

/-- The task, and whether it was there already. -/
def enqueue (setup : QueueSetup) (q : InMemoryTaskQueue) (taskType : String) (payload : Json)
    (queue : String) (priority maxAttempts : Nat) (idempotencyKey : Option String)
    (sourceScheduleId : Option Uuid) (availableAt : Option DateTime) (now : Instant) :
    Except ManagerError (InMemoryTaskQueue × AutomationTask × Bool) := do
  let dueAt ← asUtc (availableAt.getD ⟨now, true⟩)
  let requestFingerprint ← fingerprint (requestValue setup taskType payload queue priority
    maxAttempts sourceScheduleId (availableAt.map fun _ => dueAt))
  match idempotencyKey.bind fun k => q.idempotency.lookup (taskType, k) with
  | some (taskId, previousFingerprint) =>
    refuse (requestFingerprint ≠ previousFingerprint)
      (.conflict "task idempotency key was reused with different input")
    let task ← demand (.notFound "KeyError") (q.tasks.get? taskId)
    return (q, task, true)
  | none =>
    let task (id : Uuid) : AutomationTask :=
      { id, taskType, payload, queue, priority, status := .queued, idempotencyKey
        requestFingerprint, sourceScheduleId, attempts := 0, maxAttempts, availableAt := dueAt
        leaseOwner := none, leaseTokenHash := none, leaseExpiresAt := none, heartbeatAt := none
        cancelRequested := false, result := none, errorCode := none, createdAt := now
        startedAt := none, finishedAt := none }
    let id := q.tasks.next
    refuse (¬ (task id).Valid) .schema
    let bound := idempotencyKey.toList.map fun k => ((taskType, k), id, requestFingerprint)
    return ({ q with tasks := q.tasks.add task, idempotency := bound ++ q.idempotency },
      task id, false)

/-- `claim`: the first task that waits and is due, by priority, leased under a new token. -/
def claim (setup : QueueSetup) (q : InMemoryTaskQueue) (workerId : String) (queues : List String)
    (leaseSeconds : Int) (token : String) (now : Instant) :
    InMemoryTaskQueue × Except ManagerError (Option (AutomationTask × String)) :=
  if workerId = "" ∨ leaseSeconds < 1 then
    (q, .error (.validation "worker id and lease duration are required"))
  else if queues = [] then
    (q, .error (.validation "worker must subscribe to at least one queue"))
  else
    andThen (q.recoverExpiredLocked setup now) fun q _ =>
    match firstBy (fun t => [-(t.priority : Int), t.availableAt, t.createdAt, t.id])
        (q.candidates queues now) with
    | none => (q, .ok none)
    | some task =>
      let task := { task with
        status := .running
        attempts := task.attempts + 1
        leaseOwner := some workerId
        leaseTokenHash := some (tokenHash token)
        leaseExpiresAt := some (now + seconds leaseSeconds)
        heartbeatAt := some now
        startedAt := task.startedAt.or (some now) }
      (q.write task, .ok (some (task, token)))

/-- `heartbeat`: the lease of a running task ends later, or earlier. -/
def heartbeat (q : InMemoryTaskQueue) (taskId : Uuid) (workerId leaseToken : String)
    (leaseSeconds : Int) (now : Instant) :
    InMemoryTaskQueue × Except ManagerError AutomationTask :=
  andThen (q, (refuse (leaseSeconds < 1)
    (.validation "task lease duration must be positive") : Except ManagerError Unit)) fun q _ =>
  andThen (q, q.requireValidLease taskId workerId leaseToken now) fun q task =>
  let task := { task with
    heartbeatAt := some now
    leaseExpiresAt := some (now + seconds leaseSeconds) }
  (q.write task, .ok task)

/-- `complete`: a running task has succeeded. -/
def complete (q : InMemoryTaskQueue) (taskId : Uuid) (workerId leaseToken : String)
    (result : Option Json) (now : Instant) :
    InMemoryTaskQueue × Except ManagerError AutomationTask :=
  let result := result.getD "\x7b\x7d"
  andThen (q, fingerprint result) fun q _ =>
  andThen (q, q.requireValidLease taskId workerId leaseToken now) fun q task =>
  if task.cancelRequested then q.finish { task with result := none } .cancelled now
  else q.finish { task with result := some result } .succeeded now

/-- `fail`: a running task is tried again later, or has failed. -/
def fail (setup : QueueSetup) (q : InMemoryTaskQueue) (taskId : Uuid)
    (workerId leaseToken errorCode : String) (retryable : Bool) (now : Instant) :
    InMemoryTaskQueue × Except ManagerError AutomationTask :=
  andThen (q, (refuse (errorCode = "" ∨ 100 < errorCode.length)
    (.validation "task error code is invalid") : Except ManagerError Unit)) fun q _ =>
  andThen (q, q.requireValidLease taskId workerId leaseToken now) fun q task =>
  let task := { task with errorCode := some errorCode }
  if task.cancelRequested then q.finish task .cancelled now
  else if retryable ∧ task.attempts < task.maxAttempts then q.retryLater setup task now
  else if retryable then q.finish task .deadLetter now
  else q.finish task .failed now

/-- `request_cancel`: a waiting task is over at once, a running one is told. -/
def requestCancel (q : InMemoryTaskQueue) (taskId : Uuid) (now : Instant) :
    InMemoryTaskQueue × Except ManagerError AutomationTask :=
  andThen (q, q.require taskId) fun q task =>
  if task.status = .queued ∨ task.status = .retryWait then
    q.finish { task with cancelRequested := true } .cancelled now
  else
    let task := if task.status = .running then { task with cancelRequested := true } else task
    (q.write task, .ok task)

end InMemoryTaskQueue

end QaPlatform.Automation
