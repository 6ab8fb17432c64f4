import QaPlatform.Automation.Cron
import QaPlatform.Base.Guard
import QaPlatform.Runtime.Devices

/-!
# The persistent scheduler

The scheduler half of `PersistentRuntimeService` (`app/runtime/service.py`). A
schedule is claimed in one transaction (T1), its due instants are planned outside
SQL, and a second transaction (T2) finalises the claim: it compares token,
version, expected instant and lease, and then writes fires and tasks. Methods
that are one transaction return the store they commit; the clock is read once in
a transaction, and once more where the UPDATE compares the lease (`cutoff`).
-/

namespace QaPlatform.Runtime

open Automation (TaskStatus MisfirePolicy OverlapPolicy ScheduleFireStatus CronExpression Zones
  AutomationValidationError)

/-- The row of a schedule, with its claim if it has one. -/
structure ScheduleRecord where
  id : Uuid
  name : String
  taskType : String
  payload : Json
  queue : String
  priority : Nat
  maxAttempts : Nat
  cron : String
  timezone : String
  misfirePolicy : MisfirePolicy
  overlapPolicy : OverlapPolicy
  misfireGraceSeconds : Nat
  catchUpLimit : Nat
  enabled : Bool
  nextRunAt : Option Instant
  lastRunAt : Option Instant
  claimOwner : Option String
  claimTokenHash : Option TokenHash
  claimExpiresAt : Option Instant
  version : Nat
  createdAt : Instant
  updatedAt : Instant

/-- The row of a fire: what has become of one instant, or of one manual start. -/
structure ScheduleFireRecord where
  id : Uuid
  scheduleId : Uuid
  fireKey : String
  scheduledFor : Instant
  status : ScheduleFireStatus
  taskId : Option Uuid
  createdAt : Instant

instance : Keyed ScheduleRecord := ⟨ScheduleRecord.id⟩
instance : Keyed ScheduleFireRecord := ⟨ScheduleFireRecord.id⟩

@[simp] theorem ScheduleRecord.key_eq (r : ScheduleRecord) : key r = r.id := rfl

@[simp] theorem ScheduleFireRecord.key_eq (r : ScheduleFireRecord) : key r = r.id := rfl

/-- The tables of tasks, wake-ups, schedules and fires. -/
structure ScheduleStore where
  queue : TaskStore
  schedules : Table ScheduleRecord
  fires : Table ScheduleFireRecord

/-- `ScheduleCreate`. -/
structure ScheduleCreate where
  name : String
  taskType : String
  payload : Json
  queue : String
  priority : Nat
  maxAttempts : Nat
  cron : String
  timezone : String
  misfirePolicy : MisfirePolicy
  overlapPolicy : OverlapPolicy
  misfireGraceSeconds : Nat
  catchUpLimit : Nat
  enabled : Bool

/-- `SchedulePatch`. -/
structure SchedulePatch where
  name : PatchField String
  payload : PatchField Json
  queue : PatchField String
  priority : PatchField Nat
  maxAttempts : PatchField Nat
  cron : PatchField String
  timezone : PatchField String
  misfirePolicy : PatchField MisfirePolicy
  overlapPolicy : PatchField OverlapPolicy
  misfireGraceSeconds : PatchField Nat
  catchUpLimit : PatchField Nat
  enabled : PatchField Bool
  version : Nat

/-- `_CronDuePlan`. -/
structure CronDuePlan where
  selected : List Instant
  skipped : List Instant
  latestDue : Instant
  nextRunAt : Instant

/-- `_ClaimedSchedule`, the snapshot that T1 hands to planning and to T2. -/
structure ClaimedSchedule where
  id : Uuid
  taskType : String
  payload : Json
  queue : String
  priority : Nat
  maxAttempts : Nat
  cron : String
  timezone : String
  misfirePolicy : MisfirePolicy
  overlapPolicy : OverlapPolicy
  misfireGraceSeconds : Nat
  catchUpLimit : Nat
  firstDue : Instant
  claimedAt : Instant
  expectedVersion : Nat
  schedulerId : String
  claimToken : String

/-- What a service process is set up with. -/
structure Setup where
  taskTypes : List String
  render : Rendering
  zones : Zones
  isPostgresql : Bool

/-- The field has been sent with a value. -/
def PatchField.isSet : PatchField α → Bool
  | .value _ => true
  | .unset | .null => false

/-- Some field of the patch is `null`. -/
def SchedulePatch.hasNull (payload : SchedulePatch) : Bool :=
  payload.name.isNull || payload.payload.isNull || payload.queue.isNull || payload.priority.isNull
    || payload.maxAttempts.isNull || payload.cron.isNull || payload.timezone.isNull
    || payload.misfirePolicy.isNull || payload.overlapPolicy.isNull
    || payload.misfireGraceSeconds.isNull || payload.catchUpLimit.isNull || payload.enabled.isNull

/-! ## Planning -/

/-- `raise BusinessValidationError(str(error)) from error`. -/
def asBusiness (x : Except AutomationValidationError α) : Except DomainError α :=
  x.mapError .businessValidation

/-- `_parse_cron`. -/
def parseCron (value : String) : Except DomainError CronExpression :=
  asBusiness (CronExpression.parse value)

/-- `_next_cron_after`. -/
def nextCronAfter (zones : Zones) (expression : CronExpression) (instant : Instant)
    (timezoneName : String) : Except DomainError Instant :=
  asBusiness (expression.nextAfter zones instant timezoneName)

/-- The walk backwards of `catch_up_limited` from `cursor`, at most `limit` instants. -/
def catchUpWalk (previous : Instant → Except DomainError Instant) (firstDue : Instant) :
    Nat → Instant → Except DomainError (List Instant)
  | 0, _ => return []
  | limit + 1, cursor =>
    if cursor < firstDue then return []
    else if limit = 0 ∨ cursor = firstDue then return [cursor]
    else do
      let earlier ← catchUpWalk previous firstDue limit (← previous (cursor - 1))
      return earlier ++ [cursor]

/-- The walk forwards of `skip` through the grace window. -/
def graceWalk (next : Instant → Except DomainError Instant) (now : Instant) :
    Nat → Instant → Except DomainError (List Instant)
  | 0, cursor => do
    refuse (cursor ≤ now) (.businessValidation "定时任务宽限窗口超过安全上限")
    return []
  | room + 1, cursor =>
    if cursor ≤ now then do
      let later ← graceWalk next now room (← next cursor)
      return cursor :: later
    else return []

/-- `_cron_due_plan`. -/
def cronDuePlan (zones : Zones) (expression : CronExpression) (firstDue now : Instant)
    (timezoneName : String) (policy : MisfirePolicy) (misfireGraceSeconds catchUpLimit : Nat) :
    Except DomainError CronDuePlan := do
  let previous (instant : Instant) :=
    asBusiness (expression.previousAtOrBefore zones instant timezoneName)
  let next (instant : Instant) := asBusiness (expression.nextAfter zones instant timezoneName)
  let latest ← previous now
  let nextRun ← next now
  refuse (latest < firstDue) (.businessValidation "定时任务 next_run_at 与 cron 规则不一致")
  match policy with
  | .fireOnce => return ⟨[latest], [], latest, nextRun⟩
  | .catchUpLimited =>
    let selected ← catchUpWalk previous firstDue catchUpLimit latest
    return ⟨selected, [], latest, nextRun⟩
  | .skip =>
    let lowerBound := max firstDue (now - seconds misfireGraceSeconds)
    let selected ← graceWalk next now 1441 (← next (lowerBound - 1))
    if firstDue < lowerBound then do
      let representative ← previous (lowerBound - 1)
      return ⟨selected, if firstDue ≤ representative then [representative] else [], latest, nextRun⟩
    else return ⟨selected, [], latest, nextRun⟩

/-- The plan for a claim. -/
def ClaimedSchedule.duePlan (schedule : ClaimedSchedule) (zones : Zones) :
    Except DomainError CronDuePlan := do
  let expression ← parseCron schedule.cron
  cronDuePlan zones expression schedule.firstDue schedule.claimedAt schedule.timezone
    schedule.misfirePolicy schedule.misfireGraceSeconds schedule.catchUpLimit

/-! ## Fires -/

/-- The fire key of an instant of the plan. -/
def Rendering.cronFireKey (render : Rendering) (instant : Instant) : String :=
  "cron:" ++ render.isoformat instant

/-- The idempotency key of the task of a cron instant. -/
def Rendering.scheduleKey (render : Rendering) (scheduleId : Uuid) (instant : Instant) : String :=
  "schedule:" ++ render.uuid scheduleId ++ ":" ++ render.isoformat instant

/-- The idempotency key of the task of a manual fire. -/
def Rendering.manualKey (render : Rendering) (scheduleId fireId : Uuid) : String :=
  "schedule-manual:" ++ render.uuid scheduleId ++ ":" ++ render.uuid fireId

namespace ScheduleStore

/-- The schedule has a fire with the key. -/
def HasFire (s : ScheduleStore) (scheduleId : Uuid) (fireKey : String) : Prop :=
  ∃ fire ∈ s.fires.rows, fire.scheduleId = scheduleId ∧ fire.fireKey = fireKey

instance (s : ScheduleStore) (scheduleId : Uuid) (fireKey : String) :
    Decidable (s.HasFire scheduleId fireKey) := by
  unfold HasFire
  infer_instance

/-- Inserts a fire; one for each schedule and key. -/
def addFire (s : ScheduleStore) (scheduleId : Uuid) (fireKey : String) (scheduledFor : Instant)
    (status : ScheduleFireStatus) (taskId : Option Uuid) (now : Instant) :
    Except DomainError (ScheduleStore × ScheduleFireRecord) := do
  refuse (s.HasFire scheduleId fireKey) .integrity
  let fire (id : Uuid) : ScheduleFireRecord :=
    { id, scheduleId, fireKey, scheduledFor, status, taskId, createdAt := now }
  return ({ s with fires := s.fires.add fire }, fire s.fires.next)

/-- `_create_fire_if_absent`. -/
def createFireIfAbsent (render : Rendering) (scheduleId : Uuid) (status : ScheduleFireStatus)
    (now : Instant) (s : ScheduleStore) (instant : Instant) :
    Except DomainError (ScheduleStore × Option ScheduleFireRecord) := do
  if s.HasFire scheduleId (render.cronFireKey instant) then return (s, none)
  else do
    let (s, fire) ←
      s.addFire scheduleId (render.cronFireKey instant) instant status none now
    return (s, some fire)

/-- The active tasks of a schedule, which the query does not lock. -/
def activeForSchedule (s : ScheduleStore) (scheduleId : Uuid) : List AutomationTaskRecord :=
  s.queue.tasks.rows.filter fun t => t.sourceScheduleId = some scheduleId
    ∧ (t.status = .queued ∨ t.status = .running ∨ t.status = .retryWait)

/-- What `replace` writes to an active task. -/
def replaceTask (now : Instant) (queue : TaskStore) (task : AutomationTaskRecord) : TaskStore :=
  let task := { task with cancelRequested := true }
  { queue with
    tasks := queue.tasks.put
      (if task.status ≠ .running then { task with status := .cancelled, finishedAt := some now }
      else task) }

/-- The request of a fire. -/
def fireRequest (render : Rendering) (schedule : ClaimedSchedule) (instant : Instant) :
    TaskEnqueue where
  taskType := schedule.taskType
  payload := schedule.payload
  queue := schedule.queue
  priority := schedule.priority
  maxAttempts := schedule.maxAttempts
  idempotencyKey := some (render.scheduleKey schedule.id instant)
  availableAt := some instant

/-- One round of the loop over the selected instants. -/
def fireInstant (setup : Setup) (schedule : ClaimedSchedule) (now : Instant) (s : ScheduleStore)
    (instant : Instant) : Except DomainError (ScheduleStore × Option ScheduleFireRecord) := do
  if s.HasFire schedule.id (setup.render.cronFireKey instant) then return (s, none)
  else
    let active := s.activeForSchedule schedule.id
    if schedule.overlapPolicy = .forbid ∧ active ≠ [] then
      createFireIfAbsent setup.render schedule.id .skippedOverlap now s instant
    else do
      let queue :=
        if schedule.overlapPolicy = .replace then active.foldl (replaceTask now) s.queue
        else s.queue
      let (queue, task, _) ← queue.enqueueRecord setup.taskTypes setup.render
        (fireRequest setup.render schedule instant) (some schedule.id) now
      let (s, fire) ← { s with queue }.addFire schedule.id (setup.render.cronFireKey instant)
        instant .enqueued (some task.id) now
      return (s, some fire)

/-- One of the two loops of T2 and the fires it creates. -/
def fireAll (one : ScheduleStore → Instant →
    Except DomainError (ScheduleStore × Option ScheduleFireRecord)) (s : ScheduleStore) :
    List Instant → Except DomainError (ScheduleStore × List ScheduleFireRecord)
  | [] => return (s, [])
  | instant :: instants => do
    let (s, fire) ← one s instant
    let (s, created) ← fireAll one s instants
    return (s, fire.toList ++ created)

/-! ## Claims -/

/-- `_validate_scheduler_claim`. -/
def validateSchedulerClaim (schedulerId : String) (leaseSeconds : Int) :
    Except DomainError Unit := do
  refuse (strip schedulerId = "" ∨ 200 < schedulerId.length)
    (.businessValidation "scheduler_id 必须是 1 到 200 个字符的稳定实例标识")
  refuse (¬ (5 ≤ leaseSeconds ∧ leaseSeconds ≤ 3600))
    (.businessValidation "Scheduler 租约必须在 5 到 3600 秒之间")

/-- `build_schedule_claim_statement`, without its order. -/
def Claimable (now dueCutoff : Instant) (excludedIds : List Uuid) (r : ScheduleRecord) : Prop :=
  r.enabled = true ∧ r.nextRunAt.any (· ≤ dueCutoff) ∧ r.claimExpiresAt.all (· ≤ now)
    ∧ r.id ∉ excludedIds

instance (now dueCutoff : Instant) (excludedIds : List Uuid) (r : ScheduleRecord) :
    Decidable (Claimable now dueCutoff excludedIds r) := by
  unfold Claimable
  infer_instance

/-- The row that T1 selects: the earliest that may be claimed and is not locked. -/
def claimScheduleCandidate (s : ScheduleStore) (now dueCutoff : Instant) (excludedIds : List Uuid)
    (skipped : List Uuid) : Option ScheduleRecord :=
  firstBy (fun r => [r.nextRunAt.getD 0, r.id])
    (s.schedules.rows.filter fun r => Claimable now dueCutoff excludedIds r ∧ r.id ∉ skipped)

/-- The row that T1 leaves. -/
def claimedRow (schedulerId claimToken : String) (leaseSeconds : Int) (now : Instant)
    (r : ScheduleRecord) : ScheduleRecord :=
  { r with
    claimOwner := some schedulerId
    claimTokenHash := some (tokenHash claimToken)
    claimExpiresAt := some (now + seconds leaseSeconds) }

/-- The snapshot that T1 takes of a row. -/
def claimOf (schedulerId claimToken : String) (dueAt : Instant) (r : ScheduleRecord) :
    ClaimedSchedule where
  id := r.id
  taskType := r.taskType
  payload := r.payload
  queue := r.queue
  priority := r.priority
  maxAttempts := r.maxAttempts
  cron := r.cron
  timezone := r.timezone
  misfirePolicy := r.misfirePolicy
  overlapPolicy := r.overlapPolicy
  misfireGraceSeconds := r.misfireGraceSeconds
  catchUpLimit := r.catchUpLimit
  firstDue := r.nextRunAt.getD 0
  claimedAt := dueAt
  expectedVersion := r.version
  schedulerId := schedulerId
  claimToken := claimToken

/-- `_claim_due_schedule`, T1. `skipped` are the rows that others have locked. -/
def claimDueSchedule (setup : Setup) (s : ScheduleStore) (schedulerId : String)
    (leaseSeconds : Int) (fallbackNow : Option Instant) (excludedIds : List Uuid)
    (claimToken : String) (now : Instant) (skipped : List Uuid) :
    ScheduleStore × Option ClaimedSchedule :=
  let dueAt := if setup.isPostgresql then now else fallbackNow.getD now
  match s.claimScheduleCandidate now dueAt excludedIds skipped with
  | none => (s, none)
  | some r =>
    ({ s with schedules := s.schedules.put (claimedRow schedulerId claimToken leaseSeconds now r) },
      some (claimOf schedulerId claimToken dueAt r))

/-- The row's claim is the one of `schedule`. -/
def HeldBy (schedule : ClaimedSchedule) (r : ScheduleRecord) : Prop :=
  r.id = schedule.id ∧ r.claimOwner = some schedule.schedulerId
    ∧ r.claimTokenHash = some (tokenHash schedule.claimToken)

instance (schedule : ClaimedSchedule) (r : ScheduleRecord) : Decidable (HeldBy schedule r) := by
  unfold HeldBy
  infer_instance

/-- `build_schedule_finalize_statement` finds the row. -/
def Finalizable (schedule : ClaimedSchedule) (cutoff : Instant) (r : ScheduleRecord) : Prop :=
  HeldBy schedule r ∧ r.enabled = true ∧ r.version = schedule.expectedVersion
    ∧ r.nextRunAt = some schedule.firstDue ∧ r.claimExpiresAt.any (cutoff < ·)

instance (schedule : ClaimedSchedule) (cutoff : Instant) (r : ScheduleRecord) :
    Decidable (Finalizable schedule cutoff r) := by
  unfold Finalizable
  infer_instance

/-- The row without a claim. -/
def unclaimedRow (r : ScheduleRecord) : ScheduleRecord :=
  { r with claimOwner := none, claimTokenHash := none, claimExpiresAt := none }

/-- `release_schedule_claim`. -/
def releaseScheduleClaim (s : ScheduleStore) (schedule : ClaimedSchedule) : ScheduleStore :=
  match (s.schedules.get? schedule.id).filter fun r => HeldBy schedule r with
  | none => s
  | some r => { s with schedules := s.schedules.put (unclaimedRow r) }

/-- The row that T2 leaves. -/
def finalizedRow (plan : CronDuePlan) (now : Instant) (r : ScheduleRecord) : ScheduleRecord :=
  { unclaimedRow r with
    lastRunAt := some plan.latestDue
    nextRunAt := some plan.nextRunAt
    version := r.version + 1
    updatedAt := now }

/-- `_finalize_schedule_claim`, T2. -/
def finalizeScheduleClaim (setup : Setup) (s : ScheduleStore) (schedule : ClaimedSchedule)
    (plan : CronDuePlan) (now cutoff : Instant) :
    Except DomainError (ScheduleStore × List ScheduleFireRecord) :=
  match (s.schedules.get? schedule.id).filter fun r => Finalizable schedule cutoff r with
  | none => return (s.releaseScheduleClaim schedule, [])
  | some r => do
    let s := { s with schedules := s.schedules.put (finalizedRow plan now r) }
    let (s, skipped) ←
      fireAll (createFireIfAbsent setup.render schedule.id .skippedMisfire now) s plan.skipped
    let (s, created) ← fireAll (fireInstant setup schedule now) s plan.selected
    return (s, skipped ++ created)

/-! ## Methods -/

/-- The row of a schedule, or the error for a number that is not known. -/
def requireSchedule (s : ScheduleStore) (scheduleId : Uuid) : Except DomainError ScheduleRecord :=
  demand (.notFound "定时任务" scheduleId) (s.schedules.get? scheduleId)

/-- `create_schedule`, which plans the first run. -/
def createSchedule (setup : Setup) (s : ScheduleStore) (payload : ScheduleCreate) (now : Instant) :
    Except DomainError (ScheduleStore × ScheduleRecord) := do
  refuse (payload.taskType ∉ setup.taskTypes)
    (.businessValidation
      "未知 task_type；仅允许服务端固定注册表中的教学任务，不能执行 shell 或模块路径")
  let _ ← jsonFingerprint payload.payload
  refuse (strip payload.name = "" ∨ strip payload.queue = "")
    (.businessValidation "定时任务名称和队列名不能为空")
  let expression ← parseCron payload.cron
  let nextRun ← nextCronAfter setup.zones expression now payload.timezone
  refuse (∃ r ∈ s.schedules.rows, r.name = strip payload.name) .integrity
  let record (id : Uuid) : ScheduleRecord :=
    { id, name := strip payload.name, taskType := payload.taskType, payload := payload.payload
      queue := payload.queue, priority := payload.priority, maxAttempts := payload.maxAttempts
      cron := payload.cron, timezone := payload.timezone, misfirePolicy := payload.misfirePolicy
      overlapPolicy := payload.overlapPolicy
      misfireGraceSeconds := payload.misfireGraceSeconds, catchUpLimit := payload.catchUpLimit
      enabled := payload.enabled, nextRunAt := some nextRun, lastRunAt := none, claimOwner := none
      claimTokenHash := none, claimExpiresAt := none, version := 0, createdAt := now
      updatedAt := now }
  return ({ s with schedules := s.schedules.add record }, record s.schedules.next)

/-- The row that the set fields of a patch make of a row. -/
def patchedRow (payload : SchedulePatch) (r : ScheduleRecord) : ScheduleRecord :=
  { r with
    name := if payload.name.isSet then strip (payload.name.getD r.name) else r.name
    payload := payload.payload.getD r.payload
    queue := payload.queue.getD r.queue
    priority := payload.priority.getD r.priority
    maxAttempts := payload.maxAttempts.getD r.maxAttempts
    cron := payload.cron.getD r.cron
    timezone := payload.timezone.getD r.timezone
    misfirePolicy := payload.misfirePolicy.getD r.misfirePolicy
    overlapPolicy := payload.overlapPolicy.getD r.overlapPolicy
    misfireGraceSeconds := payload.misfireGraceSeconds.getD r.misfireGraceSeconds
    catchUpLimit := payload.catchUpLimit.getD r.catchUpLimit
    enabled := payload.enabled.getD r.enabled }

/-- The edit asks for a new `next_run_at`. -/
def Replans (payload : SchedulePatch) (now : Instant) (r : ScheduleRecord) : Prop :=
  (payload.cron.isSet ∨ payload.timezone.isSet)
    ∨ (payload.enabled.getD false = true ∧ r.enabled = false)
    ∨ ((patchedRow payload r).enabled = true ∧ r.nextRunAt.all (· ≤ now))

instance (payload : SchedulePatch) (now : Instant) (r : ScheduleRecord) :
    Decidable (Replans payload now r) := by
  unfold Replans
  infer_instance

/-- The `next_run_at` after an edit. -/
def replannedNext (setup : Setup) (payload : SchedulePatch) (now : Instant) (r : ScheduleRecord)
    (expression : CronExpression) : Except DomainError (Option Instant) :=
  if Replans payload now r then
    (nextCronAfter setup.zones expression now (patchedRow payload r).timezone).map some
  else .ok r.nextRunAt

/-- `update_schedule`, the PATCH of a schedule, which plans it anew. -/
def updateSchedule (setup : Setup) (s : ScheduleStore) (scheduleId : Uuid)
    (payload : SchedulePatch) (now : Instant) :
    Except DomainError (ScheduleStore × ScheduleRecord) := do
  let r ← s.requireSchedule scheduleId
  refuse (r.version ≠ payload.version)
    (.conflict "定时任务已被其他请求修改，请刷新后重试")
  refuse (payload.hasNull = true) (.businessValidation "定时任务更新字段不能设为空")
  let record := patchedRow payload r
  let _ ← jsonFingerprint record.payload
  let expression ← parseCron record.cron
  let nextRunAt ← replannedNext setup payload now r expression
  refuse (∃ r' ∈ s.schedules.rows, r'.name = record.name ∧ r'.id ≠ r.id) .integrity
  -- an edit takes the claim from whoever has it
  let record := { unclaimedRow record with nextRunAt, version := r.version + 1, updatedAt := now }
  return ({ s with schedules := s.schedules.put record }, record)

/-- Tasks and fires refer to their schedule, which restricts its deletion. -/
def deleteSchedule (s : ScheduleStore) (scheduleId : Uuid) : Except DomainError ScheduleStore := do
  let _ ← s.requireSchedule scheduleId
  refuse (∃ fire ∈ s.fires.rows, fire.scheduleId = scheduleId)
    (.conflict "定时任务已有触发历史，只能停用，不能删除")
  refuse (∃ t ∈ s.queue.tasks.rows, t.sourceScheduleId = some scheduleId) .integrity
  return { s with schedules := s.schedules.erase scheduleId }

/-- The request of a manual fire. -/
def manualRequest (render : Rendering) (schedule : ScheduleRecord) (fireId : Uuid)
    (now : Instant) : TaskEnqueue where
  taskType := schedule.taskType
  payload := schedule.payload
  queue := schedule.queue
  priority := schedule.priority
  maxAttempts := schedule.maxAttempts
  idempotencyKey := some (render.manualKey schedule.id fireId)
  availableAt := some now

/-- `run_schedule_now`: a fire beside the plan, which leaves the plan as it is. -/
def runScheduleNow (setup : Setup) (s : ScheduleStore) (scheduleId : Uuid) (now : Instant) :
    Except DomainError (ScheduleStore × ScheduleFireRecord) := do
  let schedule ← s.requireSchedule scheduleId
  let fireId := s.fires.next
  let (queue, task, _) ← s.queue.enqueueRecord setup.taskTypes setup.render
    (manualRequest setup.render schedule fireId now) (some schedule.id) now
  { s with queue }.addFire schedule.id ("manual:" ++ setup.render.uuid fireId) now .enqueued
    (some task.id) now

/-- The clock readings of one claimed schedule, with the token of its claim and the
rows that others have locked then. -/
structure TickReading where
  claimedAt : Instant
  claimToken : String
  skipped : List Uuid
  finalizedAt : Instant
  cutoff : Instant

/-- `_execute_schedule_claim`. What raises leaves what has been committed before. -/
def executeScheduleClaim (setup : Setup) (s : ScheduleStore) (schedule : ClaimedSchedule)
    (now cutoff : Instant) : ScheduleStore × Except DomainError (List ScheduleFireRecord) :=
  match schedule.duePlan setup.zones with
  | .error error => (s.releaseScheduleClaim schedule, .error error)
  | .ok plan =>
    match s.finalizeScheduleClaim setup schedule plan now cutoff with
    | .error error => (s, .error error)
    | .ok (s, created) => (s, .ok created)

/-- The rounds of `tick_schedules` that are left after the schedules in `attempted`. -/
def tickRounds (setup : Setup) (schedulerId : String) (leaseSeconds : Int)
    (fallbackNow : Option Instant) (reading : Nat → TickReading) :
    Nat → ScheduleStore → List Uuid → ScheduleStore × Except DomainError (List ScheduleFireRecord)
  | 0, s, _ => (s, .ok [])
  | rounds + 1, s, attempted =>
    let r := reading attempted.length
    match s.claimDueSchedule setup schedulerId leaseSeconds fallbackNow attempted r.claimToken
        r.claimedAt r.skipped with
    | (s, none) => (s, .ok [])
    | (s, some schedule) =>
      match s.executeScheduleClaim setup schedule r.finalizedAt r.cutoff with
      | (s, .error error) => (s, .error error)
      | (s, .ok created) =>
        let (s, later) := tickRounds setup schedulerId leaseSeconds fallbackNow reading rounds s
          (schedule.id :: attempted)
        (s, later.map (created ++ ·))

/-- `SCHEDULE_TICK_BATCH_LIMIT`. -/
def scheduleTickBatchLimit : Nat := 100

/-- `tick_schedules`: one claim after the other, up to the limit. -/
def tickSchedules (setup : Setup) (s : ScheduleStore) (schedulerId : String) (leaseSeconds : Int)
    (fallbackNow : Option Instant) (reading : Nat → TickReading) :
    ScheduleStore × Except DomainError (List ScheduleFireRecord) :=
  match validateSchedulerClaim schedulerId leaseSeconds with
  | .error error => (s, .error error)
  | .ok _ =>
    tickRounds setup schedulerId leaseSeconds fallbackNow reading scheduleTickBatchLimit s []

/-- `tick_schedule_once`: one claim. -/
def tickScheduleOnce (setup : Setup) (s : ScheduleStore) (schedulerId : String)
    (leaseSeconds : Int) (fallbackNow : Option Instant) (reading : TickReading) :
    ScheduleStore × Except DomainError (List ScheduleFireRecord) :=
  match validateSchedulerClaim schedulerId leaseSeconds with
  | .error error => (s, .error error)
  | .ok _ =>
    match s.claimDueSchedule setup schedulerId leaseSeconds fallbackNow [] reading.claimToken
        reading.claimedAt reading.skipped with
    | (s, none) => (s, .ok [])
    | (s, some schedule) =>
      s.executeScheduleClaim setup schedule reading.finalizedAt reading.cutoff

end ScheduleStore

end QaPlatform.Runtime
