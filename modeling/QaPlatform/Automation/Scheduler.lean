import Mathlib.Data.List.Sort
import QaPlatform.Automation.Cron
import QaPlatform.Automation.DeviceManager
import QaPlatform.Base.Effects
import QaPlatform.Base.Order

/-!
# The in-memory scheduler

`InMemoryScheduler` of `app/automation/scheduler.py`, over whatever implements
`TaskQueuePort`. Its lock makes every method one step, and there is nothing to roll
back: a method that raises keeps the fires and the tasks it has made before.
-/

namespace QaPlatform.Automation

/-- `AutomationSchedule`. -/
structure AutomationSchedule where
  id : Uuid
  name : String
  taskType : String
  payload : Json
  queue : String
  priority : Nat
  maxAttempts : Nat
  cron : String
  timezone : String
  misfirePolicy : MisfirePolicy
  overlapPolicy : OverlapPolicy
  misfireGraceSeconds : Nat
  catchUpLimit : Nat
  enabled : Bool
  nextRunAt : Option Instant
  lastRunAt : Option Instant
  version : Nat
  createdAt : Instant
  updatedAt : Instant
deriving DecidableEq

/-- `ScheduleFire`: what has become of one instant of a schedule. -/
structure ScheduleFire where
  id : Uuid
  scheduleId : Uuid
  scheduledFor : Instant
  status : ScheduleFireStatus
  taskId : Option Uuid
  createdAt : Instant
deriving DecidableEq

instance : Keyed AutomationSchedule := ⟨AutomationSchedule.id⟩

@[simp] theorem AutomationSchedule.key_eq (r : AutomationSchedule) : key r = r.id := rfl

/-- The arguments of `enqueue`. -/
structure TaskRequest where
  taskType : String
  payload : Json
  queue : String
  priority : Nat
  maxAttempts : Nat
  idempotencyKey : Option String
  sourceScheduleId : Option Uuid
  availableAt : Option Instant
deriving DecidableEq

/-- A queue, and of the tasks that its methods return their ids. -/
structure TaskQueuePort (σ : Type) where
  enqueue : σ → TaskRequest → σ × Except ManagerError Uuid
  activeForSchedule : σ → Uuid → Except ManagerError (List Uuid)
  requestCancel : σ → Uuid → Instant → σ × Except ManagerError Unit

/-- What a scheduler is set up with. -/
structure SchedulerSetup (σ : Type) where
  port : TaskQueuePort σ
  zones : Zones
  isoformat : Instant → String
  uuid : Uuid → String

/-- `InMemoryScheduler` over a queue of which it knows the port only. -/
structure InMemoryScheduler (σ : Type) where
  queue : σ
  schedules : Table AutomationSchedule
  /-- `_expressions`. -/
  expressions : List (Uuid × CronExpression)
  /-- `_fires`. -/
  fires : List ((Uuid × String) × ScheduleFire)
  maxDue : Nat
  /-- The next identifier that `uuid4` returns. -/
  nextUuid : Uuid

namespace InMemoryScheduler

variable {σ : Type}

/-- `__init__`, which refuses a limit below one. -/
def init (taskQueue : σ) (maxDueOccurrences : Nat) : Except ManagerError (InMemoryScheduler σ) := do
  refuse (maxDueOccurrences < 1) (.validation "scheduler due limit must be positive")
  return ⟨taskQueue, .empty, [], [], maxDueOccurrences, 0⟩

/-! ## Helpers -/

/-- An `AutomationValidationError` of a cron expression. -/
def asManager (x : Except AutomationValidationError α) : Except ManagerError α :=
  x.mapError .validation

/-- `_require`. -/
def require (m : InMemoryScheduler σ) (scheduleId : Uuid) :
    Except ManagerError AutomationSchedule :=
  demand (.notFound "automation schedule was not found") (m.schedules.get? scheduleId)

/-- `self._expressions[schedule_id]`; `add` stores one beside every schedule. -/
def expression (m : InMemoryScheduler σ) (scheduleId : Uuid) :
    Except ManagerError CronExpression :=
  demand (.notFound "KeyError") (m.expressions.lookup scheduleId)

/-- The key of a cron instant in `_fires`; a manual fire has a key with its own number. -/
def cronFireKey (setup : SchedulerSetup σ) (scheduleId : Uuid) (scheduledFor : Instant) :
    Uuid × String :=
  (scheduleId, "cron:" ++ setup.isoformat scheduledFor)

/-- Stores a new fire. -/
def addFire (m : InMemoryScheduler σ) (key : Uuid × String) (fire : Uuid → ScheduleFire) :
    InMemoryScheduler σ × ScheduleFire :=
  ({ m with fires := m.fires ++ [(key, fire m.nextUuid)], nextUuid := m.nextUuid + 1 },
    fire m.nextUuid)

/-- `_record_fire`. -/
def recordFire (setup : SchedulerSetup σ) (m : InMemoryScheduler σ) (schedule : AutomationSchedule)
    (scheduledFor : Instant) (status : ScheduleFireStatus) (now : Instant) :
    InMemoryScheduler σ × Option ScheduleFire :=
  let key := cronFireKey setup schedule.id scheduledFor
  if (m.fires.lookup key).isSome then (m, none)
  else
    let added := m.addFire key fun id =>
      { id, scheduleId := schedule.id, scheduledFor, status, taskId := none, createdAt := now }
    (added.1, some added.2)

/-- `_apply_misfire_policy`: the selected instants and the skipped ones. -/
def applyMisfirePolicy (schedule : AutomationSchedule) (due : List Instant) (now : Instant) :
    List Instant × List Instant :=
  match schedule.misfirePolicy with
  | .fireOnce => (due.getLast?.toList, due.dropLast)
  | .catchUpLimited =>
    (due.drop (due.length - schedule.catchUpLimit), due.take (due.length - schedule.catchUpLimit))
  | .skip =>
    let cutoff := now - seconds schedule.misfireGraceSeconds
    (due.filter (cutoff ≤ ·), due.filter (· < cutoff))

/-- The instants from `cursor` that are due, at most `room`, and the first that is not. -/
def dueFrom (next : Instant → Except ManagerError Instant) (now : Instant) :
    Nat → Instant → Except ManagerError (List Instant × Instant)
  | 0, cursor => do
    refuse (cursor ≤ now) (.validation "schedule exceeded the bounded catch-up window")
    return ([], cursor)
  | room + 1, cursor =>
    if cursor ≤ now then do
      let later ← dueFrom next now room (← next cursor)
      return (cursor :: later.1, later.2)
    else return ([], cursor)

/-- The due instants of a schedule and its new `next_run_at`. -/
def dueInstants (setup : SchedulerSetup σ) (m : InMemoryScheduler σ) (schedule : AutomationSchedule)
    (cursor now : Instant) : Except ManagerError (List Instant × Instant) := do
  let expression ← m.expression schedule.id
  dueFrom (fun instant => asManager (expression.nextAfter setup.zones instant schedule.timezone))
    now m.maxDue cursor

/-- The request of a cron fire. -/
def fireRequest (setup : SchedulerSetup σ) (schedule : AutomationSchedule)
    (scheduledFor : Instant) :
    TaskRequest where
  taskType := schedule.taskType
  payload := schedule.payload
  queue := schedule.queue
  priority := schedule.priority
  maxAttempts := schedule.maxAttempts
  idempotencyKey :=
    some ("schedule:" ++ setup.uuid schedule.id ++ ":" ++ setup.isoformat scheduledFor)
  sourceScheduleId := some schedule.id
  availableAt := some scheduledFor

/-- The queue does something. -/
def onQueue (m : InMemoryScheduler σ) (x : σ × Except ManagerError α) :
    InMemoryScheduler σ × Except ManagerError α :=
  ({ m with queue := x.1 }, x.2)

/-- What `replace` does to the active tasks. -/
def cancelActive (setup : SchedulerSetup σ) (m : InMemoryScheduler σ) (active : List Uuid)
    (now : Instant) : InMemoryScheduler σ × Except ManagerError (List Unit) :=
  inTurn (fun m taskId => m.onQueue (setup.port.requestCancel m.queue taskId now)) m active

/-- One round of the loop over the selected instants. -/
def fireInstant (setup : SchedulerSetup σ) (schedule : AutomationSchedule) (now : Instant)
    (m : InMemoryScheduler σ) (scheduledFor : Instant) :
    InMemoryScheduler σ × Except ManagerError (Option ScheduleFire) :=
  let key := cronFireKey setup schedule.id scheduledFor
  if (m.fires.lookup key).isSome then (m, .ok none)
  else
    andThen (m, setup.port.activeForSchedule m.queue schedule.id) fun m active =>
    if schedule.overlapPolicy = .forbid ∧ active ≠ [] then
      let recorded := m.recordFire setup schedule scheduledFor .skippedOverlap now
      (recorded.1, .ok recorded.2)
    else
      let replaced :=
        if schedule.overlapPolicy = .replace then m.cancelActive setup active now else (m, .ok [])
      andThen replaced fun m _ =>
      andThen (m.onQueue (setup.port.enqueue m.queue (fireRequest setup schedule scheduledFor)))
        fun m taskId =>
      let added := m.addFire key fun id =>
        { id, scheduleId := schedule.id, scheduledFor, status := .enqueued, taskId := some taskId
          createdAt := now }
      (added.1, .ok (some added.2))

/-- The row that a turn leaves. -/
def movedOn (schedule : AutomationSchedule) (due : List Instant) (cursor now : Instant) :
    AutomationSchedule :=
  { schedule with
    lastRunAt := due.getLast?
    nextRunAt := some cursor
    version := schedule.version + 1
    updatedAt := now }

/-- `_fire_due_locked`. -/
def fireDueLocked (setup : SchedulerSetup σ) (now : Instant) (m : InMemoryScheduler σ)
    (schedule : AutomationSchedule) :
    InMemoryScheduler σ × Except ManagerError (List ScheduleFire) :=
  match schedule.nextRunAt with
  | none => (m, .ok [])
  | some cursor =>
    andThen (m, m.dueInstants setup schedule cursor now) fun m due =>
    let policy := applyMisfirePolicy schedule due.1 now
    andThen (inTurn (fun m scheduledFor =>
        let recorded := m.recordFire setup schedule scheduledFor .skippedMisfire now
        (recorded.1, .ok recorded.2)) m policy.2) fun m skipped =>
    andThen (inTurn (fireInstant setup schedule now) m policy.1) fun m selected =>
    ({ m with schedules := m.schedules.put (movedOn schedule due.1 due.2 now) },
      .ok ((skipped ++ selected).reduceOption))

/-! ## Methods -/

/-- `add`: a new schedule, whose expression and zone are read now. -/
def add (setup : SchedulerSetup σ) (m : InMemoryScheduler σ) (schedule : AutomationSchedule)
    (now : Instant) : Except ManagerError (InMemoryScheduler σ × AutomationSchedule) := do
  let expression ← asManager (CronExpression.parse schedule.cron)
  let calculatedNext ← asManager (expression.nextAfter setup.zones now schedule.timezone)
  let stored := { schedule with
    nextRunAt := some (schedule.nextRunAt.getD calculatedNext)
    createdAt := now
    updatedAt := now }
  if hnew : m.schedules.get? schedule.id = none then
    return ({ m with
      schedules := m.schedules.insert stored hnew
      expressions := (stored.id, expression) :: m.expressions }, stored)
  else .error (.conflict "schedule id already exists")

/-- `set_enabled`; a schedule that is switched on is planned anew from now. -/
def setEnabled (setup : SchedulerSetup σ) (m : InMemoryScheduler σ) (scheduleId : Uuid)
    (enabled : Bool) (now : Instant) :
    InMemoryScheduler σ × Except ManagerError AutomationSchedule :=
  andThen (m, m.require scheduleId) fun m schedule =>
  let schedule := { schedule with enabled }
  let switched := { m with schedules := m.schedules.put schedule }
  andThen (switched,
    if enabled = true ∧ schedule.nextRunAt.all (· ≤ now) then do
      let expression ← m.expression scheduleId
      (asManager (expression.nextAfter setup.zones now schedule.timezone)).map some
    else .ok schedule.nextRunAt) fun m nextRunAt =>
  let schedule := { schedule with nextRunAt, version := schedule.version + 1, updatedAt := now }
  ({ m with schedules := m.schedules.put schedule }, .ok schedule)

/-- The due schedules in their order. -/
def dueSchedules (m : InMemoryScheduler σ) (now : Instant) : List AutomationSchedule :=
  (m.schedules.rows.filter fun r => r.enabled = true ∧ r.nextRunAt.any (· ≤ now)).insertionSort
    fun r r' => columnsLe [r.nextRunAt.getD now, r.id] [r'.nextRunAt.getD now, r'.id] = true

/-- `tick`: every schedule that is due, one after the other, up to the first that raises. -/
def tick (setup : SchedulerSetup σ) (m : InMemoryScheduler σ) (now : Instant) :
    InMemoryScheduler σ × Except ManagerError (List ScheduleFire) :=
  andThen (inTurn (fireDueLocked setup now) m (m.dueSchedules now)) fun m created =>
  (m, .ok created.flatten)

/-- `run_now`: a fire beside the plan, which leaves the plan as it is. -/
def runNow (setup : SchedulerSetup σ) (m : InMemoryScheduler σ) (scheduleId : Uuid)
    (now : Instant) : InMemoryScheduler σ × Except ManagerError ScheduleFire :=
  andThen (m, m.require scheduleId) fun m schedule =>
  let manualId := m.nextUuid
  let m := { m with nextUuid := m.nextUuid + 1 }
  let request := { fireRequest setup schedule now with
    idempotencyKey :=
      some ("schedule-manual:" ++ setup.uuid schedule.id ++ ":" ++ setup.uuid manualId) }
  andThen (m.onQueue (setup.port.enqueue m.queue request)) fun m taskId =>
  let fire : ScheduleFire :=
    { id := manualId, scheduleId := schedule.id, scheduledFor := now, status := .enqueued
      taskId := some taskId, createdAt := now }
  ({ m with fires := m.fires ++ [((schedule.id, "manual:" ++ setup.uuid manualId), fire)] },
    .ok fire)

end InMemoryScheduler

end QaPlatform.Automation
