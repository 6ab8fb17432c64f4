import QaPlatform.Base.Dict
import QaPlatform.Pipeline.Runs

/-!
# The in-memory pipeline service

`InMemoryPipelineService` of `app/pipeline/service.py` over a persistence layer that holds whole
snapshots. A section is what the service does while it holds its lock; an executor is a coroutine
that goes from section to section. A save may raise before or after it has taken effect, and the
load that follows may raise too; a task that is cancelled inside a save is left out.
-/

namespace QaPlatform.Pipeline

/-- `PipelinePersistenceState`: what is stored as a whole. -/
structure PipelinePersistenceState where
  runs : Dict String PipelineRun
  triggerKeys : Dict String (String × Digest Json)
  callbackEvents : Dict String (Dict String (Digest Json))

/-- The state of a new database. -/
def PipelinePersistenceState.empty : PipelinePersistenceState :=
  ⟨Dict.empty, Dict.empty, Dict.empty⟩

/-- Where an executor stands: before which section of `_execute`, or in its sleep. -/
inductive Executor where
  | entering
  | stageEntry (stageIndex stageCount : Nat)
  | jobEntry (stageIndex stageCount jobIndex jobCount : Nat)
  | waiting (stageIndex stageCount jobIndex jobCount : Nat)
  | jobExit (stageIndex stageCount jobIndex jobCount : Nat)
  | stageExit (stageIndex stageCount : Nat)
  | leaving
  /-- In the handler of an exception. -/
  | failing (message : String)
deriving DecidableEq

/-- `InMemoryPipelineService`, with its storage and the executors of its runs. -/
structure InMemoryPipelineService extends PipelinePersistenceState where
  cancelEvents : Dict String Bool
  completionEvents : Dict String Bool
  tasks : String → Option Executor
  /-- What the persistence layer holds, if there is one. -/
  persistence : Option PipelinePersistenceState
  durableState : Option PipelinePersistenceState
  initialized : Bool
  closed : Bool

/-- How a save ends. -/
inductive SaveOutcome where
  | saved
  /-- It raises, with or without having taken effect, and so may the load that follows. -/
  | raised (message : String) (written reloads : Bool)

/-- How the persistence layer behaves in one section. -/
structure Storage where
  loadError : Option String := none
  recoverySave : SaveOutcome := .saved
  save : SaveOutcome := .saved

/-- `PipelineTriggerResult`. -/
structure PipelineTriggerResult where
  pipeline : PipelineRun
  replayed : Bool

/-- `PipelineCancellationResult`. -/
structure PipelineCancellationResult where
  pipeline : PipelineRun
  replayed : Bool

/-- `PipelineCallbackResult`. -/
structure PipelineCallbackResult where
  pipeline : PipelineRun
  duplicate : Bool

/-- What is done while the lock is held: it edits the service and may raise. -/
abbrev Section := Edit PipelineFailure InMemoryPipelineService

namespace InMemoryPipelineService

/-- A service that has just been made. -/
def create (persistence : Option PipelinePersistenceState) : InMemoryPipelineService where
  toPipelinePersistenceState := .empty
  cancelEvents := Dict.empty
  completionEvents := Dict.empty
  tasks _ := none
  persistence
  durableState := none
  initialized := persistence.isNone
  closed := false

/-! ## Durable state -/

/-- Whether the events of a run are set: one event for each run. -/
def terminalEvents (runs : Dict String PipelineRun) : Dict String Bool :=
  runs.mapVals fun _ run => run.status.Terminal

/-- `_synchronize_terminal_events_locked`. -/
def synchronizeTerminalEvents (service : InMemoryPipelineService) : InMemoryPipelineService :=
  { service with
    cancelEvents := terminalEvents service.runs
    completionEvents := terminalEvents service.runs }

/-- `_restore_state_locked`. -/
def restoreState (state : PipelinePersistenceState) (service : InMemoryPipelineService) :
    InMemoryPipelineService :=
  { service with
    runs := state.runs
    triggerKeys := state.triggerKeys
    callbackEvents := state.runs.mapVals fun runId _ =>
      (state.callbackEvents.get? runId).getD Dict.empty
    cancelEvents := terminalEvents state.runs
    completionEvents := terminalEvents state.runs }

/-- What is in memory after a save has raised. -/
def reconcileMemory (stored : PipelinePersistenceState) (reloads : Bool)
    (service : InMemoryPipelineService) : InMemoryPipelineService :=
  match if reloads then some stored else service.durableState with
  | none => { service with persistence := some stored }
  | some durable => { service.restoreState durable with persistence := some stored }

/-- `_checkpoint_locked`. -/
def checkpointLocked (outcome : SaveOutcome) : Section Unit := fun service =>
  match service.persistence with
  | none => (service.synchronizeTerminalEvents, .ok ())
  | some stored =>
    let candidate := service.toPipelinePersistenceState
    match outcome with
    | .saved =>
      ({ service.synchronizeTerminalEvents with
          persistence := some candidate, durableState := some candidate }, .ok ())
    | .raised message written reloads =>
      (service.reconcileMemory (if written then candidate else stored) reloads,
        .error (.storage message))

/-- What `_initialize_locked` makes of a run. -/
def recover (now : Instant) : Change PipelineRun Unit := do
  let run ← Edit.read
  if ¬ run.status.Terminal then
    PipelineRun.node (finish now .cancelled (some "pipeline interrupted by service restart"))
    PipelineRun.cancelUnfinishedChildren now "not resumed after service restart"
  let run ← Edit.read
  Edit.lift run.assertRunInvariants
  PipelineRun.markTerminal

/-- Every run in turn. -/
def overRuns (x : Change PipelineRun Unit) : Section Unit :=
  Edit.zoom (fun service : InMemoryPipelineService => service.runs)
    (fun runs service => { service with runs }) (Dict.editAll x)

/-- One run. -/
def overRun (runId : String) (x : Change PipelineRun Unit) : Section Unit :=
  Edit.zoom (fun service : InMemoryPipelineService => service.runs)
    (fun runs service => { service with runs }) (Dict.edit (.keyError runId) x runId)

/-- The save after the recovery; when it raises, a later call loads again. -/
def saveRecovery (outcome : SaveOutcome) : Section Unit := fun service =>
  match (checkpointLocked outcome service).2 with
  | .ok _ => checkpointLocked outcome service
  | .error e => ({ (checkpointLocked outcome service).1 with initialized := false }, .error e)

/-- The service after a load, before it has looked at the runs that it has found. -/
def loaded (stored : PipelinePersistenceState) (service : InMemoryPipelineService) :
    InMemoryPipelineService :=
  { service.restoreState stored with durableState := some stored, initialized := true }

/-- The rest of `_initialize_locked`, once the state has been loaded. -/
def restoreLoaded (now : Instant) (storage : Storage) (stored : PipelinePersistenceState) :
    Section Unit := do
  Edit.update (loaded stored)
  let service ← Edit.read
  overRuns (recover now)
  if service.runs.entries.any fun e => ¬ e.2.status.Terminal then saveRecovery storage.recoverySave
  else return

/-- `_initialize_locked`. -/
def initializeLocked (now : Instant) (storage : Storage) : Section Unit := do
  let service ← Edit.read
  if service.initialized then return
  else
    let stored ← Edit.lift (demand .assertionError service.persistence)
    match storage.loadError with
    | some message => Edit.raise (.storage message)
    | none => restoreLoaded now storage stored

/-- `_ensure_open`. -/
def ensureOpen : Section Unit := do
  let service ← Edit.read
  if service.closed then Edit.raise (.serviceClosed "pipeline service is shut down") else return

/-- `_require_run`. -/
def requireRun (runId : String) : Section PipelineRun := do
  let service ← Edit.read
  Edit.lift (demand (.notFound ("pipeline not found: " ++ runId)) (service.runs.get? runId))

/-! ## Calls -/

/-- A run as it is created. -/
def newRun (now : Instant) (runId : String) (request : PipelineTriggerRequest) : PipelineRun where
  id := runId
  name := request.name
  stages := request.stages.map fun stage =>
    { name := stage.name
      jobs := stage.jobs.map fun job =>
        { name := job.name, durationMs := job.durationMs, shouldFail := job.shouldFail } }
  triggerVariables := request.triggerVariables
  idempotencyKey := request.idempotencyKey
  createdAt := now

/-- A new run with no callback events, and its trigger key if it has one. -/
def addRun (run : PipelineRun) (request : PipelineTriggerRequest)
    (service : InMemoryPipelineService) : InMemoryPipelineService :=
  { service with
    runs := service.runs.set run.id run
    callbackEvents := service.callbackEvents.set run.id Dict.empty
    cancelEvents := service.cancelEvents.set run.id false
    completionEvents := service.completionEvents.set run.id false
    triggerKeys := match request.idempotencyKey with
      | none => service.triggerKeys
      | some key => service.triggerKeys.set key (run.id, triggerFingerprint request) }

/-- What an idempotency key stands for. -/
def replayTrigger (request : PipelineTriggerRequest) (previous : String × Digest Json) :
    Section PipelineTriggerResult := do
  if previous.2 ≠ triggerFingerprint request then
    Edit.raise (.idempotencyConflict "idempotency key was reused with a different request")
  else
    let service ← Edit.read
    let run ← Edit.lift (demand (.keyError previous.1) (service.runs.get? previous.1))
    return { pipeline := run, replayed := true }

/-- The executor of a run, when the request asks for one. -/
def spawn (runId : String) (request : PipelineTriggerRequest) (service : InMemoryPipelineService) :
    InMemoryPipelineService :=
  if request.autoStart then
    { service with tasks := Function.update service.tasks runId (some .entering) }
  else service

/-- The rest of `trigger`, when no run stands for the key. -/
def createRun (now : Instant) (storage : Storage) (runId : String)
    (request : PipelineTriggerRequest) : Section PipelineTriggerResult := do
  let run := newRun now runId request
  Edit.update (addRun run request)
  checkpointLocked storage.save
  Edit.update (spawn runId request)
  return { pipeline := run, replayed := false }

/-- `trigger`, once the service is initialized. -/
def triggerSection (now : Instant) (storage : Storage) (runId : String)
    (request : PipelineTriggerRequest) : Section PipelineTriggerResult := do
  ensureOpen
  let service ← Edit.read
  match request.idempotencyKey.bind service.triggerKeys.get? with
  | some previous => replayTrigger request previous
  | none => createRun now storage runId request

/-- `trigger`; `runId` is the new `uuid4()`. -/
def trigger (now : Instant) (storage : Storage) (runId : String)
    (request : PipelineTriggerRequest) : Section PipelineTriggerResult := do
  initializeLocked now storage
  triggerSection now storage runId request

/-- `cancel`, once the service is initialized. -/
def cancelSection (now : Instant) (storage : Storage) (runId : String) :
    Section PipelineCancellationResult := do
  ensureOpen
  let run ← requireRun runId
  if run.status = .cancelled then return { pipeline := run, replayed := true }
  else if run.status.Terminal then
    Edit.raise (.transition ("cannot cancel a " ++ run.status.value ++ " pipeline"))
  else
    overRun runId (PipelineRun.cancel now "cancelled by user" "pipeline was cancelled")
    checkpointLocked storage.save
    let run ← requireRun runId
    return { pipeline := run, replayed := false }

/-- `cancel`. -/
def cancel (now : Instant) (storage : Storage) (runId : String) :
    Section PipelineCancellationResult := do
  initializeLocked now storage
  cancelSection now storage runId

/-- An event that has been delivered before. -/
def replayCallback (callback : PipelineCallbackRequest) (run : PipelineRun)
    (previous : Digest Json) : Section PipelineCallbackResult :=
  if previous ≠ callbackFingerprint callback then
    Edit.raise (.idempotencyConflict "callback event_id was reused with different content")
  else return { pipeline := run, duplicate := true }

/-- The event has been delivered. -/
def recordEvent (runId : String) (callback : PipelineCallbackRequest)
    (deliveredEvents : Dict String (Digest Json)) (service : InMemoryPipelineService) :
    InMemoryPipelineService :=
  { service with
    callbackEvents := service.callbackEvents.set runId
      (deliveredEvents.set callback.eventId (callbackFingerprint callback)) }

/-- A new event. -/
def deliverCallback (now : Instant) (storage : Storage) (runId : String)
    (callback : PipelineCallbackRequest) (deliveredEvents : Dict String (Digest Json)) :
    Section PipelineCallbackResult := do
  overRun runId (PipelineRun.reconcile now callback)
  -- failed validation or transition attempts are deliberately not recorded
  Edit.update (recordEvent runId callback deliveredEvents)
  checkpointLocked storage.save
  let run ← requireRun runId
  return { pipeline := run, duplicate := false }

/-- `apply_callback`, once the service is initialized. -/
def callbackSection (now : Instant) (storage : Storage) (runId : String)
    (callback : PipelineCallbackRequest) : Section PipelineCallbackResult := do
  ensureOpen
  let run ← requireRun runId
  let service ← Edit.read
  let deliveredEvents ← Edit.lift (demand (.keyError runId) (service.callbackEvents.get? runId))
  match deliveredEvents.get? callback.eventId with
  | some previous => replayCallback callback run previous
  | none => deliverCallback now storage runId callback deliveredEvents

/-- `apply_callback`. -/
def applyCallback (now : Instant) (storage : Storage) (runId : String)
    (callback : PipelineCallbackRequest) : Section PipelineCallbackResult := do
  initializeLocked now storage
  callbackSection now storage runId callback

/-- What `shutdown` does to a run. -/
def shutDownRun (now : Instant) : Change PipelineRun Unit := do
  let run ← Edit.read
  if ¬ run.status.Terminal then
    PipelineRun.cancel now "pipeline service shut down" "pipeline service shut down"
  else return

/-- `shutdown`, once the service is initialized. -/
def shutdownSection (now : Instant) (storage : Storage) : Section Unit := do
  Edit.update fun service => { service with closed := true }
  overRuns (shutDownRun now)
  checkpointLocked storage.save

/-- `shutdown`, up to the executors that it cancels, which end afterwards. -/
def shutdown (now : Instant) (storage : Storage) : Section Unit := do
  initializeLocked now storage
  shutdownSection now storage

/-- A service with nothing in it, over a persistence layer with nothing in it. -/
def cleared (service : InMemoryPipelineService) : InMemoryPipelineService :=
  { create (service.persistence.map fun _ => .empty) with
    durableState := service.persistence.map fun _ => .empty, initialized := true }

/-- `reset`, whose executors have been cancelled and whose `clear` does not raise. -/
def reset (now : Instant) (storage : Storage) : Section Unit := do
  initializeLocked now storage
  Edit.update cleared

/-! ## The executor -/

/-- `for stage_index in range(stage_count)`. -/
def atStage (stageIndex stageCount : Nat) : Executor :=
  if stageIndex < stageCount then .stageEntry stageIndex stageCount else .leaving

/-- `for job_index in range(job_count)`. -/
def atJob (stageIndex stageCount jobIndex jobCount : Nat) : Executor :=
  if jobIndex < jobCount then .jobEntry stageIndex stageCount jobIndex jobCount
  else .stageExit stageIndex stageCount

/-- The first section, once the service is initialized. -/
def enterRun (now : Instant) (storage : Storage) (runId : String) : Section (Option Executor) := do
  let run ← requireRun runId
  if run.status ≠ .queued then return none
  else
    overRun runId (PipelineRun.node (start now))
    checkpointLocked storage.save
    return some (atStage 0 run.stages.length)

/-- The first section of an executor. -/
def enter (now : Instant) (storage : Storage) (runId : String) : Section (Option Executor) := do
  initializeLocked now storage
  enterRun now storage runId

/-- The section that starts a stage. -/
def enterStage (now : Instant) (storage : Storage) (runId : String) (i n : Nat) :
    Section (Option Executor) := do
  let run ← requireRun runId
  if run.status ≠ .running then return none
  else
    let stage ← Edit.lift (demand .indexError run.stages[i]?)
    if stage.status = .succeeded then return some (atStage (i + 1) n)
    else
      overRun runId (PipelineRun.stage i (PipelineStageResult.node (start now)))
      checkpointLocked storage.save
      return some (atJob i n 0 stage.jobs.length)

/-- The section that starts a job. -/
def enterJob (now : Instant) (storage : Storage) (runId : String) (i n j m : Nat) :
    Section (Option Executor) := do
  let run ← requireRun runId
  if run.status ≠ .running then return none
  else
    let stage ← Edit.lift (demand .indexError run.stages[i]?)
    if stage.status ≠ .running then return none
    else
      let job ← Edit.lift (demand .indexError stage.jobs[j]?)
      if job.status = .succeeded then
        overRun runId (PipelineRun.aggregateSuccess now (some i))
        checkpointLocked storage.save
        return some (atJob i n (j + 1) m)
      else
        overRun runId (PipelineRun.stage i (PipelineStageResult.job j (start now)))
        checkpointLocked storage.save
        return some (.waiting i n j m)

/-- What a job that has been executed does to the tree. -/
def completeJob (now : Instant) (i j : Nat) (stage : PipelineStageResult)
    (job : PipelineJobResult) :
    Change PipelineRun Unit := do
  if job.shouldFail then
    PipelineRun.failJob now i stage.name j job.name (some "deterministic simulated failure")
  else
    PipelineRun.stage i (PipelineStageResult.job j (finish now .succeeded none))
    PipelineRun.aggregateSuccess now (some i)
  let run ← Edit.read
  Edit.lift run.assertRunInvariants

/-- The section after the duration of a job. -/
def exitJob (now : Instant) (storage : Storage) (runId : String) (i n j m : Nat) :
    Section (Option Executor) := do
  let run ← requireRun runId
  if run.status ≠ .running then return none
  else
    let stage ← Edit.lift (demand .indexError run.stages[i]?)
    let job ← Edit.lift (demand .indexError stage.jobs[j]?)
    if job.status = .succeeded then
      overRun runId (PipelineRun.aggregateSuccess now (some i))
      checkpointLocked storage.save
      return some (atJob i n (j + 1) m)
    else
      overRun runId (completeJob now i j stage job)
      checkpointLocked storage.save
      return if job.shouldFail then none else some (atJob i n (j + 1) m)

/-- Counts, with the assertions. -/
def aggregateChecked (now : Instant) (stageIndex : Option Nat) : Change PipelineRun Unit := do
  PipelineRun.aggregateSuccess now stageIndex
  let run ← Edit.read
  Edit.lift run.assertRunInvariants

/-- The section that ends a stage. -/
def exitStage (now : Instant) (storage : Storage) (runId : String) (i n : Nat) :
    Section (Option Executor) := do
  let run ← requireRun runId
  if run.status ≠ .running then return none
  else
    let _ ← Edit.lift (demand .indexError run.stages[i]?)
    overRun runId (aggregateChecked now (some i))
    checkpointLocked storage.save
    return some (atStage (i + 1) n)

/-- The last section of an executor. -/
def leave (now : Instant) (storage : Storage) (runId : String) : Section (Option Executor) := do
  let run ← requireRun runId
  if run.status = .running then
    overRun runId (aggregateChecked now none)
    checkpointLocked storage.save
    return none
  else return none

/-- The handler of `_execute`. -/
def handle (now : Instant) (storage : Storage) (runId message : String) :
    Section (Option Executor) := do
  let service ← Edit.read
  match service.runs.get? runId with
  | none => return none
  | some run =>
    if run.status.Terminal then return none
    else
      overRun runId
        (PipelineRun.failRun now (some ("internal simulator error: " ++ message)))
      checkpointLocked storage.save
      return none

/-- The end of the sleep; it ends early, and the executor with it, when the run is cancelled. -/
def awake (runId : String) (stopped : Bool) (i n j m : Nat) : Section (Option Executor) := do
  let service ← Edit.read
  return if stopped ∧ service.cancelEvents.get? runId = some true then none
    else some (.jobExit i n j m)

/-- The section that an executor stands before. -/
def executeSection (now : Instant) (storage : Storage) (stopped : Bool) (runId : String) :
    Executor → Section (Option Executor)
  | .entering => enter now storage runId
  | .stageEntry i n => enterStage now storage runId i n
  | .jobEntry i n j m => enterJob now storage runId i n j m
  | .waiting i n j m => awake runId stopped i n j m
  | .jobExit i n j m => exitJob now storage runId i n j m
  | .stageExit i n => exitStage now storage runId i n
  | .leaving => leave now storage runId
  | .failing message => handle now storage runId message

/-- Where an executor goes from a section. -/
def proceed (executor : Executor) : Except PipelineFailure (Option Executor) → Option Executor
  | .ok next => next
  | .error e => match executor with
    | .failing _ => none
    | _ => some (.failing e.str)

/-- `_execute`, up to the end of the next section. -/
def execute (now : Instant) (storage : Storage) (stopped : Bool) (runId : String)
    (service : InMemoryPipelineService) : InMemoryPipelineService :=
  match service.tasks runId with
  | none => service
  | some executor =>
    let r := executeSection now storage stopped runId executor service
    { r.1 with tasks := Function.update r.1.tasks runId (proceed executor r.2) }

end InMemoryPipelineService

end QaPlatform.Pipeline
