import Mathlib.Data.List.Sort
import QaPlatform.Base.Guard
import QaPlatform.Base.Order
import QaPlatform.CiLab.Models

/-!
# CI Lab's runs

The run half of `CiLabService` (`app/ci_lab/service.py`). A run is never stepped by
anything but a reader: whoever asks for it computes its state from the time that has
passed, stores it, and emits a delivery when the public view has changed. Each method
is one write transaction, and one that raises is rolled back.
-/

namespace QaPlatform.CiLab

/-- The tables of `database.py`. -/
structure CiLabStore where
  runs : Table RunRecord
  gates : Table QualityGateRecord
  approvals : Table ApprovalRecord
  subscriptions : Table SubscriptionRecord
  deliveries : Table WebhookDeliveryRecord

/-- The message of a run that waits for a decision. -/
def waitingMessage : String := "quality checks passed; waiting for approval"

/-- `_WEBHOOK_MAX_BODY_BYTES`. -/
def webhookMaxBodyBytes : Nat := 16384

/-- `_WEBHOOK_DEFAULT_MAX_ATTEMPTS`. -/
def webhookDefaultMaxAttempts : Nat := 8

/-- `_QUALITY_GATE_POLICY_REVISIONS`. -/
def qualityGatePolicyRevisions (definition : String) : Option Nat :=
  if definition = "local-quality-gate" then some 1 else none

/-- `_require_definition`. -/
def requireDefinition (registry : DefinitionRegistry) (definitionKey : String) :
    Except CiLabError PipelineDefinition :=
  demand (.notFound "definition") (registry definitionKey)

/-- `_definition_for_record`. -/
def definitionForRecord (registry : DefinitionRegistry) (record : RunRecord) :
    Except CiLabError PipelineDefinition := do
  let definition ← requireDefinition registry record.definition
  refuse (record.definitionRevision ≠ definition.revision)
    (.conflict "the immutable definition revision for this run is unavailable")
  return definition

/-- `_public_run_status`. -/
def publicRunStatus (record : RunRecord) (gate : Option QualityGateRecord) : RunStatus :=
  if gate.any (·.status = .waitingApproval) then .waitingApproval else record.status

/-! ## Refreshing -/

/-- The pause for approval: the run waits, whatever time it is. -/
def pausedRun (now : Instant) (current : RunRecord) : RunRecord :=
  if current.status ≠ .running ∨ current.message ≠ some waitingMessage then
    { current with
      status := .running
      message := some waitingMessage
      updatedAt := now
      finishedAt := none }
  else current

/-- What the time that has passed makes of a run: its new status, message, `started_at` and
`finished_at`. -/
structure Observation where
  status : RunStatus
  message : Option String
  startedAt : Option Instant
  finishedAt : Option Instant
  gateReached : Bool

/-- The observation, before the check for clocks that went backwards. -/
def observeElapsed (definition : PipelineDefinition) (gated : Bool) (createdAt : Instant)
    (elapsedMs : Nat) : Observation :=
  let terminal := definition.terminalPoint
  let started := definition.queueDelayMs ≤ elapsedMs
  let startedAt := if started then some (createdAt + milliseconds definition.queueDelayMs) else none
  if terminal.ms ≤ elapsedMs then
    if gated ∧ terminal.status = .succeeded then
      ⟨.running, some waitingMessage, startedAt, none, true⟩
    else
      ⟨terminal.status, some terminal.message, startedAt,
        some (createdAt + milliseconds terminal.ms), false⟩
  else ⟨if started then .running else .queued, none, startedAt, none, false⟩

/-- A run that was seen running is not queued again. -/
def observe (definition : PipelineDefinition) (gated : Bool) (current : RunRecord)
    (elapsedMs : Nat) : Observation :=
  let seen := observeElapsed definition gated current.createdAt elapsedMs
  if current.status = .running ∧ seen.status = .queued then
    { seen with
      status := .running
      message := current.message
      startedAt := current.startedAt
      finishedAt := none }
  else seen

/-- The run with what was observed. -/
def observedRun (now : Instant) (current : RunRecord) (seen : Observation) : RunRecord :=
  if current.status ≠ seen.status ∨ current.startedAt ≠ seen.startedAt
      ∨ current.finishedAt ≠ seen.finishedAt ∨ current.message ≠ seen.message then
    { current with
      status := seen.status
      message := seen.message
      updatedAt := now
      startedAt := seen.startedAt
      finishedAt := seen.finishedAt }
  else current

/-- The gate with what was observed. -/
def observedGate (now : Instant) (terminalAt : Instant) (seen : Observation)
    (gate : QualityGateRecord) : QualityGateRecord :=
  if gate.status = .evaluating ∧ seen.gateReached = true then
    { gate with status := .waitingApproval, reachedAt := some terminalAt, updatedAt := now }
  else if gate.status = .evaluating ∧ seen.status = .failed then
    { gate with status := .failed, updatedAt := now }
  else gate

/-- The run and its gate after `_refresh_record`. -/
def refreshed (setup : Setup) (definition : PipelineDefinition) (now : Instant)
    (current : RunRecord) (gate : Option QualityGateRecord) :
    RunRecord × Option QualityGateRecord :=
  if current.cancelledAt.isSome ∨ current.status.isTerminal then (current, gate)
  else if gate.any (·.status = .waitingApproval) then (pausedRun now current, gate)
  else
    let seen := observe definition gate.isSome current (setup.elapsedMs now current.createdAt)
    let terminalAt := current.createdAt + milliseconds definition.terminalPoint.ms
    (observedRun now current seen, gate.map (observedGate now terminalAt seen))

namespace CiLabStore

variable (setup : Setup) (registry : DefinitionRegistry)

/-- Writes a run and its gate; an unchanged row is written back as it is. -/
def writeRun (s : CiLabStore) (run : RunRecord) (gate : Option QualityGateRecord) : CiLabStore :=
  { s with runs := s.runs.put run, gates := gate.elim s.gates s.gates.put }

/-- `_refresh_record`. -/
def refreshRecord (s : CiLabStore) (record : RunRecord) (now : Instant) :
    Except CiLabError (CiLabStore × RunRecord × Option QualityGateRecord) := do
  let definition ← definitionForRecord registry record
  let current := refreshed setup definition now record (s.gates.get? record.id)
  return (s.writeRun current.1 current.2, current)

/-! ## Deliveries -/

/-- The deliveries of a run, oldest first. -/
def deliveriesOf (s : CiLabStore) (runId : Uuid) : List WebhookDeliveryRecord :=
  s.deliveries.rows.filter (·.runId = runId)

/-- `ORDER BY sequence DESC LIMIT 1`. -/
def latestDelivery (s : CiLabStore) (runId : Uuid) : Option WebhookDeliveryRecord :=
  firstBy (fun r => [-(r.sequence : Int)]) (s.deliveriesOf runId)

/-- `coalesce(max(sequence), 0)`. -/
def webhookSequence (s : CiLabStore) (runId : Uuid) : Nat :=
  ((s.deliveriesOf runId).map (·.sequence)).foldl max 0

/-- The instant that a delivery is for; it is not before that of the latest one. -/
def occurredAt (run : RunRecord) (gate : Option QualityGateRecord)
    (latest : Option WebhookDeliveryRecord) (now : Instant) : Instant :=
  let occurredAt := gate.elim run.updatedAt fun gate => max run.updatedAt gate.updatedAt
  max (latest.elim occurredAt fun latest => max occurredAt latest.occurredAt) now

/-- A new delivery. -/
def newDelivery (subscription : SubscriptionRecord) (run : RunRecord) (status : RunStatus)
    (sequence : Nat) (occurredAt now : Instant) (id : Uuid) : WebhookDeliveryRecord :=
  let body := webhookBody setup subscription run.id run.message occurredAt sequence status
  { id, runId := run.id, connectionId := subscription.connectionId, eventId := id, sequence
    occurredAt, normalizedStatus := status, message := run.message, payloadBody := body
    bodySha256 := ⟨body⟩, status := .pending, attempts := 0
    maxAttempts := webhookDefaultMaxAttempts, availableAt := now, leaseOwner := none
    leaseTokenHash := none, leaseExpiresAt := none, lastErrorCode := none, version := 0
    createdAt := now, updatedAt := now, deliveredAt := none, deadLetteredAt := none }

/-- The latest delivery tells of the run already. -/
def Told (latest : Option WebhookDeliveryRecord) (status : RunStatus) (message : Option String) :
    Prop :=
  latest.any fun latest => latest.normalizedStatus = status ∧ latest.message = message

instance (latest : Option WebhookDeliveryRecord) (status : RunStatus) (message : Option String) :
    Decidable (Told latest status message) := by
  unfold Told
  infer_instance

/-- `_enqueue_webhook_if_changed`. -/
def enqueueWebhookIfChanged (s : CiLabStore) (run : RunRecord) (gate : Option QualityGateRecord)
    (now : Instant) : Except CiLabError (CiLabStore × Bool) :=
  match s.subscriptions.get? run.id with
  | none => return (s, false)
  | some subscription =>
    let latest := s.latestDelivery run.id
    let status := publicRunStatus run gate
    if Told latest status run.message then return (s, false)
    else do
      let sequence := latest.elim 1 (·.sequence + 1)
      let occurredAt := occurredAt run gate latest now
      refuse (webhookMaxBodyBytes
          < (webhookBody setup subscription run.id run.message occurredAt sequence
            status).utf8ByteSize)
        (.runtime "CI Lab generated an oversized webhook body")
      refuse (2147483647 < sequence) .integrity
      let delivery := newDelivery setup subscription run status sequence occurredAt now
      return ({ s with deliveries := s.deliveries.add delivery }, true)

/-! ## Views -/

/-- `QualityGateView`. -/
structure QualityGateView where
  required : Bool
  status : QualityGateStatus
  policyRevision : Option Nat
  reachedAt : Option Instant
  decidedAt : Option Instant

/-- `JobView`. -/
structure JobView where
  key : String
  name : String
  status : RunStatus
  durationMs : Nat
  startedAt : Option Instant
  finishedAt : Option Instant
  message : Option String

/-- `StageView`. -/
structure StageView where
  key : String
  name : String
  status : RunStatus
  jobs : List JobView
  startedAt : Option Instant
  finishedAt : Option Instant
  message : Option String

/-- A run's view; `webhookSequence` is the entry of `metadata`, 0 when there is none. -/
structure RunView where
  id : Uuid
  definition : String
  definitionRevision : Nat
  status : RunStatus
  message : Option String
  ref : Option String
  stageCount : Nat
  webhookSequence : Nat
  createdAt : Instant
  updatedAt : Instant
  startedAt : Option Instant
  finishedAt : Option Instant
  stages : List StageView
  qualityGate : QualityGateView
  approvals : List ApprovalRecord
  replayed : Bool

/-- A job at an elapsed time; `failure` is the first job that fails, once it has. -/
def jobView (createdAt : Instant) (elapsedMs : Nat) (cancelledAt : Option Instant)
    (failure : Option JobTimeline) (item : JobTimeline) : JobView :=
  let view (status : RunStatus) (startedAt finishedAt : Option Instant) (message : Option String) :
      JobView :=
    ⟨item.definition.key, item.definition.name, status, item.definition.durationMs, startedAt,
      finishedAt, message⟩
  let startAt := createdAt + milliseconds item.startMs
  let finishAt := createdAt + milliseconds item.finishMs
  let started := if item.startMs ≤ elapsedMs then some startAt else none
  match failure.filter fun failure => failure.finishMs ≤ item.startMs with
  | some failure =>
    view .cancelled none (some (createdAt + milliseconds failure.finishMs))
      (some "cancelled after an earlier fixed job failed")
  | none =>
    if cancelledAt.isSome ∧ elapsedMs < item.finishMs then
      view .cancelled started cancelledAt (some "cancelled by machine request")
    else if item.finishMs ≤ elapsedMs then
      if item.definition.shouldFail then
        view .failed (some startAt) (some finishAt)
          (some "failed by the immutable local teaching definition")
      else view .succeeded (some startAt) (some finishAt) none
    else if item.startMs ≤ elapsedMs then view .running (some startAt) none none
    else view .queued none none none

/-- The status of a stage from those of its jobs. -/
def stageStatus (jobs : List JobView) : RunStatus :=
  if jobs.any (·.status = .failed) then .failed
  else if jobs.all (·.status = .succeeded) then .succeeded
  else if jobs.any (·.status = .cancelled) then .cancelled
  else if jobs.any (fun job => job.status = .running ∨ job.status = .succeeded) then .running
  else .queued

/-- `_stage_views`. -/
def stageViews (definition : PipelineDefinition) (createdAt : Instant) (elapsedMs : Nat)
    (cancelledAt : Option Instant) : List StageView :=
  let failure := (definition.timeline.find? (·.definition.shouldFail)).filter
    (·.finishMs ≤ elapsedMs)
  let views := definition.timeline.map (jobView createdAt elapsedMs cancelledAt failure)
  definition.stages.map fun stage =>
    -- keys are unique across a definition
    let jobs := stage.jobs.filterMap fun job => views.find? (·.key = job.key)
    let status := stageStatus jobs
    { key := stage.key
      name := stage.name
      status
      jobs
      startedAt := (jobs.filterMap (·.startedAt)).min?
      finishedAt := if status.isTerminal then (jobs.filterMap (·.finishedAt)).max? else none
      message :=
        if status = .failed then some "stage failed"
        else if status = .cancelled then some "stage was cancelled"
        else none }

/-- The time up to which a view looks at a run. -/
def observationTime (run : RunRecord) (now : Instant) : Instant :=
  let time := run.cancelledAt.getD now
  if run.status.isTerminal ∧ run.finishedAt.isSome then max time (run.finishedAt.getD time)
  else if run.status = .running ∧ run.startedAt.isSome then max time (run.startedAt.getD time)
  else time

/-- The gate of a view; a run without a row needs none. -/
def qualityGateView : Option QualityGateRecord → QualityGateView
  | none => ⟨false, .notRequired, none, none, none⟩
  | some gate => ⟨true, gate.status, some gate.policyRevision, gate.reachedAt, gate.decidedAt⟩

/-- The approvals of a run. -/
def approvalsOf (s : CiLabStore) (runId : Uuid) : List ApprovalRecord :=
  s.approvals.rows.filter (·.runId = runId)

/-- `_run_view`. -/
def runView (s : CiLabStore) (run : RunRecord) (definition : PipelineDefinition) (now : Instant)
    (gate : Option QualityGateRecord) (replayed : Bool) : RunView where
  id := run.id
  definition := definition.key
  definitionRevision := definition.revision
  status := publicRunStatus run gate
  message := run.message
  ref := run.ref
  stageCount := definition.stages.length
  webhookSequence := s.webhookSequence run.id
  createdAt := run.createdAt
  updatedAt := run.updatedAt
  startedAt := run.startedAt
  finishedAt := run.finishedAt
  stages := stageViews definition run.createdAt
    (setup.elapsedMs (observationTime run now) run.createdAt) run.cancelledAt
  qualityGate := qualityGateView gate
  approvals := s.approvalsOf run.id
  replayed := replayed

/-! ## Methods -/

/-- The row of a run, or the error for a number that is not known. -/
def requireRun (s : CiLabStore) (runId : Uuid) : Except CiLabError RunRecord :=
  demand (.notFound "run") (s.runs.get? runId)

/-- The tail that the methods share: the delivery, if there is one to make, and the view. -/
def emitAndView (s : CiLabStore) (run : RunRecord) (gate : Option QualityGateRecord)
    (definition : PipelineDefinition) (emittedAt now : Instant) (replayed : Bool) :
    Except CiLabError (CiLabStore × RunView) := do
  let emitted ← s.enqueueWebhookIfChanged setup run gate emittedAt
  return (emitted.1, emitted.1.runView setup run definition now gate replayed)

/-- A new run. -/
def newRun (definition : PipelineDefinition) (request : TriggerRunRequest) (selectedKey : String)
    (fingerprint : Digest Json) (now : Instant) (id : Uuid) : RunRecord :=
  { id, definition := definition.key, definitionRevision := definition.revision, ref := request.ref
    triggerVariables := request.triggerVariables, idempotencyKey := selectedKey
    requestFingerprint := fingerprint, status := .queued, message := none, createdAt := now
    updatedAt := now, startedAt := none, finishedAt := none, cancelledAt := none }

/-- The gate that the policy asks for. -/
def newGate (definition : PipelineDefinition) (now : Instant) (runId : Uuid) :
    Option QualityGateRecord :=
  (qualityGatePolicyRevisions definition.key).map fun policyRevision =>
    { runId, policyRevision, status := .evaluating, reachedAt := none, decidedAt := none
      updatedAt := now }

/-- The subscription that a request asks for. -/
def newSubscription (request : TriggerRunRequest) (now : Instant) (runId : Uuid) :
    Option SubscriptionRecord :=
  request.webhookConnectionId.map fun connectionId =>
    { runId, connectionId, correlationId := request.correlationId.getD "", createdAt := now }

/-- Inserts a row that there may be. -/
def insertRow {ρ : Type} [Keyed ρ] (t : Table ρ) (row : Option ρ) : Except CiLabError (Table ρ) :=
  row.elim (.ok t) fun row => demand .integrity (t.insert? row)

/-- `trigger`: a new run, or the one that the idempotency key stands for. -/
def trigger (s : CiLabStore) (definitionKey : String) (request : TriggerRunRequest)
    (idempotencyKey : String) (now : Instant) : Except CiLabError (CiLabStore × RunView) := do
  let definition ← requireDefinition registry definitionKey
  refuse (isIdempotencyKey idempotencyKey = false)
    (.validation "Idempotency-Key must contain 1-200 safe ASCII characters")
  refuse (request.correlationId.any (· ≠ idempotencyKey))
    (.validation "correlation_id must match the Idempotency-Key header")
  let fingerprint := triggerFingerprint setup definition request
  match s.runs.rows.find? (·.idempotencyKey = idempotencyKey) with
  | some previous =>
    refuse (previous.requestFingerprint ≠ fingerprint)
      (.conflict "Idempotency-Key was reused with different trigger input")
    let current ← s.refreshRecord setup registry previous now
    current.1.emitAndView setup current.2.1 current.2.2 definition now now true
  | none =>
    let runId := s.runs.next
    let created := newRun definition request idempotencyKey fingerprint now runId
    let gate := newGate definition now runId
    let gates ← insertRow s.gates gate
    let subscriptions ← insertRow s.subscriptions (newSubscription request now runId)
    let inserted : CiLabStore := { s with
      runs := s.runs.add (newRun definition request idempotencyKey fingerprint now)
      gates
      subscriptions }
    inserted.emitAndView setup created gate definition now now false

/-- `get`, which brings the row of the run up to date and shows it. -/
def get (s : CiLabStore) (runId : Uuid) (now : Instant) :
    Except CiLabError (CiLabStore × RunView) := do
  let record ← s.requireRun runId
  let definition ← definitionForRecord registry record
  let current ← s.refreshRecord setup registry record now
  current.1.emitAndView setup current.2.1 current.2.2 definition now now false

/-- The instant of a cancellation. -/
def cancelInstant (gate : Option QualityGateRecord) (now : Instant) : Instant :=
  max now ((gate.bind (·.reachedAt)).getD now)

/-- The cancelled run. -/
def cancelledRun (definition : PipelineDefinition) (cancelledAt : Instant) (current : RunRecord) :
    RunRecord :=
  let queuedUntil := current.createdAt + milliseconds definition.queueDelayMs
  { current with
    status := .cancelled
    message := some "cancelled by an authenticated machine request"
    updatedAt := cancelledAt
    startedAt := current.startedAt.orElse fun _ =>
      if queuedUntil ≤ cancelledAt then some queuedUntil else none
    finishedAt := some cancelledAt
    cancelledAt := some cancelledAt }

/-- The gate of a cancelled run. -/
def cancelledGate (cancelledAt : Instant) (gate : QualityGateRecord) : QualityGateRecord :=
  { gate with status := .cancelled, decidedAt := some cancelledAt, updatedAt := cancelledAt }

/-- `cancel`, which leaves a run that is over as it is. -/
def cancel (s : CiLabStore) (runId : Uuid) (now : Instant) :
    Except CiLabError (CiLabStore × RunView) := do
  let record ← s.requireRun runId
  let definition ← definitionForRecord registry record
  let current ← s.refreshRecord setup registry record now
  if current.2.1.status = .cancelled then
    current.1.emitAndView setup current.2.1 current.2.2 definition now now true
  else do
    refuse current.2.1.status.isTerminal
      (.conflict ("a " ++ current.2.1.status.value ++ " run cannot be cancelled"))
    let cancelledAt := cancelInstant current.2.2 now
    let run := cancelledRun definition cancelledAt current.2.1
    let gate := current.2.2.map (cancelledGate cancelledAt)
    (current.1.writeRun run gate).emitAndView setup run gate definition cancelledAt now false

/-- The record of a decision. -/
def newApproval (request : GateDecisionRequest) (runId : Uuid) (decisionAt : Instant) (id : Uuid) :
    ApprovalRecord :=
  { id, runId, eventId := request.eventId, requestFingerprint := approvalFingerprint request
    decision := request.decision, actorId := request.actorId, actorName := request.actorName
    comment := request.comment, createdAt := decisionAt }

/-- The decided gate. -/
def decidedGate (decision : GateDecision) (decisionAt : Instant) (gate : QualityGateRecord) :
    QualityGateRecord :=
  { gate with
    status := if decision = .approve then .approved else .rejected
    decidedAt := some decisionAt
    updatedAt := decisionAt }

/-- The run of a decided gate. -/
def decidedRun (decision : GateDecision) (decisionAt : Instant) (current : RunRecord) : RunRecord :=
  { current with
    status := if decision = .approve then .succeeded else .failed
    message := some (if decision = .approve then "quality gate approved"
      else "quality gate rejected")
    updatedAt := decisionAt
    finishedAt := some decisionAt }

/-- `decide_gate`: a decision is recorded once, and one that is repeated is answered alike. -/
def decideGate (s : CiLabStore) (runId : Uuid) (request : GateDecisionRequest) (now : Instant) :
    Except CiLabError (CiLabStore × RunView) := do
  let record ← s.requireRun runId
  let definition ← definitionForRecord registry record
  let current ← s.refreshRecord setup registry record now
  let gate ← demand (.conflict "this run has no quality approval gate") current.2.2
  match (s.approvalsOf runId).find? (·.eventId = request.eventId) with
  | some previous =>
    refuse (previous.requestFingerprint ≠ approvalFingerprint request)
      (.conflict "approval event_id was reused with different input")
    current.1.emitAndView setup current.2.1 (some gate) definition now now true
  | none =>
    refuse (s.approvalsOf runId ≠ []) (.conflict "the quality gate already has a decision")
    refuse (gate.status ≠ .waitingApproval)
      (.conflict "quality checks must pass before the gate can be decided")
    let decisionAt := cancelInstant (some gate) now
    let run := decidedRun request.decision decisionAt current.2.1
    let decided := decidedGate request.decision decisionAt gate
    let approved : CiLabStore :=
      { current.1 with
        approvals := current.1.approvals.add (newApproval request runId decisionAt) }
    (approved.writeRun run (some decided)).emitAndView setup run (some decided) definition
      decisionAt now false

/-! ## Advancing -/

/-- The subscribed runs that a worker may advance. -/
def Advanceable (s : CiLabStore) (record : RunRecord) : Prop :=
  (s.subscriptions.get? record.id).isSome = true
    ∧ (record.status = .queued ∨ record.status = .running)
    ∧ (s.gates.get? record.id).all fun gate => gate.status ≠ .waitingApproval

instance (s : CiLabStore) (record : RunRecord) : Decidable (s.Advanceable record) := by
  unfold Advanceable
  infer_instance

/-- The runs of one pass, by `created_at` and `id`. -/
def advanceBatch (s : CiLabStore) (limit : Nat) : List RunRecord :=
  ((s.runs.rows.filter s.Advanceable).insertionSort
    fun r r' => columnsLe [r.createdAt, r.id] [r'.createdAt, r'.id] = true).take limit

/-- One round of the pass. -/
def advanceOne (now : Instant) (s : CiLabStore) (record : RunRecord) :
    Except CiLabError (CiLabStore × Bool) := do
  let current ← s.refreshRecord setup registry record now
  current.1.enqueueWebhookIfChanged setup current.2.1 current.2.2 now

/-- The rounds of the pass, and how many deliveries they have made. -/
def advanceAll (now : Instant) : CiLabStore → List RunRecord → Except CiLabError (CiLabStore × Nat)
  | s, [] => return (s, 0)
  | s, record :: records => do
    let one ← s.advanceOne setup registry now record
    let rest ← advanceAll now one.1 records
    return (rest.1, (if one.2 then 1 else 0) + rest.2)

/-- `advance_webhook_runs_once`, in one transaction over its batch. -/
def advanceWebhookRunsOnce (s : CiLabStore) (limit : Nat) (now : Instant) :
    Except CiLabError (CiLabStore × Nat) := do
  refuse (¬ (1 ≤ limit ∧ limit ≤ 500))
    (.validation "webhook refresh limit must be between 1 and 500")
  s.advanceAll setup registry now (s.advanceBatch limit)

end CiLabStore

end QaPlatform.CiLab
