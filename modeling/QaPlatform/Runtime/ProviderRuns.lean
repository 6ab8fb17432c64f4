import Mathlib.Algebra.Order.Ring.Nat
import QaPlatform.Base.Table
import QaPlatform.Pipeline.Providers

/-!
# A provider run and its trigger intent

The rows of one provider run (the run, its trigger intent and its approval) and
what the transactions of `PersistentRuntimeService` do to them. Every channel
that writes a run ends in one of these functions: the dispatcher's claim and its
two settlements, the poll and the cancel, the gate decision, and the webhook.
-/

namespace QaPlatform.Runtime

open Pipeline

/-- How far the trigger of a run has come. -/
inductive DispatchStatus where
  | pending
  | dispatching
  | dispatched
  | retryWait
  | unknown
  | failed
  | cancelled
deriving DecidableEq, Repr

/-- The status of a trigger intent. -/
inductive IntentStatus where
  | pending
  | claimed
  | retryWait
  | succeeded
  | unknown
  | failed
  | cancelled
deriving DecidableEq, Repr

/-- The row of a run of a provider. -/
structure ProviderRunRecord where
  id : Uuid
  connectionId : Uuid
  externalId : Option String
  status : PipelineStatus
  rawStatus : String
  webUrl : Option String
  message : Option String
  runMetadata : Metadata
  correlationId : String
  requestFingerprint : Digest Json
  dispatchStatus : DispatchStatus
  qualityGateStatus : ProviderQualityGateStatus
  lastProviderSequence : Nat
  lastProviderOccurredAt : Option Instant
  reconciliationRequired : Bool
  triggeredByUserId : Option Uuid
  triggeredByName : String
  version : Nat
  createdAt : Instant
  updatedAt : Instant

/-- The row of a trigger intent, which a dispatcher claims and settles. -/
structure ProviderTriggerIntentRecord where
  id : Uuid
  runId : Uuid
  connectionId : Uuid
  connectionVersion : Nat
  requestPayload : ProviderTriggerRequest
  idempotencyKey : String
  requestFingerprint : Digest Json
  status : IntentStatus
  attempts : Nat
  maxAttempts : Nat
  availableAt : Instant
  leaseOwner : Option String
  leaseTokenHash : Option TokenHash
  leaseExpiresAt : Option Instant
  lastErrorCode : Option String
  createdAt : Instant
  updatedAt : Instant
  completedAt : Option Instant

/-- What `request_fingerprint` of an approval is taken of. -/
structure DecisionRequest where
  eventId : String
  decision : ProviderGateDecision
  comment : String
  actorUserId : Option Uuid
  actorName : String
deriving DecidableEq

/-- The row of a decision that the platform has sent to the gate of a run. -/
structure ProviderRunApprovalRecord where
  eventId : String
  decision : ProviderGateDecision
  requestFingerprint : Digest DecisionRequest
  actorUserId : Option Uuid
  actorName : String
  comment : String
  createdAt : Instant

/-- A run with the intent made in its transaction and the one approval that the
database lets it have. -/
structure RunGraph where
  run : ProviderRunRecord
  intent : ProviderTriggerIntentRecord
  approval : Option ProviderRunApprovalRecord

instance : Keyed RunGraph := ⟨fun g => g.run.id⟩

@[simp] theorem RunGraph.key_eq (g : RunGraph) : key g = g.run.id := rfl

/-- `LITERAL` of a webhook's `status`. -/
inductive WebhookStatus where
  | queued
  | running
  | waitingApproval
  | succeeded
  | failed
  | cancelled
deriving DecidableEq, Repr

/-- The status as the source writes it. -/
def WebhookStatus.text : WebhookStatus → String
  | .queued => "queued"
  | .running => "running"
  | .waitingApproval => "waiting_approval"
  | .succeeded => "succeeded"
  | .failed => "failed"
  | .cancelled => "cancelled"

/-- `ProviderWebhookPayload`, once it has been validated. -/
structure ProviderWebhookPayload where
  connectionId : Uuid
  correlationId : String
  externalId : String
  sequence : Nat
  occurredAt : Instant
  status : WebhookStatus
  message : Option String
deriving DecidableEq

/-- What has become of a delivery. -/
inductive WebhookResult where
  | applied
  | duplicate
  | stale
  | reconcileRequired
deriving DecidableEq, Repr

/-- Where a snapshot of a run comes from. -/
inductive SnapshotSource where
  | dispatch
  | poll
  | gateDecision
deriving DecidableEq, Repr

namespace ProviderRunRecord

/-! ## Provider snapshots -/

/-- The gate's status after a snapshot. -/
def snapshotGate (record : ProviderRunRecord) (run : ProviderRun) : ProviderQualityGateStatus :=
  let gateStatus := run.qualityGate.status
  if gateStatus = .notRequired then
    if run.rawStatus = "waiting_approval" then .waitingApproval
    else if run.status = .failed ∧ record.qualityGateStatus ≠ .rejected then .failed
    else if run.status = .cancelled then .cancelled
    else gateStatus
  else gateStatus

/-- The watermark after a snapshot. -/
def snapshotSequence (record : ProviderRunRecord) (run : ProviderRun) : Nat :=
  if run.provider = .learningCi then
    match run.metadata.watermark with
    | some watermark =>
      if record.lastProviderSequence ≤ watermark then watermark else record.lastProviderSequence
    | none => record.lastProviderSequence
  else record.lastProviderSequence

/-- The snapshot would release a gate that waits for a decision. -/
def GateGuard (record : ProviderRunRecord) (run : ProviderRun) (source : SnapshotSource) : Prop :=
  source ≠ .gateDecision ∧ record.qualityGateStatus = .waitingApproval
    ∧ run.rawStatus ≠ "waiting_approval" ∧ run.status ≠ .failed ∧ run.status ≠ .cancelled

instance (record : ProviderRunRecord) (run : ProviderRun) (source : SnapshotSource) :
    Decidable (record.GateGuard run source) := by
  unfold GateGuard
  infer_instance

/-- `_apply_provider_run_snapshot`; the returned flag is not used by any caller. -/
def applyProviderRunSnapshot (record : ProviderRunRecord) (run : ProviderRun)
    (source : SnapshotSource) (now : Instant) : ProviderRunRecord :=
  if record.GateGuard run source then
    -- polling observes a run and must not release a mandatory gate
    if record.reconciliationRequired then record
    else { record with
      reconciliationRequired := true
      updatedAt := now
      version := record.version + 1 }
  else if record.status.Terminal ∧ run.status ≠ record.status then
    { record with
      reconciliationRequired := true
      updatedAt := now
      version := record.version + 1 }
  else
    { record with
      externalId := some run.externalId
      status := run.status
      rawStatus := run.rawStatus
      webUrl := run.webUrl
      message := run.message
      runMetadata := run.metadata
      lastProviderSequence := record.snapshotSequence run
      qualityGateStatus := record.snapshotGate run
      reconciliationRequired :=
        if source = .poll ∨ source = .gateDecision then false else record.reconciliationRequired
      updatedAt := now
      version := record.version + 1 }

/-! ## Webhook events -/

/-- The local status of a webhook status. -/
def nextLocal : WebhookStatus → PipelineStatus
  | .queued | .waitingApproval => .queued
  | .running => .running
  | .succeeded => .succeeded
  | .failed => .failed
  | .cancelled => .cancelled

/-- The table `allowed`. -/
def allowed (status next : PipelineStatus) : Prop :=
  status = .queued ∨ status = .running ∨ next = status

instance (status next : PipelineStatus) : Decidable (allowed status next) := by
  unfold allowed
  infer_instance

/-- The gate's status after an applied event. -/
def webhookGate (record : ProviderRunRecord) (status : WebhookStatus) :
    ProviderQualityGateStatus :=
  match status with
  | .waitingApproval => .waitingApproval
  | .succeeded =>
    if record.qualityGateStatus = .waitingApproval then .approved else record.qualityGateStatus
  | .failed => if record.qualityGateStatus = .waitingApproval then .rejected else .failed
  | .cancelled => .cancelled
  | .queued | .running => record.qualityGateStatus

/-- The event is one that `_apply_webhook_snapshot` refuses. -/
def WebhookRefused (record : ProviderRunRecord) (status : WebhookStatus) : Prop :=
  (record.qualityGateStatus = .waitingApproval
    ∧ status ≠ .waitingApproval ∧ status ≠ .failed ∧ status ≠ .cancelled)
  ∨ ¬ allowed record.status (nextLocal status)
  ∨ (record.status = .running ∧ nextLocal status = .queued ∧ status ≠ .waitingApproval)

instance (record : ProviderRunRecord) (status : WebhookStatus) :
    Decidable (record.WebhookRefused status) := by
  unfold WebhookRefused
  infer_instance

/-- `_apply_webhook_snapshot`, where it returns `True`. -/
def applyWebhookSnapshot (record : ProviderRunRecord) (payload : ProviderWebhookPayload)
    (now : Instant) : Option ProviderRunRecord :=
  if record.WebhookRefused payload.status then none
  else some { record with
    status := nextLocal payload.status
    rawStatus := payload.status.text
    message := payload.message
    qualityGateStatus := record.webhookGate payload.status
    updatedAt := now
    version := record.version + 1 }

/-- Marks the run for reconciliation by a poll. -/
def requireReconciliation (record : ProviderRunRecord) (now : Instant) : ProviderRunRecord :=
  { record with
    reconciliationRequired := true
    updatedAt := now
    version := record.version + 1 }

/-- The reduction of a new event of `process_learning_ci_webhook` on its run. -/
def reduceWebhook (record : ProviderRunRecord) (payload : ProviderWebhookPayload)
    (now : Instant) : ProviderRunRecord × WebhookResult :=
  if payload.sequence ≤ record.lastProviderSequence then (record, .stale)
  else if payload.sequence ≠ record.lastProviderSequence + 1 then
    (record.requireReconciliation now, .reconcileRequired)
  else if record.lastProviderOccurredAt.any (payload.occurredAt < ·) then
    (record.requireReconciliation now, .reconcileRequired)
  else match record.applyWebhookSnapshot payload now with
    | some applied =>
      ({ applied with
        lastProviderSequence := payload.sequence
        lastProviderOccurredAt := some payload.occurredAt
        reconciliationRequired := false }, .applied)
    | none => (record.requireReconciliation now, .reconcileRequired)

/-- Binds a run that has no external identity yet to the one of an event. -/
def bindExternal (record : ProviderRunRecord) (externalId : String) (now : Instant) :
    ProviderRunRecord :=
  if record.externalId = none then
    { record with externalId := some externalId, updatedAt := now, version := record.version + 1 }
  else record

end ProviderRunRecord

namespace RunGraph

/-! ## The dispatcher -/

/-- `build_provider_trigger_claim_statement`, without its order. -/
def Claimable (intent : ProviderTriggerIntentRecord) (now : Instant) : Prop :=
  intent.attempts < intent.maxAttempts
    ∧ ((intent.status = .pending ∨ intent.status = .retryWait) ∧ intent.availableAt ≤ now
      ∨ intent.status = .claimed ∧ intent.leaseExpiresAt.any (· ≤ now))

instance (intent : ProviderTriggerIntentRecord) (now : Instant) :
    Decidable (Claimable intent now) := by
  unfold Claimable
  infer_instance

/-- The writes of `_claim_provider_trigger`. -/
def claim (g : RunGraph) (workerId leaseToken : String) (leaseSeconds : Int) (now : Instant) :
    RunGraph :=
  { g with
    intent := { g.intent with
      status := .claimed
      attempts := g.intent.attempts + 1
      leaseOwner := some workerId
      leaseTokenHash := some (tokenHash leaseToken)
      leaseExpiresAt := some (now + seconds leaseSeconds)
      updatedAt := now }
    run := { g.run with
      dispatchStatus := .dispatching
      updatedAt := now
      version := g.run.version + 1 } }

/-- `_require_provider_intent_lease`. -/
def requireProviderIntentLease (intent : ProviderTriggerIntentRecord) (leaseToken : String) :
    Except DomainError Unit :=
  refuse (intent.status ≠ .claimed ∨ intent.leaseTokenHash ≠ some (tokenHash leaseToken))
    (.conflict "dispatcher 已失去触发 Intent 租约")

/-- The intent once its trigger is known to have been taken. -/
def succeedIntent (intent : ProviderTriggerIntentRecord) (now : Instant) :
    ProviderTriggerIntentRecord :=
  { intent with
    status := .succeeded
    leaseOwner := none
    leaseTokenHash := none
    leaseExpiresAt := none
    lastErrorCode := none
    updatedAt := now
    completedAt := some now }

/-- A callback has already shown a newer state than the trigger's response. -/
def WebhookSnapshotIsNewer (record : ProviderRunRecord) (run : ProviderRun) : Prop :=
  0 < record.lastProviderSequence
    ∧ run.metadata.watermark.all (· < record.lastProviderSequence)

instance (record : ProviderRunRecord) (run : ProviderRun) :
    Decidable (WebhookSnapshotIsNewer record run) := by
  unfold WebhookSnapshotIsNewer
  infer_instance

/-- The run is bound to another external identity than the response names. -/
def ExternalIdentityConflicts (record : ProviderRunRecord) (run : ProviderRun) : Prop :=
  record.externalId.any (· ≠ run.externalId)

instance (record : ProviderRunRecord) (run : ProviderRun) :
    Decidable (ExternalIdentityConflicts record run) := by
  unfold ExternalIdentityConflicts
  infer_instance

/-- The run row that `_finalize_provider_trigger` leaves. -/
def finalizeRun (record : ProviderRunRecord) (run : ProviderRun) (now : Instant) :
    ProviderRunRecord :=
  let record := { record with dispatchStatus := .dispatched }
  if WebhookSnapshotIsNewer record run ∨ ExternalIdentityConflicts record run then
    { record with
      reconciliationRequired :=
        if ExternalIdentityConflicts record run then true else record.reconciliationRequired
      updatedAt := now
      version := record.version + 1 }
  else { record with reconciliationRequired := false }.applyProviderRunSnapshot run .dispatch now

/-- `_finalize_provider_trigger` on the rows it locks. -/
def finalize (g : RunGraph) (leaseToken : String) (run : ProviderRun) (now : Instant) :
    Except DomainError RunGraph := do
  requireProviderIntentLease g.intent leaseToken
  return { g with intent := succeedIntent g.intent now, run := finalizeRun g.run run now }

/-- The intent that `_settle_provider_trigger_failure` leaves when no callback came. -/
def failIntent (intent : ProviderTriggerIntentRecord) (errorCode : String) (retryable : Bool)
    (now : Instant) : ProviderTriggerIntentRecord :=
  let shouldRetry := retryable ∧ intent.attempts < intent.maxAttempts
  { intent with
    status := if shouldRetry then .retryWait else if retryable then .unknown else .failed
    availableAt := now + seconds (min 60 (2 ^ min intent.attempts 6) : Nat)
    leaseOwner := none
    leaseTokenHash := none
    leaseExpiresAt := none
    lastErrorCode := some errorCode
    updatedAt := now
    completedAt := if shouldRetry then none else some now }

/-- The run row that `_settle_provider_trigger_failure` leaves when no callback came. -/
def failRun (record : ProviderRunRecord) (shouldRetry retryable : Bool) (now : Instant) :
    ProviderRunRecord :=
  { record with
    dispatchStatus := if shouldRetry then .retryWait else if retryable then .unknown else .failed
    reconciliationRequired := retryable
    status := if retryable then record.status else .failed
    qualityGateStatus :=
      if retryable ∨ record.qualityGateStatus = .notRequired then record.qualityGateStatus
      else .failed
    rawStatus := if retryable then "trigger_result_unknown" else "trigger_failed"
    message := some (if retryable then
        "provider result is uncertain; idempotent reconciliation is pending"
      else "provider trigger was rejected before a run was created")
    updatedAt := now
    version := record.version + 1 }

/-- A verified callback has shown that the provider took the trigger. -/
def CalledBack (record : ProviderRunRecord) : Prop :=
  record.externalId.isSome ∧ 0 < record.lastProviderSequence

instance (record : ProviderRunRecord) : Decidable (CalledBack record) := by
  unfold CalledBack
  infer_instance

/-- `_settle_provider_trigger_failure` on the rows it locks. -/
def settleFailure (g : RunGraph) (leaseToken errorCode : String) (retryable : Bool)
    (now : Instant) : Except DomainError RunGraph := do
  requireProviderIntentLease g.intent leaseToken
  if CalledBack g.run then
    return { g with
      intent := succeedIntent g.intent now
      run := { g.run with
        dispatchStatus := .dispatched
        updatedAt := now
        version := g.run.version + 1 } }
  else
    return { g with
      intent := failIntent g.intent errorCode retryable now
      run := failRun g.run (retryable ∧ g.intent.attempts < g.intent.maxAttempts) retryable now }

/-! ## Polls, cancels and decisions -/

/-- A cancel finds the trigger not dispatched yet. -/
def Undispatched (g : RunGraph) : Prop :=
  g.run.externalId = none
    ∧ (g.run.dispatchStatus = .pending ∨ g.run.dispatchStatus = .retryWait)
    ∧ (g.intent.status = .pending ∨ g.intent.status = .retryWait)

instance (g : RunGraph) : Decidable g.Undispatched := by
  unfold Undispatched
  infer_instance

/-- The writes of a cancel before dispatch. -/
def cancelBeforeDispatch (g : RunGraph) (now : Instant) : RunGraph :=
  { g with
    intent := { g.intent with
      status := .cancelled
      completedAt := some now
      updatedAt := now }
    run := { g.run with
      status := .cancelled
      rawStatus := "cancelled_before_dispatch"
      dispatchStatus := .cancelled
      qualityGateStatus := .cancelled
      message := some "cancelled before provider dispatch"
      updatedAt := now
      version := g.run.version + 1 } }

/-- The second transaction of `_refresh_provider_run`. -/
def commitRefresh (g : RunGraph) (expectedVersion : Nat) (run : ProviderRun) (now : Instant) :
    RunGraph :=
  if g.run.version ≠ expectedVersion then g
  else { g with run := g.run.applyProviderRunSnapshot run .poll now }

/-- The caller of `decide_provider_quality_gate`. -/
structure Actor where
  userId : Uuid
  username : String

/-- `ProviderRunApprovalPayload`. -/
structure ProviderRunApprovalPayload where
  eventId : String
  decision : ProviderGateDecision
  comment : String

/-- What a decision is fingerprinted by. -/
def decisionRequest (payload : ProviderRunApprovalPayload) (actor : Option Actor) :
    DecisionRequest :=
  { eventId := payload.eventId
    decision := payload.decision
    comment := strip payload.comment
    actorUserId := actor.map Actor.userId
    actorName := (actor.map Actor.username).getD "local-user" }

/-- A decision that the provider is asked for outside of any transaction. -/
structure PreparedDecision where
  externalId : String
  expectedVersion : Nat

/-- The first transaction of `decide_provider_quality_gate`: none when the
decision is recorded already. -/
def prepareDecision (g : RunGraph) (kind : ProviderKind) (payload : ProviderRunApprovalPayload)
    (actor : Option Actor) : Except DomainError (Option PreparedDecision) :=
  match g.approval with
  | some previous =>
    if previous.eventId = payload.eventId then do
      refuse (previous.requestFingerprint ≠ ⟨decisionRequest payload actor⟩)
        (.conflict "审批 event_id 已用于不同的决定")
      return none
    else .error (.conflict "质量门禁已经形成不可变决定")
  | none => do
    refuse (kind ≠ .learningCi) (.invalidState "只有 Learning CI 支持教学质量门禁")
    match g.run.externalId with
    | none => .error (.invalidState "运行尚未到达可审批的质量门禁")
    | some externalId =>
      refuse (g.run.dispatchStatus ≠ .dispatched ∨ g.run.qualityGateStatus ≠ .waitingApproval
          ∨ g.run.rawStatus ≠ "waiting_approval")
        (.invalidState "运行尚未到达可审批的质量门禁")
      refuse (actor.isSome ∧ g.run.triggeredByUserId = actor.map Actor.userId)
        (.authorization "触发人不能审批自己的质量门禁")
      return some ⟨externalId, g.run.version⟩

/-- The last transaction of `decide_provider_quality_gate`. A run has one
approval at most, so inserting a second one violates a constraint. -/
def commitDecision (g : RunGraph) (payload : ProviderRunApprovalPayload) (actor : Option Actor)
    (expectedVersion : Nat) (run : ProviderRun) (now : Instant) : Except DomainError RunGraph :=
  let request := decisionRequest payload actor
  match g.approval.filter (·.eventId = payload.eventId) with
  | some previous => do
    refuse (previous.requestFingerprint ≠ ⟨request⟩) (.conflict "审批 event_id 已用于不同的决定")
    return g
  | none => do
    refuse (g.run.version ≠ expectedVersion)
      (.conflict "运行状态已变化，请刷新后使用同一 event_id 重试")
    refuse g.approval.isSome .integrity
    return { g with
      approval := some {
        eventId := payload.eventId
        decision := payload.decision
        requestFingerprint := ⟨request⟩
        actorUserId := request.actorUserId
        actorName := request.actorName
        comment := request.comment
        createdAt := now }
      run := g.run.applyProviderRunSnapshot run .gateDecision now }

/-! ## Webhooks -/

/-- The part of `process_learning_ci_webhook` that works on the run of a new event. -/
def webhook (g : RunGraph) (payload : ProviderWebhookPayload) (now : Instant) :
    Except DomainError (RunGraph × WebhookResult) := do
  refuse (g.run.externalId.any (· ≠ payload.externalId))
    (.conflict "Webhook correlation_id 已绑定到不同运行")
  -- a signed callback can come before the response to the trigger
  let record := g.run.bindExternal payload.externalId now
  refuse (record.correlationId ≠ payload.correlationId)
    (.conflict "Webhook correlation_id 与运行不匹配")
  let (record, result) := record.reduceWebhook payload now
  return ({ g with run := record }, result)

/-! ## Moves -/

/-- What the transactions of all channels can do to the rows of one run. -/
inductive Move where
  | claim (workerId leaseToken : String) (leaseSeconds : Int) (now : Instant)
  | finalize (leaseToken : String) (run : ProviderRun) (now : Instant)
  | settleFailure (leaseToken errorCode : String) (retryable : Bool) (now : Instant)
  | cancelBeforeDispatch (now : Instant)
  | commitRefresh (expectedVersion : Nat) (run : ProviderRun) (now : Instant)
  | commitDecision (payload : ProviderRunApprovalPayload) (actor : Option Actor)
      (expectedVersion : Nat) (run : ProviderRun) (now : Instant)
  | webhook (payload : ProviderWebhookPayload) (now : Instant)

/-- The provider's answer that a move brings. -/
def Move.snapshot : Move → Option ProviderRun
  | .finalize _ run _ | .commitRefresh _ run _ | .commitDecision _ _ _ run _ => some run
  | .claim .. | .settleFailure .. | .cancelBeforeDispatch .. | .webhook .. => none

/-- The rows after a move; a move that raises changes nothing. -/
def move (g : RunGraph) : Move → RunGraph
  | .claim workerId leaseToken leaseSeconds now =>
    if Claimable g.intent now then g.claim workerId leaseToken leaseSeconds now else g
  | .finalize leaseToken run now => (g.finalize leaseToken run now).toOption.getD g
  | .settleFailure leaseToken errorCode retryable now =>
    (g.settleFailure leaseToken errorCode retryable now).toOption.getD g
  | .cancelBeforeDispatch now => if g.Undispatched then g.cancelBeforeDispatch now else g
  | .commitRefresh expectedVersion run now => g.commitRefresh expectedVersion run now
  | .commitDecision payload actor expectedVersion run now =>
    (g.commitDecision payload actor expectedVersion run now).toOption.getD g
  | .webhook payload now => ((g.webhook payload now).toOption.map Prod.fst).getD g

end RunGraph

end QaPlatform.Runtime
