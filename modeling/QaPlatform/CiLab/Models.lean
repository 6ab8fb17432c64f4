import QaPlatform.Base.Table
import QaPlatform.Runtime.Json

/-!
# CI Lab's models

The status values and requests of `app/ci_lab/models.py`, the fixed definitions of
`app/ci_lab/registry.py` and the rows of `app/ci_lab/database.py`. A request is what
its validators let through.
-/

namespace QaPlatform.CiLab

open QaPlatform.Runtime (jsonString jsonOption jsonStrings)

/-- `RunStatus`. -/
inductive RunStatus where
  | queued
  | running
  | waitingApproval
  | succeeded
  | failed
  | cancelled
deriving DecidableEq, Repr

namespace RunStatus

/-- `is_terminal`. -/
def isTerminal (status : RunStatus) : Prop :=
  status = .succeeded ∨ status = .failed ∨ status = .cancelled

instance (status : RunStatus) : Decidable status.isTerminal := by
  unfold isTerminal
  infer_instance

/-- The text of a status. -/
def value : RunStatus → String
  | .queued => "queued"
  | .running => "running"
  | .waitingApproval => "waiting_approval"
  | .succeeded => "succeeded"
  | .failed => "failed"
  | .cancelled => "cancelled"

end RunStatus

/-- `QualityGateStatus`. -/
inductive QualityGateStatus where
  | notRequired
  | evaluating
  | waitingApproval
  | approved
  | rejected
  | failed
  | cancelled
deriving DecidableEq, Repr

/-- `WebhookDeliveryStatus`. -/
inductive WebhookDeliveryStatus where
  | pending
  | claimed
  | retryWait
  | delivered
  | deadLetter
deriving DecidableEq, Repr

/-- `GateDecision`. -/
inductive GateDecision where
  | approve
  | reject
deriving DecidableEq, Repr

/-- The text of a decision. -/
def GateDecision.value : GateDecision → String
  | .approve => "approve"
  | .reject => "reject"

/-- `GateDecisionRequest`, once it has been validated. -/
structure GateDecisionRequest where
  eventId : String
  decision : GateDecision
  actorId : String
  actorName : String
  comment : String
deriving DecidableEq

/-- `TriggerRunRequest`, once it has been validated. -/
structure TriggerRunRequest where
  ref : Option String
  triggerVariables : List (String × String)
  webhookConnectionId : Option Uuid
  correlationId : Option String
  /-- They are supplied together. -/
  paired : webhookConnectionId.isSome = correlationId.isSome

/-! ## Definitions -/

/-- `JobDefinition` of `registry.py`. -/
structure JobDefinition where
  key : String
  name : String
  durationMs : Nat
  shouldFail : Bool
deriving DecidableEq

/-- `StageDefinition`, which has a job. -/
structure StageDefinition where
  key : String
  name : String
  jobs : List JobDefinition
  jobs_ne : jobs ≠ []

/-- `PipelineDefinition`. -/
structure PipelineDefinition where
  key : String
  name : String
  revision : Nat
  queueDelayMs : Nat
  stages : List StageDefinition
  stages_ne : stages ≠ []

/-- `DefinitionRegistry`. -/
abbrev DefinitionRegistry := String → Option PipelineDefinition

/-- `_JobTimeline`. -/
structure JobTimeline where
  definition : JobDefinition
  startMs : Nat
  finishMs : Nat

/-- The jobs one after another from an offset. -/
def timelineFrom : Nat → List JobDefinition → List JobTimeline
  | _, [] => []
  | offset, job :: jobs =>
    ⟨job, offset, offset + job.durationMs⟩ :: timelineFrom (offset + job.durationMs) jobs

/-- `_timeline`. -/
def PipelineDefinition.timeline (definition : PipelineDefinition) : List JobTimeline :=
  timelineFrom definition.queueDelayMs (definition.stages.flatMap (·.jobs))

/-- What `_terminal_point` returns: when a run of the definition ends, how, and with what message.
-/
structure TerminalPoint where
  ms : Nat
  status : RunStatus
  message : String

/-- `_terminal_point`; a definition has a job. -/
def PipelineDefinition.terminalPoint (definition : PipelineDefinition) : TerminalPoint :=
  match definition.timeline.find? (·.definition.shouldFail) with
  | some failure =>
    ⟨failure.finishMs, .failed, "fixed job " ++ failure.definition.key ++ " failed"⟩
  | none =>
    ⟨(definition.timeline.getLast?.map (·.finishMs)).getD definition.queueDelayMs, .succeeded,
      "completed by the deterministic local executor"⟩

/-! ## Rows -/

/-- A row of the runs; the status is what the last refresh has made of it. -/
structure RunRecord where
  id : Uuid
  definition : String
  definitionRevision : Nat
  ref : Option String
  triggerVariables : List (String × String)
  idempotencyKey : String
  requestFingerprint : Digest Json
  status : RunStatus
  message : Option String
  createdAt : Instant
  updatedAt : Instant
  startedAt : Option Instant
  finishedAt : Option Instant
  cancelledAt : Option Instant
deriving DecidableEq

/-- A row of the quality gates; only runs with a policy have one. -/
structure QualityGateRecord where
  runId : Uuid
  policyRevision : Nat
  status : QualityGateStatus
  reachedAt : Option Instant
  decidedAt : Option Instant
  updatedAt : Instant
deriving DecidableEq

/-- A row of the approvals: one decision that was taken. -/
structure ApprovalRecord where
  id : Uuid
  runId : Uuid
  eventId : String
  requestFingerprint : Digest Json
  decision : GateDecision
  actorId : String
  actorName : String
  comment : String
  createdAt : Instant
deriving DecidableEq

/-- A row of the webhook subscriptions: where a run is reported to. -/
structure SubscriptionRecord where
  runId : Uuid
  connectionId : Uuid
  correlationId : String
  createdAt : Instant
deriving DecidableEq

/-- A row of the webhook outbox: one body for one state of a run. -/
structure WebhookDeliveryRecord where
  id : Uuid
  runId : Uuid
  connectionId : Uuid
  eventId : Uuid
  sequence : Nat
  occurredAt : Instant
  normalizedStatus : RunStatus
  message : Option String
  payloadBody : Json
  bodySha256 : Digest Json
  status : WebhookDeliveryStatus
  attempts : Nat
  maxAttempts : Nat
  availableAt : Instant
  leaseOwner : Option String
  leaseTokenHash : Option TokenHash
  leaseExpiresAt : Option Instant
  lastErrorCode : Option String
  version : Nat
  createdAt : Instant
  updatedAt : Instant
  deliveredAt : Option Instant
  deadLetteredAt : Option Instant
deriving DecidableEq

instance : Keyed RunRecord := ⟨RunRecord.id⟩
instance : Keyed QualityGateRecord := ⟨QualityGateRecord.runId⟩
instance : Keyed ApprovalRecord := ⟨ApprovalRecord.id⟩
instance : Keyed SubscriptionRecord := ⟨SubscriptionRecord.runId⟩
instance : Keyed WebhookDeliveryRecord := ⟨WebhookDeliveryRecord.id⟩

@[simp] theorem RunRecord.key_eq (r : RunRecord) : key r = r.id := rfl
@[simp] theorem QualityGateRecord.key_eq (r : QualityGateRecord) : key r = r.runId := rfl
@[simp] theorem ApprovalRecord.key_eq (r : ApprovalRecord) : key r = r.id := rfl
@[simp] theorem SubscriptionRecord.key_eq (r : SubscriptionRecord) : key r = r.runId := rfl
@[simp] theorem WebhookDeliveryRecord.key_eq (r : WebhookDeliveryRecord) : key r = r.id := rfl

/-! ## Errors and checks -/

/-- `CiLabError` and its subclasses, with what they say. -/
inductive CiLabError where
  | notFound (resource : String)
  | conflict (message : String)
  | validation (message : String)
  | runtime (message : String)
  /-- A constraint of the database. -/
  | integrity
deriving DecidableEq, Repr

/-- `fullmatch` of one character and at most `n` more. -/
def fullmatch (first rest : Char → Bool) (n : Nat) (value : String) : Bool :=
  match value.toList with
  | [] => false
  | c :: text => first c ∧ text.length ≤ n ∧ text.all rest

/-- A letter or a digit of ASCII. -/
def isAlnum (c : Char) : Bool :=
  ('A' ≤ c ∧ c ≤ 'Z') ∨ ('a' ≤ c ∧ c ≤ 'z') ∨ ('0' ≤ c ∧ c ≤ '9')

/-- `_IDEMPOTENCY_KEY`. -/
def isIdempotencyKey : String → Bool :=
  fullmatch isAlnum (fun c => isAlnum c ∨ c = '.' ∨ c = '_' ∨ c = ':' ∨ c = '-') 199

/-- `_WORKER_ID`. -/
def isWorkerId : String → Bool :=
  fullmatch isAlnum (fun c => isAlnum c ∨ c = '.' ∨ c = '_' ∨ c = ':' ∨ c = '@' ∨ c = '-') 199

/-- `_ERROR_CODE`. -/
def isErrorCode : String → Bool :=
  fullmatch (fun c => 'a' ≤ c ∧ c ≤ 'z')
    (fun c => ('a' ≤ c ∧ c ≤ 'z') ∨ ('0' ≤ c ∧ c ≤ '9') ∨ c = '_') 99

/-! ## Documents -/

/-- What CI Lab is set up with. The elapsed time goes through a float, of which nothing is
relied on. -/
structure Setup where
  elapsedMs : Instant → Instant → Nat
  isoformat : Instant → String
  uuid : Uuid → String

/-- `_fingerprint`. -/
def triggerFingerprint (setup : Setup) (definition : PipelineDefinition)
    (request : TriggerRunRequest) : Digest Json :=
  let document := "\"definition\":" ++ jsonString definition.key
    ++ ",\"definition_revision\":" ++ toString definition.revision
    ++ ",\"ref\":" ++ jsonOption jsonString request.ref
    ++ ",\"variables\":" ++ jsonStrings request.triggerVariables
  match request.webhookConnectionId with
  | none => ⟨"\x7b" ++ document ++ "\x7d"⟩
  | some connectionId =>
    ⟨"\x7b\"correlation_id\":" ++ jsonOption jsonString request.correlationId ++ "," ++ document
      ++ ",\"webhook_connection_id\":" ++ jsonString (setup.uuid connectionId) ++ "\x7d"⟩

/-- `_approval_fingerprint`. -/
def approvalFingerprint (request : GateDecisionRequest) : Digest Json :=
  ⟨"\x7b\"actor_id\":" ++ jsonString request.actorId
    ++ ",\"actor_name\":" ++ jsonString request.actorName
    ++ ",\"comment\":" ++ jsonString request.comment
    ++ ",\"decision\":" ++ jsonString request.decision.value
    ++ ",\"event_id\":" ++ jsonString request.eventId ++ "\x7d"⟩

/-- The body of a delivery. -/
def webhookBody (setup : Setup) (subscription : SubscriptionRecord) (runId : Uuid)
    (message : Option String) (occurredAt : Instant) (sequence : Nat) (status : RunStatus) : Json :=
  "\x7b\"connection_id\":" ++ jsonString (setup.uuid subscription.connectionId)
    ++ ",\"correlation_id\":" ++ jsonString subscription.correlationId
    ++ ",\"external_id\":" ++ jsonString (setup.uuid runId)
    ++ ",\"message\":" ++ jsonOption jsonString message
    ++ ",\"occurred_at\":" ++ jsonString (setup.isoformat occurredAt)
    ++ ",\"sequence\":" ++ toString sequence
    ++ ",\"status\":" ++ jsonString status.value ++ "\x7d"

end QaPlatform.CiLab
