import QaPlatform.CiLab.Service

/-!
# CI Lab's deliveries

The outbox half of `CiLabService`: workers claim one delivery at a time, of a run
always the first that is not delivered, and settle it with what the claim has told
them. The clock is read once in a method.
-/

namespace QaPlatform.CiLab

/-- `ClaimedWebhookDelivery`. -/
structure ClaimedWebhookDelivery where
  id : Uuid
  runId : Uuid
  connectionId : Uuid
  eventId : Uuid
  rawBody : Json
  workerId : String
  leaseToken : String
  version : Nat
  attempts : Nat
  maxAttempts : Nat

namespace WebhookDeliveryRecord

/-- The row without a lease. -/
def released (r : WebhookDeliveryRecord) (status : WebhookDeliveryStatus)
    (errorCode : Option String)
    (now : Instant) : WebhookDeliveryRecord :=
  { r with
    status
    leaseOwner := none
    leaseTokenHash := none
    leaseExpiresAt := none
    lastErrorCode := errorCode
    updatedAt := now
    version := r.version + 1 }

/-- The row of a delivery that is given up. -/
def deadLettered (r : WebhookDeliveryRecord) (errorCode : String) (now : Instant) :
    WebhookDeliveryRecord :=
  { r.released .deadLetter (some errorCode) now with deadLetteredAt := some now }

/-- The row of a delivery that a worker takes, which is one attempt more. -/
def claimed (r : WebhookDeliveryRecord) (workerId leaseToken : String) (leaseSeconds : Int)
    (now : Instant) : WebhookDeliveryRecord :=
  { r with
    status := .claimed
    attempts := r.attempts + 1
    leaseOwner := some workerId
    leaseTokenHash := some (tokenHash leaseToken)
    leaseExpiresAt := some (now + seconds leaseSeconds)
    lastErrorCode := none
    updatedAt := now
    deliveredAt := none
    deadLetteredAt := none
    version := r.version + 1 }

/-- The row of a delivery that has been posted. -/
def completed (r : WebhookDeliveryRecord) (now : Instant) : WebhookDeliveryRecord :=
  { r.released .delivered none now with deliveredAt := some now, deadLetteredAt := none }

/-- `min(300, 2 ** max(0, attempts - 1))` seconds. -/
def retryDelay (attempts : Nat) : Int := seconds (min 300 (Nat.pow 2 (attempts - 1)) : Nat)

/-- The row after a post that has failed: it is retried after a delay, or given up. -/
def failed (r : WebhookDeliveryRecord) (errorCode : String) (shouldRetry : Bool) (now : Instant) :
    WebhookDeliveryRecord :=
  { r.released (if shouldRetry then .retryWait else .deadLetter) (some errorCode) now with
    availableAt := if shouldRetry then now + retryDelay r.attempts else r.availableAt
    deliveredAt := none
    deadLetteredAt := if shouldRetry then none else some now }

/-- The row of a delivery that an operator starts again, with all its attempts. -/
def retried (r : WebhookDeliveryRecord) (now : Instant) : WebhookDeliveryRecord :=
  { r.released .pending none now with
    attempts := 0
    maxAttempts := webhookDefaultMaxAttempts
    availableAt := now
    deliveredAt := none
    deadLetteredAt := none }

/-- A worker has died during its last attempt. -/
def Exhausted (now : Instant) (r : WebhookDeliveryRecord) : Prop :=
  r.status = .claimed ∧ r.leaseExpiresAt.any (· ≤ now) ∧ r.maxAttempts ≤ r.attempts

instance (now : Instant) (r : WebhookDeliveryRecord) : Decidable (r.Exhausted now) := by
  unfold Exhausted
  infer_instance

/-- The row's lease is the one of `claimed`, and has not run out. -/
def HeldBy (r : WebhookDeliveryRecord) (claimed : ClaimedWebhookDelivery) (now : Instant) : Prop :=
  r.status = .claimed ∧ r.leaseOwner = some claimed.workerId
    ∧ r.leaseTokenHash = some (tokenHash claimed.leaseToken)
    ∧ r.leaseExpiresAt.any (now < ·) ∧ r.version = claimed.version

instance (r : WebhookDeliveryRecord) (claimed : ClaimedWebhookDelivery) (now : Instant) :
    Decidable (r.HeldBy claimed now) := by
  unfold HeldBy
  infer_instance

end WebhookDeliveryRecord

namespace CiLabStore

/-- The UPDATE with which a claim begins. -/
def expireExhausted (s : CiLabStore) (now : Instant) : CiLabStore :=
  { s with deliveries := s.deliveries.update fun r =>
      if r.Exhausted now then r.deadLettered "lease_expired" now else r }

/-- The WHERE clause of a claim. -/
def ClaimableDelivery (s : CiLabStore) (now : Instant) (r : WebhookDeliveryRecord) : Prop :=
  (((r.status = .pending ∨ r.status = .retryWait) ∧ r.availableAt ≤ now)
      ∨ (r.status = .claimed ∧ r.leaseExpiresAt.any (· ≤ now)))
    ∧ r.attempts < r.maxAttempts
    ∧ ∀ lower ∈ s.deliveries.rows, lower.runId = r.runId → lower.sequence < r.sequence →
      lower.status = .delivered

instance (s : CiLabStore) (now : Instant) (r : WebhookDeliveryRecord) :
    Decidable (s.ClaimableDelivery now r) := by
  unfold ClaimableDelivery
  infer_instance

/-- The row that `claim_webhook_delivery` selects: the earliest that may be claimed. -/
def deliveryCandidate (s : CiLabStore) (now : Instant) : Option WebhookDeliveryRecord :=
  firstBy (fun r => [r.availableAt, r.createdAt, r.id])
    (s.deliveries.rows.filter (s.ClaimableDelivery now))

/-- The body is the one that was stored. -/
def BodyIntact (r : WebhookDeliveryRecord) : Prop :=
  r.payloadBody.utf8ByteSize ≤ webhookMaxBodyBytes ∧ r.bodySha256 = ⟨r.payloadBody⟩

instance (r : WebhookDeliveryRecord) : Decidable (BodyIntact r) := by
  unfold BodyIntact
  infer_instance

/-- What a claim tells its worker. -/
def claimOf (r : WebhookDeliveryRecord) (workerId leaseToken : String) :
    ClaimedWebhookDelivery where
  id := r.id
  runId := r.runId
  connectionId := r.connectionId
  eventId := r.eventId
  rawBody := r.payloadBody
  workerId := workerId
  leaseToken := leaseToken
  version := r.version + 1
  attempts := r.attempts + 1
  maxAttempts := r.maxAttempts

/-- The rest of a claim, after the UPDATE. -/
def claimCandidate (s : CiLabStore) (workerId leaseToken : String) (leaseSeconds : Int)
    (now : Instant) : CiLabStore × Option ClaimedWebhookDelivery :=
  match s.deliveryCandidate now with
  | none => (s, none)
  | some r =>
    if BodyIntact r then
      ({ s with deliveries := s.deliveries.put (r.claimed workerId leaseToken leaseSeconds now) },
        some (claimOf r workerId leaseToken))
    else
      ({ s with deliveries := s.deliveries.put (r.deadLettered "payload_integrity_error" now) },
        none)

/-- `claim_webhook_delivery`, whose arguments are checked before the transaction. -/
def claimWebhookDelivery (s : CiLabStore) (workerId : String) (leaseSeconds : Int)
    (leaseToken : String) (now : Instant) :
    Except CiLabError (CiLabStore × Option ClaimedWebhookDelivery) := do
  refuse (isWorkerId (strip workerId) = false) (.validation "webhook worker_id is invalid")
  refuse (¬ (5 ≤ leaseSeconds ∧ leaseSeconds ≤ 300))
    (.validation "webhook lease_seconds must be between 5 and 300")
  return (s.expireExhausted now).claimCandidate (strip workerId) leaseToken leaseSeconds now

/-- `_require_webhook_delivery_lease`. -/
def requireWebhookDeliveryLease (s : CiLabStore) (claimed : ClaimedWebhookDelivery)
    (now : Instant) :
    Except CiLabError WebhookDeliveryRecord := do
  let record ← demand (.notFound "webhook delivery") (s.deliveries.get? claimed.id)
  refuse (¬ record.HeldBy claimed now) (.conflict "webhook delivery lease is invalid or expired")
  return record

/-- `complete_webhook_delivery`. -/
def completeWebhookDelivery (s : CiLabStore) (claimed : ClaimedWebhookDelivery) (now : Instant) :
    Except CiLabError (CiLabStore × WebhookDeliveryRecord) := do
  let record ← s.requireWebhookDeliveryLease claimed now
  let record := record.completed now
  return ({ s with deliveries := s.deliveries.put record }, record)

/-- `fail_webhook_delivery`. -/
def failWebhookDelivery (s : CiLabStore) (claimed : ClaimedWebhookDelivery) (errorCode : String)
    (retryable : Bool) (now : Instant) :
    Except CiLabError (CiLabStore × WebhookDeliveryRecord) := do
  refuse (isErrorCode errorCode = false)
    (.validation "webhook delivery error code is invalid")
  let record ← s.requireWebhookDeliveryLease claimed now
  let shouldRetry := retryable && record.attempts < record.maxAttempts
  let record := record.failed errorCode shouldRetry now
  return ({ s with deliveries := s.deliveries.put record }, record)

/-- `retry_webhook_delivery`; a delivery that still waits is left as it is. -/
def retryWebhookDelivery (s : CiLabStore) (deliveryId : Uuid) (now : Instant) :
    Except CiLabError (CiLabStore × WebhookDeliveryRecord) := do
  let record ← demand (.notFound "webhook delivery") (s.deliveries.get? deliveryId)
  if record.status = .pending ∨ record.status = .retryWait then return (s, record)
  else do
    refuse (record.status ≠ .deadLetter)
      (.conflict "only a dead-letter webhook delivery can be retried")
    let record := record.retried now
    return ({ s with deliveries := s.deliveries.put record }, record)

/-! ## Transactions -/

/-- A method and its arguments; the token is the one that `secrets` draws. -/
inductive Call where
  | trigger (definitionKey : String) (request : TriggerRunRequest) (idempotencyKey : String)
  | get (runId : Uuid)
  | cancel (runId : Uuid)
  | decideGate (runId : Uuid) (request : GateDecisionRequest)
  | advanceWebhookRunsOnce (limit : Nat)
  | claimWebhookDelivery (workerId : String) (leaseSeconds : Int) (leaseToken : String)
  | completeWebhookDelivery (claimed : ClaimedWebhookDelivery)
  | failWebhookDelivery (claimed : ClaimedWebhookDelivery) (errorCode : String) (retryable : Bool)
  | retryWebhookDelivery (deliveryId : Uuid)

/-- The store that a call commits. -/
def call (setup : Setup) (registry : DefinitionRegistry) (s : CiLabStore) (now : Instant) :
    Call → Except CiLabError CiLabStore
  | .trigger definitionKey request idempotencyKey =>
    (s.trigger setup registry definitionKey request idempotencyKey now).map (·.1)
  | .get runId => (s.get setup registry runId now).map (·.1)
  | .cancel runId => (s.cancel setup registry runId now).map (·.1)
  | .decideGate runId request => (s.decideGate setup registry runId request now).map (·.1)
  | .advanceWebhookRunsOnce limit =>
    (s.advanceWebhookRunsOnce setup registry limit now).map (·.1)
  | .claimWebhookDelivery workerId leaseSeconds leaseToken =>
    (s.claimWebhookDelivery workerId leaseSeconds leaseToken now).map (·.1)
  | .completeWebhookDelivery claimed => (s.completeWebhookDelivery claimed now).map (·.1)
  | .failWebhookDelivery claimed errorCode retryable =>
    (s.failWebhookDelivery claimed errorCode retryable now).map (·.1)
  | .retryWebhookDelivery deliveryId => (s.retryWebhookDelivery deliveryId now).map (·.1)

/-- A call, when it is made, and the registry of the process that serves it. -/
structure Event where
  registry : DefinitionRegistry
  now : Instant
  call : Call

/-- The store after a call; one that raises is rolled back. -/
def step (setup : Setup) (s : CiLabStore) (e : Event) : CiLabStore :=
  (s.call setup e.registry e.now e.call).toOption.getD s

/-- The tables after the migration. -/
def empty : CiLabStore := ⟨.empty, .empty, .empty, .empty, .empty⟩

end CiLabStore

end QaPlatform.CiLab
