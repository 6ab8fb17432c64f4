import QaPlatform.Base.Transition
import QaPlatform.Runtime.ProviderStore

/-!
# Dispatchers, pollers and approvers at work

The provider tables together with what is under way outside of any transaction:
dispatch attempts between their claim and their settlement, polls and decisions
that wait for the provider's answer, and the record of all calls of
`provider.trigger`. An event is one transaction or one exchange with a provider;
events of different callers interleave in any order. What the provider answers,
which rows are locked by others and when a process dies is part of the event.
-/

namespace QaPlatform.Runtime

open Pipeline

/-- How the provider part of `dispatch_provider_trigger_once` ended. -/
inductive TriggerOutcome where
  | run (run : ProviderRun)
  | failure (errorCode : String) (retryable : Bool)

/-- How far an attempt has come. -/
inductive AttemptPhase where
  | claimed
  /-- The connection's version was compared; the provider is asked next. -/
  | checked
  | answered (outcome : TriggerOutcome)
  | closed

/-- A `dispatch_provider_trigger_once` that has claimed an intent. -/
structure DispatchAttempt where
  id : Uuid
  claimed : ProviderStore.ClaimedProviderTrigger
  phase : AttemptPhase

instance : Keyed DispatchAttempt := ⟨DispatchAttempt.id⟩

@[simp] theorem DispatchAttempt.key_eq (a : DispatchAttempt) : key a = a.id := rfl

/-- An invocation of `provider.trigger`. -/
structure TriggerCall where
  attemptId : Uuid
  intentId : Uuid
  connection : ProviderConnectionRecord

/-- What happens when a dispatcher asks a provider. -/
inductive TriggerAnswer where
  /-- `_build_enabled_provider` refuses; the provider is not called. -/
  | unavailable
  | raised (error : ProviderError)
  | returned (run : ProviderRun)
  /-- The call is made, and then the dispatcher dies or an exception that nothing
  catches ends it. -/
  | lost

/-- The store, and the calls that are between their transactions. -/
structure ProviderSystem where
  store : ProviderStore
  attempts : Table DispatchAttempt
  refreshes : List ProviderStore.PendingRefresh
  decisions : List ProviderStore.PendingDecision
  calls : List TriggerCall

/-- Whether the dispatcher tries again after a provider error. -/
def retryableError (kind : ProviderKind) (error : ProviderError) : Bool :=
  match error with
  | .transport _ | .response _ => kind = .learningCi
  | .configuration _ | .conflict _ | .security _ | .disabled _ => false

/-- The run that the local simulator makes of a trigger. -/
def localTriggered (claimed : ProviderStore.ClaimedProviderTrigger) (externalId : String) :
    ProviderRun where
  provider := .local
  externalId := externalId
  status := .queued
  rawStatus := "queued"
  webUrl := none
  message := none
  metadata := [("definition_ref", .other (jsonString claimed.connection.definitionRef)),
    ("ref", .other (jsonOption jsonString claimed.request.ref))]
  qualityGate := .default
  approvals := []
  waiting := by simp

/-- A call that is one transaction, or one part of a call that is several. -/
inductive ProviderEvent where
  | createConnection (payload : ProviderConnectionCreate) (now : Instant)
  | updateConnection (connectionId : Uuid) (payload : ProviderConnectionPatch) (now : Instant)
  | deleteConnection (connectionId : Uuid)
  | triggerProvider (connectionId : Uuid) (payload : ProviderTriggerPayload)
      (actor : Option RunGraph.Actor) (generated : String) (now : Instant)
  | claim (workerId : String) (leaseSeconds : Int) (leaseToken : String) (now : Instant)
      (skipped : List Uuid)
  | checkVersion (attemptId : Uuid)
  | callTrigger (attemptId : Uuid) (answer : TriggerAnswer) (generated : String)
  | settle (attemptId : Uuid) (now : Instant)
  | crash (attemptId : Uuid)
  | prepareRefresh (connectionId runId : Uuid) (cancel : Bool) (now : Instant)
  | commitRefresh (pending : Nat) (run : ProviderRun) (now : Instant)
  | prepareDecision (connectionId runId : Uuid) (payload : RunGraph.ProviderRunApprovalPayload)
      (actor : Option RunGraph.Actor)
  | commitDecision (pending : Nat) (run : ProviderRun) (now : Instant)
  | webhook (connectionId : Uuid) (eventId : String) (bodySha256 : Digest String)
      (payload : ProviderWebhookPayload) (now : Instant)

namespace ProviderSystem

/-- Nothing is stored, and nobody is at work. -/
def empty : ProviderSystem := ⟨ProviderStore.empty, Table.empty, [], [], []⟩

/-- The store after a transaction; one that raises is rolled back. -/
def commit (s : ProviderSystem) (result : Except DomainError ProviderStore) : ProviderSystem :=
  { s with store := result.toOption.getD s.store }

/-- An attempt has got on. -/
def setPhase (s : ProviderSystem) (a : DispatchAttempt) (phase : AttemptPhase) : ProviderSystem :=
  { s with attempts := s.attempts.put { a with phase } }

/-- A dispatcher claims an intent; if there is one, an attempt begins. -/
def claim (s : ProviderSystem) (workerId : String) (leaseSeconds : Int) (leaseToken : String)
    (now : Instant) (skipped : List Uuid) : ProviderSystem :=
  match s.store.claimProviderTrigger workerId leaseSeconds leaseToken now skipped with
  | .ok (store, some claimed) =>
    { s with store, attempts := s.attempts.add fun id => { id, claimed, phase := .claimed } }
  | .ok (_, none) | .error _ => s

/-- The comparison of the connection's version before the provider is built. -/
def checkVersion (s : ProviderSystem) (a : DispatchAttempt) : ProviderSystem :=
  match s.store.connections.get? a.claimed.connection.id with
  | none => s.setPhase a .closed
  | some c =>
    if a.claimed.connection.version ≠ c.version then
      s.setPhase a (.answered (.failure "connection_version_changed" false))
    else s.setPhase a .checked

/-- The provider is called with the connection that the claim has read. -/
def recordCall (s : ProviderSystem) (a : DispatchAttempt) : ProviderSystem :=
  { s with calls := s.calls ++ [⟨a.id, a.claimed.intentId, a.claimed.connection⟩] }

/-- The provider part of `dispatch_provider_trigger_once`. -/
def callTrigger (s : ProviderSystem) (a : DispatchAttempt) (answer : TriggerAnswer)
    (generated : String) : ProviderSystem :=
  let kind := a.claimed.connection.kind
  if kind = .local then s.setPhase a (.answered (.run (localTriggered a.claimed generated)))
  else match answer with
    | .unavailable => s.setPhase a (.answered (.failure "provider_configuration_rejected" false))
    | .raised error =>
      let retryable := retryableError kind error
      (s.recordCall a).setPhase a (.answered (.failure
        (if retryable then "provider_result_unknown" else "provider_rejected") retryable))
    | .returned run =>
      -- every adapter answers in the name of its own kind
      if run.provider = kind then (s.recordCall a).setPhase a (.answered (.run run)) else s
    | .lost => (s.recordCall a).setPhase a .closed

/-- The transaction that ends an attempt. -/
def settle (s : ProviderSystem) (a : DispatchAttempt) (outcome : TriggerOutcome) (now : Instant) :
    ProviderSystem :=
  let result := match outcome with
    | .run run => s.store.finalizeProviderTrigger a.claimed run now
    | .failure errorCode retryable =>
      s.store.settleProviderTriggerFailure a.claimed errorCode retryable now
  (s.commit result).setPhase a .closed

/-- One event. A transaction that raises leaves the store as it is. -/
def step (safety : RuntimeSafetyConfig) (s : ProviderSystem) : ProviderEvent → ProviderSystem
  | .createConnection payload now => s.commit (s.store.createConnection payload now)
  | .updateConnection connectionId payload now =>
    s.commit (s.store.updateConnection connectionId payload now)
  | .deleteConnection connectionId => s.commit (s.store.deleteConnection connectionId)
  | .triggerProvider connectionId payload actor generated now =>
    s.commit (s.store.triggerProvider safety connectionId payload actor generated now)
  | .claim workerId leaseSeconds leaseToken now skipped =>
    s.claim workerId leaseSeconds leaseToken now skipped
  | .checkVersion attemptId =>
    match s.attempts.get? attemptId with
    | some a => match a.phase with
      | .claimed => s.checkVersion a
      | _ => s
    | none => s
  | .callTrigger attemptId answer generated =>
    match s.attempts.get? attemptId with
    | some a => match a.phase with
      | .checked => s.callTrigger a answer generated
      | _ => s
    | none => s
  | .settle attemptId now =>
    match s.attempts.get? attemptId with
    | some a => match a.phase with
      | .answered outcome => s.settle a outcome now
      | _ => s
    | none => s
  | .crash attemptId =>
    match s.attempts.get? attemptId with
    | some a => s.setPhase a .closed
    | none => s
  | .prepareRefresh connectionId runId cancel now =>
    match s.store.prepareRefresh connectionId runId cancel now with
    | .ok (store, some pending) => { s with store, refreshes := s.refreshes ++ [pending] }
    | .ok (store, none) => { s with store }
    | .error _ => s
  | .commitRefresh pending run now =>
    match s.refreshes[pending]? with
    | some p =>
      if p.kind = .local ∨ run.provider = p.kind then
        { s.commit (s.store.commitRefresh p run now) with
          refreshes := s.refreshes.eraseIdx pending }
      else s
    | none => s
  | .prepareDecision connectionId runId payload actor =>
    match s.store.prepareDecision connectionId runId payload actor with
    | .ok (some pending) => { s with decisions := s.decisions ++ [pending] }
    | .ok none | .error _ => s
  | .commitDecision pending run now =>
    match s.decisions[pending]? with
    | some p =>
      if run.provider = p.kind then
        { s.commit (s.store.commitDecision p run now) with
          decisions := s.decisions.eraseIdx pending }
      else s
    | none => s
  | .webhook connectionId eventId bodySha256 payload now =>
    s.commit (s.store.processLearningCiWebhook safety connectionId eventId bodySha256 payload now)

/-- The run that an event works on and what it tries to do to its rows. -/
def moveOf (s : ProviderSystem) : ProviderEvent → Option (Uuid × RunGraph.Move)
  | .claim workerId leaseSeconds leaseToken now skipped =>
    (s.store.claimCandidate now skipped).map fun g =>
      (g.run.id, .claim (strip workerId) leaseToken leaseSeconds now)
  | .settle attemptId now =>
    match s.attempts.get? attemptId with
    | some a => match a.phase with
      | .answered (.run run) => some (a.claimed.runId, .finalize a.claimed.leaseToken run now)
      | .answered (.failure errorCode retryable) =>
        some (a.claimed.runId, .settleFailure a.claimed.leaseToken errorCode retryable now)
      | _ => none
    | none => none
  | .prepareRefresh _ runId cancel now =>
    if cancel then some (runId, .cancelBeforeDispatch now) else none
  | .commitRefresh pending run now =>
    match s.refreshes[pending]? with
    | some p =>
      if p.kind = .local ∨ run.provider = p.kind then
        some (p.runId, .commitRefresh p.expectedVersion (p.answer run) now)
      else none
    | none => none
  | .commitDecision pending run now =>
    match s.decisions[pending]? with
    | some p =>
      if run.provider = p.kind then
        some (p.runId, .commitDecision p.payload p.actor p.expectedVersion run now)
      else none
    | none => none
  | .webhook connectionId _ _ payload now =>
    (s.store.webhookTarget connectionId payload).map fun g => (g.run.id, .webhook payload now)
  | .createConnection .. | .updateConnection .. | .deleteConnection .. | .triggerProvider ..
  | .checkVersion .. | .callTrigger .. | .crash .. | .prepareDecision .. => none

/-! ## A small installation -/

/-- A teaching installation with a local CI Lab. -/
def lesson : RuntimeSafetyConfig :=
  { appEnv := "local", providerRuntimeMode := "ci_lab_local", ownershipAcknowledged := false
    loopbackOnly := true
    providerSecretEnvNames := [ciLabProviderSecretName, ciLabWebhookSecretName] }

/-- Connects to a definition of the CI Lab. -/
def lessonConnection (definitionRef : String) : ProviderEvent :=
  .createConnection
    { name := "CI Lab", kind := .learningCi, baseUrl := none, definitionRef, config := []
      secretEnvVar := some ciLabProviderSecretName
      webhookSecretEnvVar := some ciLabWebhookSecretName, enabled := true } 0

/-- Triggers the connection once, as run 0. -/
def lessonTrigger : ProviderEvent :=
  .triggerProvider 0 ⟨some "main", [], some "lesson"⟩ none "" 1

/-- The CI Lab's word for a status. -/
def lessonText : PipelineStatus → String
  | .queued => "queued"
  | .running => "running"
  | .succeeded => "succeeded"
  | .failed => "failed"
  | .cancelled => "cancelled"

/-- The CI Lab's answer about run 0. -/
def lessonRun (status : PipelineStatus) (gate : ProviderQualityGateStatus) (sequence : Int) :
    ProviderRun where
  provider := .learningCi
  externalId := "run-0"
  status := status
  rawStatus := lessonText status
  webUrl := none
  message := none
  metadata := [("webhook_sequence", .int sequence)]
  qualityGate := ⟨true, gate⟩
  approvals := []
  waiting := by cases status <;> simp [lessonText]

/-- A callback of the CI Lab about run 0. -/
def lessonWebhook (sequence : Nat) (status : WebhookStatus) (now : Instant) : ProviderEvent :=
  .webhook 0 (toString sequence) ⟨toString sequence⟩
    { connectionId := 0, correlationId := "lesson", externalId := "run-0", sequence
      occurredAt := now, status, message := none } now

end ProviderSystem

end QaPlatform.Runtime
