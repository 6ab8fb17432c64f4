import QaPlatform.Base.RowLocks
import QaPlatform.Runtime.ProviderSystem

/-!
# Dispatchers and cancels, statement by statement

One run and its trigger intent as PostgreSQL sees them under READ COMMITTED. A
dispatcher reads both rows FOR UPDATE before it writes them. A cancel before
dispatch reads them without locks and writes what it decided whenever it gets
their locks. A local verdict says that no run exists at the provider; it is
written without asking whether an earlier attempt was accepted with its answer
lost, or can still be.
-/

namespace QaPlatform.Runtime

open Pipeline

/-- The two rows that transactions compete for. -/
inductive RaceRow where
  | intent
  | run
deriving DecidableEq

/-- A process with a database session. -/
inductive RaceTx where
  | attempt (id : Uuid)
  | cancel (id : Uuid)
deriving DecidableEq

/-- Where a dispatch attempt stands. -/
inductive RacePhase where
  /-- `build_provider_trigger_claim_statement` has locked the intent. -/
  | intentLocked
  | runLocked
  | connectionRead (connection : ProviderConnectionRecord)
  /-- The claim is committed. -/
  | claimed (claimed : ProviderStore.ClaimedProviderTrigger)
  /-- The connection's version was compared; the provider is asked next. -/
  | checked (claimed : ProviderStore.ClaimedProviderTrigger)
  | answered (claimed : ProviderStore.ClaimedProviderTrigger) (outcome : TriggerOutcome)
  /-- The settlement has locked the intent. -/
  | settlesIntent (claimed : ProviderStore.ClaimedProviderTrigger) (outcome : TriggerOutcome)
  | settlesRun (claimed : ProviderStore.ClaimedProviderTrigger) (outcome : TriggerOutcome)
  | closed

/-- A `dispatch_provider_trigger_once`; `accepted` is what the provider knows. -/
structure RaceAttempt where
  id : Uuid
  workerId : String
  leaseToken : String
  leaseSeconds : Int
  now : Instant
  phase : RacePhase
  accepted : Bool

instance : Keyed RaceAttempt := ⟨RaceAttempt.id⟩

@[simp] theorem RaceAttempt.key_eq (a : RaceAttempt) : key a = a.id := rfl

/-- Where a `cancel_provider_run` stands. -/
inductive CancelPhase where
  /-- The run was read and is not dispatched yet. -/
  | runRead (read : ProviderRunRecord)
  /-- So was the intent; what is left are the writes. -/
  | writing (read : ProviderRunRecord)
  /-- The run has an external identity and the provider is asked. -/
  | asking (expectedVersion : Nat) (localAnswer : ProviderRun)
  | answered (expectedVersion : Nat) (run : ProviderRun)
  | runLocked (expectedVersion : Nat) (run : ProviderRun)
  | closed

/-- A call of `cancel_provider_run` that is under way. -/
structure CancelRequest where
  id : Uuid
  phase : CancelPhase

instance : Keyed CancelRequest := ⟨CancelRequest.id⟩

@[simp] theorem CancelRequest.key_eq (c : CancelRequest) : key c = c.id := rfl

/-- What becomes of a call of `provider.trigger`. -/
inductive CallResult where
  /-- `_build_enabled_provider` refuses; the provider is not called. -/
  | unavailable
  | rejected (error : ProviderError)
  | accepted (run : ProviderRun)
  /-- The trigger is accepted, but its caller sees a timeout or another error. -/
  | unread (error : ProviderError)
  /-- The dispatcher dies in the call. -/
  | lost (accepted : Bool)

/-- The statements of a dispatch attempt after its first one. -/
inductive AttemptStatement where
  | claimRun
  | claimConnection
  | claimCommit
  | checkVersion
  | callTrigger (result : CallResult) (generated : String)
  | settleIntent
  | settleRun
  | settleCommit (now : Instant)
  /-- The process dies, or its transaction is aborted for a deadlock. -/
  | crash

/-- The statements of a cancel after its first one. -/
inductive CancelStatement where
  | readIntent
  | updateRun
  | updateIntent
  | commit (now : Instant)
  | answer (run : ProviderRun)
  | lockRun
  | apply (now : Instant)
  | crash

/-- A statement of a dispatcher or of a cancellation, or what else happens to the run. -/
inductive RaceEvent where
  | claimIntent (workerId leaseToken : String) (leaseSeconds : Int) (now : Instant)
  | attempt (id : Uuid) (statement : AttemptStatement)
  | cancelRun
  | cancel (id : Uuid) (statement : CancelStatement)
  | readConnection
  | commitEdit (pending : Nat) (edited : ProviderConnectionRecord)

/-- The committed rows, their locks and everybody at work on them. -/
structure DispatchRace where
  graph : RunGraph
  connection : ProviderConnectionRecord
  locks : RowLocks RaceRow RaceTx
  attempts : Table RaceAttempt
  cancels : Table CancelRequest
  /-- The connection as edits in progress have read it. -/
  edits : List ProviderConnectionRecord

namespace DispatchRace

/-- The raw statuses of runs that the platform ended without a provider. -/
def VerdictText (text : String) : Prop :=
  text = "cancelled_before_dispatch" ∨ text = "trigger_failed"

instance (text : String) : Decidable (VerdictText text) := by
  unfold VerdictText
  infer_instance

/-- An answer that the adapter of a kind can give to a trigger or a cancel: raw
statuses are fixed words or words of the provider that it knows. -/
def Reported (kind : ProviderKind) (run : ProviderRun) : Prop :=
  run.provider = kind ∧ ¬ VerdictText run.rawStatus

instance (kind : ProviderKind) (run : ProviderRun) : Decidable (Reported kind run) := by
  unfold Reported
  infer_instance

/-- The Learning CI adapter takes no verdict of the platform for a status. -/
theorem reported_of_normalize {definitionId : String} {payload : LearningCi.Payload}
    {run : ProviderRun} (h : LearningCi.normalize definitionId payload = .ok run) :
    Reported .learningCi run := by
  obtain ⟨hprovider, -, hraw, -, -, hstatus⟩ := LearningCi.normalize_ok h
  refine ⟨hprovider, ?_⟩
  rw [hraw]
  rintro (hv | hv)
  · rw [hv] at hstatus
    cases hstatus
  · rw [hv] at hstatus
    cases hstatus

/-- A new trigger, before any dispatch. -/
def start (c : ProviderConnectionRecord) (request : ProviderTriggerRequest)
    (fingerprint : Digest Json) (actor : Option RunGraph.Actor) (now : Instant) : DispatchRace where
  graph := ProviderStore.triggeredGraph c request fingerprint actor now 0
  connection := c
  locks := .free
  attempts := .empty
  cancels := .empty
  edits := []

/-! ## Dispatch attempts -/

/-- An attempt has got on. -/
def setAttempt (s : DispatchRace) (a : RaceAttempt) : DispatchRace :=
  { s with attempts := s.attempts.put a }

/-- Takes the lock of a row for an attempt that goes on with `phase`; it waits
while another transaction has the lock. -/
def lockFor (s : DispatchRace) (a : RaceAttempt) (row : RaceRow) (phase : RacePhase) :
    DispatchRace :=
  if s.locks.Available row (.attempt a.id) then
    { s.setAttempt { a with phase } with locks := s.locks.take row (.attempt a.id) }
  else s

/-- The end of an attempt's transaction. -/
def releaseFor (s : DispatchRace) (a : RaceAttempt) (phase : RacePhase) (graph : RunGraph) :
    DispatchRace :=
  { s.setAttempt { a with phase } with graph, locks := s.locks.release (.attempt a.id) }

/-- The claim's SELECT ... FOR UPDATE SKIP LOCKED. -/
def claimIntent (s : DispatchRace) (workerId leaseToken : String) (leaseSeconds : Int)
    (now : Instant) : DispatchRace :=
  if ProviderStore.ValidDispatch workerId leaseSeconds ∧ s.locks.owner .intent = none
      ∧ RunGraph.Claimable s.graph.intent now then
    { s with
      locks := s.locks.take .intent (.attempt s.attempts.next)
      attempts := s.attempts.add fun id =>
        { id, workerId, leaseToken, leaseSeconds, now, phase := .intentLocked, accepted := false } }
  else s

/-- What the claim's transaction returns. -/
def claimedTrigger (g : RunGraph) (connection : ProviderConnectionRecord) (leaseToken : String) :
    ProviderStore.ClaimedProviderTrigger where
  intentId := g.intent.id
  runId := g.run.id
  leaseToken := leaseToken
  connection := connection
  request := g.intent.requestPayload
  attempts := g.intent.attempts
  maxAttempts := g.intent.maxAttempts

/-- The writes and the COMMIT of `_claim_provider_trigger`. -/
def claimCommit (s : DispatchRace) (a : RaceAttempt) (connection : ProviderConnectionRecord) :
    DispatchRace :=
  let graph := s.graph.claim (strip a.workerId) a.leaseToken a.leaseSeconds a.now
  s.releaseFor a (.claimed (claimedTrigger graph connection a.leaseToken)) graph

/-- The comparison of the connection's version before the provider is built. -/
def checkVersion (s : DispatchRace) (a : RaceAttempt)
    (claimed : ProviderStore.ClaimedProviderTrigger) : DispatchRace :=
  s.setAttempt { a with
    phase :=
      if claimed.connection.version ≠ s.connection.version then
        .answered claimed (.failure "connection_version_changed" false)
      else .checked claimed }

/-- How a dispatcher takes an error of the provider. -/
def errorOutcome (kind : ProviderKind) (error : ProviderError) : TriggerOutcome :=
  let retryable := retryableError kind error
  .failure (if retryable then "provider_result_unknown" else "provider_rejected") retryable

/-- The provider part of `dispatch_provider_trigger_once`. -/
def callTrigger (s : DispatchRace) (a : RaceAttempt)
    (claimed : ProviderStore.ClaimedProviderTrigger) (result : CallResult) (generated : String) :
    DispatchRace :=
  let kind := claimed.connection.kind
  if kind = .local then
    s.setAttempt { a with phase := .answered claimed (.run (localTriggered claimed generated)) }
  else match result with
    | .unavailable =>
      s.setAttempt { a with
        phase := .answered claimed (.failure "provider_configuration_rejected" false) }
    | .rejected error =>
      s.setAttempt { a with phase := .answered claimed (errorOutcome kind error) }
    | .accepted run =>
      if Reported kind run then
        s.setAttempt { a with phase := .answered claimed (.run run), accepted := true }
      else s
    | .unread error =>
      s.setAttempt { a with phase := .answered claimed (errorOutcome kind error), accepted := true }
    | .lost accepted => s.setAttempt { a with phase := .closed, accepted }

/-- What the transaction that ends an attempt does to the rows it has locked. -/
def settleMove (claimed : ProviderStore.ClaimedProviderTrigger) (now : Instant) :
    TriggerOutcome → RunGraph.Move
  | .run run => .finalize claimed.leaseToken run now
  | .failure errorCode retryable => .settleFailure claimed.leaseToken errorCode retryable now

/-- A statement of a dispatch attempt; it does nothing when it is not its turn. -/
def attemptStep (s : DispatchRace) (a : RaceAttempt) : AttemptStatement → DispatchRace
  | .claimRun => match a.phase with
    | .intentLocked => s.lockFor a .run .runLocked
    | _ => s
  | .claimConnection => match a.phase with
    | .runLocked => s.setAttempt { a with phase := .connectionRead s.connection }
    | _ => s
  | .claimCommit => match a.phase with
    | .connectionRead connection => s.claimCommit a connection
    | _ => s
  | .checkVersion => match a.phase with
    | .claimed claimed => s.checkVersion a claimed
    | _ => s
  | .callTrigger result generated => match a.phase with
    | .checked claimed => s.callTrigger a claimed result generated
    | _ => s
  | .settleIntent => match a.phase with
    | .answered claimed outcome => s.lockFor a .intent (.settlesIntent claimed outcome)
    | _ => s
  | .settleRun => match a.phase with
    | .settlesIntent claimed outcome => s.lockFor a .run (.settlesRun claimed outcome)
    | _ => s
  | .settleCommit now => match a.phase with
    | .settlesRun claimed outcome =>
      s.releaseFor a .closed (s.graph.move (settleMove claimed now outcome))
    | _ => s
  | .crash => s.releaseFor a .closed s.graph

/-! ## Cancels -/

/-- A cancellation has got on. -/
def setCancel (s : DispatchRace) (c : CancelRequest) : DispatchRace :=
  { s with cancels := s.cancels.put c }

/-- The SELECT of the run, without a lock. -/
def cancelRun (s : DispatchRace) : DispatchRace :=
  let run := s.graph.run
  { s with
    cancels := s.cancels.add fun id =>
      { id
        phase :=
          match run.externalId with
          | some externalId => .asking run.version (ProviderStore.localAnswer run externalId true)
          | none =>
            if run.dispatchStatus = .pending ∨ run.dispatchStatus = .retryWait then .runRead run
            else .closed } }

/-- The SELECT of the intent, without a lock. -/
def cancelIntent (s : DispatchRace) (c : CancelRequest) (read : ProviderRunRecord) : DispatchRace :=
  s.setCancel { c with
    phase :=
      if s.graph.intent.status = .pending ∨ s.graph.intent.status = .retryWait then .writing read
      else .closed }

/-- The UPDATE of a row: the first write of a transaction to it takes its lock. -/
def update (s : DispatchRace) (c : CancelRequest) (row : RaceRow) : DispatchRace :=
  if s.locks.Available row (.cancel c.id) then
    { s with locks := s.locks.take row (.cancel c.id) }
  else s

/-- The rows after both UPDATEs, which set the changed columns only; the new
version is counted from the run as it was read. -/
def overwrite (g : RunGraph) (read : ProviderRunRecord) (now : Instant) : RunGraph :=
  let cancelled := g.cancelBeforeDispatch now
  { cancelled with run := { cancelled.run with version := read.version + 1 } }

/-- The COMMIT of a cancel before dispatch. -/
def cancelCommit (s : DispatchRace) (c : CancelRequest) (read : ProviderRunRecord) (now : Instant) :
    DispatchRace :=
  if s.locks.Held .run (.cancel c.id) ∧ s.locks.Held .intent (.cancel c.id) then
    { s.setCancel { c with phase := .closed } with
      graph := overwrite s.graph read now
      locks := s.locks.release (.cancel c.id) }
  else s

/-- The provider's answer to a cancel; the local simulator makes up its own. -/
def cancelAnswer (s : DispatchRace) (c : CancelRequest) (expectedVersion : Nat)
    (localAnswer run : ProviderRun) : DispatchRace :=
  if s.connection.kind = .local then
    s.setCancel { c with phase := .answered expectedVersion localAnswer }
  else if Reported s.connection.kind run then
    s.setCancel { c with phase := .answered expectedVersion run }
  else s

/-- The SELECT ... FOR UPDATE of the last transaction of `_refresh_provider_run`. -/
def cancelLock (s : DispatchRace) (c : CancelRequest) (expectedVersion : Nat) (run : ProviderRun) :
    DispatchRace :=
  if s.locks.Available .run (.cancel c.id) then
    { s.setCancel { c with phase := .runLocked expectedVersion run } with
      locks := s.locks.take .run (.cancel c.id) }
  else s

/-- The end of a cancel's transaction. -/
def closeCancel (s : DispatchRace) (c : CancelRequest) (graph : RunGraph) : DispatchRace :=
  { s.setCancel { c with phase := .closed } with graph, locks := s.locks.release (.cancel c.id) }

/-- A statement of a cancel; it does nothing when it is not its turn. -/
def cancelStep (s : DispatchRace) (c : CancelRequest) : CancelStatement → DispatchRace
  | .readIntent => match c.phase with
    | .runRead read => s.cancelIntent c read
    | _ => s
  | .updateRun => match c.phase with
    | .writing _ => s.update c .run
    | _ => s
  | .updateIntent => match c.phase with
    | .writing _ => s.update c .intent
    | _ => s
  | .commit now => match c.phase with
    | .writing read => s.cancelCommit c read now
    | _ => s
  | .answer run => match c.phase with
    | .asking expectedVersion localAnswer => s.cancelAnswer c expectedVersion localAnswer run
    | _ => s
  | .lockRun => match c.phase with
    | .answered expectedVersion run => s.cancelLock c expectedVersion run
    | _ => s
  | .apply now => match c.phase with
    | .runLocked expectedVersion run =>
      s.closeCancel c (s.graph.commitRefresh expectedVersion run now)
    | _ => s
  | .crash => s.closeCancel c s.graph

/-! ## All of them -/

/-- The COMMIT of `update_connection`, which keeps a connection's kind and counts
its version from what it has read. -/
def commitEdit (s : DispatchRace) (read edited : ProviderConnectionRecord) (pending : Nat) :
    DispatchRace :=
  { s with
    connection := { edited with
      id := s.connection.id
      kind := s.connection.kind
      version := read.version + 1 }
    edits := s.edits.eraseIdx pending }

/-- One statement, of whichever of the calls; one that is not due changes nothing. -/
def step (s : DispatchRace) : RaceEvent → DispatchRace
  | .claimIntent workerId leaseToken leaseSeconds now =>
    s.claimIntent workerId leaseToken leaseSeconds now
  | .attempt id statement => match s.attempts.get? id with
    | some a => s.attemptStep a statement
    | none => s
  | .cancelRun => s.cancelRun
  | .cancel id statement => match s.cancels.get? id with
    | some c => s.cancelStep c statement
    | none => s
  | .readConnection => { s with edits := s.edits ++ [s.connection] }
  | .commitEdit pending edited => match s.edits[pending]? with
    | some read => s.commitEdit read edited pending
    | none => s

/-! ## A small installation -/

/-- A trigger of a connection to the CI Lab. -/
def lessonRace : DispatchRace :=
  start
    { id := 0, name := "CI Lab", kind := .learningCi, baseUrl := none,
      definitionRef := "local-smoke"
      config := [], secretEnvVar := some ciLabProviderSecretName
      webhookSecretEnvVar := some ciLabWebhookSecretName, enabled := true, version := 0
      createdAt := 0, updatedAt := 0 }
    ⟨"local-smoke", some "main", [], "lesson"⟩ ⟨""⟩ none 1

/-- A whole claim, of attempt `id`. -/
def lessonClaim (id : Uuid) (token : String) (now : Instant) : List RaceEvent :=
  [.claimIntent "dispatcher" token 30 now, .attempt id .claimRun, .attempt id .claimConnection,
    .attempt id .claimCommit]

/-- The comparison of versions and the call of the provider. -/
def lessonCall (id : Uuid) (result : CallResult) : List RaceEvent :=
  [.attempt id .checkVersion, .attempt id (.callTrigger result "")]

/-- The statements that settle an attempt. -/
def lessonSettle (id : Uuid) (now : Instant) : List RaceEvent :=
  [.attempt id .settleIntent, .attempt id .settleRun, .attempt id (.settleCommit now)]

/-- The reads of a cancel before dispatch. -/
def lessonRead (id : Uuid) : List RaceEvent := [.cancelRun, .cancel id .readIntent]

/-- Its writes. -/
def lessonWrite (id : Uuid) (now : Instant) : List RaceEvent :=
  [.cancel id .updateRun, .cancel id .updateIntent, .cancel id (.commit now)]

/-- A trigger that the CI Lab takes. -/
def lessonAccepted : CallResult := .accepted (ProviderSystem.lessonRun .queued .notRequired 0)

end DispatchRace

end QaPlatform.Runtime
