import QaPlatform.Runtime.DispatchRaces
import QaPlatform.Runtime.ProviderCoherence

/-!
# Triggers, statement by statement

Any number of `trigger_provider` calls as PostgreSQL sees them under READ
COMMITTED. A call looks for an earlier run without a lock and inserts its own rows
later, so that first calls with one correlation id race for the unique
constraints. An INSERT of a key that another transaction has inserted and not
committed waits for that transaction; one of a committed key is refused. What
dispatchers, pollers, webhooks and edits of connections do is seen when it is
committed.
-/

namespace QaPlatform.Runtime

open Pipeline

/-- What a call has worked out when it looks for an earlier run. -/
structure PreparedTrigger where
  connection : ProviderConnectionRecord
  request : ProviderTriggerRequest
  fingerprint : Digest Json

/-- The columns of `uq_provider_runs_correlation`, and those of
`uq_provider_trigger_intents_idempotency`. -/
def PreparedTrigger.key (p : PreparedTrigger) : Uuid × String :=
  (p.connection.id, p.request.correlationId)

/-- The columns of the unique constraint on runs. -/
def RunGraph.runKey (g : RunGraph) : Uuid × String := (g.run.connectionId, g.run.correlationId)

/-- The columns of the unique constraint on intents. -/
def RunGraph.intentKey (g : RunGraph) : Uuid × String :=
  (g.intent.connectionId, g.intent.idempotencyKey)

/-- Where a `trigger_provider` stands. -/
inductive TriggerPhase where
  | begun
  /-- The connection was read and the request built. -/
  | prepared (p : PreparedTrigger)
  /-- No earlier run was found. -/
  | looked (p : PreparedTrigger)
  | runInserted (p : PreparedTrigger)
  | intentInserted (p : PreparedTrigger)
  | returned (p : PreparedTrigger) (run : ProviderRunRecord)
  | raised (error : DomainError)
  /-- The process died, or the transaction was aborted. -/
  | aborted

namespace TriggerPhase

/-- What the call works with. -/
def working : TriggerPhase → Option PreparedTrigger
  | .prepared p | .looked p | .runInserted p | .intentInserted p | .returned p _ => some p
  | .begun | .raised _ | .aborted => none

/-- The INSERT of a run that is not committed. -/
def pendingRun : TriggerPhase → Option PreparedTrigger
  | .runInserted p | .intentInserted p => some p
  | .begun | .prepared _ | .looked _ | .returned .. | .raised _ | .aborted => none

/-- The INSERT of an intent that is not committed. -/
def pendingIntent : TriggerPhase → Option PreparedTrigger
  | .intentInserted p => some p
  | .begun | .prepared _ | .looked _ | .runInserted _ | .returned .. | .raised _ | .aborted => none

end TriggerPhase

/-- A `trigger_provider` at work; `generated` is what it would draw as a correlation id. -/
structure TriggerTx where
  id : Uuid
  connectionId : Uuid
  payload : ProviderTriggerPayload
  actor : Option RunGraph.Actor
  generated : String
  now : Instant
  phase : TriggerPhase

instance : Keyed TriggerTx := ⟨TriggerTx.id⟩

@[simp] theorem TriggerTx.key_eq (t : TriggerTx) : Keyed.key t = t.id := rfl

/-- `correlation_id` of the request of a call. -/
def TriggerTx.correlationId (t : TriggerTx) : String := t.payload.correlationId.getD t.generated

/-- A statement of `trigger_provider`. -/
inductive TriggerStatement where
  | readConnection
  | findPrevious
  | insertRun
  | insertIntent
  | commit
  | crash

/-- A call begins or gets on, or something else happens to the platform. -/
inductive TriggerRaceEvent where
  | start (connectionId : Uuid) (payload : ProviderTriggerPayload) (actor : Option RunGraph.Actor)
      (generated : String) (now : Instant)
  | call (id : Uuid) (statement : TriggerStatement)
  /-- Another transaction of the platform commits. -/
  | other (e : ProviderEvent)
  /-- The COMMIT of an edit, which read the connection some time ago. -/
  | edit (edited : ProviderConnectionRecord)
  /-- The COMMIT of a cancel before dispatch, which read the run some time ago. -/
  | cancel (runId : Uuid) (read : ProviderRunRecord) (now : Instant)

/-- The committed rows and the calls at work on them. -/
structure TriggerRace where
  system : ProviderSystem
  calls : Table TriggerTx

namespace ProviderStore

/-- `trigger_provider` from the SELECT of the connection to the fingerprint. -/
def prepareTrigger (safety : RuntimeSafetyConfig) (s : ProviderStore) (connectionId : Uuid)
    (payload : ProviderTriggerPayload) (generated : String) :
    Except DomainError PreparedTrigger := do
  let c ← s.requireConnection connectionId
  refuse (¬ c.enabled) (.authorization "该 provider 连接未开启")
  validateProviderDispatchBoundary safety c.kind
  if c.kind = .learningCi then
    payload.validateLearningCiContract.mapError fun error =>
      .businessValidation ("Learning CI 触发参数无效：" ++ error)
  let request : ProviderTriggerRequest :=
    { definitionRef := c.definitionRef, ref := payload.ref
      triggerVariables := payload.triggerVariables
      correlationId := payload.correlationId.getD generated }
  refuse (¬ requestValid request) .schema
  let fingerprint ← jsonFingerprint (requestJson request)
  return ⟨c, request, fingerprint⟩

/-- The SELECT of an earlier run. -/
def findTriggered (s : ProviderStore) (p : PreparedTrigger) (requested : Option String) :
    Option RunGraph :=
  requested.bind fun correlationId => s.graphs.rows.find? fun g =>
    g.run.connectionId = p.connection.id ∧ g.run.correlationId = correlationId

end ProviderStore

namespace TriggerRace

/-- Nothing is stored, and nobody triggers. -/
def empty : TriggerRace := ⟨ProviderSystem.empty, Table.empty⟩

/-- What is stored. -/
abbrev store (s : TriggerRace) : ProviderStore := s.system.store

/-- What is stored has changed. -/
def setStore (s : TriggerRace) (store : ProviderStore) : TriggerRace :=
  { s with system := { s.system with store } }

/-- A call has got on. -/
def setPhase (s : TriggerRace) (t : TriggerTx) (phase : TriggerPhase) : TriggerRace :=
  { s with calls := s.calls.put { t with phase } }

/-- The SELECT of the connection, and what the call makes of it. -/
def readConnection (safety : RuntimeSafetyConfig) (s : TriggerRace) (t : TriggerTx) : TriggerRace :=
  match s.store.prepareTrigger safety t.connectionId t.payload t.generated with
  | .ok p => s.setPhase t (.prepared p)
  | .error error => s.setPhase t (.raised error)

/-- The SELECT of an earlier run; one that is found ends the call. -/
def findPrevious (s : TriggerRace) (t : TriggerTx) (p : PreparedTrigger) : TriggerRace :=
  match s.store.findTriggered p t.payload.correlationId with
  | some previous =>
    if previous.run.requestFingerprint ≠ p.fingerprint then
      s.setPhase t (.raised (.conflict "correlation_id 已用于不同的触发参数"))
    else s.setPhase t (.returned p previous.run)
  | none => s.setPhase t (.looked p)

/-- The INSERT of the run; the key of a deleted connection refers to nothing. -/
def insertRun (s : TriggerRace) (t : TriggerTx) (p : PreparedTrigger) : TriggerRace :=
  if s.store.graphs.rows.any (·.runKey = p.key) ∨ (s.store.connections.get? p.connection.id).isNone
  then s.setPhase t (.raised .integrity)
  else if s.calls.rows.any (·.phase.pendingRun.any (·.key = p.key)) then s
  else s.setPhase t (.runInserted p)

/-- The INSERT of the intent. -/
def insertIntent (s : TriggerRace) (t : TriggerTx) (p : PreparedTrigger) : TriggerRace :=
  if s.store.graphs.rows.any (·.intentKey = p.key) then s.setPhase t (.raised .integrity)
  else if s.calls.rows.any (·.phase.pendingIntent.any (·.key = p.key)) then s
  else s.setPhase t (.intentInserted p)

/-- The rows of a call under their identifier. -/
def rowsOf (t : TriggerTx) (p : PreparedTrigger) (id : Uuid) : RunGraph :=
  ProviderStore.triggeredGraph p.connection p.request p.fingerprint t.actor t.now id

/-- The COMMIT of both rows. -/
def commit (s : TriggerRace) (t : TriggerTx) (p : PreparedTrigger) : TriggerRace :=
  (s.setStore { s.store with graphs := s.store.graphs.add (rowsOf t p) }).setPhase t
    (.returned p (rowsOf t p s.store.graphs.next).run)

/-- A statement of a call; it does nothing when it is not its turn. -/
def execute (safety : RuntimeSafetyConfig) (s : TriggerRace) (t : TriggerTx) :
    TriggerStatement → TriggerRace
  | .readConnection => match t.phase with
    | .begun => s.readConnection safety t
    | _ => s
  | .findPrevious => match t.phase with
    | .prepared p => s.findPrevious t p
    | _ => s
  | .insertRun => match t.phase with
    | .looked p => s.insertRun t p
    | _ => s
  | .insertIntent => match t.phase with
    | .runInserted p => s.insertIntent t p
    | _ => s
  | .commit => match t.phase with
    | .intentInserted p => s.commit t p
    | _ => s
  | .crash => match t.phase with
    | .returned .. | .raised _ => s
    | _ => s.setPhase t .aborted

/-- A transaction other than a trigger. The DELETE of a connection waits for the
calls that have inserted a run of it. -/
def others (safety : RuntimeSafetyConfig) (s : TriggerRace) : ProviderEvent → TriggerRace
  | .triggerProvider .. => s
  | .deleteConnection connectionId =>
    if s.calls.rows.any (·.phase.pendingRun.any (·.connection.id = connectionId)) then s
    else { s with system := s.system.step safety (.deleteConnection connectionId) }
  | e => { s with system := s.system.step safety e }

/-- One event; a statement that is not due changes nothing. -/
def step (safety : RuntimeSafetyConfig) (s : TriggerRace) : TriggerRaceEvent → TriggerRace
  | .start connectionId payload actor generated now =>
    { s with calls := s.calls.add fun id =>
        { id, connectionId, payload, actor, generated, now, phase := .begun } }
  | .call id statement => match s.calls.get? id with
    | some t => s.execute safety t statement
    | none => s
  | .other e => s.others safety e
  | .edit edited => s.setStore { s.store with connections := s.store.connections.put edited }
  | .cancel runId read now => match s.store.graphs.get? runId with
    | some g =>
      s.setStore { s.store with graphs := s.store.graphs.put (DispatchRace.overwrite g read now) }
    | none => s

end TriggerRace

/-! ## What a run keeps of its trigger -/

namespace ProviderRunRecord

theorem applyProviderRunSnapshot_requestFingerprint (record : ProviderRunRecord)
    (run : ProviderRun) (source : SnapshotSource) (now : Instant) :
    (record.applyProviderRunSnapshot run source now).requestFingerprint
      = record.requestFingerprint := by
  rcases record.applyProviderRunSnapshot_cases run source now with
    ⟨-, h | h⟩ | ⟨-, -, -, h⟩ | ⟨-, -, h⟩
  · rw [h]
  · rw [h]
    rfl
  · rw [h]
    rfl
  · rw [h]

theorem reduceWebhook_requestFingerprint (record : ProviderRunRecord)
    (payload : ProviderWebhookPayload) (now : Instant) :
    (record.reduceWebhook payload now).1.requestFingerprint = record.requestFingerprint := by
  rcases record.reduceWebhook_cases payload now with h | ⟨-, h⟩ | ⟨-, -, -, h⟩
  · rw [h]
  · rw [h]
    rfl
  · rw [h]

end ProviderRunRecord

namespace RunGraph

/-- The rows are still those of the same trigger. -/
structure SameTrigger (g g' : RunGraph) : Prop where
  runKey : g'.runKey = g.runKey
  intentKey : g'.intentKey = g.intentKey
  requestFingerprint : g'.run.requestFingerprint = g.run.requestFingerprint

theorem SameTrigger.refl (g : RunGraph) : g.SameTrigger g := ⟨rfl, rfl, rfl⟩

theorem finalizeRun_requestFingerprint (record : ProviderRunRecord) (run : ProviderRun)
    (now : Instant) :
    (finalizeRun record run now).requestFingerprint = record.requestFingerprint := by
  rcases finalizeRun_cases record run now with ⟨-, _, h⟩ | ⟨-, h⟩
  · rw [h]
  · rw [h, ProviderRunRecord.applyProviderRunSnapshot_requestFingerprint]

theorem move_requestFingerprint (g : RunGraph) (mv : Move) :
    (g.move mv).run.requestFingerprint = g.run.requestFingerprint := by
  cases mv with
  | claim workerId token leaseSeconds now =>
    rw [move_claim]
    split
    · rfl
    · rfl
  | finalize token run now =>
    rcases g.move_finalize token run now with ⟨h, -⟩ | ⟨-, -, h⟩
    · rw [h]
    · rw [h]
      exact finalizeRun_requestFingerprint g.run run now
  | settleFailure token errorCode retryable now =>
    rcases g.move_settleFailure token errorCode retryable now with h | ⟨-, -, h⟩ | ⟨-, -, h⟩
    · rw [h]
    · rw [h]
    · rw [h]
      rfl
  | cancelBeforeDispatch now =>
    rw [move_cancelBeforeDispatch]
    split
    · rfl
    · rfl
  | commitRefresh expectedVersion run now =>
    rw [move_commitRefresh]
    split
    · rfl
    · exact g.run.applyProviderRunSnapshot_requestFingerprint run .poll now
  | commitDecision payload actor expectedVersion run now =>
    rcases g.move_commitDecision payload actor expectedVersion run now with
      ⟨h, -⟩ | ⟨-, -, _, -, -, -, h⟩
    · rw [h]
    · rw [h]
      exact g.run.applyProviderRunSnapshot_requestFingerprint run .gateDecision now
  | webhook payload now =>
    rcases g.move_webhook payload now with ⟨h, -⟩ | ⟨-, -, h⟩
    · rw [h]
    · rw [h]
      refine (ProviderRunRecord.reduceWebhook_requestFingerprint _ payload now).trans ?_
      unfold ProviderRunRecord.bindExternal
      split
      · rfl
      · rfl

theorem move_idempotencyKey (g : RunGraph) (mv : Move) :
    (g.move mv).intent.idempotencyKey = g.intent.idempotencyKey := by
  have hstep := g.intentStep mv
  generalize (g.move mv).intent = intent at hstep ⊢
  cases hstep with
  | same => rfl
  | claimed => rfl
  | succeeded => rfl
  | failed => rfl
  | cancelled => rfl

theorem sameTrigger_move (g : RunGraph) (mv : Move) : g.SameTrigger (g.move mv) where
  runKey := Prod.ext (g.extends_move mv).connectionId (g.extends_move mv).correlationId
  intentKey := Prod.ext (g.extends_move mv).intentConnectionId (g.move_idempotencyKey mv)
  requestFingerprint := g.move_requestFingerprint mv

end RunGraph

namespace ProviderStore

/-- The runs are still the same ones. -/
def SameRuns (s s' : ProviderStore) : Prop :=
  ∀ k, s'.graphs.get? k = s.graphs.get? k
    ∨ ∃ g g', s.graphs.get? k = some g ∧ s'.graphs.get? k = some g' ∧ g.SameTrigger g'

variable {s s' : ProviderStore} {k : Uuid} {g g' : RunGraph}

theorem SameRuns.refl (s : ProviderStore) : s.SameRuns s := fun _ => .inl rfl

theorem SameRuns.of_put (hg : s.graphs.get? k = some g) (hid : g'.run.id = g.run.id)
    (hsame : g.SameTrigger g') {connections : Table ProviderConnectionRecord}
    {receipts : Table ProviderWebhookEventRecord} :
    s.SameRuns ⟨connections, s.graphs.put g', receipts⟩ := by
  intro k'
  have hk : key g' = k := hid.trans (Table.key_of_get? hg)
  by_cases hkk : k = k'
  · subst hkk
    exact .inr ⟨g, g', hg, Table.get?_put_self hg hk, hsame⟩
  · exact .inl (Table.get?_put_of_ne (by rw [hk]; exact hkk))

theorem SameRuns.forward (h : s.SameRuns s') (hg : s.graphs.get? k = some g) :
    ∃ g', s'.graphs.get? k = some g' ∧ g.SameTrigger g' := by
  rcases h k with hsame | ⟨g₀, g', hg₀, hg', htrigger⟩
  · exact ⟨g, hsame.trans hg, .refl g⟩
  · obtain rfl := Option.some.inj (hg.symm.trans hg₀)
    exact ⟨g', hg', htrigger⟩

theorem SameRuns.backward (h : s.SameRuns s') (hg' : s'.graphs.get? k = some g') :
    ∃ g, s.graphs.get? k = some g ∧ g.SameTrigger g' := by
  rcases h k with hsame | ⟨g, g₀, hg, hg₀, htrigger⟩
  · exact ⟨g', hsame ▸ hg', .refl g'⟩
  · obtain rfl := Option.some.inj (hg'.symm.trans hg₀)
    exact ⟨g, hg, htrigger⟩

end ProviderStore

/-- No other transaction adds a run or takes one away. -/
theorem ProviderSystem.sameRuns_step (safety : RuntimeSafetyConfig) (s : ProviderSystem)
    {e : ProviderEvent}
    (h : ∀ connectionId payload actor generated now,
      e ≠ .triggerProvider connectionId payload actor generated now) :
    s.store.SameRuns (ProviderSystem.step safety s e).store := by
  have hstep := storeStep safety s e
  generalize (ProviderSystem.step safety s e).store = store' at hstep
  cases hstep with
  | idle => exact .refl _
  | created => exact .refl _
  | updated => exact .refl _
  | deleted => exact .refl _
  | triggered connectionId payload actor generated now => exact absurd rfl (h _ _ _ _ _)
  | moved e k mv g hmove hg hnot => exact .of_put hg (g.move_id mv) (g.sameTrigger_move mv)
  | received connectionId eventId body payload now c g f hf hc hkind htarget hg =>
    exact .of_put hg (g.move_id _) (g.sameTrigger_move _)

end QaPlatform.Runtime
