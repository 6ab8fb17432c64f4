import QaPlatform.Runtime.ProviderSystem

/-!
# What a step can do to a run

One inversion lemma for each transaction, and from these the two facts that all
later invariants start from: a step leaves the rows of an existing run alone or
makes the one move that `moveOf` names, and a run that a step creates is a
freshly triggered one.
-/

namespace QaPlatform.Runtime

open Pipeline

namespace RunGraph

variable {g g' : RunGraph}

theorem requireProviderIntentLease_eq_ok {intent : ProviderTriggerIntentRecord} {token : String}
    {u : Unit} : requireProviderIntentLease intent token = .ok u
      ↔ intent.status = .claimed ∧ intent.leaseTokenHash = some (tokenHash token) := by
  simp [requireProviderIntentLease]

theorem finalize_eq_ok {token : String} {run : ProviderRun} {now : Instant} :
    g.finalize token run now = .ok g' ↔
      (g.intent.status = .claimed ∧ g.intent.leaseTokenHash = some (tokenHash token))
      ∧ g' = { g with intent := succeedIntent g.intent now, run := finalizeRun g.run run now } := by
  unfold finalize
  simp only [bind_eq_ok, requireProviderIntentLease_eq_ok, pure_eq_ok, exists_const,
    eq_comm (a := g')]

theorem settleFailure_eq_ok {token errorCode : String} {retryable : Bool} {now : Instant} :
    g.settleFailure token errorCode retryable now = .ok g' ↔
      (g.intent.status = .claimed ∧ g.intent.leaseTokenHash = some (tokenHash token))
      ∧ g' = if CalledBack g.run then
          { g with
            intent := succeedIntent g.intent now
            run := { g.run with
              dispatchStatus := .dispatched
              updatedAt := now
              version := g.run.version + 1 } }
        else
          { g with
            intent := failIntent g.intent errorCode retryable now
            run := failRun g.run (retryable ∧ g.intent.attempts < g.intent.maxAttempts) retryable
              now } := by
  unfold settleFailure
  simp only [bind_eq_ok, requireProviderIntentLease_eq_ok, exists_const]
  refine and_congr_right fun _ => ?_
  split
  · simp only [pure_eq_ok, eq_comm (a := g')]
  · simp only [pure_eq_ok, eq_comm (a := g')]

theorem commitDecision_eq_ok {payload : ProviderRunApprovalPayload} {actor : Option Actor}
    {expectedVersion : Nat} {run : ProviderRun} {now : Instant} :
    g.commitDecision payload actor expectedVersion run now = .ok g' ↔
      (∃ previous ∈ g.approval, previous.eventId = payload.eventId
        ∧ previous.requestFingerprint = ⟨decisionRequest payload actor⟩ ∧ g' = g)
      ∨ (g.approval = none ∧ g.run.version = expectedVersion
        ∧ g' = { g with
            approval := some {
              eventId := payload.eventId
              decision := payload.decision
              requestFingerprint := ⟨decisionRequest payload actor⟩
              actorUserId := (decisionRequest payload actor).actorUserId
              actorName := (decisionRequest payload actor).actorName
              comment := (decisionRequest payload actor).comment
              createdAt := now }
            run := g.run.applyProviderRunSnapshot run .gateDecision now }) := by
  unfold commitDecision
  cases ha : g.approval with
  | none =>
    simp only [Option.filter_none, refuse_bind_eq_ok, pure_eq_ok, eq_comm (a := g')]
    simp
  | some previous =>
    by_cases he : previous.eventId = payload.eventId
    · simp only [Option.filter, he, decide_true, if_true, refuse_bind_eq_ok, pure_eq_ok,
        eq_comm (a := g')]
      simp [he]
    · simp only [Option.filter, he, decide_false, Bool.false_eq_true, if_false, refuse_bind_eq_ok]
      simp [he]

theorem webhook_eq_ok {payload : ProviderWebhookPayload} {now : Instant} {r : WebhookResult} :
    g.webhook payload now = .ok (g', r) ↔
      ¬ g.run.externalId.any (· ≠ payload.externalId)
      ∧ g.run.correlationId = payload.correlationId
      ∧ g'
      = { g with run := ((g.run.bindExternal payload.externalId now).reduceWebhook payload now).1 }
      ∧ r = ((g.run.bindExternal payload.externalId now).reduceWebhook payload now).2 := by
  have hcorr : (g.run.bindExternal payload.externalId now).correlationId = g.run.correlationId := by
    unfold ProviderRunRecord.bindExternal
    split
    · rfl
    · rfl
  unfold webhook
  simp only [refuse_bind_eq_ok, pure_eq_ok, Prod.mk.injEq, hcorr, ne_eq, not_not,
    eq_comm (a := g'), eq_comm (a := r)]

theorem bindExternal_id (record : ProviderRunRecord) (externalId : String) (now : Instant) :
    (record.bindExternal externalId now).id = record.id := by
  unfold ProviderRunRecord.bindExternal
  split
  · rfl
  · rfl

end RunGraph

namespace ProviderRunRecord

/-- Binding an identity touches nothing that an event is judged by. -/
theorem bindExternal_same (record : ProviderRunRecord) (externalId : String) (now : Instant) :
    (record.bindExternal externalId now).status = record.status
    ∧ (record.bindExternal externalId now).qualityGateStatus = record.qualityGateStatus
    ∧ (record.bindExternal externalId now).lastProviderSequence = record.lastProviderSequence
    ∧ (record.bindExternal externalId now).lastProviderOccurredAt
      = record.lastProviderOccurredAt := by
  unfold bindExternal
  split
  · exact ⟨rfl, rfl, rfl, rfl⟩
  · exact ⟨rfl, rfl, rfl, rfl⟩

/-- A snapshot is refused for the gate's sake, refused because the run has ended
otherwise, or taken over. -/
theorem applyProviderRunSnapshot_cases (record : ProviderRunRecord) (run : ProviderRun)
    (source : SnapshotSource) (now : Instant) :
    (record.GateGuard run source
      ∧ (record.applyProviderRunSnapshot run source now = record
        ∨ record.applyProviderRunSnapshot run source now = record.requireReconciliation now))
    ∨ (¬ record.GateGuard run source ∧ record.status.Terminal ∧ run.status ≠ record.status
      ∧ record.applyProviderRunSnapshot run source now = record.requireReconciliation now)
    ∨ (¬ record.GateGuard run source ∧ (record.status.Terminal → run.status = record.status)
      ∧ record.applyProviderRunSnapshot run source now = { record with
          externalId := some run.externalId
          status := run.status
          rawStatus := run.rawStatus
          webUrl := run.webUrl
          message := run.message
          runMetadata := run.metadata
          lastProviderSequence := record.snapshotSequence run
          qualityGateStatus := record.snapshotGate run
          reconciliationRequired :=
            if source = .poll ∨ source = .gateDecision then false
            else record.reconciliationRequired
          updatedAt := now
          version := record.version + 1 }) := by
  unfold applyProviderRunSnapshot
  by_cases hguard : record.GateGuard run source
  · left
    rw [if_pos hguard]
    refine ⟨hguard, ?_⟩
    split
    · exact .inl rfl
    · exact .inr rfl
  · right
    rw [if_neg hguard]
    by_cases hterm : record.status.Terminal ∧ run.status ≠ record.status
    · left
      rw [if_pos hterm]
      exact ⟨hguard, hterm.1, hterm.2, rfl⟩
    · right
      rw [if_neg hterm]
      exact ⟨hguard, fun ht => not_not.mp fun hne => hterm ⟨ht, hne⟩, rfl⟩

/-- An event is stale, asks for a reconciliation, or is the next one and applied. -/
theorem reduceWebhook_cases (record : ProviderRunRecord) (payload : ProviderWebhookPayload)
    (now : Instant) :
    (record.reduceWebhook payload now).1 = record
    ∨ (record.lastProviderSequence < payload.sequence
      ∧ (record.reduceWebhook payload now).1 = record.requireReconciliation now)
    ∨ (payload.sequence = record.lastProviderSequence + 1
      ∧ ¬ record.lastProviderOccurredAt.any (payload.occurredAt < ·)
      ∧ ¬ record.WebhookRefused payload.status
      ∧ (record.reduceWebhook payload now).1 = { record with
          status := nextLocal payload.status
          rawStatus := payload.status.text
          message := payload.message
          qualityGateStatus := record.webhookGate payload.status
          updatedAt := now
          version := record.version + 1
          lastProviderSequence := payload.sequence
          lastProviderOccurredAt := some payload.occurredAt
          reconciliationRequired := false }) := by
  unfold reduceWebhook
  split
  · exact .inl rfl
  next hnew =>
  have hlt : record.lastProviderSequence < payload.sequence := by omega
  split
  · exact .inr (.inl ⟨hlt, rfl⟩)
  next hseq =>
  split
  · exact .inr (.inl ⟨hlt, rfl⟩)
  next htime =>
  unfold applyWebhookSnapshot
  by_cases hrefused : record.WebhookRefused payload.status
  · rw [if_pos hrefused]
    exact .inr (.inl ⟨hlt, rfl⟩)
  · rw [if_neg hrefused]
    exact .inr (.inr ⟨not_not.mp hseq, htime, hrefused, rfl⟩)

theorem applyProviderRunSnapshot_id (record : ProviderRunRecord) (run : ProviderRun)
    (source : SnapshotSource) (now : Instant) :
    (record.applyProviderRunSnapshot run source now).id = record.id := by
  rcases record.applyProviderRunSnapshot_cases run source now with
    ⟨-, h | h⟩ | ⟨-, -, -, h⟩ | ⟨-, -, h⟩
  · rw [h]
  · rw [h]
    rfl
  · rw [h]
    rfl
  · rw [h]

theorem reduceWebhook_id (record : ProviderRunRecord) (payload : ProviderWebhookPayload)
    (now : Instant) : (record.reduceWebhook payload now).1.id = record.id := by
  rcases record.reduceWebhook_cases payload now with h | ⟨-, h⟩ | ⟨-, -, -, h⟩
  · rw [h]
  · rw [h]
    rfl
  · rw [h]

end ProviderRunRecord

namespace RunGraph

theorem move_claim (g : RunGraph) (workerId token : String) (leaseSeconds : Int) (now : Instant) :
    g.move (.claim workerId token leaseSeconds now)
      = if Claimable g.intent now then g.claim workerId token leaseSeconds now else g := rfl

theorem move_cancelBeforeDispatch (g : RunGraph) (now : Instant) :
    g.move (.cancelBeforeDispatch now) = if g.Undispatched then g.cancelBeforeDispatch now else g :=
  rfl

theorem move_commitRefresh (g : RunGraph) (expectedVersion : Nat) (run : ProviderRun)
    (now : Instant) : g.move (.commitRefresh expectedVersion run now)
      = if g.run.version ≠ expectedVersion then g
        else { g with run := g.run.applyProviderRunSnapshot run .poll now } := rfl

/-- A settlement is made by the holder of the lease only. -/
theorem move_finalize (g : RunGraph) (token : String) (run : ProviderRun) (now : Instant) :
    (g.move (.finalize token run now) = g
      ∧ ¬ (g.intent.status = .claimed ∧ g.intent.leaseTokenHash = some (tokenHash token)))
    ∨ (g.intent.status = .claimed ∧ g.intent.leaseTokenHash = some (tokenHash token)
      ∧ g.move (.finalize token run now)
        = { g with intent := succeedIntent g.intent now, run := finalizeRun g.run run now }) := by
  show ((g.finalize token run now).toOption.getD g = g ∧ _) ∨ _
  cases h : g.finalize token run now with
  | error e =>
    left
    refine ⟨rfl, fun hlease => ?_⟩
    have hok : g.finalize token run now = .ok { g with
        intent := succeedIntent g.intent now
        run := finalizeRun g.run run now } := finalize_eq_ok.mpr ⟨hlease, rfl⟩
    rw [h] at hok
    simp at hok
  | ok g' =>
    right
    obtain ⟨⟨hclaimed, htoken⟩, rfl⟩ := finalize_eq_ok.mp h
    exact ⟨hclaimed, htoken, by simp [move, h, Except.toOption]⟩

theorem move_settleFailure (g : RunGraph) (token errorCode : String) (retryable : Bool)
    (now : Instant) :
    g.move (.settleFailure token errorCode retryable now) = g
    ∨ (g.intent.status = .claimed ∧ CalledBack g.run
      ∧ g.move (.settleFailure token errorCode retryable now)
        = { g with
            intent := succeedIntent g.intent now
            run := { g.run with
              dispatchStatus := .dispatched
              updatedAt := now
              version := g.run.version + 1 } })
    ∨ (g.intent.status = .claimed ∧ ¬ CalledBack g.run
      ∧ g.move (.settleFailure token errorCode retryable now)
        = { g with
            intent := failIntent g.intent errorCode retryable now
            run := failRun g.run (retryable ∧ g.intent.attempts < g.intent.maxAttempts) retryable
              now }) := by
  cases h : g.settleFailure token errorCode retryable now with
  | error e => exact .inl (by simp [move, h, Except.toOption])
  | ok g' =>
    right
    obtain ⟨⟨hclaimed, -⟩, hg'⟩ := settleFailure_eq_ok.mp h
    have hmove : g.move (.settleFailure token errorCode retryable now) = g' := by
      simp [move, h, Except.toOption]
    by_cases hcb : CalledBack g.run
    · rw [if_pos hcb] at hg'
      exact .inl ⟨hclaimed, hcb, hmove.trans hg'⟩
    · rw [if_neg hcb] at hg'
      exact .inr ⟨hclaimed, hcb, hmove.trans hg'⟩

theorem move_commitDecision (g : RunGraph) (payload : ProviderRunApprovalPayload)
    (actor : Option Actor) (expectedVersion : Nat) (run : ProviderRun) (now : Instant) :
    (g.move (.commitDecision payload actor expectedVersion run now) = g
      ∧ ¬ (g.approval = none ∧ g.run.version = expectedVersion))
    ∨ (g.approval = none ∧ g.run.version = expectedVersion
      ∧ (∃ approval, approval.eventId = payload.eventId ∧ approval.decision = payload.decision
        ∧ approval.requestFingerprint = ⟨decisionRequest payload actor⟩
        ∧ g.move (.commitDecision payload actor expectedVersion run now)
          = { g with
              approval := some approval
              run := g.run.applyProviderRunSnapshot run .gateDecision now })) := by
  cases h : g.commitDecision payload actor expectedVersion run now with
  | error e =>
    refine .inl ⟨by simp [move, h, Except.toOption], fun hfree => ?_⟩
    have hok := h.symm.trans (commitDecision_eq_ok.mpr (.inr ⟨hfree.1, hfree.2, rfl⟩))
    simp at hok
  | ok g' =>
    have hmove : g.move (.commitDecision payload actor expectedVersion run now) = g' := by
      simp [move, h, Except.toOption]
    rcases commitDecision_eq_ok.mp h with ⟨previous, hprevious, -, -, rfl⟩ | ⟨hnone, hversion, hg'⟩
    · refine .inl ⟨hmove, fun hfree => ?_⟩
      rw [hfree.1] at hprevious
      simp at hprevious
    · exact .inr ⟨hnone, hversion, _, rfl, rfl, rfl, hmove.trans hg'⟩

theorem move_webhook (g : RunGraph) (payload : ProviderWebhookPayload) (now : Instant) :
    (g.move (.webhook payload now) = g
      ∧ ¬ (¬ g.run.externalId.any (· ≠ payload.externalId)
        ∧ g.run.correlationId = payload.correlationId))
    ∨ (¬ g.run.externalId.any (· ≠ payload.externalId)
      ∧ g.run.correlationId = payload.correlationId
      ∧ g.move (.webhook payload now) = { g with
          run := ((g.run.bindExternal payload.externalId now).reduceWebhook payload now).1 }) := by
  cases h : g.webhook payload now with
  | error e =>
    refine .inl ⟨by simp [move, h, Except.toOption], fun hfits => ?_⟩
    have hok := h.symm.trans (webhook_eq_ok.mpr ⟨hfits.1, hfits.2, rfl, rfl⟩)
    simp at hok
  | ok p =>
    obtain ⟨g', r⟩ := p
    obtain ⟨hext, hcorr, hg', -⟩ := webhook_eq_ok.mp h
    exact .inr ⟨hext, hcorr, by simp [move, h, Except.toOption, hg']⟩

/-- A response is passed over for a newer callback or another identity, or it is
applied like a poll. -/
theorem finalizeRun_cases (record : ProviderRunRecord) (run : ProviderRun) (now : Instant) :
    ((WebhookSnapshotIsNewer record run ∨ ExternalIdentityConflicts record run)
      ∧ ∃ required, finalizeRun record run now = { record with
          dispatchStatus := .dispatched
          reconciliationRequired := required
          updatedAt := now
          version := record.version + 1 })
    ∨ (¬ (WebhookSnapshotIsNewer record run ∨ ExternalIdentityConflicts record run)
      ∧ finalizeRun record run now = { record with
          dispatchStatus := .dispatched
          reconciliationRequired := false }.applyProviderRunSnapshot run .dispatch now) := by
  by_cases h : WebhookSnapshotIsNewer record run ∨ ExternalIdentityConflicts record run
  · exact .inl ⟨h, _, if_pos h⟩
  · exact .inr ⟨h, if_neg h⟩

theorem finalizeRun_id (record : ProviderRunRecord) (run : ProviderRun) (now : Instant) :
    (finalizeRun record run now).id = record.id := by
  rcases finalizeRun_cases record run now with ⟨-, _, h⟩ | ⟨-, h⟩
  · rw [h]
  · rw [h, ProviderRunRecord.applyProviderRunSnapshot_id]

/-- A move stays on its run. -/
@[simp] theorem move_id (g : RunGraph) (mv : Move) : (g.move mv).run.id = g.run.id := by
  cases mv with
  | claim workerId leaseToken leaseSeconds now =>
    rw [move_claim]
    split
    · rfl
    · rfl
  | finalize token run now =>
    rcases g.move_finalize token run now with ⟨h, -⟩ | ⟨-, -, h⟩
    · rw [h]
    · rw [h]
      exact finalizeRun_id g.run run now
  | settleFailure token errorCode retryable now =>
    rcases g.move_settleFailure token errorCode retryable now with h | ⟨-, -, h⟩ | ⟨-, -, h⟩
    · rw [h]
    · rw [h]
    · rw [h]
      rfl
  | cancelBeforeDispatch now =>
    rw [move_cancelBeforeDispatch]
    split
    · rfl
    · rfl
  | commitRefresh expectedVersion run now =>
    rw [move_commitRefresh]
    split
    · rfl
    · exact g.run.applyProviderRunSnapshot_id run .poll now
  | commitDecision payload actor expectedVersion run now =>
    rcases g.move_commitDecision payload actor expectedVersion run now with
      ⟨h, -⟩ | ⟨-, -, _, -, -, -, h⟩
    · rw [h]
    · rw [h]
      exact g.run.applyProviderRunSnapshot_id run .gateDecision now
  | webhook payload now =>
    rcases g.move_webhook payload now with ⟨h, -⟩ | ⟨-, -, h⟩
    · rw [h]
    · rw [h]
      exact (ProviderRunRecord.reduceWebhook_id _ payload now).trans
        (bindExternal_id g.run payload.externalId now)

/-- The intent may still be dispatched. -/
def IntentOpen (intent : ProviderTriggerIntentRecord) : Prop :=
  intent.status = .pending ∨ intent.status = .claimed ∨ intent.status = .retryWait

theorem IntentOpen.ne_succeeded {intent : ProviderTriggerIntentRecord} (h : IntentOpen intent) :
    intent.status ≠ .succeeded := by
  rcases h with ho | ho | ho
  · simp [ho]
  · simp [ho]
  · simp [ho]

/-- A failed attempt is retried while attempts are left, or ends the intent. -/
theorem failIntent_status (intent : ProviderTriggerIntentRecord) (errorCode : String)
    (retryable : Bool) (now : Instant) :
    (retryable = true ∧ intent.attempts < intent.maxAttempts
      ∧ (failIntent intent errorCode retryable now).status = .retryWait)
    ∨ (failIntent intent errorCode retryable now).status = .unknown
    ∨ (failIntent intent errorCode retryable now).status = .failed := by
  unfold failIntent
  dsimp only
  by_cases hretry : retryable ∧ intent.attempts < intent.maxAttempts
  · exact .inl ⟨hretry.1, hretry.2, if_pos hretry⟩
  · rw [if_neg hretry]
    cases retryable with
    | true => exact .inr (.inl rfl)
    | false => exact .inr (.inr rfl)

/-- What a move does to the intent. -/
inductive IntentStep (g : RunGraph) : Move → ProviderTriggerIntentRecord → Prop
  | same (mv : Move) : IntentStep g mv g.intent
  | claimed (workerId token : String) (leaseSeconds : Int) (now : Instant)
      (hclaimable : Claimable g.intent now) :
      IntentStep g (.claim workerId token leaseSeconds now)
        (g.claim workerId token leaseSeconds now).intent
  | succeeded (mv : Move) (now : Instant) (hclaimed : g.intent.status = .claimed) :
      IntentStep g mv (succeedIntent g.intent now)
  | failed (token errorCode : String) (retryable : Bool) (now : Instant)
      (hclaimed : g.intent.status = .claimed) (hnot : ¬ CalledBack g.run) :
      IntentStep g (.settleFailure token errorCode retryable now)
        (failIntent g.intent errorCode retryable now)
  | cancelled (now : Instant) (hund : g.Undispatched) :
      IntentStep g (.cancelBeforeDispatch now) (g.cancelBeforeDispatch now).intent

theorem intentStep (g : RunGraph) (mv : Move) : IntentStep g mv (g.move mv).intent := by
  cases mv with
  | claim workerId token leaseSeconds now =>
    rw [move_claim]
    split
    · next hclaimable => exact .claimed workerId token leaseSeconds now hclaimable
    · exact .same _
  | finalize token run now =>
    rcases g.move_finalize token run now with ⟨h, -⟩ | ⟨hclaimed, -, h⟩
    · rw [h]
      exact .same _
    · rw [h]
      exact .succeeded _ now hclaimed
  | settleFailure token errorCode retryable now =>
    rcases g.move_settleFailure token errorCode retryable now with
      h | ⟨hclaimed, -, h⟩ | ⟨hclaimed, hnot, h⟩
    · rw [h]
      exact .same _
    · rw [h]
      exact .succeeded _ now hclaimed
    · rw [h]
      exact .failed token errorCode retryable now hclaimed hnot
  | cancelBeforeDispatch now =>
    rw [move_cancelBeforeDispatch]
    split
    · next hund => exact .cancelled now hund
    · exact .same _
  | commitRefresh expectedVersion run now =>
    rw [move_commitRefresh]
    split
    · exact .same _
    · exact .same _
  | commitDecision payload actor expectedVersion run now =>
    rcases g.move_commitDecision payload actor expectedVersion run now with
      ⟨h, -⟩ | ⟨-, -, _, -, -, -, h⟩
    · rw [h]
      exact .same _
    · rw [h]
      exact .same _
  | webhook payload now =>
    rcases g.move_webhook payload now with ⟨h, -⟩ | ⟨-, -, h⟩
    · rw [h]
      exact .same _
    · rw [h]
      exact .same _

/-- What no channel ever takes back of the rows of a run. -/
structure Extends (g g' : RunGraph) : Prop where
  connectionId : g'.run.connectionId = g.run.connectionId
  correlationId : g'.run.correlationId = g.run.correlationId
  triggeredByUserId : g'.run.triggeredByUserId = g.run.triggeredByUserId
  intentId : g'.intent.id = g.intent.id
  intentConnectionId : g'.intent.connectionId = g.intent.connectionId
  connectionVersion : g'.intent.connectionVersion = g.intent.connectionVersion
  maxAttempts : g'.intent.maxAttempts = g.intent.maxAttempts
  /-- A run keeps an external identity once it has one. -/
  identified : g.run.externalId.isSome → g'.run.externalId.isSome
  /-- An approval is immutable. -/
  approval : ∀ a, g.approval = some a → g'.approval = some a
  version : g.run.version ≤ g'.run.version

theorem Extends.refl (g : RunGraph) : g.Extends g :=
  ⟨rfl, rfl, rfl, rfl, rfl, rfl, rfl, id, fun _ => id, Nat.le_refl _⟩

theorem extends_applyProviderRunSnapshot (g : RunGraph) (intent : ProviderTriggerIntentRecord)
    (approval : Option ProviderRunApprovalRecord) (run : ProviderRun) (source : SnapshotSource)
    (now : Instant) (hid : intent.id = g.intent.id)
    (hconn : intent.connectionId = g.intent.connectionId)
    (hversion : intent.connectionVersion = g.intent.connectionVersion)
    (hmax : intent.maxAttempts = g.intent.maxAttempts)
    (happ : ∀ a, g.approval = some a → approval = some a) (record : ProviderRunRecord)
    (hrecord : record.connectionId = g.run.connectionId ∧ record.correlationId = g.run.correlationId
      ∧ record.triggeredByUserId = g.run.triggeredByUserId
      ∧ record.externalId = g.run.externalId ∧ record.version = g.run.version) :
    g.Extends { run := record.applyProviderRunSnapshot run source now, intent, approval } := by
  obtain ⟨h1, h2, h3, h4, h5⟩ := hrecord
  rcases record.applyProviderRunSnapshot_cases run source now with
    ⟨-, h | h⟩ | ⟨-, -, -, h⟩ | ⟨-, -, h⟩
  · rw [h]
    exact ⟨h1, h2, h3, hid, hconn, hversion, hmax, fun hs => h4 ▸ hs, happ, h5.ge⟩
  · rw [h]
    exact ⟨h1, h2, h3, hid, hconn, hversion, hmax, fun hs => h4 ▸ hs, happ,
      h5 ▸ Nat.le_succ _⟩
  · rw [h]
    exact ⟨h1, h2, h3, hid, hconn, hversion, hmax, fun hs => h4 ▸ hs, happ,
      h5 ▸ Nat.le_succ _⟩
  · rw [h]
    exact ⟨h1, h2, h3, hid, hconn, hversion, hmax, fun _ => rfl, happ, h5 ▸ Nat.le_succ _⟩

theorem extends_webhook (g : RunGraph) (payload : ProviderWebhookPayload) (now : Instant) :
    g.Extends { g with
      run := ((g.run.bindExternal payload.externalId now).reduceWebhook payload now).1 } := by
  have hbind : g.Extends { g with run := g.run.bindExternal payload.externalId now } := by
    unfold ProviderRunRecord.bindExternal
    split
    · exact ⟨rfl, rfl, rfl, rfl, rfl, rfl, rfl, fun _ => rfl, fun _ => id, Nat.le_succ _⟩
    · exact .refl g
  obtain ⟨h1, h2, h3, -, -, -, -, h4, -, h5⟩ := hbind
  rcases (g.run.bindExternal payload.externalId now).reduceWebhook_cases payload now with
    h | ⟨-, h⟩ | ⟨-, -, -, h⟩
  · rw [h]
    exact ⟨h1, h2, h3, rfl, rfl, rfl, rfl, h4, fun _ => id, h5⟩
  · rw [h]
    exact ⟨h1, h2, h3, rfl, rfl, rfl, rfl, h4, fun _ => id, Nat.le_succ_of_le h5⟩
  · rw [h]
    exact ⟨h1, h2, h3, rfl, rfl, rfl, rfl, h4, fun _ => id, Nat.le_succ_of_le h5⟩

/-- Every move extends the rows it works on. -/
theorem extends_move (g : RunGraph) (mv : Move) : g.Extends (g.move mv) := by
  cases mv with
  | claim workerId token leaseSeconds now =>
    rw [move_claim]
    split
    · exact ⟨rfl, rfl, rfl, rfl, rfl, rfl, rfl, id, fun _ => id, Nat.le_succ _⟩
    · exact .refl g
  | finalize token run now =>
    rcases g.move_finalize token run now with ⟨h, -⟩ | ⟨-, -, h⟩
    · rw [h]
      exact .refl g
    · rw [h]
      rcases finalizeRun_cases g.run run now with ⟨-, _, hrun⟩ | ⟨-, hrun⟩
      · rw [hrun]
        exact ⟨rfl, rfl, rfl, rfl, rfl, rfl, rfl, id, fun _ => id, Nat.le_succ _⟩
      · rw [hrun]
        exact g.extends_applyProviderRunSnapshot (succeedIntent g.intent now) g.approval run
          .dispatch now rfl rfl rfl rfl (fun _ => id)
          { g.run with dispatchStatus := .dispatched, reconciliationRequired := false }
          ⟨rfl, rfl, rfl, rfl, rfl⟩
  | settleFailure token errorCode retryable now =>
    rcases g.move_settleFailure token errorCode retryable now with h | ⟨-, -, h⟩ | ⟨-, -, h⟩
    · rw [h]
      exact .refl g
    · rw [h]
      exact ⟨rfl, rfl, rfl, rfl, rfl, rfl, rfl, id, fun _ => id, Nat.le_succ _⟩
    · rw [h]
      exact ⟨rfl, rfl, rfl, rfl, rfl, rfl, rfl, id, fun _ => id, Nat.le_succ _⟩
  | cancelBeforeDispatch now =>
    rw [move_cancelBeforeDispatch]
    split
    · exact ⟨rfl, rfl, rfl, rfl, rfl, rfl, rfl, id, fun _ => id, Nat.le_succ _⟩
    · exact .refl g
  | commitRefresh expectedVersion run now =>
    rw [move_commitRefresh]
    split
    · exact .refl g
    · exact g.extends_applyProviderRunSnapshot _ _ run .poll now rfl rfl rfl rfl (fun _ => id)
        _ ⟨rfl, rfl, rfl, rfl, rfl⟩
  | commitDecision payload actor expectedVersion run now =>
    rcases g.move_commitDecision payload actor expectedVersion run now with
      ⟨h, -⟩ | ⟨hnone, -, approval, -, -, -, h⟩
    · rw [h]
      exact .refl g
    · rw [h]
      exact g.extends_applyProviderRunSnapshot _ _ run .gateDecision now rfl rfl rfl rfl
        (by simp [hnone]) _ ⟨rfl, rfl, rfl, rfl, rfl⟩
  | webhook payload now =>
    rcases g.move_webhook payload now with ⟨h, -⟩ | ⟨-, -, h⟩
    · rw [h]
      exact .refl g
    · rw [h]
      exact g.extends_webhook payload now

end RunGraph

namespace ProviderStore

variable {s s' : ProviderStore}

/-! ## What a transaction that commits did -/

theorem requireConnection_eq_ok {connectionId : Uuid} {c : ProviderConnectionRecord} :
    s.requireConnection connectionId = .ok c ↔ s.connections.get? connectionId = some c := by
  unfold requireConnection
  cases s.connections.get? connectionId with
  | none => simp
  | some x => simp

theorem requireRun_ok {connectionId runId : Uuid} {g : RunGraph}
    (h : s.requireRun connectionId runId = .ok g) :
    s.graphs.get? runId = some g ∧ g.run.connectionId = connectionId := by
  unfold requireRun at h
  split at h
  · simp at h
  next x hx =>
  split at h
  · simp at h
  next hconn =>
  obtain rfl := Except.ok.inj h
  exact ⟨hx, not_not.mp hconn⟩

theorem requireClaimed_ok {claimed : ClaimedProviderTrigger} {message : String} {g : RunGraph}
    (h : s.requireClaimed claimed message = .ok g) :
    s.graphs.get? claimed.runId = some g ∧ g.intent.id = claimed.intentId := by
  unfold requireClaimed at h
  split at h
  · simp at h
  next x hx =>
  split at h
  · simp at h
  next hid =>
  obtain rfl := Except.ok.inj h
  exact ⟨hx, not_not.mp hid⟩

theorem putGraph_ok {g : RunGraph} (h : s.putGraph g = .ok s') :
    s' = { s with graphs := s.graphs.put g } := by
  unfold putGraph at h
  rw [refuse_bind_eq_ok, pure_eq_ok] at h
  exact h.2.symm

theorem createConnection_ok {payload : ProviderConnectionCreate} {now : Instant}
    (h : s.createConnection payload now = .ok s') :
    ∃ f hf, s' = { s with connections := s.connections.add f hf } := by
  unfold createConnection at h
  simp only [bind_eq_ok, refuse_eq_ok, pure_eq_ok] at h
  obtain ⟨-, -, -, -, -, -, rfl⟩ := h
  exact ⟨_, _, rfl⟩

/-- An update keeps a connection's kind and counts its version up. -/
theorem updateConnection_ok {connectionId : Uuid} {payload : ProviderConnectionPatch}
    {now : Instant} (h : s.updateConnection connectionId payload now = .ok s') :
    ∃ old c, s.connections.get? connectionId = some old ∧ c.id = old.id ∧ c.kind = old.kind
      ∧ c.version = old.version + 1 ∧ s' = { s with connections := s.connections.put c } := by
  unfold updateConnection at h
  simp only [bind_eq_ok, refuse_eq_ok, pure_eq_ok, requireConnection_eq_ok] at h
  obtain ⟨old, hold, -, -, -, -, -, -, -, -, -, -, -, -, -, -, -, -, rfl⟩ := h
  exact ⟨old, { patchConnection old payload with
    version := (patchConnection old payload).version + 1
    updatedAt := now }, hold, rfl, rfl, rfl, rfl⟩

/-- A connection is deleted only while it has no runs. -/
theorem deleteConnection_ok {connectionId : Uuid} (h : s.deleteConnection connectionId = .ok s') :
    (∀ g ∈ s.graphs.rows, g.run.connectionId ≠ connectionId)
      ∧ s' = { s with connections := s.connections.erase connectionId } := by
  unfold deleteConnection at h
  simp only [bind_eq_ok, refuse_eq_ok, pure_eq_ok] at h
  obtain ⟨-, -, -, hunused, rfl⟩ := h
  refine ⟨fun g hg hc => hunused ?_, rfl⟩
  simp only [List.any_eq_true, decide_eq_true_eq]
  exact ⟨g, hg, hc⟩

theorem recordTrigger_ok {c : ProviderConnectionRecord} {request : ProviderTriggerRequest}
    {requested : Option String} {actor : Option RunGraph.Actor} {now : Instant}
    (h : s.recordTrigger c request requested actor now = .ok s') :
    s' = s ∨ ∃ fingerprint, s' = { s with
      graphs := s.graphs.add (triggeredGraph c request fingerprint actor now) } := by
  unfold recordTrigger at h
  rw [refuse_bind_eq_ok, bind_eq_ok] at h
  obtain ⟨-, fingerprint, -, h⟩ := h
  split at h
  · rw [refuse_bind_eq_ok, pure_eq_ok] at h
    exact .inl h.2.symm
  · rw [refuse_bind_eq_ok, pure_eq_ok] at h
    exact .inr ⟨fingerprint, h.2.symm⟩

/-- A trigger that commits replays an earlier one or inserts the rows of a new run. -/
theorem triggerProvider_ok {safety : RuntimeSafetyConfig} {connectionId : Uuid}
    {payload : ProviderTriggerPayload} {actor : Option RunGraph.Actor} {generated : String}
    {now : Instant}
    (h : s.triggerProvider safety connectionId payload actor generated now = .ok s') :
    s' = s ∨ ∃ c request fingerprint, s.connections.get? connectionId = some c
      ∧ request.definitionRef = c.definitionRef
      ∧ s' = { s with
          graphs := s.graphs.add (triggeredGraph c request fingerprint actor now) } := by
  unfold triggerProvider at h
  rw [bind_eq_ok] at h
  obtain ⟨c, hc, h⟩ := h
  rw [requireConnection_eq_ok] at hc
  rw [refuse_bind_eq_ok, bind_eq_ok] at h
  obtain ⟨-, -, -, h⟩ := h
  have hrecord : s.recordTrigger c ⟨c.definitionRef, payload.ref, payload.triggerVariables,
      payload.correlationId.getD generated⟩ payload.correlationId actor now = .ok s' := by
    dsimp only at h
    split at h
    · rw [bind_eq_ok] at h
      exact h.choose_spec.2
    · exact h
  rcases recordTrigger_ok hrecord with hsame | ⟨fingerprint, hs'⟩
  · exact .inl hsame
  · exact .inr ⟨c, _, fingerprint, hc, rfl, hs'⟩

theorem claimCandidate_eq_some {now : Instant} {skipped : List Uuid} {g : RunGraph}
    (h : s.claimCandidate now skipped = some g) :
    s.graphs.get? g.run.id = some g ∧ RunGraph.Claimable g.intent now := by
  have hg := mem_of_firstBy h
  obtain ⟨hmem, hc⟩ := List.mem_filter.mp hg
  exact ⟨Table.get?_key hmem, (of_decide_eq_true hc).1⟩

theorem claimProviderTrigger_ok {workerId token : String} {leaseSeconds : Int} {now : Instant}
    {skipped : List Uuid} {claimed : ClaimedProviderTrigger}
    (h : s.claimProviderTrigger workerId leaseSeconds token now skipped = .ok (s', some claimed)) :
    ValidDispatch workerId leaseSeconds ∧ ∃ g c, s.claimCandidate now skipped = some g
      ∧ s.graphs.get? g.run.id = some g
      ∧ RunGraph.Claimable g.intent now ∧ s.connections.get? g.intent.connectionId = some c
      ∧ s' = { s with graphs := s.graphs.put (g.claim (strip workerId) token leaseSeconds now) }
      ∧ claimed = {
          intentId := g.intent.id
          runId := g.run.id
          leaseToken := token
          connection := c
          request := g.intent.requestPayload
          attempts := g.intent.attempts + 1
          maxAttempts := g.intent.maxAttempts } := by
  unfold claimProviderTrigger at h
  rw [refuse_bind_eq_ok, refuse_bind_eq_ok] at h
  obtain ⟨hworker, hlease, h⟩ := h
  rw [not_or] at hworker
  refine ⟨⟨hworker.1, Nat.not_lt.mp hworker.2, not_not.mp hlease⟩, ?_⟩
  split at h
  · simp [pure, Except.pure] at h
  next g hg =>
  obtain ⟨hget, hc⟩ := claimCandidate_eq_some hg
  split at h
  · simp [throw, throwThe, MonadExceptOf.throw] at h
  next c hconn =>
  rw [pure_eq_ok, Prod.mk.injEq, Option.some.injEq] at h
  exact ⟨g, c, hg, hget, hc, hconn, h.1.symm, h.2.symm⟩

/-- The transaction writes the rows of run `k` and nothing else: it makes a move there. -/
def Moves (s s' : ProviderStore) (k : Uuid) (mv : RunGraph.Move) : Prop :=
  ∃ g, s.graphs.get? k = some g ∧ s' = { s with graphs := s.graphs.put (g.move mv) }

theorem get?_put_move {t : Table RunGraph} {k : Uuid} {g : RunGraph} (hg : t.get? k = some g)
    (mv : RunGraph.Move) (k' : Uuid) :
    (t.put (g.move mv)).get? k' = if k = k' then some (g.move mv) else t.get? k' := by
  have hk : g.run.id = k := Table.key_of_get? hg
  rw [Table.get?_put, RunGraph.key_eq, RunGraph.move_id, hk]
  by_cases hkk : k = k'
  · subst hkk
    simp [hg]
  · simp [hkk]

theorem finalizeProviderTrigger_ok {claimed : ClaimedProviderTrigger} {run : ProviderRun}
    {now : Instant} (h : s.finalizeProviderTrigger claimed run now = .ok s') :
    s.Moves s' claimed.runId (.finalize claimed.leaseToken run now) := by
  unfold finalizeProviderTrigger at h
  simp only [bind_eq_ok] at h
  obtain ⟨g, hg, g', hg', h⟩ := h
  obtain rfl := putGraph_ok h
  refine ⟨g, (requireClaimed_ok hg).1, ?_⟩
  simp [RunGraph.move, hg', Except.toOption]

theorem settleProviderTriggerFailure_ok {claimed : ClaimedProviderTrigger} {errorCode : String}
    {retryable : Bool} {now : Instant}
    (h : s.settleProviderTriggerFailure claimed errorCode retryable now = .ok s') :
    s.Moves s' claimed.runId (.settleFailure claimed.leaseToken errorCode retryable now) := by
  unfold settleProviderTriggerFailure at h
  simp only [bind_eq_ok] at h
  obtain ⟨g, hg, g', hg', h⟩ := h
  obtain rfl := putGraph_ok h
  refine ⟨g, (requireClaimed_ok hg).1, ?_⟩
  simp [RunGraph.move, hg', Except.toOption]

/-- A cancel before dispatch is settled on the spot; every other poll or cancel
goes to the provider, for a run that has an external identity. -/
theorem prepareRefresh_ok {connectionId runId : Uuid} {cancel : Bool} {now : Instant}
    {pending : Option PendingRefresh}
    (h : s.prepareRefresh connectionId runId cancel now = .ok (s', pending)) :
    (pending = none ∧ s' = s)
    ∨ (pending = none ∧ cancel = true ∧ s.Moves s' runId (.cancelBeforeDispatch now))
    ∨ (∃ c g p, s.connections.get? connectionId = some c ∧ s.graphs.get? runId = some g
      ∧ g.run.connectionId = connectionId ∧ g.run.externalId = some p.externalId
      ∧ p.runId = runId ∧ p.connectionId = connectionId ∧ p.kind = c.kind
      ∧ p.expectedVersion = g.run.version ∧ p.localAnswer.provider = .local
      ∧ pending = some p ∧ s' = s) := by
  unfold prepareRefresh at h
  simp only [bind_eq_ok, requireConnection_eq_ok] at h
  obtain ⟨c, hc, g, hg, h⟩ := h
  obtain ⟨hget, hconn⟩ := requireRun_ok hg
  split at h
  · by_cases hcancel : cancel ∧ g.Undispatched
    · rw [if_pos hcancel, pure_eq_ok, Prod.mk.injEq] at h
      refine .inr (.inl ⟨h.2.symm, hcancel.1, g, hget, ?_⟩)
      rw [RunGraph.move_cancelBeforeDispatch, if_pos hcancel.2]
      exact h.1.symm
    · rw [if_neg hcancel, pure_eq_ok, Prod.mk.injEq] at h
      exact .inl ⟨h.2.symm, h.1.symm⟩
  next externalId hext =>
  rw [pure_eq_ok, Prod.mk.injEq] at h
  exact .inr (.inr ⟨c, g, _, hc, hget, hconn, hext, rfl, rfl, rfl, rfl, rfl, h.2.symm, h.1.symm⟩)

theorem commitRefresh_ok {pending : PendingRefresh} {run : ProviderRun} {now : Instant}
    (h : s.commitRefresh pending run now = .ok s') :
    s.Moves s' pending.runId
      (.commitRefresh pending.expectedVersion (pending.answer run) now) := by
  unfold commitRefresh at h
  simp only [bind_eq_ok] at h
  obtain ⟨g, hg, h⟩ := h
  obtain rfl := putGraph_ok h
  exact ⟨g, (requireRun_ok hg).1, rfl⟩

theorem prepareDecision_ok {connectionId runId : Uuid}
    {payload : RunGraph.ProviderRunApprovalPayload} {actor : Option RunGraph.Actor}
    {pending : PendingDecision}
    (h : s.prepareDecision connectionId runId payload actor = .ok (some pending)) :
    ∃ c g, s.connections.get? connectionId = some c ∧ s.graphs.get? runId = some g
      ∧ g.run.connectionId = connectionId ∧ g.run.externalId = some pending.externalId
      ∧ c.kind = .learningCi ∧ g.approval = none
      ∧ g.run.qualityGateStatus = .waitingApproval ∧ g.run.rawStatus = "waiting_approval"
      ∧ pending.runId = runId ∧ pending.kind = c.kind
      ∧ pending.expectedVersion = g.run.version ∧ pending.payload = payload
      ∧ pending.actor = actor := by
  unfold prepareDecision at h
  simp only [bind_eq_ok, requireConnection_eq_ok, pure_eq_ok, Option.map_eq_some_iff] at h
  obtain ⟨c, hc, g, hg, prepared, hprep, p, rfl, rfl⟩ := h
  obtain ⟨hget, hconn⟩ := requireRun_ok hg
  unfold RunGraph.prepareDecision at hprep
  cases happ : g.approval with
  | some previous =>
    rw [happ] at hprep
    dsimp only at hprep
    split at hprep
    · simp only [refuse_bind_eq_ok, pure_eq_ok] at hprep
      simp at hprep
    · simp at hprep
  | none =>
    rw [happ] at hprep
    dsimp only at hprep
    rw [refuse_bind_eq_ok] at hprep
    obtain ⟨hkind, hprep⟩ := hprep
    split at hprep
    · simp at hprep
    next externalId hext =>
    simp only [refuse_bind_eq_ok, pure_eq_ok, Option.some.injEq] at hprep
    obtain ⟨hready, -, rfl⟩ := hprep
    simp only [not_or, not_not] at hready
    exact ⟨c, g, hc, hget, hconn, hext, not_not.mp hkind, happ, hready.2.1, hready.2.2,
      rfl, rfl, rfl, rfl, rfl⟩

theorem commitDecision_ok {pending : PendingDecision} {run : ProviderRun} {now : Instant}
    (h : s.commitDecision pending run now = .ok s') :
    s.Moves s' pending.runId
      (.commitDecision pending.payload pending.actor pending.expectedVersion run now) := by
  unfold commitDecision at h
  simp only [bind_eq_ok] at h
  obtain ⟨g, hg, g', hg', h⟩ := h
  obtain rfl := putGraph_ok h
  refine ⟨g, (requireRun_ok hg).1, ?_⟩
  simp [RunGraph.move, hg', Except.toOption]

theorem webhookTarget_eq_some {connectionId : Uuid} {payload : ProviderWebhookPayload}
    {g : RunGraph} (h : s.webhookTarget connectionId payload = some g) :
    s.graphs.get? g.run.id = some g ∧ g.run.connectionId = connectionId := by
  unfold webhookTarget at h
  rcases Option.or_eq_some_iff.mp h with h | ⟨-, h⟩
  · have hp := List.find?_some h
    exact ⟨Table.get?_key (List.mem_of_find?_eq_some h), (of_decide_eq_true hp).1⟩
  · have hp := List.find?_some h
    exact ⟨Table.get?_key (List.mem_of_find?_eq_some h), (of_decide_eq_true hp).1⟩

/-- A webhook that commits replays a receipt or reduces its event on the run
that it found and keeps a receipt of it. -/
theorem processLearningCiWebhook_ok {safety : RuntimeSafetyConfig} {connectionId : Uuid}
    {eventId : String} {body : Digest String} {payload : ProviderWebhookPayload} {now : Instant}
    (h : s.processLearningCiWebhook safety connectionId eventId body payload now = .ok s') :
    s' = s ∨ ∃ c g g' result f hf, s.connections.get? connectionId = some c
      ∧ c.kind = .learningCi ∧ s.Receives safety connectionId eventId payload
      ∧ s.webhookTarget connectionId payload = some g
      ∧ s.graphs.get? g.run.id = some g ∧ g.run.connectionId = connectionId
      ∧ g.webhook payload now = .ok (g', result) ∧ g' = g.move (.webhook payload now)
      ∧ (f s.receipts.next).runId = g.run.id
      ∧ s' = { s with graphs := s.graphs.put g', receipts := s.receipts.add f hf } := by
  unfold processLearningCiWebhook at h
  rw [bind_eq_ok] at h
  obtain ⟨c, hc, h⟩ := h
  rw [requireConnection_eq_ok] at hc
  rw [refuse_bind_eq_ok, refuse_bind_eq_ok, refuse_bind_eq_ok] at h
  obtain ⟨hopen, hsecret, hown, h⟩ := h
  split at h
  · rw [refuse_bind_eq_ok, pure_eq_ok] at h
    exact .inl h.2.symm
  · next hfresh =>
    have hkind : c.kind = .learningCi := not_not.mp fun hne => hopen (.inl hne)
    have hreceives : s.Receives safety connectionId eventId payload := by
      refine ⟨⟨c, hc, hkind, not_not.mp fun hoff => hopen (.inr hoff),
        not_not.mp fun hne => hsecret (.inl hne), not_not.mp fun hno => hsecret (.inr hno)⟩,
        not_not.mp hown, fun r hr => ?_⟩
      simpa using List.find?_eq_none.mp hfresh r hr
    split at h
    · simp [throw, throwThe, MonadExceptOf.throw] at h
    next g hg =>
    simp only [bind_eq_ok, pure_eq_ok] at h
    obtain ⟨⟨g', result⟩, hg', s₁, hs₁, rfl⟩ := h
    obtain rfl := putGraph_ok hs₁
    obtain ⟨hget, hconn⟩ := webhookTarget_eq_some hg
    have hmove : g' = g.move (.webhook payload now) := by
      simp [RunGraph.move, hg', Except.toOption]
    have hid : g'.run.id = g.run.id := by rw [hmove, RunGraph.move_id]
    exact .inr ⟨c, g, g', result, _, _, hc, hkind, hreceives, hg, hget, hconn, hg', hmove, hid, rfl⟩

end ProviderStore

end QaPlatform.Runtime
