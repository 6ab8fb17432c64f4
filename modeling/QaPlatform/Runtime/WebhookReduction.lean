import QaPlatform.Runtime.ProviderCoherence
import QaPlatform.Runtime.WebhookReceiver

/-!
# What a list of webhooks is reduced to

`process_learning_ci_webhook` with its answer, run over any list of verified
webhooks on one connection. A receipt remembers a delivery that was answered; a
delivery that raised is forgotten, so that it can be sent again. From the receipts
and the watermarks of the runs it follows that a list is reduced in the order of
its sequence numbers, whatever the order and the repetitions it comes in.

A delivery that is answered was either known, and is answered by its receipt, or new, and is
reduced on the row of its run. `Chronicle` is the invariant that relates the receipts of applied
events to the watermarks, which only rise whatever channel writes the run (`later_move`). With
it a list of deliveries is applied in the order of its numbers, and every accepted event once.

What is not accepted leaves no receipt, so that it may be sent again:
`not_repeated_unless_accepted` is a webhook about a run that no one has triggered.
-/

namespace QaPlatform.Runtime

open Pipeline

/-- A webhook on the connection whose signature was verified and whose body was
parsed. -/
structure WebhookDelivery (connectionId : Uuid) where
  eventId : String
  bodySha256 : Digest String
  payload : ProviderWebhookPayload
  /-- `received_at`. -/
  now : Instant
  bound : payload.connectionId = connectionId

/-- `ProviderWebhookResult`, as far as the claims of the receiver go. -/
structure ProviderWebhookResult where
  eventId : String
  result : WebhookResult
  runId : Uuid
  reconciliationRequired : Bool
deriving DecidableEq

namespace ProviderStore

variable {connectionId : Uuid}

/-- The receipt of an event, by the columns of `uq_provider_webhook_events_event`. -/
def findReceipt (s : ProviderStore) (connectionId : Uuid) (eventId : String) :
    Option ProviderWebhookEventRecord :=
  s.receipts.rows.find? fun r => r.connectionId = connectionId ∧ r.eventId = eventId

/-- The answer to an event that has a receipt. -/
def duplicateOf (s : ProviderStore) (previous : ProviderWebhookEventRecord) :
    ProviderWebhookResult :=
  { eventId := previous.eventId, result := .duplicate, runId := previous.runId
    reconciliationRequired :=
      (s.graphs.get? previous.runId).any (·.run.reconciliationRequired) }

/-- The receipt of a new event. -/
def receiptOf (d : WebhookDelivery connectionId) (runId : Uuid) (result : WebhookResult)
    (id : Uuid) : ProviderWebhookEventRecord :=
  { id, connectionId, runId, eventId := d.eventId, externalId := d.payload.externalId
    bodySha256 := d.bodySha256, sequence := d.payload.sequence
    occurredAt := d.payload.occurredAt, normalizedStatus := d.payload.status, result
    receivedAt := d.now }

/-- The second transaction from the look for the run on. -/
def reduceOnRun (s : ProviderStore) (d : WebhookDelivery connectionId) :
    Except DomainError (ProviderStore × ProviderWebhookResult) :=
  match s.webhookTarget connectionId d.payload with
  | none => throw (.conflict "Webhook 回调未关联到本地运行")
  | some g => do
    refuse (g.run.externalId.any (· ≠ d.payload.externalId))
      (.conflict "Webhook correlation_id 已绑定到不同运行")
    let record := g.run.bindExternal d.payload.externalId d.now
    refuse (record.correlationId ≠ d.payload.correlationId)
      (.conflict "Webhook correlation_id 与运行不匹配")
    -- behind the lock of the run, an overlapping delivery may have left its receipt
    match s.findReceipt connectionId d.eventId with
    | some previous => do
      refuse (previous.bodySha256 ≠ d.bodySha256) (.conflict "Webhook event_id 已绑定到不同内容")
      let s ← s.putGraph { g with run := record }
      return (s, { eventId := d.eventId, result := .duplicate, runId := previous.runId
                   reconciliationRequired := record.reconciliationRequired })
    | none => do
      let (record, result) := record.reduceWebhook d.payload d.now
      let s ← s.putGraph { g with run := record }
      return ({ s with receipts := s.receipts.add (receiptOf d record.id result) },
        { eventId := d.eventId, result, runId := record.id
          reconciliationRequired := record.reconciliationRequired })

/-- `process_learning_ci_webhook` with its answer, for a verified webhook. -/
def deliver (safety : RuntimeSafetyConfig) (s : ProviderStore) (d : WebhookDelivery connectionId) :
    Except DomainError (ProviderStore × ProviderWebhookResult) := do
  s.authorizeWebhook safety connectionId
  let c ← s.requireConnection connectionId
  refuse (c.kind ≠ .learningCi ∨ ¬ c.enabled
      ∨ c.webhookSecretEnvVar ≠ some ciLabWebhookSecretName)
    (.authorization "Webhook 连接状态已变化")
  match s.findReceipt connectionId d.eventId with
  | some previous => do
    refuse (previous.bodySha256 ≠ d.bodySha256) (.conflict "Webhook event_id 已绑定到不同内容")
    return (s, s.duplicateOf previous)
  | none => s.reduceOnRun d

/-- The store after a delivery; one that raises is rolled back. -/
def afterDelivery (safety : RuntimeSafetyConfig) (s : ProviderStore)
    (d : WebhookDelivery connectionId) : ProviderStore :=
  ((s.deliver safety d).toOption.map Prod.fst).getD s

/-- The store after the deliveries of a list. -/
def deliverAll (safety : RuntimeSafetyConfig) (s : ProviderStore)
    (ds : List (WebhookDelivery connectionId)) : ProviderStore :=
  Transition.run (afterDelivery safety) s ds

variable {safety : RuntimeSafetyConfig} {s s' : ProviderStore} {d : WebhookDelivery connectionId}
  {r : ProviderWebhookResult}

/-! ## One delivery -/

/-- A receipt that is there is found again, whatever is added. -/
theorem findReceipt_add {eventId : String} {previous : ProviderWebhookEventRecord}
    (h : s.findReceipt connectionId eventId = some previous)
    {f : Nat → ProviderWebhookEventRecord} {hf : ∀ k, key (f k) = k} {graphs : Table RunGraph} :
    { s with graphs, receipts := s.receipts.add f hf }.findReceipt connectionId eventId
      = some previous := by
  show (s.receipts.rows ++ [f s.receipts.next]).find? _ = _
  rw [List.find?_append, show s.receipts.rows.find? _ = some previous from h]
  rfl

/-- The row of the run that a new event leaves, and what became of the event. -/
def reducedRun (d : WebhookDelivery connectionId) (g : RunGraph) :
    ProviderRunRecord × WebhookResult :=
  (g.run.bindExternal d.payload.externalId d.now).reduceWebhook d.payload d.now

/-- The store and the answer that a new event leaves. -/
def reduced (s : ProviderStore) (d : WebhookDelivery connectionId) (g : RunGraph) :
    ProviderStore × ProviderWebhookResult :=
  ({ s with
      graphs := s.graphs.put { g with run := (reducedRun d g).1 }
      receipts := s.receipts.add (receiptOf d (reducedRun d g).1.id (reducedRun d g).2) },
    { eventId := d.eventId, result := (reducedRun d g).2, runId := (reducedRun d g).1.id
      reconciliationRequired := (reducedRun d g).1.reconciliationRequired })

theorem reducedRun_id (d : WebhookDelivery connectionId) (g : RunGraph) :
    (reducedRun d g).1.id = g.run.id :=
  ((g.run.bindExternal d.payload.externalId d.now).reduceWebhook_id d.payload d.now).trans
    (RunGraph.bindExternal_id g.run d.payload.externalId d.now)

/-- A new event that is answered is reduced on its run. -/
theorem reduceOnRun_ok (hnew : s.findReceipt connectionId d.eventId = none)
    (h : s.reduceOnRun d = .ok (s', r)) :
    ∃ g, s.webhookTarget connectionId d.payload = some g
      ∧ s' = (s.reduced d g).1 ∧ r = (s.reduced d g).2 := by
  unfold reduceOnRun at h
  split at h
  · simp [throw, throwThe, MonadExceptOf.throw] at h
  next g hg =>
  rw [hnew, refuse_bind_eq_ok] at h
  obtain ⟨-, h⟩ := h
  rw [refuse_bind_eq_ok, bind_eq_ok] at h
  obtain ⟨-, s₁, hs₁, h⟩ := h
  obtain rfl := putGraph_ok hs₁
  rw [pure_eq_ok, Prod.mk.injEq] at h
  exact ⟨g, hg, h.1.symm, h.2.symm⟩

/-- What the second look for a receipt is for: once it is there, an overlapping
delivery adds none. -/
theorem reduceOnRun_overlapping {previous : ProviderWebhookEventRecord}
    (hprevious : s.findReceipt connectionId d.eventId = some previous)
    (h : s.reduceOnRun d = .ok (s', r)) :
    r.result = .duplicate ∧ r.runId = previous.runId ∧ s'.receipts = s.receipts := by
  unfold reduceOnRun at h
  split at h
  · simp [throw, throwThe, MonadExceptOf.throw] at h
  rw [hprevious, refuse_bind_eq_ok] at h
  obtain ⟨-, h⟩ := h
  rw [refuse_bind_eq_ok, refuse_bind_eq_ok, bind_eq_ok] at h
  obtain ⟨-, -, s₁, hs₁, h⟩ := h
  obtain rfl := putGraph_ok hs₁
  rw [pure_eq_ok, Prod.mk.injEq] at h
  obtain ⟨rfl, rfl⟩ := h
  exact ⟨rfl, rfl, rfl⟩

/-- A delivery that is answered passed the checks of its connection and was either
known or new. -/
theorem deliver_ok (h : s.deliver safety d = .ok (s', r)) :
    s.authorizeWebhook safety connectionId = .ok ()
    ∧ ((∃ previous, s.findReceipt connectionId d.eventId = some previous
        ∧ previous.bodySha256 = d.bodySha256 ∧ s' = s ∧ r = s.duplicateOf previous)
      ∨ (s.findReceipt connectionId d.eventId = none
        ∧ ∃ g, s.webhookTarget connectionId d.payload = some g
          ∧ s' = (s.reduced d g).1 ∧ r = (s.reduced d g).2)) := by
  unfold deliver at h
  rw [bind_eq_ok] at h
  obtain ⟨⟨⟩, hauth, h⟩ := h
  refine ⟨hauth, ?_⟩
  rw [bind_eq_ok] at h
  obtain ⟨c, -, h⟩ := h
  rw [refuse_bind_eq_ok] at h
  obtain ⟨-, h⟩ := h
  split at h
  · next previous hprevious =>
    rw [refuse_bind_eq_ok, pure_eq_ok, Prod.mk.injEq] at h
    obtain ⟨hbody, rfl, rfl⟩ := h
    exact .inl ⟨previous, hprevious, not_not.mp hbody, rfl, rfl⟩
  · next hnew => exact .inr ⟨hnew, reduceOnRun_ok hnew h⟩

/-- Which connections take webhooks is up to their rows. -/
theorem authorizeWebhook_congr (h : s'.connections = s.connections) :
    s'.authorizeWebhook safety connectionId = s.authorizeWebhook safety connectionId := by
  unfold authorizeWebhook requireConnection
  rw [h]

/-- On an open connection a known event is answered by its receipt. -/
theorem deliver_known (hauth : s.authorizeWebhook safety connectionId = .ok ())
    {previous : ProviderWebhookEventRecord}
    (hprevious : s.findReceipt connectionId d.eventId = some previous) :
    s.deliver safety d = if previous.bodySha256 = d.bodySha256 then .ok (s, s.duplicateOf previous)
      else .error (.conflict "Webhook event_id 已绑定到不同内容") := by
  have hchecks := hauth
  unfold authorizeWebhook at hchecks
  rw [bind_eq_ok] at hchecks
  obtain ⟨c, hc, hchecks⟩ := hchecks
  rw [refuse_bind_eq_ok, refuse_eq_ok] at hchecks
  obtain ⟨hopen, hname⟩ := hchecks
  have hstill : ¬ (c.kind ≠ .learningCi ∨ ¬ c.enabled
      ∨ c.webhookSecretEnvVar ≠ some ciLabWebhookSecretName) := by
    intro hclosed
    rcases hclosed with hkind | henabled | hsecret
    · exact hopen (.inl hkind)
    · exact hopen (.inr henabled)
    · exact hname (.inl hsecret)
  unfold deliver
  rw [hauth, hc, hprevious]
  simp only [bind, Except.bind, refuse, if_neg hstill]
  by_cases hbody : previous.bodySha256 = d.bodySha256
  · rw [if_pos hbody, if_neg (not_not.mpr hbody)]
    rfl
  · rw [if_neg hbody, if_pos hbody]

/-! ## The transaction without its answer -/

theorem reduceOnRun_store (hnew : s.findReceipt connectionId d.eventId = none) :
    (s.reduceOnRun d).map Prod.fst = match s.webhookTarget connectionId d.payload with
      | none => throw (.conflict "Webhook 回调未关联到本地运行")
      | some g => do
        let (g, result) ← g.webhook d.payload d.now
        let s ← s.putGraph g
        return { s with receipts := s.receipts.add (receiptOf d g.run.id result) } := by
  unfold reduceOnRun
  cases s.webhookTarget connectionId d.payload with
  | none => rfl
  | some g =>
    unfold RunGraph.webhook
    dsimp only
    rw [hnew]
    by_cases hexternal : g.run.externalId.any (· ≠ d.payload.externalId)
    · simp only [bind, Except.bind, refuse, if_pos hexternal, Except.map]
    by_cases hcorrelation : (g.run.bindExternal d.payload.externalId d.now).correlationId
        ≠ d.payload.correlationId
    · simp only [bind, Except.bind, refuse, if_neg hexternal, if_pos hcorrelation, Except.map]
    simp only [bind, Except.bind, refuse, if_neg hexternal, if_neg hcorrelation, pure, Except.pure]
    cases s.putGraph { g with run :=
        ((g.run.bindExternal d.payload.externalId d.now).reduceWebhook d.payload d.now).1 } with
    | error e => rfl
    | ok s₁ => rfl

/-- Its answer aside, a delivery is the transaction of the provider tables. -/
theorem deliver_store (safety : RuntimeSafetyConfig) (s : ProviderStore)
    (d : WebhookDelivery connectionId) :
    (s.deliver safety d).map Prod.fst
      = s.processLearningCiWebhook safety connectionId d.eventId d.bodySha256 d.payload d.now := by
  unfold deliver processLearningCiWebhook authorizeWebhook
  cases hc : s.requireConnection connectionId with
  | error e => rfl
  | ok c =>
    by_cases hclosed : c.kind ≠ .learningCi ∨ ¬ c.enabled
    · simp only [bind, Except.bind, refuse, if_pos hclosed, Except.map]
    by_cases hunbound : c.webhookSecretEnvVar ≠ some ciLabWebhookSecretName
        ∨ ciLabWebhookSecretName ∉ safety.providerSecretEnvNames
    · simp only [bind, Except.bind, refuse, if_neg hclosed, if_pos hunbound, Except.map]
    have hopen : ¬ (c.kind ≠ .learningCi ∨ ¬ c.enabled
        ∨ c.webhookSecretEnvVar ≠ some ciLabWebhookSecretName) := by
      intro hstill
      rcases hstill with hkind | henabled | hname
      · exact hclosed (.inl hkind)
      · exact hclosed (.inr henabled)
      · exact hunbound (.inl hname)
    simp only [bind, Except.bind, refuse, if_neg hclosed, if_neg hunbound, if_neg hopen,
      if_neg (not_not.mpr d.bound)]
    cases hprevious : s.findReceipt connectionId d.eventId with
    | some previous =>
      rw [show s.receipts.rows.find? _ = some previous from hprevious]
      by_cases hbody : previous.bodySha256 ≠ d.bodySha256
      · simp only [if_pos hbody, Except.map]
      · simp only [if_neg hbody]
        rfl
    | none =>
      rw [show s.receipts.rows.find? _ = none from hprevious]
      exact reduceOnRun_store hprevious

end ProviderStore

/-! ## Watermarks -/

namespace RunGraph

/-- The watermarks of a run only rise. -/
structure Later (g g' : RunGraph) : Prop where
  sequence : g.run.lastProviderSequence ≤ g'.run.lastProviderSequence
  occurredAt : ∀ t, g.run.lastProviderOccurredAt = some t →
    ∃ t', g'.run.lastProviderOccurredAt = some t' ∧ t ≤ t'

theorem Later.refl (g : RunGraph) : g.Later g := ⟨Nat.le_refl _, fun t ht => ⟨t, ht, le_rfl⟩⟩

theorem Later.trans {g g' g'' : RunGraph} (h : g.Later g') (h' : g'.Later g'') : g.Later g'' where
  sequence := Nat.le_trans h.sequence h'.sequence
  occurredAt := by
    intro t ht
    obtain ⟨t', ht', hle⟩ := h.occurredAt t ht
    obtain ⟨t'', ht'', hle'⟩ := h'.occurredAt t' ht'
    exact ⟨t'', ht'', le_trans hle hle'⟩

theorem Later.of_eq {g g' : RunGraph}
    (hseq : g.run.lastProviderSequence ≤ g'.run.lastProviderSequence)
    (hocc : g'.run.lastProviderOccurredAt = g.run.lastProviderOccurredAt) : g.Later g' :=
  ⟨hseq, fun t ht => ⟨t, hocc.trans ht, le_rfl⟩⟩

theorem le_snapshotSequence (record : ProviderRunRecord) (run : ProviderRun) :
    record.lastProviderSequence ≤ record.snapshotSequence run := by
  unfold ProviderRunRecord.snapshotSequence
  split
  · split
    · split
      · next hle => exact hle
      · exact Nat.le_refl _
    · exact Nat.le_refl _
  · exact Nat.le_refl _

/-- A snapshot of the provider lifts the sequence and leaves the time. -/
theorem later_snapshot (g : RunGraph) (record : ProviderRunRecord) (run : ProviderRun)
    (source : SnapshotSource) (now : Instant) (intent : ProviderTriggerIntentRecord)
    (approval : Option ProviderRunApprovalRecord)
    (hseq : record.lastProviderSequence = g.run.lastProviderSequence)
    (hocc : record.lastProviderOccurredAt = g.run.lastProviderOccurredAt) :
    g.Later ⟨record.applyProviderRunSnapshot run source now, intent, approval⟩ := by
  rcases record.applyProviderRunSnapshot_cases run source now with
    ⟨-, h | h⟩ | ⟨-, -, -, h⟩ | ⟨-, -, h⟩
  · rw [h]
    exact .of_eq hseq.ge hocc
  · rw [h]
    exact .of_eq hseq.ge hocc
  · rw [h]
    exact .of_eq hseq.ge hocc
  · rw [h]
    exact .of_eq (hseq ▸ le_snapshotSequence record run) hocc

/-- An event lifts both watermarks or leaves them. -/
theorem later_reduced (g : RunGraph) (payload : ProviderWebhookPayload) (now : Instant) :
    g.Later { g with
      run := ((g.run.bindExternal payload.externalId now).reduceWebhook payload now).1 } := by
  obtain ⟨-, -, hseq, hocc⟩ := g.run.bindExternal_same payload.externalId now
  rcases (g.run.bindExternal payload.externalId now).reduceWebhook_cases payload now with
    h | ⟨-, h⟩ | ⟨hnext, htime, -, h⟩
  · rw [h]
    exact .of_eq hseq.ge hocc
  · rw [h]
    exact .of_eq hseq.ge hocc
  · rw [h]
    rw [hseq] at hnext
    rw [hocc] at htime
    refine ⟨show g.run.lastProviderSequence ≤ payload.sequence by omega, fun t ht => ?_⟩
    exact ⟨payload.occurredAt, rfl, not_lt.mp fun hlt => htime (by simp [ht, hlt])⟩

/-- No move of any channel lowers a watermark. -/
theorem later_move (g : RunGraph) (mv : Move) : g.Later (g.move mv) := by
  cases mv with
  | claim workerId token leaseSeconds now =>
    rw [move_claim]
    split
    · exact .of_eq (Nat.le_refl _) rfl
    · exact .refl g
  | finalize token run now =>
    rcases g.move_finalize token run now with ⟨h, -⟩ | ⟨-, -, h⟩
    · rw [h]
      exact .refl g
    · rw [h]
      rcases finalizeRun_cases g.run run now with ⟨-, _, hrun⟩ | ⟨-, hrun⟩
      · rw [hrun]
        exact .of_eq (Nat.le_refl _) rfl
      · rw [hrun]
        exact g.later_snapshot { g.run with
          dispatchStatus := .dispatched
          reconciliationRequired := false } run .dispatch now _ _ rfl rfl
  | settleFailure token errorCode retryable now =>
    rcases g.move_settleFailure token errorCode retryable now with h | ⟨-, -, h⟩ | ⟨-, -, h⟩
    · rw [h]
      exact .refl g
    · rw [h]
      exact .of_eq (Nat.le_refl _) rfl
    · rw [h]
      exact .of_eq (Nat.le_refl _) rfl
  | cancelBeforeDispatch now =>
    rw [move_cancelBeforeDispatch]
    split
    · exact .of_eq (Nat.le_refl _) rfl
    · exact .refl g
  | commitRefresh expectedVersion run now =>
    rw [move_commitRefresh]
    split
    · exact .refl g
    · exact g.later_snapshot g.run run .poll now _ _ rfl rfl
  | commitDecision payload actor expectedVersion run now =>
    rcases g.move_commitDecision payload actor expectedVersion run now with
      ⟨h, -⟩ | ⟨-, -, approval, -, -, -, h⟩
    · rw [h]
      exact .refl g
    · rw [h]
      exact g.later_snapshot g.run run .gateDecision now _ _ rfl rfl
  | webhook payload now =>
    rcases g.move_webhook payload now with ⟨h, -⟩ | ⟨-, -, h⟩
    · rw [h]
      exact .refl g
    · rw [h]
      -- only a webhook that is reduced raises the sequence number
      exact g.later_reduced payload now

end RunGraph

/-- An event is applied as the next one of its run, and not back in time. -/
theorem ProviderRunRecord.reduceWebhook_applied {record : ProviderRunRecord}
    {payload : ProviderWebhookPayload} {now : Instant}
    (h : (record.reduceWebhook payload now).2 = .applied) :
    payload.sequence = record.lastProviderSequence + 1
      ∧ (∀ t, record.lastProviderOccurredAt = some t → t ≤ payload.occurredAt)
      ∧ (record.reduceWebhook payload now).1.lastProviderSequence = payload.sequence
      ∧ (record.reduceWebhook payload now).1.lastProviderOccurredAt = some payload.occurredAt := by
  unfold reduceWebhook at h ⊢
  by_cases hstale : payload.sequence ≤ record.lastProviderSequence
  · simp [if_pos hstale] at h
  by_cases hgap : payload.sequence ≠ record.lastProviderSequence + 1
  · simp [if_neg hstale, if_pos hgap] at h
  by_cases hback : record.lastProviderOccurredAt.any (payload.occurredAt < ·)
  · simp [if_neg hstale, if_pos hback] at h
  rw [if_neg hstale, if_neg hgap, if_neg hback] at h ⊢
  refine ⟨not_not.mp hgap, fun t ht => ?_, ?_⟩
  · exact not_lt.mp fun hlt => hback (by simp [ht, hlt])
  · split at h
    · exact ⟨rfl, rfl⟩
    · simp at h

/-! ## Receipts and watermarks -/

namespace ProviderStore

variable {connectionId : Uuid} {safety : RuntimeSafetyConfig} {s s' s'' : ProviderStore}
  {d : WebhookDelivery connectionId} {r : ProviderWebhookResult} {g : RunGraph}

/-- What a store that goes on from another one has kept of it. -/
structure Continues (s s' : ProviderStore) : Prop where
  connections : s'.connections = s.connections
  graphs : ∀ k g, s.graphs.get? k = some g → ∃ g', s'.graphs.get? k = some g' ∧ g.Later g'
  receipts : ∀ connectionId eventId previous,
    s.findReceipt connectionId eventId = some previous →
      s'.findReceipt connectionId eventId = some previous

theorem Continues.refl (s : ProviderStore) : s.Continues s :=
  ⟨rfl, fun _ g hg => ⟨g, hg, .refl g⟩, fun _ _ _ h => h⟩

theorem Continues.trans (h : s.Continues s') (h' : s'.Continues s'') : s.Continues s'' where
  connections := h'.connections.trans h.connections
  graphs := by
    intro k g hg
    obtain ⟨g', hg', hlater⟩ := h.graphs k g hg
    obtain ⟨g'', hg'', hlater'⟩ := h'.graphs k g' hg'
    exact ⟨g'', hg'', hlater.trans hlater'⟩
  receipts connectionId eventId previous hp := h'.receipts _ _ _ (h.receipts _ _ _ hp)

/-- The row that a new event leaves of its run. -/
theorem get?_reduced (htarget : s.webhookTarget connectionId d.payload = some g) (k : Uuid) :
    (s.reduced d g).1.graphs.get? k
      = if g.run.id = k then some { g with run := (reducedRun d g).1 } else s.graphs.get? k := by
  have hget := (webhookTarget_eq_some htarget).1
  show (s.graphs.put { g with run := (reducedRun d g).1 }).get? k = _
  rw [Table.get?_put, RunGraph.key_eq, reducedRun_id]
  by_cases hk : g.run.id = k
  · subst hk
    rw [hget]
    simp
  · simp [hk]

theorem mem_receipts_reduced {receipt : ProviderWebhookEventRecord}
    (h : receipt ∈ (s.reduced d g).1.receipts.rows) :
    receipt ∈ s.receipts.rows
      ∨ receipt = receiptOf d (reducedRun d g).1.id (reducedRun d g).2 s.receipts.next := by
  have hadd : receipt ∈ (s.receipts.add
    (receiptOf d (reducedRun d g).1.id (reducedRun d g).2)).rows := h
  exact Table.mem_add hadd

theorem continues_reduced (htarget : s.webhookTarget connectionId d.payload = some g) :
    s.Continues (s.reduced d g).1 where
  connections := rfl
  graphs := by
    intro k g₀ hg₀
    rw [get?_reduced htarget]
    by_cases hk : g.run.id = k
    · subst hk
      obtain rfl := Option.some.inj (hg₀.symm.trans (webhookTarget_eq_some htarget).1)
      exact ⟨_, if_pos rfl, g₀.later_reduced d.payload d.now⟩
    · exact ⟨g₀, (if_neg hk).trans hg₀, .refl g₀⟩
  receipts _ _ _ hp := findReceipt_add hp

theorem continues_deliver (h : s.deliver safety d = .ok (s', r)) : s.Continues s' := by
  rcases (deliver_ok h).2 with ⟨_, -, -, rfl, -⟩ | ⟨-, g, htarget, rfl, rfl⟩
  · exact .refl s'
  · exact continues_reduced htarget

theorem afterDelivery_ok (h : s.deliver safety d = .ok (s', r)) :
    s.afterDelivery safety d = s' := by
  simp [afterDelivery, h, Except.toOption]

theorem continues_afterDelivery (safety : RuntimeSafetyConfig) (s : ProviderStore)
    (d : WebhookDelivery connectionId) : s.Continues (s.afterDelivery safety d) := by
  cases h : s.deliver safety d with
  | error e =>
    simp only [afterDelivery, h, Except.toOption]
    exact .refl s
  | ok p =>
    rw [afterDelivery_ok h]
    exact continues_deliver h

theorem continues_deliverAll (safety : RuntimeSafetyConfig) (s : ProviderStore)
    (ds : List (WebhookDelivery connectionId)) : s.Continues (s.deliverAll safety ds) :=
  Transition.rel_run .refl (fun h h' => h.trans h') (continues_afterDelivery safety) s ds

/-- An accepted delivery leaves its receipt. -/
theorem findReceipt_deliver (h : s.deliver safety d = .ok (s', r)) :
    ∃ previous, s'.findReceipt connectionId d.eventId = some previous
      ∧ previous.bodySha256 = d.bodySha256 := by
  rcases (deliver_ok h).2 with ⟨previous, hprevious, hbody, rfl, -⟩ | ⟨hnew, g, -, rfl, rfl⟩
  · exact ⟨previous, hprevious, hbody⟩
  · refine ⟨receiptOf d (reducedRun d g).1.id (reducedRun d g).2 s.receipts.next, ?_, rfl⟩
    show (s.receipts.rows ++ [receiptOf d (reducedRun d g).1.id (reducedRun d g).2
      s.receipts.next]).find? _ = _
    rw [List.find?_append, show s.receipts.rows.find? _ = none from hnew]
    simp [receiptOf]

/-- An applied event takes the watermarks of its run to its own. -/
theorem deliver_applied (h : s.deliver safety d = .ok (s', r)) (hr : r.result = .applied) :
    ∃ g g', s.graphs.get? r.runId = some g
      ∧ d.payload.sequence = g.run.lastProviderSequence + 1
      ∧ (∀ t, g.run.lastProviderOccurredAt = some t → t ≤ d.payload.occurredAt)
      ∧ s'.graphs.get? r.runId = some g'
      ∧ g'.run.lastProviderSequence = d.payload.sequence
      ∧ g'.run.lastProviderOccurredAt = some d.payload.occurredAt := by
  rcases (deliver_ok h).2 with ⟨_, -, -, -, rfl⟩ | ⟨-, g, htarget, rfl, rfl⟩
  · simp [duplicateOf] at hr
  · obtain ⟨-, -, hseq, hocc⟩ := g.run.bindExternal_same d.payload.externalId d.now
    obtain ⟨hnext, htime, hseq', hocc'⟩ := ProviderRunRecord.reduceWebhook_applied hr
    have hrun : (s.reduced d g).2.runId = g.run.id := reducedRun_id d g
    rw [hrun]
    refine ⟨g, { g with run := (reducedRun d g).1 },
      (webhookTarget_eq_some htarget).1, hseq ▸ hnext,
      fun t ht => htime t (hocc.trans ht), ?_, hseq', hocc'⟩
    rw [get?_reduced htarget, if_pos rfl]

/-- The receipts of applied events, and the watermarks of their runs. -/
structure Chronicle (s : ProviderStore) : Prop where
  applied : ∀ r ∈ s.receipts.rows, r.result = .applied → ∃ g, s.graphs.get? r.runId = some g
    ∧ r.sequence ≤ g.run.lastProviderSequence
    ∧ ∃ t, g.run.lastProviderOccurredAt = some t ∧ r.occurredAt ≤ t
  once : ∀ r ∈ s.receipts.rows, ∀ r' ∈ s.receipts.rows, r.result = .applied →
    r'.result = .applied → r.runId = r'.runId → r.sequence = r'.sequence → r = r'

theorem chronicle_empty : Chronicle empty where
  applied := by simp [empty, Table.empty]
  once := by simp [empty, Table.empty]

/-- Watermarks that rise stay above the receipts. -/
theorem Chronicle.later (h : s.Chronicle) (hreceipts : s'.receipts = s.receipts)
    (hgraphs : ∀ k g, s.graphs.get? k = some g → ∃ g', s'.graphs.get? k = some g' ∧ g.Later g') :
    s'.Chronicle where
  applied := by
    rw [hreceipts]
    intro r hr happlied
    obtain ⟨g, hg, hseq, t, ht, hle⟩ := h.applied r hr happlied
    obtain ⟨g', hg', hlater⟩ := hgraphs r.runId g hg
    obtain ⟨t', ht', hle'⟩ := hlater.occurredAt t ht
    exact ⟨g', hg', Nat.le_trans hseq hlater.sequence, t', ht', le_trans hle hle'⟩
  once := hreceipts ▸ h.once

theorem Chronicle.reduced (h : s.Chronicle)
    (htarget : s.webhookTarget connectionId d.payload = some g) : (s.reduced d g).1.Chronicle := by
  have hget := (webhookTarget_eq_some htarget).1
  obtain ⟨-, -, hseq, hocc⟩ := g.run.bindExternal_same d.payload.externalId d.now
  have hid := reducedRun_id d g
  have hkept : Chronicle { s with graphs := (s.reduced d g).1.graphs } :=
    h.later rfl (continues_reduced htarget).graphs
  -- an older receipt of the run is below the number that is applied next
  have hbelow : ∀ r ∈ s.receipts.rows, r.result = .applied → r.runId = g.run.id →
      r.sequence ≤ g.run.lastProviderSequence := by
    intro r hr happlied hrun
    obtain ⟨g₀, hg₀, hle, -⟩ := h.applied r hr happlied
    rw [hrun, hget] at hg₀
    exact (Option.some.inj hg₀) ▸ hle
  constructor
  · intro r hr happlied
    rcases mem_receipts_reduced hr with hold | rfl
    · exact hkept.applied r hold happlied
    · obtain ⟨-, -, hseq', hocc'⟩ := ProviderRunRecord.reduceWebhook_applied happlied
      refine ⟨{ g with run := (reducedRun d g).1 }, ?_, hseq'.ge, d.payload.occurredAt, hocc',
        le_rfl⟩
      show (s.reduced d g).1.graphs.get? _ = _
      rw [get?_reduced htarget]
      exact if_pos hid.symm
  · intro r hr r' hr' happlied happlied' hrun hsequence
    rcases mem_receipts_reduced hr with hold | rfl <;>
      rcases mem_receipts_reduced hr' with hold' | rfl
    · exact h.once r hold r' hold' happlied happlied' hrun hsequence
    · have hnext := (ProviderRunRecord.reduceWebhook_applied happlied').1
      have hle := hbelow r hold happlied (hrun.trans hid)
      have hsame : r.sequence = d.payload.sequence := hsequence
      omega
    · have hnext := (ProviderRunRecord.reduceWebhook_applied happlied).1
      have hle := hbelow r' hold' happlied' (hrun.symm.trans hid)
      have hsame : d.payload.sequence = r'.sequence := hsequence
      omega
    · rfl

theorem Chronicle.deliver (h : s.Chronicle) (hd : s.deliver safety d = .ok (s', r)) :
    s'.Chronicle := by
  rcases (deliver_ok hd).2 with ⟨_, -, -, rfl, -⟩ | ⟨-, g, htarget, rfl, rfl⟩
  · exact h
  · exact h.reduced htarget

theorem Chronicle.afterDelivery (h : s.Chronicle) (d : WebhookDelivery connectionId) :
    (s.afterDelivery safety d).Chronicle := by
  cases hd : s.deliver safety d with
  | error e =>
    simp only [ProviderStore.afterDelivery, hd, Except.toOption]
    exact h
  | ok p =>
    rw [afterDelivery_ok hd]
    exact h.deliver hd

theorem Chronicle.deliverAll (h : s.Chronicle) (ds : List (WebhookDelivery connectionId)) :
    (s.deliverAll safety ds).Chronicle :=
  Transition.invariant_run (fun _ d h => h.afterDelivery d) h ds

/-- What is kept of the deliveries on a connection, from the store on. -/
structure Reduces (safety : RuntimeSafetyConfig) (s : ProviderStore)
    (ds : List (WebhookDelivery connectionId)) : Prop where
  /-- An accepted event with the same body is a duplicate and changes nothing. -/
  repeated : ∀ before d between d' after, ds = before ++ d :: (between ++ d' :: after) →
    ((s.deliverAll safety before).deliver safety d).isOk → d'.eventId = d.eventId →
    d'.bodySha256 = d.bodySha256 →
    ∃ r, (s.deliverAll safety (before ++ d :: between)).deliver safety d'
        = .ok (s.deliverAll safety (before ++ d :: between), r) ∧ r.result = .duplicate
  /-- With another body it is refused, and changes nothing. -/
  conflicting : ∀ before d between d' after, ds = before ++ d :: (between ++ d' :: after) →
    ((s.deliverAll safety before).deliver safety d).isOk → d'.eventId = d.eventId →
    d'.bodySha256 ≠ d.bodySha256 →
    (s.deliverAll safety (before ++ d :: between)).deliver safety d'
        = .error (.conflict "Webhook event_id 已绑定到不同内容")
      ∧ s.deliverAll safety (before ++ d :: between ++ [d'])
        = s.deliverAll safety (before ++ d :: between)
  /-- An event is applied as the next one of its run, and not before one applied there. -/
  next : ∀ before d after s' r, ds = before ++ d :: after →
    (s.deliverAll safety before).deliver safety d = .ok (s', r) → r.result = .applied →
    ∃ g, (s.deliverAll safety before).graphs.get? r.runId = some g
      ∧ d.payload.sequence = g.run.lastProviderSequence + 1
      ∧ ∀ receipt ∈ (s.deliverAll safety before).receipts.rows, receipt.result = .applied →
        receipt.runId = r.runId → receipt.occurredAt ≤ d.payload.occurredAt
  /-- Events that are applied to a run come in their order. -/
  ordered : ∀ before d between d' after s₁ r s₂ r',
    ds = before ++ d :: (between ++ d' :: after) →
    (s.deliverAll safety before).deliver safety d = .ok (s₁, r) →
    (s.deliverAll safety (before ++ d :: between)).deliver safety d' = .ok (s₂, r') →
    r.result = .applied → r'.result = .applied → r'.runId = r.runId →
    d.payload.sequence < d'.payload.sequence ∧ d.payload.occurredAt ≤ d'.payload.occurredAt
  /-- A number is applied to a run once, what came before the list counted in. -/
  once : ∀ receipt ∈ (s.deliverAll safety ds).receipts.rows,
    ∀ receipt' ∈ (s.deliverAll safety ds).receipts.rows, receipt.result = .applied →
      receipt'.result = .applied → receipt.runId = receipt'.runId →
      receipt.sequence = receipt'.sequence → receipt = receipt'
  monotone : ∀ before after k g, ds = before ++ after →
    (s.deliverAll safety before).graphs.get? k = some g →
    ∃ g', (s.deliverAll safety ds).graphs.get? k = some g'
      ∧ g.run.lastProviderSequence ≤ g'.run.lastProviderSequence

theorem deliverAll_append (s : ProviderStore) (ds ds' : List (WebhookDelivery connectionId)) :
    s.deliverAll safety (ds ++ ds') = (s.deliverAll safety ds).deliverAll safety ds' :=
  Transition.run_append _ s ds ds'

theorem deliverAll_cons (s : ProviderStore) (ds : List (WebhookDelivery connectionId)) :
    s.deliverAll safety (d :: ds) = (s.afterDelivery safety d).deliverAll safety ds := rfl

/-- The answer to an event that was accepted some deliveries ago. -/
theorem deliver_again {d' : WebhookDelivery connectionId}
    (between : List (WebhookDelivery connectionId)) (h : (s.deliver safety d).isOk)
    (hevent : d'.eventId = d.eventId) :
    ∃ previous, previous.bodySha256 = d.bodySha256
      ∧ (s.deliverAll safety (d :: between)).deliver safety d'
        = if previous.bodySha256 = d'.bodySha256
          then .ok (s.deliverAll safety (d :: between),
            (s.deliverAll safety (d :: between)).duplicateOf previous)
          else .error (.conflict "Webhook event_id 已绑定到不同内容") := by
  cases hd : s.deliver safety d with
  | error e => simp [hd, Except.isOk, Except.toBool] at h
  | ok p =>
    obtain ⟨previous, hprevious, hbody⟩ := findReceipt_deliver hd
    rw [deliverAll_cons, afterDelivery_ok hd]
    have hcontinues := continues_deliverAll safety p.1 between
    refine ⟨previous, hbody, deliver_known ?_ (hevent ▸ hcontinues.receipts _ _ _ hprevious)⟩
    rw [authorizeWebhook_congr hcontinues.connections,
      authorizeWebhook_congr (continues_deliver hd).connections]
    exact (deliver_ok hd).1

theorem Chronicle.reduces (h : s.Chronicle) (ds : List (WebhookDelivery connectionId)) :
    s.Reduces safety ds where
  repeated := by
    intro before d between d' after _ haccepted hevent hsame
    obtain ⟨previous, hbody, hanswer⟩ := deliver_again between haccepted hevent
    rw [deliverAll_append, hanswer, if_pos (hbody.trans hsame.symm)]
    exact ⟨_, rfl, rfl⟩
  conflicting := by
    intro before d between d' after _ haccepted hevent hother
    obtain ⟨previous, hbody, hanswer⟩ := deliver_again between haccepted hevent
    have hne : previous.bodySha256 ≠ d'.bodySha256 := fun he => hother (he.symm.trans hbody)
    rw [if_neg hne, ← deliverAll_append] at hanswer
    refine ⟨hanswer, ?_⟩
    rw [deliverAll_append]
    show ProviderStore.afterDelivery safety _ d' = _
    simp [ProviderStore.afterDelivery, hanswer, Except.toOption]
  next := by
    intro before d after s' r _ hd happlied
    obtain ⟨g, g', hg, hnext, htime, -⟩ := deliver_applied hd happlied
    refine ⟨g, hg, hnext, fun receipt hreceipt happlied' hrun => ?_⟩
    obtain ⟨g₀, hg₀, -, t, ht, hle⟩ :=
      (h.deliverAll before).applied receipt hreceipt happlied'
    rw [hrun] at hg₀
    obtain rfl := Option.some.inj (hg.symm.trans hg₀)
    exact le_trans hle (htime t ht)
  ordered := by
    intro before d between d' after s₁ r s₂ r' _ hd hd' happlied happlied' hrun
    obtain ⟨-, g₁, -, -, -, hg₁, hseq₁, hocc₁⟩ := deliver_applied hd happlied
    obtain ⟨g₂, -, hg₂, hnext, htime, -⟩ := deliver_applied hd' happlied'
    rw [deliverAll_append, deliverAll_cons, afterDelivery_ok hd, hrun] at hg₂
    -- what the first event has left, the deliveries in between have only raised
    obtain ⟨g, hg, hlater⟩ := (continues_deliverAll safety s₁ between).graphs r.runId g₁ hg₁
    obtain rfl := Option.some.inj (hg.symm.trans hg₂)
    obtain ⟨t, ht, hle⟩ := hlater.occurredAt _ hocc₁
    have hsequence := hlater.sequence
    exact ⟨by omega, le_trans hle (htime t ht)⟩
  once := (h.deliverAll ds).once
  monotone := by
    intro before after k g hds hg
    obtain ⟨g', hg', hlater⟩ :=
      (continues_deliverAll safety (s.deliverAll safety before) after).graphs k g hg
    rw [hds, deliverAll_append]
    exact ⟨g', hg', hlater.sequence⟩

end ProviderStore

/-! ## The provider tables at any time -/

namespace ProviderSystem

variable {safety : RuntimeSafetyConfig} {s : ProviderSystem}

/-- Only a webhook adds receipts. -/
theorem step_receipts_eq {e : ProviderEvent}
    (h : ∀ connectionId eventId body payload now,
      e ≠ .webhook connectionId eventId body payload now) :
    (step safety s e).store.receipts = s.store.receipts := by
  have hstep := storeStep safety s e
  generalize (step safety s e).store = store' at hstep
  cases hstep with
  | idle => rfl
  | created => rfl
  | updated => rfl
  | deleted => rfl
  | triggered => rfl
  | moved => rfl
  | received => exact absurd rfl (h _ _ _ _ _)

/-- A webhook is a delivery, if it is about the connection that it comes in on. -/
theorem step_webhook (safety : RuntimeSafetyConfig) (s : ProviderSystem) (connectionId : Uuid)
    (eventId : String) (body : Digest String)
    (payload : ProviderWebhookPayload) (now : Instant) :
    (step safety s (.webhook connectionId eventId body payload now)).store = s.store
    ∨ ∃ d : WebhookDelivery connectionId,
      (step safety s (.webhook connectionId eventId body payload now)).store
        = s.store.afterDelivery safety d := by
  by_cases hbound : payload.connectionId = connectionId
  · refine .inr ⟨⟨eventId, body, payload, now, hbound⟩, ?_⟩
    have hstore := s.store.deliver_store safety ⟨eventId, body, payload, now, hbound⟩
    show ((s.store.processLearningCiWebhook ..).toOption).getD s.store = _
    rw [← hstore]
    unfold ProviderStore.afterDelivery
    cases s.store.deliver safety ⟨eventId, body, payload, now, hbound⟩ with
    | error e => rfl
    | ok p => rfl
  · left
    show ((s.store.processLearningCiWebhook ..).toOption).getD s.store = _
    cases hp : s.store.processLearningCiWebhook safety connectionId eventId body payload now with
    | error e => rfl
    | ok s' =>
      unfold ProviderStore.processLearningCiWebhook at hp
      rw [bind_eq_ok] at hp
      obtain ⟨c, -, hp⟩ := hp
      rw [refuse_bind_eq_ok, refuse_bind_eq_ok, refuse_bind_eq_ok] at hp
      exact absurd hbound hp.2.2.1

theorem chronicle_step (h : s.store.Chronicle) (e : ProviderEvent) :
    (step safety s e).store.Chronicle := by
  by_cases hwebhook : ∃ connectionId eventId body payload now,
      e = .webhook connectionId eventId body payload now
  · obtain ⟨connectionId, eventId, body, payload, now, rfl⟩ := hwebhook
    rcases step_webhook safety s connectionId eventId body payload now with
      hsame | ⟨d, hd⟩
    · rw [hsame]
      exact h
    · rw [hd]
      exact h.afterDelivery d
  · refine h.later (step_receipts_eq fun connectionId eventId body payload now he =>
      hwebhook ⟨connectionId, eventId, body, payload, now, he⟩) fun k g hg => ?_
    rcases step_graph_of_some safety hg e with hsame | ⟨mv, -, hmoved⟩
    · exact ⟨g, hsame, .refl g⟩
    · exact ⟨_, hmoved, g.later_move mv⟩

theorem chronicle_run (safety : RuntimeSafetyConfig) (history : List ProviderEvent) :
    (Transition.run (step safety) empty history).store.Chronicle :=
  Transition.invariant_run (I := fun s : ProviderSystem => s.store.Chronicle)
    (fun _ e h => chronicle_step h e) ProviderStore.chronicle_empty history

/-- Whatever has happened before, every list of verified webhooks on a connection is
reduced in order, and every accepted event once. -/
theorem webhooks_reduce (safety : RuntimeSafetyConfig) (history : List ProviderEvent)
    (connectionId : Uuid) (ds : List (WebhookDelivery connectionId)) :
    (Transition.run (step safety) empty history).store.Reduces safety ds :=
  (chronicle_run safety history).reduces ds

/-- A verified webhook about a run that no one has triggered. -/
def strayWebhook : WebhookDelivery 0 where
  eventId := "1"
  bodySha256 := ⟨"1"⟩
  payload :=
    { connectionId := 0, correlationId := "lesson", externalId := "run-0", sequence := 1
      occurredAt := 2, status := .running, message := none }
  now := 2
  bound := rfl

/-- A delivery that was refused is forgotten: sent again, it is no duplicate. -/
theorem not_repeated_unless_accepted :
    ¬ ∀ (safety : RuntimeSafetyConfig) (history : List ProviderEvent) (connectionId : Uuid)
      (before between : List (WebhookDelivery connectionId))
      (d d' : WebhookDelivery connectionId),
      d'.eventId = d.eventId → d'.bodySha256 = d.bodySha256 →
      ∃ s' r, ((Transition.run (step safety) empty history).store.deliverAll safety
          (before ++ d :: between)).deliver safety d' = .ok (s', r) ∧ r.result = .duplicate := by
  intro h
  obtain ⟨s', r, hr, -⟩ := h lesson [lessonConnection "local-smoke"] 0 [] [] strayWebhook
    strayWebhook rfl rfl
  have hrefused : (((Transition.run (step lesson) empty [lessonConnection "local-smoke"]).store
      |>.deliverAll lesson ([] ++ [strayWebhook])).deliver lesson
        strayWebhook).toOption.isNone := by
    decide +kernel
  rw [hr] at hrefused
  simp [Except.toOption] at hrefused

end ProviderSystem

end QaPlatform.Runtime
