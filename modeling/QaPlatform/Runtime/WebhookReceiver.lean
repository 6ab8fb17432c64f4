import QaPlatform.Runtime.ProviderStore

/-!
# The webhook receiver

All of `process_learning_ci_webhook`: a first transaction that looks at the connection,
the secret and the signature outside of any transaction, and a second one that looks at
the connection again and stores a receipt. Anything can be committed between the two.
-/

namespace QaPlatform

/-- `status_code`; what is not a `DomainError` ends as an internal error. -/
def DomainError.statusCode : DomainError → Nat
  | .notFound .. => 404
  | .conflict _ => 409
  | .invalidState _ => 409
  | .businessValidation _ => 400
  | .authentication _ => 401
  | .authorization _ => 403
  | .schema | .typeError => 500

/-- It is a `DomainError`, and no other exception. -/
def DomainError.Handled (e : DomainError) : Prop := e ≠ .schema ∧ e ≠ .typeError

theorem handled_conflict (message : String) : (DomainError.conflict message).Handled :=
  ⟨by simp, by simp⟩

theorem handled_authorization (message : String) : (DomainError.authorization message).Handled :=
  ⟨by simp, by simp⟩

theorem handled_businessValidation (message : String) :
    (DomainError.businessValidation message).Handled :=
  ⟨by simp, by simp⟩

theorem handled_notFound (resource : String) (id : Uuid) :
    (DomainError.notFound resource id).Handled :=
  ⟨by simp, by simp⟩

/-- A `DomainError` says that the request is at fault. -/
theorem DomainError.Handled.statusCode {e : DomainError} (h : e.Handled) :
    e.statusCode ∈ [400, 401, 403, 404, 409] := by
  cases e with
  | schema => exact absurd rfl h.1
  | typeError => exact absurd rfl h.2
  | notFound | conflict | invalidState | businessValidation | authentication | authorization =>
    simp [DomainError.statusCode]

namespace Runtime

/-- `VerifiedWebhook`, as far as it is read. -/
structure VerifiedWebhook where
  eventId : String
  bodySha256 : Digest String

/-- What there is to a request: the secret, if the secret store can be read, what the verifier
with a secret makes of the headers and the body, and what the body parses to. -/
structure WebhookRequest where
  secret : Option String
  verify : String → Option VerifiedWebhook
  payload : Option ProviderWebhookPayload

namespace ProviderStore

/-- The first transaction. -/
def authorizeWebhook (safety : RuntimeSafetyConfig) (s : ProviderStore) (connectionId : Uuid) :
    Except DomainError Unit := do
  let c ← s.requireConnection connectionId
  refuse (c.kind ≠ .learningCi ∨ ¬ c.enabled) (.authorization "Webhook 连接未启用")
  refuse (c.webhookSecretEnvVar ≠ some ciLabWebhookSecretName
      ∨ ciLabWebhookSecretName ∉ safety.providerSecretEnvNames)
    (.authorization "Webhook Secret 未绑定到独立白名单")

/-- The second transaction. -/
def storeReceipt (s : ProviderStore) (connectionId : Uuid) (verified : VerifiedWebhook)
    (payload : ProviderWebhookPayload) (now : Instant) : Except DomainError ProviderStore := do
  let c ← s.requireConnection connectionId
  refuse (c.kind ≠ .learningCi ∨ ¬ c.enabled
      ∨ c.webhookSecretEnvVar ≠ some ciLabWebhookSecretName)
    (.authorization "Webhook 连接状态已变化")
  match s.receipts.rows.find? fun r =>
      r.connectionId = connectionId ∧ r.eventId = verified.eventId with
  | some previous =>
    refuse (previous.bodySha256 ≠ verified.bodySha256)
      (.conflict "Webhook event_id 已绑定到不同内容")
    return s
  | none =>
    match s.webhookTarget connectionId payload with
    | none => throw (.conflict "Webhook 回调未关联到本地运行")
    | some g =>
      let (g, result) ← g.webhook payload now
      let s ← s.putGraph g
      return { s with receipts := s.receipts.add fun id =>
        { id, connectionId, runId := g.run.id, eventId := verified.eventId
          externalId := payload.externalId, bodySha256 := verified.bodySha256
          sequence := payload.sequence, occurredAt := payload.occurredAt
          normalizedStatus := payload.status, result, receivedAt := now } }

/-- `process_learning_ci_webhook`, with the stores that its transactions find. -/
def receiveLearningCiWebhook (safety : RuntimeSafetyConfig) (before after : ProviderStore)
    (connectionId : Uuid) (request : WebhookRequest) (now : Instant) :
    Except DomainError ProviderStore := do
  before.authorizeWebhook safety connectionId
  let secret ← demand (.authorization "Webhook Secret 不可用") request.secret
  let verified ← demand (.authorization "Webhook 验证失败") (request.verify secret)
  let payload ← demand (.businessValidation "Webhook 事件格式无效") request.payload
  refuse (payload.connectionId ≠ connectionId)
    (.authorization "Webhook 回调绑定与接收路径不一致")
  after.storeReceipt connectionId verified payload now

variable {safety : RuntimeSafetyConfig} {s before after : ProviderStore} {connectionId : Uuid}
  {now : Instant} {verified : VerifiedWebhook} {payload : ProviderWebhookPayload}

/-- When nothing changes in between, a verified request is what one transaction makes of it. -/
theorem receive_verified {secret : String} {request : WebhookRequest}
    (hsecret : request.secret = some secret) (hverified : request.verify secret = some verified)
    (hpayload : request.payload = some payload) :
    s.receiveLearningCiWebhook safety s connectionId request now
      = s.processLearningCiWebhook safety connectionId verified.eventId verified.bodySha256 payload
        now := by
  unfold receiveLearningCiWebhook processLearningCiWebhook authorizeWebhook storeReceipt
  rw [hsecret, hpayload]
  cases hc : s.requireConnection connectionId with
  | error e => rfl
  | ok c =>
    by_cases hclosed : c.kind ≠ .learningCi ∨ ¬ c.enabled
    · simp only [bind, Except.bind, refuse, if_pos hclosed]
    by_cases hunbound : c.webhookSecretEnvVar ≠ some ciLabWebhookSecretName
        ∨ ciLabWebhookSecretName ∉ safety.providerSecretEnvNames
    · simp only [bind, Except.bind, refuse, if_neg hclosed, if_pos hunbound]
    have hopen : ¬ (c.kind ≠ .learningCi ∨ ¬ c.enabled
        ∨ c.webhookSecretEnvVar ≠ some ciLabWebhookSecretName) := by
      rintro (hkind | henabled | hname)
      · exact hclosed (.inl hkind)
      · exact hclosed (.inr henabled)
      · exact hunbound (.inl hname)
    -- both look for the receipt, and then for the run
    cases hreceipt : s.receipts.rows.find? fun r =>
        r.connectionId = connectionId ∧ r.eventId = verified.eventId with
    | some previous =>
      simp only [bind, Except.bind, refuse, demand, if_neg hclosed, if_neg hunbound,
        if_neg hopen, hverified, hreceipt]
    | none =>
      cases htarget : s.webhookTarget connectionId payload with
      | none =>
        simp only [bind, Except.bind, refuse, demand, if_neg hclosed, if_neg hunbound,
          if_neg hopen, hverified, hreceipt, htarget]
      | some g =>
        simp only [bind, Except.bind, refuse, demand, if_neg hclosed, if_neg hunbound,
          if_neg hopen, hverified, hreceipt, htarget]

/-! ## Refusals -/

theorem requireConnection_raises (s : ProviderStore) (connectionId : Uuid) :
    Raises DomainError.Handled (s.requireConnection connectionId) := by
  unfold requireConnection
  split
  · exact .throw (handled_notFound _ _)
  · exact .pure

theorem webhook_raises (g : RunGraph) (payload : ProviderWebhookPayload) (now : Instant) :
    Raises DomainError.Handled (g.webhook payload now) :=
  .bind (.refuse (handled_conflict _)) fun _ _ =>
    .bind (.refuse (handled_conflict _)) fun _ _ => .pure

theorem putGraph_raises (s : ProviderStore) (g : RunGraph) :
    Raises DomainError.Handled (s.putGraph g) :=
  .bind (.refuse (handled_conflict _)) fun _ _ => .pure

theorem storeReceipt_raises :
    Raises DomainError.Handled (s.storeReceipt connectionId verified payload now) := by
  refine .bind (s.requireConnection_raises connectionId) fun c _ => ?_
  refine .bind (.refuse (handled_authorization _)) fun _ _ => ?_
  split
  · exact .bind (.refuse (handled_conflict _)) fun _ _ => .pure
  · split
    · exact .throw (handled_conflict _)
    · exact .bind (webhook_raises _ _ _) fun _ _ => .bind (putGraph_raises _ _) fun _ _ => .pure

/-- Whatever the receiver refuses for, it answers with a `DomainError`. -/
theorem receive_raises {request : WebhookRequest} :
    Raises DomainError.Handled
      (before.receiveLearningCiWebhook safety after connectionId request now) := by
  refine .bind (.bind (requireConnection_raises _ _) fun _ _ =>
    .bind (.refuse (handled_authorization _)) fun _ _ => .refuse (handled_authorization _))
    fun _ _ => ?_
  refine .bind (.demand (handled_authorization _)) fun secret _ => ?_
  refine .bind (.demand (handled_authorization _)) fun verified _ => ?_
  refine .bind (.demand (handled_businessValidation _)) fun payload _ => ?_
  exact .bind (.refuse (handled_authorization _)) fun _ _ => storeReceipt_raises

end ProviderStore

end Runtime

end QaPlatform
