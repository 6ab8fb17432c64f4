import Mathlib.Data.Finset.Insert
import QaPlatform.Runtime.Devices
import QaPlatform.Runtime.ProviderRuns

/-!
# The provider tables

Connections, provider runs and webhook receipts, with the transactions of
`PersistentRuntimeService` that write them. A transaction returns the store it
commits or raises and commits nothing. The provider itself is contacted between
transactions and appears here only through its answers.
-/

namespace QaPlatform.Runtime

open Pipeline

/-- The row of a connection; every edit counts its version up. -/
structure ProviderConnectionRecord where
  id : Uuid
  name : String
  kind : ProviderKind
  baseUrl : Option String
  definitionRef : String
  config : List (String × String)
  secretEnvVar : Option String
  webhookSecretEnvVar : Option String
  enabled : Bool
  version : Nat
  createdAt : Instant
  updatedAt : Instant
deriving DecidableEq

instance : Keyed ProviderConnectionRecord := ⟨ProviderConnectionRecord.id⟩

@[simp] theorem ProviderConnectionRecord.key_eq (c : ProviderConnectionRecord) : key c = c.id := rfl

/-- The receipt of a delivery: one for each connection and event id. -/
structure ProviderWebhookEventRecord where
  id : Uuid
  connectionId : Uuid
  runId : Uuid
  eventId : String
  externalId : String
  bodySha256 : Digest String
  sequence : Nat
  occurredAt : Instant
  normalizedStatus : WebhookStatus
  result : WebhookResult
  receivedAt : Instant

instance : Keyed ProviderWebhookEventRecord := ⟨ProviderWebhookEventRecord.id⟩

/-- The tables of connections, of runs with what belongs to them, and of receipts. -/
structure ProviderStore where
  connections : Table ProviderConnectionRecord
  graphs : Table RunGraph
  receipts : Table ProviderWebhookEventRecord

/-- `ProviderConnectionCreate`. -/
structure ProviderConnectionCreate where
  name : String
  kind : ProviderKind
  baseUrl : Option String
  definitionRef : String
  config : List (String × String)
  secretEnvVar : Option String
  webhookSecretEnvVar : Option String
  enabled : Bool

/-- `ProviderConnectionPatch`. -/
structure ProviderConnectionPatch where
  name : PatchField String
  baseUrl : PatchField String
  definitionRef : PatchField String
  config : PatchField (List (String × String))
  secretEnvVar : PatchField String
  webhookSecretEnvVar : PatchField String
  enabled : PatchField Bool
  version : Nat

/-- `ProviderTriggerPayload`. -/
structure ProviderTriggerPayload where
  ref : Option String
  triggerVariables : List (String × String)
  correlationId : Option String

/-- `RuntimeSafetyConfig`, as far as it decides which providers may be asked. -/
structure RuntimeSafetyConfig where
  appEnv : String
  providerRuntimeMode : String
  ownershipAcknowledged : Bool
  /-- Every allowed host and network is a loopback one. -/
  loopbackOnly : Bool
  providerSecretEnvNames : List String

/-- The environment variable that the Learning CI adapter takes its token from. -/
def ciLabProviderSecretName : String := "QA_PROVIDER_SECRET_CI_LAB"

/-- The environment variable that webhooks of the Learning CI are signed with. -/
def ciLabWebhookSecretName : String := "QA_PROVIDER_SECRET_CI_LAB_WEBHOOK"

/-! ## Helpers -/

/-- A field that may be set to `null`. -/
def PatchField.toOption (field : PatchField α) (old : Option α) : Option α :=
  match field with
  | .unset => old
  | .null => none
  | .value a => some a

/-- `value.rstrip("/")`. -/
def rstripSlash (value : String) : String :=
  String.ofList (value.toList.reverse.dropWhile (· = '/')).reverse

/-- The texts of a configuration, stripped. -/
def stripConfig (config : List (String × String)) : List (String × String) :=
  config.map fun (key, value) => (key, strip value)

/-- The required and the allowed configuration keys of a kind. -/
def configRules : ProviderKind → List String × List String
  | .local | .learningCi => ([], [])
  | .jenkins => (["job_name", "username"], ["job_name", "username"])
  | .gitlab => (["project_id"], ["project_id"])
  | .bkCi => (["project_id", "pipeline_id", "user_id"],
      ["project_id", "pipeline_id", "user_id", "api_prefix"])

/-- The configuration key a definition must agree with. -/
def definitionKey : ProviderKind → Option String
  | .local | .learningCi => none
  | .jenkins => some "job_name"
  | .gitlab => some "project_id"
  | .bkCi => some "pipeline_id"

/-- `_validate_connection_input`. -/
def validateConnectionInput (c : ProviderConnectionRecord) : Except DomainError Unit := do
  let (required, allowed) := configRules c.kind
  refuse (¬ (∀ entry ∈ c.config, entry.1 ∈ allowed)
    ∨ ¬ ∀ key ∈ required, key ∈ c.config.map Prod.fst)
    (.businessValidation "连接 config 字段与 provider 类型不匹配")
  refuse (∃ entry ∈ c.config, strip entry.2 = "") (.businessValidation "连接 config 的值不能为空")
  match c.kind with
  | .local =>
    refuse (c.baseUrl.isSome ∨ c.secretEnvVar.isSome ∨ c.webhookSecretEnvVar.isSome)
      (.businessValidation "本地模拟器不能配置 URL、凭据或 Webhook Secret")
  | .learningCi => do
    refuse c.baseUrl.isSome (.businessValidation "Learning CI 地址由运行模式固定，不能存入连接表")
    refuse (c.secretEnvVar ≠ some ciLabProviderSecretName)
      (.businessValidation "Learning CI 只能使用 QA_PROVIDER_SECRET_CI_LAB")
    refuse (c.webhookSecretEnvVar.isSome ∧ c.webhookSecretEnvVar ≠ some ciLabWebhookSecretName)
      (.businessValidation
        "Learning CI Webhook 只能使用独立的 QA_PROVIDER_SECRET_CI_LAB_WEBHOOK")
  | .jenkins | .gitlab | .bkCi => do
    refuse (c.baseUrl.all (· = "") ∨ c.secretEnvVar.all (· = ""))
      (.businessValidation "自建实验室 provider 必须配置 URL 和凭据环境变量名")
    let expected := (definitionKey c.kind).bind fun key => c.config.lookup key
    refuse (some (strip c.definitionRef) ≠ expected.map strip)
      (.businessValidation "definition_ref 必须与 provider 的 Job/Project/Pipeline 标识一致")

/-- `_validate_provider_dispatch_boundary`. -/
def validateProviderDispatchBoundary (safety : RuntimeSafetyConfig) (kind : ProviderKind) :
    Except DomainError Unit :=
  match kind with
  | .local => .ok ()
  | .learningCi =>
    refuse (safety.providerRuntimeMode ≠ "ci_lab_local")
      (.authorization "Learning CI 只允许在显式 ci_lab_local 模式中访问")
  | .jenkins | .gitlab | .bkCi => do
    refuse (safety.providerRuntimeMode ≠ "self_hosted_lab")
      (.authorization "当前运行模式拒绝 Jenkins/GitLab/BK-CI 网络操作")
    refuse (¬ safety.ownershipAcknowledged) (.authorization "尚未确认自建 Provider 实验室的环境所有权")
    refuse (safety.appEnv ≠ "local-container" ∧ ¬ safety.loopbackOnly)
      (.authorization
        "宿主机 self_hosted_lab 只允许环回目标；自建私网只能用于隔离的 local-container")

/-! ## The Learning CI contract of a trigger -/

/-- A character of `[A-Za-z0-9]`, which such a text starts with, or of `extra`. -/
def safeText (extra : List Char) (maxLength : Nat) (value : String) : Bool :=
  value.toList.head?.any (·.isAlphanum) ∧ value.length ≤ maxLength
    ∧ value.toList.all (fun c => c.isAlphanum ∨ c ∈ extra)

/-- `_LEARNING_CI_VARIABLE_NAME`. -/
def variableNameValid (value : String) : Bool :=
  value.toList.head?.any (·.isUpper) ∧ value.length ≤ 64
    ∧ value.toList.all (fun c => c.isUpper ∨ c.isDigit ∨ c = '_')

/-- What no segment of a variable name may be. -/
def sensitiveSegments : List String :=
  ["AUTH", "AUTHORIZATION", "COOKIE", "CREDENTIAL", "KEY", "PASS", "PASSWD", "PASSWORD", "PRIVATE",
    "SECRET", "TOKEN"]

/-- `needle in value`. -/
def containsText (needle value : String) : Bool :=
  value.toList.tails.any (needle.toList.isPrefixOf ·)

/-- The check of one variable. -/
def validateVariable (entry : String × String) : Except String Unit := do
  refuse (¬ variableNameValid entry.1)
    "variable names must use 1-64 uppercase ASCII letters, digits, or underscores"
  refuse (∃ segment ∈ entry.1.toList.splitOn '_', String.ofList segment ∈ sensitiveSegments)
    "secret-like variable names are not allowed"
  refuse (entry.2 = "" ∨ 512 < entry.2.utf8ByteSize)
    "variable values must contain 1-512 UTF-8 bytes"
  refuse (entry.2.toList.any fun c => c.toNat < 32 ∨ c.toNat = 127)
    "variable values cannot contain control characters"
  refuse (containsText "://" entry.2 ∨ containsText "../" entry.2
      ∨ containsText "..\\" entry.2)
    "URLs and parent-relative paths are not allowed in variables"

/-- `validate_learning_ci_contract`. -/
def ProviderTriggerPayload.validateLearningCiContract (payload : ProviderTriggerPayload) :
    Except String Unit := do
  refuse (payload.ref.any (¬ safeText ['.', '_', '-'] 128 ·))
    "ref must use 1-128 ASCII letters, digits, dots, underscores, or dashes"
  refuse (payload.correlationId.any (¬ safeText ['.', '_', ':', '-'] 200 ·))
    "correlation_id must use 1-200 safe ASCII characters"
  refuse (32 < payload.triggerVariables.length) "at most 32 variables are allowed"
  payload.triggerVariables.forM validateVariable
  refuse (8192 < (jsonStrings payload.triggerVariables).utf8ByteSize)
    "the canonical variable document cannot exceed 8192 bytes"

/-- No control character below the blank. -/
def printable (value : String) : Bool := value.toList.all (32 ≤ ·.toNat)

/-- The constraints that constructing a `ProviderTriggerRequest` checks. -/
def requestValid (request : ProviderTriggerRequest) : Prop :=
  printable request.definitionRef ∧ request.ref.all printable ∧ printable request.correlationId
    ∧ request.triggerVariables.all (printable ·.1)

instance (request : ProviderTriggerRequest) : Decidable (requestValid request) := by
  unfold requestValid
  infer_instance

/-- The JSON text of a trigger request, keys sorted. -/
def requestJson (request : ProviderTriggerRequest) : Json :=
  "\x7b\"correlation_id\":" ++ jsonString request.correlationId
    ++ ",\"definition_ref\":" ++ jsonString request.definitionRef
    ++ ",\"ref\":" ++ jsonOption jsonString request.ref
    ++ ",\"variables\":" ++ jsonStrings request.triggerVariables ++ "\x7d"

namespace ProviderStore

/-- The tables after the migration. -/
def empty : ProviderStore := ⟨Table.empty, Table.empty, Table.empty⟩

/-- The row of a connection, or the error for a number that is not known. -/
def requireConnection (s : ProviderStore) (connectionId : Uuid) :
    Except DomainError ProviderConnectionRecord :=
  match s.connections.get? connectionId with
  | none => .error (.notFound "集成连接" connectionId)
  | some connection => .ok connection

/-- The run of a connection, or the error of the API. -/
def requireRun (s : ProviderStore) (connectionId runId : Uuid) : Except DomainError RunGraph :=
  match s.graphs.get? runId with
  | none => .error (.notFound "集成运行" runId)
  | some g =>
    if g.run.connectionId ≠ connectionId then .error (.notFound "集成运行" runId) else .ok g

/-- Writes the rows of a run; two runs of a connection have different external ids. -/
def putGraph (s : ProviderStore) (g : RunGraph) : Except DomainError ProviderStore := do
  refuse (s.graphs.rows.any fun g' => g'.run.id ≠ g.run.id
      ∧ g'.run.connectionId = g.run.connectionId ∧ g.run.externalId.isSome
      ∧ g'.run.externalId = g.run.externalId)
    .integrity
  return { s with graphs := s.graphs.put g }

/-! ## Connections -/

/-- `create_connection`. -/
def createConnection (s : ProviderStore) (payload : ProviderConnectionCreate) (now : Instant) :
    Except DomainError ProviderStore := do
  let connection (id : Uuid) : ProviderConnectionRecord :=
    { id, name := strip payload.name, kind := payload.kind
      baseUrl := (payload.baseUrl.filter (· ≠ "")).map rstripSlash
      definitionRef := strip payload.definitionRef, config := stripConfig payload.config
      secretEnvVar := payload.secretEnvVar, webhookSecretEnvVar := payload.webhookSecretEnvVar
      enabled := payload.enabled, version := 0, createdAt := now, updatedAt := now }
  validateConnectionInput { connection s.connections.next with baseUrl := payload.baseUrl }
  refuse (strip payload.name = "" ∨ strip payload.definitionRef = "")
    (.businessValidation "连接名称和 definition_ref 不能为空")
  refuse (s.connections.rows.any (·.name = strip payload.name)) .integrity
  return { s with connections := s.connections.add connection }

/-- The connection with the fields of a PATCH. -/
def patchConnection (c : ProviderConnectionRecord) (payload : ProviderConnectionPatch) :
    ProviderConnectionRecord :=
  { c with
    name := match payload.name with
      | .value name => strip name
      | .unset | .null => c.name
    baseUrl := (payload.baseUrl.toOption c.baseUrl).map fun url =>
      match payload.baseUrl with
      | .value _ => rstripSlash url
      | .unset | .null => url
    definitionRef := match payload.definitionRef with
      | .value definitionRef => strip definitionRef
      | .unset | .null => c.definitionRef
    config := match payload.config with
      | .value config => stripConfig config
      | .unset | .null => c.config
    secretEnvVar := payload.secretEnvVar.toOption c.secretEnvVar
    webhookSecretEnvVar := payload.webhookSecretEnvVar.toOption c.webhookSecretEnvVar
    enabled := payload.enabled.getD c.enabled }

/-- `update_connection`, the PATCH of a connection at the version that was read. -/
def updateConnection (s : ProviderStore) (connectionId : Uuid)
    (payload : ProviderConnectionPatch) (now : Instant) : Except DomainError ProviderStore := do
  let old ← s.requireConnection connectionId
  refuse (old.version ≠ payload.version) (.conflict "连接配置已被其他请求修改，请刷新后重试")
  refuse payload.name.isNull (.businessValidation "连接字段 name 不能设为空")
  refuse payload.definitionRef.isNull (.businessValidation "连接字段 definition_ref 不能设为空")
  refuse payload.config.isNull (.businessValidation "连接字段 config 不能设为空")
  refuse payload.enabled.isNull (.businessValidation "连接字段 enabled 不能设为空")
  let c := patchConnection old payload
  refuse (c.name = "" ∨ c.definitionRef = "")
    (.businessValidation "连接名称和 definition_ref 不能为空")
  validateConnectionInput c
  refuse (s.connections.rows.any fun c' => c'.id ≠ c.id ∧ c'.name = c.name) .integrity
  return { s with connections := s.connections.put { c with
    version := c.version + 1
    updatedAt := now } }

/-- `delete_connection`; a connection that has runs stays. -/
def deleteConnection (s : ProviderStore) (connectionId : Uuid) :
    Except DomainError ProviderStore := do
  let _ ← s.requireConnection connectionId
  refuse (s.graphs.rows.any (·.run.connectionId = connectionId))
    (.conflict "连接已有运行历史，只能停用，不能删除")
  return { s with connections := s.connections.erase connectionId }

/-! ## Triggers -/

/-- The gate that a run starts with. -/
def initialGate (c : ProviderConnectionRecord) : ProviderQualityGateStatus :=
  if c.kind = .learningCi ∧ c.definitionRef = "local-quality-gate" then .evaluating
  else .notRequired

/-- The rows that `trigger_provider` inserts, under a new identifier for both. -/
def triggeredGraph (c : ProviderConnectionRecord) (request : ProviderTriggerRequest)
    (fingerprint : Digest Json) (actor : Option RunGraph.Actor) (now : Instant) (id : Uuid) :
    RunGraph where
  run :=
    { id, connectionId := c.id, externalId := none, status := .queued
      rawStatus := "trigger_pending", webUrl := none
      message := some "trigger intent is waiting for a dispatcher"
      runMetadata := [("definition_ref", .other (jsonString request.definitionRef)),
        ("ref", .other (jsonOption jsonString request.ref))]
      correlationId := request.correlationId, requestFingerprint := fingerprint
      dispatchStatus := .pending, qualityGateStatus := initialGate c, lastProviderSequence := 0
      lastProviderOccurredAt := none, reconciliationRequired := false
      triggeredByUserId := actor.map (·.userId)
      triggeredByName := (actor.map (·.username)).getD "local-user", version := 0
      createdAt := now, updatedAt := now }
  intent :=
    { id, runId := id, connectionId := c.id, connectionVersion := c.version
      requestPayload := request, idempotencyKey := request.correlationId
      requestFingerprint := fingerprint, status := .pending, attempts := 0, maxAttempts := 5
      availableAt := now, leaseOwner := none, leaseTokenHash := none, leaseExpiresAt := none
      lastErrorCode := none, createdAt := now, updatedAt := now, completedAt := none }
  approval := none

/-- The rest of `trigger_provider`, for the request that it built; `requested` is
the correlation id that the caller gave. -/
def recordTrigger (s : ProviderStore) (c : ProviderConnectionRecord)
    (request : ProviderTriggerRequest) (requested : Option String) (actor : Option RunGraph.Actor)
    (now : Instant) : Except DomainError ProviderStore := do
  refuse (¬ requestValid request) .schema
  let fingerprint ← jsonFingerprint (requestJson request)
  match requested.bind fun correlationId => s.graphs.rows.find? fun g =>
      g.run.connectionId = c.id ∧ g.run.correlationId = correlationId with
  | some previous =>
    refuse (previous.run.requestFingerprint ≠ fingerprint)
      (.conflict "correlation_id 已用于不同的触发参数")
    return s
  | none =>
    refuse (s.graphs.rows.any fun g =>
        g.run.connectionId = c.id ∧ g.run.correlationId = request.correlationId)
      .integrity
    return { s with graphs := s.graphs.add (triggeredGraph c request fingerprint actor now) }

/-- `trigger_provider`; `generated` is the correlation id used when none is given. -/
def triggerProvider (safety : RuntimeSafetyConfig) (s : ProviderStore) (connectionId : Uuid)
    (payload : ProviderTriggerPayload) (actor : Option RunGraph.Actor) (generated : String)
    (now : Instant) : Except DomainError ProviderStore := do
  let c ← s.requireConnection connectionId
  refuse (¬ c.enabled) (.authorization "该 provider 连接未开启")
  validateProviderDispatchBoundary safety c.kind
  if c.kind = .learningCi then
    payload.validateLearningCiContract.mapError fun error =>
      .businessValidation ("Learning CI 触发参数无效：" ++ error)
  s.recordTrigger c
    { definitionRef := c.definitionRef, ref := payload.ref,
      triggerVariables := payload.triggerVariables
      correlationId := payload.correlationId.getD generated }
    payload.correlationId actor now

/-- What a dispatcher takes along of the rows it claimed. -/
structure ClaimedProviderTrigger where
  intentId : Uuid
  runId : Uuid
  leaseToken : String
  connection : ProviderConnectionRecord
  request : ProviderTriggerRequest
  attempts : Nat
  maxAttempts : Nat

/-- The first due intent that no other transaction has locked. -/
def claimCandidate (s : ProviderStore) (now : Instant) (skipped : List Uuid) : Option RunGraph :=
  firstBy (fun g => [g.intent.availableAt, g.intent.createdAt, g.intent.id])
    (s.graphs.rows.filter fun g => RunGraph.Claimable g.intent now ∧ g.intent.id ∉ skipped)

/-- The parameters that `dispatch_provider_trigger_once` lets a dispatcher claim with. -/
def ValidDispatch (workerId : String) (leaseSeconds : Int) : Prop :=
  strip workerId ≠ "" ∧ (strip workerId).length ≤ 200 ∧ 5 ≤ leaseSeconds ∧ leaseSeconds ≤ 3600

instance (workerId : String) (leaseSeconds : Int) :
    Decidable (ValidDispatch workerId leaseSeconds) := by
  unfold ValidDispatch
  infer_instance

/-- `_claim_provider_trigger`, behind the checks of `dispatch_provider_trigger_once`. -/
def claimProviderTrigger (s : ProviderStore) (workerId : String) (leaseSeconds : Int)
    (leaseToken : String) (now : Instant) (skipped : List Uuid) :
    Except DomainError (ProviderStore × Option ClaimedProviderTrigger) := do
  refuse (strip workerId = "" ∨ 200 < (strip workerId).length)
    (.businessValidation "dispatcher worker_id 无效")
  refuse (¬ (5 ≤ leaseSeconds ∧ leaseSeconds ≤ 3600))
    (.businessValidation "dispatcher lease_seconds 必须在 5 到 3600 之间")
  match s.claimCandidate now skipped with
  | none => return (s, none)
  | some g =>
    match s.connections.get? g.intent.connectionId with
    | none => throw (.invalidState "触发 Intent 的关联数据不存在")
    | some connection =>
      let g := g.claim (strip workerId) leaseToken leaseSeconds now
      return ({ s with graphs := s.graphs.put g },
        some {
          intentId := g.intent.id
          runId := g.run.id
          leaseToken
          connection
          request := g.intent.requestPayload
          attempts := g.intent.attempts
          maxAttempts := g.intent.maxAttempts })

/-- The locked rows of a claimed trigger. -/
def requireClaimed (s : ProviderStore) (claimed : ClaimedProviderTrigger) (message : String) :
    Except DomainError RunGraph :=
  match s.graphs.get? claimed.runId with
  | none => .error (.invalidState message)
  | some g => if g.intent.id ≠ claimed.intentId then .error (.invalidState message) else .ok g

/-- `_finalize_provider_trigger`: the provider has taken the trigger. -/
def finalizeProviderTrigger (s : ProviderStore) (claimed : ClaimedProviderTrigger)
    (run : ProviderRun) (now : Instant) : Except DomainError ProviderStore := do
  let g ← s.requireClaimed claimed "触发 Intent 在分发期间被删除"
  let g ← g.finalize claimed.leaseToken run now
  s.putGraph g

/-- `_settle_provider_trigger_failure`: the attempt has failed, for now or for good. -/
def settleProviderTriggerFailure (s : ProviderStore) (claimed : ClaimedProviderTrigger)
    (errorCode : String) (retryable : Bool) (now : Instant) : Except DomainError ProviderStore := do
  let g ← s.requireClaimed claimed "触发 Intent 在失败结算期间被删除"
  let g ← g.settleFailure claimed.leaseToken errorCode retryable now
  s.putGraph g

/-! ## Polls, cancels and decisions -/

/-- A request to the provider between the two transactions of
`_refresh_provider_run`. -/
structure PendingRefresh where
  connectionId : Uuid
  runId : Uuid
  kind : ProviderKind
  externalId : String
  expectedVersion : Nat
  cancel : Bool
  /-- The answer that the local simulator makes up on the spot. -/
  localAnswer : ProviderRun

/-- The answer of the local simulator to a poll or a cancel. -/
def localAnswer (record : ProviderRunRecord) (externalId : String) (cancel : Bool) :
    ProviderRun where
  provider := .local
  externalId := externalId
  status := if cancel then .cancelled else record.status
  rawStatus := if cancel then "cancelled" else record.rawStatus
  webUrl := record.webUrl
  message := if cancel then some "cancelled by local simulator" else record.message
  metadata := record.runMetadata
  qualityGate := .default
  approvals := []
  waiting := by simp

/-- The first transaction of `_refresh_provider_run`. -/
def prepareRefresh (s : ProviderStore) (connectionId runId : Uuid) (cancel : Bool)
    (now : Instant) : Except DomainError (ProviderStore × Option PendingRefresh) := do
  let c ← s.requireConnection connectionId
  let g ← s.requireRun connectionId runId
  match g.run.externalId with
  | none =>
    if cancel ∧ g.Undispatched then
      return ({ s with graphs := s.graphs.put (g.cancelBeforeDispatch now) }, none)
    else return (s, none)
  | some externalId =>
    return (s, some {
      connectionId, runId, kind := c.kind, externalId, expectedVersion := g.run.version, cancel
      localAnswer := localAnswer g.run externalId cancel })

/-- The answer that the second transaction works with. -/
def PendingRefresh.answer (pending : PendingRefresh) (run : ProviderRun) : ProviderRun :=
  if pending.kind = .local then pending.localAnswer else run

/-- The end of a refresh: the snapshot is taken if the run is still what was read. -/
def commitRefresh (s : ProviderStore) (pending : PendingRefresh) (run : ProviderRun)
    (now : Instant) : Except DomainError ProviderStore := do
  let g ← s.requireRun pending.connectionId pending.runId
  s.putGraph (g.commitRefresh pending.expectedVersion (pending.answer run) now)

/-- A decision between the transactions of `decide_provider_quality_gate`. -/
structure PendingDecision where
  connectionId : Uuid
  runId : Uuid
  kind : ProviderKind
  externalId : String
  expectedVersion : Nat
  payload : RunGraph.ProviderRunApprovalPayload
  actor : Option RunGraph.Actor

/-- The first transaction of a decision; a decision that is repeated ends here. -/
def prepareDecision (s : ProviderStore) (connectionId runId : Uuid)
    (payload : RunGraph.ProviderRunApprovalPayload) (actor : Option RunGraph.Actor) :
    Except DomainError (Option PendingDecision) := do
  let c ← s.requireConnection connectionId
  let g ← s.requireRun connectionId runId
  let prepared ← g.prepareDecision c.kind payload actor
  return prepared.map fun p =>
    { connectionId, runId, kind := c.kind, externalId := p.externalId
      expectedVersion := p.expectedVersion, payload, actor }

/-- The second transaction of a decision, with what the provider has answered. -/
def commitDecision (s : ProviderStore) (pending : PendingDecision) (run : ProviderRun)
    (now : Instant) : Except DomainError ProviderStore := do
  let g ← s.requireRun pending.connectionId pending.runId
  let g ← g.commitDecision pending.payload pending.actor pending.expectedVersion run now
  s.putGraph g

/-! ## Webhooks -/

/-- The local run of an event: by its external identity, else by correlation. -/
def webhookTarget (s : ProviderStore) (connectionId : Uuid) (payload : ProviderWebhookPayload) :
    Option RunGraph :=
  (s.graphs.rows.find? fun g =>
      g.run.connectionId = connectionId ∧ g.run.externalId = some payload.externalId).or
    (s.graphs.rows.find? fun g =>
      g.run.connectionId = connectionId ∧ g.run.correlationId = payload.correlationId)

/-- The receiver takes an event: its connection is one to the CI Lab, enabled and with its secret
bound, the event is about this connection, and its identifier has not been used yet. -/
def Receives (safety : RuntimeSafetyConfig) (s : ProviderStore) (connectionId : Uuid)
    (eventId : String) (payload : ProviderWebhookPayload) : Prop :=
  (∃ c ∈ s.connections.get? connectionId, c.kind = .learningCi ∧ c.enabled = true
      ∧ c.webhookSecretEnvVar = some ciLabWebhookSecretName
      ∧ ciLabWebhookSecretName ∈ safety.providerSecretEnvNames)
    ∧ payload.connectionId = connectionId
    ∧ ∀ r ∈ s.receipts.rows, ¬ (r.connectionId = connectionId ∧ r.eventId = eventId)

instance (safety : RuntimeSafetyConfig) (s : ProviderStore) (connectionId : Uuid)
    (eventId : String) (payload : ProviderWebhookPayload) :
    Decidable (s.Receives safety connectionId eventId payload) := by
  unfold Receives
  infer_instance

/-- `process_learning_ci_webhook` for a request whose signature was verified. -/
def processLearningCiWebhook (safety : RuntimeSafetyConfig) (s : ProviderStore)
    (connectionId : Uuid) (eventId : String) (bodySha256 : Digest String)
    (payload : ProviderWebhookPayload) (now : Instant) : Except DomainError ProviderStore := do
  let c ← s.requireConnection connectionId
  refuse (c.kind ≠ .learningCi ∨ ¬ c.enabled) (.authorization "Webhook 连接未启用")
  refuse (c.webhookSecretEnvVar ≠ some ciLabWebhookSecretName
      ∨ ciLabWebhookSecretName ∉ safety.providerSecretEnvNames)
    (.authorization "Webhook Secret 未绑定到独立白名单")
  refuse (payload.connectionId ≠ connectionId)
    (.authorization "Webhook 回调绑定与接收路径不一致")
  match s.receipts.rows.find? fun r => r.connectionId = connectionId ∧ r.eventId = eventId with
  | some previous =>
    refuse (previous.bodySha256 ≠ bodySha256) (.conflict "Webhook event_id 已绑定到不同内容")
    return s
  | none =>
    match s.webhookTarget connectionId payload with
    | none => throw (.conflict "Webhook 回调未关联到本地运行")
    | some g =>
      let (g, result) ← g.webhook payload now
      let s ← s.putGraph g
      return { s with receipts := s.receipts.add fun id =>
        { id, connectionId, runId := g.run.id, eventId, externalId := payload.externalId
          bodySha256, sequence := payload.sequence, occurredAt := payload.occurredAt
          normalizedStatus := payload.status, result, receivedAt := now } }

end ProviderStore

end QaPlatform.Runtime
