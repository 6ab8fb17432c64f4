import QaPlatform.Base.Guard
import QaPlatform.Core

/-!
# Provider-neutral runs

The models and errors of `app/pipeline/providers`, and what the Learning CI
adapter makes of an answer of the CI Lab.
-/

namespace QaPlatform.Pipeline

/-- `PipelineStatus` of `app/pipeline/models.py`. -/
inductive PipelineStatus where
  | queued
  | running
  | succeeded
  | failed
  | cancelled
deriving DecidableEq, Repr

/-- `is_terminal`. -/
def PipelineStatus.Terminal (status : PipelineStatus) : Prop :=
  status = .succeeded ∨ status = .failed ∨ status = .cancelled

instance (status : PipelineStatus) : Decidable status.Terminal := by
  unfold PipelineStatus.Terminal
  infer_instance

/-- `ProviderKind`. -/
inductive ProviderKind where
  | local
  | learningCi
  | jenkins
  | gitlab
  | bkCi
deriving DecidableEq, Repr

/-- `ProviderGateDecision`. -/
inductive ProviderGateDecision where
  | approve
  | reject
deriving DecidableEq, Repr

/-- `ProviderQualityGateStatus`. -/
inductive ProviderQualityGateStatus where
  | notRequired
  | evaluating
  | waitingApproval
  | approved
  | rejected
  | failed
  | cancelled
deriving DecidableEq, Repr

/-- `ProviderGateDecisionRequest`. -/
structure ProviderGateDecisionRequest where
  eventId : String
  decision : ProviderGateDecision
  actorId : String
  actorName : String
  comment : String
deriving DecidableEq

/-- `ProviderApproval`. -/
structure ProviderApproval where
  id : Uuid
  eventId : String
  decision : ProviderGateDecision
  actorId : String
  actorName : String
  comment : String
deriving DecidableEq

/-- `ProviderQualityGate`, with the fields that the platform reads. -/
structure ProviderQualityGate where
  required : Bool
  status : ProviderQualityGateStatus
deriving DecidableEq

/-- `ProviderQualityGate()`. -/
def ProviderQualityGate.default : ProviderQualityGate := ⟨false, .notRequired⟩

/-- `ProviderTriggerRequest`. -/
structure ProviderTriggerRequest where
  definitionRef : String
  ref : Option String
  triggerVariables : List (String × String)
  correlationId : String
deriving DecidableEq

/-- A value of a run's metadata; only integers are ever looked into. -/
inductive MetaValue where
  | int (value : Int)
  | bool (value : Bool)
  | other (value : Json)
deriving DecidableEq

/-- A dictionary, with each key once. -/
abbrev Metadata := List (String × MetaValue)

/-- `metadata[key] = value`. -/
def Metadata.set (metadata : Metadata) (key : String) (value : MetaValue) : Metadata :=
  (key, value) :: metadata.filter (·.1 ≠ key)

/-- `metadata["webhook_sequence"]` where it is a number that both readers take
for a watermark. -/
def Metadata.watermark (metadata : Metadata) : Option Nat :=
  match metadata.lookup "webhook_sequence" with
  | some (.int value) => if 0 ≤ value ∧ value ≤ 2147483647 then some value.toNat else none
  | _ => none

/-- A normalized answer of a provider. -/
structure ProviderRun where
  provider : ProviderKind
  externalId : String
  status : PipelineStatus
  rawStatus : String
  webUrl : Option String
  message : Option String
  metadata : Metadata
  qualityGate : ProviderQualityGate
  approvals : List ProviderApproval
  /-- The Learning CI adapter refuses every other answer that waits for approval. -/
  waiting : provider = .learningCi → rawStatus = "waiting_approval" →
    status = .queued ∧ qualityGate.status = .waitingApproval

/-- `ProviderError` and its subclasses. -/
inductive ProviderError where
  | configuration (message : String)
  | disabled (message : String)
  | security (message : String)
  | transport (message : String)
  | response (message : String)
  | conflict (message : String)
deriving DecidableEq, Repr

/-- `_safe_provider_error`. -/
def safeProviderError : ProviderError → DomainError
  | .conflict message => .conflict message
  | .security message | .disabled message => .authorization message
  | .configuration message | .transport message | .response message =>
    .businessValidation message

/-! ## The Learning CI adapter -/

namespace LearningCi

/-- The JSON object that the CI Lab answers with. `webUrl` is what
`_safe_web_url` leaves of the field. -/
structure Payload where
  id : String
  definition : String
  definitionRevision : Option Int
  status : String
  message : Option String
  metadata : Metadata
  replayed : Option Bool
  webUrl : Option String
  qualityGate : Option ProviderQualityGate
  approvals : List ProviderApproval

/-- `_RUN_ID`. -/
def runIdValid (value : String) : Bool :=
  1 ≤ value.length ∧ value.length ≤ 200
    ∧ value.toList.all (fun c => c.isAlphanum ∨ c = '_' ∨ c = '-')

/-- `_learning_ci_status`. -/
def status (value : String) : Except ProviderError PipelineStatus :=
  let normalized := String.ofList (value.toList.map Char.toLower)
  if normalized = "queued" ∨ normalized = "waiting_approval" then .ok .queued
  else if normalized = "running" then .ok .running
  else if normalized = "succeeded" then .ok .succeeded
  else if normalized = "failed" then .ok .failed
  else if normalized = "cancelled" then .ok .cancelled
  else .error (.response "Learning CI returned an unknown run status")

theorem status_waiting_approval : status "waiting_approval" = .ok .queued := rfl

/-- `_normalize`: the run of an answer for the connection's definition. -/
def normalize (definitionId : String) (payload : Payload) : Except ProviderError ProviderRun := do
  refuse (¬ runIdValid payload.id) (.response "Learning CI run id is invalid")
  refuse (payload.definition ≠ definitionId)
    (.configuration "trigger definition does not match the configured provider resource")
  refuse (100 < payload.status.length) (.response "Learning CI returned an invalid run status")
  refuse (payload.message.any (500 < ·.length))
    (.response "Learning CI returned an invalid run message")
  let metadata := match payload.definitionRevision with
    | some revision => payload.metadata.set "definition_revision" (.int revision)
    | none => payload.metadata
  let metadata := match payload.replayed with
    | some replayed => metadata.set "replayed" (.bool replayed)
    | none => metadata
  let gate := payload.qualityGate.getD .default
  refuse (1 < payload.approvals.length ∨ payload.qualityGate = none
      ∧ payload.status = "waiting_approval")
    (.response "Learning CI returned invalid quality gate data")
  if h : payload.status = "waiting_approval"
      ∧ ¬ (gate.required ∧ gate.status = .waitingApproval) then
    .error (.response "Learning CI returned inconsistent quality gate state")
  else match hs : status payload.status with
    | .error e => .error e
    | .ok next =>
      return {
        provider := .learningCi
        externalId := payload.id
        status := next
        rawStatus := payload.status
        webUrl := payload.webUrl
        message := payload.message
        metadata
        qualityGate := gate
        approvals := payload.approvals
        waiting := by
          intro _ hw
          rw [hw, status_waiting_approval] at hs
          have hgate : gate.required ∧ gate.status = .waitingApproval := by
            simpa [hw] using h
          exact ⟨(Except.ok.inj hs).symm, hgate.2⟩ }

/-- What an answer that the adapter accepts says. -/
theorem normalize_ok {definitionId : String} {payload : Payload} {run : ProviderRun}
    (h : normalize definitionId payload = .ok run) :
    run.provider = .learningCi ∧ run.externalId = payload.id ∧ run.rawStatus = payload.status
      ∧ run.message = payload.message ∧ run.qualityGate = payload.qualityGate.getD .default
      ∧ status payload.status = .ok run.status := by
  unfold normalize at h
  simp only [refuse_bind_eq_ok] at h
  obtain ⟨-, -, -, -, -, h⟩ := h
  split at h
  · simp at h
  · split at h
    · simp at h
    · next next hs =>
      obtain rfl := pure_eq_ok.mp h
      exact ⟨rfl, rfl, rfl, rfl, rfl, hs⟩

end LearningCi

end QaPlatform.Pipeline
