import QaPlatform.Base.Ascii
import QaPlatform.Base.Hex
import QaPlatform.Runtime.ProviderSteps
import QaPlatform.Runtime.ProviderSystem
import QaPlatform.Runtime.WebhookReceiver

/-!
# The request models

What pydantic checks of a trigger and of a gate decision: once in the API models of
`app/runtime/schemas.py`, and again in the models of `app/pipeline/providers/models.py`
that the service builds from them. The second check runs outside of FastAPI, where a
`ValidationError` is no `DomainError` and nothing handles it.

Both models collect the errors of all their fields, so what is accepted is a conjunction
(`ProviderTriggerPayload.errors`, `ProviderTriggerRequest.errors`), and the question is which
condition of the second is no consequence of the first. `requests_built_iff` names them for
triggers and for decisions. The counterexample is a request that the API lets through and whose
second model raises.
-/

namespace QaPlatform

theorem handled_invalidState (message : String) : (DomainError.invalidState message).Handled :=
  ⟨by simp, by simp⟩

theorem not_handled_schema : ¬ DomainError.schema.Handled := fun h => h.1 rfl

/-- `UUID.hex`. -/
def uuidHex (id : Uuid) : String := String.ofList (Hex.digits 32 id)

/-- `str` of a `UUID`. -/
def uuidText (id : Uuid) : String :=
  String.ofList (Hex.digits 8 (id / 16 ^ 24) ++ '-' :: (Hex.digits 4 (id / 16 ^ 20)
    ++ '-' :: (Hex.digits 4 (id / 16 ^ 16) ++ '-' :: (Hex.digits 4 (id / 16 ^ 12)
    ++ '-' :: Hex.digits 12 id))))

@[simp] theorem length_uuidHex (id : Uuid) : (uuidHex id).length = 32 := by
  simp [uuidHex]

@[simp] theorem length_uuidText (id : Uuid) : (uuidText id).length = 36 := by
  unfold uuidText
  simp only [String.length_ofList, List.length_append, List.length_cons, Hex.length_digits]

theorem mem_uuidHex {id : Uuid} {c : Char} (hc : c ∈ (uuidHex id).toList) : c.isAlphanum := by
  unfold uuidHex at hc
  rw [String.toList_ofList] at hc
  exact Hex.isAlphanum_of_mem_digits hc

theorem mem_uuidText {id : Uuid} {c : Char} (hc : c ∈ (uuidText id).toList) :
    c.isAlphanum ∨ c = '-' := by
  unfold uuidText at hc
  simp only [String.toList_ofList, List.mem_append, List.mem_cons] at hc
  obtain hc | hc | hc | hc | hc | hc | hc | hc | hc := hc
  all_goals first
    | exact .inr hc
    | exact .inl (Hex.isAlphanum_of_mem_digits hc)

namespace Runtime

open Pipeline

theorem mapError_eq_ok {ε ε' α : Type} {x : Except ε α} {f : ε → ε'} {a : α} :
    x.mapError f = .ok a ↔ x = .ok a := by
  cases x with
  | error e => simp [Except.mapError]
  | ok b => simp [Except.mapError]

/-! ## Checks of fields -/

/-- An entry of `ValidationError.errors()`. -/
structure FieldError where
  field : String
  message : String
deriving DecidableEq, Repr

/-- The entry of a field, when its check raised. -/
def FieldError.of (field : String) : Except String Unit → List FieldError
  | .ok _ => []
  | .error message => [⟨field, message⟩]

@[simp] theorem FieldError.of_eq_nil {field : String} {check : Except String Unit} :
    FieldError.of field check = [] ↔ check = .ok () := by
  cases check with
  | error message => simp [FieldError.of]
  | ok _ => simp [FieldError.of]

/-- `Field(min_length=…, max_length=…)`. -/
def checkLength (minLength maxLength : Nat) (value : String) : Except String Unit := do
  refuse (maxLength < value.length)
    ("String should have at most " ++ toString maxLength ++ " characters")
  refuse (value.length < minLength)
    ("String should have at least " ++ toString minLength
      ++ if minLength = 1 then " character" else " characters")

/-- A check of `str | None`, which `None` passes. -/
def checkOption (check : String → Except String Unit) : Option String → Except String Unit
  | none => .ok ()
  | some value => check value

/-- Some character is below the blank, or DEL. -/
def hasControl (value : String) : Bool :=
  value.toList.any fun c => c.toNat < 32 ∨ c.toNat = 127

/-- What no variable name may have in it. -/
def credentialMarkers : List String :=
  ["secret", "token", "password", "passwd", "credential", "api_key", "apikey", "private_key",
    "authorization"]

@[simp] theorem checkLength_eq_ok {minLength maxLength : Nat} {value : String} :
    checkLength minLength maxLength value = .ok ()
      ↔ minLength ≤ value.length ∧ value.length ≤ maxLength := by
  unfold checkLength
  rw [refuse_bind_eq_ok, refuse_eq_ok]
  omega

theorem checkOption_eq_ok {check : String → Except String Unit} {value : Option String} :
    checkOption check value = .ok () ↔ ∀ text, value = some text → check text = .ok () := by
  cases value with
  | none => simp [checkOption]
  | some text => simp [checkOption]

/-! ## The models of the API -/

section
variable (casefold : String → String)

/-- The loop body of `bounded_non_secret_variables`. -/
def nonSecretVariable (entry : String × String) : Except String Unit := do
  let normalized := casefold entry.1
  refuse (credentialMarkers.any (containsText · normalized))
    "Value error, secrets must be configured by environment, not trigger input"
  refuse (entry.1 = "" ∨ 128 < entry.1.length ∨ 4096 < entry.2.length)
    "Value error, provider variable is too large"

/-- `bounded_non_secret_variables`. -/
def boundedNonSecretVariables (value : List (String × String)) : Except String Unit := do
  refuse (100 < value.length) "Value error, at most 100 variables are allowed"
  value.forM (nonSecretVariable casefold)

/-- The errors of a `ProviderTriggerPayload`, field by field. -/
def ProviderTriggerPayload.errors (payload : ProviderTriggerPayload) : List FieldError :=
  FieldError.of "ref" (checkOption (checkLength 1 300) payload.ref)
    ++ FieldError.of "variables" (boundedNonSecretVariables casefold payload.triggerVariables)
    ++ FieldError.of "correlation_id" (checkOption (checkLength 1 200) payload.correlationId)

/-- A payload as FastAPI hands it over: every field passed, and the variables are a
dictionary. -/
structure AcceptedTrigger extends ProviderTriggerPayload where
  accepted : toProviderTriggerPayload.errors casefold = []
  distinct : (triggerVariables.map Prod.fst).Nodup

/-- `pattern=` looks for a match anywhere in the text, and one safe character is one. -/
def patternFound (value : String) : Except String Unit :=
  refuse (¬ value.toList.any Char.isAlphanum)
    "String should match pattern '[A-Za-z0-9][A-Za-z0-9._:-]\x7b0,199\x7d'"

/-- The decision is one of the two by its type. -/
def RunGraph.ProviderRunApprovalPayload.errors (payload : RunGraph.ProviderRunApprovalPayload) :
    List FieldError :=
  FieldError.of "event_id" (do
      checkLength 1 200 payload.eventId
      patternFound payload.eventId)
    ++ FieldError.of "comment" (checkLength 0 1000 payload.comment)

/-- An approval payload that has been validated. -/
structure AcceptedApproval extends RunGraph.ProviderRunApprovalPayload where
  accepted : toProviderRunApprovalPayload.errors = []

/-! ## The models of the providers -/

/-- `no_control_characters`. -/
def noControlCharacters (value : String) : Except String Unit :=
  refuse (¬ printable value) "Value error, provider identifiers cannot contain control characters"

/-- The loop body of `bounded_variables`. -/
def boundedVariable (entry : String × String) : Except String Unit := do
  refuse (credentialMarkers.any (containsText · (casefold entry.1)))
    "Value error, provider variables cannot contain credential-like keys"
  refuse (entry.1 = "" ∨ 128 < entry.1.length ∨ 4096 < entry.2.length)
    "Value error, provider variable key or value is too large"
  refuse (¬ printable entry.1)
    "Value error, provider variable keys cannot contain control characters"

/-- `bounded_variables`. -/
def boundedVariables (value : List (String × String)) : Except String Unit := do
  refuse (100 < value.length) "Value error, at most 100 provider variables are allowed"
  value.forM (boundedVariable casefold)

/-- An identifier of a trigger request, of so many characters at most. -/
def checkIdentifier (maxLength : Nat) (value : String) : Except String Unit := do
  checkLength 1 maxLength value
  noControlCharacters value

end

end Runtime

open QaPlatform.Runtime

namespace Pipeline

/-- The errors of a `ProviderTriggerRequest`, field by field. -/
def ProviderTriggerRequest.errors (casefold : String → String) (request : ProviderTriggerRequest) :
    List FieldError :=
  FieldError.of "definition_ref" (checkIdentifier 300 request.definitionRef)
    ++ FieldError.of "ref" (checkOption (checkIdentifier 300) request.ref)
    ++ FieldError.of "variables" (boundedVariables casefold request.triggerVariables)
    ++ FieldError.of "correlation_id" (checkIdentifier 200 request.correlationId)

/-- `ProviderTriggerRequest(…)`. -/
def ProviderTriggerRequest.construct (casefold : String → String)
    (request : ProviderTriggerRequest) : Except DomainError ProviderTriggerRequest := do
  refuse (request.errors casefold ≠ []) .schema
  return request

/-- `valid_event_id`. -/
def validEventId (value : String) : Except String Unit :=
  refuse (¬ safeText ['.', '_', ':', '-'] 200 value)
    "Value error, approval event id must contain safe ASCII characters"

/-- `valid_actor_id`. -/
def validActorId (value : String) : Except String Unit :=
  refuse (¬ safeText ['.', '_', ':', '@', '-'] 100 value)
    "Value error, approval actor id must contain safe ASCII characters"

/-- `valid_actor_name`. -/
def validActorName (value : String) : Except String Unit :=
  refuse (strip value = "" ∨ hasControl (strip value)) "Value error, approval actor name is invalid"

/-- `valid_comment`. -/
def validComment (value : String) : Except String Unit :=
  refuse (hasControl (strip value)) "Value error, approval comment is invalid"

/-- The errors of a `ProviderGateDecisionRequest`, field by field. -/
def ProviderGateDecisionRequest.errors (request : ProviderGateDecisionRequest) : List FieldError :=
  FieldError.of "event_id" (do
      checkLength 1 200 request.eventId
      validEventId request.eventId)
    ++ FieldError.of "actor_id" (do
      checkLength 1 100 request.actorId
      validActorId request.actorId)
    ++ FieldError.of "actor_name" (do
      checkLength 1 100 request.actorName
      validActorName request.actorName)
    ++ FieldError.of "comment" (do
      checkLength 0 1000 request.comment
      validComment request.comment)

/-- `ProviderGateDecisionRequest(…)`, which keeps the name and the comment stripped. -/
def ProviderGateDecisionRequest.construct (request : ProviderGateDecisionRequest) :
    Except DomainError ProviderGateDecisionRequest := do
  refuse (request.errors ≠ []) .schema
  return { request with
    actorName := strip request.actorName
    comment := strip request.comment }

end Pipeline

namespace Runtime

open Pipeline

/-! ## What the service builds -/

/-- A model is built, or pydantic raises. -/
theorem raises_schema_iff {α : Type} {errors : List FieldError} {model : α} :
    Raises DomainError.Handled
        (refuse (errors ≠ []) DomainError.schema >>= fun _ => (pure model : Except DomainError α))
      ↔ errors = [] := by
  constructor
  · intro h
    by_contra herrors
    rw [refuse_bind_of herrors] at h
    exact not_handled_schema (h _ rfl)
  · intro herrors
    rw [refuse_bind_of_not (not_not.mpr herrors)]
    exact .pure

/-- The correlation id of a trigger that came without one. -/
def generatedCorrelationId (drawn : Uuid) : String := "qa-" ++ uuidHex drawn

/-- The fields that `trigger_provider` builds its request from. -/
def requestedTrigger (c : ProviderConnectionRecord) (payload : ProviderTriggerPayload)
    (drawn : Uuid) : ProviderTriggerRequest where
  definitionRef := c.definitionRef
  ref := payload.ref
  triggerVariables := payload.triggerVariables
  correlationId := payload.correlationId.getD (generatedCorrelationId drawn)

/-- The fields that `decide_provider_quality_gate` builds its request from. -/
def requestedDecision (payload : RunGraph.ProviderRunApprovalPayload)
    (actor : Option RunGraph.Actor) : ProviderGateDecisionRequest where
  eventId := payload.eventId
  decision := payload.decision
  actorId := (actor.map fun a => uuidText a.userId).getD "local-user"
  actorName := (actor.map RunGraph.Actor.username).getD "local-user"
  comment := payload.comment

namespace ProviderStore

/-- What `trigger_provider` refuses before it builds the request. -/
def admitTrigger (safety : RuntimeSafetyConfig) (s : ProviderStore) (connectionId : Uuid)
    (payload : ProviderTriggerPayload) : Except DomainError ProviderConnectionRecord := do
  let c ← s.requireConnection connectionId
  refuse (¬ c.enabled) (.authorization "该 provider 连接未开启")
  validateProviderDispatchBoundary safety c.kind
  if c.kind = .learningCi then
    payload.validateLearningCiContract.mapError fun error =>
      .businessValidation ("Learning CI 触发参数无效：" ++ error)
  return c

/-- `trigger_provider` up to the request that it builds. -/
def buildTriggerRequest (casefold : String → String) (safety : RuntimeSafetyConfig)
    (s : ProviderStore) (connectionId : Uuid) (payload : ProviderTriggerPayload) (drawn : Uuid) :
    Except DomainError ProviderTriggerRequest := do
  let c ← s.admitTrigger safety connectionId payload
  (requestedTrigger c payload drawn).construct casefold

/-- `decide_provider_quality_gate` up to the request that it builds: none when the decision
is recorded already. -/
def buildDecisionRequest (s : ProviderStore) (connectionId runId : Uuid)
    (payload : RunGraph.ProviderRunApprovalPayload) (actor : Option RunGraph.Actor) :
    Except DomainError (Option ProviderGateDecisionRequest) := do
  let prepared ← s.prepareDecision connectionId runId payload actor
  match prepared with
  | none => return none
  | some _ => do
    let request ← (requestedDecision payload actor).construct
    return some request

end ProviderStore

/-! ## Where the second check can fail -/

theorem nonSecretVariable_eq_ok {casefold : String → String} {entry : String × String} :
    nonSecretVariable casefold entry = .ok ()
      ↔ ¬ credentialMarkers.any (containsText · (casefold entry.1))
        ∧ ¬ (entry.1 = "" ∨ 128 < entry.1.length ∨ 4096 < entry.2.length) := by
  unfold nonSecretVariable
  rw [refuse_bind_eq_ok, refuse_eq_ok]

/-- The two loop bodies differ in the control characters only. -/
theorem boundedVariable_eq_ok {casefold : String → String} {entry : String × String} :
    boundedVariable casefold entry = .ok ()
      ↔ nonSecretVariable casefold entry = .ok () ∧ printable entry.1 := by
  unfold boundedVariable
  rw [refuse_bind_eq_ok, refuse_bind_eq_ok, refuse_eq_ok, nonSecretVariable_eq_ok]
  tauto

theorem boundedVariables_eq_ok {casefold : String → String} {value : List (String × String)} :
    boundedVariables casefold value = .ok ()
      ↔ boundedNonSecretVariables casefold value = .ok () ∧ ∀ entry ∈ value, printable entry.1 := by
  unfold boundedVariables boundedNonSecretVariables
  rw [refuse_bind_eq_ok, refuse_bind_eq_ok, forM_eq_ok, forM_eq_ok]
  simp only [boundedVariable_eq_ok, forall_and, and_assoc]

theorem checkIdentifier_eq_ok {maxLength : Nat} {value : String} :
    checkIdentifier maxLength value = .ok ()
      ↔ checkLength 1 maxLength value = .ok () ∧ printable value := by
  unfold checkIdentifier noControlCharacters
  rw [then_eq_ok, refuse_eq_ok, not_not]

theorem checkOption_identifier {maxLength : Nat} {value : Option String} :
    checkOption (checkIdentifier maxLength) value = .ok ()
      ↔ checkOption (checkLength 1 maxLength) value = .ok ()
        ∧ ∀ text, value = some text → printable text := by
  simp only [checkOption_eq_ok, checkIdentifier_eq_ok, ← forall_and]

theorem printable_iff {value : String} : printable value ↔ ∀ c ∈ value.toList, 32 ≤ c.toNat := by
  simp [printable]

theorem printable_generated (drawn : Uuid) : printable (generatedCorrelationId drawn) := by
  rw [printable_iff]
  intro c hc
  rw [generatedCorrelationId, String.toList_append, List.mem_append] at hc
  obtain hc | hc := hc
  · have hfront : "qa-".toList = ['q', 'a', '-'] := rfl
    simp only [hfront, List.mem_cons, List.not_mem_nil, or_false] at hc
    obtain rfl | rfl | rfl := hc
    all_goals decide
  · have hrange := Ascii.isAlphanum_iff.mp (mem_uuidHex hc)
    omega

theorem length_generated (drawn : Uuid) : (generatedCorrelationId drawn).length = 35 := by
  rw [generatedCorrelationId, String.length_append, length_uuidHex]
  rfl

/-- An accepted payload says of its fields, short of what the request checks over again. -/
theorem AcceptedTrigger.fields {casefold : String → String} (payload : AcceptedTrigger casefold) :
    checkOption (checkLength 1 300) payload.ref = .ok ()
      ∧ boundedNonSecretVariables casefold payload.triggerVariables = .ok ()
      ∧ checkOption (checkLength 1 200) payload.correlationId = .ok () := by
  have haccepted := payload.accepted
  unfold ProviderTriggerPayload.errors at haccepted
  simp only [List.append_eq_nil_iff, FieldError.of_eq_nil, and_assoc] at haccepted
  exact haccepted

theorem AcceptedApproval.fields (payload : AcceptedApproval) :
    1 ≤ payload.eventId.length ∧ payload.eventId.length ≤ 200
      ∧ payload.comment.length ≤ 1000 := by
  have haccepted := payload.accepted
  unfold RunGraph.ProviderRunApprovalPayload.errors at haccepted
  simp only [List.append_eq_nil_iff, FieldError.of_eq_nil, then_eq_ok, checkLength_eq_ok]
    at haccepted
  obtain ⟨⟨hevent, -⟩, hcomment⟩ := haccepted
  exact ⟨hevent.1, hevent.2, hcomment.2⟩

/-- The trigger request can be built: the stored definition is short enough, and nothing
that is called an identifier has a control character. -/
structure TriggerFits (c : ProviderConnectionRecord) (payload : ProviderTriggerPayload) : Prop where
  definitionLength : 1 ≤ c.definitionRef.length ∧ c.definitionRef.length ≤ 300
  definitionRef : printable c.definitionRef
  ref : ∀ ref, payload.ref = some ref → printable ref
  correlationId : ∀ correlationId, payload.correlationId = some correlationId →
    printable correlationId
  variableNames : ∀ entry ∈ payload.triggerVariables, printable entry.1

/-- The decision request can be built: all of the event id is safe, not only a part of it,
and the comment and the name of the actor have no control character inside. -/
structure DecisionFits (payload : RunGraph.ProviderRunApprovalPayload)
    (actor : Option RunGraph.Actor) : Prop where
  eventStart : payload.eventId.toList.head?.any Char.isAlphanum
  eventId : ∀ c ∈ payload.eventId.toList, c.isAlphanum ∨ c ∈ ['.', '_', ':', '-']
  comment : ¬ hasControl (strip payload.comment)
  actorName : ∀ a, actor = some a → 1 ≤ a.username.length ∧ a.username.length ≤ 100
    ∧ strip a.username ≠ "" ∧ ¬ hasControl (strip a.username)

theorem requestedTrigger_errors {casefold : String → String} (payload : AcceptedTrigger casefold)
    (c : ProviderConnectionRecord) (drawn : Uuid) :
    (requestedTrigger c payload.toProviderTriggerPayload drawn).errors casefold = []
      ↔ TriggerFits c payload.toProviderTriggerPayload := by
  obtain ⟨href, hvariables, hcorrelation⟩ := payload.fields
  unfold ProviderTriggerRequest.errors
  simp only [List.append_eq_nil_iff, FieldError.of_eq_nil, checkOption_identifier,
    boundedVariables_eq_ok, checkIdentifier_eq_ok, checkLength_eq_ok, requestedTrigger]
  constructor
  · rintro ⟨⟨⟨hdefinition, -, href'⟩, -, hnames⟩, -, hprintable⟩
    refine ⟨hdefinition.1, hdefinition.2, href', ?_, hnames⟩
    intro correlationId hgiven
    rw [hgiven] at hprintable
    exact hprintable
  · intro h
    refine ⟨⟨⟨⟨h.definitionLength, h.definitionRef⟩, href, h.ref⟩, hvariables, h.variableNames⟩, ?_⟩
    cases hgiven : payload.correlationId with
    | none =>
      rw [Option.getD_none, length_generated]
      exact ⟨by decide, printable_generated drawn⟩
    | some correlationId =>
      rw [checkOption_eq_ok] at hcorrelation
      exact ⟨checkLength_eq_ok.mp (hcorrelation _ hgiven), h.correlationId _ hgiven⟩

theorem safeText_iff {extra : List Char} {maxLength : Nat} {value : String} :
    safeText extra maxLength value ↔ value.toList.head?.any Char.isAlphanum
      ∧ value.length ≤ maxLength ∧ ∀ c ∈ value.toList, c.isAlphanum ∨ c ∈ extra := by
  simp [safeText]

theorem actorId_safe (actor : Option RunGraph.Actor) :
    safeText ['.', '_', ':', '@', '-'] 100
      ((actor.map fun a => uuidText a.userId).getD "local-user") := by
  cases actor with
  | none => decide
  | some a =>
    rw [Option.map_some, Option.getD_some, safeText_iff, length_uuidText]
    refine ⟨?_, by decide, fun c hc => ?_⟩
    · unfold uuidText
      rw [String.toList_ofList]
      exact Hex.head?_digits_append (by decide) _
    · obtain hc | rfl := mem_uuidText hc
      · exact .inl hc
      · exact .inr (by decide)

theorem validEventId_eq_ok {value : String} :
    validEventId value = .ok () ↔ safeText ['.', '_', ':', '-'] 200 value := by
  unfold validEventId
  rw [refuse_eq_ok, not_not]

theorem validActorId_eq_ok {value : String} :
    validActorId value = .ok () ↔ safeText ['.', '_', ':', '@', '-'] 100 value := by
  unfold validActorId
  rw [refuse_eq_ok, not_not]

theorem validActorName_eq_ok {value : String} :
    validActorName value = .ok () ↔ strip value ≠ "" ∧ ¬ hasControl (strip value) := by
  unfold validActorName
  rw [refuse_eq_ok, not_or]

theorem validComment_eq_ok {value : String} :
    validComment value = .ok () ↔ ¬ hasControl (strip value) := by
  unfold validComment
  rw [refuse_eq_ok]

theorem localUser_valid : strip "local-user" ≠ "" ∧ ¬ hasControl (strip "local-user") := by
  decide

theorem requestedDecision_errors (payload : AcceptedApproval) (actor : Option RunGraph.Actor) :
    (requestedDecision payload.toProviderRunApprovalPayload actor).errors = []
      ↔ DecisionFits payload.toProviderRunApprovalPayload actor := by
  obtain ⟨hshort, hlong, hcomment⟩ := payload.fields
  have hactor := actorId_safe actor
  have hactorLength : 1 ≤ ((actor.map fun a => uuidText a.userId).getD "local-user").length
      ∧ ((actor.map fun a => uuidText a.userId).getD "local-user").length ≤ 100 := by
    cases actor with
    | none => decide
    | some a => simp
  unfold ProviderGateDecisionRequest.errors
  simp only [List.append_eq_nil_iff, FieldError.of_eq_nil, then_eq_ok, checkLength_eq_ok,
    validEventId_eq_ok, validActorId_eq_ok, validActorName_eq_ok, validComment_eq_ok,
    requestedDecision]
  constructor
  · rintro ⟨⟨⟨⟨-, hevent⟩, -⟩, hname, hstripped⟩, -, hclean⟩
    obtain ⟨hstart, -, hsafe⟩ := safeText_iff.mp hevent
    refine ⟨hstart, hsafe, hclean, ?_⟩
    intro a ha
    subst ha
    exact ⟨hname.1, hname.2, hstripped⟩
  · intro h
    have hevent : safeText ['.', '_', ':', '-'] 200 payload.eventId :=
      safeText_iff.mpr ⟨h.eventStart, hlong, h.eventId⟩
    refine ⟨⟨⟨⟨⟨hshort, hlong⟩, hevent⟩, hactorLength, hactor⟩, ?_⟩, ⟨Nat.zero_le _, hcomment⟩,
      h.comment⟩
    cases actor with
    | none => exact ⟨⟨by decide, by decide⟩, localUser_valid⟩
    | some a =>
      obtain ⟨hname, hname', hstripped⟩ := h.actorName a rfl
      exact ⟨⟨hname, hname'⟩, hstripped⟩

namespace ProviderStore

variable {safety : RuntimeSafetyConfig} {s : ProviderStore} {connectionId runId : Uuid}

/-- `trigger_provider` gets as far as to build its request: the connection is there and
enabled, the runtime mode lets its kind through, and the payload keeps to the contract of
Learning CI where that is the kind. -/
def ReachesTriggerRequest (safety : RuntimeSafetyConfig) (s : ProviderStore) (connectionId : Uuid)
    (payload : ProviderTriggerPayload) (c : ProviderConnectionRecord) : Prop :=
  s.connections.get? connectionId = some c ∧ c.enabled
    ∧ validateProviderDispatchBoundary safety c.kind = .ok ()
    ∧ (c.kind = .learningCi → payload.validateLearningCiContract = .ok ())

/-- `decide_provider_quality_gate` gets as far as to build its request: the run waits at a
gate of Learning CI that nobody has decided, and the caller is not who triggered it. -/
def ReachesDecisionRequest (s : ProviderStore) (connectionId runId : Uuid)
    (actor : Option RunGraph.Actor) : Prop :=
  ∃ c g, s.connections.get? connectionId = some c ∧ s.graphs.get? runId = some g
    ∧ g.run.connectionId = connectionId ∧ g.approval = none ∧ c.kind = .learningCi
    ∧ g.run.externalId.isSome ∧ g.run.dispatchStatus = .dispatched
    ∧ g.run.qualityGateStatus = .waitingApproval ∧ g.run.rawStatus = "waiting_approval"
    ∧ ¬ (actor.isSome ∧ g.run.triggeredByUserId = actor.map RunGraph.Actor.userId)

theorem validateProviderDispatchBoundary_raises (kind : ProviderKind) :
    Raises DomainError.Handled (validateProviderDispatchBoundary safety kind) := by
  cases kind with
  | «local» => exact .pure
  | learningCi => exact .refuse (handled_authorization _)
  | jenkins | gitlab | bkCi =>
    exact .bind (.refuse (handled_authorization _)) fun _ _ =>
      .bind (.refuse (handled_authorization _)) fun _ _ => .refuse (handled_authorization _)

theorem admitTrigger_raises (payload : ProviderTriggerPayload) :
    Raises DomainError.Handled (s.admitTrigger safety connectionId payload) := by
  refine .bind (s.requireConnection_raises connectionId) fun c _ => ?_
  refine .bind (.refuse (handled_authorization _)) fun _ _ => ?_
  refine .bind (validateProviderDispatchBoundary_raises c.kind) fun _ _ => ?_
  by_cases hkind : c.kind = .learningCi
  · rw [if_pos hkind]
    refine .bind ?_ fun _ _ => .pure
    intro e he
    cases hcontract : payload.validateLearningCiContract with
    | error message =>
      rw [hcontract] at he
      obtain rfl := Except.error.inj he
      exact handled_businessValidation _
    | ok _ =>
      rw [hcontract] at he
      cases he
  · rw [if_neg hkind]
    exact .pure

theorem admitTrigger_eq_ok {payload : ProviderTriggerPayload} {c : ProviderConnectionRecord} :
    s.admitTrigger safety connectionId payload = .ok c
      ↔ ReachesTriggerRequest safety s connectionId payload c := by
  unfold admitTrigger ReachesTriggerRequest
  rw [bind_eq_ok]
  constructor
  · rintro ⟨c', hc', h⟩
    rw [refuse_bind_eq_ok, bind_eq_ok] at h
    obtain ⟨henabled, ⟨⟩, hboundary, h⟩ := h
    by_cases hkind : c'.kind = .learningCi
    · rw [if_pos hkind, bind_eq_ok] at h
      obtain ⟨⟨⟩, hcontract, h⟩ := h
      obtain rfl := pure_eq_ok.mp h
      exact ⟨requireConnection_eq_ok.mp hc', not_not.mp henabled, hboundary,
        fun _ => mapError_eq_ok.mp hcontract⟩
    · rw [if_neg hkind] at h
      obtain rfl := pure_eq_ok.mp h
      exact ⟨requireConnection_eq_ok.mp hc', not_not.mp henabled, hboundary,
        fun hkind' => absurd hkind' hkind⟩
  · rintro ⟨hc, henabled, hboundary, hcontract⟩
    refine ⟨c, requireConnection_eq_ok.mpr hc, ?_⟩
    rw [refuse_bind_eq_ok, bind_eq_ok]
    refine ⟨not_not.mpr henabled, (), hboundary, ?_⟩
    by_cases hkind : c.kind = .learningCi
    · rw [if_pos hkind, mapError_eq_ok.mpr (hcontract hkind)]
      rfl
    · rw [if_neg hkind]
      rfl

theorem prepareDecision_raises {payload : RunGraph.ProviderRunApprovalPayload}
    {actor : Option RunGraph.Actor} :
    Raises DomainError.Handled (s.prepareDecision connectionId runId payload actor) := by
  refine .bind (s.requireConnection_raises connectionId) fun c _ => ?_
  refine .bind ?_ fun g _ => .bind ?_ fun _ _ => .pure
  · unfold requireRun
    split
    · exact .throw (handled_notFound _ _)
    · split
      · exact .throw (handled_notFound _ _)
      · exact .pure
  · unfold RunGraph.prepareDecision
    split
    · split
      · exact .bind (.refuse (handled_conflict _)) fun _ _ => .pure
      · exact .throw (handled_conflict _)
    · refine .bind (.refuse (handled_invalidState _)) fun _ _ => ?_
      split
      · exact .throw (handled_invalidState _)
      · exact .bind (.refuse (handled_invalidState _)) fun _ _ =>
          .bind (.refuse (handled_authorization _)) fun _ _ => .pure

theorem requireRun_eq_ok {g : RunGraph} :
    s.requireRun connectionId runId = .ok g
      ↔ s.graphs.get? runId = some g ∧ g.run.connectionId = connectionId := by
  unfold requireRun
  cases s.graphs.get? runId with
  | none => simp
  | some g' =>
    by_cases hconn : g'.run.connectionId = connectionId
    · simp only [hconn, ne_eq, not_true_eq_false, if_false, Except.ok.injEq, Option.some.injEq]
      exact ⟨fun h => ⟨h, h ▸ hconn⟩, And.left⟩
    · simp only [hconn, ne_eq, not_false_eq_true, if_true, reduceCtorEq, Option.some.injEq,
        false_iff, not_and]
      exact fun h => h ▸ hconn

theorem gate_prepared {g : RunGraph} {kind : ProviderKind}
    {payload : RunGraph.ProviderRunApprovalPayload} {actor : Option RunGraph.Actor} :
    (∃ p, g.prepareDecision kind payload actor = .ok (some p))
      ↔ g.approval = none ∧ kind = .learningCi ∧ g.run.externalId.isSome
        ∧ g.run.dispatchStatus = .dispatched ∧ g.run.qualityGateStatus = .waitingApproval
        ∧ g.run.rawStatus = "waiting_approval"
        ∧ ¬ (actor.isSome ∧ g.run.triggeredByUserId = actor.map RunGraph.Actor.userId) := by
  unfold RunGraph.prepareDecision
  cases happroval : g.approval with
  | some previous =>
    dsimp only
    split
    · simp only [refuse_bind_eq_ok, pure_eq_ok]
      simp
    · simp
  | none =>
    dsimp only
    cases hexternal : g.run.externalId with
    | none => simp [refuse_bind_eq_ok]
    | some externalId =>
      simp only [refuse_bind_eq_ok, pure_eq_ok, exists_and_left, Option.some.injEq, exists_eq',
        not_not, not_or, and_true, true_and, Option.isSome_some, and_assoc]

theorem prepareDecision_reaches (payload : RunGraph.ProviderRunApprovalPayload)
    (actor : Option RunGraph.Actor) :
    (∃ pending, s.prepareDecision connectionId runId payload actor = .ok (some pending))
      ↔ s.ReachesDecisionRequest connectionId runId actor := by
  unfold prepareDecision ReachesDecisionRequest
  simp only [bind_eq_ok, pure_eq_ok, requireConnection_eq_ok, requireRun_eq_ok,
    Option.map_eq_some_iff]
  constructor
  · rintro ⟨pending, c, hc, g, ⟨hg, hconn⟩, prepared, hprepared, p, rfl, -⟩
    exact ⟨c, g, hc, hg, hconn, gate_prepared.mp ⟨p, hprepared⟩⟩
  · rintro ⟨c, g, hc, hg, hconn, hgate⟩
    obtain ⟨p, hp⟩ := gate_prepared.mpr hgate
    exact ⟨_, c, hc, g, ⟨hg, hconn⟩, some p, hp, p, rfl, rfl⟩

theorem constructed_raises {request : ProviderGateDecisionRequest} :
    Raises DomainError.Handled (request.construct >>= fun built => return some built)
      ↔ request.errors = [] := by
  unfold ProviderGateDecisionRequest.construct
  rw [bind_assoc]
  simp only [pure_bind]
  exact raises_schema_iff

theorem buildTriggerRequest_raises {casefold : String → String}
    (payload : AcceptedTrigger casefold) (drawn : Uuid) :
    Raises DomainError.Handled
        (s.buildTriggerRequest casefold safety connectionId payload.toProviderTriggerPayload drawn)
      ↔ ∀ c, ReachesTriggerRequest safety s connectionId payload.toProviderTriggerPayload c →
          TriggerFits c payload.toProviderTriggerPayload := by
  unfold buildTriggerRequest
  rw [Raises.bind_iff (admitTrigger_raises _)]
  refine forall_congr' fun c => ?_
  rw [admitTrigger_eq_ok, ← requestedTrigger_errors payload c drawn]
  refine imp_congr_right fun _ => ?_
  unfold ProviderTriggerRequest.construct
  exact raises_schema_iff

theorem buildDecisionRequest_raises (payload : AcceptedApproval) (actor : Option RunGraph.Actor) :
    Raises DomainError.Handled
        (s.buildDecisionRequest connectionId runId payload.toProviderRunApprovalPayload actor)
      ↔ (s.ReachesDecisionRequest connectionId runId actor →
          DecisionFits payload.toProviderRunApprovalPayload actor) := by
  unfold buildDecisionRequest
  rw [Raises.bind_iff prepareDecision_raises, ← prepareDecision_reaches _ actor,
    ← requestedDecision_errors payload actor]
  constructor
  · rintro h ⟨pending, hpending⟩
    exact constructed_raises.mp (h _ hpending)
  · intro h prepared hprepared
    cases prepared with
    | none => exact .pure
    | some pending => exact constructed_raises.mpr (h ⟨pending, hprepared⟩)

/-- Both checks of the request agree for a stored definition that is short enough. -/
theorem requestValid_iff {casefold : String → String} (payload : AcceptedTrigger casefold)
    {c : ProviderConnectionRecord}
    (hdefinition : 1 ≤ c.definitionRef.length ∧ c.definitionRef.length ≤ 300) (drawn : Uuid) :
    requestValid (requestedTrigger c payload.toProviderTriggerPayload drawn)
      ↔ (requestedTrigger c payload.toProviderTriggerPayload drawn).errors casefold = [] := by
  rw [requestedTrigger_errors]
  unfold requestValid requestedTrigger
  simp only [Option.all_eq_true, List.all_eq_true]
  constructor
  · rintro ⟨hprintable, href, hcorrelation, hnames⟩
    refine ⟨hdefinition, hprintable, href, ?_, hnames⟩
    intro correlationId hgiven
    rw [hgiven] at hcorrelation
    exact hcorrelation
  · intro h
    refine ⟨h.definitionRef, h.ref, ?_, h.variableNames⟩
    cases hgiven : payload.correlationId with
    | none => exact printable_generated drawn
    | some correlationId => exact h.correlationId _ hgiven

/-- The rest of `trigger_provider` works with the request that was built. -/
theorem triggerProvider_builds {casefold : String → String} (payload : AcceptedTrigger casefold)
    (actor : Option RunGraph.Actor) (drawn : Uuid) (now : Instant)
    (hdefinition : ∀ c, s.connections.get? connectionId = some c →
      1 ≤ c.definitionRef.length ∧ c.definitionRef.length ≤ 300) :
    s.triggerProvider safety connectionId payload.toProviderTriggerPayload actor
        (generatedCorrelationId drawn) now
      = s.admitTrigger safety connectionId payload.toProviderTriggerPayload >>= fun c =>
          (requestedTrigger c payload.toProviderTriggerPayload drawn).construct casefold
            >>= fun request => s.recordTrigger c request payload.correlationId actor now := by
  have hpieces : s.triggerProvider safety connectionId payload.toProviderTriggerPayload actor
        (generatedCorrelationId drawn) now
      = s.admitTrigger safety connectionId payload.toProviderTriggerPayload >>= fun c =>
          s.recordTrigger c (requestedTrigger c payload.toProviderTriggerPayload drawn)
            payload.correlationId actor now := by
    unfold triggerProvider admitTrigger
    simp only [bind_assoc]
    refine bind_congr fun c => bind_congr fun _ => bind_congr fun _ => ?_
    by_cases hkind : c.kind = .learningCi
    · simp only [if_pos hkind, bind_assoc, pure_bind]
      rfl
    · simp only [if_neg hkind, pure_bind]
      rfl
  rw [hpieces]
  cases hadmitted : s.admitTrigger safety connectionId payload.toProviderTriggerPayload with
  | error e => rfl
  | ok c =>
    have hvalid := requestValid_iff payload
      (hdefinition c (admitTrigger_eq_ok.mp hadmitted).1) drawn
    rw [ok_bind, ok_bind]
    unfold recordTrigger ProviderTriggerRequest.construct
    by_cases herrors :
        (requestedTrigger c payload.toProviderTriggerPayload drawn).errors casefold = []
    · rw [refuse_bind_of_not (not_not.mpr herrors), pure_bind]
    · rw [refuse_bind_of herrors, error_bind, refuse_bind_of (mt hvalid.mp herrors)]

/-- No `ValidationError` leaves `trigger_provider` or `decide_provider_quality_gate` for an
accepted payload exactly when the request that the call gets to build can be built. -/
theorem requests_built_iff (casefold : String → String) (safety : RuntimeSafetyConfig)
    (s : ProviderStore) (connectionId runId : Uuid) (actor : Option RunGraph.Actor)
    (drawn : Uuid) :
    (∀ payload : AcceptedTrigger casefold,
      Raises DomainError.Handled
          (s.buildTriggerRequest casefold safety connectionId
            payload.toProviderTriggerPayload drawn)
        ↔ ∀ c, ReachesTriggerRequest safety s connectionId payload.toProviderTriggerPayload c →
            TriggerFits c payload.toProviderTriggerPayload)
      ∧ (∀ payload : AcceptedApproval,
        Raises DomainError.Handled
            (s.buildDecisionRequest connectionId runId payload.toProviderRunApprovalPayload actor)
          ↔ (s.ReachesDecisionRequest connectionId runId actor →
              DecisionFits payload.toProviderRunApprovalPayload actor)) :=
  ⟨fun payload => buildTriggerRequest_raises payload drawn,
    fun payload => buildDecisionRequest_raises payload actor⟩

end ProviderStore

namespace ProviderSystem

/-- A local simulator, and a run of the CI Lab that waits for a decision. -/
def waitingStore : ProviderStore :=
  (Transition.run (step lesson) empty
    [lessonConnection "local-quality-gate",
      .createConnection
        { name := "simulator", kind := .local, baseUrl := none, definitionRef := "nightly"
          config := [], secretEnvVar := none, webhookSecretEnvVar := none, enabled := true } 0,
      lessonTrigger, .claim "dispatcher" 60 "lease" 2 [], .checkVersion 0,
      .callTrigger 0 (.returned (lessonRun .queued .evaluating 1)) "", .settle 0 3,
      lessonWebhook 2 .waitingApproval 4]).store

/-- The API takes a line break in a ref, and an event id that only has a safe character
somewhere; the requests do not. -/
theorem schemas_not_contained :
    (¬ ∀ (casefold : String → String) (safety : RuntimeSafetyConfig) (s : ProviderStore)
        (connectionId : Uuid) (payload : AcceptedTrigger casefold) (drawn : Uuid),
        Raises DomainError.Handled (s.buildTriggerRequest casefold safety connectionId
          payload.toProviderTriggerPayload drawn))
      ∧ ¬ ∀ (s : ProviderStore) (connectionId runId : Uuid) (payload : AcceptedApproval)
        (actor : Option RunGraph.Actor),
        Raises DomainError.Handled
          (s.buildDecisionRequest connectionId runId
            payload.toProviderRunApprovalPayload actor) := by
  constructor
  · intro h
    exact not_handled_schema (h (String.map Char.toLower) lesson waitingStore 1
      ⟨⟨some "main\n", [], none⟩, by decide, by decide⟩ 0 .schema (by decide +kernel))
  · intro h
    exact not_handled_schema (h waitingStore 0 0 ⟨⟨"? a", .approve, ""⟩, by decide⟩ none
      .schema (by decide +kernel))

end ProviderSystem

end Runtime

end QaPlatform
