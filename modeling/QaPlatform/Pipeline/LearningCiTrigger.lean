import QaPlatform.Base.JsonText
import QaPlatform.Pipeline.Providers

/-!
# What the Learning CI adapter sends

`LearningCiPipelineProvider.trigger` up to the response. httpx encodes the body as compact
JSON without ASCII escapes and declares its length.
-/

namespace QaPlatform.Pipeline.LearningCi

open JsonText (Doc Members)

/-- `_IDEMPOTENCY_KEY`. -/
def idempotencyKeyValid (value : String) : Bool :=
  value.toList.head?.any Char.isAlphanum ∧ value.length ≤ 200
    ∧ value.toList.all (fun c => c.isAlphanum ∨ c ∈ ['.', '_', ':', '-'])

/-- The adapter of a connection. -/
structure Adapter where
  definitionId : String
  webhookConnectionId : Option String

/-- A POST of a JSON body. The definition is percent-encoded into the path, where the CI Lab
decodes it. -/
structure TriggerCall where
  definition : String
  contentLength : Int
  idempotencyKey : String
  body : String
deriving DecidableEq

/-- A dictionary with texts for keys. -/
def members (entries : List (String × Doc)) : Members :=
  entries.map fun (key, value) => (key.toList, value)

/-- A text of the body. -/
def text (value : String) : Doc := .text value.toList

/-- `str | None`. -/
def optionalText : Option String → Doc
  | none => .null
  | some value => text value

/-- `dict[str, str]`. -/
def texts (entries : List (String × String)) : Doc :=
  .object (members (entries.map fun (key, value) => (key, text value)))

/-- The `trigger_body`. -/
def triggerBody (adapter : Adapter) (request : ProviderTriggerRequest) : Doc :=
  .object (members
    ([("ref", optionalText request.ref), ("variables", texts request.triggerVariables)]
      ++ match adapter.webhookConnectionId with
        | none => []
        | some connectionId =>
          [("webhook_connection_id", text connectionId),
            ("correlation_id", text request.correlationId)]))

/-- `json_body`, as httpx encodes it. -/
def post (definition idempotencyKey : String) (body : Doc) : TriggerCall :=
  let encoded := String.ofList (JsonText.render body)
  { definition, contentLength := encoded.utf8ByteSize, idempotencyKey, body := encoded }

/-- `trigger`. -/
def Adapter.trigger (adapter : Adapter) (request : ProviderTriggerRequest) :
    Except ProviderError TriggerCall := do
  refuse (request.definitionRef ≠ adapter.definitionId)
    (.configuration "trigger definition does not match the configured provider resource")
  refuse (¬ idempotencyKeyValid request.correlationId)
    (.configuration "Learning CI triggers require a safe correlation id")
  return post adapter.definitionId request.correlationId (triggerBody adapter request)

end QaPlatform.Pipeline.LearningCi
