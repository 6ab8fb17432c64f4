import QaPlatform.CiLab.Service
import QaPlatform.Pipeline.LearningCiTrigger
import QaPlatform.Runtime.RequestSchemas

/-!
# How the CI Lab takes a trigger

The middleware of `app/ci_lab/app.py` that bounds a body, and the validation of a
`TriggerRunRequest` (`app/ci_lab/models.py`) that FastAPI makes of what is in it.
-/

namespace QaPlatform.CiLab

open JsonText (Doc Members)
open Pipeline.LearningCi (TriggerCall)
open QaPlatform.Runtime (checkLength checkOption containsText jsonStrings)

/-! ## Checks -/

/-- A capital letter of ASCII. -/
def isUpper (c : Char) : Bool := 'A' ≤ c ∧ c ≤ 'Z'

/-- `_REF`. -/
def isRef : String → Bool :=
  fullmatch isAlnum (fun c => isAlnum c ∨ c = '.' ∨ c = '_' ∨ c = '-') 127

/-- `_VARIABLE_NAME`. -/
def isVariableName : String → Bool :=
  fullmatch isUpper (fun c => isUpper c ∨ ('0' ≤ c ∧ c ≤ '9') ∨ c = '_') 63

/-- `_SENSITIVE_SEGMENTS`. -/
def sensitiveSegments : List String :=
  ["AUTH", "AUTHORIZATION", "COOKIE", "CREDENTIAL", "KEY", "PASS", "PASSWD", "PASSWORD", "PRIVATE",
    "SECRET", "TOKEN"]

/-- `_MAX_VARIABLES`. -/
def maxVariables : Nat := 32

/-- `_MAX_VARIABLE_VALUE_BYTES`. -/
def maxVariableValueBytes : Nat := 512

/-- `_MAX_VARIABLES_JSON_BYTES`. -/
def maxVariablesJsonBytes : Nat := 8 * 1024

/-- `validate_ref`. -/
def validateRef (value : String) : Except String Unit :=
  refuse (¬ isRef value) "ref must contain only ASCII letters, digits, dot, underscore, or dash"

/-- The loop body of `validate_variables`. -/
def validateVariable (entry : String × String) : Except String Unit := do
  refuse (¬ isVariableName entry.1)
    "variable names must use 1-64 uppercase ASCII letters, digits, or underscores"
  refuse (∃ segment ∈ entry.1.toList.splitOn '_', String.ofList segment ∈ sensitiveSegments)
    "secret-like variable names are not allowed"
  refuse (entry.2 = "" ∨ maxVariableValueBytes < entry.2.utf8ByteSize)
    "variable values must contain 1-512 UTF-8 bytes"
  refuse (entry.2.toList.any fun c => c.toNat < 32 ∨ c.toNat = 127)
    "variable values cannot contain control characters"
  refuse (containsText "://" entry.2 ∨ containsText "../" entry.2 ∨ containsText "..\\" entry.2)
    "URLs and parent-relative paths are not allowed in variables"

/-- `validate_variables`. -/
def validateVariables (value : List (String × String)) : Except String Unit := do
  refuse (maxVariables < value.length) "at most 32 variables are allowed"
  value.forM validateVariable
  refuse (maxVariablesJsonBytes < (jsonStrings value).utf8ByteSize)
    "the canonical variable document cannot exceed 8192 bytes"

/-- `validate_correlation_id`. -/
def validateCorrelationId (value : String) : Except String Unit :=
  refuse
    (¬ fullmatch isAlnum (fun c => isAlnum c ∨ c = '.' ∨ c = '_' ∨ c = ':' ∨ c = '-') 199 value)
    "correlation_id must contain only safe ASCII characters"

/-! ## Values of the types -/

/-- A uuid with its hyphens. -/
def readHyphenated (value : List Char) : Option Uuid :=
  if value.length = 36 ∧ value[8]? = some '-' ∧ value[13]? = some '-' ∧ value[18]? = some '-'
      ∧ value[23]? = some '-' then
    Hex.read (value.take 8 ++ ((value.drop 9).take 4 ++ ((value.drop 14).take 4
      ++ ((value.drop 19).take 4 ++ value.drop 24))))
  else none

/-- The texts that pydantic takes for a `UUID`: without hyphens, with them, and the latter
in braces or as a URN. -/
def readUuid (value : List Char) : Option Uuid :=
  if value.length = 32 then Hex.read value
  else if value.length = 38 ∧ value.head? = some '\x7b' ∧ value.getLast? = some '\x7d' then
    readHyphenated ((value.drop 1).take 36)
  else if value.take 9 = "urn:uuid:".toList then readHyphenated (value.drop 9)
  else readHyphenated value

/-- `str | None`, which may be missing. -/
def textField : Option Doc → Except String (Option String)
  | none | some .null => .ok none
  | some (.text value) => .ok (some (String.ofList value))
  | some (.object _) => .error "Input should be a valid string"

/-- `UUID | None`, which may be missing. -/
def uuidField : Option Doc → Except String (Option Uuid)
  | none | some .null => .ok none
  | some (.text value) => (demand "Input should be a valid UUID" (readUuid value)).map some
  | some (.object _) => .error "UUID input should be a string, bytes or UUID object"

/-- An entry of `dict[str, str]`. -/
def textEntry (member : List Char × Doc) : Except String (String × String) :=
  match member.2 with
  | .text value => .ok (String.ofList member.1, String.ofList value)
  | .null | .object _ => .error "Input should be a valid string"

/-- `dict[str, str]`, empty when it is missing. -/
def textsField : Option Doc → Except String (List (String × String))
  | none => .ok []
  | some (.object members) => (JsonText.asDict members).mapM textEntry
  | some .null | some (.text _) => .error "Input should be a valid dictionary"

/-! ## The request -/

/-- The fields that there are; no other is permitted. -/
def triggerFields : List String := ["ref", "variables", "webhook_connection_id", "correlation_id"]

/-- The value of a field. -/
def field (dict : Members) (name : String) : Option Doc := dict.lookup name.toList

/-- `TriggerRunRequest(…)`. The application keeps the errors back, so that the first one
stands for all of them. -/
def TriggerRunRequest.validate (dict : Members) : Except String TriggerRunRequest := do
  refuse (¬ ∀ member ∈ dict, String.ofList member.1 ∈ triggerFields)
    "Extra inputs are not permitted"
  let ref ← textField (field dict "ref")
  checkOption (checkLength 0 128) ref
  checkOption validateRef ref
  let triggerVariables ← textsField (field dict "variables")
  validateVariables triggerVariables
  let webhookConnectionId ← uuidField (field dict "webhook_connection_id")
  let correlationId ← textField (field dict "correlation_id")
  checkOption (checkLength 0 200) correlationId
  checkOption validateCorrelationId correlationId
  -- `validate_webhook_binding`
  if paired : webhookConnectionId.isSome = correlationId.isSome then
    return { ref, triggerVariables, webhookConnectionId, correlationId, paired }
  else throw "webhook_connection_id and correlation_id must be supplied together"

/-- Why a call does not get to the service. -/
inductive Rejection where
  | requestBodyTooLarge
  | requestValidation
deriving DecidableEq, Repr

/-- The status codes of the middleware and of `handle_validation_error`. -/
def Rejection.statusCode : Rejection → Nat
  | .requestBodyTooLarge => 413
  | .requestValidation => 422

/-- `_MAX_REQUEST_BODY_BYTES`. -/
def maxRequestBodyBytes : Nat := 16 * 1024

/-- `json.loads`, of which an object is a dictionary. -/
def loads (body : String) : Option Members :=
  match JsonText.parse body.toList with
  | some (.object members) => some (JsonText.asDict members)
  | some .null | some (.text _) | none => none

/-- What becomes of a call to trigger a run before `CiLabService.trigger`: the two looks at
the size of the body, and the validation of the body and of the `Idempotency-Key`. -/
def receiveTrigger (call : TriggerCall) : Except Rejection TriggerRunRequest := do
  refuse (call.contentLength < 0 ∨ (maxRequestBodyBytes : Int) < call.contentLength)
    .requestBodyTooLarge
  refuse (maxRequestBodyBytes < call.body.utf8ByteSize) .requestBodyTooLarge
  (checkLength 1 200 call.idempotencyKey).mapError fun _ => .requestValidation
  let dict ← demand .requestValidation (loads call.body)
  (TriggerRunRequest.validate dict).mapError fun _ => .requestValidation

end QaPlatform.CiLab
