import QaPlatform.Base.Ascii
import QaPlatform.Base.Doubles
import QaPlatform.Base.Guard
import QaPlatform.Base.Hex
import QaPlatform.Core

/-!
# Signed webhooks

`app/runtime/webhook_security.py`, and `sign_delivery` of `app/ci_lab/webhook_worker.py`, which
signs what the verifier verifies. The hashes are any functions to 32 bytes.
-/

namespace QaPlatform.Runtime.WebhookSecurity

/-- A `bytes`. -/
abbrev Bytes := List UInt8

/-- A digest of 32 bytes. -/
structure HashBytes where
  bytes : Bytes
  length_eq : bytes.length = 32
deriving DecidableEq

/-- `hashlib.sha256`, and `hmac.digest` of a key and a message. -/
structure Hashing where
  sha256 : Bytes → HashBytes
  hmac : Bytes → Bytes → HashBytes

/-- What is raised. -/
inductive Failure where
  /-- `WebhookSecurityError`. -/
  | rejected (code : String)
  /-- `ValueError`. -/
  | invalid (message : String)
  /-- `RuntimeError`: the clock is not aware of its timezone. -/
  | naiveClock
deriving DecidableEq, Repr

/-! ## Bytes and texts -/

/-- `str.encode("ascii")`, of a text that is ASCII. -/
def encodeAscii (text : String) : Bytes := text.toList.map fun c => UInt8.ofNat c.toNat

/-- `_decode_ascii`. -/
def decodeAscii (value : Bytes) : Except Failure String :=
  if value.all (· < 128) then .ok (String.ofList (value.map fun b => Char.ofNat b.toNat))
  else .error (.rejected "webhook_header_invalid")

/-- `bytes.lower`, of one byte. -/
def lowerByte (b : UInt8) : UInt8 := if 65 ≤ b ∧ b ≤ 90 then b + 32 else b

/-- `bytes.hex`. -/
def hex (value : Bytes) : String := String.ofList (value.flatMap fun b => Hex.digits 2 b.toNat)

/-- `bytes.fromhex`, of an even number of hexadecimal digits. -/
def fromHex : List Char → Bytes
  | high :: low :: rest => UInt8.ofNat ((Hex.read [high, low]).getD 0) :: fromHex rest
  | _ => []

/-! ## Bounded bodies -/

/-- `MAX_WEBHOOK_BODY_BYTES`. -/
def maxWebhookBodyBytes : Nat := 16 * 1024

/-- `WEBHOOK_TIMESTAMP_WINDOW_SECONDS`. -/
def timestampWindowSeconds : Nat := 300

/-- What has been read of a body. -/
structure RawBodyBuffer where
  parts : List Bytes
  size : Nat

/-- `append`. -/
def RawBodyBuffer.append (buffer : RawBodyBuffer) (chunk : Bytes) : Except Failure RawBodyBuffer :=
  if chunk.length > maxWebhookBodyBytes - buffer.size
    then .error (.rejected "webhook_body_too_large")
  else if chunk = [] then .ok buffer
  else .ok ⟨buffer.parts ++ [chunk], buffer.size + chunk.length⟩

/-- `finish`. -/
def RawBodyBuffer.finish (buffer : RawBodyBuffer) : Bytes := buffer.parts.flatten

/-- `collect_bounded_body`. -/
def collectBoundedBody (chunks : List Bytes) : Except Failure Bytes :=
  (chunks.foldlM RawBodyBuffer.append ⟨[], 0⟩).map RawBodyBuffer.finish

/-! ## Headers -/

/-- The header with the event id. -/
def eventIdHeader : Bytes := encodeAscii "x-qa-webhook-event-id"

/-- The header with the time. -/
def timestampHeader : Bytes := encodeAscii "x-qa-webhook-timestamp"

/-- The header with the signature. -/
def signatureHeader : Bytes := encodeAscii "x-qa-webhook-signature"

/-- `_REQUIRED_HEADERS`. -/
def requiredHeaders : List Bytes := [eventIdHeader, timestampHeader, signatureHeader]

/-- `[A-Za-z0-9._:-]`. -/
def isEventIdChar (c : Char) : Bool := c.isAlphanum ∨ c = '.' ∨ c = '_' ∨ c = ':' ∨ c = '-'

/-- `_EVENT_ID`, the same pattern in both modules. -/
def matchesEventId (value : String) : Bool :=
  match value.toList with
  | [] => false
  | first :: rest => first.isAlphanum ∧ rest.length ≤ 199 ∧ rest.all isEventIdChar

/-- `_TIMESTAMP`. -/
def matchesTimestamp (value : String) : Bool :=
  match value.toList with
  | [] => false
  | first :: rest => first.isDigit ∧ first ≠ '0' ∧ rest.length = 9 ∧ rest.all Char.isDigit

/-- `[0-9a-f]`. -/
def isLowerHex (c : Char) : Bool := c.isDigit ∨ 'a' ≤ c ∧ c ≤ 'f'

/-- The group of `_SIGNATURE`. -/
def signatureGroup (value : String) : Option (List Char) :=
  match value.toList with
  | 'v' :: '1' :: '=' :: group =>
    if group.length = 64 ∧ group.all isLowerHex then some group else none
  | _ => none

/-- `_parse_event_id`. -/
def parseEventId (value : String) : Except Failure String :=
  if matchesEventId value then .ok value else .error (.rejected "webhook_header_invalid")

/-- `_parse_timestamp`. -/
def parseTimestamp (value : String) : Except Failure Int :=
  if matchesTimestamp value then .ok (Nat.ofDigitChars 10 value.toList 0)
  else .error (.rejected "webhook_header_invalid")

/-- `_parse_signature`. -/
def parseSignature (value : String) : Except Failure Bytes :=
  demand (.rejected "webhook_header_invalid") ((signatureGroup value).map fromHex)

/-- What the headers say. -/
structure ParsedWebhookHeaders where
  eventId : String
  timestamp : Int
  signature : Bytes
deriving DecidableEq

/-- `selected`, by the normalized names. -/
abbrev Selected := List (Bytes × Bytes)

/-- One header. -/
def selectHeader (selected : Selected) (item : Bytes × Bytes) : Except Failure Selected :=
  let normalizedName := item.1.map lowerByte
  if normalizedName ∉ requiredHeaders then .ok selected
  else if normalizedName ∈ selected.map (·.1) then .error (.rejected "webhook_header_invalid")
  else .ok (selected ++ [(normalizedName, item.2)])

/-- `parse_webhook_headers`. -/
def parseWebhookHeaders (rawHeaders : List (Bytes × Bytes)) :
    Except Failure ParsedWebhookHeaders := do
  let selected ← rawHeaders.foldlM selectHeader []
  let eventId ← demand (.rejected "webhook_header_invalid") (selected.lookup eventIdHeader)
  let timestamp ← demand (.rejected "webhook_header_invalid") (selected.lookup timestampHeader)
  let signature ← demand (.rejected "webhook_header_invalid") (selected.lookup signatureHeader)
  let eventId ← decodeAscii eventId >>= parseEventId
  let timestamp ← decodeAscii timestamp >>= parseTimestamp
  let signature ← decodeAscii signature >>= parseSignature
  return ⟨eventId, timestamp, signature⟩

/-! ## Messages and signatures -/

/-- `v1`, the timestamp, the event and the digest of the body, a line each. -/
def messageText (timestamp : Int) (eventId bodyDigest : String) : String :=
  "v1\n" ++ toString timestamp ++ "\n" ++ eventId ++ "\n" ++ bodyDigest

/-- `canonical_webhook_message`. -/
def canonicalWebhookMessage (h : Hashing) (timestamp : Int) (eventId : String) (rawBody : Bytes) :
    Except Failure Bytes := do
  let selectedEventId ← parseEventId eventId
  let selectedTimestamp ← parseTimestamp (toString timestamp)
  let body ← collectBoundedBody [rawBody]
  return encodeAscii (messageText selectedTimestamp selectedEventId (hex (h.sha256 body).bytes))

/-- A reading of the injected clock. -/
inductive ClockReading where
  | naive
  | aware (instant : Instant)

/-- `int(current.timestamp())`. The double is rounded to the nearest, the integer towards zero. -/
def timestampOf (instant : Instant) : Int :=
  if 0 ≤ instant then Doubles.wholePart instant.natAbs else -Doubles.wholePart instant.natAbs

/-- What is known of a delivery whose signature is right. -/
structure VerifiedWebhook where
  eventId : String
  timestamp : Int
  bodySha256 : String
deriving DecidableEq

/-- A secret that `_validated_secret` lets through. -/
structure WebhookVerifier where
  secret : Bytes
  validated : 32 ≤ secret.length ∧ secret.length ≤ 512

/-- `verify`. -/
def WebhookVerifier.verify (verifier : WebhookVerifier) (h : Hashing) (clock : ClockReading)
    (rawBody : Bytes) (rawHeaders : List (Bytes × Bytes)) : Except Failure VerifiedWebhook := do
  let body ← collectBoundedBody [rawBody]
  let headers ← parseWebhookHeaders rawHeaders
  match clock with
  | .naive => throw .naiveClock
  | .aware current =>
    refuse ((timestampOf current - headers.timestamp).natAbs > timestampWindowSeconds)
      (.rejected "webhook_timestamp_out_of_window")
    let message ← canonicalWebhookMessage h headers.timestamp headers.eventId body
    refuse ((h.hmac verifier.secret message).bytes ≠ headers.signature)
      (.rejected "webhook_signature_invalid")
    return ⟨headers.eventId, headers.timestamp, hex (h.sha256 body).bytes⟩

/-- `sign_delivery`. -/
def signDelivery (h : Hashing) (secret : Bytes) (timestamp : Int) (eventId : String)
    (rawBody : Bytes) :
    Except Failure String := do
  refuse (¬ (32 ≤ secret.length ∧ secret.length ≤ 512))
    (.invalid "webhook secret length is invalid")
  refuse (¬ matchesEventId eventId) (.invalid "webhook event id is invalid")
  refuse (¬ (1000000000 ≤ timestamp ∧ timestamp ≤ 9999999999))
    (.invalid "webhook timestamp is invalid")
  let canonical := encodeAscii (messageText timestamp eventId (hex (h.sha256 rawBody).bytes))
  return "v1=" ++ hex (h.hmac secret canonical).bytes

end QaPlatform.Runtime.WebhookSecurity
