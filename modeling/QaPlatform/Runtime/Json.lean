import QaPlatform.Base.Guard
import QaPlatform.Core

/-! The canonical JSON texts (`json.dumps` with sorted keys, no blanks and no
ASCII escapes) that the runtime service takes fingerprints of. -/

namespace QaPlatform.Runtime

/-- `json.dumps` of one character inside a string, without ASCII escapes. -/
def jsonChar (c : Char) : String :=
  if c = '"' then "\\\""
  else if c = '\\' then "\\\\"
  else if c = '\n' then "\\n"
  else if c = '\r' then "\\r"
  else if c = '\t' then "\\t"
  else if c.toNat = 8 then "\\b"
  else if c.toNat = 12 then "\\f"
  else if c.toNat < 32 then
    "\\u00" ++ String.ofList [Nat.digitChar (c.toNat / 16), Nat.digitChar (c.toNat % 16)]
  else c.toString

/-- `json.dumps` of a string. -/
def jsonString (value : String) : Json :=
  "\"" ++ String.join (value.toList.map jsonChar) ++ "\""

/-- `json.dumps` of a value that may be `None`. -/
def jsonOption (render : α → Json) : Option α → Json
  | none => "null"
  | some value => render value

/-- `_json_fingerprint`. -/
def jsonFingerprint (encoded : Json) : Except DomainError (Digest Json) := do
  refuse (262144 < encoded.utf8ByteSize) (.businessValidation "任务数据不能超过 256 KiB")
  return ⟨encoded⟩

/-- A dictionary of texts, keys sorted. -/
def jsonStrings (entries : List (String × String)) : Json :=
  let sorted := entries.mergeSort fun a b => a.1 ≤ b.1
  "\x7b" ++ ",".intercalate
    (sorted.map fun (key, value) => jsonString key ++ ":" ++ jsonString value)
    ++ "\x7d"

end QaPlatform.Runtime
