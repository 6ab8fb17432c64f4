import QaPlatform.Base.Urls
import QaPlatform.Pipeline.Providers

/-!
# The egress policy

`OutboundPolicy` and the validators of `app/pipeline/providers/security.py`. Networks
are taken as they are parsed; what the standard library does with names, numbers and
addresses is a parameter of which nothing is relied on.
-/

namespace QaPlatform.Pipeline

open QaPlatform.Urls

/-- The version of an IP address. -/
inductive IpVersion where
  | v4
  | v6
deriving DecidableEq, Repr

/-- The length of an address. -/
def IpVersion.bits : IpVersion → Nat
  | .v4 => 32
  | .v6 => 128

/-- `ipaddress.ip_address`. -/
structure IpAddress where
  version : IpVersion
  value : Nat
deriving DecidableEq

/-- `ipaddress.ip_network`. -/
structure IpNetwork where
  version : IpVersion
  address : Nat
  prefixLength : Nat
deriving DecidableEq

/-- The first bits of an address. -/
def leading (version : IpVersion) (prefixLength value : Nat) : Nat :=
  value / Nat.pow 2 (version.bits - prefixLength)

/-- `address in network`. -/
def IpNetwork.Contains (network : IpNetwork) (address : IpAddress) : Prop :=
  address.version = network.version
    ∧ leading network.version network.prefixLength address.value
      = leading network.version network.prefixLength network.address

instance (network : IpNetwork) (address : IpAddress) : Decidable (network.Contains address) := by
  unfold IpNetwork.Contains
  infer_instance

/-- `subnet_of`. -/
def IpNetwork.SubnetOf (network boundary : IpNetwork) : Prop :=
  boundary.prefixLength ≤ network.prefixLength
    ∧ boundary.Contains ⟨network.version, network.address⟩

instance (network boundary : IpNetwork) : Decidable (network.SubnetOf boundary) := by
  unfold IpNetwork.SubnetOf
  infer_instance

/-- `_SELF_HOSTED_BOUNDARIES`. -/
def selfHostedBoundaries : List IpNetwork :=
  [⟨.v4, 0x0A000000, 8⟩, ⟨.v4, 0xAC100000, 12⟩, ⟨.v4, 0xC0A80000, 16⟩, ⟨.v4, 0x7F000000, 8⟩,
    ⟨.v6, 0xFC000000000000000000000000000000, 7⟩, ⟨.v6, 1, 128⟩]

/-- `_is_self_hosted_network`. -/
def IpNetwork.SelfHosted (network : IpNetwork) : Prop :=
  (∃ boundary ∈ selfHostedBoundaries, network.SubnetOf boundary)
    ∧ (match network.version with | .v4 => 24 | .v6 => 64) ≤ network.prefixLength

instance (network : IpNetwork) : Decidable network.SelfHosted := by
  unfold IpNetwork.SelfHosted
  infer_instance

/-- `_is_self_hosted_address`. -/
def IpAddress.SelfHosted (address : IpAddress) : Prop :=
  ∃ boundary ∈ selfHostedBoundaries, boundary.Contains address

instance (address : IpAddress) : Decidable address.SelfHosted := by
  unfold IpAddress.SelfHosted
  infer_instance

/-- `is_loopback`. -/
def IpAddress.IsLoopback (address : IpAddress) : Prop :=
  (⟨.v4, 0x7F000000, 8⟩ : IpNetwork).Contains address ∨ (⟨.v6, 1, 128⟩ : IpNetwork).Contains address

instance (address : IpAddress) : Decidable address.IsLoopback := by
  unfold IpAddress.IsLoopback
  infer_instance

/-- An allowlist that has passed `__post_init__`. -/
structure OutboundPolicy where
  allowedHosts : List String
  allowedPorts : List Int
  allowedNetworks : List IpNetwork
  allowLoopbackHttp : Bool
  allowedHttpHosts : List String
  maxResponseBytes : Nat
  hosts_ne : allowedHosts ≠ []
  ports : allowedPorts ≠ [] ∧ ∀ port ∈ allowedPorts, 1 ≤ port ∧ port ≤ 65535
  networks : allowedNetworks ≠ [] ∧ ∀ network ∈ allowedNetworks, network.SelfHosted
  httpHosts : ∀ host ∈ allowedHttpHosts, host ∈ allowedHosts
  responseBytes : 1 ≤ maxResponseBytes

/-- What the standard library knows of names, numbers and addresses. -/
structure Stdlib where
  /-- `str.lower`. -/
  lower : List Char → List Char
  /-- `str.encode("idna")`. -/
  idna : List Char → Option (List Char)
  /-- `int(text, 10)`. -/
  int : List Char → Option Int
  /-- `ipaddress.ip_address`. -/
  ipAddress : String → Option IpAddress
  /-- `_checknetloc` of `urlsplit`. -/
  checkNetloc : List Char → Bool

/-- How a request fails before it is sent. -/
inductive SendError where
  | provider (error : ProviderError)
  | valueError
  /-- `httpx.InvalidURL`. -/
  | invalidUrl
deriving DecidableEq, Repr

/-- `ProviderConfigurationError`. -/
def SendError.configuration (message : String) : SendError := .provider (.configuration message)

/-- `ProviderSecurityError`. -/
def SendError.security (message : String) : SendError := .provider (.security message)

variable (lib : Stdlib)

/-- `urlparse`, which raises for a netloc that changes under NFKC. -/
def Stdlib.urlparse (text : String) : Option ParseResult :=
  (Urls.urlparse text.toList).filter fun url => lib.checkNetloc url.netloc

/-- `hostname`; a zone is not lowered. -/
def Stdlib.hostname (url : ParseResult) : List Char :=
  lib.lower (url.hostAndPort.1.takeWhile (· ≠ '%')) ++ url.hostAndPort.1.dropWhile (· ≠ '%')

/-- `port`, unless it raises `ValueError`. -/
def Stdlib.port (url : ParseResult) : Option (Option Int) :=
  match url.hostAndPort.2 with
  | [] => some none
  | text => ((lib.int text).filter fun port => 0 ≤ port ∧ port ≤ 65535).map some

/-- `parsed.port or (443 if parsed.scheme == "https" else 80)`. -/
def defaultPort (url : ParseResult) (port : Option Int) : Int :=
  match port.filter (· ≠ 0) with
  | some port => port
  | none => if url.scheme = "https".toList then 443 else 80

/-- `_normalized_host`. -/
def normalizedHost (host : List Char) : Except SendError String := do
  let candidate := lib.lower (rstrip '.' (strip (String.ofList host)).toList)
  refuse (candidate = []) (.configuration "provider host is empty")
  let encoded ← demand (.configuration "provider host is invalid") (lib.idna candidate)
  return String.ofList encoded

/-- A backslash or a control character. -/
def HasForbidden (path : List Char) : Prop := '\\' ∈ path ∨ path.any (·.toNat < 32)

instance (path : List Char) : Decidable (HasForbidden path) := by
  unfold HasForbidden
  infer_instance

/-- A segment that is one dot or two. -/
def Traverses (path : List Char) : Prop :=
  ∃ segment ∈ path.splitOn '/', segment = ['.'] ∨ segment = ['.', '.']

instance (path : List Char) : Decidable (Traverses path) := by
  unfold Traverses
  infer_instance

/-- Whether plain HTTP may be used with a host. -/
def PlainHttpAllowed (policy : OutboundPolicy) (host : String) : Prop :=
  policy.allowLoopbackHttp = true
      ∧ (match lib.ipAddress host with
        | some address => address.IsLoopback
        | none => host = "localhost")
    ∨ host ∈ policy.allowedHttpHosts

instance (policy : OutboundPolicy) (host : String) :
    Decidable (PlainHttpAllowed lib policy host) := by
  unfold PlainHttpAllowed
  cases lib.ipAddress host <;> infer_instance

/-- `validate_base_url`. -/
def validateBaseUrl (value : String) (policy : OutboundPolicy) : Except SendError String := do
  let parsed ← demand .valueError (lib.urlparse (strip value))
  refuse (parsed.scheme ≠ "http".toList ∧ parsed.scheme ≠ "https".toList
      ∨ parsed.hostAndPort.1 = [])
    (.configuration "provider base URL must be HTTP(S)")
  refuse parsed.HasCredentials (.configuration "provider base URL cannot contain credentials")
  refuse (parsed.query ≠ [] ∨ parsed.fragment ≠ [])
    (.configuration "provider base URL cannot contain query or fragment")
  let host ← normalizedHost lib (lib.hostname parsed)
  refuse (host ∉ policy.allowedHosts) (.security "provider host is not allowlisted")
  let port ← demand (.configuration "provider port is invalid") (lib.port parsed)
  refuse (defaultPort parsed port ∉ policy.allowedPorts)
    (.security "provider port is not allowlisted")
  refuse (parsed.scheme ≠ "https".toList ∧ ¬ PlainHttpAllowed lib policy host)
    (.security "external providers require HTTPS")
  refuse (HasForbidden (unquote parsed.path)) (.configuration "provider base path is invalid")
  refuse (Traverses (unquote parsed.path))
    (.configuration "provider base path cannot traverse directories")
  return String.ofList (rstrip '/' (strip value).toList)

/-- `validate_relative_path`. It looks at the path as it is given, before its slashes are
stripped. -/
def validateRelativePath (path : String) : Except SendError Unit := do
  let parsed ← demand .valueError (lib.urlparse path)
  refuse (path.toList.head? ≠ some '/' ∨ path.toList.take 2 = ['/', '/'] ∨ parsed.scheme ≠ []
      ∨ parsed.netloc ≠ [] ∨ parsed.query ≠ [] ∨ parsed.fragment ≠ [])
    (.security "provider request path must be relative to its base URL")
  refuse (HasForbidden (unquote parsed.path)) (.security "provider request path is invalid")
  refuse (Traverses (unquote parsed.path))
    (.security "provider request path cannot traverse directories")

/-- What a resolver comes back with. -/
inductive Resolved where
  | refused (message : String)
  | raised
  | addresses (values : List String)

/-- The check of one address. -/
def validateAddress (policy : OutboundPolicy) (value : String) : Except SendError Unit := do
  let address ← demand (.security "provider host resolved to an invalid address")
    (lib.ipAddress value)
  refuse (¬ address.SelfHosted)
    (.security "provider host resolved outside self-hosted private networks")
  refuse (¬ ∃ network ∈ policy.allowedNetworks, network.Contains address)
    (.security "provider host resolved outside the allowed networks")

/-- `validate_resolved_addresses`: every address of the host has to be permitted. -/
def validateResolvedAddresses (policy : OutboundPolicy) : Resolved → Except SendError Unit
  | .refused message => .error (.security message)
  | .raised => .error (.security "provider host resolution failed safely")
  | .addresses values => do
    refuse (values = []) (.security "provider host did not resolve")
    values.forM (validateAddress lib policy)

end QaPlatform.Pipeline
