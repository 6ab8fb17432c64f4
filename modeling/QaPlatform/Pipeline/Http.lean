import QaPlatform.Pipeline.Security

/-!
# Outbound requests

`SafeHttpClient` (`app/pipeline/providers/http.py`) up to the URL that a request is sent
to, and the paths that the BK-CI adapter asks for. The validator reads a path with its
leading slash; the client takes the slash away before it hands the rest to `httpx`.
-/

namespace QaPlatform.Pipeline

open QaPlatform.Urls

/-- `httpx.URL`. -/
structure HttpxUrl where
  scheme : String
  host : String
  port : Option Nat
  rawPath : String
deriving DecidableEq

namespace HttpxUrl

/-- `is_absolute_url`. -/
def IsAbsolute (url : HttpxUrl) : Prop := url.scheme ≠ "" ∧ url.host ≠ ""

instance (url : HttpxUrl) : Decidable url.IsAbsolute := by
  unfold IsAbsolute
  infer_instance

/-- Scheme, host and port. -/
def origin (url : HttpxUrl) : String × String × Option Nat := (url.scheme, url.host, url.port)

end HttpxUrl

/-- The parser of `httpx`, which raises `InvalidURL`. -/
structure Httpx where
  url : String → Option HttpxUrl

/-- A URL has a scheme and a host when they are written in it. -/
structure Httpx.Documented (httpx : Httpx) : Prop where
  absolute : ∀ text url, httpx.url text = some url → (url.IsAbsolute ↔ AbsoluteUrl text.toList)

/-- `_merge_url`: a relative reference is appended to the base URL, an absolute one is used as it
is. -/
def mergeUrl (base reference : HttpxUrl) : HttpxUrl :=
  if reference.IsAbsolute then reference
  else
    { base with
      rawPath := base.rawPath ++ String.ofList (reference.rawPath.toList.dropWhile (· = '/')) }

/-- `SafeHttpClient`, with the base URL that its constructor has checked. -/
structure SafeHttpClient where
  policy : OutboundPolicy
  baseUrl : String
  host : List Char
  port : Int
  /-- The base URL of the `httpx` client. -/
  base : HttpxUrl

variable (lib : Stdlib) (httpx : Httpx)

namespace SafeHttpClient

/-- `__init__`, which checks the base URL against the policy. -/
def init (baseUrl : String) (policy : OutboundPolicy) : Except SendError SafeHttpClient := do
  let baseUrl ← validateBaseUrl lib baseUrl policy
  let parsed ← demand .valueError (lib.urlparse baseUrl)
  let port ← demand .valueError (lib.port parsed)
  let base ← demand .invalidUrl (httpx.url (baseUrl ++ "/"))
  return { policy, baseUrl, host := lib.hostname parsed, port := defaultPort parsed port, base }

/-- What is left of a path when the client hands it on. -/
def reference (path : String) : String := String.ofList (path.toList.dropWhile (· = '/'))

/-- `request`: the URL that it sends to, when the resolver answers for the base URL's host. -/
def request (client : SafeHttpClient) (path : String) (resolved : Resolved) :
    Except SendError HttpxUrl := do
  validateRelativePath lib path
  validateResolvedAddresses lib client.policy resolved
  let url ← demand .invalidUrl (httpx.url (reference path))
  return mergeUrl client.base url

end SafeHttpClient

/-! ## BK-CI -/

/-- `BkCiPipelineProvider`, with the client over its base URL. -/
structure BkCiPipelineProvider where
  client : SafeHttpClient
  projectId : String
  pipelineId : String
  apiPrefix : List Char

/-- The requests of the adapter. -/
inductive BkCiCall where
  | trigger
  | get (externalId : String)
  | cancel (externalId : String)

namespace BkCiPipelineProvider

/-- `__init__`, which checks what makes up the paths. -/
def init (baseUrl projectId pipelineId userId : String) (policy : OutboundPolicy)
    (bearerToken : Option String) (apiPrefix : String) : Except SendError BkCiPipelineProvider := do
  refuse (projectId = "" ∨ pipelineId = "" ∨ userId = "")
    (.configuration "BK-CI project, pipeline and user are required")
  validateRelativePath lib apiPrefix
  let client ← SafeHttpClient.init lib httpx baseUrl policy
  refuse (bearerToken = some "") (.configuration "BK-CI bearer token is empty")
  return { client, projectId, pipelineId, apiPrefix := rstrip '/' apiPrefix.toList }

/-- The BK-CI branch of `_default_provider_builder`. -/
def ofConnection (baseUrl secret : String) (config : List (String × String))
    (policy : OutboundPolicy) : Except SendError BkCiPipelineProvider :=
  let value (key : String) : String := (config.lookup key).getD ""
  init lib httpx baseUrl (value "project_id") (value "pipeline_id") (value "user_id") policy
    (some secret) ((config.lookup "api_prefix").getD "/ms/process/api/user/builds")

/-- `_pipeline_path`. -/
def pipelinePath (provider : BkCiPipelineProvider) : List Char :=
  provider.apiPrefix ++ "/projects/".toList ++ quote provider.projectId.toList
    ++ "/pipelines/".toList ++ quote provider.pipelineId.toList

/-- `_validate_build_id`. -/
def isBuildId (value : String) : Bool :=
  1 ≤ value.length ∧ value.length ≤ 200
    ∧ value.toList.all fun c => c.isAlpha ∨ c.isDigit ∨ c = '_' ∨ c = '-'

/-- The check of a build id, for the calls that have one. -/
def BuildIdValid : BkCiCall → Prop
  | .trigger => True
  | .get externalId | .cancel externalId => isBuildId externalId

instance (call : BkCiCall) : Decidable (BuildIdValid call) := by
  unfold BuildIdValid
  cases call <;> infer_instance

/-- The path of a call, in which what comes from outside is quoted. -/
def path (provider : BkCiPipelineProvider) : BkCiCall → List Char
  | .trigger => provider.pipelinePath ++ "/start".toList
  | .get externalId =>
    provider.pipelinePath ++ "/builds/".toList ++ quote externalId.toList ++ "/status".toList
  | .cancel externalId =>
    provider.pipelinePath ++ "/builds/".toList ++ quote externalId.toList ++ "/stop".toList

/-- A call of the adapter, up to the URL that is requested. -/
def send (provider : BkCiPipelineProvider) (call : BkCiCall) (resolved : Resolved) :
    Except SendError HttpxUrl := do
  refuse (¬ BuildIdValid call) (.provider (.response "BK-CI build id is invalid"))
  provider.client.request lib httpx (String.ofList (provider.path call)) resolved

end BkCiPipelineProvider

/-! ## Where a request goes -/

section
variable {lib : Stdlib} {httpx : Httpx} {client : SafeHttpClient} {path : String}
  {resolved : Resolved} {sent : HttpxUrl}

/-- A path that is let through begins with one slash. -/
theorem validateRelativePath_slash (h : validateRelativePath lib path = .ok ()) :
    ∃ rest, path.toList = '/' :: rest ∧ rest.head? ≠ some '/' := by
  obtain ⟨parsed, -, h⟩ := bind_eq_ok.mp h
  obtain ⟨hshape, -⟩ := refuse_bind_eq_ok.mp h
  simp only [not_or, not_not] at hshape
  obtain ⟨hfirst, hsecond, -⟩ := hshape
  cases hpath : path.toList with
  | nil =>
    rw [hpath] at hfirst
    cases hfirst
  | cons c rest =>
    rw [hpath] at hfirst hsecond
    obtain rfl : c = '/' := Option.some.inj hfirst
    refine ⟨rest, rfl, fun hrest => hsecond ?_⟩
    cases rest with
    | nil => cases hrest
    | cons d rest =>
      obtain rfl : d = '/' := Option.some.inj hrest
      rfl

/-- The client takes that slash away, and nothing else. -/
theorem reference_toList (h : validateRelativePath lib path = .ok ()) :
    (SafeHttpClient.reference path).toList = path.toList.drop 1 := by
  obtain ⟨rest, hpath, hrest⟩ := validateRelativePath_slash h
  unfold SafeHttpClient.reference
  rw [String.toList_ofList, hpath, List.dropWhile_cons_of_pos (by decide)]
  cases rest with
  | nil => rfl
  | cons c rest =>
    have hc : c ≠ '/' := fun h => hrest (by rw [h]; rfl)
    rw [List.dropWhile_cons_of_neg (by simpa using hc)]
    rfl

theorem request_ok (h : client.request lib httpx path resolved = .ok sent) :
    validateRelativePath lib path = .ok ()
      ∧ ∃ url, httpx.url (SafeHttpClient.reference path) = some url
        ∧ sent = mergeUrl client.base url := by
  obtain ⟨⟨⟩, hpath, h⟩ := bind_eq_ok.mp h
  obtain ⟨-, -, h⟩ := bind_eq_ok.mp h
  obtain ⟨url, hurl, h⟩ := bind_eq_ok.mp h
  exact ⟨hpath, url, demand_eq_ok.mp hurl, (pure_eq_ok.mp h).symm⟩

/-- What the client hands on is an absolute URL of another scheme, host or port. -/
def LeadsAway (httpx : Httpx) (client : SafeHttpClient) (path : String) : Prop :=
  AbsoluteUrl (path.toList.drop 1)
    ∧ (httpx.url (SafeHttpClient.reference path)).map (·.origin) ≠ some client.base.origin

theorem request_origin_iff (hhttpx : httpx.Documented)
    (h : client.request lib httpx path resolved = .ok sent) :
    sent.origin = client.base.origin ↔ ¬ LeadsAway httpx client path := by
  obtain ⟨hpath, url, hurl, rfl⟩ := request_ok h
  have habsolute := hhttpx.absolute _ url hurl
  rw [reference_toList hpath] at habsolute
  unfold LeadsAway mergeUrl
  rw [hurl, ← habsolute]
  by_cases hurlAbsolute : url.IsAbsolute
  · rw [if_pos hurlAbsolute]
    simp [hurlAbsolute]
  · rw [if_neg hurlAbsolute]
    exact iff_of_true rfl fun haway => hurlAbsolute haway.1

/-! ## Where BK-CI's requests go -/

namespace BkCiPipelineProvider

variable {provider : BkCiPipelineProvider} {call : BkCiCall}

/-- The prefix that was let through, without slashes at its end. -/
theorem ofConnection_ok {baseUrl secret : String} {config : List (String × String)}
    {policy : OutboundPolicy}
    (h : ofConnection lib httpx baseUrl secret config policy = .ok provider) :
    ∃ apiPrefix, validateRelativePath lib apiPrefix = .ok ()
      ∧ provider.apiPrefix = rstrip '/' apiPrefix.toList := by
  obtain ⟨-, h⟩ := refuse_bind_eq_ok.mp h
  obtain ⟨⟨⟩, hpre, h⟩ := bind_eq_ok.mp h
  obtain ⟨client, -, h⟩ := bind_eq_ok.mp h
  obtain ⟨-, h⟩ := refuse_bind_eq_ok.mp h
  obtain rfl := pure_eq_ok.mp h
  exact ⟨_, hpre, rfl⟩

/-- Every path is the prefix and segments behind it. -/
theorem path_eq (provider : BkCiPipelineProvider) (call : BkCiCall) :
    ∃ rest, provider.path call
      = provider.apiPrefix ++ '/' :: ("projects".toList ++ '/' :: rest) := by
  have hpipeline : ∃ rest, provider.pipelinePath
      = provider.apiPrefix ++ '/' :: ("projects".toList ++ '/' :: rest) := by
    unfold pipelinePath
    rw [List.append_assoc, List.append_assoc, List.append_assoc]
    exact ⟨_, rfl⟩
  obtain ⟨rest, hrest⟩ := hpipeline
  cases call with
  | trigger =>
    refine ⟨rest ++ "/start".toList, ?_⟩
    show provider.pipelinePath ++ _ = _
    rw [hrest]
    simp
  | get externalId =>
    refine ⟨rest ++ ("/builds/".toList ++ quote externalId.toList ++ "/status".toList), ?_⟩
    show provider.pipelinePath ++ _ ++ _ ++ _ = _
    rw [hrest]
    simp
  | cancel externalId =>
    refine ⟨rest ++ ("/builds/".toList ++ quote externalId.toList ++ "/stop".toList), ?_⟩
    show provider.pipelinePath ++ _ ++ _ ++ _ = _
    rw [hrest]
    simp

/-- The prefix decides whether what the client hands on is an absolute URL. -/
theorem absolute_path_iff {apiPrefix : String} (hpre : validateRelativePath lib apiPrefix = .ok ())
    (hprovider : provider.apiPrefix = rstrip '/' apiPrefix.toList) :
    AbsoluteUrl ((provider.path call).drop 1) ↔ AbsoluteUrl (provider.apiPrefix.drop 1) := by
  obtain ⟨rest, hpath⟩ := provider.path_eq call
  obtain ⟨tail, hslash, -⟩ := validateRelativePath_slash hpre
  have hstart : provider.apiPrefix <+: '/' :: tail := hslash ▸ hprovider ▸ rstrip_prefix '/' _
  have hend : provider.apiPrefix.getLast? ≠ some '/' := hprovider ▸ rstrip_getLast? '/' _
  rw [hpath]
  cases happlied : provider.apiPrefix with
  | nil =>
    have hnone : ¬ AbsoluteUrl ("projects".toList ++ '/' :: rest) :=
      not_absoluteUrl_append (by decide)
    exact iff_of_false hnone (not_absoluteUrl (by simp))
  | cons c text =>
    rw [happlied] at hstart hend
    obtain rfl : c = '/' := (List.cons_prefix_cons.mp hstart).1
    show AbsoluteUrl (text ++ '/' :: ("projects".toList ++ '/' :: rest)) ↔ AbsoluteUrl text
    refine absoluteUrl_append (fun htext => hend ?_) (by simp)
    rw [List.getLast?_cons, htext]
    rfl

end BkCiPipelineProvider

end

end QaPlatform.Pipeline
