import QaPlatform.Pipeline.Http
import QaPlatform.Runtime.ProviderStore

/-!
# Where outbound requests go

A request leaves the base URL's origin exactly when its path is an absolute URL behind
one slash. The validator takes such a path for a relative one; a BK-CI connection can
have it as its `api_prefix`.

What `httpx` makes of a URL is a parameter; relied on is only which texts it takes for absolute
URLs. `sent_to_base_iff` is about whatever path a caller asks for, and then about the paths of
BK-CI, where the connection's own prefix decides. The counterexample is a trigger whose request
goes to another host.
-/

namespace QaPlatform.Runtime

open QaPlatform.Pipeline QaPlatform.Urls

/-! ## A client on one machine -/

/-- Lower case, names, numbers and addresses, as far as ASCII and one address go. -/
def lessonLib : Stdlib where
  lower text := text.map Char.toLower
  idna host := some host
  int text :=
    if text.all Char.isDigit then some (text.foldl (fun n c => 10 * n + (c.toNat - 48)) 0) else none
  ipAddress host := if host = "127.0.0.1" then some ⟨.v4, 0x7F000001⟩ else none
  checkNetloc _ := true

/-- The port of an authority, when it is not the one of plain HTTP. -/
def lessonPort (authority : List Char) : Option Nat :=
  match (cut ':' authority).2 with
  | [] => none
  | text => some (text.foldl (fun n c => 10 * n + (c.toNat - 48)) 0)

/-- An absolute URL by its parts, and a relative one as it is. -/
def lessonHttpx : Httpx where
  url text :=
    if AbsoluteUrl text.toList then
      let rest := (text.toList.dropWhile (· ≠ ':')).drop 3
      let authority := rest.takeWhile fun c => ¬ endsAuthority c
      some
        { scheme := String.ofList ((text.toList.takeWhile (· ≠ ':')).map Char.toLower)
          host := String.ofList (authorityHost authority)
          port := lessonPort authority
          rawPath := String.ofList (rest.dropWhile fun c => ¬ endsAuthority c) }
    else some { scheme := "", host := "", port := none, rawPath := text }

theorem ofList_ne_empty {text : List Char} (h : text ≠ []) : String.ofList text ≠ "" := by
  intro he
  have hlist := congrArg String.toList he
  rw [String.toList_ofList] at hlist
  exact h hlist

theorem lessonHttpx_documented : lessonHttpx.Documented := by
  refine ⟨fun text url hurl => ?_⟩
  by_cases habsolute : AbsoluteUrl text.toList
  · have hparts : lessonHttpx.url text = some _ := if_pos habsolute
    rw [hparts] at hurl
    obtain rfl := Option.some.inj hurl
    refine iff_of_true ⟨?_, ?_⟩ habsolute
    · refine ofList_ne_empty fun hnone => ?_
      have hscheme := habsolute.1
      rw [List.map_eq_nil_iff.mp hnone] at hscheme
      cases hscheme
    · refine ofList_ne_empty fun hnone => ?_
      have hhost := habsolute.2.2
      unfold hostAfterScheme at hhost
      split at hhost
      · exact hhost hnone
      · exact hhost rfl
  · have hwhole : lessonHttpx.url text = some _ := if_neg habsolute
    rw [hwhole] at hurl
    obtain rfl := Option.some.inj hurl
    exact iff_of_false (fun h => h.1 rfl) habsolute

/-- Plain HTTP to a port of this machine. -/
def lessonPolicy : OutboundPolicy where
  allowedHosts := ["127.0.0.1"]
  allowedPorts := [8080]
  allowedNetworks := [⟨.v4, 0x7F000000, 24⟩]
  allowLoopbackHttp := true
  allowedHttpHosts := []
  maxResponseBytes := 1048576
  hosts_ne := by simp
  ports := by simp
  networks := by decide +kernel
  httpHosts := by simp
  responseBytes := by decide

/-- A connection to BK-CI. -/
def lessonBkCi (apiPrefix : String) : ProviderConnectionRecord where
  id := 0
  name := "BK-CI"
  kind := .bkCi
  baseUrl := some "http://127.0.0.1:8080"
  definitionRef := "pipeline"
  config := [("project_id", "project"), ("pipeline_id", "pipeline"), ("user_id", "user"),
    ("api_prefix", apiPrefix)]
  secretEnvVar := some "QA_PROVIDER_SECRET_BK_CI"
  webhookSecretEnvVar := none
  enabled := true
  version := 0
  createdAt := 0
  updatedAt := 0

/-- The origin of the base URL, and of the URL that the connection's trigger goes to. -/
def triggerOrigins (apiPrefix : String) :
    Except SendError ((String × String × Option Nat) × String × String × Option Nat) := do
  let provider ← BkCiPipelineProvider.ofConnection lessonLib lessonHttpx "http://127.0.0.1:8080"
    "secret" (lessonBkCi apiPrefix).config lessonPolicy
  let sent ← provider.send lessonLib lessonHttpx .trigger (.addresses ["127.0.0.1"])
  return (provider.client.base.origin, sent.origin)

/-- What the two origins are, with the values that were computed on the way. -/
theorem triggerOrigins_ok {apiPrefix : String} {base origin : String × String × Option Nat}
    (h : triggerOrigins apiPrefix = .ok (base, origin)) :
    ∃ provider sent, BkCiPipelineProvider.ofConnection lessonLib lessonHttpx
        "http://127.0.0.1:8080" "secret" (lessonBkCi apiPrefix).config lessonPolicy = .ok provider
      ∧ provider.send lessonLib lessonHttpx .trigger (.addresses ["127.0.0.1"]) = .ok sent
      ∧ provider.client.base.origin = base ∧ sent.origin = origin := by
  obtain ⟨provider, hprovider, h⟩ := bind_eq_ok.mp h
  obtain ⟨sent, hsent, h⟩ := bind_eq_ok.mp h
  obtain ⟨hbase, horigin⟩ := Prod.mk.inj (pure_eq_ok.mp h)
  exact ⟨provider, sent, hprovider, hsent, hbase, horigin⟩

theorem toOption_eq_some {ε α : Type} {x : Except ε α} {a : α} (h : x.toOption = some a) :
    x = .ok a := by
  cases x with
  | error e => cases h
  | ok b => exact congrArg _ (Option.some.inj h)

theorem triggerOrigins_elsewhere :
    triggerOrigins "/http://elsewhere.example"
      = .ok (("http", "127.0.0.1", some 8080), "http", "elsewhere.example", none) := by
  have hcheck : (triggerOrigins "/http://elsewhere.example").toOption
      = some (("http", "127.0.0.1", some 8080), "http", "elsewhere.example", none) := by
    decide +kernel
  exact toOption_eq_some hcheck

theorem triggerOrigins_default :
    triggerOrigins "/ms/process/api/user/builds"
      = .ok (("http", "127.0.0.1", some 8080), "http", "127.0.0.1", some 8080) := by
  have hcheck : (triggerOrigins "/ms/process/api/user/builds").toOption
      = some (("http", "127.0.0.1", some 8080), "http", "127.0.0.1", some 8080) := by
    decide +kernel
  exact toOption_eq_some hcheck

/-! ## Where requests go -/

/-- A request goes to the base URL's scheme, host and port unless its path, without the leading
slash, is an absolute URL of another one; for BK-CI the connection's `api_prefix` decides. -/
theorem sent_to_base_iff (lib : Stdlib) (httpx : Httpx) (hhttpx : httpx.Documented)
    (baseUrl : String)
    (policy : OutboundPolicy) (resolved : Resolved) (sent : HttpxUrl) :
    (∀ client path, SafeHttpClient.init lib httpx baseUrl policy = .ok client →
      client.request lib httpx path resolved = .ok sent →
      (sent.origin = client.base.origin ↔ ¬ LeadsAway httpx client path))
    ∧ ∀ secret config provider call,
      BkCiPipelineProvider.ofConnection lib httpx baseUrl secret config policy = .ok provider →
      provider.send lib httpx call resolved = .ok sent →
      (sent.origin = provider.client.base.origin
        ↔ ¬ (AbsoluteUrl (provider.apiPrefix.drop 1)
          ∧ (httpx.url (SafeHttpClient.reference (String.ofList (provider.path call)))).map
            (·.origin)
            ≠ some provider.client.base.origin)) := by
  refine ⟨fun client path _ hsent => request_origin_iff hhttpx hsent,
    fun secret config provider call hprovider hsent => ?_⟩
  obtain ⟨apiPrefix, hpre, hstripped⟩ := BkCiPipelineProvider.ofConnection_ok hprovider
  obtain ⟨-, hrequest⟩ := refuse_bind_eq_ok.mp hsent
  rw [request_origin_iff hhttpx hrequest, LeadsAway, String.toList_ofList,
    BkCiPipelineProvider.absolute_path_iff hpre hstripped]

theorem sent_to_base_iff_builds :
    ∃ provider sent, BkCiPipelineProvider.ofConnection lessonLib lessonHttpx
        "http://127.0.0.1:8080" "secret"
          (lessonBkCi "/ms/process/api/user/builds").config lessonPolicy
          = .ok provider
      ∧ provider.send lessonLib lessonHttpx .trigger (.addresses ["127.0.0.1"]) = .ok sent
      ∧ ¬ (AbsoluteUrl (provider.apiPrefix.drop 1)
          ∧ (lessonHttpx.url
            (SafeHttpClient.reference (String.ofList (provider.path .trigger)))).map
            (·.origin) ≠ some provider.client.base.origin) := by
  obtain ⟨provider, sent, hprovider, hsent, hbase, horigin⟩ :=
    triggerOrigins_ok triggerOrigins_default
  refine ⟨provider, sent, hprovider, hsent, ?_⟩
  exact ((sent_to_base_iff lessonLib lessonHttpx lessonHttpx_documented "http://127.0.0.1:8080"
    lessonPolicy (.addresses ["127.0.0.1"]) sent).2 _ _ _ _ hprovider hsent).mp
      (horigin.trans hbase.symm)

/-- The connection is accepted, and its trigger goes to another host. -/
theorem trigger_leaves_base :
    validateConnectionInput (lessonBkCi "/http://elsewhere.example") = .ok ()
    ∧ ∃ provider sent, BkCiPipelineProvider.ofConnection lessonLib lessonHttpx
        "http://127.0.0.1:8080" "secret"
          (lessonBkCi "/http://elsewhere.example").config lessonPolicy
          = .ok provider
      ∧ provider.send lessonLib lessonHttpx .trigger (.addresses ["127.0.0.1"]) = .ok sent
      ∧ provider.client.base.origin = ("http", "127.0.0.1", some 8080)
      ∧ sent.origin = ("http", "elsewhere.example", none) := by
  have haccepted : (validateConnectionInput (lessonBkCi "/http://elsewhere.example")).toOption
      = some () := by
    decide +kernel
  exact ⟨toOption_eq_some haccepted, triggerOrigins_ok triggerOrigins_elsewhere⟩

end QaPlatform.Runtime
