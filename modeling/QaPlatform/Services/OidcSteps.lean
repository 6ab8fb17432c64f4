import QaPlatform.Services.OidcLogins

/-!
# The steps of the calls as steps of OIDC logins

Each statement of `complete_authorization` and `login_oidc` is one step of `OidcLogins`. The
steps of passwords, of administrators and of sessions leave transactions and callbacks alone.
The theorem of the module is about every list of events, so callbacks, browsers and restarts
come in any order.
-/

namespace QaPlatform.Services

namespace IdentityStore

variable {config : IdentityConfig} {s s' : IdentityStore} {callback : Nat}

/-! ## The steps of the calls -/

/-- The rows and the callbacks of OIDC logins. -/
def oidc (s : IdentityStore) : OidcLogins where
  sessions := s.sessions
  identities := s.identities
  transactions := s.transactions
  callbacks := s.callbacks
  states := s.states
  consumed := s.consumed
  claims := s.claims

theorem oidc_step_of_eq (h : s'.oidc = s.oidc) : OidcLogins.Step config s.oidc s'.oidc := by
  rw [h]
  exact .others (OidcLogins.Sound.same_sessions s.oidc)

/-- A step that has to do with sessions only. -/
theorem oidc_step_of_sessions {sessions : Table StoredSession}
    (h : s'.oidc = { s.oidc with sessions }) (hdescend : Accounts.Descend s.sessions sessions) :
    OidcLogins.Step config s.oidc s'.oidc := by
  rw [h]
  exact .others fun x' hx' _ _ => hdescend x' hx'

/-- A step that issues another session. -/
theorem oidc_step_of_add {userId : Uuid} {rawToken : String} {now : Instant}
    {origin : SessionOrigin} (horigin : ∀ callback, origin ≠ .oidc callback)
    (h : s'.oidc = { s.oidc with
      sessions := s.sessions.add (newSession config userId rawToken now origin) }) :
    OidcLogins.Step config s.oidc s'.oidc := by
  rw [h]
  refine .others fun x' hx' callback hx'origin => ?_
  rcases Accounts.mem_add_session hx' with hold | rfl
  · exact OidcLogins.Sound.same_sessions s.oidc x' hold callback hx'origin
  · exact absurd hx'origin (horigin callback)

theorem setCallback_over_step (callback : Nat) (s : IdentityStore) :
    OidcLogins.Step config s.oidc (s.setCallback callback .ended).oidc :=
  .ended callback

theorem insertUser_oidc {username displayName passwordHash roleKey : String} {now : Instant}
    (h : s.insertUser config username displayName passwordHash roleKey now = some s') :
    s'.oidc = s.oidc := by
  obtain rfl := insertUser_eq_some h
  rfl

theorem completeLogin_oidc {user : UserAccount} {rawToken : String} {authenticatedAt : Instant}
    {replacement : Option String}
    (h : s.completeLogin config user rawToken authenticatedAt replacement = some s') :
    s'.oidc = { s.oidc with
      sessions := s.sessions.add
        (newSession config user.id rawToken authenticatedAt (.password user.passwordHash)) } := by
  unfold completeLogin at h
  simp only [bind, Option.bind_eq_some_iff] at h
  obtain ⟨s₁, hupdate, s₂, hsession, h⟩ := h
  obtain ⟨row, row', hrow, hcas, rfl⟩ := updateRow_eq_some hupdate
  obtain rfl := insertSession_eq_some hsession
  obtain rfl := Option.some.inj h
  cases replacement with
  | none => rfl
  | some replacement => rfl

theorem settleLogin_oidc (user : UserAccount) (password : String) (now issuedAt : Instant)
    (rawToken newHash : String) (s : IdentityStore) :
    OidcLogins.Step config s.oidc
      (s.settleLogin config user password now issuedAt rawToken newHash).oidc := by
  unfold settleLogin
  cases h : s.attemptLogin config user password now issuedAt rawToken newHash with
  | none => exact oidc_step_of_eq rfl
  | some result =>
    obtain ⟨outcome, s'⟩ := result
    show OidcLogins.Step config s.oidc s'.oidc
    obtain ⟨-, row, row', hrow, hfailed, rfl⟩ | ⟨-, replacement, -, hlogin⟩ :=
      attemptLogin_eq_some h
    · exact oidc_step_of_eq rfl
    · exact oidc_step_of_add (by simp) (completeLogin_oidc hlogin)

theorem issueSetup_oidc (rawToken : String) (now : Instant) (s : IdentityStore) :
    OidcLogins.Step config s.oidc (s.issueSetup config rawToken now).oidc := by
  unfold issueSetup
  split
  · exact oidc_step_of_eq rfl
  · next user hsetting =>
    show OidcLogins.Step config s.oidc
      ((s.insertSession config user.id rawToken now .setup).getD s).oidc
    cases h : s.insertSession config user.id rawToken now .setup with
    | none => exact oidc_step_of_eq rfl
    | some s' =>
      obtain rfl := insertSession_eq_some h
      refine oidc_step_of_add ?_ rfl
      simp

theorem settleAuthentication_oidc (authentication : Nat) (s : IdentityStore) :
    OidcLogins.Step config s.oidc (s.settleAuthentication authentication).oidc := by
  fun_cases settleAuthentication authentication s
  case case1 x now hrefused done =>
    exact oidc_step_of_sessions rfl (revokeSession_descend x.id now s)
  case case2 x now huntouched done =>
    exact oidc_step_of_sessions rfl (touchSession_descend x.id now s)
  case case3 => exact oidc_step_of_eq rfl

theorem revokeAdmin_oidc (now : Instant) (s : IdentityStore) :
    OidcLogins.Step config s.oidc (s.revokeAdmin now).oidc := by
  unfold revokeAdmin
  split
  · next updated hadmin =>
    exact oidc_step_of_sessions rfl (revokeUserSessions_descend updated.id now s)
  · exact oidc_step_of_eq rfl

theorem flushAdmin_oidc (s : IdentityStore) :
    OidcLogins.Step config s.oidc (s.flushAdmin config).oidc := by
  unfold flushAdmin
  split
  · next record updated revokes hadmin =>
    cases h : s.updateRow updated.id fun row =>
        some (row.overwrite config.backend record updated) with
    | none => exact oidc_step_of_eq rfl
    | some s' =>
      obtain ⟨row, row', -, -, rfl⟩ := updateRow_eq_some h
      exact oidc_step_of_eq rfl
  · exact oidc_step_of_eq rfl

theorem insertBinding_oidc (binding : Nat) (subject : String) (now : Instant) (s : IdentityStore) :
    OidcLogins.Step config s.oidc (s.insertBinding binding subject now).oidc := by
  unfold insertBinding
  split
  · exact oidc_step_of_eq rfl
  · next user hreading =>
    split
    · exact oidc_step_of_eq rfl
    · have hkey : ∀ k, key (⟨k, user.id, oidcLocalIssuer, subject, now, none⟩ : OidcIdentity) = k :=
        fun _ => rfl
      exact .bound hkey

theorem startAuthorization_oidc {state : String} (nonce browserBinding codeVerifier : String)
    (now : Instant) (hfresh : tokenHash state ∉ s.states) :
    OidcLogins.Step config s.oidc
      (s.startAuthorization config state nonce browserBinding codeVerifier now).oidc := by
  unfold startAuthorization
  dsimp only
  split
  · exact oidc_step_of_eq rfl
  · have hstate : ∀ k, (newTransaction config state nonce browserBinding codeVerifier now
        k).stateHash = tokenHash state := fun _ => rfl
    exact .started (fun _ => rfl) hstate hfresh

/-! ## Callbacks -/

theorem loadCallback_oidc (callback : Nat) (code state browserBinding : String)
    (consumedAt : Instant) (s : IdentityStore) :
    OidcLogins.Step config s.oidc
      (s.loadCallback callback code state browserBinding consumedAt).oidc := by
  unfold loadCallback
  split
  · next hidle =>
    split
    · exact setCallback_over_step callback s
    · split
      · exact setCallback_over_step callback s
      · next record hrecord =>
        split
        · next hconsumable =>
          exact .loaded hidle (List.mem_of_find?_eq_some hrecord) hconsumable
        · exact setCallback_over_step callback s
  · exact oidc_step_of_eq rfl

theorem consumeCallback_oidc (callback : Nat) (s : IdentityStore) :
    OidcLogins.Step config s.oidc (s.consumeCallback callback).oidc := by
  unfold consumeCallback
  split
  · next record stateHash browserBindingHash consumedAt hloaded =>
    split
    · exact setCallback_over_step callback s
    · next row hrow =>
      split
      · next hconsumable => exact .consumed hloaded (List.mem_of_find?_eq_some hrow) hconsumable
      · exact setCallback_over_step callback s
  · exact oidc_step_of_eq rfl

theorem verifyCallback_oidc (callback : Nat) (claims : Option TokenClaims) (s : IdentityStore) :
    OidcLogins.Step config s.oidc (s.verifyCallback callback claims).oidc := by
  unfold verifyCallback
  split
  · next transaction hexchanging =>
    split
    · exact setCallback_over_step callback s
    · split
      · next hnonce => exact .verified hexchanging hnonce.2
      · exact setCallback_over_step callback s
  · exact oidc_step_of_eq rfl

theorem identifyCallback_oidc (callback : Nat) (s : IdentityStore) :
    OidcLogins.Step config s.oidc (s.identifyCallback config callback).oidc := by
  unfold identifyCallback
  split
  · next issuer subject hverified =>
    split
    · exact setCallback_over_step callback s
    · next hvalid =>
      split
      · exact setCallback_over_step callback s
      · next identity hidentity =>
        simp only [not_or, ne_eq, Decidable.not_not] at hvalid
        obtain ⟨-, rfl, -⟩ := hvalid
        have hfound := List.find?_some hidentity
        simp only [decide_eq_true_eq] at hfound
        exact .identified hverified (List.mem_of_find?_eq_some hidentity) hfound.1 hfound.2
  · exact oidc_step_of_eq rfl

theorem authorizeCallback_oidc (callback : Nat) (s : IdentityStore) :
    OidcLogins.Step config s.oidc (s.authorizeCallback callback).oidc := by
  unfold authorizeCallback
  split
  · next identity hidentified =>
    split
    · exact setCallback_over_step callback s
    · next user huser =>
      split
      · exact setCallback_over_step callback s
      · exact .authorized hidentified (Table.key_of_get? huser)
  · exact oidc_step_of_eq rfl

theorem issueCallback_oidc (callback : Nat) (rawToken : String) (authenticatedAt : Instant)
    (s : IdentityStore) :
    OidcLogins.Step config s.oidc
      (s.issueCallback config callback rawToken authenticatedAt).oidc := by
  unfold issueCallback
  split
  · next user identity hauthorized =>
    cases h : s.completeOidcLogin config callback user identity rawToken authenticatedAt with
    | none => exact setCallback_over_step callback s
    | some s' =>
      obtain ⟨row, bound, -, hid, -, hbound, huser, hissuer, hsubject, rfl⟩ :=
        completeOidcLogin_eq_some h
      rw [hid]
      exact .issued hauthorized (Table.mem_of_get? hbound) huser hissuer hsubject
  · exact oidc_step_of_eq rfl

/-- Every step is one of the OIDC logins. -/
theorem step_oidc (config : IdentityConfig) (s : IdentityStore) (e : IdentityEvent) :
    OidcLogins.Step config s.oidc (step config s e).oidc := by
  cases e with
  | setup username displayName passwordHash now =>
    apply oidc_step_of_eq
    simp only [step]
    split
    -- an account is added at most, and no binding of it
    · fun_cases setup config username displayName passwordHash now s
      case case3 s' h =>
        have hsame : s'.oidc = s.oidc := insertUser_oidc h
        exact hsame
      all_goals rfl
    · rfl
  | issueSetup rawToken now => exact issueSetup_oidc rawToken now s
  | createUser username displayName passwordHash roleKey now =>
    apply oidc_step_of_eq
    simp only [step]
    split
    · fun_cases createUser config username displayName passwordHash roleKey now s
      case case1 =>
        cases h : s.insertUser config username displayName passwordHash roleKey now with
        | none => rfl
        | some s' => exact insertUser_oidc h
      case case2 => rfl
    · rfl
  | readLogin login username password =>
    apply oidc_step_of_eq
    show (s.readLogin login username password).oidc = s.oidc
    fun_cases readLogin login username password s
    all_goals rfl
  | settleLogin login now issuedAt rawToken newHash =>
    simp only [step]
    split
    · exact oidc_step_of_eq rfl
    · next user password hlogin =>
      split
      · exact settleLogin_oidc user password now issuedAt rawToken newHash s
      · exact oidc_step_of_eq rfl
  | readAdmin userId task =>
    apply oidc_step_of_eq
    show (s.readAdmin userId task).oidc = s.oidc
    unfold readAdmin
    split <;> rfl
  | prepareAdmin now newHash =>
    apply oidc_step_of_eq
    simp only [step]
    split
    · unfold prepareAdmin
      split
      · split
        · rfl
        · dsimp only
          split <;> rfl
      · rfl
    · rfl
  | loadAdmin =>
    apply oidc_step_of_eq
    show s.loadAdmin.oidc = s.oidc
    fun_cases loadAdmin s
    all_goals rfl
  | flushAdmin => exact flushAdmin_oidc s
  | revokeAdmin now => exact revokeAdmin_oidc now s
  | abortAdmin => exact oidc_step_of_eq rfl
  | revokeSessions userId now =>
    exact oidc_step_of_sessions rfl (revokeUserSessions_descend userId now s)
  | logout sessionId now =>
    exact oidc_step_of_sessions rfl (revokeSession_descend sessionId now s)
  | readSession authentication rawToken touch now =>
    apply oidc_step_of_eq
    show (s.readSession authentication rawToken touch now).oidc = s.oidc
    fun_cases readSession authentication rawToken touch now s
    all_goals rfl
  | readPrincipal authentication =>
    apply oidc_step_of_eq
    show (s.readPrincipal authentication).oidc = s.oidc
    fun_cases readPrincipal authentication s
    all_goals rfl
  | settleAuthentication authentication => exact settleAuthentication_oidc authentication s
  | readBinding binding userId =>
    apply oidc_step_of_eq
    show (s.readBinding binding userId).oidc = s.oidc
    fun_cases readBinding binding userId s
    all_goals rfl
  | insertBinding binding subject now => exact insertBinding_oidc binding subject now s
  | startAuthorization state nonce browserBinding codeVerifier now =>
    simp only [step]
    split
    · exact oidc_step_of_eq rfl
    -- no row has had the state, as it has been drawn just now
    · next hfresh => exact startAuthorization_oidc nonce browserBinding codeVerifier now hfresh
  | loadCallback callback code state browserBinding consumedAt =>
    exact loadCallback_oidc callback code state browserBinding consumedAt s
  | consumeCallback callback => exact consumeCallback_oidc callback s
  | verifyCallback callback claims => exact verifyCallback_oidc callback claims s
  | identifyCallback callback => exact identifyCallback_oidc callback s
  | authorizeCallback callback => exact authorizeCallback_oidc callback s
  | issueCallback callback rawToken authenticatedAt =>
    exact issueCallback_oidc callback rawToken authenticatedAt s
  | abortCallback callback =>
    simp only [step]
    split
    · exact oidc_step_of_eq rfl
    · exact setCallback_over_step callback s
  | restart mode => exact .restarted

/-! ## Runs -/

theorem initial_oidc_sound (config : IdentityConfig) (mode : AuthRuntimeMode) :
    (initial mode).oidc.Sound config where
  states := by
    intro t ht
    cases ht
  unique := by
    intro t ht
    cases ht
  marked := by
    intro k hk
    cases hk
  fits := by
    intro k hk
    cases hk
  onceState := List.nodup_nil
  onceCallback := List.nodup_nil
  knows := by
    intro callback k hk
    cases hk
  sessions := by
    intro x hx
    cases hx
  onceSession := by
    intro x hx
    cases hx

theorem run_oidc_sound (config : IdentityConfig) (mode : AuthRuntimeMode)
    (events : List IdentityEvent) :
    (events.foldl (step config) (initial mode)).oidc.Sound config := by
  have hrun : ∀ {s : IdentityStore}, s.oidc.Sound config →
      (events.foldl (step config) s).oidc.Sound config := by
    induction events with
    | nil => exact fun hs => hs
    | cons e events ih => exact fun hs => ih ((step_oidc config _ e).sound hs)
  exact hrun (initial_oidc_sound config mode)

/-- In every state that the calls can reach, however they interleave: no state and no callback has
consumed twice, each time with the cookie of the browser and before the transaction expired; and a
session that a callback has issued is its only one, for the account that is bound to the subject of
the token with the nonce of the transaction that the callback has consumed. -/
theorem oidc_session_of_one_transaction (config : IdentityConfig) (mode : AuthRuntimeMode)
    (events : List IdentityEvent) :
    let s := events.foldl (step config) (initial mode)
    (s.consumed.map (·.transaction.stateHash)).Nodup ∧ (s.consumed.map (·.callback)).Nodup ∧
      (∀ k ∈ s.consumed, k.transaction.browserBindingHash = k.browserBindingHash
        ∧ k.consumedAt < k.transaction.expiresAt) ∧
      ∀ x ∈ s.sessions.rows, ∀ callback, x.origin = .oidc callback →
        (∀ y ∈ s.sessions.rows, y.origin = .oidc callback → x = y) ∧
        ∃ k ∈ s.consumed, k.callback = callback ∧
        ∃ claims, s.claims callback = some claims
          ∧ tokenHash claims.nonce = k.transaction.nonceHash ∧ claims.issuer = config.oidcIssuer ∧
        ∃ identity ∈ s.identities.rows, identity.userId = x.userId
          ∧ identity.issuer = claims.issuer ∧ identity.subject = claims.subject := by
  intro s
  have hs : s.oidc.Sound config := run_oidc_sound config mode events
  refine ⟨hs.onceState, hs.onceCallback, hs.fits, ?_⟩
  intro x hx callback horigin
  obtain ⟨-, subject, hverified, identity, hidentity, huser, hissuer, hsubject⟩ :=
    hs.sessions x hx callback horigin
  obtain ⟨claims, hclaims, ⟨k, hk, hcallback, hnonce⟩, hclaimsIssuer, hclaimsSubject⟩ := hverified
  refine ⟨?_, k, hk, hcallback, claims, hclaims, hnonce.symm, hclaimsIssuer, identity, hidentity,
    huser, hissuer.trans hclaimsIssuer.symm, hsubject.trans hclaimsSubject.symm⟩
  intro y hy hyorigin
  exact List.inj_on_of_nodup_map s.sessions.nodup hx hy
    (hs.onceSession x hx y hy callback horigin hyorigin)

/-- A tester logs in by way of the provider; the second callback with the state comes to nothing. -/
def testerCallback : List IdentityEvent :=
  let state := "state-state-state-state-state-state"
  let nonce := "nonce-nonce-nonce-nonce-nonce-nonce"
  let cookie := "cookie-cookie-cookie-cookie-cookie"
  [.createUser "ann" "Ann" "argon2:b" "tester" 1, .readBinding 0 0, .insertBinding 0 "sub-ann" 2,
    .startAuthorization state nonce cookie "verifier" 3, .loadCallback 0 "code" state cookie 4,
    .loadCallback 1 "code" state cookie 4, .consumeCallback 0, .consumeCallback 1,
    .verifyCallback 0 (some ⟨oidcLocalIssuer, "sub-ann", nonce⟩), .identifyCallback 0,
    .authorizeCallback 0, .issueCallback 0 "token" 5, .verifyCallback 1 none]

example :
    let s := testerCallback.foldl (step localConfig) (initial .keycloakLocalContainer)
    s.sessions.rows.map (fun x => (x.userId, x.origin)) = [(0, .oidc 0)]
      ∧ s.consumed.map (·.callback) = [0] := by
  decide +kernel

end IdentityStore

end QaPlatform.Services
