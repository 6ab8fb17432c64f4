import QaPlatform.Services.Accounts

/-!
# The steps of the calls as steps of the accounts

Whatever a statement of a call does is a step of `Accounts`, or the end of an operation that was
about to revoke the sessions of an account.

There is one lemma for each call of the two services; a call that has nothing to do with
accounts is a step that does nothing. The end of an operation of an administrator that was about
to revoke the sessions of an account is no step of `Accounts`, and is told apart (`Interrupts`),
as the results about disabled accounts ask for its absence.
-/

namespace QaPlatform.Services

namespace IdentityStore

variable {config : IdentityConfig} {s s' : IdentityStore}

/-- The accounts, the sessions and the operation of an administrator. -/
def accounts (s : IdentityStore) : Accounts where
  users := s.users
  sessions := s.sessions
  passwords := s.passwords
  nextPassword := s.nextPassword
  admin := s.admin

/-! ## Results of statements -/

theorem updateRow_eq_some {userId : Uuid} {f : UserAccount → Option UserAccount}
    (h : s.updateRow userId f = some s') :
    ∃ row row', s.users.get? userId = some row ∧ f row = some row'
      ∧ s' = { s with users := s.users.put row' } := by
  unfold updateRow at h
  cases hrow : s.users.get? userId with
  | none => simp [hrow] at h
  | some row =>
    simp only [hrow, Option.map_eq_some_iff] at h
    obtain ⟨row', hrow', rfl⟩ := h
    exact ⟨row, row', rfl, hrow', rfl⟩

theorem insertSession_eq_some {userId : Uuid} {rawToken : String} {now : Instant}
    {origin : SessionOrigin} (h : s.insertSession config userId rawToken now origin = some s') :
    s' = { s with sessions := s.sessions.add (newSession config userId rawToken now origin) } := by
  unfold insertSession at h
  split at h
  · cases h
  · exact (Option.some.inj h).symm

theorem completeLogin_eq_some {user : UserAccount} {rawToken : String} {authenticatedAt : Instant}
    {replacement : Option String}
    (h : s.completeLogin config user rawToken authenticatedAt replacement = some s') :
    ∃ row, s.users.get? row.id = some row ∧ row.id = user.id ∧ row.status = .active
      ∧ row.locked authenticatedAt = false
      ∧ s'.accounts = { s.accounts with
        users := s.users.put (row.loggedIn (replacement.getD row.passwordHash) authenticatedAt)
        sessions := s.sessions.add
          (newSession config row.id rawToken authenticatedAt (.password row.passwordHash))
        passwords := Accounts.rehashed s.passwords row.passwordHash replacement } := by
  unfold completeLogin at h
  simp only [bind, Option.bind_eq_some_iff] at h
  obtain ⟨s₁, hupdate, s₂, hsession, h⟩ := h
  obtain ⟨row, row', hrow, hcas, rfl⟩ := updateRow_eq_some hupdate
  obtain ⟨hhash, hactive, hlocked, rfl⟩ := UserAccount.completeLogin_eq_some hcas
  obtain rfl := insertSession_eq_some hsession
  obtain rfl := Option.some.inj h
  have hid : row.id = user.id := Table.key_of_get? hrow
  refine ⟨row, hid ▸ hrow, hid, hactive, hlocked, ?_⟩
  rw [hid, hhash]
  cases replacement with
  | none => rfl
  | some replacement => rfl

theorem completeOidcLogin_eq_some {callback : Nat} {user : UserAccount} {identity : OidcIdentity}
    {rawToken : String} {authenticatedAt : Instant}
    (h : s.completeOidcLogin config callback user identity rawToken authenticatedAt = some s') :
    ∃ row bound, s.users.get? row.id = some row ∧ row.id = user.id ∧ row.status = .active
      ∧ s.identities.get? identity.id = some bound ∧ bound.userId = user.id
      ∧ bound.issuer = identity.issuer ∧ bound.subject = identity.subject
      ∧ s' = { s with
        users := s.users.put (row.loggedIn row.passwordHash authenticatedAt)
        identities := s.identities.put { bound with lastLoginAt := some authenticatedAt }
        sessions := s.sessions.add
          (newSession config row.id rawToken authenticatedAt (.oidc callback)) } := by
  unfold completeOidcLogin at h
  cases hbound : s.identities.get? identity.id with
  | none => simp [hbound] at h
  | some bound =>
    simp only [hbound] at h
    split at h
    · cases h
    · next hmatch =>
      simp only [bind, Option.bind_eq_some_iff] at h
      obtain ⟨s₁, hupdate, h⟩ := h
      obtain ⟨row, row', hrow, hcas, rfl⟩ := updateRow_eq_some hupdate
      obtain ⟨hactive, rfl⟩ := UserAccount.completeOidcLogin_eq_some hcas
      obtain rfl := insertSession_eq_some h
      simp only [not_or, ne_eq, Decidable.not_not] at hmatch
      have hid : row.id = user.id := Table.key_of_get? hrow
      exact ⟨row, bound, hid ▸ hrow, hid, hactive, rfl, hmatch.1, hmatch.2.1, hmatch.2.2,
        by rw [hid]⟩

theorem insertUser_eq_some {username displayName passwordHash roleKey : String} {now : Instant}
    (h : s.insertUser config username displayName passwordHash roleKey now = some s') :
    s' = { s with
      users := s.users.add (newUser username displayName passwordHash roleKey now) }.setPassword
        passwordHash := by
  unfold insertUser at h
  split at h
  · cases h
  · exact (Option.some.inj h).symm

/-! ## Statements on sessions -/

theorem descends_refl (x : StoredSession) : x.Descends x :=
  ⟨rfl, rfl, rfl, rfl, rfl, fun h => h⟩

theorem descends_revoke (x : StoredSession) (now : Instant) :
    x.Descends { x with toAuthSession := x.toAuthSession.revoke now } := by
  refine ⟨rfl, rfl, rfl, rfl, rfl, ?_⟩
  intro h
  simp [AuthSession.revoke] at h

theorem descends_touch (x : StoredSession) (now : Instant) :
    x.Descends { x with toAuthSession := x.toAuthSession.touch now } := by
  unfold AuthSession.touch
  split
  · exact ⟨rfl, rfl, rfl, rfl, rfl, fun h => h⟩
  · exact descends_refl x

/-- The sessions after an UPDATE. -/
theorem descend_update {sessions sessions' : Table StoredSession}
    {f : StoredSession → StoredSession} (hrows : sessions'.rows = sessions.rows.map f)
    (h : ∀ x : StoredSession, x.Descends (f x)) :
    Accounts.Descend sessions sessions' := by
  intro x' hx'
  rw [hrows] at hx'
  obtain ⟨x, hx, rfl⟩ := List.mem_map.mp hx'
  exact ⟨x, hx, h x⟩

theorem revokeUserSessions_descend (userId : Uuid) (now : Instant) (s : IdentityStore) :
    Accounts.Descend s.sessions (s.revokeUserSessions userId now).sessions := by
  apply descend_update rfl
  intro x
  split
  · exact descends_revoke x now
  · exact descends_refl x

/-- The sessions of an account are revoked. -/
theorem revokeUserSessions_revoked (userId : Uuid) (now : Instant) (s : IdentityStore) :
    ∀ x ∈ (s.revokeUserSessions userId now).sessions.rows, x.userId = userId →
      x.revokedAt ≠ none := by
  intro x' hx' huser
  obtain ⟨x, -, rfl⟩ := List.mem_map.mp hx'
  by_cases hx : x.userId = userId
  · simp [hx, AuthSession.revoke]
  · rw [if_neg hx] at huser
    exact absurd huser hx

theorem revokeSession_descend (sessionId : Uuid) (now : Instant) (s : IdentityStore) :
    Accounts.Descend s.sessions (s.revokeSession sessionId now).sessions := by
  apply descend_update rfl
  intro x
  split
  · exact descends_revoke x now
  · exact descends_refl x

theorem touchSession_descend (sessionId : Uuid) (now : Instant) (s : IdentityStore) :
    Accounts.Descend s.sessions (s.touchSession sessionId now).sessions := by
  apply descend_update rfl
  intro x
  split
  · exact descends_touch x now
  · exact descends_refl x

/-! ## Callbacks -/

/-- What an OIDC callback changes before its end, and `start_authorization`. -/
def OnlyCallbacks (s s' : IdentityStore) : Prop :=
  ∃ transactions callbacks states consumed claims,
    s' = { s with transactions, callbacks, states, consumed, claims }

namespace OnlyCallbacks

theorem refl (s : IdentityStore) : OnlyCallbacks s s :=
  ⟨s.transactions, s.callbacks, s.states, s.consumed, s.claims, rfl⟩

theorem setCallback (callback : Nat) (process : CallbackProcess) (s : IdentityStore) :
    OnlyCallbacks s (s.setCallback callback process) :=
  ⟨s.transactions, _, s.states, s.consumed, s.claims, rfl⟩

theorem accounts_eq (h : OnlyCallbacks s s') : s'.accounts = s.accounts := by
  obtain ⟨_, _, _, _, _, rfl⟩ := h
  rfl

end OnlyCallbacks

theorem startAuthorization_onlyCallbacks (state nonce browserBinding codeVerifier : String)
    (now : Instant) (s : IdentityStore) :
    OnlyCallbacks s (s.startAuthorization config state nonce browserBinding codeVerifier now) := by
  fun_cases startAuthorization config state nonce browserBinding codeVerifier now s
  · exact .refl s
  · exact ⟨_, s.callbacks, _, s.consumed, s.claims, rfl⟩

theorem loadCallback_onlyCallbacks (callback : Nat) (code state browserBinding : String)
    (consumedAt : Instant) (s : IdentityStore) :
    OnlyCallbacks s (s.loadCallback callback code state browserBinding consumedAt) := by
  fun_cases loadCallback callback code state browserBinding consumedAt s
  all_goals first | exact .refl s | exact .setCallback callback _ s

theorem consumeCallback_onlyCallbacks (callback : Nat) (s : IdentityStore) :
    OnlyCallbacks s (s.consumeCallback callback) := by
  fun_cases consumeCallback callback s
  case case2 => exact ⟨_, _, s.states, _, s.claims, rfl⟩
  all_goals first | exact .refl s | exact .setCallback callback _ s

theorem verifyCallback_onlyCallbacks (callback : Nat) (claims : Option TokenClaims)
    (s : IdentityStore) : OnlyCallbacks s (s.verifyCallback callback claims) := by
  fun_cases verifyCallback callback claims s
  case case2 => exact ⟨s.transactions, _, s.states, s.consumed, _, rfl⟩
  all_goals first | exact .refl s | exact .setCallback callback _ s

theorem identifyCallback_onlyCallbacks (callback : Nat) (s : IdentityStore) :
    OnlyCallbacks s (s.identifyCallback config callback) := by
  fun_cases identifyCallback config callback s
  all_goals first | exact .refl s | exact .setCallback callback _ s

theorem authorizeCallback_onlyCallbacks (callback : Nat) (s : IdentityStore) :
    OnlyCallbacks s (s.authorizeCallback callback) := by
  fun_cases authorizeCallback callback s
  all_goals first | exact .refl s | exact .setCallback callback _ s

/-! ## One lemma for each call -/

/-- A step that does nothing to the accounts. -/
theorem step_of_eq (h : s'.accounts = s.accounts) :
    Accounts.Step config s.accounts s'.accounts := by
  rw [h]
  exact .same

theorem insertUser_step {username displayName passwordHash roleKey : String} {now : Instant}
    (hfresh : s.passwords passwordHash = none)
    (h : s.insertUser config username displayName passwordHash roleKey now = some s') :
    Accounts.Step config s.accounts s'.accounts := by
  obtain rfl := insertUser_eq_some h
  exact .created hfresh

theorem setup_step (username displayName : String) {passwordHash : String} (now : Instant)
    (hfresh : s.passwords passwordHash = none) :
    Accounts.Step config s.accounts
      (s.setup config username displayName passwordHash now).accounts := by
  fun_cases setup config username displayName passwordHash now s
  case case3 s' h =>
    have hstep : Accounts.Step config s.accounts s'.accounts := insertUser_step hfresh h
    exact hstep
  all_goals exact .same

theorem createUser_step (username displayName : String) {passwordHash : String} (roleKey : String)
    (now : Instant) (hfresh : s.passwords passwordHash = none) :
    Accounts.Step config s.accounts
      (s.createUser config username displayName passwordHash roleKey now).accounts := by
  fun_cases createUser config username displayName passwordHash roleKey now s
  case case1 =>
    cases h : s.insertUser config username displayName passwordHash roleKey now with
    | none => exact .same
    | some s' => exact insertUser_step hfresh h
  case case2 => exact .same

theorem issueSetup_step (rawToken : String) (now : Instant) (s : IdentityStore) :
    Accounts.Step config s.accounts (s.issueSetup config rawToken now).accounts := by
  unfold issueSetup
  cases s.settingUp with
  | none => exact .same
  | some user =>
    show Accounts.Step config s.accounts
      ((s.insertSession config user.id rawToken now .setup).getD s).accounts
    cases h : s.insertSession config user.id rawToken now .setup with
    | none => exact .same
    | some s' =>
      obtain rfl := insertSession_eq_some h
      exact .setUp

/-- What a login comes to, and what it leaves. -/
theorem attemptLogin_eq_some {user : UserAccount} {password : String} {now issuedAt : Instant}
    {rawToken newHash : String} {outcome : LoginOutcome}
    (h : s.attemptLogin config user password now issuedAt rawToken newHash = some (outcome, s')) :
    (outcome = .failed now ∧ ∃ row row', s.users.get? user.id = some row
        ∧ row.recordFailedLogin user now maxFailedLogins (now + lockout) = some row'
        ∧ s' = { s with users := s.users.put row' })
      ∨ outcome = .loggedIn issuedAt ∧ ∃ replacement : Option String,
        (∀ hash ∈ replacement, hash = newHash)
          ∧ s.completeLogin config user rawToken issuedAt replacement = some s' := by
  unfold attemptLogin at h
  split at h
  · cases h
  · split at h
    · obtain ⟨s₁, hupdate, hpair⟩ := Option.map_eq_some_iff.mp h
      obtain ⟨rfl, rfl⟩ := Prod.mk.inj hpair
      exact .inl ⟨rfl, updateRow_eq_some hupdate⟩
    · obtain ⟨s₁, hlogin, hpair⟩ := Option.map_eq_some_iff.mp h
      obtain ⟨rfl, rfl⟩ := Prod.mk.inj hpair
      refine .inr ⟨rfl, _, ?_, hlogin⟩
      intro hash hmem
      split at hmem
      · exact (Option.some.inj hmem).symm
      · cases hmem

theorem settleLogin_step (user : UserAccount) (password : String) (now issuedAt : Instant)
    (rawToken : String) {newHash : String} (hfresh : s.passwords newHash = none) :
    Accounts.Step config s.accounts
      (s.settleLogin config user password now issuedAt rawToken newHash).accounts := by
  unfold settleLogin
  cases h : s.attemptLogin config user password now issuedAt rawToken newHash with
  | none => exact .same
  | some result =>
    obtain ⟨outcome, s'⟩ := result
    obtain ⟨-, row, row', hrow, hfailed, rfl⟩ | ⟨-, replacement, hreplacement, hlogin⟩ :=
      attemptLogin_eq_some h
    · exact .failed hrow hfailed
    · obtain ⟨row, hrow, -, hactive, -, haccounts⟩ := completeLogin_eq_some hlogin
      show Accounts.Step config s.accounts s'.accounts
      rw [haccounts]
      exact .loggedIn hrow hactive fun hash hmem => hreplacement hash hmem ▸ hfresh

theorem issueCallback_step (callback : Nat) (rawToken : String) (authenticatedAt : Instant)
    (s : IdentityStore) :
    Accounts.Step config s.accounts
      (s.issueCallback config callback rawToken authenticatedAt).accounts := by
  fun_cases issueCallback config callback rawToken authenticatedAt s
  case case1 user identity hcallback =>
    show Accounts.Step config s.accounts
      ((s.completeOidcLogin config callback user identity rawToken authenticatedAt).getD s).accounts
    cases h : s.completeOidcLogin config callback user identity rawToken authenticatedAt with
    | none => exact .same
    | some s' =>
      obtain ⟨row, bound, hrow, -, hactive, -, -, -, -, rfl⟩ := completeOidcLogin_eq_some h
      exact .oidcLoggedIn hrow hactive
  case case2 => exact .same

theorem settleAuthentication_step (authentication : Nat) (s : IdentityStore) :
    Accounts.Step config s.accounts (s.settleAuthentication authentication).accounts := by
  fun_cases settleAuthentication authentication s
  case case1 x now hrefused done => exact .revoked (revokeSession_descend x.id now s)
  case case2 x now huntouched done => exact .revoked (touchSession_descend x.id now s)
  case case3 => exact .same

theorem readAdmin_step (userId : Uuid) (task : AdminTask) (s : IdentityStore) :
    Accounts.Step config s.accounts (s.readAdmin userId task).accounts := by
  unfold readAdmin
  split
  · next user hfree hrow =>
    obtain rfl : user.id = userId := Table.key_of_get? hrow
    exact .read hfree hrow
  · exact .same

/-- What `update_user` lets pass leaves an active administrator. -/
theorem prepareUpdate_eq_ok {user updated : UserAccount} {payload : UserUpdate} {actor : Uuid}
    {now : Instant} (h : s.prepareUpdate config user payload actor now = .ok updated) :
    updated = user.withUpdate payload now
      ∧ (user.isActiveAdmin → updated.isActiveAdmin ∨ 1 < Accounts.activeAdmins s.users) := by
  unfold prepareUpdate at h
  simp only [bind, Except.bind, throw, throwThe, MonadExceptOf.throw, pure, Except.pure] at h
  split at h
  · cases h
  · split at h
    · cases h
    · split at h
      · cases h
      · next hlast =>
        obtain rfl := Except.ok.inj h
        refine ⟨rfl, fun hactive => ?_⟩
        by_cases hloses : payload.status = some .disabled
            ∨ payload.role.getD user.roleKey ≠ "system_admin"
        · right
          by_contra hcount
          exact hlast ⟨hactive, hloses, Nat.le_of_not_lt hcount⟩
        · left
          push Not at hloses
          obtain ⟨hstatus, hrole⟩ := hloses
          have huser : user.status = .active := by
            simp only [UserAccount.isActiveAdmin, decide_eq_true_eq] at hactive
            exact hactive.2
          have hactive' : payload.status.getD user.status = .active := by
            cases hpayload : payload.status with
            | none => exact huser
            | some status =>
              cases status with
              | active => rfl
              | disabled => exact absurd hpayload hstatus
          simp [UserAccount.isActiveAdmin, UserAccount.withUpdate, hrole, hactive']

/-- An operation that has read its account ends. -/
theorem freed_of_read {user : UserAccount} {task : AdminTask} (hadmin : s.admin = .read user task) :
    Accounts.Step config s.accounts { s.accounts with admin := .free } := by
  refine .freed fun updated hupdated => ?_
  have hadmin' : s.admin = .revoking updated := hupdated
  rw [hadmin] at hadmin'
  cases hadmin'

theorem prepareAdmin_step (now : Instant) {newHash : String}
    (hfresh : s.passwords newHash = none) :
    Accounts.Step config s.accounts (s.prepareAdmin config now newHash).accounts := by
  unfold prepareAdmin
  split
  · next user task hadmin =>
    cases task with
    | update payload actor =>
      cases h : s.prepareUpdate config user payload actor now with
      | error _ =>
        simp only [prepare, h, bind, Except.bind]
        exact freed_of_read hadmin
      | ok updated =>
        obtain ⟨rfl, hremains⟩ := prepareUpdate_eq_ok h
        simp only [prepare, h, bind, Except.bind, pure, Except.pure]
        exact .preparedUpdate hadmin rfl rfl hremains fun hstatus => decide_eq_true (.inl hstatus)
    | changePassword currentPassword =>
      simp only [prepare]
      split
      · next h =>
        exact freed_of_read hadmin
      · next updated revokes h =>
        split at h
        · cases h
        · split at h
          · cases h
          · obtain ⟨rfl, rfl⟩ := Prod.mk.inj (Except.ok.inj h)
            exact .preparedPassword hadmin hfresh
    | resetPassword => exact .preparedPassword hadmin hfresh
  · exact .same

theorem loadAdmin_step (s : IdentityStore) :
    Accounts.Step config s.accounts s.loadAdmin.accounts := by
  unfold loadAdmin
  split
  · next updated revokes hadmin =>
    cases hrow : s.users.get? updated.id with
    | none =>
      refine .freed fun other hother => ?_
      have hadmin' : s.admin = .revoking other := hother
      rw [hadmin] at hadmin'
      cases hadmin'
    | some record => exact .loaded hadmin hrow
  · exact .same

theorem flushAdmin_step (s : IdentityStore) :
    Accounts.Step config s.accounts (s.flushAdmin config).accounts := by
  unfold flushAdmin
  split
  · next record updated revokes hadmin =>
    cases h : s.updateRow updated.id fun row =>
        some (row.overwrite config.backend record updated) with
    | none =>
      refine .freed fun other hother => ?_
      have hadmin' : s.admin = .revoking other := hother
      rw [hadmin] at hadmin'
      cases hadmin'
    | some s' =>
      obtain ⟨row, row', hrow, hrow', rfl⟩ := updateRow_eq_some h
      obtain rfl := Option.some.inj hrow'
      exact .flushed hadmin hrow
  · exact .same

theorem revokeAdmin_step (now : Instant) (s : IdentityStore) :
    Accounts.Step config s.accounts (s.revokeAdmin now).accounts := by
  unfold revokeAdmin
  split
  · next updated hadmin =>
    exact .finished hadmin (revokeUserSessions_descend updated.id now s)
      (revokeUserSessions_revoked updated.id now s)
  · exact .same

end IdentityStore

namespace IdentityEvent

/-- An operation of an administrator ends although it was about to revoke sessions. -/
def Interrupts (s : IdentityStore) (e : IdentityEvent) : Prop :=
  (e = .abortAdmin ∨ ∃ mode, e = .restart mode) ∧ ∃ updated, s.admin = .revoking updated

/-- A query, or a step of a callback before its end. -/
def Quiet : IdentityEvent → Prop
  | .readLogin _ _ _ | .readSession _ _ _ _ | .readPrincipal _ | .readBinding _ _
  | .insertBinding _ _ _ | .startAuthorization _ _ _ _ _ | .loadCallback _ _ _ _ _
  | .consumeCallback _ | .verifyCallback _ _ | .identifyCallback _ | .authorizeCallback _
  | .abortCallback _ => True
  | _ => False

end IdentityEvent

namespace IdentityStore

variable {config : IdentityConfig} {s s' : IdentityStore} {e : IdentityEvent}

theorem step_quiet (h : e.Quiet) : (step config s e).accounts = s.accounts := by
  cases e with
  | readLogin login username password =>
    show (s.readLogin login username password).accounts = s.accounts
    fun_cases readLogin login username password s
    all_goals rfl
  | readSession authentication rawToken touch now =>
    show (s.readSession authentication rawToken touch now).accounts = s.accounts
    fun_cases readSession authentication rawToken touch now s
    all_goals rfl
  | readPrincipal authentication =>
    show (s.readPrincipal authentication).accounts = s.accounts
    fun_cases readPrincipal authentication s
    all_goals rfl
  | readBinding binding userId =>
    show (s.readBinding binding userId).accounts = s.accounts
    fun_cases readBinding binding userId s
    all_goals rfl
  | insertBinding binding subject now =>
    show (s.insertBinding binding subject now).accounts = s.accounts
    fun_cases insertBinding binding subject now s
    all_goals rfl
  | startAuthorization state nonce browserBinding codeVerifier now =>
    simp only [step]
    split
    · rfl
    · exact (startAuthorization_onlyCallbacks state nonce browserBinding codeVerifier now
        s).accounts_eq
  | loadCallback callback code state browserBinding consumedAt =>
    exact (loadCallback_onlyCallbacks callback code state browserBinding consumedAt s).accounts_eq
  | consumeCallback callback => exact (consumeCallback_onlyCallbacks callback s).accounts_eq
  | verifyCallback callback claims =>
    exact (verifyCallback_onlyCallbacks callback claims s).accounts_eq
  | identifyCallback callback => exact (identifyCallback_onlyCallbacks callback s).accounts_eq
  | authorizeCallback callback => exact (authorizeCallback_onlyCallbacks callback s).accounts_eq
  | abortCallback callback =>
    simp only [step]
    split <;> rfl
  | _ => cases h

/-- The end of an operation of an administrator, whatever it was about to do. -/
theorem abort_step (he : e = .abortAdmin ∨ ∃ mode, e = .restart mode)
    (h : s'.accounts = { s.accounts with admin := .free }) :
    Accounts.Step config s.accounts s'.accounts
      ∨ e.Interrupts s ∧ Accounts.Interrupted s.accounts s'.accounts := by
  rw [h]
  by_cases hadmin : ∃ updated, s.admin = .revoking updated
  · obtain ⟨updated, hupdated⟩ := hadmin
    exact .inr ⟨⟨he, updated, hupdated⟩, updated, hupdated, rfl⟩
  · exact .inl (.freed fun updated hupdated => hadmin ⟨updated, hupdated⟩)

/-- Every step is one of the accounts. -/
theorem step_accounts (config : IdentityConfig) (s : IdentityStore) (e : IdentityEvent) :
    Accounts.Step config s.accounts (step config s e).accounts
      ∨ e.Interrupts s ∧ Accounts.Interrupted s.accounts (step config s e).accounts := by
  cases e with
  | setup username displayName passwordHash now =>
    left
    simp only [step]
    split
    · next hfresh => exact setup_step username displayName now hfresh
    · exact .same
  | issueSetup rawToken now => exact .inl (issueSetup_step rawToken now s)
  | createUser username displayName passwordHash roleKey now =>
    left
    simp only [step]
    split
    · next hfresh => exact createUser_step username displayName roleKey now hfresh
    · exact .same
  | settleLogin login now issuedAt rawToken newHash =>
    left
    simp only [step]
    split
    · exact .same
    · next user password hlogin =>
      split
      · next hfresh => exact settleLogin_step user password now issuedAt rawToken hfresh
      · exact .same
  | readAdmin userId task => exact .inl (readAdmin_step userId task s)
  | prepareAdmin now newHash =>
    left
    simp only [step]
    split
    · next hfresh => exact prepareAdmin_step now hfresh
    · exact .same
  | loadAdmin => exact .inl (loadAdmin_step s)
  | flushAdmin => exact .inl (flushAdmin_step s)
  | revokeAdmin now => exact .inl (revokeAdmin_step now s)
  | abortAdmin => exact abort_step (.inl rfl) rfl
  | revokeSessions userId now => exact .inl (.revoked (revokeUserSessions_descend userId now s))
  | logout sessionId now => exact .inl (.revoked (revokeSession_descend sessionId now s))
  | settleAuthentication authentication => exact .inl (settleAuthentication_step authentication s)
  | issueCallback callback rawToken authenticatedAt =>
    exact .inl (issueCallback_step callback rawToken authenticatedAt s)
  | restart mode => exact abort_step (.inr ⟨mode, rfl⟩) rfl
  | _ => exact .inl (step_of_eq (step_quiet trivial))

end IdentityStore

end QaPlatform.Services
