import QaPlatform.Services.AccountSteps

/-!
# Sessions and administrators over whole runs

Whatever calls run beside each other: no session outlives the password that it was issued on, a
disabled account has none, and of the active administrators one remains.

The three theorems are about every interleaving of statements, from the empty database on. A
revocation is about the sessions that are there; that no earlier password leads to one
afterwards needs that a login compares the hash again in the statement that issues its session.
For disabled accounts an operation that ends between its UPDATE and the revocation has to be
excluded (`Uninterrupted`), as the sessions stay.
-/

namespace QaPlatform.Services

namespace IdentityStore

variable {config : IdentityConfig} {mode : AuthRuntimeMode} {s : IdentityStore}

theorem initial_sound (mode : AuthRuntimeMode) : (initial mode).accounts.Sound where
  numbered := by
    intro hash n hn
    cases hn
  known := by
    intro id row hrow
    cases hrow
  pending := trivial

/-- An invariant that every step of the accounts keeps holds after every run. -/
theorem run_accounts {P : Accounts → Prop} {s : IdentityStore}
    (hstep : ∀ {v v' : Accounts}, v.Sound → P v → Accounts.Step config v v' → P v')
    (hinterrupted : ∀ {v v' : Accounts}, P v → Accounts.Interrupted v v' → P v')
    (hs : s.accounts.Sound) (h : P s.accounts) (events : List IdentityEvent) :
    (events.foldl (step config) s).accounts.Sound ∧ P (events.foldl (step config) s).accounts := by
  induction events generalizing s with
  | nil => exact ⟨hs, h⟩
  | cons e events ih =>
    obtain hmove | ⟨-, hmove⟩ := step_accounts config s e
    · exact ih (hmove.sound hs) (hstep hs h hmove)
    · exact ih (hmove.sound hs) (hinterrupted h hmove)

theorem run_sound (config : IdentityConfig) (mode : AuthRuntimeMode) (events : List IdentityEvent) :
    (events.foldl (step config) (initial mode)).accounts.Sound :=
  (run_accounts (fun _ _ _ => trivial) (fun _ _ => trivial) (initial_sound mode) trivial events).1

/-- The state after the revocation with which an operation ends. -/
theorem since_revokeAdmin {updated : UserAccount} {n : Nat} (now : Instant) (hs : s.accounts.Sound)
    (hadmin : s.admin = .revoking updated) (hn : s.passwords updated.passwordHash = some n) :
    (step config s (.revokeAdmin now)).accounts.Since n updated.id := by
  have hstep : step config s (.revokeAdmin now)
      = { s.revokeUserSessions updated.id now with admin := .free } := by
    show s.revokeAdmin now = _
    unfold revokeAdmin
    rw [hadmin]
  rw [hstep]
  exact Accounts.since_of_revoked hs hadmin hn rfl rfl
    (revokeUserSessions_revoked updated.id now s)

/-- Once an operation has revoked the sessions of an account, no session of the account is of a
password that was set before the one that the operation has left, in every state from then on. -/
theorem no_session_of_an_earlier_password (config : IdentityConfig) (mode : AuthRuntimeMode)
    (before after : List IdentityEvent) (now : Instant) :
    let s := before.foldl (step config) (initial mode)
    let s' := after.foldl (step config) (step config s (.revokeAdmin now))
    ∀ updated, s.admin = .revoking updated →
      ∃ n, s.passwords updated.passwordHash = some n ∧
        ∀ x ∈ s'.sessions.rows, x.userId = updated.id → x.revokedAt = none →
          ∀ hash, x.origin = .password hash → ∃ m, s'.passwords hash = some m ∧ n ≤ m := by
  intro s s' updated hadmin
  have hs : s.accounts.Sound := run_sound config mode before
  have hpending := hs.pending
  rw [show s.accounts.admin = .revoking updated from hadmin] at hpending
  obtain ⟨row, hrow, hcont⟩ := hpending
  obtain ⟨n, hn⟩ := Option.isSome_iff_exists.mp (hs.known _ row hrow)
  have hupdated : s.passwords updated.passwordHash = some n := hcont.password.trans hn
  refine ⟨n, hupdated, ?_⟩
  have hrevoked : (step config s (.revokeAdmin now)).accounts.Sound := by
    have := run_sound config mode (before ++ [.revokeAdmin now])
    rwa [List.foldl_append] at this
  have hsince : s'.accounts.Since n updated.id :=
    (run_accounts (fun hv h hstep => hstep.since hv h) (fun h hint => hint.since h) hrevoked
      (since_revokeAdmin now hs hadmin hupdated) after).2
  exact hsince.sessions

/-- A platform on one machine. -/
def localConfig : IdentityConfig where
  backend := .sqlite
  hasher := ⟨fun hash password => hash = "argon2:" ++ password, fun _ => false⟩
  roleExists role := role = "system_admin" ∨ role = "tester"
  localOnly := true
  oidcIssuer := oidcLocalIssuer
  sessionTtlMinutes := 480
  oidcTransactionTtlSeconds := 300

/-- Two accounts, one of them logged in. -/
def testerLoggedIn : List IdentityEvent :=
  [.setup "root" "Root" "argon2:a" 1, .createUser "ann" "Ann" "argon2:b" "tester" 2,
    .readLogin 0 "ann" "b", .settleLogin 0 3 4 "token" "argon2:c"]

/-- An administrator sets another password. -/
def testerReset : List IdentityEvent :=
  testerLoggedIn ++ ([.readAdmin 1 .resetPassword, .prepareAdmin 5 "argon2:d", .loadAdmin,
    .flushAdmin] : List IdentityEvent)

/-- The tester logs in with it. -/
def testerBack : List IdentityEvent :=
  [.readLogin 0 "ann" "d", .settleLogin 0 7 8 "token2" "argon2:e"]

theorem tester_has_no_session_of_the_old_password :
    let s := testerReset.foldl (step localConfig) (initial .localAccounts)
    let s' := testerBack.foldl (step localConfig) (step localConfig s (.revokeAdmin 6))
    ∃ n, s.passwords "argon2:d" = some n ∧
      ∀ x ∈ s'.sessions.rows, x.userId = 1 → x.revokedAt = none →
        ∀ hash, x.origin = .password hash → ∃ m, s'.passwords hash = some m ∧ n ≤ m :=
  no_session_of_an_earlier_password localConfig .localAccounts testerReset testerBack 6
    { newUser "ann" "Ann" "argon2:d" "tester" 2 1 with
      lastLoginAt := some 4
      passwordChangedAt := 5
      updatedAt := 5 }
    (by decide +kernel)

/-- No operation ends between its UPDATE and the revocation of sessions. -/
def Uninterrupted (config : IdentityConfig) : IdentityStore → List IdentityEvent → Prop
  | _, [] => True
  | s, e :: events => ¬ e.Interrupts s ∧ Uninterrupted config (step config s e) events

theorem uninterrupted_of_forall {events : List IdentityEvent}
    (h : ∀ e ∈ events, e ≠ .abortAdmin ∧ ∀ mode, e ≠ .restart mode) :
    Uninterrupted config s events := by
  induction events generalizing s with
  | nil => trivial
  | cons e events ih =>
    refine ⟨?_, ih fun e' he' => h e' (List.mem_cons_of_mem e he')⟩
    rintro ⟨rfl | ⟨mode, rfl⟩, -⟩
    · exact (h _ List.mem_cons_self).1 rfl
    · exact (h _ List.mem_cons_self).2 mode rfl

theorem run_noneDisabled {events : List IdentityEvent} (hs : s.accounts.Sound)
    (h : s.accounts.NoneDisabled) (huninterrupted : Uninterrupted config s events) :
    (events.foldl (step config) s).accounts.NoneDisabled := by
  induction events generalizing s with
  | nil => exact h
  | cons e events ih =>
    obtain hmove | ⟨hinterrupts, -⟩ := step_accounts config s e
    · exact ih (hmove.sound hs) (hmove.noneDisabled hs h) huninterrupted.2
    · exact absurd hinterrupts huninterrupted.1

/-- Where every operation comes to its end, a disabled account has no session but the one that
`setup` may still issue, whatever logins run beside the operations. -/
theorem disabled_account_has_no_session (config : IdentityConfig) (mode : AuthRuntimeMode)
    (events : List IdentityEvent) (h : Uninterrupted config (initial mode) events) :
    let s := events.foldl (step config) (initial mode)
    ∀ row ∈ s.users.rows, row.status = .disabled →
      (∀ updated, s.admin = .revoking updated → updated.id ≠ row.id) →
      ∀ x ∈ s.sessions.rows, x.userId = row.id → x.origin ≠ .setup → x.revokedAt ≠ none := by
  apply run_noneDisabled (initial_sound mode) _ h
  intro row hrow
  cases hrow

/-- The tester is disabled while another login is on its way. -/
def testerDisabled : List IdentityEvent :=
  testerLoggedIn ++ ([.readLogin 1 "ann" "b", .readAdmin 1 (.update ⟨none, none, some .disabled⟩ 0),
    .prepareAdmin 5 "argon2:d", .loadAdmin, .flushAdmin, .revokeAdmin 6,
    .settleLogin 1 7 8 "token2" "argon2:e"] : List IdentityEvent)

theorem disabled_tester_has_no_session :
    let s := testerDisabled.foldl (step localConfig) (initial .localAccounts)
    (∃ row ∈ s.users.rows, row.status = .disabled ∧ ∃ x ∈ s.sessions.rows, x.userId = row.id) ∧
    ∀ row ∈ s.users.rows, row.status = .disabled →
      (∀ updated, s.admin = .revoking updated → updated.id ≠ row.id) →
      ∀ x ∈ s.sessions.rows, x.userId = row.id → x.origin ≠ .setup → x.revokedAt ≠ none :=
  ⟨by decide +kernel, disabled_account_has_no_session localConfig .localAccounts testerDisabled
    (uninterrupted_of_forall (by simp [testerDisabled, testerLoggedIn]))⟩

/-- Once there is an active administrator, there is one ever after. -/
theorem an_active_admin_remains (config : IdentityConfig) (mode : AuthRuntimeMode)
    (before after : List IdentityEvent)
    (h : 0 < (before.foldl (step config) (initial mode)).countActiveAdmins) :
    0 < ((before ++ after).foldl (step config) (initial mode)).countActiveAdmins := by
  rw [List.foldl_append]
  refine (run_accounts (fun hv h hstep => hstep.activeAdmins_pos hv h) ?_
    (run_sound config mode before) h after).2
  intro v v' hpos hint
  obtain ⟨updated, -, rfl⟩ := hint
  exact hpos

theorem root_remains :
    0 < ((testerLoggedIn ++ testerDisabled).foldl (step localConfig)
      (initial .localAccounts)).countActiveAdmins :=
  an_active_admin_remains localConfig .localAccounts testerLoggedIn testerDisabled
    (by decide +kernel)

end IdentityStore

end QaPlatform.Services
