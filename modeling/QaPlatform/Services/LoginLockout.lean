import QaPlatform.Services.SessionSafety

/-!
# Guessing a password

However many logins of an account are on their way at once, a failure is counted on the row, and a
login that verified its password before it is not let in. After five failures in a row the account
is locked, and what comes next comes fifteen minutes later.

A login reads its account, compares the password outside of any transaction, and then writes.
`outcome` reads off a step what has become of the failures on the row: one more, or none any
more. What is proved is about the list of outcomes of a run, so logins may run beside each other
in any number, and other steps may come anywhere.
-/

namespace QaPlatform.Services

/-- When a login has come to something. -/
def LoginOutcome.time : LoginOutcome → Option Instant
  | .failed failedAt => some failedAt
  | .loggedIn authenticatedAt => some authenticatedAt
  | .overwritten => none

namespace IdentityStore

/-- What a step makes of the failed logins of an account. -/
def outcome (config : IdentityConfig) (userId : Uuid) (s : IdentityStore) :
    IdentityEvent → Option LoginOutcome
  | .settleLogin login now issuedAt rawToken newHash =>
    match s.logins login with
    | .idle => none
    | .read user password =>
      if user.id = userId ∧ s.passwords newHash = none then
        (s.attemptLogin config user password now issuedAt rawToken newHash).map Prod.fst
      else none
  | .flushAdmin =>
    match s.admin with
    | .loaded _ updated _ => if updated.id = userId then some .overwritten else none
    | _ => none
  | .issueCallback callback _ _ =>
    match s.callbacks callback with
    | .authorized user _ => if user.id = userId then some .overwritten else none
    | _ => none
  | _ => none

/-- What a run makes of them. -/
def outcomes (config : IdentityConfig) (userId : Uuid) :
    IdentityStore → List IdentityEvent → List LoginOutcome
  | _, [] => []
  | s, e :: events =>
    (s.outcome config userId e).toList ++ outcomes config userId (step config s e) events

variable {config : IdentityConfig} {s : IdentityStore} {e : IdentityEvent} {userId : Uuid}
  {row : UserAccount}

/-! ## One step -/

/-- The row of another account is written. -/
theorem row_of_put_other {s' : IdentityStore} {id : Uuid} {other other' : UserAccount}
    (husers : s'.users = s.users.put other') (hother : s.users.get? id = some other)
    (hid : other'.id = other.id) (hne : id ≠ userId) (hrow : s.users.get? userId = some row) :
    s'.users.get? userId = some row := by
  have hkey : other.id = id := Table.key_of_get? hother
  rw [husers, Table.get?_put_of_ne, hrow]
  rw [UserAccount.key_eq, hid, hkey]
  exact hne

theorem row_of_insertUser {s' : IdentityStore}
    {username displayName passwordHash roleKey : String} {now : Instant}
    (h : s.insertUser config username displayName passwordHash roleKey now = some s')
    (hrow : s.users.get? userId = some row) : s'.users.get? userId = some row := by
  obtain rfl := insertUser_eq_some h
  show (s.users.add (newUser username displayName passwordHash roleKey now)).get? userId = some row
  exact Table.get?_add_old hrow

theorem step_quiet_users (h : e.Quiet) : (step config s e).users = s.users :=
  congrArg Accounts.users (step_quiet h)

/-- A step in which no account is written. -/
theorem step_users (h : match e with
    | .setup _ _ _ _ | .createUser _ _ _ _ _ | .settleLogin _ _ _ _ _ | .flushAdmin
    | .issueCallback _ _ _ => False
    | _ => True) : (step config s e).users = s.users := by
  cases e with
  | issueSetup rawToken now =>
    show (s.issueSetup config rawToken now).users = s.users
    unfold issueSetup
    split
    · rfl
    · next user hsetting =>
      show ((s.insertSession config user.id rawToken now .setup).getD s).users = s.users
      cases hsession : s.insertSession config user.id rawToken now .setup with
      | none => rfl
      | some s' =>
        obtain rfl := insertSession_eq_some hsession
        rfl
  | readAdmin userId task =>
    show (s.readAdmin userId task).users = s.users
    unfold readAdmin
    split <;> rfl
  | prepareAdmin now newHash =>
    simp only [step]
    split
    · unfold prepareAdmin
      split
      · split
        · rfl
        · dsimp only
          split <;> rfl
      · rfl
    · rfl
  | loadAdmin =>
    show s.loadAdmin.users = s.users
    unfold loadAdmin
    split
    · split <;> rfl
    · rfl
  | revokeAdmin now =>
    show (s.revokeAdmin now).users = s.users
    unfold revokeAdmin
    split <;> rfl
  | settleAuthentication authentication =>
    show (s.settleAuthentication authentication).users = s.users
    fun_cases settleAuthentication authentication s
    all_goals rfl
  | abortAdmin | revokeSessions | logout | restart => rfl
  | setup | createUser | settleLogin | flushAdmin | issueCallback => cases h
  | _ => exact step_quiet_users trivial

/-- Where nothing becomes of them, the row is as it was. -/
theorem row_of_outcome_none (h : s.outcome config userId e = none)
    (hrow : s.users.get? userId = some row) :
    (step config s e).users.get? userId = some row := by
  cases e with
  | setup username displayName passwordHash now =>
    simp only [step]
    split
    · fun_cases setup config username displayName passwordHash now s
      case case3 s' h =>
        have hrow' : s'.users.get? userId = some row := row_of_insertUser h hrow
        exact hrow'
      all_goals exact hrow
    · exact hrow
  | createUser username displayName passwordHash roleKey now =>
    simp only [step]
    split
    · fun_cases createUser config username displayName passwordHash roleKey now s
      case case1 =>
        cases h : s.insertUser config username displayName passwordHash roleKey now with
        | none => exact hrow
        | some s' => exact row_of_insertUser h hrow
      case case2 => exact hrow
    · exact hrow
  | settleLogin login now issuedAt rawToken newHash =>
    simp only [step]
    cases hlogin : s.logins login with
    | idle => exact hrow
    | read user password =>
      dsimp only
      by_cases hfresh : s.passwords newHash = none
      · rw [if_pos hfresh]
        show (s.settleLogin config user password now issuedAt rawToken newHash).users.get? userId
          = some row
        unfold settleLogin
        cases hattempt : s.attemptLogin config user password now issuedAt rawToken newHash with
        | none => exact hrow
        | some result =>
          obtain ⟨outcome, s'⟩ := result
          -- an outcome of the login would be one of this account
          have hne : user.id ≠ userId := by
            intro hid
            simp [IdentityStore.outcome, hlogin, hid, hfresh, hattempt] at h
          show s'.users.get? userId = some row
          obtain ⟨-, other, other', hother, hfailed, rfl⟩ | ⟨-, replacement, -, hcomplete⟩ :=
            attemptLogin_eq_some hattempt
          · obtain ⟨hstanding, -⟩ := UserAccount.recordFailedLogin_eq_some hfailed
            exact row_of_put_other rfl hother (congrArg Prod.fst hstanding) hne hrow
          · obtain ⟨other, hother, hid, -, -, haccounts⟩ := completeLogin_eq_some hcomplete
            exact row_of_put_other (congrArg Accounts.users haccounts) hother rfl (hid ▸ hne) hrow
      · rw [if_neg hfresh]
        exact hrow
  | flushAdmin =>
    simp only [step]
    unfold flushAdmin
    split
    · next record updated revokes hadmin =>
      -- neither is it the account that the administrator writes
      have hne : updated.id ≠ userId := by
        intro hid
        simp [outcome, hadmin, hid] at h
      cases hupdate : s.updateRow updated.id fun row =>
          some (row.overwrite config.backend record updated) with
      | none => exact hrow
      | some s' =>
        obtain ⟨other, other', hother, hother', rfl⟩ := updateRow_eq_some hupdate
        obtain rfl := Option.some.inj hother'
        exact row_of_put_other rfl hother rfl hne hrow
    · exact hrow
  | issueCallback callback rawToken authenticatedAt =>
    simp only [step]
    fun_cases issueCallback config callback rawToken authenticatedAt s
    case case1 user identity hcallback =>
      have hne : user.id ≠ userId := by
        intro hid
        simp [outcome, hcallback, hid] at h
      show ((s.completeOidcLogin config callback user identity rawToken authenticatedAt).getD
        s).users.get? userId = some row
      cases hlogin : s.completeOidcLogin config callback user identity rawToken authenticatedAt with
      | none => exact hrow
      | some s' =>
        obtain ⟨other, bound, hother, hid, -, -, -, -, -, rfl⟩ := completeOidcLogin_eq_some hlogin
        exact row_of_put_other rfl hother rfl (hid ▸ hne) hrow
    case case2 => exact hrow
  | _ =>
    rw [step_users trivial]
    exact hrow

/-- An outcome of a login is one of the row that is there. -/
theorem outcome_eq_some {o : LoginOutcome} (h : s.outcome config userId e = some o)
    (hne : o ≠ .overwritten) :
    ∃ login now issuedAt rawToken newHash user password s',
      e = .settleLogin login now issuedAt rawToken newHash ∧ s.logins login = .read user password
        ∧ user.id = userId ∧ s.passwords newHash = none
        ∧ s.attemptLogin config user password now issuedAt rawToken newHash = some (o, s') := by
  cases e with
  | settleLogin login now issuedAt rawToken newHash =>
    simp only [outcome] at h
    split at h
    · cases h
    · next user password hlogin =>
      split at h
      · next hguard =>
        obtain ⟨⟨o', s'⟩, hattempt, rfl⟩ := Option.map_eq_some_iff.mp h
        exact ⟨login, now, issuedAt, rawToken, newHash, user, password, s', rfl, hlogin, hguard.1,
          hguard.2, hattempt⟩
      · cases h
  | flushAdmin =>
    simp only [outcome] at h
    split at h
    · split at h
      · exact absurd (Option.some.inj h).symm hne
      · cases h
    · cases h
  | issueCallback callback rawToken authenticatedAt =>
    simp only [outcome] at h
    split at h
    · split at h
      · exact absurd (Option.some.inj h).symm hne
      · cases h
    · cases h
  | _ => cases h

/-- A failure is counted, on a row that is not locked; the fifth one locks it. -/
theorem row_of_outcome_failed {failedAt : Instant}
    (h : s.outcome config userId e = some (.failed failedAt)) :
    ∃ row row', s.users.get? userId = some row ∧ row.locked failedAt = false
      ∧ (step config s e).users.get? userId = some row'
      ∧ row'.failedLoginCount = row.failedLoginCount + 1
      ∧ (maxFailedLogins ≤ row'.failedLoginCount →
        row'.lockedUntil = some (failedAt + lockout)) := by
  obtain ⟨login, now, issuedAt, rawToken, newHash, user, password, s', rfl, hlogin, rfl, hfresh,
    hattempt⟩ := outcome_eq_some h (by simp)
  obtain ⟨houtcome, row, row', hrow, hfailed, rfl⟩ | ⟨houtcome, -⟩ := attemptLogin_eq_some hattempt
  · obtain rfl := LoginOutcome.failed.inj houtcome
    obtain ⟨hstanding, -, hlocked, hcount, hlocks⟩ := UserAccount.recordFailedLogin_eq_some hfailed
    refine ⟨row, row', hrow, hlocked, ?_, hcount, hlocks⟩
    simp only [step, hlogin, if_pos hfresh, settleLogin, hattempt, Option.map_some,
      Option.getD_some]
    have hid : row'.id = row.id := congrArg Prod.fst hstanding
    exact Table.get?_put_self hrow (hid.trans (Table.key_of_get? hrow))
  · cases houtcome

/-- A login has met a row that is not locked. -/
theorem row_of_outcome_loggedIn {authenticatedAt : Instant}
    (h : s.outcome config userId e = some (.loggedIn authenticatedAt)) :
    ∃ row, s.users.get? userId = some row ∧ row.locked authenticatedAt = false := by
  obtain ⟨login, now, issuedAt, rawToken, newHash, user, password, s', rfl, hlogin, rfl, hfresh,
    hattempt⟩ := outcome_eq_some h (by simp)
  obtain ⟨houtcome, -⟩ | ⟨houtcome, replacement, -, hcomplete⟩ := attemptLogin_eq_some hattempt
  · cases houtcome
  · obtain rfl := LoginOutcome.loggedIn.inj houtcome
    obtain ⟨row, hrow, hid, -, hlocked, -⟩ := completeLogin_eq_some hcomplete
    exact ⟨row, hid ▸ hrow, hlocked⟩

/-! ## Runs -/

/-- The row after `n` failures in a row, the last of them at `last`. -/
def Counts (userId : Uuid) (n : Nat) (last : Instant) (s : IdentityStore) : Prop :=
  0 < n → ∃ row, s.users.get? userId = some row ∧ n ≤ row.failedLoginCount
    ∧ (maxFailedLogins ≤ n → row.lockedUntil = some (last + lockout))

theorem counts_of_outcome_none {n : Nat} {last : Instant}
    (h : s.outcome config userId e = none) (hcounts : s.Counts userId n last) :
    (step config s e).Counts userId n last := by
  intro hpos
  obtain ⟨row, hrow, hrest⟩ := hcounts hpos
  exact ⟨row, row_of_outcome_none h hrow, hrest⟩

theorem counts_of_failed {n : Nat} {last failedAt : Instant}
    (h : s.outcome config userId e = some (.failed failedAt)) (hcounts : s.Counts userId n last) :
    (step config s e).Counts userId (n + 1) failedAt := by
  intro _
  obtain ⟨row, row', hrow, -, hrow', hcount, hlocks⟩ := row_of_outcome_failed h
  have hn : n ≤ row.failedLoginCount := by
    rcases Nat.eq_zero_or_pos n with rfl | hpos
    · omega
    · obtain ⟨row₁, hrow₁, hle, -⟩ := hcounts hpos
      obtain rfl := Option.some.inj (hrow.symm.trans hrow₁)
      exact hle
  exact ⟨row', hrow', by omega, fun hmax => hlocks (by omega)⟩

/-- Nothing becomes of a login before the lock is over. -/
theorem time_of_counts {n : Nat} {last time : Instant} {o : LoginOutcome}
    (hcounts : s.Counts userId n last) (hmax : maxFailedLogins ≤ n)
    (h : s.outcome config userId e = some o) (htime : o.time = some time) :
    last + lockout ≤ time := by
  have hpos : 0 < n := Nat.lt_of_lt_of_le (by decide) hmax
  obtain ⟨row, hrow, -, hlocks⟩ := hcounts hpos
  have unlocked : row.locked time = false → last + lockout ≤ time := by
    intro hlocked
    simpa [UserAccount.locked, hlocks hmax] using hlocked
  cases o with
  | failed failedAt =>
    obtain rfl : failedAt = time := Option.some.inj htime
    obtain ⟨row', _, hrow', hlocked, -⟩ := row_of_outcome_failed h
    obtain rfl := Option.some.inj (hrow.symm.trans hrow')
    exact unlocked hlocked
  | loggedIn authenticatedAt =>
    obtain rfl : authenticatedAt = time := Option.some.inj htime
    obtain ⟨row', hrow', hlocked⟩ := row_of_outcome_loggedIn h
    obtain rfl := Option.some.inj (hrow.symm.trans hrow')
    exact unlocked hlocked
  | overwritten => cases htime

/-- From some failures in a row to the next outcome. -/
theorem time_of_failures {events : List IdentityEvent} {n : Nat} {last time : Instant}
    {failures : List Instant} {o : LoginOutcome} {rest : List LoginOutcome}
    (hcounts : s.Counts userId n last) (hmax : maxFailedLogins ≤ n + failures.length)
    (h : outcomes config userId s events = failures.map .failed ++ o :: rest)
    (htime : o.time = some time) : failures.getLast?.getD last + lockout ≤ time := by
  induction events generalizing s n last failures with
  | nil => simp [outcomes] at h
  | cons e events ih =>
    cases houtcome : s.outcome config userId e with
    | none =>
      rw [outcomes, houtcome] at h
      exact ih (counts_of_outcome_none houtcome hcounts) hmax h
    | some o' =>
      rw [outcomes, houtcome] at h
      cases failures with
      | nil =>
        obtain ⟨rfl, -⟩ := List.cons.inj h
        exact time_of_counts hcounts hmax houtcome htime
      | cons failedAt failures =>
        obtain ⟨rfl, htail⟩ := List.cons.inj h
        have hlast : (failedAt :: failures).getLast?.getD last
            = failures.getLast?.getD failedAt := by
          cases failures with
          | nil => rfl
          | cons next failures =>
            rw [List.getLast?_cons_cons, List.getLast?_eq_some_getLast (List.cons_ne_nil _ _)]
            rfl
        rw [hlast]
        refine ih (counts_of_failed houtcome hcounts) ?_ htail
        rw [List.length_cons] at hmax
        omega

/-- The outcomes of a run from some of them on are those of a run. -/
theorem outcomes_suffix {events : List IdentityEvent} {before after : List LoginOutcome}
    (h : outcomes config userId s events = before ++ after) :
    ∃ s' events', outcomes config userId s' events' = after := by
  induction events generalizing s before with
  | nil =>
    obtain ⟨-, rfl⟩ := List.append_eq_nil_iff.mp h.symm
    exact ⟨s, [], rfl⟩
  | cons e events ih =>
    cases before with
    | nil => exact ⟨s, e :: events, h⟩
    | cons o before =>
      rw [outcomes] at h
      cases houtcome : s.outcome config userId e with
      | none =>
        rw [houtcome] at h
        exact ih h
      | some o' =>
        rw [houtcome] at h
        exact ih (List.cons.inj h).2

/-- After five failed logins in a row, whatever logins run beside each other, the next login of the
account that fails or succeeds does so fifteen minutes after the last of them, or later. -/
theorem five_failures_lock (config : IdentityConfig) (userId : Uuid) (s : IdentityStore)
    (events : List IdentityEvent) (before rest : List LoginOutcome) (failures : List Instant)
    (last time : Instant) (o : LoginOutcome)
    (h : outcomes config userId s events
      = before ++ ((failures ++ [last]).map .failed ++ o :: rest))
    (hfailures : maxFailedLogins ≤ (failures ++ [last]).length) (htime : o.time = some time) :
    last + lockout ≤ time := by
  obtain ⟨s', events', h'⟩ := outcomes_suffix h
  have hcounts : s'.Counts userId 0 0 := fun hpos => absurd hpos (Nat.lt_irrefl 0)
  simpa using time_of_failures hcounts (by omega) h' htime

/-- Five wrong passwords at once, the right one too early and in time. -/
def testerGuessed : List IdentityEvent :=
  [.setup "root" "Root" "argon2:a" 1, .createUser "ann" "Ann" "argon2:b" "tester" 2,
    .readLogin 0 "ann" "x", .readLogin 1 "ann" "y", .readLogin 2 "ann" "z", .readLogin 3 "ann" "u",
    .readLogin 4 "ann" "v", .settleLogin 0 10 10 "" "argon2:c", .settleLogin 1 11 11 "" "argon2:c",
    .settleLogin 2 12 12 "" "argon2:c", .settleLogin 3 13 13 "" "argon2:c",
    .settleLogin 4 14 14 "" "argon2:c", .readLogin 5 "ann" "b",
    .settleLogin 5 15 15 "token" "argon2:c", .readLogin 5 "ann" "b",
    .settleLogin 5 (20 + lockout) (20 + lockout) "token" "argon2:c"]

theorem tester_is_locked :
    outcomes localConfig 1 (initial .localAccounts) testerGuessed
        = [.failed 10, .failed 11, .failed 12, .failed 13, .failed 14, .loggedIn (20 + lockout)]
      ∧ 14 + lockout ≤ 20 + lockout :=
  ⟨by decide +kernel,
    five_failures_lock localConfig 1 (initial .localAccounts) testerGuessed [] []
      [10, 11, 12, 13] 14 (20 + lockout) (.loggedIn (20 + lockout)) (by decide +kernel)
      (by decide) rfl⟩

end IdentityStore

end QaPlatform.Services
