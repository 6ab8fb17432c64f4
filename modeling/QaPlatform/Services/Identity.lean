import QaPlatform.Base.Table
import QaPlatform.Core

/-!
# Accounts and sessions

The entities of `app/domain/identity.py` and the statements of
`app/repositories/identity.py` on their rows. A statement that compares and writes is
one function; a query and the statement after it are two.

Every UPDATE is written with its WHERE, as a function that gives no row when the condition is
not met. What the statements keep of a row is proved beside them: a login leaves the columns
that only an administrator changes (`standing`) as they are; `overwrite` writes the columns in
which the replacement differs from what was loaded, and no others.

`StoredSession` is a session with its history: on which hash of a password it was issued, or on
which callback of an OIDC login. Nothing that is modelled reads the history; it is there for
what is proved of sessions.
-/

namespace QaPlatform.Services

/-- `UserStatus`. -/
inductive UserStatus where
  | active
  | disabled
deriving DecidableEq, Repr

/-- The row of a local account. -/
structure UserAccount where
  id : Uuid
  username : String
  usernameNormalized : String
  displayName : String
  passwordHash : String
  roleKey : String
  status : UserStatus
  failedLoginCount : Nat
  lockedUntil : Option Instant
  lastLoginAt : Option Instant
  passwordChangedAt : Instant
  createdAt : Instant
  updatedAt : Instant
deriving DecidableEq, Repr

instance : Keyed UserAccount := ⟨UserAccount.id⟩

@[simp] theorem UserAccount.key_eq (u : UserAccount) : key u = u.id := rfl

/-- The row of a session: the hash of its token, and until when it is good. -/
structure AuthSession where
  id : Uuid
  userId : Uuid
  tokenHash : TokenHash
  createdAt : Instant
  expiresAt : Instant
  lastSeenAt : Instant
  revokedAt : Option Instant
deriving DecidableEq, Repr

/-- What a session has been issued on: the hash that a password login had verified the password
against, the callback of an OIDC login, or the setup of the platform. -/
inductive SessionOrigin where
  | password (verified : String)
  | oidc (callback : Nat)
  | setup
deriving DecidableEq, Repr

/-- A session with its history, which is no column of its row. -/
structure StoredSession extends AuthSession where
  origin : SessionOrigin
deriving DecidableEq, Repr

instance : Keyed StoredSession := ⟨fun x => x.id⟩

@[simp] theorem StoredSession.key_eq (x : StoredSession) : key x = x.id := rfl

/-- The row that binds an account to a subject of an issuer. -/
structure OidcIdentity where
  id : Uuid
  userId : Uuid
  issuer : String
  subject : String
  createdAt : Instant
  lastLoginAt : Option Instant
deriving DecidableEq, Repr

instance : Keyed OidcIdentity := ⟨OidcIdentity.id⟩

@[simp] theorem OidcIdentity.key_eq (i : OidcIdentity) : key i = i.id := rfl

/-- A row of `oidc_login_transactions`, whose primary key is `stateHash`; `id` tells the rows apart
that have ever been there. -/
structure OidcLoginTransaction where
  id : Nat
  stateHash : TokenHash
  browserBindingHash : TokenHash
  nonceHash : TokenHash
  codeVerifier : String
  createdAt : Instant
  expiresAt : Instant
  consumedAt : Option Instant
deriving DecidableEq, Repr

instance : Keyed OidcLoginTransaction := ⟨OidcLoginTransaction.id⟩

@[simp] theorem OidcLoginTransaction.key_eq (t : OidcLoginTransaction) : key t = t.id := rfl

/-- Which database holds the rows. -/
inductive DatabaseBackend where
  | sqlite
  | postgresql
deriving DecidableEq, Repr

/-- Whether the ORM takes a timestamp for unchanged. SQLite gives a stored one back without its
zone, and Python finds it different from every aware one. -/
def DatabaseBackend.sameTime : DatabaseBackend → Option Instant → Option Instant → Bool
  | _, none, none => true
  | .sqlite, _, _ => false
  | .postgresql, stored, assigned => stored = assigned

namespace UserAccount

/-- An account that `count_active_admins` counts. -/
def isActiveAdmin (u : UserAccount) : Bool := u.roleKey = "system_admin" ∧ u.status = .active

/-- `user.locked_until is not None and user.locked_until > now`. -/
def locked (u : UserAccount) (now : Instant) : Bool := u.lockedUntil.any (now < ·)

/-! ## Statements on one row

`snapshot` is the account that the caller has read, the row is the one stored now. -/

/-- `record_failed_login`. -/
def recordFailedLogin (row snapshot : UserAccount) (failedAt : Instant) (maxFailedLogins : Nat)
    (lockedUntil : Instant) : Option UserAccount :=
  if row.passwordHash = snapshot.passwordHash ∧ row.status = .active ∧ row.locked failedAt = false
  then
    some { row with
      failedLoginCount := row.failedLoginCount + 1
      lockedUntil :=
        if row.failedLoginCount + 1 ≥ maxFailedLogins then some lockedUntil else row.lockedUntil
      updatedAt := failedAt }
  else none

/-- What a login leaves in the row. -/
def loggedIn (row : UserAccount) (passwordHash : String) (authenticatedAt : Instant) :
    UserAccount :=
  { row with
    passwordHash
    failedLoginCount := 0
    lockedUntil := none
    lastLoginAt := some authenticatedAt
    updatedAt := authenticatedAt }

/-- The CAS of `complete_login`. -/
def completeLogin (row snapshot : UserAccount) (authenticatedAt : Instant)
    (replacementPasswordHash : Option String) : Option UserAccount :=
  if row.updatedAt = snapshot.updatedAt ∧ row.passwordHash = snapshot.passwordHash
      ∧ row.passwordChangedAt = snapshot.passwordChangedAt ∧ row.roleKey = snapshot.roleKey
      ∧ row.status = .active ∧ row.failedLoginCount = snapshot.failedLoginCount
      ∧ row.lockedUntil = snapshot.lockedUntil ∧ row.locked authenticatedAt = false
  then some (row.loggedIn (replacementPasswordHash.getD row.passwordHash) authenticatedAt)
  else none

/-- The first UPDATE of `complete_oidc_login`. -/
def completeOidcLogin (row : UserAccount) (authenticatedAt : Instant) : Option UserAccount :=
  if row.status = .active then some (row.loggedIn row.passwordHash authenticatedAt) else none

/-- The UPDATE of `update_user`: the ORM sets the columns in which the replacement differs from
the row that it has loaded. -/
def overwrite (backend : DatabaseBackend) (row loaded replacement : UserAccount) : UserAccount :=
  { row with
    username :=
      if loaded.username = replacement.username then row.username else replacement.username
    usernameNormalized :=
      if loaded.usernameNormalized = replacement.usernameNormalized then row.usernameNormalized
      else replacement.usernameNormalized
    displayName :=
      if loaded.displayName = replacement.displayName then row.displayName
      else replacement.displayName
    passwordHash :=
      if loaded.passwordHash = replacement.passwordHash then row.passwordHash
      else replacement.passwordHash
    roleKey := if loaded.roleKey = replacement.roleKey then row.roleKey else replacement.roleKey
    status := if loaded.status = replacement.status then row.status else replacement.status
    failedLoginCount :=
      if loaded.failedLoginCount = replacement.failedLoginCount then row.failedLoginCount
      else replacement.failedLoginCount
    lockedUntil :=
      if backend.sameTime loaded.lockedUntil replacement.lockedUntil then row.lockedUntil
      else replacement.lockedUntil
    lastLoginAt :=
      if backend.sameTime loaded.lastLoginAt replacement.lastLoginAt then row.lastLoginAt
      else replacement.lastLoginAt
    passwordChangedAt :=
      if backend.sameTime (some loaded.passwordChangedAt) (some replacement.passwordChangedAt)
      then row.passwordChangedAt else replacement.passwordChangedAt
    createdAt :=
      if backend.sameTime (some loaded.createdAt) (some replacement.createdAt) then row.createdAt
      else replacement.createdAt
    updatedAt :=
      if backend.sameTime (some loaded.updatedAt) (some replacement.updatedAt) then row.updatedAt
      else replacement.updatedAt }

@[simp] theorem overwrite_id (backend : DatabaseBackend) (row loaded replacement : UserAccount) :
    (row.overwrite backend loaded replacement).id = row.id := rfl

/-- What `change_password` and `reset_password` write. -/
def withPassword (u : UserAccount) (passwordHash : String) (now : Instant) : UserAccount :=
  { u with
    passwordHash
    passwordChangedAt := now
    failedLoginCount := 0
    lockedUntil := none
    updatedAt := now }

end UserAccount

/-- `UserUpdate`; what is unset or null changes nothing. -/
structure UserUpdate where
  displayName : Option String
  role : Option String
  status : Option UserStatus
deriving DecidableEq, Repr

/-- What `update_user` writes. -/
def UserAccount.withUpdate (u : UserAccount) (payload : UserUpdate) (now : Instant) : UserAccount :=
  { u with
    displayName := payload.displayName.getD u.displayName
    roleKey := payload.role.getD u.roleKey
    status := payload.status.getD u.status
    updatedAt := now }

namespace AuthSession

/-- The UPDATE of `revoke_session` and of `revoke_user_sessions` on a session that is meant. -/
def revoke (x : AuthSession) (revokedAt : Instant) : AuthSession :=
  { x with revokedAt := x.revokedAt.or (some revokedAt) }

/-- `touch_session`. -/
def touch (x : AuthSession) (lastSeenAt : Instant) : AuthSession :=
  if x.revokedAt = none ∧ lastSeenAt < x.expiresAt then { x with lastSeenAt } else x

@[simp] theorem touch_id (x : AuthSession) (now : Instant) : (x.touch now).id = x.id := by
  unfold touch
  split <;> rfl

end AuthSession

namespace OidcLoginTransaction

/-- What `consume_oidc_login_transaction` asks of the row it has loaded, and its UPDATE of the
row stored now. -/
def consumable (t : OidcLoginTransaction) (stateHash browserBindingHash : TokenHash)
    (consumedAt : Instant) : Bool :=
  t.stateHash = stateHash ∧ t.browserBindingHash = browserBindingHash ∧ t.consumedAt = none
    ∧ consumedAt < t.expiresAt

end OidcLoginTransaction

/-! ## What the statements keep -/

namespace UserAccount

section
variable {row snapshot row' : UserAccount}

/-- Nobody but an administrator changes these columns. -/
def standing (u : UserAccount) : Uuid × String × UserStatus := (u.id, u.roleKey, u.status)

theorem isActiveAdmin_of_standing {u v : UserAccount} (h : u.standing = v.standing) :
    u.isActiveAdmin = v.isActiveAdmin := by
  simp only [standing, Prod.mk.injEq] at h
  simp [isActiveAdmin, h]

theorem recordFailedLogin_eq_some {failedAt lockedUntil : Instant} {n : Nat}
    (h : row.recordFailedLogin snapshot failedAt n lockedUntil = some row') :
    row'.standing = row.standing ∧ row'.passwordHash = row.passwordHash
      ∧ row.locked failedAt = false ∧ row'.failedLoginCount = row.failedLoginCount + 1
      ∧ (n ≤ row'.failedLoginCount → row'.lockedUntil = some lockedUntil) := by
  unfold recordFailedLogin at h
  split at h
  · next hguard =>
    obtain rfl := Option.some.inj h
    exact ⟨rfl, rfl, hguard.2.2, rfl, fun hmax => if_pos hmax⟩
  · cases h

/-- The CAS of a login passes on the hash that the login has verified. -/
theorem completeLogin_eq_some {authenticatedAt : Instant} {replacement : Option String}
    (h : row.completeLogin snapshot authenticatedAt replacement = some row') :
    row.passwordHash = snapshot.passwordHash ∧ row.status = .active
      ∧ row.locked authenticatedAt = false
      ∧ row' = row.loggedIn (replacement.getD row.passwordHash) authenticatedAt := by
  unfold completeLogin at h
  split at h
  · next hguard =>
    obtain ⟨-, hhash, -, -, hactive, -, -, hlocked⟩ := hguard
    exact ⟨hhash, hactive, hlocked, (Option.some.inj h).symm⟩
  · cases h

theorem completeOidcLogin_eq_some {authenticatedAt : Instant}
    (h : row.completeOidcLogin authenticatedAt = some row') :
    row.status = .active ∧ row' = row.loggedIn row.passwordHash authenticatedAt := by
  unfold completeOidcLogin at h
  split at h
  · next hactive => exact ⟨hactive, (Option.some.inj h).symm⟩
  · cases h

@[simp] theorem loggedIn_standing (row : UserAccount) (hash : String) (now : Instant) :
    (row.loggedIn hash now).standing = row.standing := rfl

@[simp] theorem loggedIn_passwordHash (row : UserAccount) (hash : String) (now : Instant) :
    (row.loggedIn hash now).passwordHash = hash := rfl

@[simp] theorem withPassword_standing (u : UserAccount) (hash : String) (now : Instant) :
    (u.withPassword hash now).standing = u.standing := rfl

end

/-- A column on which the row, the loaded row and the replacement do not disagree. -/
theorem overwrite_passwordHash_of_ne {backend : DatabaseBackend}
    {row loaded replacement : UserAccount} (h : loaded.passwordHash ≠ replacement.passwordHash) :
    (row.overwrite backend loaded replacement).passwordHash = replacement.passwordHash := if_neg h

/-- The UPDATE of a row that stands as it was loaded leaves it standing as the replacement does. -/
theorem overwrite_standing {backend : DatabaseBackend} {row loaded replacement : UserAccount}
    (hloaded : loaded.standing = row.standing) (hid : replacement.id = row.id) :
    (row.overwrite backend loaded replacement).standing = replacement.standing := by
  simp only [standing, Prod.mk.injEq] at hloaded
  obtain ⟨-, hrole, hstatus⟩ := hloaded
  simp only [standing, overwrite, Prod.mk.injEq]
  refine ⟨hid.symm, ?_, ?_⟩
  · split
    · next h => exact hrole.symm.trans h
    · rfl
  · split
    · next h => exact hstatus.symm.trans h
    · rfl

end UserAccount

end QaPlatform.Services
