import QaPlatform.Services.Identity

/-!
# Who does what with accounts

The calls of `app/services/identity.py` and `app/services/oidc.py` over their database. Every
statement is a step of its own, so that other calls come between the statements of a call; the
operations of administrators hold the business lock. A call may end at any point with an error of
the database.

A call in progress is kept as what it knows: an authentication, a login or a callback by its
number, and the operation of an administrator, of which there is one at a time. Hashes of
passwords are arguments of the steps; the hasher verifies them by a function of password and
hash. Each salted hash is new, so that a step with one that has been there does nothing, and the
same goes for the states of OIDC logins.

The histories of `IdentityStore` are not in the database, and no call decides anything by them.
-/

namespace QaPlatform.Services

/-- `AuthRuntimeMode`. -/
inductive AuthRuntimeMode where
  | localAccounts
  | keycloakLocalContainer
deriving DecidableEq, Repr

/-- `argon2.PasswordHasher`. -/
structure PasswordHasher where
  verify : String → String → Bool
  checkNeedsRehash : String → Bool

/-- What the services are made with. -/
structure IdentityConfig where
  backend : DatabaseBackend
  hasher : PasswordHasher
  /-- `role_exists`; the roles are there from the migrations. -/
  roleExists : String → Bool
  localOnly : Bool
  oidcIssuer : String
  sessionTtlMinutes : Nat
  oidcTransactionTtlSeconds : Nat

/-- `_MAX_FAILED_LOGINS`. -/
def maxFailedLogins : Nat := 5

/-- `timedelta(minutes=_LOCKOUT_MINUTES)`. -/
def lockout : Instant := seconds (15 * 60)

/-- `OIDC_LOCAL_ISSUER`. -/
def oidcLocalIssuer : String := "http://127.0.0.1:23010/identity/realms/qa-learning"

/-- `_valid_protocol_value`. -/
def validProtocolValue (value : String) (minimum maximum : Nat) : Bool :=
  minimum ≤ value.length ∧ value.length ≤ maximum ∧ value = strip value
    ∧ value.toList.all fun c => ¬ isSpace c ∧ 32 ≤ c.toNat ∧ c.toNat ≠ 127

/-- `_normalize_username`, on a name that `validate_username` lets pass. -/
def normalizeUsername (username : String) : String := (strip username).map Char.toLower

/-- `_valid_oidc_value`. -/
def validOidcValue (value : String) (maxLength : Nat) : Bool :=
  value ≠ "" ∧ value = strip value ∧ value.length ≤ maxLength
    ∧ value.toList.all fun c => ¬ isSpace c ∧ 32 ≤ c.toNat ∧ c.toNat ≠ 127

/-! ## Calls in progress -/

/-- A call of `authenticate_session`, between its statements. -/
inductive AuthenticationProcess where
  | idle
  | found (session : StoredSession) (touch : Bool) (now : Instant)
  | refused (session : StoredSession) (now : Instant)
  | untouched (session : StoredSession) (now : Instant)

/-- What becomes of the failed logins of an account. -/
inductive LoginOutcome where
  | failed (failedAt : Instant)
  | loggedIn (authenticatedAt : Instant)
  /-- An administrator or an OIDC login writes the row. -/
  | overwritten
deriving DecidableEq

/-- A password login, after its first query. -/
inductive LoginProcess where
  | idle
  | read (user : UserAccount) (password : String)

/-- What an administrator's call is going to do once it has read its account. -/
inductive AdminTask where
  | update (payload : UserUpdate) (actor : Uuid)
  | changePassword (currentPassword : String)
  | resetPassword
deriving DecidableEq

/-- Whoever holds the business lock, and how far it is. -/
inductive AdminOperation where
  | free
  | read (user : UserAccount) (task : AdminTask)
  | prepared (updated : UserAccount) (revokes : Bool)
  | loaded (record updated : UserAccount) (revokes : Bool)
  | revoking (updated : UserAccount)
deriving DecidableEq

/-- What `jwt.decode` has accepted. -/
structure TokenClaims where
  issuer : String
  subject : String
  nonce : String

/-- A call of `complete_authorization`. -/
inductive CallbackProcess where
  | idle
  | loaded (record : OidcLoginTransaction) (stateHash browserBindingHash : TokenHash)
    (consumedAt : Instant)
  | exchanging (transaction : OidcLoginTransaction)
  | verified (issuer subject : String)
  | identified (identity : OidcIdentity)
  | authorized (user : UserAccount) (identity : OidcIdentity)
  | ended

/-- That a callback has consumed a transaction. -/
structure Consumption where
  transaction : OidcLoginTransaction
  callback : Nat
  browserBindingHash : TokenHash
  consumedAt : Instant

/-- The rows of identities, and the calls that are between two of their transactions. -/
structure IdentityStore where
  mode : AuthRuntimeMode
  users : Table UserAccount
  sessions : Table StoredSession
  identities : Table OidcIdentity
  transactions : Table OidcLoginTransaction
  admin : AdminOperation
  /-- The account that `setup` has created and still has to issue a session for. -/
  settingUp : Option UserAccount
  authentications : Nat → AuthenticationProcess
  logins : Nat → LoginProcess
  callbacks : Nat → CallbackProcess
  /-- The account that is about to be bound to a subject. -/
  bindings : Nat → Option UserAccount
  /-- History: in which order the passwords were set that the hashes are of. -/
  passwords : String → Option Nat
  nextPassword : Nat
  /-- History: the states that transactions have been started with. -/
  states : List TokenHash
  /-- History: which transactions have been consumed. -/
  consumed : List Consumption
  /-- History: the token that a callback has verified. -/
  claims : Nat → Option TokenClaims

namespace IdentityStore

variable (config : IdentityConfig)

/-- A database with no rows. -/
def initial (mode : AuthRuntimeMode) : IdentityStore where
  mode
  users := .empty
  sessions := .empty
  identities := .empty
  transactions := .empty
  admin := .free
  settingUp := none
  authentications _ := .idle
  logins _ := .idle
  callbacks _ := .idle
  bindings _ := none
  passwords _ := none
  nextPassword := 0
  states := []
  consumed := []
  claims _ := none

/-- A hash of a new password. -/
def setPassword (passwordHash : String) (s : IdentityStore) : IdentityStore :=
  { s with
    passwords := Function.update s.passwords passwordHash (some s.nextPassword)
    nextPassword := s.nextPassword + 1 }

/-- Another hash of a password. -/
def rehash (passwordHash replacement : String) (s : IdentityStore) : IdentityStore :=
  { s with passwords := Function.update s.passwords replacement (s.passwords passwordHash) }

/-! ## Sessions -/

/-- `_new_session`. -/
def newSession (userId : Uuid) (rawToken : String) (now : Instant) (origin : SessionOrigin)
    (id : Uuid) : StoredSession where
  id
  userId
  tokenHash := tokenHash rawToken
  createdAt := now
  expiresAt := now + seconds (60 * config.sessionTtlMinutes)
  lastSeenAt := now
  revokedAt := none
  origin

/-- The INSERT of a session, which fails on a token that is there already. -/
def insertSession (userId : Uuid) (rawToken : String) (now : Instant) (origin : SessionOrigin)
    (s : IdentityStore) : Option IdentityStore :=
  if s.sessions.rows.any (·.tokenHash = tokenHash rawToken) then none
  else some { s with sessions := s.sessions.add (newSession config userId rawToken now origin) }

/-- `revoke_user_sessions`. -/
def revokeUserSessions (userId : Uuid) (revokedAt : Instant) (s : IdentityStore) : IdentityStore :=
  { s with sessions := s.sessions.update fun x =>
      if x.userId = userId then { x with toAuthSession := x.toAuthSession.revoke revokedAt }
      else x }

/-- `revoke_session`. -/
def revokeSession (sessionId : Uuid) (revokedAt : Instant) (s : IdentityStore) : IdentityStore :=
  { s with sessions := s.sessions.update fun x =>
      if x.id = sessionId then { x with toAuthSession := x.toAuthSession.revoke revokedAt } else x }

/-- `touch_session`. -/
def touchSession (sessionId : Uuid) (lastSeenAt : Instant) (s : IdentityStore) : IdentityStore :=
  let touched (x : StoredSession) : StoredSession :=
    if x.id = sessionId then { x with toAuthSession := x.toAuthSession.touch lastSeenAt } else x
  have hkey : ∀ x, key (touched x) = key x := by
    intro x
    simp only [StoredSession.key_eq, touched]
    split
    · simp
    · rfl
  { s with sessions := s.sessions.update touched hkey }

/-- The first query of `authenticate_session`. -/
def readSession (authentication : Nat) (rawToken : String) (touch : Bool) (now : Instant)
    (s : IdentityStore) : IdentityStore :=
  if rawToken = "" ∨ rawToken.length > 200 then s
  else
    match s.sessions.rows.find? (·.tokenHash = tokenHash rawToken) with
    | none => s
    | some x =>
      if x.revokedAt ≠ none ∨ x.expiresAt ≤ now then s
      else { s with authentications :=
        Function.update s.authentications authentication (.found x touch now) }

/-- The query of the account. What is left to write depends on it. -/
def readPrincipal (authentication : Nat) (s : IdentityStore) : IdentityStore :=
  match s.authentications authentication with
  | .found x touch now =>
    let next : AuthenticationProcess :=
      if (s.users.get? x.userId).all (·.status ≠ .active) then .refused x now
      else if touch ∧ now - x.lastSeenAt ≥ seconds (5 * 60) then .untouched x now
      else .idle
    { s with authentications := Function.update s.authentications authentication next }
  | _ => s

/-- What `authenticate_session` writes. -/
def settleAuthentication (authentication : Nat) (s : IdentityStore) : IdentityStore :=
  let done := Function.update s.authentications authentication .idle
  match s.authentications authentication with
  | .refused x now => { s.revokeSession x.id now with authentications := done }
  | .untouched x now => { s.touchSession x.id now with authentications := done }
  | _ => s

/-! ## Accounts -/

/-- `_new_user` with what the model fills in. -/
def newUser (username displayName passwordHash roleKey : String) (now : Instant) (id : Uuid) :
    UserAccount where
  id
  username
  usernameNormalized := normalizeUsername username
  displayName
  passwordHash
  roleKey
  status := .active
  failedLoginCount := 0
  lockedUntil := none
  lastLoginAt := none
  passwordChangedAt := now
  createdAt := now
  updatedAt := now

/-- `create_user` of the repository. -/
def insertUser (username displayName passwordHash roleKey : String) (now : Instant)
    (s : IdentityStore) : Option IdentityStore :=
  if s.users.rows.any (·.usernameNormalized = normalizeUsername username)
      ∨ ¬ config.roleExists roleKey then none
  else some ({ s with
    users := s.users.add (newUser username displayName passwordHash roleKey now) }.setPassword
      passwordHash)

/-- `get_user_by_username`. -/
def getUserByUsername (normalized : String) (s : IdentityStore) : Option UserAccount :=
  s.users.rows.find? (·.usernameNormalized = normalized)

/-- `count_active_admins`. -/
def countActiveAdmins (s : IdentityStore) : Nat := s.users.rows.countP (·.isActiveAdmin)

/-- An UPDATE of one row: the state after it, when a row has met the condition. -/
def updateRow (userId : Uuid) (f : UserAccount → Option UserAccount) (s : IdentityStore) :
    Option IdentityStore :=
  match s.users.get? userId with
  | none => none
  | some row => (f row).map fun row' => { s with users := s.users.put row' }

/-! ## Password logins -/

/-- The first query of `login`. -/
def readLogin (login : Nat) (username password : String) (s : IdentityStore) : IdentityStore :=
  if s.mode ≠ .localAccounts then s
  else
    match s.getUserByUsername (normalizeUsername username) with
    | none => s
    | some user => { s with logins := Function.update s.logins login (.read user password) }

/-- `complete_login`: the CAS and the INSERT. -/
def completeLogin (user : UserAccount) (rawToken : String) (authenticatedAt : Instant)
    (replacement : Option String) (s : IdentityStore) : Option IdentityStore := do
  let s ← s.updateRow user.id fun row => row.completeLogin user authenticatedAt replacement
  let s ← s.insertSession config user.id rawToken authenticatedAt (.password user.passwordHash)
  return match replacement with
    | none => s
    | some replacement => s.rehash user.passwordHash replacement

/-- The rest of `login`: what it checks of the account that it has read, and its statement. There
is an outcome when the statement has met the row. -/
def attemptLogin (user : UserAccount) (password : String) (now issuedAt : Instant)
    (rawToken newHash : String) (s : IdentityStore) : Option (LoginOutcome × IdentityStore) :=
  if user.status ≠ .active ∨ user.locked now then none
  else if ¬ config.hasher.verify user.passwordHash password then
    (s.updateRow user.id fun row =>
      row.recordFailedLogin user now maxFailedLogins (now + lockout)).map (.failed now, ·)
  else
    (s.completeLogin config user rawToken issuedAt
      (if config.hasher.checkNeedsRehash user.passwordHash then some newHash else none)).map
        (.loggedIn issuedAt, ·)

/-- The transaction of a login that has compared the password; one that raises leaves the store. -/
def settleLogin (user : UserAccount) (password : String) (now issuedAt : Instant)
    (rawToken newHash : String) (s : IdentityStore) : IdentityStore :=
  ((s.attemptLogin config user password now issuedAt rawToken newHash).map Prod.snd).getD s

/-! ## Administrators -/

/-- What `update_user` checks before it writes. -/
def prepareUpdate (user : UserAccount) (payload : UserUpdate) (actor : Uuid) (now : Instant)
    (s : IdentityStore) : Except DomainError UserAccount := do
  if payload.role.any fun role => ¬ config.roleExists role then
    throw (.businessValidation "角色不存在")
  if user.id = actor ∧ (payload.status = some .disabled
      ∨ payload.role.any fun role => role ≠ "system_admin") then
    throw (.conflict "不能禁用当前账号或移除自己的管理员角色")
  if user.isActiveAdmin ∧ (payload.status = some .disabled
      ∨ payload.role.getD user.roleKey ≠ "system_admin") ∧ s.countActiveAdmins ≤ 1 then
    throw (.conflict "至少必须保留一个启用的系统管理员")
  return user.withUpdate payload now

/-- What an operation is going to write, and whether it revokes the sessions of the account. -/
def prepare (user : UserAccount) (task : AdminTask) (now : Instant) (newHash : String)
    (s : IdentityStore) : Except DomainError (UserAccount × Bool) :=
  match task with
  | .update payload actor => do
    let updated ← s.prepareUpdate config user payload actor now
    return (updated, updated.status ≠ .active ∨ updated.roleKey ≠ user.roleKey)
  | .changePassword currentPassword =>
    if s.mode ≠ .localAccounts then throw (.authorization "当前身份模式不允许本地密码登录")
    else if ¬ config.hasher.verify user.passwordHash currentPassword then
      throw (.authentication "当前密码错误")
    else return (user.withPassword newHash now, true)
  | .resetPassword => return (user.withPassword newHash now, true)

/-- Whether the operation sets a password. -/
def AdminTask.setsPassword : AdminTask → Bool
  | .update _ _ => false
  | .changePassword _ | .resetPassword => true

/-- The operation, from the account that it has read to the one that it writes. -/
def prepareAdmin (now : Instant) (newHash : String) (s : IdentityStore) : IdentityStore :=
  match s.admin with
  | .read user task =>
    match s.prepare config user task now newHash with
    | .error _ => { s with admin := .free }
    | .ok (updated, revokes) =>
      let s := if AdminTask.setsPassword task then s.setPassword newHash else s
      { s with admin := .prepared updated revokes }
  | _ => s

/-- `session.get` in `update_user` of the repository. -/
def loadAdmin (s : IdentityStore) : IdentityStore :=
  match s.admin with
  | .prepared updated revokes =>
    match s.users.get? updated.id with
    | none => { s with admin := .free }
    | some record => { s with admin := .loaded record updated revokes }
  | _ => s

/-- The UPDATE. -/
def flushAdmin (s : IdentityStore) : IdentityStore :=
  match s.admin with
  | .loaded record updated revokes =>
    match s.updateRow updated.id fun row => some (row.overwrite config.backend record updated) with
    | none => { s with admin := .free }
    | some s' => { s' with admin := if revokes then .revoking updated else .free }
  | _ => s

/-- The end of an operation that revokes sessions. -/
def revokeAdmin (now : Instant) (s : IdentityStore) : IdentityStore :=
  match s.admin with
  | .revoking updated => { s.revokeUserSessions updated.id now with admin := .free }
  | _ => s

/-- The account that an operation is about; the business lock is taken. -/
def readAdmin (userId : Uuid) (task : AdminTask) (s : IdentityStore) : IdentityStore :=
  match s.admin, s.users.get? userId with
  | .free, some user => { s with admin := .read user task }
  | _, _ => s

/-- `setup`, up to its session. -/
def setup (username displayName passwordHash : String) (now : Instant) (s : IdentityStore) :
    IdentityStore :=
  match s.admin with
  | .free =>
    if s.mode ≠ .localAccounts ∨ ¬ config.localOnly ∨ s.users.rows ≠ [] then s
    else
      match s.insertUser config username displayName passwordHash "system_admin" now with
      | none => s
      | some s' => { s' with settingUp := s'.users.rows.head? }
  | _ => s

/-- The session that `setup` issues. -/
def issueSetup (rawToken : String) (now : Instant) (s : IdentityStore) : IdentityStore :=
  match s.settingUp with
  | none => s
  | some user =>
    { (s.insertSession config user.id rawToken now .setup).getD s with settingUp := none }

/-- `create_user`. -/
def createUser (username displayName passwordHash roleKey : String) (now : Instant)
    (s : IdentityStore) : IdentityStore :=
  match s.admin with
  | .free => (s.insertUser config username displayName passwordHash roleKey now).getD s
  | _ => s

/-! ## OIDC -/

/-- `bind_oidc_identity`, up to its INSERT. -/
def readBinding (binding : Nat) (userId : Uuid) (s : IdentityStore) : IdentityStore :=
  match s.users.get? userId with
  | none => s
  | some user =>
    if user.status ≠ .active then s
    else { s with bindings := Function.update s.bindings binding (some user) }

/-- The INSERT of a binding, which fails on a subject or an account that is bound already. -/
def insertBinding (binding : Nat) (subject : String) (now : Instant) (s : IdentityStore) :
    IdentityStore :=
  match s.bindings binding with
  | none => s
  | some user =>
    if ¬ validOidcValue subject 255 ∨ s.identities.rows.any (fun i =>
        i.userId = user.id ∨ i.issuer = oidcLocalIssuer ∧ i.subject = subject) then s
    else { s with identities := s.identities.add fun id =>
        ⟨id, user.id, oidcLocalIssuer, subject, now, none⟩ }

/-- The transaction of `start_authorization`. -/
def newTransaction (state nonce browserBinding codeVerifier : String) (now : Instant) (id : Nat) :
    OidcLoginTransaction where
  id
  stateHash := tokenHash state
  browserBindingHash := tokenHash browserBinding
  nonceHash := tokenHash nonce
  codeVerifier
  createdAt := now
  expiresAt := now + seconds config.oidcTransactionTtlSeconds
  consumedAt := none

/-- `start_authorization`, with the cleanup of `create_oidc_login_transaction`. -/
def startAuthorization (state nonce browserBinding codeVerifier : String) (now : Instant)
    (s : IdentityStore) : IdentityStore :=
  let transactions := s.transactions.keep fun t => now < t.expiresAt
  if s.mode ≠ .keycloakLocalContainer ∨ transactions.rows.any (·.stateHash = tokenHash state) then s
  else { s with
    transactions :=
      transactions.add (newTransaction config state nonce browserBinding codeVerifier now)
    states := tokenHash state :: s.states }

/-- A callback of OIDC goes on. -/
def setCallback (callback : Nat) (process : CallbackProcess) (s : IdentityStore) : IdentityStore :=
  { s with callbacks := Function.update s.callbacks callback process }

/-- The row of a login transaction. -/
def transaction (stateHash : TokenHash) (s : IdentityStore) : Option OidcLoginTransaction :=
  s.transactions.rows.find? (·.stateHash = stateHash)

/-- `complete_authorization`, up to the query of `consume_oidc_login_transaction`. -/
def loadCallback (callback : Nat) (code state browserBinding : String) (consumedAt : Instant)
    (s : IdentityStore) : IdentityStore :=
  match s.callbacks callback with
  | .idle =>
    if s.mode ≠ .keycloakLocalContainer ∨ ¬ validProtocolValue code 1 2048
        ∨ ¬ validProtocolValue state 32 200 ∨ ¬ validProtocolValue browserBinding 32 200 then
      s.setCallback callback .ended
    else
      match s.transaction (tokenHash state) with
      | none => s.setCallback callback .ended
      | some record =>
        if record.consumable (tokenHash state) (tokenHash browserBinding) consumedAt then
          s.setCallback callback
            (.loaded record (tokenHash state) (tokenHash browserBinding) consumedAt)
        else s.setCallback callback .ended
  | _ => s

/-- The UPDATE of `consume_oidc_login_transaction`. -/
def consumeCallback (callback : Nat) (s : IdentityStore) : IdentityStore :=
  match s.callbacks callback with
  | .loaded record stateHash browserBindingHash consumedAt =>
    match s.transaction stateHash with
    | none => s.setCallback callback .ended
    | some row =>
      if row.consumable stateHash browserBindingHash consumedAt then
        { s.setCallback callback (.exchanging { record with consumedAt := some consumedAt }) with
          transactions := s.transactions.put { row with consumedAt := some consumedAt }
          consumed := s.consumed ++ [⟨row, callback, browserBindingHash, consumedAt⟩] }
      else s.setCallback callback .ended
  | _ => s

/-- `_exchange_code` and `_verify_id_token`: what the provider answers, and the check of the
nonce. -/
def verifyCallback (callback : Nat) (claims : Option TokenClaims) (s : IdentityStore) :
    IdentityStore :=
  match s.callbacks callback with
  | .exchanging transaction =>
    match claims with
    | none => s.setCallback callback .ended
    | some claims =>
      if validProtocolValue claims.nonce 32 200
          ∧ tokenHash claims.nonce = transaction.nonceHash then
        { s.setCallback callback (.verified claims.issuer claims.subject) with
          claims := Function.update s.claims callback (some claims) }
      else s.setCallback callback .ended
  | _ => s

/-- `login_oidc`, up to its first query. -/
def identifyCallback (callback : Nat) (s : IdentityStore) : IdentityStore :=
  match s.callbacks callback with
  | .verified issuer subject =>
    if s.mode ≠ .keycloakLocalContainer ∨ issuer ≠ config.oidcIssuer
        ∨ ¬ validOidcValue subject 255 then s.setCallback callback .ended
    else
      match s.identities.rows.find? fun i => i.issuer = issuer ∧ i.subject = subject with
      | none => s.setCallback callback .ended
      | some identity => s.setCallback callback (.identified identity)
  | _ => s

/-- The query of the account. -/
def authorizeCallback (callback : Nat) (s : IdentityStore) : IdentityStore :=
  match s.callbacks callback with
  | .identified identity =>
    match s.users.get? identity.userId with
    | none => s.setCallback callback .ended
    | some user =>
      if user.status ≠ .active then s.setCallback callback .ended
      else s.setCallback callback (.authorized user identity)
  | _ => s

/-- `complete_oidc_login`: both UPDATEs and the INSERT. -/
def completeOidcLogin (callback : Nat) (user : UserAccount) (identity : OidcIdentity)
    (rawToken : String) (authenticatedAt : Instant) (s : IdentityStore) : Option IdentityStore :=
  match s.identities.get? identity.id with
  | none => none
  | some row =>
    if row.userId ≠ user.id ∨ row.issuer ≠ identity.issuer ∨ row.subject ≠ identity.subject then
      none
    else do
      let s ← s.updateRow user.id fun row => row.completeOidcLogin authenticatedAt
      { s with identities := s.identities.put { row with lastLoginAt := some authenticatedAt } }
        |>.insertSession config user.id rawToken authenticatedAt (.oidc callback)

/-- The end of a callback. -/
def issueCallback (callback : Nat) (rawToken : String) (authenticatedAt : Instant)
    (s : IdentityStore) : IdentityStore :=
  match s.callbacks callback with
  | .authorized user identity =>
    (s.completeOidcLogin config callback user identity rawToken authenticatedAt).getD s
      |>.setCallback callback .ended
  | _ => s

/-! ## Steps -/

/-- A new process, which may be in another mode. -/
def restart (mode : AuthRuntimeMode) (s : IdentityStore) : IdentityStore :=
  { s with
    mode
    admin := .free
    settingUp := none
    authentications := fun _ => .idle
    logins := fun _ => .idle
    callbacks := fun callback => match s.callbacks callback with
      | .idle => .idle
      | _ => .ended
    bindings := fun _ => none }

end IdentityStore

/-- What happens to the store: a whole call, or one transaction of a call that has several. -/
inductive IdentityEvent where
  | setup (username displayName passwordHash : String) (now : Instant)
  | issueSetup (rawToken : String) (now : Instant)
  | createUser (username displayName passwordHash roleKey : String) (now : Instant)
  | readLogin (login : Nat) (username password : String)
  | settleLogin (login : Nat) (now issuedAt : Instant) (rawToken newHash : String)
  | readAdmin (userId : Uuid) (task : AdminTask)
  | prepareAdmin (now : Instant) (newHash : String)
  | loadAdmin
  | flushAdmin
  | revokeAdmin (now : Instant)
  /-- An operation of an administrator ends with an error. -/
  | abortAdmin
  | revokeSessions (userId : Uuid) (now : Instant)
  | logout (sessionId : Uuid) (now : Instant)
  | readSession (authentication : Nat) (rawToken : String) (touch : Bool) (now : Instant)
  | readPrincipal (authentication : Nat)
  | settleAuthentication (authentication : Nat)
  | readBinding (binding : Nat) (userId : Uuid)
  | insertBinding (binding : Nat) (subject : String) (now : Instant)
  | startAuthorization (state nonce browserBinding codeVerifier : String) (now : Instant)
  | loadCallback (callback : Nat) (code state browserBinding : String) (consumedAt : Instant)
  | consumeCallback (callback : Nat)
  | verifyCallback (callback : Nat) (claims : Option TokenClaims)
  | identifyCallback (callback : Nat)
  | authorizeCallback (callback : Nat)
  | issueCallback (callback : Nat) (rawToken : String) (authenticatedAt : Instant)
  /-- A callback ends with an error. -/
  | abortCallback (callback : Nat)
  | restart (mode : AuthRuntimeMode)

namespace IdentityStore

/-- One step. A hash is salted and a state is drawn: one that is made has not been there before. -/
def step (config : IdentityConfig) (s : IdentityStore) : IdentityEvent → IdentityStore
  | .setup username displayName passwordHash now =>
    if s.passwords passwordHash = none then s.setup config username displayName passwordHash now
    else s
  | .issueSetup rawToken now => s.issueSetup config rawToken now
  | .createUser username displayName passwordHash roleKey now =>
    if s.passwords passwordHash = none then
      s.createUser config username displayName passwordHash roleKey now
    else s
  | .readLogin login username password => s.readLogin login username password
  | .settleLogin login now issuedAt rawToken newHash =>
    match s.logins login with
    | .idle => s
    | .read user password =>
      if s.passwords newHash = none then
        { s.settleLogin config user password now issuedAt rawToken newHash with
          logins := Function.update s.logins login .idle }
      else s
  | .readAdmin userId task => s.readAdmin userId task
  | .prepareAdmin now newHash =>
    if s.passwords newHash = none then s.prepareAdmin config now newHash else s
  | .loadAdmin => s.loadAdmin
  | .flushAdmin => s.flushAdmin config
  | .revokeAdmin now => s.revokeAdmin now
  | .abortAdmin => { s with admin := .free }
  | .revokeSessions userId now => s.revokeUserSessions userId now
  | .logout sessionId now => s.revokeSession sessionId now
  | .readSession authentication rawToken touch now =>
    s.readSession authentication rawToken touch now
  | .readPrincipal authentication => s.readPrincipal authentication
  | .settleAuthentication authentication => s.settleAuthentication authentication
  | .readBinding binding userId => s.readBinding binding userId
  | .insertBinding binding subject now => s.insertBinding binding subject now
  | .startAuthorization state nonce browserBinding codeVerifier now =>
    if tokenHash state ∈ s.states then s
    else s.startAuthorization config state nonce browserBinding codeVerifier now
  | .loadCallback callback code state browserBinding consumedAt =>
    s.loadCallback callback code state browserBinding consumedAt
  | .consumeCallback callback => s.consumeCallback callback
  | .verifyCallback callback claims => s.verifyCallback callback claims
  | .identifyCallback callback => s.identifyCallback config callback
  | .authorizeCallback callback => s.authorizeCallback callback
  | .issueCallback callback rawToken authenticatedAt =>
    s.issueCallback config callback rawToken authenticatedAt
  | .abortCallback callback =>
    match s.callbacks callback with
    | .idle => s
    | _ => s.setCallback callback .ended
  | .restart mode => s.restart mode

end IdentityStore

end QaPlatform.Services
