import QaPlatform.Services.IdentitySteps

/-!
# Accounts and who may change them

What the calls of `app/services/identity.py` amount to for the accounts and the sessions, whichever
of them come between the statements of another: a login counts a failure or issues a session on the
hash that is stored, an operation of an administrator goes from the account that it has read to the
one that it writes. Only the latter changes a role, a status or a password.

`Step` lists what can happen, and `Sound` is the invariant: a hash is of a password that has
been set, and an operation of an administrator knows its account, for nobody else writes its
standing while the business lock is held (`Continues`). Three properties of whole runs are read
off: how old the passwords of sessions are (`Since`), that a disabled account has none
(`NoneDisabled`), and that one active administrator remains.

Passwords are not in the rows. What a hash is a hash of is kept beside them as the number of the
password, in the order in which passwords were set.
-/

namespace QaPlatform.Services

open IdentityStore (newUser newSession)

/-- Accounts, sessions and the operation that holds the lock. -/
structure Accounts where
  users : Table UserAccount
  sessions : Table StoredSession
  passwords : String → Option Nat
  nextPassword : Nat
  admin : AdminOperation

/-- A session at two times. -/
structure StoredSession.Descends (x x' : StoredSession) : Prop where
  id : x'.id = x.id
  userId : x'.userId = x.userId
  tokenHash : x'.tokenHash = x.tokenHash
  createdAt : x'.createdAt = x.createdAt
  origin : x'.origin = x.origin
  revoked : x'.revokedAt = none → x.revokedAt = none

namespace Accounts

/-- Every session is from before, and what was revoked stays so. -/
def Descend (sessions sessions' : Table StoredSession) : Prop :=
  ∀ x' ∈ sessions'.rows, ∃ x ∈ sessions.rows, x.Descends x'

/-- The rows that are active administrators. -/
def activeAdmins (users : Table UserAccount) : Nat := users.rows.countP (·.isActiveAdmin)

/-- A password may get another hash. -/
def rehashed (passwords : String → Option Nat) (hash : String) :
    Option String → String → Option Nat
  | none => passwords
  | some replacement => Function.update passwords replacement (passwords hash)

/-- The state after an UPDATE. -/
def flush (config : IdentityConfig) (v : Accounts) (row record updated : UserAccount)
    (revokes : Bool) : Accounts :=
  { v with
    users := v.users.put (row.overwrite config.backend record updated)
    admin := if revokes then .revoking updated else .free }

/-- What a step does. -/
inductive Step (config : IdentityConfig) (v : Accounts) : Accounts → Prop
  | same : Step config v v
  /-- An INSERT of an account. -/
  | created {username displayName passwordHash roleKey : String} {now : Instant}
    (hfresh : v.passwords passwordHash = none) :
    Step config v { v with
      users := v.users.add (newUser username displayName passwordHash roleKey now)
      passwords := Function.update v.passwords passwordHash (some v.nextPassword)
      nextPassword := v.nextPassword + 1 }
  /-- A password that was wrong. -/
  | failed {id : Uuid} {row snapshot row' : UserAccount} {failedAt lockedUntil : Instant} {n : Nat}
    (hrow : v.users.get? id = some row)
    (hfailed : row.recordFailedLogin snapshot failedAt n lockedUntil = some row') :
    Step config v { v with users := v.users.put row' }
  /-- A password login; the password may get another hash. -/
  | loggedIn {row : UserAccount} {replacement : Option String} {rawToken : String} {now : Instant}
    (hrow : v.users.get? row.id = some row) (hactive : row.status = .active)
    (hfresh : ∀ hash ∈ replacement, v.passwords hash = none) :
    Step config v { v with
      users := v.users.put (row.loggedIn (replacement.getD row.passwordHash) now)
      sessions :=
        v.sessions.add (newSession config row.id rawToken now (.password row.passwordHash))
      passwords := rehashed v.passwords row.passwordHash replacement }
  | oidcLoggedIn {row : UserAccount} {callback : Nat} {rawToken : String} {now : Instant}
    (hrow : v.users.get? row.id = some row) (hactive : row.status = .active) :
    Step config v { v with
      users := v.users.put (row.loggedIn row.passwordHash now)
      sessions := v.sessions.add (newSession config row.id rawToken now (.oidc callback)) }
  /-- The session of `setup`. -/
  | setUp {userId : Uuid} {rawToken : String} {now : Instant} :
    Step config v { v with
      sessions := v.sessions.add (newSession config userId rawToken now .setup) }
  | revoked {sessions : Table StoredSession} (h : Descend v.sessions sessions) :
    Step config v { v with sessions }
  /-- An operation of an administrator begins. -/
  | read {user : UserAccount} {task : AdminTask} (hfree : v.admin = .free)
    (hrow : v.users.get? user.id = some user) :
    Step config v { v with admin := .read user task }
  /-- It is going to change the account, if an active administrator remains. -/
  | preparedUpdate {user updated : UserAccount} {task : AdminTask} {revokes : Bool}
    (hadmin : v.admin = .read user task) (hid : updated.id = user.id)
    (hhash : updated.passwordHash = user.passwordHash)
    (hremains : user.isActiveAdmin → updated.isActiveAdmin ∨ 1 < activeAdmins v.users)
    (hrevokes : updated.status ≠ .active → revokes = true) :
    Step config v { v with admin := .prepared updated revokes }
  /-- It is going to set a password. -/
  | preparedPassword {user : UserAccount} {task : AdminTask} {passwordHash : String} {now : Instant}
    (hadmin : v.admin = .read user task) (hfresh : v.passwords passwordHash = none) :
    Step config v { v with
      admin := .prepared (user.withPassword passwordHash now) true
      passwords := Function.update v.passwords passwordHash (some v.nextPassword)
      nextPassword := v.nextPassword + 1 }
  | loaded {record updated : UserAccount} {revokes : Bool}
    (hadmin : v.admin = .prepared updated revokes)
    (hrow : v.users.get? updated.id = some record) :
    Step config v { v with admin := .loaded record updated revokes }
  | flushed {record updated row : UserAccount} {revokes : Bool}
    (hadmin : v.admin = .loaded record updated revokes)
    (hrow : v.users.get? updated.id = some row) :
    Step config v (v.flush config row record updated revokes)
  /-- The sessions of the account are revoked. -/
  | finished {updated : UserAccount} {sessions : Table StoredSession}
    (hadmin : v.admin = .revoking updated) (h : Descend v.sessions sessions)
    (hrevoked : ∀ x ∈ sessions.rows, x.userId = updated.id → x.revokedAt ≠ none) :
    Step config v { v with sessions, admin := .free }
  /-- The operation ends before its UPDATE. -/
  | freed (hadmin : ∀ updated, v.admin ≠ .revoking updated) :
    Step config v { v with admin := .free }

/-- The operation ends between its UPDATE and the revocation. -/
def Interrupted (v v' : Accounts) : Prop :=
  ∃ updated, v.admin = .revoking updated ∧ v' = { v with admin := .free }

/-! ## What becomes of an account -/

/-- An account at two times between which nobody has changed its standing or its password. -/
structure Continues (v v' : Accounts) (row row' : UserAccount) : Prop where
  standing : row'.standing = row.standing
  password : v'.passwords row'.passwordHash = v.passwords row.passwordHash

/-- What holds of the accounts after every step but an UPDATE. -/
structure Keeps (v v' : Accounts) : Prop where
  passwords : ∀ hash n, v.passwords hash = some n → v'.passwords hash = some n
  rows : ∀ id row, v.users.get? id = some row →
    ∃ row', v'.users.get? id = some row' ∧ Continues v v' row row'
  /-- A new account is active. -/
  fresh : ∀ id row', v'.users.get? id = some row' → v.users.get? id = none →
    (v'.passwords row'.passwordHash).isSome ∧ row'.status = .active

/-- What the lock guards: the row of the account against the one that the operation writes. -/
structure Replaces (v : Accounts) (row updated : UserAccount) (revokes : Bool) : Prop where
  password : ∃ m n, v.passwords row.passwordHash = some m
    ∧ v.passwords updated.passwordHash = some n ∧ m ≤ n
  revokes : updated.status ≠ .active → revokes = true
  remains : row.isActiveAdmin → updated.isActiveAdmin
    ∨ ∃ other ∈ v.users.rows, other.id ≠ row.id ∧ other.isActiveAdmin

/-- What an operation of an administrator knows of its account. -/
def Pending (v : Accounts) : AdminOperation → Prop
  | .free => True
  | .read user _ => ∃ row, v.users.get? user.id = some row ∧ Continues v v row user
  | .prepared updated revokes =>
    ∃ row, v.users.get? updated.id = some row ∧ v.Replaces row updated revokes
  | .loaded record updated revokes =>
    ∃ row, v.users.get? updated.id = some row ∧ v.Replaces row updated revokes
      ∧ Continues v v row record
  | .revoking updated => ∃ row, v.users.get? updated.id = some row ∧ Continues v v row updated

/-- Hashes are of passwords that have been set, and the operation knows its account. -/
structure Sound (v : Accounts) : Prop where
  numbered : ∀ hash n, v.passwords hash = some n → n < v.nextPassword
  known : ∀ id row, v.users.get? id = some row → (v.passwords row.passwordHash).isSome
  pending : v.Pending v.admin

variable {config : IdentityConfig} {v v' : Accounts}

/-! ## Accounts go on -/

namespace Continues

variable {row row' : UserAccount}

theorem of_eq (hstanding : row'.standing = row.standing)
    (hhash : row'.passwordHash = row.passwordHash)
    (hpassword : v'.passwords row.passwordHash = v.passwords row.passwordHash) :
    Continues v v' row row' :=
  ⟨hstanding, by rw [hhash, hpassword]⟩

/-- What an operation knows of an account, it knows after another step. -/
theorem mono {user : UserAccount} (h : Continues v v row user) (hcont : Continues v v' row row')
    (hpasswords : ∀ hash n, v.passwords hash = some n → v'.passwords hash = some n)
    (hknown : (v.passwords row.passwordHash).isSome) : Continues v' v' row' user := by
  refine ⟨h.standing.trans hcont.standing.symm, ?_⟩
  obtain ⟨n, hn⟩ := Option.isSome_iff_exists.mp hknown
  have huser : v'.passwords user.passwordHash = some n := hpasswords _ n (h.password.trans hn)
  rw [huser, hcont.password, hn]

end Continues

/-- One more hash. -/
theorem update_extends {passwords : String → Option Nat} {hash : String} {o : Option Nat}
    (hfresh : passwords hash = none) :
    ∀ hash' n, passwords hash' = some n → Function.update passwords hash o hash' = some n := by
  intro hash' n hn
  have hne : hash' ≠ hash := by
    rintro rfl
    rw [hfresh] at hn
    cases hn
  rw [Function.update_of_ne hne, hn]

namespace Keeps

theorem of_users (hv : v.Sound) (husers : v'.users = v.users)
    (hpasswords : ∀ hash n, v.passwords hash = some n → v'.passwords hash = some n) :
    Keeps v v' where
  passwords := hpasswords
  rows := by
    intro id row hrow
    obtain ⟨n, hn⟩ := Option.isSome_iff_exists.mp (hv.known id row hrow)
    exact ⟨row, by rw [husers, hrow], .of_eq rfl rfl ((hpasswords _ n hn).trans hn.symm)⟩
  fresh := by
    intro id row' hrow' hnone
    rw [husers, hnone] at hrow'
    cases hrow'

theorem of_put {row row' : UserAccount} (hv : v.Sound) (hrow : v.users.get? row.id = some row)
    (hcont : Continues v v' row row') (husers : v'.users = v.users.put row')
    (hpasswords : ∀ hash n, v.passwords hash = some n → v'.passwords hash = some n) :
    Keeps v v' where
  passwords := hpasswords
  rows := by
    intro id other hother
    have hid : row'.id = row.id := congrArg Prod.fst hcont.standing
    rw [husers]
    by_cases h : row.id = id
    · subst h
      obtain rfl : row = other := Option.some.inj (hrow.symm.trans hother)
      exact ⟨row', Table.get?_put_self hrow hid, hcont⟩
    · refine ⟨other, ?_, ?_⟩
      · rw [Table.get?_put_of_ne (by rwa [UserAccount.key_eq, hid]), hother]
      · obtain ⟨n, hn⟩ := Option.isSome_iff_exists.mp (hv.known id other hother)
        exact .of_eq rfl rfl ((hpasswords _ n hn).trans hn.symm)
  fresh := by
    intro id other hother hnone
    rw [husers, Table.get?_put, hnone] at hother
    split at hother <;> cases hother

theorem of_add (f : Nat → UserAccount) (hf : ∀ k, key (f k) = k) (hv : v.Sound)
    (husers : v'.users = v.users.add f hf) (hactive : ∀ k, (f k).status = .active)
    (hknown : ∀ k, (v'.passwords (f k).passwordHash).isSome)
    (hpasswords : ∀ hash n, v.passwords hash = some n → v'.passwords hash = some n) :
    Keeps v v' where
  passwords := hpasswords
  rows := by
    intro id row hrow
    obtain ⟨n, hn⟩ := Option.isSome_iff_exists.mp (hv.known id row hrow)
    exact ⟨row, by rw [husers, Table.get?_add_old hrow],
      .of_eq rfl rfl ((hpasswords _ n hn).trans hn.symm)⟩
  fresh := by
    intro id row' hrow' hnone
    rw [husers, Table.get?_add, hnone] at hrow'
    split at hrow'
    · obtain rfl := Option.some.inj hrow'
      exact ⟨hknown _, hactive _⟩
    · cases hrow'

end Keeps

/-- The hash that a login leaves is of the password that was there. -/
theorem rehashed_getD (passwords : String → Option Nat) (hash : String)
    (replacement : Option String) :
    rehashed passwords hash replacement (replacement.getD hash) = passwords hash := by
  cases replacement with
  | none => rfl
  | some replacement => exact Function.update_self replacement _ passwords

theorem rehashed_extends {passwords : String → Option Nat} {hash : String}
    {replacement : Option String} (hfresh : ∀ new ∈ replacement, passwords new = none) :
    ∀ hash' n, passwords hash' = some n → rehashed passwords hash replacement hash' = some n := by
  cases replacement with
  | none => exact fun _ _ hn => hn
  | some new => exact update_extends (hfresh new rfl)

/-- Every step but an UPDATE of an administrator keeps the accounts. -/
theorem Step.keeps (hv : v.Sound) (h : Step config v v') :
    Keeps v v' ∨ ∃ record updated row revokes, v.admin = .loaded record updated revokes
      ∧ v.users.get? updated.id = some row
      ∧ v' = v.flush config row record updated revokes := by
  cases h with
  | same | setUp | revoked | read | preparedUpdate | loaded | finished | freed =>
    exact .inl (.of_users hv rfl fun _ _ hn => hn)
  | @created username displayName passwordHash roleKey now hfresh =>
    left
    apply Keeps.of_add (newUser username displayName passwordHash roleKey now) (fun _ => rfl) hv rfl
      fun _ => rfl
    · intro k
      show (Function.update v.passwords passwordHash _ passwordHash).isSome
      rw [Function.update_self]
      rfl
    · exact update_extends hfresh
  | @failed id row snapshot row' failedAt lockedUntil n hrow hfailed =>
    obtain ⟨hstanding, hhash, -⟩ := UserAccount.recordFailedLogin_eq_some hfailed
    obtain rfl : row.id = id := Table.key_of_get? hrow
    exact .inl (.of_put hv hrow (.of_eq hstanding hhash rfl) rfl fun _ _ hn => hn)
  | @loggedIn row replacement rawToken now hrow hactive hfresh =>
    left
    refine Keeps.of_put hv hrow ?_ rfl (rehashed_extends hfresh)
    exact ⟨row.loggedIn_standing _ now, rehashed_getD v.passwords row.passwordHash replacement⟩
  | @oidcLoggedIn row callback rawToken now hrow hactive =>
    left
    refine Keeps.of_put hv hrow ?_ rfl fun _ _ hn => hn
    exact .of_eq (row.loggedIn_standing _ now) (row.loggedIn_passwordHash _ now) rfl
  | preparedPassword hadmin hfresh => exact .inl (.of_users hv rfl (update_extends hfresh))
  | flushed hadmin hrow => exact .inr ⟨_, _, _, _, hadmin, hrow, rfl⟩

/-! ## The invariant -/

namespace Keeps

theorem known (hkeeps : Keeps v v') (hv : v.Sound) (id : Uuid) (row' : UserAccount)
    (hrow' : v'.users.get? id = some row') : (v'.passwords row'.passwordHash).isSome := by
  cases hrow : v.users.get? id with
  | none => exact (hkeeps.fresh id row' hrow' hrow).1
  | some row =>
    obtain ⟨row'', hrow'', hcont⟩ := hkeeps.rows id row hrow
    obtain rfl : row' = row'' := Option.some.inj (hrow'.symm.trans hrow'')
    rw [hcont.password]
    exact hv.known id row hrow

theorem replaces {row row' updated : UserAccount} {revokes : Bool} (hkeeps : Keeps v v')
    (hcont : Continues v v' row row') (h : v.Replaces row updated revokes) :
    v'.Replaces row' updated revokes where
  password := by
    obtain ⟨m, n, hm, hn, hle⟩ := h.password
    exact ⟨m, n, hcont.password.trans hm, hkeeps.passwords _ n hn, hle⟩
  revokes := h.revokes
  remains := by
    intro hactive
    rw [UserAccount.isActiveAdmin_of_standing hcont.standing] at hactive
    obtain hupdated | ⟨other, hother, hne, hadmin⟩ := h.remains hactive
    · exact .inl hupdated
    · obtain ⟨other', hother', hstanding, -⟩ := hkeeps.rows _ other (Table.get?_key hother)
      have hid : other'.id = other.id := congrArg Prod.fst hstanding
      have hid' : row'.id = row.id := congrArg Prod.fst hcont.standing
      refine .inr ⟨other', Table.mem_of_get? hother', ?_, ?_⟩
      · rwa [hid, hid']
      · rwa [UserAccount.isActiveAdmin_of_standing hstanding]

/-- What an operation knows stays true while others step. -/
theorem pending (hkeeps : Keeps v v') (hv : v.Sound) {operation : AdminOperation}
    (h : v.Pending operation) : v'.Pending operation := by
  cases operation with
  | free => trivial
  | read user task =>
    obtain ⟨row, hrow, hcont⟩ := h
    obtain ⟨row', hrow', hcont'⟩ := hkeeps.rows _ row hrow
    exact ⟨row', hrow', hcont.mono hcont' hkeeps.passwords (hv.known _ row hrow)⟩
  | prepared updated revokes =>
    obtain ⟨row, hrow, hreplaces⟩ := h
    obtain ⟨row', hrow', hcont'⟩ := hkeeps.rows _ row hrow
    exact ⟨row', hrow', hkeeps.replaces hcont' hreplaces⟩
  | loaded record updated revokes =>
    obtain ⟨row, hrow, hreplaces, hcont⟩ := h
    obtain ⟨row', hrow', hcont'⟩ := hkeeps.rows _ row hrow
    exact ⟨row', hrow', hkeeps.replaces hcont' hreplaces,
      hcont.mono hcont' hkeeps.passwords (hv.known _ row hrow)⟩
  | revoking updated =>
    obtain ⟨row, hrow, hcont⟩ := h
    obtain ⟨row', hrow', hcont'⟩ := hkeeps.rows _ row hrow
    exact ⟨row', hrow', hcont.mono hcont' hkeeps.passwords (hv.known _ row hrow)⟩

end Keeps

/-- Of two active administrators one is another one. -/
theorem exists_other_admin {users : Table UserAccount} (id : Uuid) (h : 1 < activeAdmins users) :
    ∃ other ∈ users.rows, other.id ≠ id ∧ other.isActiveAdmin := by
  by_contra hnone
  push Not at hnone
  have hsame : ∀ row ∈ users.rows.filter (·.isActiveAdmin), row.id = id := by
    intro row hrow
    rw [List.mem_filter] at hrow
    by_contra hne
    exact hnone row hrow.1 hne hrow.2
  have hnodup : ((users.rows.filter (·.isActiveAdmin)).map key).Nodup :=
    users.nodup.sublist (List.filter_sublist.map key)
  rw [activeAdmins, List.countP_eq_length_filter] at h
  match hrows : users.rows.filter (·.isActiveAdmin) with
  | [] | [_] => simp [hrows] at h
  | a :: b :: rest =>
    rw [hrows] at hsame hnodup
    have ha : a.id = id := hsame a (by simp)
    have hb : b.id = id := hsame b (by simp)
    simp [ha, hb] at hnodup

theorem Step.numbered (hv : v.Sound) (h : Step config v v') :
    ∀ hash n, v'.passwords hash = some n → n < v'.nextPassword := by
  have set : ∀ passwordHash hash n,
      Function.update v.passwords passwordHash (some v.nextPassword) hash = some n →
        n < v.nextPassword + 1 := by
    intro passwordHash hash n hn
    by_cases hsame : hash = passwordHash
    · rw [hsame, Function.update_self] at hn
      have : v.nextPassword = n := Option.some.inj hn
      omega
    · rw [Function.update_of_ne hsame] at hn
      have := hv.numbered hash n hn
      omega
  cases h with
  | created | preparedPassword => exact set _
  | @loggedIn row replacement rawToken now hrow hactive hfresh =>
    intro hash n hn
    cases replacement with
    | none => exact hv.numbered hash n hn
    | some replacement =>
      simp only [rehashed] at hn
      by_cases hsame : hash = replacement
      · rw [hsame, Function.update_self] at hn
        exact hv.numbered _ n hn
      · rw [Function.update_of_ne hsame] at hn
        exact hv.numbered hash n hn
  | same | failed | oidcLoggedIn | setUp | revoked | read | preparedUpdate | loaded | flushed
    | finished | freed => exact hv.numbered

/-- After an UPDATE the row stands as the operation has decided, on a hash of the password that the
operation has decided on. -/
theorem continues_overwrite {backend : DatabaseBackend} {row record updated : UserAccount}
    (hid : updated.id = row.id) (hrecord : Continues v v row record)
    (hpasswords : v'.passwords = v.passwords) :
    Continues v' v' (row.overwrite backend record updated) updated := by
  refine ⟨(UserAccount.overwrite_standing hrecord.standing hid).symm, ?_⟩
  rw [hpasswords]
  by_cases h : record.passwordHash = updated.passwordHash
  · have hrow : (row.overwrite backend record updated).passwordHash = row.passwordHash := if_pos h
    rw [hrow, ← h, hrecord.password]
  · rw [UserAccount.overwrite_passwordHash_of_ne h]

section
variable {record updated row : UserAccount} {revokes : Bool}

/-- What the operation has written is what it decided on. -/
theorem flush_continues (hv : v.Sound) (hadmin : v.admin = .loaded record updated revokes)
    (hrow : v.users.get? updated.id = some row) :
    Continues (v.flush config row record updated revokes)
      (v.flush config row record updated revokes) (row.overwrite config.backend record updated)
      updated := by
  have hpending := hv.pending
  rw [hadmin] at hpending
  obtain ⟨row', hrow', -, hcont⟩ := hpending
  obtain rfl : row = row' := Option.some.inj (hrow.symm.trans hrow')
  exact continues_overwrite (Table.key_of_get? hrow).symm hcont rfl

theorem get?_flush (hrow : v.users.get? updated.id = some row) :
    (v.flush config row record updated revokes).users.get? updated.id
      = some (row.overwrite config.backend record updated) := by
  have hkey : row.id = updated.id := Table.key_of_get? hrow
  exact Table.get?_put_self hrow hkey

theorem get?_flush_of_ne {id : Uuid} (hrow : v.users.get? updated.id = some row)
    (hid : id ≠ updated.id) :
    (v.flush config row record updated revokes).users.get? id = v.users.get? id := by
  apply Table.get?_put_of_ne
  have hkey : row.id = updated.id := Table.key_of_get? hrow
  rw [UserAccount.key_eq, UserAccount.overwrite_id, hkey]
  exact hid.symm

theorem flush_sound (hv : v.Sound) (hadmin : v.admin = .loaded record updated revokes)
    (hrow : v.users.get? updated.id = some row) :
    (v.flush config row record updated revokes).Sound where
  numbered := hv.numbered
  known := by
    intro id other hother
    by_cases hid : id = updated.id
    · subst hid
      rw [get?_flush hrow] at hother
      obtain rfl := Option.some.inj hother
      rw [← (flush_continues hv hadmin hrow).password]
      have hpending := hv.pending
      rw [hadmin] at hpending
      obtain ⟨_, _, hreplaces, _⟩ := hpending
      obtain ⟨_, n, _, hn, _⟩ := hreplaces.password
      exact Option.isSome_iff_exists.mpr ⟨n, hn⟩
    · rw [get?_flush_of_ne hrow hid] at hother
      exact hv.known id other hother
  pending := by
    cases revokes with
    | false => trivial
    | true => exact ⟨_, get?_flush hrow, flush_continues hv hadmin hrow⟩

end

/-- Every step keeps the invariant. -/
theorem Step.sound (hv : v.Sound) (h : Step config v v') : v'.Sound := by
  have hnumbered := h.numbered hv
  obtain hkeeps | ⟨record, updated, row, revokes, hadmin, hrow, rfl⟩ := h.keeps hv
  · refine ⟨hnumbered, hkeeps.known hv, ?_⟩
    have hpending := hkeeps.pending hv hv.pending
    cases h with
    | same | created | failed | loggedIn | oidcLoggedIn | setUp | revoked => exact hpending
    | finished | freed => trivial
    | @read user task hfree hrow => exact ⟨user, hrow, rfl, rfl⟩
    | @preparedUpdate user updated task revokes hadmin hid hhash hremains hrevokes =>
      rw [hadmin] at hpending
      obtain ⟨row, hrow, hcont⟩ := hpending
      obtain ⟨n, hn⟩ := Option.isSome_iff_exists.mp (hv.known _ row hrow)
      refine ⟨row, by rwa [hid], ?_, hrevokes, ?_⟩
      · exact ⟨n, n, hn, by rw [hhash, hcont.password, hn], Nat.le_refl n⟩
      · intro hactive
        rw [← UserAccount.isActiveAdmin_of_standing hcont.standing] at hactive
        exact (hremains hactive).imp_right (exists_other_admin row.id)
    | @preparedPassword user task passwordHash now hadmin hfresh =>
      have hold := hv.pending
      rw [hadmin] at hold
      obtain ⟨row, hrow, hcont⟩ := hold
      obtain ⟨n, hn⟩ := Option.isSome_iff_exists.mp (hv.known _ row hrow)
      refine ⟨row, hrow, ?_, fun _ => rfl, ?_⟩
      · refine ⟨n, v.nextPassword, update_extends hfresh _ n hn, ?_, ?_⟩
        · exact Function.update_self passwordHash _ v.passwords
        · exact Nat.le_of_lt (hv.numbered _ n hn)
      · intro hactive
        left
        rwa [UserAccount.isActiveAdmin_of_standing (user.withPassword_standing passwordHash now),
          UserAccount.isActiveAdmin_of_standing hcont.standing]
    | @loaded record updated revokes hadmin hrow =>
      rw [hadmin] at hpending
      obtain ⟨row, hrow', hreplaces⟩ := hpending
      obtain rfl : record = row := Option.some.inj (hrow.symm.trans hrow')
      exact ⟨record, hrow, hreplaces, rfl, rfl⟩
    | flushed hadmin hrow => exact (flush_sound hv hadmin hrow).pending
  · exact flush_sound hv hadmin hrow

theorem Interrupted.sound (hv : v.Sound) (h : Interrupted v v') : v'.Sound := by
  obtain ⟨updated, -, rfl⟩ := h
  exact ⟨hv.numbered, hv.known, trivial⟩

/-! ## Sessions of a password -/

/-- The password of an account and those of its sessions are numbered from `n` on. -/
structure Since (n : Nat) (userId : Uuid) (v : Accounts) : Prop where
  row : ∃ row, v.users.get? userId = some row
    ∧ ∃ m, v.passwords row.passwordHash = some m ∧ n ≤ m
  sessions : ∀ x ∈ v.sessions.rows, x.userId = userId → x.revokedAt = none →
    ∀ hash, x.origin = .password hash → ∃ m, v.passwords hash = some m ∧ n ≤ m

theorem mem_add_session {sessions : Table StoredSession} {userId : Uuid} {rawToken : String}
    {now : Instant} {origin : SessionOrigin} {x : StoredSession}
    (h : x ∈ (sessions.add (newSession config userId rawToken now origin)).rows) :
    x ∈ sessions.rows ∨ x = newSession config userId rawToken now origin sessions.next :=
  Table.mem_add h

/-- The sessions after a step, on which of the accounts they are issued. -/
theorem Step.sessions (h : Step config v v') :
    ∀ x' ∈ v'.sessions.rows, (∃ x ∈ v.sessions.rows, x.Descends x')
      ∨ x'.origin = .setup
      ∨ ∃ row, v.users.get? x'.userId = some row ∧ row.status = .active
        ∧ (x'.origin = .password row.passwordHash ∨ ∃ callback, x'.origin = .oidc callback) := by
  have old : ∀ x ∈ v.sessions.rows, ∃ y ∈ v.sessions.rows, y.Descends x :=
    fun x hx => ⟨x, hx, rfl, rfl, rfl, rfl, rfl, fun h => h⟩
  cases h with
  | loggedIn hrow hactive hfresh =>
    intro x' hx'
    rcases mem_add_session hx' with hold | rfl
    · exact .inl (old x' hold)
    · exact .inr (.inr ⟨_, hrow, hactive, .inl rfl⟩)
  | @oidcLoggedIn row callback rawToken now hrow hactive =>
    intro x' hx'
    rcases mem_add_session hx' with hold | rfl
    · exact .inl (old x' hold)
    · exact .inr (.inr ⟨row, hrow, hactive, .inr ⟨callback, rfl⟩⟩)
  | setUp =>
    intro x' hx'
    rcases mem_add_session hx' with hold | rfl
    · exact .inl (old x' hold)
    · exact .inr (.inl rfl)
  | revoked hdescend => exact fun x' hx' => .inl (hdescend x' hx')
  | finished hadmin hdescend hrevoked => exact fun x' hx' => .inl (hdescend x' hx')
  | same | created | failed | read | preparedUpdate | preparedPassword | loaded | flushed | freed =>
    exact fun x' hx' => .inl (old x' hx')

/-- The numbers of hashes stay. -/
theorem Step.passwords (hv : v.Sound) (h : Step config v v') :
    ∀ hash n, v.passwords hash = some n → v'.passwords hash = some n := by
  obtain hkeeps | ⟨record, updated, row, revokes, -, -, rfl⟩ := h.keeps hv
  · exact hkeeps.passwords
  · exact fun _ _ hn => hn

/-- A later password takes the place of the one that is there. -/
theorem Step.since {n : Nat} {userId : Uuid} (hv : v.Sound) (hsince : v.Since n userId)
    (h : Step config v v') : v'.Since n userId where
  row := by
    obtain ⟨row, hrow, m, hm, hle⟩ := hsince.row
    obtain hkeeps | ⟨record, updated, row', revokes, hadmin, hrow', rfl⟩ := h.keeps hv
    · obtain ⟨row', hrow', hcont⟩ := hkeeps.rows _ row hrow
      exact ⟨row', hrow', m, hcont.password.trans hm, hle⟩
    · by_cases hid : userId = updated.id
      · subst hid
        obtain rfl : row = row' := Option.some.inj (hrow.symm.trans hrow')
        have hcont : Continues _ _ (row.overwrite config.backend record updated) updated :=
          flush_continues hv hadmin hrow
        have hpending := hv.pending
        rw [hadmin] at hpending
        obtain ⟨row', hrow'', hreplaces, -⟩ := hpending
        obtain rfl : row = row' := Option.some.inj (hrow.symm.trans hrow'')
        obtain ⟨m', n', hm', hn', hle'⟩ := hreplaces.password
        obtain rfl : m = m' := Option.some.inj (hm.symm.trans hm')
        exact ⟨_, get?_flush hrow, n', hcont.password.symm.trans hn', Nat.le_trans hle hle'⟩
      · exact ⟨row, by rw [get?_flush_of_ne hrow' hid, hrow], m, hm, hle⟩
  sessions := by
    intro x' hx' huser hlive hash horigin
    obtain ⟨x, hx, hdescends⟩ | hsetup | ⟨row, hrow, hactive, hpassword | ⟨callback, hoidc⟩⟩ :=
      h.sessions x' hx'
    · obtain ⟨m, hm, hle⟩ := hsince.sessions x hx (hdescends.userId.symm.trans huser)
        (hdescends.revoked hlive) hash (hdescends.origin.symm.trans horigin)
      exact ⟨m, h.passwords hv hash m hm, hle⟩
    · rw [hsetup] at horigin
      cases horigin
    · obtain ⟨row', hrow', m, hm, hle⟩ := hsince.row
      rw [huser] at hrow
      obtain rfl : row = row' := Option.some.inj (hrow.symm.trans hrow')
      rw [hpassword] at horigin
      obtain rfl := SessionOrigin.password.inj horigin
      exact ⟨m, h.passwords hv _ m hm, hle⟩
    · rw [hoidc] at horigin
      cases horigin

theorem Interrupted.since {n : Nat} {userId : Uuid} (hsince : v.Since n userId)
    (h : Interrupted v v') : v'.Since n userId := by
  obtain ⟨updated, -, rfl⟩ := h
  exact ⟨hsince.row, hsince.sessions⟩

/-- Where the sessions of an account have been revoked, none is of an earlier password. -/
theorem since_of_revoked {updated : UserAccount} {n : Nat} (hv : v.Sound)
    (hadmin : v.admin = .revoking updated) (hn : v.passwords updated.passwordHash = some n)
    (husers : v'.users = v.users) (hpasswords : v'.passwords = v.passwords)
    (hrevoked : ∀ x ∈ v'.sessions.rows, x.userId = updated.id → x.revokedAt ≠ none) :
    v'.Since n updated.id where
  row := by
    have hpending := hv.pending
    rw [hadmin] at hpending
    obtain ⟨row, hrow, hcont⟩ := hpending
    refine ⟨row, by rw [husers, hrow], n, ?_, Nat.le_refl n⟩
    rw [hpasswords, ← hcont.password, hn]
  sessions := fun x hx huser hlive => absurd hlive (hrevoked x hx huser)

/-! ## Disabled accounts -/

/-- A disabled account has no session, while no operation is about to revoke its sessions. -/
def NoneDisabled (v : Accounts) : Prop :=
  ∀ row ∈ v.users.rows, row.status = .disabled →
    (∀ updated, v.admin = .revoking updated → updated.id ≠ row.id) →
    ∀ x ∈ v.sessions.rows, x.userId = row.id → x.origin ≠ .setup → x.revokedAt ≠ none

/-- An operation stays about to revoke sessions until they are revoked. -/
theorem Step.revoking {updated : UserAccount} (hadmin : v.admin = .revoking updated)
    (h : Step config v v') :
    v'.admin = .revoking updated
      ∨ ∀ x ∈ v'.sessions.rows, x.userId = updated.id → x.revokedAt ≠ none := by
  cases h with
  | same | created | failed | loggedIn | oidcLoggedIn | setUp | revoked => exact .inl hadmin
  | finished hadmin' hdescend hrevoked =>
    rw [hadmin] at hadmin'
    obtain rfl := AdminOperation.revoking.inj hadmin'
    exact .inr hrevoked
  | freed hfree => exact absurd hadmin (hfree updated)
  | read hother | preparedUpdate hother | preparedPassword hother | loaded hother
    | flushed hother =>
    rw [hadmin] at hother
    cases hother

/-- The UPDATE that disables an account is not the end of its operation. -/
theorem flush_disabled {record updated row : UserAccount} {revokes : Bool} (hv : v.Sound)
    (hadmin : v.admin = .loaded record updated revokes)
    (hrow : v.users.get? updated.id = some row)
    (hdisabled : (row.overwrite config.backend record updated).status = .disabled) :
    (v.flush config row record updated revokes).admin = .revoking updated := by
  have hcont : Continues _ _ (row.overwrite config.backend record updated) updated :=
    flush_continues hv hadmin hrow
  have hstatus : updated.status = .disabled := by
    rw [← hdisabled]
    exact congrArg (·.2.2) hcont.standing
  have hpending := hv.pending
  rw [hadmin] at hpending
  obtain ⟨_, _, hreplaces, _⟩ := hpending
  have hrevokes : revokes = true := hreplaces.revokes (by rw [hstatus]; decide)
  exact if_pos hrevokes

/-- A session is issued on an account that is active. -/
theorem Step.noneDisabled (hv : v.Sound) (hnone : v.NoneDisabled) (h : Step config v v') :
    v'.NoneDisabled := by
  intro row' hrow' hdisabled hfree x' hx' huser horigin
  have hget' : v'.users.get? row'.id = some row' := Table.get?_key hrow'
  obtain hkeeps | ⟨record, updated, row, revokes, hadmin, hrow, rfl⟩ := h.keeps hv
  · cases hget : v.users.get? row'.id with
    | none =>
      have hactive := (hkeeps.fresh _ row' hget' hget).2
      rw [hdisabled] at hactive
      cases hactive
    | some row =>
      -- the account was disabled before the step
      obtain ⟨row'', hrow'', hcont⟩ := hkeeps.rows _ row hget
      obtain rfl : row' = row'' := Option.some.inj (hget'.symm.trans hrow'')
      have hstatus : row.status = .disabled := by
        rw [← hdisabled]
        exact (congrArg (·.2.2) hcont.standing).symm
      have hid : row.id = row'.id := Table.key_of_get? hget
      by_cases hother : ∀ updated, v.admin = .revoking updated → updated.id ≠ row.id
      · obtain ⟨x, hx, hdescends⟩ | hsetup | ⟨user, hrowUser, hactive, -⟩ := h.sessions x' hx'
        · intro hlive
          refine hnone row (Table.mem_of_get? hget) hstatus hother x hx ?_ ?_
            (hdescends.revoked hlive)
          · rw [← hdescends.userId, huser, hid]
          · rwa [← hdescends.origin]
        · exact absurd hsetup horigin
        · rw [huser, hget] at hrowUser
          obtain rfl := Option.some.inj hrowUser
          rw [hstatus] at hactive
          cases hactive
      · push Not at hother
        obtain ⟨updated, hadmin, hupdated⟩ := hother
        obtain hadmin' | hrevoked := h.revoking hadmin
        · exact absurd (hupdated.trans hid) (hfree updated hadmin')
        · exact hrevoked x' hx' (huser.trans (hupdated.trans hid).symm)
  · by_cases hid : row'.id = updated.id
    · rw [hid, get?_flush hrow] at hget'
      obtain rfl := Option.some.inj hget'
      exact absurd hid.symm (hfree updated (flush_disabled hv hadmin hrow hdisabled))
    · rw [get?_flush_of_ne hrow hid] at hget'
      refine hnone row' (Table.mem_of_get? hget') hdisabled ?_ x' hx' huser horigin
      intro other hother
      rw [hadmin] at hother
      cases hother

/-! ## Administrators -/

theorem activeAdmins_pos {users : Table UserAccount} :
    0 < activeAdmins users ↔ ∃ row ∈ users.rows, row.isActiveAdmin := List.countP_pos_iff

/-- Of the active administrators one remains. -/
theorem Step.activeAdmins_pos (hv : v.Sound) (hpos : 0 < activeAdmins v.users)
    (h : Step config v v') : 0 < activeAdmins v'.users := by
  rw [Accounts.activeAdmins_pos] at hpos ⊢
  obtain ⟨row, hmem, hactive⟩ := hpos
  obtain hkeeps | ⟨record, updated, row', revokes, hadmin, hrow', rfl⟩ := h.keeps hv
  · obtain ⟨row', hrow', hstanding, -⟩ := hkeeps.rows _ row (Table.get?_key hmem)
    refine ⟨row', Table.mem_of_get? hrow', ?_⟩
    rwa [UserAccount.isActiveAdmin_of_standing hstanding]
  · have stays : ∀ other ∈ v.users.rows, other.id ≠ updated.id → other.isActiveAdmin →
        ∃ row ∈ (v.flush config row' record updated revokes).users.rows, row.isActiveAdmin := by
      intro other hother hne hadmin
      have hget :
          (v.flush config row' record updated revokes).users.get? other.id = some other := by
        rw [get?_flush_of_ne hrow' hne]
        exact Table.get?_key hother
      exact ⟨other, Table.mem_of_get? hget, hadmin⟩
    by_cases hid : row.id = updated.id
    · have hrow : v.users.get? updated.id = some row := hid ▸ Table.get?_key hmem
      obtain rfl : row = row' := Option.some.inj (hrow.symm.trans hrow')
      have hpending := hv.pending
      rw [hadmin] at hpending
      obtain ⟨row', hrow'', hreplaces, -⟩ := hpending
      obtain rfl : row = row' := Option.some.inj (hrow.symm.trans hrow'')
      obtain hupdated | ⟨other, hother, hne, hadmin'⟩ := hreplaces.remains hactive
      · refine ⟨_, Table.mem_of_get? (get?_flush hrow), ?_⟩
        rwa [← UserAccount.isActiveAdmin_of_standing (flush_continues hv hadmin hrow).standing]
      · exact stays other hother (hid ▸ hne) hadmin'
    · exact stays row hmem hid hactive

end Accounts

end QaPlatform.Services
