import QaPlatform.Services.SessionSafety

/-!
# OIDC logins

A login transaction is consumed once, by a callback of the browser that has started it and before
it expires; a session that a callback issues is for the account that is bound to the subject of its
token, and no other session is issued on that transaction.

`Step` says what can happen to the rows and the callbacks: a transaction is started, with a
state that no row has had, consumed, verified, and ended with a session; sessions and bindings
of others may come and go. `Knows` follows one callback through its statements. What it knows
stays true while others step, because a transaction is marked in the statement that consumes it
and bindings are not taken back.

`Sound` is the invariant from which the theorem is read off: consumptions have different states
and different callbacks, and a session that a callback has issued is the only one of it, of the
account that is bound to the subject of the verified token.
-/

namespace QaPlatform.Services

open IdentityStore (newSession)

/-- What the rows and the callbacks of OIDC logins are. -/
structure OidcLogins where
  sessions : Table StoredSession
  identities : Table OidcIdentity
  transactions : Table OidcLoginTransaction
  callbacks : Nat → CallbackProcess
  states : List TokenHash
  consumed : List Consumption
  claims : Nat → Option TokenClaims

namespace OidcLogins

/-- Rows are deleted and one is inserted. -/
def start (v : OidcLogins) (keeps : OidcLoginTransaction → Bool) (f : Nat → OidcLoginTransaction)
    (hf : ∀ k, key (f k) = k) (stateHash : TokenHash) : OidcLogins :=
  { v with
    transactions := (v.transactions.keep keeps).add f hf
    states := stateHash :: v.states }

/-- A callback consumes the transaction of a row. -/
def consume (v : OidcLogins) (callback : Nat) (record row : OidcLoginTransaction)
    (browserBindingHash : TokenHash) (consumedAt : Instant) : OidcLogins :=
  { v with
    callbacks := Function.update v.callbacks callback
      (.exchanging { record with consumedAt := some consumedAt })
    transactions := v.transactions.put { row with consumedAt := some consumedAt }
    consumed := v.consumed ++ [⟨row, callback, browserBindingHash, consumedAt⟩] }

/-- A callback has verified a token. -/
def verify (v : OidcLogins) (callback : Nat) (claims : TokenClaims) : OidcLogins :=
  { v with
    callbacks := Function.update v.callbacks callback (.verified claims.issuer claims.subject)
    claims := Function.update v.claims callback (some claims) }

/-- A callback ends with a session. -/
def issue (v : OidcLogins) (config : IdentityConfig) (callback : Nat) (user : UserAccount)
    (bound : OidcIdentity) (rawToken : String) (now : Instant) : OidcLogins :=
  { v with
    callbacks := Function.update v.callbacks callback .ended
    identities := v.identities.put { bound with lastLoginAt := some now }
    sessions := v.sessions.add (newSession config user.id rawToken now (.oidc callback)) }

/-- What a step does. -/
inductive Step (config : IdentityConfig) (v : OidcLogins) : OidcLogins → Prop
  /-- No session of a callback is new. -/
  | others {sessions : Table StoredSession}
    (h : ∀ x' ∈ sessions.rows, ∀ callback, x'.origin = .oidc callback →
      ∃ x ∈ v.sessions.rows, x.Descends x') :
    Step config v { v with sessions }
  | bound {f : Nat → OidcIdentity} (hf : ∀ k, key (f k) = k) :
    Step config v { v with identities := v.identities.add f hf }
  /-- Expired rows are deleted, one with another state is inserted. -/
  | started {keeps : OidcLoginTransaction → Bool} {f : Nat → OidcLoginTransaction}
    (hf : ∀ k, key (f k) = k) {stateHash : TokenHash} (hstate : ∀ k, (f k).stateHash = stateHash)
    (hfresh : stateHash ∉ v.states) :
    Step config v (v.start keeps f hf stateHash)
  | ended (callback : Nat) :
    Step config v { v with callbacks := Function.update v.callbacks callback .ended }
  | loaded {callback : Nat} {record : OidcLoginTransaction}
    {stateHash browserBindingHash : TokenHash} {consumedAt : Instant}
    (hidle : v.callbacks callback = .idle)
    (hrecord : record ∈ v.transactions.rows)
    (hconsumable : record.consumable stateHash browserBindingHash consumedAt) :
    Step config v { v with
      callbacks := Function.update v.callbacks callback
        (.loaded record stateHash browserBindingHash consumedAt) }
  | consumed {callback : Nat} {record row : OidcLoginTransaction}
    {stateHash browserBindingHash : TokenHash} {consumedAt : Instant}
    (hloaded : v.callbacks callback = .loaded record stateHash browserBindingHash consumedAt)
    (hrow : row ∈ v.transactions.rows)
    (hconsumable : row.consumable stateHash browserBindingHash consumedAt) :
    Step config v (v.consume callback record row browserBindingHash consumedAt)
  | verified {callback : Nat} {transaction : OidcLoginTransaction} {claims : TokenClaims}
    (hexchanging : v.callbacks callback = .exchanging transaction)
    (hnonce : tokenHash claims.nonce = transaction.nonceHash) :
    Step config v (v.verify callback claims)
  | identified {callback : Nat} {subject : String} {identity : OidcIdentity}
    (hverified : v.callbacks callback = .verified config.oidcIssuer subject)
    (hidentity : identity ∈ v.identities.rows) (hissuer : identity.issuer = config.oidcIssuer)
    (hsubject : identity.subject = subject) :
    Step config v { v with
      callbacks := Function.update v.callbacks callback (.identified identity) }
  | authorized {callback : Nat} {identity : OidcIdentity} {user : UserAccount}
    (hidentified : v.callbacks callback = .identified identity)
    (huser : user.id = identity.userId) :
    Step config v { v with
      callbacks := Function.update v.callbacks callback (.authorized user identity) }
  | issued {callback : Nat} {user : UserAccount} {identity bound : OidcIdentity}
    {rawToken : String} {now : Instant}
    (hauthorized : v.callbacks callback = .authorized user identity)
    (hbound : bound ∈ v.identities.rows) (huser : bound.userId = user.id)
    (hissuer : bound.issuer = identity.issuer) (hsubject : bound.subject = identity.subject) :
    Step config v (v.issue config callback user bound rawToken now)
  | restarted :
    Step config v { v with
      callbacks := fun callback => match v.callbacks callback with
        | .idle => .idle
        | _ => .ended }

/-! ## The invariant -/

/-- That a callback has consumed a transaction with this nonce. -/
def Consumed (v : OidcLogins) (callback : Nat) (nonceHash : TokenHash) : Prop :=
  ∃ k ∈ v.consumed, k.callback = callback ∧ k.transaction.nonceHash = nonceHash

/-- That a callback has verified a token for this subject with the nonce of its transaction. -/
def Verified (v : OidcLogins) (callback : Nat) (issuer subject : String) : Prop :=
  ∃ claims, v.claims callback = some claims ∧ v.Consumed callback (tokenHash claims.nonce)
    ∧ claims.issuer = issuer ∧ claims.subject = subject

/-- That an account is bound to a subject. -/
def Bound (v : OidcLogins) (userId : Uuid) (issuer subject : String) : Prop :=
  ∃ identity ∈ v.identities.rows, identity.userId = userId ∧ identity.issuer = issuer
    ∧ identity.subject = subject

/-- What a callback knows. -/
def Knows (config : IdentityConfig) (v : OidcLogins) (callback : Nat) : CallbackProcess → Prop
  | .idle => ∀ k ∈ v.consumed, k.callback ≠ callback
  | .loaded record stateHash _ _ => (∀ k ∈ v.consumed, k.callback ≠ callback)
    ∧ stateHash ∈ v.states
    ∧ ∀ t ∈ v.transactions.rows, t.stateHash = stateHash → t.nonceHash = record.nonceHash
  | .exchanging transaction => v.Consumed callback transaction.nonceHash
  | .verified issuer subject => v.Verified callback issuer subject
  | .identified identity => v.Verified callback config.oidcIssuer identity.subject
    ∧ v.Bound identity.userId config.oidcIssuer identity.subject
    ∧ identity.issuer = config.oidcIssuer
  | .authorized user identity => v.Verified callback config.oidcIssuer identity.subject
    ∧ v.Bound user.id config.oidcIssuer identity.subject
    ∧ identity.issuer = config.oidcIssuer
  | .ended => True

/-- The invariant: what the transactions, the callbacks and the sessions say about each other. -/
structure Sound (config : IdentityConfig) (v : OidcLogins) : Prop where
  states : ∀ t ∈ v.transactions.rows, t.stateHash ∈ v.states
  unique : ∀ t ∈ v.transactions.rows, ∀ t' ∈ v.transactions.rows,
    t.stateHash = t'.stateHash → t = t'
  /-- What has been consumed is there no more, or marked. -/
  marked : ∀ k ∈ v.consumed, k.transaction.stateHash ∈ v.states
    ∧ ∀ t ∈ v.transactions.rows, t.stateHash = k.transaction.stateHash → t.consumedAt ≠ none
  fits : ∀ k ∈ v.consumed, k.transaction.browserBindingHash = k.browserBindingHash
    ∧ k.consumedAt < k.transaction.expiresAt
  onceState : (v.consumed.map (·.transaction.stateHash)).Nodup
  onceCallback : (v.consumed.map (·.callback)).Nodup
  knows : ∀ callback, v.Knows config callback (v.callbacks callback)
  sessions : ∀ x ∈ v.sessions.rows, ∀ callback, x.origin = .oidc callback →
    v.callbacks callback = .ended
      ∧ ∃ subject, v.Verified callback config.oidcIssuer subject
        ∧ v.Bound x.userId config.oidcIssuer subject
  onceSession : ∀ x ∈ v.sessions.rows, ∀ y ∈ v.sessions.rows, ∀ callback,
    x.origin = .oidc callback → y.origin = .oidc callback → x.id = y.id

variable {config : IdentityConfig} {v v' : OidcLogins} {callback : Nat}

/-! ## What a callback knows stays true -/

/-- Bindings are not taken back. -/
def KeepsBindings (identities identities' : Table OidcIdentity) : Prop :=
  ∀ i ∈ identities.rows, ∃ i' ∈ identities'.rows, i'.userId = i.userId ∧ i'.issuer = i.issuer
    ∧ i'.subject = i.subject

/-- What happens beside a callback. -/
structure Beside (callback : Nat) (v v' : OidcLogins) : Prop where
  consumed : ∀ k ∈ v.consumed, k ∈ v'.consumed
  others : ∀ k ∈ v'.consumed, k.callback = callback → k ∈ v.consumed
  states : ∀ stateHash ∈ v.states, stateHash ∈ v'.states
  transactions : ∀ t' ∈ v'.transactions.rows, t'.stateHash ∈ v.states →
    ∃ t ∈ v.transactions.rows, t.stateHash = t'.stateHash ∧ t.nonceHash = t'.nonceHash
  claims : v'.claims callback = v.claims callback
  identities : KeepsBindings v.identities v'.identities

theorem keepsBindings_refl (identities : Table OidcIdentity) :
    KeepsBindings identities identities :=
  fun i hi => ⟨i, hi, rfl, rfl, rfl⟩

theorem keepsBindings_put {identities : Table OidcIdentity} {bound bound' : OidcIdentity}
    (hbound : bound ∈ identities.rows) (hid : bound'.id = bound.id)
    (huser : bound'.userId = bound.userId) (hissuer : bound'.issuer = bound.issuer)
    (hsubject : bound'.subject = bound.subject) :
    KeepsBindings identities (identities.put bound') := by
  intro i hi
  by_cases hkey : i.id = bound.id
  · obtain rfl : i = bound := List.inj_on_of_nodup_map identities.nodup hi hbound hkey
    have hget := Table.get?_put_self (Table.get?_key hi) hid
    exact ⟨bound', Table.mem_of_get? hget, huser, hissuer, hsubject⟩
  · have hne : key bound' ≠ key i := fun h => hkey (h.symm.trans hid)
    have hget : (identities.put bound').get? (key i) = some i := by
      rw [Table.get?_put_of_ne hne]
      exact Table.get?_key hi
    exact ⟨i, Table.mem_of_get? hget, rfl, rfl, rfl⟩

namespace Beside

theorem verified {issuer subject : String} (h : Beside callback v v')
    (hv : v.Verified callback issuer subject) : v'.Verified callback issuer subject := by
  obtain ⟨claims, hclaims, ⟨k, hk, hcallback, hnonce⟩, hissuer, hsubject⟩ := hv
  exact ⟨claims, h.claims.trans hclaims, ⟨k, h.consumed k hk, hcallback, hnonce⟩, hissuer, hsubject⟩

theorem bound {userId : Uuid} {issuer subject : String} (h : Beside callback v v')
    (hv : v.Bound userId issuer subject) : v'.Bound userId issuer subject := by
  obtain ⟨i, hi, huser, hissuer, hsubject⟩ := hv
  obtain ⟨i', hi', huser', hissuer', hsubject'⟩ := h.identities i hi
  exact ⟨i', hi', huser'.trans huser, hissuer'.trans hissuer, hsubject'.trans hsubject⟩

theorem knows {process : CallbackProcess} (h : Beside callback v v')
    (hv : v.Knows config callback process) : v'.Knows config callback process := by
  have unused : (∀ k ∈ v.consumed, k.callback ≠ callback) →
      ∀ k ∈ v'.consumed, k.callback ≠ callback := by
    intro hnone k hk hcallback
    exact hnone k (h.others k hk hcallback) hcallback
  cases process with
  | idle => exact unused hv
  | loaded record stateHash browserBindingHash consumedAt =>
    obtain ⟨hnone, hstate, hnonce⟩ := hv
    refine ⟨unused hnone, h.states _ hstate, ?_⟩
    intro t' ht' hstate'
    obtain ⟨t, ht, hsame, hnonce'⟩ := h.transactions t' ht' (hstate' ▸ hstate)
    exact hnonce'.symm.trans (hnonce t ht (hsame.trans hstate'))
  | exchanging transaction =>
    obtain ⟨k, hk, hcallback, hnonce⟩ := hv
    exact ⟨k, h.consumed k hk, hcallback, hnonce⟩
  | verified issuer subject => exact h.verified hv
  | identified identity => exact ⟨h.verified hv.1, h.bound hv.2.1, hv.2.2⟩
  | authorized user identity => exact ⟨h.verified hv.1, h.bound hv.2.1, hv.2.2⟩
  | ended => trivial

end Beside

theorem knows_callbacks (callbacks : Nat → CallbackProcess) (process : CallbackProcess) :
    Knows config { v with callbacks } callback process ↔ v.Knows config callback process := by
  cases process <;> exact Iff.rfl

/-- What every callback knows after one has gone on. -/
theorem knows_update {process : CallbackProcess} {f : Nat → CallbackProcess}
    (hothers : ∀ other, other ≠ callback → v'.Knows config other (f other))
    (hself : v'.Knows config callback process) (other : Nat) :
    v'.Knows config other (Function.update f callback process other) := by
  by_cases h : other = callback
  · subst h
    rw [Function.update_self]
    exact hself
  · rw [Function.update_of_ne h]
    exact hothers other h

/-! ## Every step keeps the invariant -/

namespace Sound

/-- A callback goes on. -/
theorem setCallback {process : CallbackProcess} (hv : v.Sound config)
    (hknows : v.Knows config callback process)
    (hover : v.callbacks callback = .ended → process = .ended) :
    Sound config { v with callbacks := Function.update v.callbacks callback process } where
  states := hv.states
  unique := hv.unique
  marked := hv.marked
  fits := hv.fits
  onceState := hv.onceState
  onceCallback := hv.onceCallback
  knows := by
    apply knows_update
    · exact fun other _ => (knows_callbacks _ _).mpr (hv.knows other)
    · exact (knows_callbacks _ _).mpr hknows
  sessions := by
    intro x hx c horigin
    obtain ⟨hcallback, hrest⟩ := hv.sessions x hx c horigin
    refine ⟨?_, hrest⟩
    by_cases h : c = callback
    · subst h
      exact (Function.update_self c process v.callbacks).trans (hover hcallback)
    · exact (Function.update_of_ne h process v.callbacks).trans hcallback
  onceSession := hv.onceSession

/-- The sessions after a step that issues none. -/
theorem sessions_of_beside (hv : v.Sound config) (v' : OidcLogins)
    (hsessions : ∀ x' ∈ v'.sessions.rows, ∀ callback, x'.origin = .oidc callback →
      ∃ x ∈ v.sessions.rows, x.Descends x')
    (hbeside : ∀ callback, v.callbacks callback = .ended → Beside callback v v')
    (hover : ∀ callback, v.callbacks callback = .ended → v'.callbacks callback = .ended) :
    (∀ x ∈ v'.sessions.rows, ∀ callback, x.origin = .oidc callback →
      v'.callbacks callback = .ended ∧ ∃ subject, v'.Verified callback config.oidcIssuer subject
        ∧ v'.Bound x.userId config.oidcIssuer subject)
      ∧ ∀ x ∈ v'.sessions.rows, ∀ y ∈ v'.sessions.rows, ∀ callback,
        x.origin = .oidc callback → y.origin = .oidc callback → x.id = y.id := by
  refine ⟨?_, ?_⟩
  · intro x' hx' callback horigin
    obtain ⟨x, hx, hdescends⟩ := hsessions x' hx' callback horigin
    obtain ⟨hcallback, subject, hverified, hbound⟩ :=
      hv.sessions x hx callback (hdescends.origin.symm.trans horigin)
    have h := hbeside callback hcallback
    rw [hdescends.userId]
    exact ⟨hover callback hcallback, subject, h.verified hverified, h.bound hbound⟩
  · intro x' hx' y' hy' callback hxorigin hyorigin
    obtain ⟨x, hx, hxdescends⟩ := hsessions x' hx' callback hxorigin
    obtain ⟨y, hy, hydescends⟩ := hsessions y' hy' callback hyorigin
    rw [hxdescends.id, hydescends.id]
    exact hv.onceSession x hx y hy callback (hxdescends.origin.symm.trans hxorigin)
      (hydescends.origin.symm.trans hyorigin)

theorem same_sessions (v : OidcLogins) : ∀ x' ∈ v.sessions.rows, ∀ callback,
    x'.origin = .oidc callback → ∃ x ∈ v.sessions.rows, x.Descends x' :=
  fun x hx _ _ => ⟨x, hx, rfl, rfl, rfl, rfl, rfl, fun h => h⟩

theorem keepsBindings_add {identities : Table OidcIdentity} {f : Nat → OidcIdentity}
    (hf : ∀ k, key (f k) = k) : KeepsBindings identities (identities.add f hf) :=
  fun i hi => ⟨i, List.mem_append_left _ hi, rfl, rfl, rfl⟩

/-- Only sessions and bindings change. -/
theorem quiet {sessions : Table StoredSession} {identities : Table OidcIdentity}
    (hv : v.Sound config)
    (hsessions : ∀ x' ∈ sessions.rows, ∀ callback, x'.origin = .oidc callback →
      ∃ x ∈ v.sessions.rows, x.Descends x')
    (hidentities : KeepsBindings v.identities identities) :
    Sound config { v with sessions, identities } := by
  have hbeside : ∀ callback, Beside callback v { v with sessions, identities } := by
    intro callback
    exact ⟨fun k hk => hk, fun k hk _ => hk, fun _ h => h, fun t ht _ => ⟨t, ht, rfl, rfl⟩, rfl,
      hidentities⟩
  obtain ⟨hissued, honce⟩ := hv.sessions_of_beside { v with sessions, identities } hsessions
    (fun c _ => hbeside c) fun _ hover => hover
  exact ⟨hv.states, hv.unique, hv.marked, hv.fits, hv.onceState, hv.onceCallback,
    fun callback => (hbeside callback).knows (hv.knows callback), hissued, honce⟩

/-- Expired rows go and a row with a state that no row has had comes. -/
theorem started {keeps : OidcLoginTransaction → Bool} {f : Nat → OidcLoginTransaction}
    (hf : ∀ k, key (f k) = k) {stateHash : TokenHash} (hv : v.Sound config)
    (hstate : ∀ k, (f k).stateHash = stateHash) (hfresh : stateHash ∉ v.states) :
    Sound config (v.start keeps f hf stateHash) := by
  -- a row after the start is an old one that was kept or the new one
  have hrows : ∀ t ∈ ((v.transactions.keep keeps).add f hf).rows,
      t ∈ v.transactions.rows
        ∨ t.stateHash = stateHash ∧ t = f (v.transactions.keep keeps).next := by
    intro t ht
    rcases Table.mem_add ht with hold | rfl
    · exact .inl (List.mem_of_mem_filter hold)
    · exact .inr ⟨hstate _, rfl⟩
  have hold : ∀ t ∈ v.transactions.rows, t.stateHash ≠ stateHash :=
    fun t ht h => hfresh (h ▸ hv.states t ht)
  -- a callback under way saw other states than the new one
  have hbeside : ∀ callback, Beside callback v (v.start keeps f hf stateHash) := by
    intro callback
    refine ⟨fun k hk => hk, fun k hk _ => hk, fun h hmem => List.mem_cons_of_mem _ hmem, ?_, rfl,
      keepsBindings_refl _⟩
    intro t' ht' hmem
    obtain ht' | ⟨hnew, -⟩ := hrows t' ht'
    · exact ⟨t', ht', rfl, rfl⟩
    · exact absurd (hnew ▸ hmem) hfresh
  obtain ⟨hissued, honce⟩ := hv.sessions_of_beside (v.start keeps f hf stateHash) (same_sessions v)
    (fun c _ => hbeside c) fun _ hover => hover
  constructor
  case states =>
    intro t ht
    obtain ht | ⟨hnew, -⟩ := hrows t ht
    · exact List.mem_cons_of_mem _ (hv.states t ht)
    · exact hnew ▸ List.mem_cons_self
  case unique =>
    intro t ht t' ht' hsame
    obtain ht | ⟨hnew, rfl⟩ := hrows t ht
    · obtain ht' | ⟨hnew', -⟩ := hrows t' ht'
      · exact hv.unique t ht t' ht' hsame
      · exact absurd (hsame.trans hnew') (hold t ht)
    · obtain ht' | ⟨hnew', rfl⟩ := hrows t' ht'
      · exact absurd (hsame.symm.trans hnew) (hold t' ht')
      · rfl
  case marked =>
    intro k hk
    obtain ⟨hmem, hmarked⟩ := hv.marked k hk
    refine ⟨List.mem_cons_of_mem _ hmem, fun t ht hsame => ?_⟩
    obtain ht | ⟨hnew, -⟩ := hrows t ht
    · exact hmarked t ht hsame
    · exact absurd ((hsame.symm.trans hnew) ▸ hmem) hfresh
  case fits => exact hv.fits
  case onceState => exact hv.onceState
  case onceCallback => exact hv.onceCallback
  case knows => exact fun callback => (hbeside callback).knows (hv.knows callback)
  case sessions => exact hissued
  case onceSession => exact honce

section
variable {record row : OidcLoginTransaction} {stateHash browserBindingHash : TokenHash}
  {consumedAt : Instant}

/-- A transaction is marked as it is consumed. -/
theorem consumed (hv : v.Sound config)
    (hloaded : v.callbacks callback = .loaded record stateHash browserBindingHash consumedAt)
    (hrow : row ∈ v.transactions.rows)
    (hconsumable : row.consumable stateHash browserBindingHash consumedAt) :
    Sound config (v.consume callback record row browserBindingHash consumedAt) := by
  have hknows := hv.knows callback
  rw [hloaded] at hknows
  obtain ⟨hnone, hstate, hnonce⟩ := hknows
  simp only [OidcLoginTransaction.consumable, decide_eq_true_eq] at hconsumable
  obtain ⟨hsame, hbinding, hunmarked, hexpires⟩ := hconsumable
  have hrows : ∀ t ∈ (v.transactions.put { row with consumedAt := some consumedAt }).rows,
      t = { row with consumedAt := some consumedAt }
        ∨ t ∈ v.transactions.rows ∧ t.stateHash ≠ row.stateHash := by
    intro t ht
    obtain rfl | ⟨hold, hkey⟩ := Table.mem_put ht
    · exact .inl rfl
    · refine .inr ⟨hold, fun h => hkey ?_⟩
      rw [hv.unique t hold row hrow h]
      rfl
  -- what the other callbacks know is not about this transaction
  have hbeside : ∀ other, other ≠ callback →
      Beside other v (v.consume callback record row browserBindingHash consumedAt) := by
    intro other hother
    refine ⟨fun k hk => List.mem_append_left _ hk, ?_, fun _ h => h, ?_, rfl, keepsBindings_refl _⟩
    · intro k hk hcallback
      rcases List.mem_append.mp hk with hold | hnew
      · exact hold
      · obtain rfl := List.mem_singleton.mp hnew
        exact absurd hcallback.symm hother
    · intro t' ht' _
      obtain rfl | ⟨hold, -⟩ := hrows t' ht'
      · exact ⟨row, hrow, rfl, rfl⟩
      · exact ⟨t', hold, rfl, rfl⟩
  -- a callback that has issued a session is over, so it is another one
  have hover : ∀ other, v.callbacks other = .ended → other ≠ callback := by
    rintro other hother rfl
    rw [hloaded] at hother
    cases hother
  obtain ⟨hissued, honce⟩ := hv.sessions_of_beside
    (v.consume callback record row browserBindingHash consumedAt) (same_sessions v)
    (fun c hc => hbeside c (hover c hc))
    fun c hc => (Function.update_of_ne (hover c hc) _ _).trans hc
  constructor
  case states =>
    intro t ht
    obtain rfl | ⟨hold, -⟩ := hrows t ht
    · exact hv.states row hrow
    · exact hv.states t hold
  case unique =>
    intro t ht t' ht' h
    obtain rfl | ⟨hold, hne⟩ := hrows t ht
    · obtain rfl | ⟨hold', hne'⟩ := hrows t' ht'
      · rfl
      · exact absurd h.symm hne'
    · obtain rfl | ⟨hold', -⟩ := hrows t' ht'
      · exact absurd h hne
      · exact hv.unique t hold t' hold' h
  case marked =>
    intro k hk
    rcases List.mem_append.mp hk with hold | hnew
    · refine ⟨(hv.marked k hold).1, fun t ht h => ?_⟩
      obtain rfl | ⟨hold', -⟩ := hrows t ht
      · simp
      · exact (hv.marked k hold).2 t hold' h
    · obtain rfl := List.mem_singleton.mp hnew
      refine ⟨hv.states row hrow, fun t ht h => ?_⟩
      obtain rfl | ⟨-, hne⟩ := hrows t ht
      · simp
      · exact absurd h hne
  case fits =>
    intro k hk
    rcases List.mem_append.mp hk with hold | hnew
    · exact hv.fits k hold
    · obtain rfl := List.mem_singleton.mp hnew
      exact ⟨hbinding, hexpires⟩
  case onceState =>
    show ((v.consumed ++ [_]).map _).Nodup
    rw [List.map_append, List.nodup_append]
    refine ⟨hv.onceState, List.nodup_singleton _, ?_⟩
    rintro _ hold _ hnew rfl
    obtain ⟨k, hk, hstate'⟩ := List.mem_map.mp hold
    rw [List.map_singleton, List.mem_singleton] at hnew
    -- a row whose transaction had been consumed before would be marked
    exact (hv.marked k hk).2 row hrow (hnew.symm.trans hstate'.symm) hunmarked
  case onceCallback =>
    show ((v.consumed ++ [_]).map _).Nodup
    rw [List.map_append, List.nodup_append]
    refine ⟨hv.onceCallback, List.nodup_singleton _, ?_⟩
    rintro _ hold _ hnew rfl
    obtain ⟨k, hk, hcallback⟩ := List.mem_map.mp hold
    rw [List.map_singleton, List.mem_singleton] at hnew
    exact hnone k hk (hcallback.trans hnew)
  case knows =>
    intro other
    apply knows_update
    · exact fun other hother => (hbeside other hother).knows (hv.knows other)
    · exact ⟨_, List.mem_append_right _ List.mem_cons_self, rfl, hnonce row hrow hsame⟩
  case sessions => exact hissued
  case onceSession => exact honce

end

/-- A token has the nonce of the transaction. -/
theorem verified {transaction : OidcLoginTransaction} {claims : TokenClaims} (hv : v.Sound config)
    (hexchanging : v.callbacks callback = .exchanging transaction)
    (hnonce : tokenHash claims.nonce = transaction.nonceHash) :
    Sound config (v.verify callback claims) := by
  have hconsumed := hv.knows callback
  rw [hexchanging] at hconsumed
  have hbeside : ∀ other, other ≠ callback → Beside other v (v.verify callback claims) := by
    intro other hother
    exact ⟨fun k hk => hk, fun k hk _ => hk, fun _ h => h, fun t ht _ => ⟨t, ht, rfl, rfl⟩,
      Function.update_of_ne hother _ _, keepsBindings_refl _⟩
  have hover : ∀ other, v.callbacks other = .ended → other ≠ callback := by
    rintro other hother rfl
    rw [hexchanging] at hother
    cases hother
  obtain ⟨hissued, honce⟩ := hv.sessions_of_beside (v.verify callback claims) (same_sessions v)
    (fun c hc => hbeside c (hover c hc))
    fun c hc => (Function.update_of_ne (hover c hc) _ _).trans hc
  refine ⟨hv.states, hv.unique, hv.marked, hv.fits, hv.onceState, hv.onceCallback, ?_, hissued,
    honce⟩
  intro other
  apply knows_update
  · exact fun other hother => (hbeside other hother).knows (hv.knows other)
  · obtain ⟨k, hk, hcallback, hsame⟩ := hconsumed
    exact ⟨claims, Function.update_self callback _ v.claims,
      ⟨k, hk, hcallback, hsame.trans hnonce.symm⟩, rfl, rfl⟩

/-- The session of a callback is its last step. -/
theorem issued {user : UserAccount} {identity bound : OidcIdentity} {rawToken : String}
    {now : Instant} (hv : v.Sound config)
    (hauthorized : v.callbacks callback = .authorized user identity)
    (hbound : bound ∈ v.identities.rows) :
    Sound config (v.issue config callback user bound rawToken now) := by
  have hknows := hv.knows callback
  rw [hauthorized] at hknows
  obtain ⟨hverified, hboundUser, -⟩ := hknows
  have hidentities : KeepsBindings v.identities
      (v.identities.put { bound with lastLoginAt := some now }) :=
    keepsBindings_put hbound rfl rfl rfl rfl
  have hbeside : ∀ other, Beside other v (v.issue config callback user bound rawToken now) := by
    intro other
    exact ⟨fun k hk => hk, fun k hk _ => hk, fun _ h => h, fun t ht _ => ⟨t, ht, rfl, rfl⟩, rfl,
      hidentities⟩
  have hunissued : ∀ x ∈ v.sessions.rows, x.origin ≠ .oidc callback := by
    intro x hx horigin
    have hover := (hv.sessions x hx callback horigin).1
    rw [hauthorized] at hover
    cases hover
  refine ⟨hv.states, hv.unique, hv.marked, hv.fits, hv.onceState, hv.onceCallback, ?_, ?_, ?_⟩
  · intro other
    apply knows_update
    · exact fun other _ => (hbeside other).knows (hv.knows other)
    · trivial
  · intro x hx c horigin
    rcases Accounts.mem_add_session hx with hold | rfl
    · obtain ⟨hcallback, subject, hverified', hbound'⟩ := hv.sessions x hold c horigin
      have hne : c ≠ callback := by
        rintro rfl
        exact hunissued x hold horigin
      exact ⟨(Function.update_of_ne hne _ _).trans hcallback, subject,
        (hbeside c).verified hverified', (hbeside c).bound hbound'⟩
    · obtain rfl := SessionOrigin.oidc.inj horigin
      exact ⟨Function.update_self _ _ v.callbacks, identity.subject,
        (hbeside _).verified hverified, (hbeside callback).bound hboundUser⟩
  · intro x hx y hy c hxorigin hyorigin
    rcases Accounts.mem_add_session hx with hxold | rfl
    · rcases Accounts.mem_add_session hy with hyold | rfl
      · exact hv.onceSession x hxold y hyold c hxorigin hyorigin
      · obtain rfl := SessionOrigin.oidc.inj hyorigin
        exact absurd hxorigin (hunissued x hxold)
    · rcases Accounts.mem_add_session hy with hyold | rfl
      · obtain rfl := SessionOrigin.oidc.inj hxorigin
        exact absurd hyorigin (hunissued y hyold)
      · rfl

/-- After a restart the callbacks that were on their way are over. -/
theorem restarted (hv : v.Sound config) :
    Sound config { v with
      callbacks := fun callback => match v.callbacks callback with
        | .idle => .idle
        | _ => .ended } := by
  refine ⟨hv.states, hv.unique, hv.marked, hv.fits, hv.onceState, hv.onceCallback, ?_, ?_,
    hv.onceSession⟩
  · intro callback
    have hknows := hv.knows callback
    dsimp only
    cases hcallback : v.callbacks callback with
    | idle =>
      rw [hcallback] at hknows
      exact hknows
    | _ => trivial
  · intro x hx callback horigin
    obtain ⟨hover, hrest⟩ := hv.sessions x hx callback horigin
    refine ⟨?_, hrest⟩
    dsimp only
    rw [hover]

end Sound

theorem Step.sound (hv : v.Sound config) (h : Step config v v') : v'.Sound config := by
  cases h with
  | others hsessions => exact hv.quiet hsessions (keepsBindings_refl _)
  | bound hf => exact hv.quiet (Sound.same_sessions v) (Sound.keepsBindings_add hf)
  | started hf hstate hfresh => exact hv.started hf hstate hfresh
  | ended callback => exact hv.setCallback trivial fun _ => rfl
  | @loaded callback record stateHash browserBindingHash consumedAt hidle hrecord hconsumable =>
    have hknows := hv.knows callback
    rw [hidle] at hknows
    simp only [OidcLoginTransaction.consumable, decide_eq_true_eq] at hconsumable
    apply hv.setCallback
    · refine ⟨hknows, hconsumable.1 ▸ hv.states record hrecord, fun t ht h => ?_⟩
      rw [hv.unique t ht record hrecord (h.trans hconsumable.1.symm)]
    · intro hover
      rw [hidle] at hover
      cases hover
  | consumed hloaded hrow hconsumable => exact hv.consumed hloaded hrow hconsumable
  | verified hexchanging hnonce => exact hv.verified hexchanging hnonce
  | @identified callback subject identity hverified hidentity hissuer hsubject =>
    have hknows := hv.knows callback
    rw [hverified] at hknows
    apply hv.setCallback
    · exact ⟨hsubject ▸ hknows, ⟨identity, hidentity, rfl, hissuer, rfl⟩, hissuer⟩
    · intro hover
      rw [hverified] at hover
      cases hover
  | @authorized callback identity user hidentified huser =>
    have hknows := hv.knows callback
    rw [hidentified] at hknows
    apply hv.setCallback
    · exact ⟨hknows.1, huser ▸ hknows.2.1, hknows.2.2⟩
    · intro hover
      rw [hidentified] at hover
      cases hover
  | issued hauthorized hbound huser hissuer hsubject => exact hv.issued hauthorized hbound
  | restarted => exact hv.restarted

end OidcLogins

end QaPlatform.Services
