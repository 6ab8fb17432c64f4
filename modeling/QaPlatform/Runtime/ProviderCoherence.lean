import QaPlatform.Runtime.ProviderSteps

/-!
# Runs keep their connection

What a step of the whole system can do to each of its parts, and the first
invariant: everything under way for a run (an attempt, a poll, a decision) works
for a run that exists and for a provider of the kind of the run's connection.
-/

namespace QaPlatform.Runtime

open Pipeline

namespace AttemptPhase

/-- The attempt may still call its provider. -/
def Active (phase : AttemptPhase) : Prop :=
  phase = .claimed ∨ phase = .checked

instance : ∀ phase : AttemptPhase, Decidable phase.Active
  | .claimed => .isTrue (.inl rfl)
  | .checked => .isTrue (.inr rfl)
  | .answered _ => .isFalse (by simp [Active])
  | .closed => .isFalse (by simp [Active])

/-- The answer is one that a provider of the kind can give. -/
def Fits (kind : ProviderKind) : AttemptPhase → Prop
  | .answered (.run run) => run.provider = kind
  | .answered (.failure _ retryable) => retryable = true → kind = .learningCi
  | .claimed | .checked | .closed => True

end AttemptPhase

namespace ProviderSystem

variable {safety : RuntimeSafetyConfig} {s : ProviderSystem}

@[simp] theorem setPhase_store (s : ProviderSystem) (a : DispatchAttempt) (phase : AttemptPhase) :
    (s.setPhase a phase).store = s.store := rfl

@[simp] theorem recordCall_store (s : ProviderSystem) (a : DispatchAttempt) :
    (s.recordCall a).store = s.store := rfl

theorem commit_store (s : ProviderSystem) (result : Except DomainError ProviderStore) :
    (s.commit result).store = s.store ∨ result = .ok (s.commit result).store := by
  cases result with
  | error e => exact .inl rfl
  | ok store => exact .inr rfl

@[simp] theorem checkVersion_store (s : ProviderSystem) (a : DispatchAttempt) :
    (s.checkVersion a).store = s.store := by
  unfold checkVersion
  split
  · rfl
  · split
    · rfl
    · rfl

@[simp] theorem callTrigger_store (s : ProviderSystem) (a : DispatchAttempt)
    (answer : TriggerAnswer) (generated : String) :
    (s.callTrigger a answer generated).store = s.store := by
  unfold callTrigger
  dsimp only
  split
  · rfl
  cases answer with
  | unavailable => rfl
  | raised error => rfl
  | returned run =>
    dsimp only
    split
    · rfl
    · rfl
  | lost => rfl

/-- The moves that an event can try. -/
inductive MoveOf (s : ProviderSystem) : ProviderEvent → Uuid → RunGraph.Move → Prop
  | claim (workerId : String) (leaseSeconds : Int) (token : String) (now : Instant)
      (skipped : List Uuid) (g : RunGraph) (hcand : s.store.claimCandidate now skipped = some g) :
      MoveOf s (.claim workerId leaseSeconds token now skipped) g.run.id
        (.claim (strip workerId) token leaseSeconds now)
  | finalize (a : DispatchAttempt) (run : ProviderRun) (now : Instant)
      (ha : s.attempts.get? a.id = some a) (hp : a.phase = .answered (.run run)) :
      MoveOf s (.settle a.id now) a.claimed.runId (.finalize a.claimed.leaseToken run now)
  | settle (a : DispatchAttempt) (errorCode : String) (retryable : Bool) (now : Instant)
      (ha : s.attempts.get? a.id = some a)
      (hp : a.phase = .answered (.failure errorCode retryable)) :
      MoveOf s (.settle a.id now) a.claimed.runId
        (.settleFailure a.claimed.leaseToken errorCode retryable now)
  | cancel (connectionId runId : Uuid) (now : Instant) :
      MoveOf s (.prepareRefresh connectionId runId true now) runId (.cancelBeforeDispatch now)
  | refresh (pending : Nat) (run : ProviderRun) (now : Instant) (p : ProviderStore.PendingRefresh)
      (hp : p ∈ s.refreshes) (hprovider : p.kind = .local ∨ run.provider = p.kind) :
      MoveOf s (.commitRefresh pending run now) p.runId
        (.commitRefresh p.expectedVersion (p.answer run) now)
  | decide (pending : Nat) (run : ProviderRun) (now : Instant) (p : ProviderStore.PendingDecision)
      (hp : p ∈ s.decisions) (hprovider : run.provider = p.kind) :
      MoveOf s (.commitDecision pending run now) p.runId
        (.commitDecision p.payload p.actor p.expectedVersion run now)
  | webhook (connectionId : Uuid) (eventId : String) (body : Digest String)
      (payload : ProviderWebhookPayload) (now : Instant) (g : RunGraph)
      (htarget : s.store.webhookTarget connectionId payload = some g) :
      MoveOf s (.webhook connectionId eventId body payload now) g.run.id (.webhook payload now)

theorem moveOf_inv {e : ProviderEvent} {k : Uuid} {mv : RunGraph.Move}
    (h : s.moveOf e = some (k, mv)) : MoveOf s e k mv := by
  cases e with
  | createConnection => simp [moveOf] at h
  | updateConnection => simp [moveOf] at h
  | deleteConnection => simp [moveOf] at h
  | triggerProvider => simp [moveOf] at h
  | checkVersion => simp [moveOf] at h
  | callTrigger => simp [moveOf] at h
  | crash => simp [moveOf] at h
  | prepareDecision => simp [moveOf] at h
  | claim workerId leaseSeconds token now skipped =>
    obtain ⟨g, hg, hmv⟩ := Option.map_eq_some_iff.mp h
    obtain ⟨rfl, rfl⟩ := Prod.mk.inj hmv
    exact .claim workerId leaseSeconds token now skipped g hg
  | settle attemptId now =>
    unfold moveOf at h
    dsimp only at h
    split at h
    · next a ha =>
      obtain rfl : a.id = attemptId := Table.key_of_get? ha
      split at h
      · next run hp =>
        obtain ⟨rfl, rfl⟩ := Prod.mk.inj (Option.some.inj h)
        exact .finalize a run now ha hp
      · next errorCode retryable hp =>
        obtain ⟨rfl, rfl⟩ := Prod.mk.inj (Option.some.inj h)
        exact .settle a errorCode retryable now ha hp
      · simp at h
    · simp at h
  | prepareRefresh connectionId runId cancel now =>
    -- a poll moves nothing, and a cancel moves the run when nothing has been dispatched
    cases cancel with
    | false => simp [moveOf] at h
    | true =>
      obtain ⟨rfl, rfl⟩ := Prod.mk.inj (Option.some.inj h)
      exact .cancel connectionId runId now
  | commitRefresh pending run now =>
    unfold moveOf at h
    dsimp only at h
    split at h
    · next p hp =>
      split at h
      · next hprovider =>
        obtain ⟨rfl, rfl⟩ := Prod.mk.inj (Option.some.inj h)
        exact .refresh pending run now p (List.mem_of_getElem? hp) hprovider
      · simp at h
    · simp at h
  | commitDecision pending run now =>
    unfold moveOf at h
    dsimp only at h
    split at h
    · next p hp =>
      split at h
      · next hprovider =>
        obtain ⟨rfl, rfl⟩ := Prod.mk.inj (Option.some.inj h)
        exact .decide pending run now p (List.mem_of_getElem? hp) hprovider
      · simp at h
    · simp at h
  | webhook connectionId eventId body payload now =>
    obtain ⟨g, hg, hmv⟩ := Option.map_eq_some_iff.mp h
    obtain ⟨rfl, rfl⟩ := Prod.mk.inj hmv
    exact .webhook connectionId eventId body payload now g hg

/-- The run whose intent the event claims. -/
def claimedBy (s : ProviderSystem) : ProviderEvent → Option RunGraph
  | .claim workerId leaseSeconds _ now skipped =>
    if ProviderStore.ValidDispatch workerId leaseSeconds then s.store.claimCandidate now skipped
    else none
  | _ => none

theorem claimedBy_claim {workerId : String} {leaseSeconds : Int} {now : Instant}
    {skipped : List Uuid} {g : RunGraph} (token : String)
    (hvalid : ProviderStore.ValidDispatch workerId leaseSeconds)
    (hcand : s.store.claimCandidate now skipped = some g) :
    s.claimedBy (.claim workerId leaseSeconds token now skipped) = some g := by
  simp [claimedBy, hvalid, hcand]

/-- A dispatcher with other parameters is refused. -/
theorem claim_of_not_valid {workerId : String} {leaseSeconds : Int} (token : String)
    (now : Instant) (skipped : List Uuid)
    (h : ¬ ProviderStore.ValidDispatch workerId leaseSeconds) :
    s.claim workerId leaseSeconds token now skipped = s := by
  unfold claim
  split
  · next store claimed hok => exact absurd (ProviderStore.claimProviderTrigger_ok hok).1 h
  · rfl
  · rfl

/-- What a step does to the tables of the database. -/
inductive StoreStep (safety : RuntimeSafetyConfig) (s : ProviderSystem) :
    ProviderEvent → ProviderStore → Prop
  | idle (e : ProviderEvent) : StoreStep safety s e s.store
  | created (payload : ProviderConnectionCreate) (now : Instant)
      (f : Nat → ProviderConnectionRecord) (hf : ∀ k, key (f k) = k) :
      StoreStep safety s (.createConnection payload now)
        { s.store with connections := s.store.connections.add f hf }
  | updated (connectionId : Uuid) (payload : ProviderConnectionPatch) (now : Instant)
      (old c : ProviderConnectionRecord) (hold : s.store.connections.get? connectionId = some old)
      (hid : c.id = old.id) (hkind : c.kind = old.kind) (hversion : c.version = old.version + 1) :
      StoreStep safety s (.updateConnection connectionId payload now)
        { s.store with connections := s.store.connections.put c }
  | deleted (connectionId : Uuid)
      (hunused : ∀ g ∈ s.store.graphs.rows, g.run.connectionId ≠ connectionId) :
      StoreStep safety s (.deleteConnection connectionId)
        { s.store with connections := s.store.connections.erase connectionId }
  | triggered (connectionId : Uuid) (payload : ProviderTriggerPayload)
      (actor : Option RunGraph.Actor) (generated : String) (now : Instant)
      (c : ProviderConnectionRecord) (request : ProviderTriggerRequest)
      (fingerprint : Digest Json) (hc : s.store.connections.get? connectionId = some c)
      (href : request.definitionRef = c.definitionRef) :
      StoreStep safety s (.triggerProvider connectionId payload actor generated now)
        { s.store with
          graphs := s.store.graphs.add
            (ProviderStore.triggeredGraph c request fingerprint actor now) }
  | moved (e : ProviderEvent) (k : Uuid) (mv : RunGraph.Move) (g : RunGraph)
      (hmove : s.moveOf e = some (k, mv)) (hg : s.store.graphs.get? k = some g)
      (hnot : ∀ payload now, mv ≠ .webhook payload now) :
      StoreStep safety s e { s.store with graphs := s.store.graphs.put (g.move mv) }
  | received (connectionId : Uuid) (eventId : String) (body : Digest String)
      (payload : ProviderWebhookPayload) (now : Instant) (c : ProviderConnectionRecord)
      (g : RunGraph) (f : Nat → ProviderWebhookEventRecord) (hf : ∀ k, key (f k) = k)
      (hc : s.store.connections.get? connectionId = some c) (hkind : c.kind = .learningCi)
      (htarget : s.store.webhookTarget connectionId payload = some g)
      (hg : s.store.graphs.get? g.run.id = some g) (hconn : g.run.connectionId = connectionId)
      (haccepted : (g.webhook payload now).isOk)
      (hf' : (f s.store.receipts.next).runId = g.run.id)
      (hreceives : s.store.Receives safety connectionId eventId payload) :
      StoreStep safety s (.webhook connectionId eventId body payload now)
        { s.store with
          graphs := s.store.graphs.put (g.move (.webhook payload now))
          receipts := s.store.receipts.add f hf }

/-- A transaction that made the move of its event, or was rolled back. -/
theorem storeStep_of_moves {e : ProviderEvent} {k : Uuid} {mv : RunGraph.Move}
    {result : Except DomainError ProviderStore} (hmove : s.moveOf e = some (k, mv))
    (hnot : ∀ payload now, mv ≠ .webhook payload now)
    (h : ∀ s', result = .ok s' → s.store.Moves s' k mv) :
    StoreStep safety s e (s.commit result).store := by
  rcases s.commit_store result with hr | hr
  · rw [hr]
    exact .idle e
  · obtain ⟨g, hg, hs'⟩ := h _ hr
    rw [hs']
    exact .moved e k mv g hmove hg hnot

/-- The inversion of a step, as far as the database goes. -/
theorem storeStep (safety : RuntimeSafetyConfig) (s : ProviderSystem) (e : ProviderEvent) :
    StoreStep safety s e (step safety s e).store := by
  cases e with
  | createConnection payload now =>
    rcases s.commit_store (s.store.createConnection payload now) with h | h
    · exact h ▸ .idle _
    · obtain ⟨f, hf, hs'⟩ := ProviderStore.createConnection_ok h
      exact hs' ▸ .created payload now f hf
  | updateConnection connectionId payload now =>
    rcases s.commit_store (s.store.updateConnection connectionId payload now) with h | h
    · exact h ▸ .idle _
    · obtain ⟨old, c, hold, hid, hkind, hversion, hs'⟩ := ProviderStore.updateConnection_ok h
      exact hs' ▸ .updated connectionId payload now old c hold hid hkind hversion
  | deleteConnection connectionId =>
    rcases s.commit_store (s.store.deleteConnection connectionId) with h | h
    · exact h ▸ .idle _
    · obtain ⟨hunused, hs'⟩ := ProviderStore.deleteConnection_ok h
      exact hs' ▸ .deleted connectionId hunused
  | triggerProvider connectionId payload actor generated now =>
    rcases s.commit_store (s.store.triggerProvider safety connectionId payload actor generated now)
      with h | h
    · exact h ▸ .idle _
    · rcases ProviderStore.triggerProvider_ok h with hs' | ⟨c, request, fingerprint, hc, href, hs'⟩
      · exact hs' ▸ .idle _
      · exact hs' ▸ .triggered connectionId payload actor generated now c request
          fingerprint hc href
  | claim workerId leaseSeconds token now skipped =>
    show StoreStep safety s _ (s.claim workerId leaseSeconds token now skipped).store
    unfold claim
    split
    · next store claimed h =>
      -- the only statement of a dispatcher that writes the rows before there is an answer
      obtain ⟨-, g, c, hcand, hg, hclaimable, -, rfl, -⟩ := ProviderStore.claimProviderTrigger_ok h
      have hmove : s.moveOf (.claim workerId leaseSeconds token now skipped)
          = some (g.run.id, .claim (strip workerId) token leaseSeconds now) := by
        simp [moveOf, hcand]
      have hstep : StoreStep safety s _ _ := .moved _ _ _ g hmove hg (by simp)
      rw [RunGraph.move_claim, if_pos hclaimable] at hstep
      exact hstep
    · exact .idle _
    · exact .idle _
  | checkVersion attemptId =>
    unfold step
    dsimp only
    split
    · split
      · rw [checkVersion_store]
        exact .idle _
      · exact .idle _
    · exact .idle _
  | callTrigger attemptId answer generated =>
    unfold step
    dsimp only
    split
    · split
      · rw [callTrigger_store]
        exact .idle _
      · exact .idle _
    · exact .idle _
  | settle attemptId now =>
    unfold step
    dsimp only
    cases ha : s.attempts.get? attemptId with
    | none => exact .idle _
    | some a =>
      dsimp only
      cases hp : a.phase with
      | claimed => exact .idle _
      | checked => exact .idle _
      | closed => exact .idle _
      | answered outcome =>
        cases outcome with
        | run run =>
          exact storeStep_of_moves (by simp [moveOf, ha, hp]) (by simp)
            fun s' h => ProviderStore.finalizeProviderTrigger_ok h
        | failure errorCode retryable =>
          exact storeStep_of_moves (by simp [moveOf, ha, hp]) (by simp)
            fun s' h => ProviderStore.settleProviderTriggerFailure_ok h
  | crash attemptId =>
    unfold step
    dsimp only
    split
    · exact .idle _
    · exact .idle _
  | prepareRefresh connectionId runId cancel now =>
    unfold step
    dsimp only
    split
    · next store pending h =>
      rcases ProviderStore.prepareRefresh_ok h with
        ⟨hp, -⟩ | ⟨hp, -⟩ | ⟨_, _, _, _, _, _, _, _, _, _, _, _, _, hs'⟩
      · simp at hp
      · simp at hp
      · exact hs' ▸ .idle _
    -- a cancel before dispatch is settled in the transaction that would have prepared the call
    · next store h =>
      rcases ProviderStore.prepareRefresh_ok h with
        ⟨-, hs'⟩ | ⟨-, hcancel, g, hg, hs'⟩ | ⟨_, _, _, _, _, _, _, _, _, _, _, _, hp, _⟩
      · exact hs' ▸ .idle _
      · exact hs' ▸ .moved _ runId _ g (by simp [moveOf, hcancel]) hg (by simp)
      · simp at hp
    · exact .idle _
  | commitRefresh pending run now =>
    unfold step
    dsimp only
    cases hp : s.refreshes[pending]? with
    | none => exact .idle _
    | some p =>
      dsimp only
      split
      · next hkind =>
        exact storeStep_of_moves (by simp [moveOf, hp, hkind]) (by simp)
          fun s' h => ProviderStore.commitRefresh_ok h
      · exact .idle _
  | prepareDecision connectionId runId payload actor =>
    unfold step
    dsimp only
    split
    · exact .idle _
    · exact .idle _
    · exact .idle _
  | commitDecision pending run now =>
    unfold step
    dsimp only
    cases hp : s.decisions[pending]? with
    | none => exact .idle _
    | some p =>
      dsimp only
      split
      · next hkind =>
        exact storeStep_of_moves (by simp [moveOf, hp, hkind]) (by simp)
          fun s' h => ProviderStore.commitDecision_ok h
      · exact .idle _
  | webhook connectionId eventId body payload now =>
    rcases s.commit_store
      (s.store.processLearningCiWebhook safety connectionId eventId body payload now) with h | h
    · exact h ▸ .idle _
    -- an event that has a receipt already is answered without a write
    · rcases ProviderStore.processLearningCiWebhook_ok h with
        hs' | ⟨c, g, g', _, f, hf, hc, hkind, hreceives, htarget, hg, hconn, hok, rfl, hrun, hs'⟩
      · exact hs' ▸ .idle _
      · exact hs' ▸ .received connectionId eventId body payload now c g f hf hc hkind htarget hg
          hconn (by rw [hok]; rfl) hrun hreceives

/-- A webhook that is refused, or that has been received before, does nothing. -/
def Takes (safety : RuntimeSafetyConfig) (s : ProviderSystem) : ProviderEvent → Prop
  | .webhook connectionId eventId _ payload _ =>
    s.store.Receives safety connectionId eventId payload
  | _ => True

instance (safety : RuntimeSafetyConfig) (s : ProviderSystem) (e : ProviderEvent) :
    Decidable (s.Takes safety e) := by
  unfold Takes
  cases e <;> infer_instance

/-- A webhook about the run has been received and kept. -/
def Received (s : ProviderStore) (k : Uuid) : Prop :=
  ∃ r ∈ s.receipts.rows, r.runId = k

instance (s : ProviderStore) (k : Uuid) : Decidable (Received s k) := by
  unfold Received
  infer_instance

/-- A step leaves the rows of a run alone or makes the one move that its event
names; a run that was not there before has just been triggered. -/
theorem StoreStep.graphs {e : ProviderEvent} {store' : ProviderStore}
    (h : StoreStep safety s e store') (k : Uuid) :
    store'.graphs.get? k = s.store.graphs.get? k
    ∨ (∃ g mv, s.store.graphs.get? k = some g ∧ s.moveOf e = some (k, mv)
      ∧ (s.Takes safety e ∧ ∀ payload now, mv = .webhook payload now → Received store' k)
      ∧ store'.graphs.get? k = some (g.move mv))
    ∨ (∃ c request fingerprint actor now, s.store.graphs.get? k = none
      ∧ s.store.connections.get? c.id = some c ∧ request.definitionRef = c.definitionRef
      ∧ store'.connections = s.store.connections
      ∧ store'.graphs.get? k
        = some (ProviderStore.triggeredGraph c request fingerprint actor now k)) := by
  cases h with
  | idle => exact .inl rfl
  | created => exact .inl rfl
  | updated => exact .inl rfl
  | deleted => exact .inl rfl
  | triggered connectionId payload actor generated now c request fingerprint hc href =>
    by_cases hk : s.store.graphs.next = k
    · subst hk
      refine .inr (.inr ⟨c, request, fingerprint, actor, now, Table.get?_next _, ?_, href, rfl, ?_⟩)
      · rw [show c.id = connectionId from Table.key_of_get? hc]
        exact hc
      · exact (Table.get?_add _ _ (fun _ => rfl) _).trans (if_pos rfl)
    · exact .inl ((Table.get?_add _ _ (fun _ => rfl) _).trans (if_neg hk))
  | moved _ k' mv g hmove hg hnot =>
    dsimp only
    rw [ProviderStore.get?_put_move hg]
    by_cases hk : k' = k
    · subst hk
      have htakes : ∀ e, s.moveOf e = some (k', mv) → s.Takes safety e := by
        intro e hmove
        cases moveOf_inv hmove with
        | webhook connectionId eventId body payload now => exact absurd rfl (hnot payload now)
        | claim | finalize | settle | cancel | refresh | decide => trivial
      exact .inr (.inl ⟨g, mv, hg, hmove,
        ⟨htakes _ hmove, fun payload now he => absurd he (hnot payload now)⟩, if_pos rfl⟩)
    · exact .inl (if_neg hk)
  | received _ _ _ payload _ c g f hf hc hkind htarget hg hconn hok hrun hreceives =>
    dsimp only
    rw [ProviderStore.get?_put_move hg]
    by_cases hk : g.run.id = k
    · subst hk
      refine .inr (.inl ⟨g, _, hg, by simp [moveOf, htarget], ⟨hreceives, fun _ _ _ => ?_⟩,
        if_pos rfl⟩)
      exact ⟨f s.store.receipts.next, List.mem_append_right _ (List.mem_singleton_self _), hrun⟩
    · exact .inl (if_neg hk)

/-- An existing run extends through every step. -/
theorem step_graph_of_some (safety : RuntimeSafetyConfig) {k : Uuid} {g : RunGraph}
    (hg : s.store.graphs.get? k = some g) (e : ProviderEvent) :
    (step safety s e).store.graphs.get? k = some g
    ∨ ∃ mv, s.moveOf e = some (k, mv)
      ∧ (step safety s e).store.graphs.get? k = some (g.move mv) := by
  rcases (storeStep safety s e).graphs k with
    h | ⟨g', mv, hg', hmove, -, h⟩ | ⟨c, _, _, _, _, hnone, _⟩
  · exact .inl (h.trans hg)
  · rw [hg] at hg'
    obtain rfl := Option.some.inj hg'
    exact .inr ⟨mv, hmove, h⟩
  · rw [hg] at hnone
    simp at hnone

/-- Every row of a run after a step is a row from before, moved by the event, or new. -/
theorem step_graph_cases {e : ProviderEvent} {k : Uuid} {g' : RunGraph}
    (h : (step safety s e).store.graphs.get? k = some g') :
    s.store.graphs.get? k = some g'
    ∨ (∃ g mv, s.store.graphs.get? k = some g ∧ s.moveOf e = some (k, mv)
      ∧ (s.Takes safety e
        ∧ ∀ payload now, mv = .webhook payload now → Received (step safety s e).store k)
      ∧ g' = g.move mv)
    ∨ (∃ c request fingerprint actor now, s.store.graphs.get? k = none
      ∧ s.store.connections.get? c.id = some c ∧ request.definitionRef = c.definitionRef
      ∧ (step safety s e).store.connections = s.store.connections
      ∧ g' = ProviderStore.triggeredGraph c request fingerprint actor now k) := by
  rcases (storeStep safety s e).graphs k with
    h' | ⟨g, mv, hg, hmove, hkept, h'⟩ | ⟨c, request, fingerprint, actor, now, hnone,
      hc, href, hs, h'⟩
  · exact .inl (h' ▸ h)
  · exact .inr (.inl ⟨g, mv, hg, hmove, hkept, Option.some.inj (h.symm.trans h')⟩)
  · exact .inr (.inr ⟨c, request, fingerprint, actor, now, hnone, hc, href, hs,
      Option.some.inj (h.symm.trans h')⟩)

/-- A connection that a run belongs to stays, keeps its kind and only counts its
version up. -/
theorem step_connection (safety : RuntimeSafetyConfig) {k : Uuid} {g : RunGraph}
    {c : ProviderConnectionRecord}
    (hg : s.store.graphs.get? k = some g)
    (hc : s.store.connections.get? g.run.connectionId = some c) (e : ProviderEvent) :
    ∃ c', (step safety s e).store.connections.get? g.run.connectionId = some c'
      ∧ c'.kind = c.kind ∧ c.version ≤ c'.version := by
  have hsame : ∃ c', s.store.connections.get? g.run.connectionId = some c'
      ∧ c'.kind = c.kind ∧ c.version ≤ c'.version := ⟨c, hc, rfl, Nat.le_refl _⟩
  have hstep := storeStep safety s e
  revert hstep
  generalize (step safety s e).store = store'
  intro hstep
  cases hstep with
  | idle => exact hsame
  | created payload now f hf =>
    refine ⟨c, ?_, rfl, Nat.le_refl _⟩
    have hlt : g.run.connectionId < s.store.connections.next := Table.lt_next_of_get? hc
    dsimp only
    rw [Table.get?_add, if_neg (Nat.ne_of_gt hlt)]
    exact hc
  | updated connectionId payload now old c' hold hid hkind hversion =>
    by_cases hk : connectionId = g.run.connectionId
    · subst hk
      rw [hc] at hold
      obtain rfl := Option.some.inj hold
      have hkey : key c' = g.run.connectionId := hid.trans (Table.key_of_get? hc)
      exact ⟨c', Table.get?_put_self hc hkey, hkind, hversion ▸ Nat.le_succ _⟩
    · refine ⟨c, ?_, rfl, Nat.le_refl _⟩
      have hkey : key c' = connectionId := hid.trans (Table.key_of_get? hold)
      dsimp only
      rw [Table.get?_put_of_ne (by rw [hkey]; exact hk)]
      exact hc
  | deleted connectionId hunused =>
    refine ⟨c, ?_, rfl, Nat.le_refl _⟩
    have hne : g.run.connectionId ≠ connectionId := hunused g (Table.mem_of_get? hg)
    dsimp only
    rw [Table.get?_erase, if_neg (Ne.symm hne)]
    exact hc
  | triggered => exact hsame
  | moved => exact hsame
  | received => exact hsame

/-- Receipts are only ever added, for runs that a webhook of the CI Lab was about. -/
theorem step_receipts {e : ProviderEvent} {r : ProviderWebhookEventRecord}
    (h : r ∈ (step safety s e).store.receipts.rows) :
    r ∈ s.store.receipts.rows
    ∨ (∃ g c, s.store.graphs.get? r.runId = some g
      ∧ s.store.connections.get? g.run.connectionId = some c ∧ c.kind = .learningCi) := by
  have hstep := storeStep safety s e
  revert h hstep
  generalize (step safety s e).store = store'
  intro h hstep
  cases hstep with
  | idle => exact .inl h
  | created => exact .inl h
  | updated => exact .inl h
  | deleted => exact .inl h
  | triggered => exact .inl h
  | moved => exact .inl h
  | received connectionId eventId body payload now c g f hf hc hkind htarget hg hconn hok hrun _ =>
    have hadd : r ∈ (s.store.receipts.add f hf).rows := h
    rcases Table.mem_add hadd with hold | rfl
    · exact .inl hold
    · exact .inr ⟨g, c, hrun ▸ hg, hconn ▸ hc, hkind⟩

theorem Received.step {k : Uuid} (h : Received s.store k) (e : ProviderEvent) :
    Received (step safety s e).store k := by
  obtain ⟨r, hr, hrun⟩ := h
  have hstep := storeStep safety s e
  revert hstep
  generalize (ProviderSystem.step safety s e).store = store'
  intro hstep
  cases hstep with
  | idle => exact ⟨r, hr, hrun⟩
  | created => exact ⟨r, hr, hrun⟩
  | updated => exact ⟨r, hr, hrun⟩
  | deleted => exact ⟨r, hr, hrun⟩
  | triggered => exact ⟨r, hr, hrun⟩
  | moved => exact ⟨r, hr, hrun⟩
  | received => exact ⟨r, List.mem_append_left _ hr, hrun⟩

/-- The run belongs to a connection of the kind. -/
def KindOf (s : ProviderStore) (k : Uuid) (kind : ProviderKind) : Prop :=
  ∃ g c, s.graphs.get? k = some g ∧ s.connections.get? g.run.connectionId = some c
    ∧ c.kind = kind

theorem KindOf.unique {s : ProviderStore} {k : Uuid} {kind kind' : ProviderKind}
    (h : KindOf s k kind) (h' : KindOf s k kind') : kind = kind' := by
  obtain ⟨g, c, hg, hc, rfl⟩ := h
  obtain ⟨g', c', hg', hc', rfl⟩ := h'
  rw [hg] at hg'
  obtain rfl := Option.some.inj hg'
  rw [hc] at hc'
  rw [Option.some.inj hc']

/-- An existing run is still there after a step. -/
theorem step_extends (safety : RuntimeSafetyConfig) {k : Uuid} {g : RunGraph}
    (hg : s.store.graphs.get? k = some g) (e : ProviderEvent) :
    ∃ g', (step safety s e).store.graphs.get? k = some g' ∧ g.Extends g' := by
  rcases step_graph_of_some safety hg e with h | ⟨mv, -, h⟩
  · exact ⟨g, h, .refl g⟩
  · exact ⟨_, h, g.extends_move mv⟩

theorem KindOf.step {k : Uuid} {kind : ProviderKind} (h : KindOf s.store k kind)
    (e : ProviderEvent) : KindOf (step safety s e).store k kind := by
  obtain ⟨g, c, hg, hc, rfl⟩ := h
  obtain ⟨g', hg', hext⟩ := step_extends safety hg e
  obtain ⟨c', hc', hkind, -⟩ := step_connection safety hg hc e
  exact ⟨g', c', hg', hext.connectionId ▸ hc', hkind⟩

/-! ## Dispatch attempts -/

/-- What a step does to the dispatch attempts and to the record of calls. -/
inductive DispatchStep (safety : RuntimeSafetyConfig) (s : ProviderSystem) :
    ProviderEvent → Table DispatchAttempt → List TriggerCall → Prop
  | idle (e : ProviderEvent) : DispatchStep safety s e s.attempts s.calls
  | claimed (workerId : String) (leaseSeconds : Int) (token : String) (now : Instant)
      (skipped : List Uuid) (g : RunGraph) (c : ProviderConnectionRecord)
      (hvalid : ProviderStore.ValidDispatch workerId leaseSeconds)
      (hcand : s.store.claimCandidate now skipped = some g)
      (hg : s.store.graphs.get? g.run.id = some g) (hclaimable : RunGraph.Claimable g.intent now)
      (hc : s.store.connections.get? g.intent.connectionId = some c)
      (claimed : ProviderStore.ClaimedProviderTrigger)
      (hclaimed : claimed.intentId = g.intent.id ∧ claimed.runId = g.run.id
        ∧ claimed.connection = c)
      (hstore : (step safety s (.claim workerId leaseSeconds token now skipped)).store
        = { s.store with
            graphs := s.store.graphs.put (g.claim (strip workerId) token leaseSeconds now) }) :
      DispatchStep safety s (.claim workerId leaseSeconds token now skipped)
        (s.attempts.add fun id => { id, claimed, phase := .claimed }) s.calls
  | compared (a : DispatchAttempt) (phase : AttemptPhase) (ha : s.attempts.get? a.id = some a)
      (hold : a.phase = .claimed) (hfits : phase.Fits a.claimed.connection.kind)
      (hversion : phase = .checked →
        ∃ c, s.store.connections.get? a.claimed.connection.id = some c
          ∧ a.claimed.connection.version = c.version) :
      DispatchStep safety s (.checkVersion a.id) (s.attempts.put { a with phase }) s.calls
  | spared (a : DispatchAttempt) (answer : TriggerAnswer) (generated : String)
      (outcome : TriggerOutcome) (ha : s.attempts.get? a.id = some a) (hold : a.phase = .checked)
      (hfits : (AttemptPhase.answered outcome).Fits a.claimed.connection.kind) :
      DispatchStep safety s (.callTrigger a.id answer generated)
        (s.attempts.put { a with phase := .answered outcome }) s.calls
  | called (a : DispatchAttempt) (answer : TriggerAnswer) (generated : String)
      (phase : AttemptPhase) (ha : s.attempts.get? a.id = some a) (hold : a.phase = .checked)
      (hkind : a.claimed.connection.kind ≠ .local) (hfits : phase.Fits a.claimed.connection.kind)
      (hinactive : ¬ phase.Active) :
      DispatchStep safety s (.callTrigger a.id answer generated) (s.attempts.put { a with phase })
        (s.calls ++ [⟨a.id, a.claimed.intentId, a.claimed.connection⟩])
  | ended (e : ProviderEvent) (a : DispatchAttempt) (ha : s.attempts.get? a.id = some a) :
      DispatchStep safety s e (s.attempts.put { a with phase := .closed }) s.calls

theorem dispatchStep_callTrigger {a : DispatchAttempt} (answer : TriggerAnswer)
    (generated : String) (ha : s.attempts.get? a.id = some a) (hold : a.phase = .checked) :
    DispatchStep safety s (.callTrigger a.id answer generated)
      (s.callTrigger a answer generated).attempts (s.callTrigger a answer generated).calls := by
  unfold callTrigger
  dsimp only
  split
  · next hkind => exact .spared a answer generated _ ha hold hkind.symm
  next hkind =>
  cases answer with
  | unavailable => exact .spared a _ generated _ ha hold (by simp [AttemptPhase.Fits])
  | raised error =>
    refine .called a _ generated _ ha hold hkind ?_ (by simp [AttemptPhase.Active])
    intro hretry
    cases error with
    | transport message => exact of_decide_eq_true hretry
    | response message => exact of_decide_eq_true hretry
    | configuration message => simp [retryableError] at hretry
    | conflict message => simp [retryableError] at hretry
    | security message => simp [retryableError] at hretry
    | disabled message => simp [retryableError] at hretry
  | returned run =>
    dsimp only
    split
    · next hprovider =>
      exact .called a _ generated _ ha hold hkind hprovider (by simp [AttemptPhase.Active])
    · exact .idle _
  | lost => exact .called a _ generated _ ha hold hkind trivial (by simp [AttemptPhase.Active])

/-- The inversion of a step, as far as dispatchers go. -/
theorem dispatchStep (safety : RuntimeSafetyConfig) (s : ProviderSystem) (e : ProviderEvent) :
    DispatchStep safety s e (step safety s e).attempts (step safety s e).calls := by
  cases e with
  | createConnection payload now => exact .idle _
  | updateConnection connectionId payload now => exact .idle _
  | deleteConnection connectionId => exact .idle _
  | triggerProvider connectionId payload actor generated now => exact .idle _
  | claim workerId leaseSeconds token now skipped =>
    show DispatchStep safety s _ (s.claim workerId leaseSeconds token now skipped).attempts
      (s.claim workerId leaseSeconds token now skipped).calls
    cases h : s.store.claimProviderTrigger workerId leaseSeconds token now skipped with
    | error e =>
      simp only [claim, h]
      exact .idle _
    | ok result =>
      obtain ⟨store, claimed⟩ := result
      cases claimed with
      | none =>
        simp only [claim, h]
        exact .idle _
      | some claimed =>
        obtain ⟨hvalid, g, c, hcand, hg, hclaimable, hc, hstore, hclaimed⟩ :=
          ProviderStore.claimProviderTrigger_ok h
        simp only [claim, h]
        exact .claimed workerId leaseSeconds token now skipped g c hvalid hcand hg
          hclaimable hc claimed
          (by subst hclaimed; exact ⟨rfl, rfl, rfl⟩) (by simp only [step, claim, h]; exact hstore)
  | checkVersion attemptId =>
    unfold step
    dsimp only
    cases ha : s.attempts.get? attemptId with
    | none => exact .idle _
    | some a =>
      obtain rfl : a.id = attemptId := Table.key_of_get? ha
      dsimp only
      cases hp : a.phase with
      | checked => exact .idle _
      | answered outcome => exact .idle _
      | closed => exact .idle _
      | claimed =>
        dsimp only
        -- the connection may be gone, another version, or the one that was claimed
        unfold checkVersion
        split
        · exact .compared a .closed ha hp trivial (by simp)
        next c hc =>
        split
        · exact .compared a _ ha hp (by simp [AttemptPhase.Fits]) (by simp)
        · next hversion =>
          exact .compared a .checked ha hp trivial fun _ => ⟨c, hc, not_not.mp hversion⟩
  | callTrigger attemptId answer generated =>
    unfold step
    dsimp only
    cases ha : s.attempts.get? attemptId with
    | none => exact .idle _
    | some a =>
      obtain rfl : a.id = attemptId := Table.key_of_get? ha
      dsimp only
      cases hp : a.phase with
      | claimed => exact .idle _
      | answered outcome => exact .idle _
      | closed => exact .idle _
      | checked => exact dispatchStep_callTrigger answer generated ha hp
  | settle attemptId now =>
    unfold step
    dsimp only
    cases ha : s.attempts.get? attemptId with
    | none => exact .idle _
    | some a =>
      obtain rfl : a.id = attemptId := Table.key_of_get? ha
      dsimp only
      cases hp : a.phase with
      | claimed => exact .idle _
      | checked => exact .idle _
      | closed => exact .idle _
      | answered outcome => exact .ended _ a ha
  | crash attemptId =>
    unfold step
    dsimp only
    cases ha : s.attempts.get? attemptId with
    | none => exact .idle _
    | some a =>
      obtain rfl : a.id = attemptId := Table.key_of_get? ha
      exact .ended _ a ha
  | prepareRefresh connectionId runId cancel now =>
    unfold step
    dsimp only
    split
    · exact .idle _
    · exact .idle _
    · exact .idle _
  | commitRefresh pending run now =>
    unfold step
    dsimp only
    split
    · split
      · exact .idle _
      · exact .idle _
    · exact .idle _
  | prepareDecision connectionId runId payload actor =>
    unfold step
    dsimp only
    split
    · exact .idle _
    · exact .idle _
    · exact .idle _
  | commitDecision pending run now =>
    unfold step
    dsimp only
    split
    · split
      · exact .idle _
      · exact .idle _
    · exact .idle _
  | webhook connectionId eventId body payload now => exact .idle _

/-- An attempt after a step is one from before, is new, or has only changed its phase. -/
theorem DispatchStep.mem {e : ProviderEvent} {attempts : Table DispatchAttempt}
    {calls : List TriggerCall} (h : DispatchStep safety s e attempts calls) {a' : DispatchAttempt}
    (ha' : a' ∈ attempts.rows) :
    a' ∈ s.attempts.rows
    ∨ (∃ g c, s.store.graphs.get? g.run.id = some g
      ∧ s.store.connections.get? g.intent.connectionId = some c ∧ a'.claimed.intentId = g.intent.id
      ∧ a'.claimed.runId = g.run.id ∧ a'.claimed.connection = c ∧ a'.phase = .claimed)
    ∨ (∃ a ∈ s.attempts.rows, a'.id = a.id ∧ a'.claimed = a.claimed
      ∧ a'.phase.Fits a.claimed.connection.kind) := by
  cases h with
  | idle => exact .inl ha'
  | claimed w l t now skipped g c hvalid hcand hg hclaimable hc claimed hclaimed hstore =>
    rcases Table.mem_add ha' with hold | rfl
    · exact .inl hold
    · obtain ⟨hintent, hrun, hconn⟩ := hclaimed
      exact .inr (.inl ⟨g, c, hg, hc, hintent, hrun, hconn, rfl⟩)
  | compared a phase ha hold hfits hversion =>
    rcases Table.mem_put ha' with rfl | ⟨hold, -⟩
    · exact .inr (.inr ⟨a, Table.mem_of_get? ha, rfl, rfl, hfits⟩)
    · exact .inl hold
  | spared a answer generated outcome ha hold hfits =>
    rcases Table.mem_put ha' with rfl | ⟨hold, -⟩
    · exact .inr (.inr ⟨a, Table.mem_of_get? ha, rfl, rfl, hfits⟩)
    · exact .inl hold
  | called a answer generated phase ha hold hkind hfits hinactive =>
    rcases Table.mem_put ha' with rfl | ⟨hold, -⟩
    · exact .inr (.inr ⟨a, Table.mem_of_get? ha, rfl, rfl, hfits⟩)
    · exact .inl hold
  | ended _ a ha =>
    rcases Table.mem_put ha' with rfl | ⟨hold, -⟩
    · exact .inr (.inr ⟨a, Table.mem_of_get? ha, rfl, rfl, trivial⟩)
    · exact .inl hold

/-! ## Polls and decisions -/

/-- What a step does to the polls and decisions that wait for a provider. -/
inductive PendingStep (s : ProviderSystem) : ProviderEvent →
    List ProviderStore.PendingRefresh → List ProviderStore.PendingDecision → Prop
  | idle (e : ProviderEvent) : PendingStep s e s.refreshes s.decisions
  | asked (connectionId runId : Uuid) (cancel : Bool) (now : Instant)
      (p : ProviderStore.PendingRefresh) (g : RunGraph) (c : ProviderConnectionRecord)
      (hg : s.store.graphs.get? p.runId = some g)
      (hc : s.store.connections.get? g.run.connectionId = some c) (hkind : p.kind = c.kind)
      (hext : g.run.externalId = some p.externalId) (hversion : p.expectedVersion = g.run.version)
      (hlocal : p.localAnswer.provider = .local) :
      PendingStep s (.prepareRefresh connectionId runId cancel now) (s.refreshes ++ [p])
        s.decisions
  | refreshed (pending : Nat) (run : ProviderRun) (now : Instant) :
      PendingStep s (.commitRefresh pending run now) (s.refreshes.eraseIdx pending) s.decisions
  | proposed (connectionId runId : Uuid) (payload : RunGraph.ProviderRunApprovalPayload)
      (actor : Option RunGraph.Actor) (p : ProviderStore.PendingDecision) (g : RunGraph)
      (c : ProviderConnectionRecord) (hg : s.store.graphs.get? p.runId = some g)
      (hc : s.store.connections.get? g.run.connectionId = some c) (hkind : p.kind = c.kind)
      (hci : c.kind = .learningCi) (hext : g.run.externalId = some p.externalId)
      (happroval : g.approval = none) (hgate : g.run.qualityGateStatus = .waitingApproval)
      (hraw : g.run.rawStatus = "waiting_approval") (hversion : p.expectedVersion = g.run.version) :
      PendingStep s (.prepareDecision connectionId runId payload actor) s.refreshes
        (s.decisions ++ [p])
  | decided (pending : Nat) (run : ProviderRun) (now : Instant) :
      PendingStep s (.commitDecision pending run now) s.refreshes (s.decisions.eraseIdx pending)

theorem pendingStep_callTrigger (e : ProviderEvent) (a : DispatchAttempt) (answer : TriggerAnswer)
    (generated : String) :
    PendingStep s e (s.callTrigger a answer generated).refreshes
      (s.callTrigger a answer generated).decisions := by
  unfold callTrigger
  dsimp only
  split
  · exact .idle _
  cases answer with
  | unavailable => exact .idle _
  | raised error => exact .idle _
  | returned run =>
    dsimp only
    split
    · exact .idle _
    · exact .idle _
  | lost => exact .idle _

/-- The inversion of a step, as far as polls and decisions go. -/
theorem pendingStep (safety : RuntimeSafetyConfig) (s : ProviderSystem) (e : ProviderEvent) :
    PendingStep s e (step safety s e).refreshes (step safety s e).decisions := by
  cases e with
  | createConnection payload now => exact .idle _
  | updateConnection connectionId payload now => exact .idle _
  | deleteConnection connectionId => exact .idle _
  | triggerProvider connectionId payload actor generated now => exact .idle _
  | claim workerId leaseSeconds token now skipped =>
    show PendingStep s _ (s.claim workerId leaseSeconds token now skipped).refreshes
      (s.claim workerId leaseSeconds token now skipped).decisions
    unfold claim
    split
    · exact .idle _
    · exact .idle _
    · exact .idle _
  | checkVersion attemptId =>
    unfold step
    dsimp only
    split
    · split
      · unfold checkVersion
        split
        · exact .idle _
        · split
          · exact .idle _
          · exact .idle _
      · exact .idle _
    · exact .idle _
  | callTrigger attemptId answer generated =>
    unfold step
    dsimp only
    split
    · split
      · exact pendingStep_callTrigger _ _ answer generated
      · exact .idle _
    · exact .idle _
  | settle attemptId now =>
    unfold step
    dsimp only
    split
    · split
      · exact .idle _
      · exact .idle _
    · exact .idle _
  | crash attemptId =>
    unfold step
    dsimp only
    split
    · exact .idle _
    · exact .idle _
  | prepareRefresh connectionId runId cancel now =>
    unfold step
    dsimp only
    split
    · next store pending hp =>
      rcases ProviderStore.prepareRefresh_ok hp with ⟨hp, -⟩ | ⟨hp, -⟩
        | ⟨c, g, q, hc, hg, hconn, hext, hrun, -, hkind, hversion, hlocal, hq, -⟩
      · simp at hp
      · simp at hp
      -- what the call was prepared with is read off the transaction
      · obtain rfl := Option.some.inj hq
        exact .asked connectionId runId cancel now _ g c (hrun ▸ hg) (hconn ▸ hc) hkind hext
          hversion hlocal
    · exact .idle _
    · exact .idle _
  | commitRefresh pending run now =>
    unfold step
    dsimp only
    split
    · split
      · exact .refreshed pending run now
      · exact .idle _
    · exact .idle _
  | prepareDecision connectionId runId payload actor =>
    unfold step
    dsimp only
    split
    · next pending hp =>
      obtain ⟨c, g, hc, hg, hconn, hext, hci, happ, hgate, hraw, hrun, hkind, hversion, -, -⟩ :=
        ProviderStore.prepareDecision_ok hp
      exact .proposed connectionId runId payload actor _ g c (hrun ▸ hg) (hconn ▸ hc) hkind hci
        hext happ hgate hraw hversion
    · exact .idle _
    · exact .idle _
  | commitDecision pending run now =>
    unfold step
    dsimp only
    split
    · split
      · exact .decided pending run now
      · exact .idle _
    · exact .idle _
  | webhook connectionId eventId body payload now => exact .idle _

theorem PendingStep.mem_refreshes {e : ProviderEvent}
    {refreshes : List ProviderStore.PendingRefresh} {decisions : List ProviderStore.PendingDecision}
    (h : PendingStep s e refreshes decisions) {p : ProviderStore.PendingRefresh}
    (hp : p ∈ refreshes) :
    p ∈ s.refreshes
    ∨ (∃ g c, s.store.graphs.get? p.runId = some g
      ∧ s.store.connections.get? g.run.connectionId = some c ∧ p.kind = c.kind
      ∧ g.run.externalId = some p.externalId ∧ p.expectedVersion = g.run.version
      ∧ p.localAnswer.provider = .local) := by
  cases h with
  | idle => exact .inl hp
  | asked connectionId runId cancel now q g c hg hc hkind hext hversion hlocal =>
    rcases List.mem_append.mp hp with hold | hnew
    · exact .inl hold
    · obtain rfl := List.mem_singleton.mp hnew
      exact .inr ⟨g, c, hg, hc, hkind, hext, hversion, hlocal⟩
  | refreshed => exact .inl (List.mem_of_mem_eraseIdx hp)
  | proposed => exact .inl hp
  | decided => exact .inl hp

theorem PendingStep.mem_decisions {e : ProviderEvent}
    {refreshes : List ProviderStore.PendingRefresh} {decisions : List ProviderStore.PendingDecision}
    (h : PendingStep s e refreshes decisions) {p : ProviderStore.PendingDecision}
    (hp : p ∈ decisions) :
    p ∈ s.decisions
    ∨ (∃ g c, s.store.graphs.get? p.runId = some g
      ∧ s.store.connections.get? g.run.connectionId = some c ∧ p.kind = c.kind
      ∧ c.kind = .learningCi ∧ g.run.externalId = some p.externalId ∧ g.approval = none
      ∧ g.run.qualityGateStatus = .waitingApproval ∧ g.run.rawStatus = "waiting_approval"
      ∧ p.expectedVersion = g.run.version) := by
  cases h with
  | idle => exact .inl hp
  | asked => exact .inl hp
  | refreshed => exact .inl hp
  | proposed connectionId runId payload actor q g c hg hc hkind hci hext happ hgate hraw hversion =>
    rcases List.mem_append.mp hp with hold | hnew
    · exact .inl hold
    · obtain rfl := List.mem_singleton.mp hnew
      exact .inr ⟨g, c, hg, hc, hkind, hci, hext, happ, hgate, hraw, hversion⟩
  | decided => exact .inl (List.mem_of_mem_eraseIdx hp)

/-! ## Coherence -/

/-- Runs have their connections, intents their versions, and attempts their intents. -/
structure Coherent (s : ProviderSystem) : Prop where
  /-- Every run has its connection. -/
  connected : ∀ k g, s.store.graphs.get? k = some g →
    ∃ c, s.store.connections.get? g.run.connectionId = some c
  /-- Every intent is the one of its run. -/
  intent : ∀ k g, s.store.graphs.get? k = some g →
    g.intent.id = k ∧ g.intent.connectionId = g.run.connectionId
  attempt : ∀ a ∈ s.attempts.rows, KindOf s.store a.claimed.runId a.claimed.connection.kind
    ∧ a.claimed.intentId = a.claimed.runId ∧ a.phase.Fits a.claimed.connection.kind
  refresh : ∀ p ∈ s.refreshes, KindOf s.store p.runId p.kind ∧ p.localAnswer.provider = .local
  decision : ∀ p ∈ s.decisions, KindOf s.store p.runId p.kind
  /-- Webhooks are about runs of the CI Lab. -/
  receipt : ∀ r ∈ s.store.receipts.rows, KindOf s.store r.runId .learningCi

theorem coherent_empty : Coherent empty where
  connected := by simp [empty, ProviderStore.empty]
  intent := by simp [empty, ProviderStore.empty]
  attempt := by simp [empty, Table.empty]
  refresh := by simp [empty]
  decision := by simp [empty]
  receipt := by simp [empty, ProviderStore.empty, Table.empty]

theorem Coherent.step (h : Coherent s) (e : ProviderEvent) :
    Coherent (ProviderSystem.step safety s e) where
  connected := by
    intro k g' hg'
    rcases step_graph_cases hg' with
      hold | ⟨g, mv, hg, -, -, rfl⟩ | ⟨c, _, _, _, _, -, hc, -, hsame, rfl⟩
    · obtain ⟨c, hc⟩ := h.connected k g' hold
      obtain ⟨c', hc', -⟩ := step_connection safety hold hc e
      exact ⟨c', hc'⟩
    · obtain ⟨c, hc⟩ := h.connected k g hg
      obtain ⟨c', hc', -⟩ := step_connection safety hg hc e
      exact ⟨c', (g.extends_move mv).connectionId ▸ hc'⟩
    · exact ⟨c, hsame ▸ hc⟩
  intent := by
    intro k g' hg'
    rcases step_graph_cases hg' with hold | ⟨g, mv, hg, -, -, rfl⟩ | ⟨c, _, _, _, _,
      -, -, -, -, rfl⟩
    · exact h.intent k g' hold
    · obtain ⟨hid, hconn⟩ := h.intent k g hg
      have hext := g.extends_move mv
      exact ⟨hext.intentId.trans hid,
        hext.intentConnectionId.trans (hconn.trans hext.connectionId.symm)⟩
    · exact ⟨rfl, rfl⟩
  attempt := by
    intro a' ha'
    rcases (dispatchStep safety s e).mem ha' with
      hold | ⟨g, c, hg, hc, hintent, hrun, hconn, hphase⟩ | ⟨a, ha, -, hclaimed, hfits⟩
    · obtain ⟨hkind, hid, hfits⟩ := h.attempt a' hold
      exact ⟨hkind.step e, hid, hfits⟩
    · obtain ⟨hid, hgc⟩ := h.intent _ g hg
      rw [hgc] at hc
      have hkind : KindOf s.store g.run.id c.kind := ⟨g, c, hg, hc, rfl⟩
      rw [hintent, hrun, hconn, hphase]
      exact ⟨hkind.step e, hid, trivial⟩
    · obtain ⟨hkind, hid, -⟩ := h.attempt a ha
      rw [hclaimed]
      exact ⟨hkind.step e, hid, hfits⟩
  refresh := by
    intro p hp
    rcases (pendingStep safety s e).mem_refreshes hp with hold | ⟨g, c, hg, hc, hkind, -, -, hlocal⟩
    · obtain ⟨hkind, hlocal⟩ := h.refresh p hold
      exact ⟨hkind.step e, hlocal⟩
    · have hkindOf : KindOf s.store p.runId p.kind := ⟨g, c, hg, hc, hkind.symm⟩
      exact ⟨hkindOf.step e, hlocal⟩
  decision := by
    intro p hp
    rcases (pendingStep safety s e).mem_decisions hp with hold | ⟨g, c, hg, hc, hkind, -⟩
    · exact (h.decision p hold).step e
    · have hkindOf : KindOf s.store p.runId p.kind := ⟨g, c, hg, hc, hkind.symm⟩
      exact hkindOf.step e
  receipt := by
    intro r hr
    rcases step_receipts hr with hold | ⟨g, c, hg, hc, hkind⟩
    · exact (h.receipt r hold).step e
    · have hkindOf : KindOf s.store r.runId .learningCi := ⟨g, c, hg, hc, hkind⟩
      exact hkindOf.step e

/-- Everything that happens from an empty database on is coherent. -/
theorem coherent_run (safety : RuntimeSafetyConfig) (es : List ProviderEvent) :
    Coherent (Transition.run (ProviderSystem.step safety) empty es) :=
  Transition.invariant_run (fun _ e h => h.step e) coherent_empty es

/-- Answers are those of a provider of the run's own kind. -/
theorem Coherent.moveOf_snapshot (h : Coherent s) {e : ProviderEvent} {k : Uuid}
    {mv : RunGraph.Move} {run : ProviderRun} (hmove : s.moveOf e = some (k, mv))
    (hrun : mv.snapshot = some run) : KindOf s.store k run.provider := by
  cases moveOf_inv hmove with
  | claim => simp [RunGraph.Move.snapshot] at hrun
  | settle => simp [RunGraph.Move.snapshot] at hrun
  | cancel => simp [RunGraph.Move.snapshot] at hrun
  | webhook => simp [RunGraph.Move.snapshot] at hrun
  | finalize a run' now ha hp =>
    obtain rfl := Option.some.inj hrun
    obtain ⟨hkind, -, hfits⟩ := h.attempt a (Table.mem_of_get? ha)
    rw [hp] at hfits
    exact (show run'.provider = _ from hfits) ▸ hkind
  | refresh pending run' now p hp hprovider =>
    obtain rfl := Option.some.inj hrun
    obtain ⟨hkind, hlocal⟩ := h.refresh p hp
    unfold ProviderStore.PendingRefresh.answer
    split
    · next hp => exact hlocal.trans hp.symm ▸ hkind
    · next hp => exact hprovider.resolve_left hp ▸ hkind
  | decide pending run' now p hp hprovider =>
    obtain rfl := Option.some.inj hrun
    exact hprovider ▸ h.decision p hp

/-- A fact about the rows of run `k`, read off a computed state. -/
theorem exists_graph {k : Uuid} {α : Type} {f : RunGraph → α} {x : α}
    (h : (s.store.graphs.get? k).map f = some x) : ∃ g, s.store.graphs.get? k = some g ∧ f g = x :=
  Option.map_eq_some_iff.mp h

end ProviderSystem

end QaPlatform.Runtime
