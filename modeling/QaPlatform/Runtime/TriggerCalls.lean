import QaPlatform.Runtime.ProviderCoherence

/-!
# Calls of `provider.trigger`

How often a provider is asked to start a run for one intent, and with which
snapshot of the connection. A provider without idempotency keys is protected
after an answer, since every failure it reports is final; but a lease that
expires is taken over whatever its holder has done, so a dispatcher that dies, or
is slow, after its call leads to a second one. And the snapshot is compared with
the connection as it is, not with the version that the intent was created for.

For the first question `Once` counts the dispatchers of an intent that may still call: one
before any call, none after it. A claim of an expired lease adds one, so it has to find that the
earlier attempts are over and have not called (`TakesOverUntouched`). For the second `Bound`
follows the version from the intent through the claim to the call; an edit between the claim and
the call ends the attempt, one before the claim does not.
-/

namespace QaPlatform.Runtime

open Pipeline

namespace ProviderSystem

variable {safety : RuntimeSafetyConfig} {s : ProviderSystem} {k : Uuid}

/-! ## At most one call -/

/-- The provider gets no idempotency key and would start a second run. -/
def Unkeyed (kind : ProviderKind) : Prop :=
  kind = .jenkins ∨ kind = .gitlab ∨ kind = .bkCi

instance (kind : ProviderKind) : Decidable (Unkeyed kind) := by
  unfold Unkeyed
  infer_instance

/-- The intent's earlier attempts are over or answered, and none of them has
called the provider. -/
def Untouched (s : ProviderSystem) (k : Uuid) : Prop :=
  (∀ a ∈ s.attempts.rows, a.claimed.intentId = k → ¬ a.phase.Active)
    ∧ ∀ call ∈ s.calls, call.intentId ≠ k

instance (s : ProviderSystem) (k : Uuid) : Decidable (Untouched s k) := by
  unfold Untouched
  infer_instance

/-- Where the event takes over the expired lease of an intent of such a provider,
the lease's holders have ended before their call. -/
def TakesOverUntouched (s : ProviderSystem) (e : ProviderEvent) : Prop :=
  ∀ g ∈ s.claimedBy e, g.intent.status = .claimed →
    ∀ c ∈ s.store.connections.get? g.intent.connectionId, Unkeyed c.kind →
      Untouched s g.intent.id

instance (s : ProviderSystem) (e : ProviderEvent) : Decidable (TakesOverUntouched s e) := by
  unfold TakesOverUntouched
  infer_instance

/-- What holds of intent `k` of such a provider: there is one dispatcher that may
call, before any call, and a call leaves nothing to be dispatched. -/
structure Once (k : Uuid) (s : ProviderSystem) : Prop where
  coherent : s.Coherent
  kind : ∃ kind, KindOf s.store k kind ∧ Unkeyed kind
  single : ∀ a ∈ s.attempts.rows, ∀ b ∈ s.attempts.rows, a.claimed.intentId = k →
    b.claimed.intentId = k → a.phase.Active → b.phase.Active → a.id = b.id
  fresh : ∀ a ∈ s.attempts.rows, a.claimed.intentId = k → a.phase.Active →
    ∀ call ∈ s.calls, call.intentId ≠ k
  once : (s.calls.filter (·.intentId = k)).length ≤ 1
  /-- An intent that waits has no dispatcher and has not been called for. -/
  waiting : ∀ g, s.store.graphs.get? k = some g →
    g.intent.status = .pending ∨ g.intent.status = .retryWait → Untouched s k

/-- An active attempt after a step is one from before that was active, or new. -/
theorem DispatchStep.active {e : ProviderEvent} {attempts : Table DispatchAttempt}
    {calls : List TriggerCall} (h : DispatchStep safety s e attempts calls) {a' : DispatchAttempt}
    (ha' : a' ∈ attempts.rows) (hactive : a'.phase.Active) :
    (∃ a ∈ s.attempts.rows, a.id = a'.id ∧ a.claimed = a'.claimed ∧ a.phase.Active)
    ∨ (∃ workerId leaseSeconds token now skipped g,
        e = .claim workerId leaseSeconds token now skipped
      ∧ ProviderStore.ValidDispatch workerId leaseSeconds
      ∧ s.store.claimCandidate now skipped = some g ∧ a'.claimed.intentId = g.intent.id
      ∧ a'.id = s.attempts.next ∧ calls = s.calls
      ∧ (step safety s e).store.graphs.get? g.run.id
        = some (g.claim (strip workerId) token leaseSeconds now)) := by
  have hsame (hold : a' ∈ s.attempts.rows) :
      ∃ a ∈ s.attempts.rows, a.id = a'.id ∧ a.claimed = a'.claimed ∧ a.phase.Active :=
    ⟨a', hold, rfl, rfl, hactive⟩
  cases h with
  | idle => exact .inl (hsame ha')
  | claimed w l t now skipped g c hvalid hcand hg hclaimable hc claimed hclaimed hstore =>
    rcases Table.mem_add ha' with hold | rfl
    · exact .inl (hsame hold)
    · refine .inr ⟨w, l, t, now, skipped, g, rfl, hvalid, hcand, hclaimed.1, rfl, rfl, ?_⟩
      rw [hstore]
      exact Table.get?_put_self hg rfl
  | compared a phase ha hold hfits hversion =>
    rcases Table.mem_put ha' with rfl | ⟨hold', -⟩
    · exact .inl ⟨a, Table.mem_of_get? ha, rfl, rfl, .inl hold⟩
    · exact .inl (hsame hold')
  | spared a answer generated outcome ha hold hfits =>
    rcases Table.mem_put ha' with rfl | ⟨hold', -⟩
    · exact .inl ⟨a, Table.mem_of_get? ha, rfl, rfl, .inr hold⟩
    · exact .inl (hsame hold')
  | called a answer generated phase ha hold hkind hfits hinactive =>
    rcases Table.mem_put ha' with rfl | ⟨hold', -⟩
    · exact absurd hactive hinactive
    · exact .inl (hsame hold')
  | ended _ a ha =>
    rcases Table.mem_put ha' with rfl | ⟨hold', -⟩
    · simp [AttemptPhase.Active] at hactive
    · exact .inl (hsame hold')

/-- A call after a step is one from before, or made by an attempt that was active
and no longer is. -/
theorem DispatchStep.call {e : ProviderEvent} {attempts : Table DispatchAttempt}
    {calls : List TriggerCall} (h : DispatchStep safety s e attempts calls) :
    calls = s.calls
    ∨ (∃ a ∈ s.attempts.rows, a.phase = .checked ∧ a.claimed.connection.kind ≠ .local
      ∧ calls = s.calls ++ [⟨a.id, a.claimed.intentId, a.claimed.connection⟩]
      ∧ ∀ a' ∈ attempts.rows, a'.phase.Active → a'.id ≠ a.id) := by
  cases h with
  | idle => exact .inl rfl
  | claimed => exact .inl rfl
  | compared => exact .inl rfl
  | spared => exact .inl rfl
  | ended => exact .inl rfl
  | called a answer generated phase ha hold hkind hfits hinactive =>
    refine .inr ⟨a, Table.mem_of_get? ha, hold, hkind, rfl, fun a' ha' hactive => ?_⟩
    rcases Table.mem_put ha' with rfl | ⟨-, hne⟩
    · exact absurd hactive hinactive
    · exact hne

/-- A claim of intent `k` finds it untouched: it was waiting, or it is taken over
as the condition says. -/
theorem Once.untouched_of_claim (h : Once k s) {workerId token : String} {leaseSeconds : Int}
    {now : Instant} {skipped : List Uuid} {g : RunGraph}
    (hok : TakesOverUntouched s (.claim workerId leaseSeconds token now skipped))
    (hvalid : ProviderStore.ValidDispatch workerId leaseSeconds)
    (hcand : s.store.claimCandidate now skipped = some g) (hid : g.intent.id = k) :
    s.store.graphs.get? k = some g ∧ Untouched s k := by
  obtain ⟨hget, -, hwhy⟩ := ProviderStore.claimCandidate_eq_some hcand
  obtain ⟨hrun, hconn⟩ := h.coherent.intent _ g hget
  have hk : s.store.graphs.get? k = some g := by
    rw [← hid, hrun]
    exact hget
  refine ⟨hk, ?_⟩
  rcases hwhy with ⟨hwait, -⟩ | ⟨hclaimed, -⟩
  · exact h.waiting g hk hwait
  · obtain ⟨kind, hkind, hunkeyed⟩ := h.kind
    obtain ⟨c, hc⟩ := h.coherent.connected k g hk
    have hsame : c.kind = kind := KindOf.unique ⟨g, c, hk, hc, rfl⟩ hkind
    rw [← hid]
    exact hok g (claimedBy_claim token hvalid hcand) hclaimed c (hconn ▸ hc) (hsame ▸ hunkeyed)

theorem Untouched.step {e : ProviderEvent} (h : Untouched s k)
    (hnew : ∀ workerId leaseSeconds token now skipped g,
      e = .claim workerId leaseSeconds token now skipped →
      ProviderStore.ValidDispatch workerId leaseSeconds →
      s.store.claimCandidate now skipped = some g → g.intent.id = k →
      (ProviderSystem.step safety s e).store.graphs.get? g.run.id
        ≠ some (g.claim (strip workerId) token leaseSeconds now)) :
    Untouched (ProviderSystem.step safety s e) k := by
  have hstep := dispatchStep safety s e
  refine ⟨fun a' ha' hintent hactive => ?_, fun call hcall hintent => ?_⟩
  · rcases hstep.active ha' hactive with
      ⟨a, ha, -, hclaimed, hold⟩ | ⟨w, l, t, now, skipped, g, he, hvalid, hcand, hid, -, -, hstore⟩
    · exact h.1 a ha (hclaimed ▸ hintent) hold
    · exact hnew w l t now skipped g he hvalid hcand (hid.symm.trans hintent) hstore
  · rcases hstep.call with hsame | ⟨a, ha, hchecked, -, hcalls, -⟩
    · rw [hsame] at hcall
      exact h.2 call hcall hintent
    · rw [hcalls] at hcall
      rcases List.mem_append.mp hcall with hold | hcall
      · exact h.2 call hold hintent
      · obtain rfl := List.mem_singleton.mp hcall
        exact h.1 a ha hintent (.inr hchecked)

/-- An unkeyed provider's failures are final, so its intent never waits again. -/
theorem Once.status_of_move (h : Once k s) {e : ProviderEvent} {g : RunGraph} {mv : RunGraph.Move}
    (hmove : s.moveOf e = some (k, mv))
    (hwait : (g.move mv).intent.status = .pending ∨ (g.move mv).intent.status = .retryWait) :
    (g.move mv).intent = g.intent := by
  have hstep := g.intentStep mv
  generalize (g.move mv).intent = intent at hstep hwait ⊢
  cases hstep with
  | same => rfl
  | claimed => simp [RunGraph.claim] at hwait
  | succeeded => simp [RunGraph.succeedIntent] at hwait
  | cancelled => simp [RunGraph.cancelBeforeDispatch] at hwait
  | failed token errorCode retryable now hclaimed =>
    rcases RunGraph.failIntent_status g.intent errorCode retryable now with
      ⟨hretry, -, -⟩ | hs | hs
    · cases moveOf_inv hmove with
      | settle a _ _ _ ha hp =>
        obtain ⟨hkind, -, hfits⟩ := h.coherent.attempt a (Table.mem_of_get? ha)
        rw [hp] at hfits
        obtain ⟨kind, hkind', hunkeyed⟩ := h.kind
        have hci : kind = .learningCi := hkind'.unique ((hfits hretry) ▸ hkind)
        rw [hci] at hunkeyed
        simp [Unkeyed] at hunkeyed
    · simp [hs] at hwait
    · simp [hs] at hwait

theorem Once.step {e : ProviderEvent} (h : Once k s) (hok : TakesOverUntouched s e) :
    Once k (ProviderSystem.step safety s e) where
  coherent := h.coherent.step e
  kind := by
    obtain ⟨kind, hkind, hunkeyed⟩ := h.kind
    exact ⟨kind, hkind.step e, hunkeyed⟩
  single := by
    intro a' ha' b' hb' hak hbk haa hba
    have hstep := dispatchStep safety s e
    rcases hstep.active ha' haa with
      ⟨a, ha, hid, hac, hold⟩ | ⟨w, l, t, now, skipped, g, rfl, hvalid, hcand, hg, hnext, -⟩
    · rcases hstep.active hb' hba with
        ⟨b, hb, hid', hbc, hold'⟩ | ⟨w, l, t, now, skipped, g, rfl, hvalid, hcand, hg, -⟩
      · rw [← hid, ← hid']
        exact h.single a ha b hb (hac ▸ hak) (hbc ▸ hbk) hold hold'
      -- the new claim has found no attempt that could still call
      · have hun := (h.untouched_of_claim hok hvalid hcand (hg.symm.trans hbk)).2
        exact absurd hold (hun.1 a ha (hac ▸ hak))
    · have hun := (h.untouched_of_claim hok hvalid hcand (hg.symm.trans hak)).2
      rcases hstep.active hb' hba with ⟨b, hb, -, hbc, hold'⟩ | ⟨_, _, _, _, _, _, -, -,
        -, -, hnext', -⟩
      · exact absurd hold' (hun.1 b hb (hbc ▸ hbk))
      · exact hnext.trans hnext'.symm
  fresh := by
    intro a' ha' hak haa call hcall hck
    have hstep := dispatchStep safety s e
    rcases hstep.active ha' haa with
      ⟨a, ha, hid, hac, hold⟩ | ⟨w, l, t, now, skipped, g, rfl, hvalid, hcand, hg, -, hcalls, -⟩
    · rcases hstep.call with hsame | ⟨b, hb, hchecked, -, hcalls, hgone⟩
      · rw [hsame] at hcall
        exact h.fresh a ha (hac ▸ hak) hold call hcall hck
      · rw [hcalls] at hcall
        rcases List.mem_append.mp hcall with hcall | hcall
        · exact h.fresh a ha (hac ▸ hak) hold call hcall hck
        · obtain rfl := List.mem_singleton.mp hcall
          -- two attempts that may call are one, and this one has just called
          have hsame : a.id = b.id := h.single a ha b hb (hac ▸ hak) hck hold (.inr hchecked)
          exact hgone a' ha' haa (hid.symm.trans hsame)
    · have hun := (h.untouched_of_claim hok hvalid hcand (hg.symm.trans hak)).2
      rw [hcalls] at hcall
      exact hun.2 call hcall hck
  once := by
    rcases (dispatchStep safety s e).call with hsame | ⟨a, ha, hchecked, -, hcalls, -⟩
    · rw [hsame]
      exact h.once
    · rw [hcalls, List.filter_append, List.length_append]
      by_cases hk : a.claimed.intentId = k
      · have hnone : s.calls.filter (·.intentId = k) = [] := by
          rw [List.filter_eq_nil_iff]
          intro call hcall
          simpa using h.fresh a ha hk (.inr hchecked) call hcall
        rw [hnone, List.length_nil, Nat.zero_add]
        exact List.length_filter_le _ _
      · have hnone : ([⟨a.id, a.claimed.intentId, a.claimed.connection⟩] : List TriggerCall).filter
            (·.intentId = k) = [] := by
          simp [hk]
        rw [hnone]
        exact h.once
  waiting := by
    intro g' hg' hwait
    have hold : ∃ g, s.store.graphs.get? k = some g ∧ g.intent = g'.intent := by
      rcases step_graph_cases hg' with
        hold | ⟨g, mv, hg, hmove, -, rfl⟩ | ⟨_, _, _, _, _, hnone, -⟩
      · exact ⟨g', hold, rfl⟩
      · exact ⟨g, hg, (h.status_of_move hmove hwait).symm⟩
      · obtain ⟨kind, ⟨g, c, hg, -⟩, -⟩ := h.kind
        simp [hg] at hnone
    obtain ⟨g, hg, hsame⟩ := hold
    refine (h.waiting g hg (hsame ▸ hwait)).step ?_
    -- a claim does not leave its intent waiting
    intro w l t now skipped g₁ he hvalid hcand hid hclaimed
    subst he
    have hget := (h.untouched_of_claim hok hvalid hcand hid).1
    have hrun : g₁.run.id = k := Table.key_of_get? hget
    rw [hrun] at hclaimed
    obtain rfl := Option.some.inj (hg'.symm.trans hclaimed)
    simp [RunGraph.claim] at hwait

theorem Once.of_untouched {kind : ProviderKind} (h : s.Coherent) (hkind : KindOf s.store k kind)
    (hunkeyed : Unkeyed kind) (hun : Untouched s k) : Once k s where
  coherent := h
  kind := ⟨kind, hkind, hunkeyed⟩
  single := fun a ha _ _ hak _ haa _ => absurd haa (hun.1 a ha hak)
  fresh := fun _ _ _ _ => hun.2
  once := by
    have hnone : s.calls.filter (·.intentId = k) = [] := by
      rw [List.filter_eq_nil_iff]
      intro call hcall
      simpa using hun.2 call hcall
    rw [hnone]
    exact Nat.zero_le 1
  waiting := fun _ _ _ => hun

/-- Every intent of an unkeyed provider is called for once at most. -/
structure AllOnce (s : ProviderSystem) : Prop where
  coherent : s.Coherent
  called : ∀ call ∈ s.calls, ∃ g, s.store.graphs.get? call.intentId = some g
  once : ∀ k kind, KindOf s.store k kind → Unkeyed kind → Once k s

/-- An intent that does not exist yet is untouched. -/
theorem AllOnce.untouched (h : AllOnce s) (hnone : s.store.graphs.get? k = none) :
    Untouched s k := by
  refine ⟨fun a ha hak _ => ?_, fun call hcall hck => ?_⟩
  · obtain ⟨⟨g, c, hg, -⟩, hid, -⟩ := h.coherent.attempt a ha
    rw [← hid, hak, hnone] at hg
    simp at hg
  · obtain ⟨g, hg⟩ := h.called call hcall
    rw [hck, hnone] at hg
    simp at hg

theorem AllOnce.step {e : ProviderEvent} (h : AllOnce s) (hok : TakesOverUntouched s e) :
    AllOnce (ProviderSystem.step safety s e) where
  coherent := h.coherent.step e
  called := by
    intro call hcall
    have hexists : ∃ g, s.store.graphs.get? call.intentId = some g := by
      rcases (dispatchStep safety s e).call with hsame | ⟨a, ha, -, -, hcalls, -⟩
      · rw [hsame] at hcall
        exact h.called call hcall
      · rw [hcalls] at hcall
        rcases List.mem_append.mp hcall with hold | hcall
        · exact h.called call hold
        · obtain rfl := List.mem_singleton.mp hcall
          obtain ⟨⟨g, c, hg, -⟩, hid, -⟩ := h.coherent.attempt a ha
          exact ⟨g, hid ▸ hg⟩
    obtain ⟨g, hg⟩ := hexists
    obtain ⟨g', hg', -⟩ := step_extends safety hg e
    exact ⟨g', hg'⟩
  once := by
    intro k kind hkind hunkeyed
    cases hold : s.store.graphs.get? k with
    | some g =>
      obtain ⟨c, hc⟩ := h.coherent.connected k g hold
      have hbefore : KindOf s.store k c.kind := ⟨g, c, hold, hc, rfl⟩
      have hsame : c.kind = kind := (hbefore.step e).unique hkind
      exact (h.once k c.kind hbefore (hsame ▸ hunkeyed)).step hok
    | none =>
      refine .of_untouched (h.coherent.step e) hkind hunkeyed ((h.untouched hold).step ?_)
      intro w l t now skipped g _ _ hcand hid _
      have hget := (ProviderStore.claimCandidate_eq_some hcand).1
      rw [← (h.coherent.intent _ g hget).1, hid, hold] at hget
      simp at hget

theorem allOnce_empty : AllOnce empty where
  coherent := coherent_empty
  called := by simp [empty]
  once := by
    rintro k kind ⟨g, c, hg, -⟩
    simp [empty, ProviderStore.empty] at hg

/-- While expired leases are taken over only from dispatchers that have not called,
a provider without idempotency keys is called at most once for an intent. -/
theorem calls_le_one_of_takesOverUntouched (safety : RuntimeSafetyConfig)
    (es : List ProviderEvent) (h : Transition.Along TakesOverUntouched (step safety) empty es)
    (k : Uuid) (kind : ProviderKind)
    (hkind : KindOf (Transition.run (step safety) empty es).store k kind)
    (hunkeyed : kind = .jenkins ∨ kind = .gitlab ∨ kind = .bkCi) :
    ((Transition.run (step safety) empty es).calls.filter (·.intentId = k)).length ≤ 1 := by
  have hend := Transition.invariant_along (I := AllOnce) (fun _ _ hs hok => hs.step hok)
    allOnce_empty h
  exact (hend.once k kind hkind hunkeyed).once

/-- A laboratory with a Jenkins of its own. -/
def laboratory : RuntimeSafetyConfig :=
  { appEnv := "local", providerRuntimeMode := "self_hosted_lab", ownershipAcknowledged := true
    loopbackOnly := true, providerSecretEnvNames := [] }

/-- Connects to a job of the Jenkins and triggers it once, as run 0. -/
def jenkinsTrigger : List ProviderEvent :=
  [.createConnection
    { name := "Jenkins", kind := .jenkins, baseUrl := some "http://127.0.0.1:8080"
      definitionRef := "demo", config := [("job_name", "demo"), ("username", "qa")]
      secretEnvVar := some "QA_PROVIDER_SECRET_JENKINS", webhookSecretEnvVar := none
      enabled := true } 0,
    lessonTrigger]

/-- A dispatcher that claims a due intent and calls its provider, but never comes
to settle it. -/
def callAt (attempt : Uuid) (now : Instant) : List ProviderEvent :=
  [.claim "dispatcher" 5 "lease" now [], .checkVersion attempt, .callTrigger attempt .lost ""]

theorem calls_le_one_of_takesOverUntouched_jenkins :
    (Transition.run (step laboratory) empty
        (jenkinsTrigger ++ [.claim "dispatcher" 5 "lease" 2 [], .crash 0]
          ++ callAt 1 (seconds 10))).calls.length = 1
      ∧ ((Transition.run (step laboratory) empty
        (jenkinsTrigger ++ [.claim "dispatcher" 5 "lease" 2 [], .crash 0]
          ++ callAt 1 (seconds 10))).calls.filter (·.intentId = 0)).length ≤ 1 := by
  obtain ⟨g, hg, hconn⟩ : ∃ g, (Transition.run (step laboratory) empty
      (jenkinsTrigger ++ [.claim "dispatcher" 5 "lease" 2 [], .crash 0]
        ++ callAt 1 (seconds 10))).store.graphs.get? 0 = some g ∧ g.run.connectionId = 0 :=
    exists_graph (by decide +kernel)
  obtain ⟨c, hc, hkind⟩ : ∃ c, (Transition.run (step laboratory) empty
      (jenkinsTrigger ++ [.claim "dispatcher" 5 "lease" 2 [], .crash 0]
        ++ callAt 1 (seconds 10))).store.connections.get? 0 = some c ∧ c.kind = .jenkins :=
    Option.map_eq_some_iff.mp (by decide +kernel)
  exact ⟨by decide +kernel, calls_le_one_of_takesOverUntouched laboratory _ (by decide +kernel) 0
    .jenkins ⟨g, c, hg, hconn ▸ hc, hkind⟩ (by decide)⟩

/-- A dispatcher dies after its call, its lease expires, and the next dispatcher
calls again. -/
theorem not_calls_le_one_after_takeover :
    ¬ ∀ (es : List ProviderEvent) (k : Uuid) (kind : ProviderKind),
      KindOf (Transition.run (step laboratory) empty es).store k kind →
      kind = .jenkins ∨ kind = .gitlab ∨ kind = .bkCi →
      ((Transition.run (step laboratory) empty es).calls.filter (·.intentId = k)).length ≤ 1 := by
  intro h
  obtain ⟨g, hg, hconn⟩ : ∃ g, (Transition.run (step laboratory) empty
      (jenkinsTrigger ++ callAt 0 2 ++ callAt 1 (seconds 10))).store.graphs.get? 0 = some g
      ∧ g.run.connectionId = 0 := exists_graph (by decide +kernel)
  obtain ⟨c, hc, hkind⟩ : ∃ c, (Transition.run (step laboratory) empty
      (jenkinsTrigger ++ callAt 0 2 ++ callAt 1 (seconds 10))).store.connections.get? 0 = some c
      ∧ c.kind = .jenkins := Option.map_eq_some_iff.mp (by decide +kernel)
  have hone := h _ 0 .jenkins ⟨g, c, hg, hconn ▸ hc, hkind⟩ (.inl rfl)
  exact absurd hone (by decide +kernel)

/-! ## The connection's version -/

/-- The event claims an intent only while its connection is as the trigger found it. -/
def ClaimsUnedited (s : ProviderSystem) (e : ProviderEvent) : Prop :=
  ∀ g ∈ s.claimedBy e, ∀ c ∈ s.store.connections.get? g.intent.connectionId,
    c.version = g.intent.connectionVersion

instance (s : ProviderSystem) (e : ProviderEvent) : Decidable (ClaimsUnedited s e) := by
  unfold ClaimsUnedited
  infer_instance

/-- The snapshot is one of the version that intent `k` was created for. -/
def Bound (s : ProviderStore) (k : Uuid) (c : ProviderConnectionRecord) : Prop :=
  ∃ g, s.graphs.get? k = some g ∧ c.id = g.intent.connectionId
    ∧ c.version = g.intent.connectionVersion

theorem Bound.step {c : ProviderConnectionRecord} (h : Bound s.store k c) (e : ProviderEvent) :
    Bound (ProviderSystem.step safety s e).store k c := by
  obtain ⟨g, hg, hid, hversion⟩ := h
  obtain ⟨g', hg', hext⟩ := step_extends safety hg e
  exact ⟨g', hg', hid.trans hext.intentConnectionId.symm,
    hversion.trans hext.connectionVersion.symm⟩

/-- Every snapshot in use is of the version that its intent was created for. -/
structure AllBound (s : ProviderSystem) : Prop where
  coherent : s.Coherent
  attempt : ∀ a ∈ s.attempts.rows, Bound s.store a.claimed.intentId a.claimed.connection
  call : ∀ call ∈ s.calls, Bound s.store call.intentId call.connection

theorem AllBound.step {e : ProviderEvent} (h : AllBound s) (hok : ClaimsUnedited s e) :
    AllBound (ProviderSystem.step safety s e) where
  coherent := h.coherent.step e
  attempt := by
    intro a' ha'
    refine Bound.step ?_ e
    have hstep := dispatchStep safety s e
    revert ha' hok hstep
    generalize (ProviderSystem.step safety s e).attempts = attempts
    generalize (ProviderSystem.step safety s e).calls = calls
    intro hok ha' hstep
    have hkeep (a : DispatchAttempt) (phase : AttemptPhase) (ha : s.attempts.get? a.id = some a)
        (hput : a' ∈ (s.attempts.put { a with phase }).rows) :
        Bound s.store a'.claimed.intentId a'.claimed.connection := by
      rcases Table.mem_put hput with rfl | ⟨hold, -⟩
      · exact h.attempt a (Table.mem_of_get? ha)
      · exact h.attempt a' hold
    cases hstep with
    | idle => exact h.attempt a' ha'
    | compared a phase ha => exact hkeep a phase ha ha'
    | spared a answer generated outcome ha => exact hkeep a _ ha ha'
    | called a answer generated phase ha => exact hkeep a phase ha ha'
    | ended _ a ha => exact hkeep a .closed ha ha'
    | claimed w l t now skipped g c hvalid hcand hg hclaimable hc claimed hclaimed =>
      rcases Table.mem_add ha' with hold | rfl
      · exact h.attempt a' hold
      · obtain ⟨hintent, hrun, hconn⟩ := hclaimed
        dsimp only
        rw [hintent, hconn]
        refine ⟨g, ?_, Table.key_of_get? hc, hok g (claimedBy_claim t hvalid hcand) c hc⟩
        rw [(h.coherent.intent _ g hg).1]
        exact hg
  call := by
    intro call hcall
    refine Bound.step ?_ e
    rcases (dispatchStep safety s e).call with hsame | ⟨a, ha, -, -, hcalls, -⟩
    · rw [hsame] at hcall
      exact h.call call hcall
    · rw [hcalls] at hcall
      rcases List.mem_append.mp hcall with hold | hcall
      · exact h.call call hold
      · obtain rfl := List.mem_singleton.mp hcall
        exact h.attempt a ha

/-- A connection edited since the claim ends the attempt with a rejection. -/
theorem step_checkVersion_of_edited {a : DispatchAttempt} {c : ProviderConnectionRecord}
    (ha : s.attempts.get? a.id = some a) (hphase : a.phase = .claimed)
    (hc : s.store.connections.get? a.claimed.connection.id = some c)
    (hedited : a.claimed.connection.version ≠ c.version) :
    (ProviderSystem.step safety s (.checkVersion a.id)).attempts.get? a.id
      = some { a with phase := .answered (.failure "connection_version_changed" false) } := by
  have hstep : ProviderSystem.step safety s (.checkVersion a.id)
      = s.setPhase a (.answered (.failure "connection_version_changed" false)) := by
    simp only [ProviderSystem.step, ha, hphase, checkVersion, hc, if_pos hedited]
  rw [hstep]
  exact Table.get?_put_self ha rfl

/-- While no intent is claimed after an edit of its connection, providers are
called with the version that the intent was created for, and an edit between a
claim and its call leads to the rejection. -/
theorem bound_of_claimsUnedited (safety : RuntimeSafetyConfig) (es : List ProviderEvent)
    (h : Transition.Along ClaimsUnedited (step safety) empty es) :
    let s := Transition.run (step safety) empty es
    (∀ call ∈ s.calls, ∀ g, s.store.graphs.get? call.intentId = some g →
      call.connection.version = g.intent.connectionVersion)
    ∧ ∀ a ∈ s.attempts.rows, ∀ g, s.store.graphs.get? a.claimed.intentId = some g →
      a.phase = .claimed → ∀ c, s.store.connections.get? g.intent.connectionId = some c →
      c.version ≠ g.intent.connectionVersion →
      (step safety s (.checkVersion a.id)).attempts.get? a.id
        = some { a with phase := .answered (.failure "connection_version_changed" false) } := by
  intro s
  have hempty : AllBound empty :=
    ⟨coherent_empty, by simp [empty, Table.empty], by simp [empty]⟩
  have hend : AllBound s := Transition.invariant_along (I := AllBound)
    (fun _ _ hs hok => hs.step hok) hempty h
  refine ⟨fun call hcall g hg => ?_, fun a ha g hg hphase c hc hedited => ?_⟩
  · obtain ⟨g', hg', -, hversion⟩ := hend.call call hcall
    obtain rfl := Option.some.inj (hg.symm.trans hg')
    exact hversion
  · obtain ⟨g', hg', hid, hversion⟩ := hend.attempt a ha
    obtain rfl := Option.some.inj (hg.symm.trans hg')
    exact step_checkVersion_of_edited (Table.get?_key ha) hphase (hid ▸ hc)
      fun hsame => hedited (hsame.symm.trans hversion)

/-- Renames the connection, which counts as an edit like any other. -/
def rename (version : Nat) (now : Instant) : ProviderEvent :=
  .updateConnection 0 ⟨.value "renamed", .unset, .unset, .unset, .unset, .unset,
    .unset, version⟩ now

/-- The connection is edited after the call. -/
theorem bound_of_claimsUnedited_jenkins :
    (Transition.run (step laboratory) empty
      (jenkinsTrigger ++ callAt 0 2 ++ [rename 0 3])).calls.map
        (·.connection.version) = [0]
      ∧ ∀ call ∈ (Transition.run (step laboratory) empty
          (jenkinsTrigger ++ callAt 0 2 ++ [rename 0 3])).calls, ∀ g,
        (Transition.run (step laboratory) empty
          (jenkinsTrigger ++ callAt 0 2 ++ [rename 0 3])).store.graphs.get? call.intentId = some g →
        call.connection.version = g.intent.connectionVersion :=
  ⟨by decide +kernel, (bound_of_claimsUnedited laboratory _ (by decide +kernel)).1⟩

/-- The connection is edited between the creation of the intent and its claim, and
the provider is called with the edited connection. -/
theorem not_bound_after_edit :
    ¬ ∀ (es : List ProviderEvent), ∀ call ∈ (Transition.run (step laboratory) empty es).calls,
      ∀ g, (Transition.run (step laboratory) empty es).store.graphs.get? call.intentId = some g →
      call.connection.version = g.intent.connectionVersion := by
  intro h
  obtain ⟨g, hg, hversion⟩ : ∃ g, (Transition.run (step laboratory) empty
      (jenkinsTrigger ++ [rename 0 2] ++ callAt 0 3)).store.graphs.get? 0 = some g
      ∧ g.intent.connectionVersion = 0 := exists_graph (by decide +kernel)
  have hcalls : (Transition.run (step laboratory) empty
      (jenkinsTrigger ++ [rename 0 2] ++ callAt 0 3)).calls.map
        (fun call => (call.intentId, call.connection.version)) = [(0, 1)] := by decide +kernel
  obtain ⟨call, hcall, hsame⟩ := List.exists_of_mem_map (hcalls ▸ List.mem_singleton_self _)
  obtain ⟨hid, hone⟩ := Prod.mk.inj hsame
  have hbound := h _ call hcall g (hid.symm ▸ hg)
  omega

end ProviderSystem

end QaPlatform.Runtime
