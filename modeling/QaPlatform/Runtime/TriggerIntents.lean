import QaPlatform.Runtime.ProviderCoherence

/-!
# Trigger intents get on

An open intent waits for a dispatcher, or for a lease to expire when a dispatcher
has died. The claim predicate bounds the attempts of both kinds, but only the
settlement of a failed attempt ends an intent that has used up its attempts: one
whose last dispatcher dies stays claimed, and nothing ever takes it up again.

An open intent is stuck exactly when it has no attempts left (`claimableLater_iff`). The rest
follows the attempts: only a claim takes one, and only the claim that takes the last one leaves
an open intent without any. The counterexample is five dispatchers, each of which dies after its
claim.
-/

namespace QaPlatform.Runtime

open Pipeline

namespace RunGraph

variable {g : RunGraph} {mv : Move} {intent : ProviderTriggerIntentRecord}

/-- The claim predicate holds of the intent again, whatever the time is now. -/
def ClaimableLater (intent : ProviderTriggerIntentRecord) : Prop :=
  ∀ clock : Instant, ∃ now, clock ≤ now ∧ Claimable intent now

/-- The columns of an intent fit its status. -/
structure Queued (intent : ProviderTriggerIntentRecord) : Prop where
  waiting : intent.status = .pending ∨ intent.status = .retryWait →
    intent.attempts < intent.maxAttempts
  leased : intent.status = .claimed → intent.leaseExpiresAt.isSome

/-- An open intent is stuck exactly when it has no attempts left. -/
theorem claimableLater_iff (h : Queued intent) (hopen : IntentOpen intent) :
    ClaimableLater intent ↔ intent.attempts < intent.maxAttempts := by
  constructor
  · intro hlater
    obtain ⟨now, -, hclaim⟩ := hlater 0
    exact hclaim.1
  · intro hleft clock
    rcases hopen with hp | hc | hr
    · exact ⟨max clock intent.availableAt, le_max_left _ _, hleft,
        .inl ⟨.inl hp, le_max_right _ _⟩⟩
    · obtain ⟨expires, hexpires⟩ := Option.isSome_iff_exists.mp (h.leased hc)
      refine ⟨max clock expires, le_max_left _ _, hleft, .inr ⟨hc, ?_⟩⟩
      simp [hexpires]
    · exact ⟨max clock intent.availableAt, le_max_left _ _, hleft,
        .inl ⟨.inr hr, le_max_right _ _⟩⟩

theorem Queued.move (h : Queued g.intent) (mv : Move) : Queued (g.move mv).intent := by
  have hstep := g.intentStep mv
  generalize (g.move mv).intent = intent at hstep ⊢
  cases hstep with
  | same => exact h
  | claimed => exact ⟨by simp [claim], fun _ => rfl⟩
  | succeeded => exact ⟨by simp [succeedIntent], by simp [succeedIntent]⟩
  | cancelled => exact ⟨by simp [cancelBeforeDispatch], by simp [cancelBeforeDispatch]⟩
  | failed token errorCode retryable now =>
    rcases failIntent_status g.intent errorCode retryable now with ⟨-, hleft, hs⟩ | hs | hs
    · exact ⟨fun _ => hleft, fun hc => by simp [hs] at hc⟩
    · exact ⟨fun hw => by simp [hs] at hw, fun hc => by simp [hs] at hc⟩
    · exact ⟨fun hw => by simp [hs] at hw, fun hc => by simp [hs] at hc⟩

/-- The move is a claim that takes the last attempt. -/
def TakesLastAttempt (g : RunGraph) : Move → Prop
  | .claim .. => g.intent.maxAttempts ≤ g.intent.attempts + 1
  | .finalize .. | .settleFailure .. | .cancelBeforeDispatch .. | .commitRefresh ..
  | .commitDecision .. | .webhook .. => False

/-- The intent has attempts left as long as it is open. -/
def AttemptsLeft (intent : ProviderTriggerIntentRecord) : Prop :=
  IntentOpen intent → intent.attempts < intent.maxAttempts

/-- Only a claim that takes the last attempt leaves an open intent without attempts. -/
theorem attemptsLeft_move (h : Queued g.intent) (hleft : AttemptsLeft g.intent)
    (hlast : ¬ g.TakesLastAttempt mv) : AttemptsLeft (g.move mv).intent := by
  intro hopen
  have hqueued : Queued (g.move mv).intent := h.move mv
  have hstep := g.intentStep mv
  generalize (g.move mv).intent = intent at hopen hqueued hstep ⊢
  rcases hopen with hp | hc | hr
  · exact hqueued.waiting (.inl hp)
  · cases hstep with
    | same => exact hleft (.inr (.inl hc))
    | claimed => exact Nat.not_le.mp hlast
    | succeeded => simp [succeedIntent] at hc
    | cancelled => simp [cancelBeforeDispatch] at hc
    | failed token errorCode retryable now =>
      rcases failIntent_status g.intent errorCode retryable now with ⟨-, -, hs⟩ | hs | hs
      · simp [hs] at hc
      · simp [hs] at hc
      · simp [hs] at hc
  · exact hqueued.waiting (.inr hr)

/-- A claim that takes the last attempt leaves the intent stuck. -/
theorem not_claimableLater_claim {workerId token : String} {leaseSeconds : Int} {now : Instant}
    (hlast : g.TakesLastAttempt (.claim workerId token leaseSeconds now)) :
    ¬ ClaimableLater (g.claim workerId token leaseSeconds now).intent := by
  intro hlater
  obtain ⟨clock, -, hclaim⟩ := hlater now
  exact absurd hclaim.1 (Nat.not_lt.mpr hlast)

end RunGraph

namespace ProviderSystem

variable {safety : RuntimeSafetyConfig} {s : ProviderSystem}

/-- Every intent is in order and can get on. -/
def GettingOn (s : ProviderSystem) : Prop :=
  ∀ k g, s.store.graphs.get? k = some g →
    RunGraph.Queued g.intent ∧ RunGraph.AttemptsLeft g.intent

/-- The event does not claim the last attempt of an intent. -/
def SparesLastAttempt (s : ProviderSystem) (e : ProviderEvent) : Prop :=
  ∀ g ∈ s.claimedBy e, g.intent.attempts + 1 < g.intent.maxAttempts

instance (s : ProviderSystem) (e : ProviderEvent) : Decidable (SparesLastAttempt s e) := by
  unfold SparesLastAttempt
  infer_instance

theorem gettingOn_step {e : ProviderEvent} (h : GettingOn s) (hspare : SparesLastAttempt s e) :
    GettingOn (step safety s e) := by
  by_cases hvalid : ∃ workerId leaseSeconds token now skipped,
      e = .claim workerId leaseSeconds token now skipped
      ∧ ¬ ProviderStore.ValidDispatch workerId leaseSeconds
  · obtain ⟨workerId, leaseSeconds, token, now, skipped, rfl, hvalid⟩ := hvalid
    rw [show step safety s (.claim workerId leaseSeconds token now skipped) = s from
      claim_of_not_valid token now skipped hvalid]
    exact h
  intro k g' hg'
  rcases step_graph_cases hg' with
    hold | ⟨g, mv, hg, hmove, -, rfl⟩ | ⟨_, _, _, _, _, -, -, -, -, rfl⟩
  · exact h k g' hold
  · obtain ⟨hqueued, hleft⟩ := h k g hg
    refine ⟨hqueued.move mv, RunGraph.attemptsLeft_move hqueued hleft fun hlast => ?_⟩
    cases moveOf_inv hmove with
    | claim workerId leaseSeconds token now skipped g' hcand =>
      have hsame : g = g' := by
        have hget := (ProviderStore.claimCandidate_eq_some hcand).1
        exact Option.some.inj (hg.symm.trans hget)
      have haccepted : ProviderStore.ValidDispatch workerId leaseSeconds :=
        not_not.mp fun hnot => hvalid ⟨_, _, _, _, _, rfl, hnot⟩
      have hspared := hspare g' (claimedBy_claim token haccepted hcand)
      exact absurd hlast (Nat.not_le.mpr (hsame ▸ hspared))
    | finalize => exact hlast
    | settle => exact hlast
    | cancel => exact hlast
    | refresh => exact hlast
    | decide => exact hlast
    | webhook => exact hlast
  · refine ⟨⟨fun _ => ?_, fun hc => ?_⟩, fun _ => ?_⟩
    · exact Nat.succ_pos 4
    · simp [ProviderStore.triggeredGraph] at hc
    · exact Nat.succ_pos 4

/-- While no dispatcher takes the last attempt of an intent, every open intent can
be claimed again at some later time. -/
theorem claimableLater_of_sparesLastAttempt (safety : RuntimeSafetyConfig)
    (es : List ProviderEvent) (h : Transition.Along SparesLastAttempt (step safety) empty es)
    (k : Uuid) (g : RunGraph)
    (hg : (Transition.run (step safety) empty es).store.graphs.get? k = some g)
    (hopen : RunGraph.IntentOpen g.intent) : RunGraph.ClaimableLater g.intent := by
  have hempty : GettingOn empty := by
    intro k g hg
    simp [empty, ProviderStore.empty] at hg
  have hend := Transition.invariant_along (I := GettingOn) (fun _ _ hs he => gettingOn_step hs he)
    hempty h
  obtain ⟨hqueued, hleft⟩ := hend k g hg
  exact (RunGraph.claimableLater_iff hqueued hopen).mpr (hleft hopen)

/-- Dispatchers that claim the lesson's intent and die. -/
def diesAt (now : Instant) : List ProviderEvent := [.claim "dispatcher" 5 "lease" now []]

theorem claimableLater_of_sparesLastAttempt_dies :
    ∃ g, (Transition.run (step lesson) empty
        ([lessonConnection "local-smoke", lessonTrigger] ++ diesAt 2)).store.graphs.get? 0 = some g
      ∧ g.intent.status = .claimed ∧ RunGraph.ClaimableLater g.intent := by
  obtain ⟨g, hg, hs⟩ : ∃ g, (Transition.run (step lesson) empty
      ([lessonConnection "local-smoke", lessonTrigger] ++ diesAt 2)).store.graphs.get? 0 = some g
      ∧ g.intent.status = .claimed := exists_graph (by decide +kernel)
  exact ⟨g, hg, hs, claimableLater_of_sparesLastAttempt lesson _ (by decide +kernel) 0 g hg
    (.inr (.inl hs))⟩

/-- Five dispatchers that die after their claim leave an open intent that nothing
takes up again. -/
theorem not_claimableLater_after_fifth_claim :
    ¬ ∀ (es : List ProviderEvent) (k : Uuid) (g : RunGraph),
      (Transition.run (step lesson) empty es).store.graphs.get? k = some g →
      RunGraph.IntentOpen g.intent → RunGraph.ClaimableLater g.intent := by
  intro h
  obtain ⟨g, hg, hend⟩ : ∃ g, (Transition.run (step lesson) empty
      ([lessonConnection "local-smoke", lessonTrigger] ++ diesAt 2 ++ diesAt (seconds 10)
        ++ diesAt (seconds 20) ++ diesAt (seconds 30) ++ diesAt (seconds 40))).store.graphs.get? 0
        = some g
      ∧ (g.intent.status, g.intent.attempts, g.intent.maxAttempts) = (.claimed, 5, 5) :=
    exists_graph (by decide +kernel)
  simp only [Prod.mk.injEq] at hend
  obtain ⟨hs, hattempts, hmax⟩ := hend
  obtain ⟨now, -, hclaim⟩ := h _ 0 g hg (.inr (.inl hs)) 0
  have hlt := hclaim.1
  omega

end ProviderSystem

end QaPlatform.Runtime
