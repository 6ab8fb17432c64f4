import QaPlatform.CiLab.PoisonRuns
import QaPlatform.Runtime.ProviderSystem
import QaPlatform.Runtime.WebhookReceiver

/-!
# Refused deliveries

The sender tells from the status of an answer whether it tries again, and the receiver
answers every refusal with a status that says the request is at fault. So a delivery
that comes too early is a dead letter, and what comes after it in its run is not sent.

`refusals_are_final` goes through both programs: the receiver's error becomes a response, the
sender's reading of the response an outcome, and the outcome a settlement. A delivery that is
dead stays so in every run in which nobody asks for a retry, and as deliveries of a run are sent
in order, no later one is sent either. `early_callback_lost` is a callback that arrives before
the platform knows the run, and that would be accepted a moment later.
-/

namespace QaPlatform.CiLab.CiLabStore

open QaPlatform.Transition
open QaPlatform.Runtime (ProviderStore ProviderSystem ProviderWebhookPayload RuntimeSafetyConfig
  WebhookRequest WebhookStatus)
open CiLabWebhookWorker (settle)

variable {setup : Setup} {registry : DefinitionRegistry} {s s' : CiLabStore} {now : Instant}
  {claimed : ClaimedWebhookDelivery} {e : DomainError}

/-! ## The answer -/

/-- A refusal, as the sender sees it. -/
def refusal (e : DomainError) : Transmission := .answered e.statusCode none

/-- None of the receiver's refusals is tried again. -/
theorem deliver_refusal (claimed : ClaimedWebhookDelivery) (h : e.Handled) :
    deliver claimed (refusal e) = ⟨false, false, some ("http_" ++ toString e.statusCode)⟩ := by
  have hstatus := h.statusCode
  have hfinal : ¬ RetryableStatus e.statusCode := by
    unfold RetryableStatus
    simp only [List.mem_cons, List.not_mem_nil, or_false] at hstatus
    omega
  have hrefused : ¬ (200 ≤ e.statusCode ∧ e.statusCode < 300) := by
    simp only [List.mem_cons, List.not_mem_nil, or_false] at hstatus
    omega
  show (if RetryableStatus e.statusCode then _ else _) = _
  rw [if_neg hfinal, if_pos hrefused]

theorem isErrorCode_refusal (h : e.Handled) :
    isErrorCode ("http_" ++ toString e.statusCode) = true := by
  have hstatus := h.statusCode
  generalize e.statusCode = n at hstatus ⊢
  simp only [List.mem_cons, List.not_mem_nil, or_false] at hstatus
  rcases hstatus with rfl | rfl | rfl | rfl | rfl
  all_goals decide +kernel

/-! ## The settlement -/

/-- A settlement of what was not delivered is the call that fails it. -/
theorem settle_step (setup : Setup) (registry : DefinitionRegistry) (s : CiLabStore)
    (claimed : ClaimedWebhookDelivery) {outcome : DeliveryOutcome} (h : outcome.delivered = false)
    (now : Instant) :
    (settle s claimed outcome now).1 = s.step setup ⟨registry, now, .failWebhookDelivery claimed
      (outcome.errorCode.getD "delivery_failed") outcome.retryable⟩ := by
  unfold settle step call
  rw [h]
  dsimp only
  cases s.failWebhookDelivery claimed (outcome.errorCode.getD "delivery_failed") outcome.retryable
    now with
  | ok x => rfl
  | error error => cases error <;> rfl

/-- A delivery that is failed for good is a dead letter. -/
theorem fail_dead (setup : Setup) (registry : DefinitionRegistry) {errorCode : String}
    (hcode : isErrorCode errorCode = true)
    (hheld : s.Held claimed now) :
    (s.step setup ⟨registry, now, .failWebhookDelivery claimed errorCode false⟩).Dead
    claimed.id := by
  obtain ⟨r, hr, hlease⟩ := hheld
  have hid : r.id = claimed.id := Table.key_of_get? hr
  have hfailed : s.failWebhookDelivery claimed errorCode false now
      = .ok ({ s with deliveries := s.deliveries.put (r.failed errorCode false now) },
        r.failed errorCode false now) := by
    refine refuse_bind_eq_ok.mpr ⟨by simp [hcode], ?_⟩
    exact bind_eq_ok.mpr ⟨r, requireWebhookDeliveryLease_eq_ok.mpr ⟨hr, hlease⟩, rfl⟩
  have hcall : s.call setup registry now (.failWebhookDelivery claimed errorCode false)
      = .ok { s with deliveries := s.deliveries.put (r.failed errorCode false now) } :=
    map_eq_ok.mpr ⟨_, hfailed, rfl⟩
  rw [step_ok hcall]
  exact ⟨r.failed errorCode false now, Table.get?_put_self hr hid, rfl⟩

/-! ## What follows -/

theorem run_dead (setup : Setup) {k : Uuid} (h : s.Dead k) {es : List Event}
    (hcall : ∀ e ∈ es, e.call ≠ .retryWebhookDelivery k) :
    (Transition.run (step setup) s es).Dead k := by
  induction es generalizing s with
  | nil => exact h
  | cons e es ih =>
    exact ih (h.step (hcall e List.mem_cons_self)) fun e he => hcall e (List.mem_cons_of_mem _ he)

/-- The delivery or a later one of its run has been sent, or is being sent. -/
def SentFrom (s : CiLabStore) (k : Uuid) : Prop :=
  ∃ d, s.deliveries.get? k = some d ∧ ∃ r ∈ s.deliveries.rows, r.runId = d.runId
    ∧ d.sequence ≤ r.sequence ∧ (r.status = .claimed ∨ r.status = .delivered)

/-- A dead letter blocks its run. -/
theorem Dead.not_sent {k : Uuid} (h : s.Dead k) (hs : s.Ordered) : ¬ s.SentFrom k := by
  obtain ⟨d, hd, hdead⟩ := h
  rintro ⟨d', hd', r, hr, hrun, hle, hsent⟩
  obtain rfl := Option.some.inj (hd.symm.trans hd')
  have hmem := Table.mem_of_get? hd
  rcases Nat.lt_or_eq_of_le hle with hlt | heq
  · have hdelivered := hs.preceded r hr hsent d hmem hrun.symm hlt
    rw [hdead] at hdelivered
    cases hdelivered
  · obtain ⟨hget, -⟩ := hs.numbered.exists_index (mem_deliveriesOf.mpr ⟨hmem, rfl⟩)
    obtain ⟨hget', -⟩ := hs.numbered.exists_index (mem_deliveriesOf.mpr ⟨hr, hrun⟩)
    rw [heq] at hget
    obtain rfl := Option.some.inj (hget.symm.trans hget')
    rw [hdead] at hsent
    rcases hsent with hsent | hsent
    all_goals cases hsent

/-- What a refusal makes of a delivery, and of its run. -/
theorem refused_dead (setup : Setup) (es : List Event) (h : e.Handled)
    (hheld : (Transition.run (step setup) empty es).Held claimed now) :
    let s' := (settle (Transition.run (step setup) empty es) claimed (deliver claimed (refusal e))
      now).1
    s'.Dead claimed.id ∧ ∀ es', (∀ e ∈ es', e.call ≠ .retryWebhookDelivery claimed.id) →
      ¬ (Transition.run (step setup) s' es').SentFrom claimed.id := by
  dsimp only
  rw [deliver_refusal claimed h, settle_step setup (fun _ => none) _ claimed rfl now]
  have hdead := fail_dead setup (fun _ => none) (isErrorCode_refusal h) hheld
  refine ⟨hdead, fun es' hcall => ?_⟩
  have hlater := run_dead setup hdead hcall
  refine hlater.not_sent ?_
  have hordered := run_ordered setup (es ++ ⟨fun _ => none, now, .failWebhookDelivery claimed
    ("http_" ++ toString e.statusCode) false⟩ :: es')
  rw [run_append, run_cons] at hordered
  exact hordered

/-! ## A callback that comes too early -/

/-- A run of CI Lab, and a worker that has claimed its first delivery. -/
def lessonClaim : List Event :=
  [⟨lessonRegistry ["deploy"], 0, .trigger "deploy" (lessonRequested "lesson") "lesson"⟩,
    ⟨lessonRegistry ["deploy"], 0, .claimWebhookDelivery "worker" 30 "token"⟩]

/-- The delivery as the worker has claimed it. -/
def lessonClaimed : ClaimedWebhookDelivery where
  id := 0
  runId := 0
  connectionId := 0
  eventId := 0
  rawBody := webhookBody lessonSetup ⟨0, 0, "lesson", 0⟩ 0 none 0 1 .queued
  workerId := "worker"
  leaseToken := "token"
  version := 1
  attempts := 1
  maxAttempts := webhookDefaultMaxAttempts

/-- Its request, signed as it should be. -/
def lessonRequest : WebhookRequest where
  secret := some "secret"
  verify _ := some ⟨"0", ⟨"body"⟩⟩
  payload := some
    { connectionId := 0, correlationId := "lesson", externalId := "0", sequence := 1,
      occurredAt := 0
      status := .queued, message := none }

/-- The platform, before it knows of the run and after. -/
def unlinked : ProviderStore :=
  (Transition.run (ProviderSystem.step ProviderSystem.lesson) ProviderSystem.empty
    [ProviderSystem.lessonConnection "deploy"]).store

/-- The platform when it has triggered the run and knows its number. -/
def linked : ProviderStore :=
  (Transition.run (ProviderSystem.step ProviderSystem.lesson) ProviderSystem.empty
    [ProviderSystem.lessonConnection "deploy", ProviderSystem.lessonTrigger]).store

theorem lessonClaim_held :
    (Transition.run (step lessonSetup) empty lessonClaim).Held lessonClaimed 1 := by
  have hrow : ((Transition.run (step lessonSetup) empty lessonClaim).deliveries.get? 0).any
      fun r => r.HeldBy lessonClaimed 1 := by
    decide +kernel
  cases hr : (Transition.run (step lessonSetup) empty lessonClaim).deliveries.get? 0 with
  | none =>
    rw [hr] at hrow
    cases hrow
  | some r =>
    rw [hr] at hrow
    exact ⟨r, hr, by simpa using hrow⟩

theorem unlinked_refuses :
    unlinked.receiveLearningCiWebhook ProviderSystem.lesson unlinked 0 lessonRequest 1
      = .error (.conflict "Webhook 回调未关联到本地运行") := by
  rfl

theorem linked_accepts :
    (linked.receiveLearningCiWebhook ProviderSystem.lesson linked 0 lessonRequest
      2).toOption.isSome := by
  decide +kernel

/-! ## Refusals -/

/-- Whatever the receiver refuses a delivery for, the delivery is not kept for another try, and
without an administrator's retry neither it nor a later one of its run is sent. -/
theorem refusals_are_final (setup : Setup) (es : List Event) (safety : RuntimeSafetyConfig)
    (before after : ProviderStore) (connectionId : Uuid) (request : WebhookRequest)
    (receivedAt now : Instant) (claimed : ClaimedWebhookDelivery) (e : DomainError)
    (hheld : (Transition.run (step setup) empty es).Held claimed now)
    (hrefused : before.receiveLearningCiWebhook safety after connectionId request receivedAt
      = .error e) :
    let outcome := deliver claimed (refusal e)
    let s' := (settle (Transition.run (step setup) empty es) claimed outcome now).1
    outcome.retryable = false ∧ s'.Dead claimed.id
      ∧ ∀ es', (∀ e ∈ es', e.call ≠ .retryWebhookDelivery claimed.id) →
        ¬ (Transition.run (step setup) s' es').SentFrom claimed.id := by
  have hhandled : e.Handled := ProviderStore.receive_raises e hrefused
  refine ⟨?_, refused_dead setup es hhandled hheld⟩
  rw [deliver_refusal claimed hhandled]

theorem refusals_are_final_unlinked :
    (Transition.run (step lessonSetup) empty lessonClaim).Held lessonClaimed 1
    ∧ (deliver lessonClaimed (refusal (.conflict "Webhook 回调未关联到本地运行"))).retryable = false := by
  refine ⟨lessonClaim_held, ?_⟩
  exact (refusals_are_final lessonSetup lessonClaim ProviderSystem.lesson unlinked unlinked 0
    lessonRequest 1 1 lessonClaimed _ lessonClaim_held unlinked_refuses).1

/-- The same event would be accepted later, and is not sent again. -/
theorem early_callback_lost :
    (Transition.run (step lessonSetup) empty lessonClaim).Held lessonClaimed 1
    ∧ unlinked.receiveLearningCiWebhook ProviderSystem.lesson unlinked 0 lessonRequest 1
      = .error (.conflict "Webhook 回调未关联到本地运行")
    ∧ (linked.receiveLearningCiWebhook ProviderSystem.lesson linked 0 lessonRequest
        2).toOption.isSome
    ∧ let outcome := deliver lessonClaimed (refusal (.conflict "Webhook 回调未关联到本地运行"))
      let s' := (settle (Transition.run (step lessonSetup) empty lessonClaim) lessonClaimed outcome
        1).1
      outcome = ⟨false, false, some "http_409"⟩
        ∧ ∀ es', (∀ e ∈ es', e.call ≠ .retryWebhookDelivery 0) →
          ¬ (Transition.run (step lessonSetup) s' es').SentFrom 0 := by
  obtain ⟨-, hlost⟩ := refused_dead lessonSetup lessonClaim (handled_conflict _) lessonClaim_held
  exact ⟨lessonClaim_held, unlinked_refuses, linked_accepts, by decide +kernel, hlost⟩

end QaPlatform.CiLab.CiLabStore
