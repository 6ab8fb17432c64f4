import QaPlatform.Base.Effects
import QaPlatform.CiLab.Steps

/-!
# The webhook worker

`CiLabWebhookWorker` (`app/ci_lab/webhook_worker.py`): it advances the subscribed runs,
claims one delivery, posts it and settles it, over and over. What the HTTP client comes
back with, when the clock is read and whether something else raises is the
environment's choice.
-/

namespace QaPlatform.CiLab

/-- `DeliveryOutcome`. -/
structure DeliveryOutcome where
  delivered : Bool
  retryable : Bool
  errorCode : Option String
deriving DecidableEq, Repr

/-- How posting a delivery ends. -/
inductive Transmission where
  /-- `TimeoutException` or `NetworkError`. -/
  | networkError
  /-- Any other `HTTPError`. -/
  | transportError
  | tooLarge
  /-- A status code and, when they can be read, the result and the event id of the answer. -/
  | answered (statusCode : Nat) (document : Option (String × Uuid))

/-- `_SUCCESS_RESULTS`. -/
def successResults : List String := ["applied", "duplicate", "stale", "reconcile_required"]

/-- A status that the worker tries again after. -/
def RetryableStatus (statusCode : Nat) : Prop :=
  statusCode = 408 ∨ statusCode = 425 ∨ statusCode = 429 ∨ 500 ≤ statusCode

instance (statusCode : Nat) : Decidable (RetryableStatus statusCode) := by
  unfold RetryableStatus
  infer_instance

/-- `_deliver`, for what posting ended with. -/
def deliver (claimed : ClaimedWebhookDelivery) : Transmission → DeliveryOutcome
  | .networkError => ⟨false, true, some "network_error"⟩
  | .transportError => ⟨false, true, some "http_transport_error"⟩
  | .tooLarge => ⟨false, false, some "response_too_large"⟩
  | .answered statusCode document =>
    if RetryableStatus statusCode then ⟨false, true, some ("http_" ++ toString statusCode)⟩
    else if ¬ (200 ≤ statusCode ∧ statusCode < 300) then
      ⟨false, false, some ("http_" ++ toString statusCode)⟩
    else
      match document with
      | none => ⟨false, false, some "response_invalid"⟩
      | some (result, eventId) =>
        if eventId ≠ claimed.eventId then ⟨false, false, some "response_event_mismatch"⟩
        else if result ∈ successResults then ⟨true, false, none⟩
        else ⟨false, false, some "response_result_invalid"⟩

/-- `CiLabWebhookWorker` with the part of its configuration that the loop reads. -/
structure CiLabWebhookWorker where
  workerId : String
  leaseSeconds : Int
  refreshLimit : Nat
  /-- The checks of the constructor. -/
  valid : isWorkerId workerId = true ∧ (5 ≤ leaseSeconds ∧ leaseSeconds ≤ 300)
    ∧ (1 ≤ refreshLimit ∧ refreshLimit ≤ 500)

/-- What the environment makes of one iteration: the clock at its three transactions, the token
that is drawn, and how posting ends, unless it raises. -/
structure Iteration where
  advancedAt : Instant
  claimedAt : Instant
  settledAt : Instant
  leaseToken : String
  transmission : Option Transmission

namespace CiLabWebhookWorker

/-- The settlement of a claim; a lost lease is nothing to raise for. -/
def settle (s : CiLabStore) (claimed : ClaimedWebhookDelivery) (outcome : DeliveryOutcome)
    (now : Instant) : CiLabStore × Except CiLabError Bool :=
  let settled :=
    if outcome.delivered then (s.completeWebhookDelivery claimed now).map (·.1)
    else (s.failWebhookDelivery claimed (outcome.errorCode.getD "delivery_failed") outcome.retryable
      now).map (·.1)
  match settled with
  | .ok s' => (s', .ok true)
  | .error (.conflict _) => (s, .ok true)
  | .error e => (s, .error e)

/-- The first two transactions of `run_once`. -/
def claimOnce (setup : Setup) (registry : DefinitionRegistry) (w : CiLabWebhookWorker)
    (i : Iteration) (s : CiLabStore) :
    CiLabStore × Except CiLabError (Option ClaimedWebhookDelivery) :=
  match s.advanceWebhookRunsOnce setup registry w.refreshLimit i.advancedAt with
  | .error e => (s, .error e)
  | .ok (advanced, _) =>
    match advanced.claimWebhookDelivery w.workerId w.leaseSeconds i.leaseToken i.claimedAt with
    | .error e => (advanced, .error e)
    | .ok (store, claimed) => (store, .ok claimed)

/-- The rest of `run_once`. -/
def settleOnce (i : Iteration) (s : CiLabStore) :
    Option ClaimedWebhookDelivery → CiLabStore × Except CiLabError Bool
  | none => (s, .ok false)
  | some claimed =>
    match i.transmission with
    | none => (s, .error (.runtime "posting raised"))
    | some transmission => settle s claimed (deliver claimed transmission) i.settledAt

/-- `run_once`. -/
def runOnce (setup : Setup) (registry : DefinitionRegistry) (w : CiLabWebhookWorker) (i : Iteration)
    (s : CiLabStore) : CiLabStore × Except CiLabError Bool :=
  andThen (w.claimOnce setup registry i s) (settleOnce i)

/-- `run_forever`: an iteration that raises is logged, and the next one follows. -/
def storeAfter (setup : Setup) (registry : DefinitionRegistry) (w : CiLabWebhookWorker)
    (its : Nat → Iteration) (s : CiLabStore) : Nat → CiLabStore
  | 0 => s
  | n + 1 => (w.runOnce setup registry (its n) (w.storeAfter setup registry its s n)).1

/-- The iteration claims a delivery and posts it. -/
def Posts (setup : Setup) (registry : DefinitionRegistry) (w : CiLabWebhookWorker) (i : Iteration)
    (s : CiLabStore) (deliveryId : Uuid) : Prop :=
  ∃ claimed, (w.claimOnce setup registry i s).2 = .ok (some claimed) ∧ claimed.id = deliveryId

end CiLabWebhookWorker

/-! ## Names -/

theorem strip_eq_self {value : String} (h : ∀ c ∈ value.toList, isSpace c = false) :
    strip value = value := by
  have hdrop {l : List Char} (hl : ∀ c ∈ l, isSpace c = false) : l.dropWhile isSpace = l := by
    cases l with
    | nil => rfl
    | cons c l => exact List.dropWhile_cons_of_neg (by simp [hl c List.mem_cons_self])
  unfold strip
  rw [hdrop h, hdrop fun c hc => h c (List.mem_reverse.mp hc), List.reverse_reverse,
    String.ofList_toList]

theorem isAlnum_not_space {c : Char} (h : isAlnum c = true) : isSpace c = false := by
  simp only [isAlnum, Char.le_def, UInt32.le_iff_toNat_le, decide_eq_true_eq] at h
  have hA : 'A'.val.toNat = 65 := rfl
  have hZ : 'Z'.val.toNat = 90 := rfl
  have ha : 'a'.val.toNat = 97 := rfl
  have hz : 'z'.val.toNat = 122 := rfl
  have h0 : '0'.val.toNat = 48 := rfl
  have h9 : '9'.val.toNat = 57 := rfl
  have hc : c.toNat = c.val.toNat := rfl
  simp only [isSpace, decide_eq_false_iff_not]
  omega

/-- A worker's name has no blanks. -/
theorem strip_workerId {workerId : String} (h : isWorkerId workerId = true) :
    strip workerId = workerId := by
  refine strip_eq_self fun c hc => ?_
  unfold isWorkerId fullmatch at h
  split at h
  · next heq =>
    rw [heq] at hc
    cases hc
  · next first rest heq =>
    rw [heq] at hc
    simp only [decide_eq_true_eq] at h
    obtain ⟨hfirst, -, hrest⟩ := h
    rcases List.mem_cons.mp hc with rfl | hc
    · exact isAlnum_not_space hfirst
    · have hmatch := List.all_eq_true.mp hrest c hc
      simp only [decide_eq_true_eq] at hmatch
      rcases hmatch with halnum | rfl | rfl | rfl | rfl | rfl
      · exact isAlnum_not_space halnum
      all_goals decide

namespace CiLabWebhookWorker

/-! ## Iterations -/

variable {setup : Setup} {registry : DefinitionRegistry} {w : CiLabWebhookWorker} {i : Iteration}
  {s s₁ : CiLabStore}

/-- What the constructor has checked, a claim does not refuse. -/
theorem accepted (w : CiLabWebhookWorker) : CiLabStore.ClaimAccepted w.workerId w.leaseSeconds := by
  obtain ⟨hworker, hlease, -⟩ := w.valid
  exact ⟨by rw [strip_workerId hworker]; exact hworker, hlease⟩

/-- The pass of an iteration does not raise. -/
def Passes (setup : Setup) (registry : DefinitionRegistry) (w : CiLabWebhookWorker) (i : Iteration)
    (s s₁ : CiLabStore) : Prop :=
  ∃ created, s.advanceWebhookRunsOnce setup registry w.refreshLimit i.advancedAt = .ok (s₁, created)

/-- After its pass, an iteration claims. -/
theorem claimOnce_passes (h : w.Passes setup registry i s s₁) :
    w.claimOnce setup registry i s
      = (((s₁.expireExhausted i.claimedAt).claimCandidate w.workerId i.leaseToken w.leaseSeconds
          i.claimedAt).1,
        .ok ((s₁.expireExhausted i.claimedAt).claimCandidate w.workerId i.leaseToken w.leaseSeconds
          i.claimedAt).2) := by
  obtain ⟨created, hpass⟩ := h
  have hclaim : s₁.claimWebhookDelivery w.workerId w.leaseSeconds i.leaseToken i.claimedAt
      = .ok ((s₁.expireExhausted i.claimedAt).claimCandidate w.workerId i.leaseToken w.leaseSeconds
          i.claimedAt) := by
    rw [CiLabStore.claimWebhookDelivery_eq_ok, strip_workerId w.valid.1]
    exact ⟨w.accepted, rfl⟩
  unfold claimOnce
  rw [hpass]
  dsimp only
  rw [hclaim]

/-- An iteration whose pass raises ends there. -/
theorem claimOnce_raises {e : CiLabError}
    (h : s.advanceWebhookRunsOnce setup registry w.refreshLimit i.advancedAt = .error e) :
    w.claimOnce setup registry i s = (s, .error e) := by
  unfold claimOnce
  rw [h]

theorem runOnce_raises {e : CiLabError}
    (h : s.advanceWebhookRunsOnce setup registry w.refreshLimit i.advancedAt = .error e) :
    w.runOnce setup registry i s = (s, .error e) := by
  unfold runOnce
  rw [claimOnce_raises h]
  rfl

theorem runOnce_claims (h : w.Passes setup registry i s s₁) :
    (w.runOnce setup registry i s).1
      = (settleOnce i ((s₁.expireExhausted i.claimedAt).claimCandidate w.workerId i.leaseToken
          w.leaseSeconds i.claimedAt).1 ((s₁.expireExhausted i.claimedAt).claimCandidate w.workerId
            i.leaseToken w.leaseSeconds i.claimedAt).2).1 := by
  unfold runOnce
  rw [claimOnce_passes h]
  rfl

/-- A settlement leaves everything alone, or rewrites the row of its claim. -/
theorem settle_moves (s : CiLabStore) (claimed : ClaimedWebhookDelivery) (outcome : DeliveryOutcome)
    (now : Instant) :
    (settle s claimed outcome now).1 = s
      ∨ ∃ (call : CiLabStore.Call) (r r' : WebhookDeliveryRecord),
          (∀ k, call ≠ .retryWebhookDelivery k) ∧ r.id = claimed.id ∧ r'.id = r.id
          ∧ s.deliveries.get? r.id = some r ∧ CiLabStore.RowMove s now r call r'
          ∧ (settle s claimed outcome now).1 = { s with deliveries := s.deliveries.put r' } := by
  unfold settle
  dsimp only
  split
  · next s' hsettled =>
    refine .inr ?_
    split at hsettled
    · obtain ⟨⟨s', r'⟩, hcomplete, rfl⟩ := map_eq_ok.mp hsettled
      obtain ⟨r, hr, h⟩ := bind_eq_ok.mp hcomplete
      obtain ⟨hrow, hheld⟩ := CiLabStore.requireWebhookDeliveryLease_eq_ok.mp hr
      obtain ⟨rfl, rfl⟩ := Prod.mk.inj (pure_eq_ok.mp h)
      have hid : r.id = claimed.id := Table.key_of_get? hrow
      exact ⟨.completeWebhookDelivery claimed, r, r.completed now,
        fun k hk => (by cases hk), hid, rfl,
        hid ▸ hrow, .completed hid.symm hheld, rfl⟩
    · obtain ⟨⟨s', r'⟩, hfail, rfl⟩ := map_eq_ok.mp hsettled
      obtain ⟨-, h⟩ := refuse_bind_eq_ok.mp hfail
      obtain ⟨r, hr, h⟩ := bind_eq_ok.mp h
      obtain ⟨hrow, hheld⟩ := CiLabStore.requireWebhookDeliveryLease_eq_ok.mp hr
      obtain ⟨rfl, rfl⟩ := Prod.mk.inj (pure_eq_ok.mp h)
      have hid : r.id = claimed.id := Table.key_of_get? hrow
      refine ⟨.failWebhookDelivery claimed (outcome.errorCode.getD "delivery_failed")
        outcome.retryable, r, r.failed (outcome.errorCode.getD "delivery_failed")
          (outcome.retryable && r.attempts < r.maxAttempts) now, fun k hk =>
            (by cases hk), hid, rfl,
        hid ▸ hrow, .failed hid.symm hheld fun hretry => ?_, rfl⟩
      simp only [Bool.and_eq_true, decide_eq_true_eq] at hretry
      exact hretry.2
  · exact .inl rfl
  · exact .inl rfl

/-- The iterations of a loop, from one of them on. -/
theorem storeAfter_add (its : Nat → Iteration) (s : CiLabStore) (m n : Nat) :
    w.storeAfter setup registry its s (m + n)
      = w.storeAfter setup registry (fun n => its (m + n))
        (w.storeAfter setup registry its s m) n := by
  induction n with
  | zero => rfl
  | succ n ih =>
    show (w.runOnce setup registry (its (m + n)) (w.storeAfter setup registry its s (m + n))).1 = _
    rw [ih]
    rfl

end CiLabWebhookWorker

end QaPlatform.CiLab
