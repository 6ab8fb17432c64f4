import QaPlatform.Base.Transition
import QaPlatform.Runtime.TaskSteps

/-!
# The life of a task

The states that the rows of the task queue can be in, over whole runs of the
queue's methods. The conjuncts need each other: a failed task may be put back by
hand because attempts stay below their bound, and a success carries no error
because the claim before it has cleared the last one.

`WellFormed` is the invariant of one row and `Inv` that of the queue with the tokens that its
claims have given out. What a call does to a row is a sequence of the writes of `TaskSteps`, so
that attempts only grow and final statuses stay (`Progress`) has to be seen for these. A token
is stale when it is not that of the task's last claim, or its time is over; whoever shows one is
refused.
-/

namespace QaPlatform.Runtime

open Automation (TaskStatus)

/-- What the schema of the API lets through. -/
def TaskEnqueue.Accepted (payload : TaskEnqueue) : Prop :=
  (1 ≤ payload.taskType.length ∧ payload.taskType.length ≤ 100)
    ∧ (1 ≤ payload.queue.length ∧ payload.queue.length ≤ 100)
    ∧ payload.priority ≤ 100 ∧ (1 ≤ payload.maxAttempts ∧ payload.maxAttempts ≤ 100)
    ∧ ∀ idempotencyKey ∈ payload.idempotencyKey,
      1 ≤ idempotencyKey.length ∧ idempotencyKey.length ≤ 200

instance (payload : TaskEnqueue) : Decidable payload.Accepted := by
  unfold TaskEnqueue.Accepted
  infer_instance

/-- Nothing changes this status again. -/
def FinalStatus (status : TaskStatus) : Prop :=
  status = .succeeded ∨ status = .cancelled ∨ status = .deadLetter

namespace AutomationTaskRecord

/-- A row has a lease exactly while it is running. -/
structure WellFormed (t : AutomationTaskRecord) : Prop where
  owner : t.leaseOwner.isSome ↔ t.status = .running
  token : t.leaseTokenHash.isSome ↔ t.status = .running
  expiry : t.leaseExpiresAt.isSome ↔ t.status = .running
  bounded : t.attempts ≤ t.maxAttempts
  waiting : t.Waiting → t.attempts < t.maxAttempts
  cancel : t.cancelRequested = true → t.status = .running ∨ t.status = .cancelled
  succeeded : t.status = .succeeded →
    t.errorCode = none ∧ t.result.isSome ∧ t.finishedAt.isSome
  /-- The claim has cleared the error of the attempt before. -/
  running : t.status = .running → t.errorCode = none

/-- The work is over; what the row says of its end has been checked. -/
theorem WellFormed.ended {t : AutomationTaskRecord} (h : t.WellFormed) {status : TaskStatus}
    {errorCode : Option String} {result : Option Json} {now : Instant}
    (hrunning : status ≠ .running) (hqueued : status ≠ .queued) (hretry : status ≠ .retryWait)
    (hcancel : t.cancelRequested = true → status = .cancelled)
    (hsucceeded : status = .succeeded → errorCode = none ∧ result.isSome) :
    (t.ended status errorCode result now).WellFormed where
  owner := by simpa [AutomationTaskRecord.ended, clearTaskLease] using hrunning
  token := by simpa [AutomationTaskRecord.ended, clearTaskLease] using hrunning
  expiry := by simpa [AutomationTaskRecord.ended, clearTaskLease] using hrunning
  bounded := h.bounded
  waiting := by
    rintro (hs | hs)
    · exact absurd hs hqueued
    · exact absurd hs hretry
  cancel hc := .inr (hcancel hc)
  succeeded hs := ⟨(hsucceeded hs).1, (hsucceeded hs).2, rfl⟩
  running hs := absurd hs hrunning

theorem EndsAs.ne_running {t : AutomationTaskRecord} {status : TaskStatus} (h : t.EndsAs status) :
    status ≠ .running ∧ status ≠ .queued ∧ status ≠ .retryWait ∧ status ≠ .succeeded
      ∧ (t.cancelRequested = true → status = .cancelled) := by
  rcases h with ⟨-, rfl⟩ | ⟨hc, rfl | rfl⟩
  · simp
  · simp [hc]
  · simp [hc]

theorem WellFormed.move {now : Instant} {t t' : AutomationTaskRecord} (hw : t.WellFormed)
    (h : TaskMove now t t') : t'.WellFormed := by
  cases h with
  | extended workerId token leaseSeconds hleased =>
    exact {
      owner := hw.owner
      token := hw.token
      expiry := by simp [hleased.1]
      bounded := hw.bounded
      waiting := hw.waiting
      cancel := hw.cancel
      succeeded := hw.succeeded
      running := hw.running }
  | completed workerId token result hleased =>
    have hnone : t.errorCode = none := hw.running hleased.1
    cases hc : t.cancelRequested with
    | true => exact hw.ended (by simp) (by simp) (by simp) (by simp) (by simp)
    | false => exact hw.ended (by simp) (by simp) (by simp) (by simp [hc]) (by simp [hnone])
  | failed workerId token errorCode status hleased hends =>
    obtain ⟨hrunning, hqueued, hretry, hsucceeded, hcancel⟩ := hends.ne_running
    exact hw.ended hrunning hqueued hretry hcancel (fun hs => absurd hs hsucceeded)
  | expired status hexpired hends =>
    obtain ⟨hrunning, hqueued, hretry, hsucceeded, hcancel⟩ := hends.ne_running
    exact hw.ended hrunning hqueued hretry hcancel (fun hs => absurd hs hsucceeded)
  | cancelled hwaiting =>
    exact {
      owner := by simp [clearTaskLease]
      token := by simp [clearTaskLease]
      expiry := by simp [clearTaskLease]
      bounded := hw.bounded
      waiting := by simp [Waiting]
      cancel := by simp
      succeeded := by simp
      running := by simp }
  | cancelAsked hrunning =>
    exact {
      owner := hw.owner
      token := hw.token
      expiry := hw.expiry
      bounded := hw.bounded
      waiting := hw.waiting
      cancel := fun _ => .inl hrunning
      succeeded := hw.succeeded
      running := hw.running }
  | deadLettered errorCode hrunning hsucceeded hcancelled =>
    refine hw.ended (by simp) (by simp) (by simp) (fun hc => ?_) (by simp)
    rcases hw.cancel hc with hs | hs
    · exact absurd hs hrunning
    · exact absurd hs hcancelled
  | replaced hwaiting =>
    -- a waiting task has no lease to leave behind
    have hrunning : t.status ≠ .running := by
      rcases hwaiting with hs | hs
      · simp [hs]
      · simp [hs]
    exact {
      owner := by simpa [hrunning] using hw.owner
      token := by simpa [hrunning] using hw.token
      expiry := by simpa [hrunning] using hw.expiry
      bounded := hw.bounded
      waiting := by simp [Waiting]
      cancel := by simp
      succeeded := by simp
      running := by simp }

theorem WellFormed.wait {now : Instant} {t t' : AutomationTaskRecord} (hw : t.WellFormed)
    (h : TaskWait now t t') : t'.WellFormed := by
  have hdelayed (errorCode : String) (hcancel : t.cancelRequested = false)
      (hattempts : t.attempts < t.maxAttempts) : (t.delayed errorCode now).WellFormed := by
    exact {
      owner := by simp [delayed, clearTaskLease]
      token := by simp [delayed, clearTaskLease]
      expiry := by simp [delayed, clearTaskLease]
      bounded := hw.bounded
      waiting := fun _ => hattempts
      cancel := by simp [delayed, clearTaskLease, hcancel]
      succeeded := by simp [delayed]
      running := by simp [delayed] }
  cases h with
  | failed workerId token errorCode hleased hcancel hattempts =>
    exact hdelayed errorCode hcancel hattempts
  | expired hexpired hcancel hattempts => exact hdelayed "lease_expired" hcancel hattempts
  | retried hfailed hattempts =>
    have hrunning : t.status ≠ .running := by simp [hfailed]
    exact {
      owner := by simpa [retried, hrunning] using hw.owner
      token := by simpa [retried, hrunning] using hw.token
      expiry := by simpa [retried, hrunning] using hw.expiry
      bounded := hw.bounded
      waiting := fun _ => hattempts
      cancel := by
        intro hc
        rcases hw.cancel hc with hs | hs
        · exact absurd hs hrunning
        · simp [hfailed] at hs
      succeeded := by simp [retried]
      running := by simp [retried] }

theorem WellFormed.rowStep {now : Instant} {t t' : AutomationTaskRecord} (hw : t.WellFormed)
    (h : TaskStore.RowStep now t t') : t'.WellFormed := by
  rcases h with rfl | h | h
  · exact hw
  · exact hw.move h
  · exact hw.wait h

theorem wellFormed_claimed {t : AutomationTaskRecord} {queues : List String}
    {now : Instant} (h : TaskStore.claimable queues now t) (workerId token : String)
    (leaseSeconds : Int) : (t.claimed workerId token leaseSeconds now).WellFormed where
  owner := by simp [AutomationTaskRecord.claimed]
  token := by simp [AutomationTaskRecord.claimed]
  expiry := by simp [AutomationTaskRecord.claimed]
  bounded := h.2.2.1
  waiting := by simp [AutomationTaskRecord.claimed, Waiting]
  cancel := by simp [AutomationTaskRecord.claimed]
  succeeded := by simp [AutomationTaskRecord.claimed]
  running := by simp [AutomationTaskRecord.claimed]

theorem wellFormed_enqueued {payload : TaskEnqueue} (h : payload.Accepted)
    (fingerprint : Digest Json) (source : Option Uuid) (now : Instant) (id : Uuid) :
    (enqueuedTask payload fingerprint source now id).WellFormed where
  owner := by simp [enqueuedTask]
  token := by simp [enqueuedTask]
  expiry := by simp [enqueuedTask]
  bounded := Nat.zero_le _
  waiting := fun _ => h.2.2.2.1.1
  cancel := by simp [enqueuedTask]
  succeeded := by simp [enqueuedTask]
  running := by simp [enqueuedTask]

/-- Attempts are only counted up, and a final status stays. -/
def Progress (t t' : AutomationTaskRecord) : Prop :=
  t.attempts ≤ t'.attempts ∧ (FinalStatus t.status → t'.status = t.status)

theorem Progress.refl (t : AutomationTaskRecord) : Progress t t := ⟨le_rfl, fun _ => rfl⟩

theorem Progress.trans {a b c : AutomationTaskRecord} (h : Progress a b) (h' : Progress b c) :
    Progress a c := by
  refine ⟨h.1.trans h'.1, fun hfinal => ?_⟩
  have hb : b.status = a.status := h.2 hfinal
  rw [← hb] at hfinal
  exact (h'.2 hfinal).trans hb

theorem Progress.of_rowStep {now : Instant} {t t' : AutomationTaskRecord}
    (h : TaskStore.RowStep now t t') : Progress t t' := by
  have hnot {status : TaskStatus} (hs : t.status = status) (hopen : ¬ FinalStatus status) :
      FinalStatus t.status → t'.status = t.status := fun hfinal => absurd (hs ▸ hfinal) hopen
  have hwaits (hw : t.Waiting) : FinalStatus t.status → t'.status = t.status := by
    rcases hw with hs | hs
    · exact hnot hs (by simp [FinalStatus])
    · exact hnot hs (by simp [FinalStatus])
  rcases h with rfl | h | h
  · exact .refl _
  · cases h with
    | extended => exact ⟨le_rfl, fun _ => rfl⟩
    | completed _ _ _ hleased => exact ⟨le_rfl, hnot hleased.1 (by simp [FinalStatus])⟩
    | failed _ _ _ _ hleased => exact ⟨le_rfl, hnot hleased.1 (by simp [FinalStatus])⟩
    | expired _ hexpired => exact ⟨le_rfl, hnot hexpired.1 (by simp [FinalStatus])⟩
    | cancelled hw => exact ⟨le_rfl, hwaits hw⟩
    | cancelAsked => exact ⟨le_rfl, fun _ => rfl⟩
    | deadLettered _ _ hsucceeded hcancelled =>
      refine ⟨le_rfl, fun hfinal => ?_⟩
      rcases hfinal with hs | hs | hs
      · exact absurd hs hsucceeded
      · exact absurd hs hcancelled
      · exact hs.symm
    | replaced hw => exact ⟨le_rfl, hwaits hw⟩
  · cases h with
    | failed _ _ _ hleased => exact ⟨le_rfl, hnot hleased.1 (by simp [FinalStatus])⟩
    | expired hexpired => exact ⟨le_rfl, hnot hexpired.1 (by simp [FinalStatus])⟩
    | retried hfailed => exact ⟨le_rfl, hnot hfailed (by simp [FinalStatus])⟩

theorem Progress.claimed {t : AutomationTaskRecord} {queues : List String} {now : Instant}
    (h : TaskStore.claimable queues now t) (workerId token : String) (leaseSeconds : Int) :
    Progress t (t.claimed workerId token leaseSeconds now) := by
  refine ⟨Nat.le_succ _, fun hfinal => ?_⟩
  rcases h.2.1 with hs | hs
  · simp [FinalStatus, hs] at hfinal
  · simp [FinalStatus, hs] at hfinal

/-- A write that leaves a task running leaves it its token. -/
theorem token_of_rowStep {now : Instant} {t t' : AutomationTaskRecord}
    (h : TaskStore.RowStep now t t') (hrunning : t'.status = .running) :
    t.status = .running ∧ t'.leaseTokenHash = t.leaseTokenHash := by
  rcases h with rfl | h | h
  · exact ⟨hrunning, rfl⟩
  · cases h with
    | extended => exact ⟨hrunning, rfl⟩
    | completed =>
      exfalso
      revert hrunning
      show (if t.cancelRequested then TaskStatus.cancelled else .succeeded) = .running → False
      split
      · simp
      · simp
    | failed _ _ _ _ _ hends => exact absurd hrunning hends.ne_running.1
    | expired _ _ hends => exact absurd hrunning hends.ne_running.1
    | cancelled => simp at hrunning
    | cancelAsked => exact ⟨hrunning, rfl⟩
    | deadLettered => simp [ended] at hrunning
    | replaced => simp at hrunning
  · cases h with
    | failed => simp [delayed] at hrunning
    | expired => simp [delayed] at hrunning
    | retried => simp [retried] at hrunning

end AutomationTaskRecord

/-! ## Runs of the queue -/

/-- The queue with the tokens that its claims have given out, the latest first. -/
structure QueueHistory where
  store : TaskStore
  issued : List (Uuid × String)

namespace QueueHistory

open TaskStore (Call)

/-- A queue without tasks. -/
def empty : QueueHistory := ⟨⟨.empty, .empty⟩, []⟩

/-- The task that a call claims, with the token that its worker gets. -/
def claimedBy (s : TaskStore) (now : Instant) : Call → Option (Uuid × String)
  | .claimTask workerId queues leaseSeconds token skipped =>
    match s.claimTask workerId queues leaseSeconds token now skipped with
    | .ok (_, some (task, token)) => some (task.id, token)
    | .ok (_, none) | .error _ => none
  | _ => none

/-- A call at a time; one that raises changes nothing. -/
def step (taskTypes : List String) (render : Rendering) (s : QueueHistory) (e : Instant × Call) :
    QueueHistory :=
  match s.store.call taskTypes render e.1 e.2 with
  | .ok store => ⟨store, (claimedBy s.store e.1 e.2).toList ++ s.issued⟩
  | .error _ => s

/-- The token of the last claim of a task. -/
def current (s : QueueHistory) (taskId : Uuid) : Option (Uuid × String) :=
  s.issued.find? (·.1 = taskId)

/-- The token was given out by a claim of the task, but for another lease than the
current one, or its time is over. -/
def Stale (s : QueueHistory) (now : Instant) (taskId : Uuid) (token : String) : Prop :=
  (taskId, token) ∈ s.issued
    ∧ (s.current taskId ≠ some (taskId, token)
      ∨ ∀ t ∈ s.store.tasks.get? taskId, ∀ expiry ∈ t.leaseExpiresAt, expiry ≤ now)

/-- The call shows a worker's token. -/
def Presents (c : Call) (taskId : Uuid) (token : String) : Prop :=
  (∃ workerId leaseSeconds, c = .heartbeatTask taskId workerId token leaseSeconds)
    ∨ (∃ workerId result, c = .completeTask taskId workerId token result)
    ∨ ∃ workerId errorCode retryable, c = .failTask taskId workerId token errorCode retryable

/-- An enqueued payload is one that the API lets through. -/
def Admitted (_ : QueueHistory) (e : Instant × Call) : Prop :=
  e.2.Enqueues TaskEnqueue.Accepted

/-- Every row is well formed, and a running one is held under its last claim. -/
structure Inv (s : QueueHistory) : Prop where
  wellFormed : ∀ t ∈ s.store.tasks.rows, t.WellFormed
  /-- A running task has the token of its last claim. -/
  current : ∀ t ∈ s.store.tasks.rows, t.status = .running →
    ∃ token, t.leaseTokenHash = some (tokenHash token) ∧ s.current t.id = some (t.id, token)

variable {taskTypes : List String} {render : Rendering} {s : QueueHistory}

theorem step_cases (taskTypes : List String) (render : Rendering) (s : QueueHistory)
    (e : Instant × Call) :
    step taskTypes render s e = s
    ∨ ∃ store, s.store.call taskTypes render e.1 e.2 = .ok store
      ∧ step taskTypes render s e = ⟨store, (claimedBy s.store e.1 e.2).toList ++ s.issued⟩ := by
  unfold step
  cases h : s.store.call taskTypes render e.1 e.2 with
  | error error => exact .inl rfl
  | ok store => exact .inr ⟨store, rfl, rfl⟩

/-- Calls that claim nothing give out no token. -/
theorem claimedBy_some {store : TaskStore} {now : Instant} {c : Call} {p : Uuid × String}
    (h : claimedBy store now c = some p) :
    ∃ workerId queues leaseSeconds token skipped store' t,
      c = .claimTask workerId queues leaseSeconds token skipped
        ∧ store.claimTask workerId queues leaseSeconds token now skipped
          = .ok (store', some (t, p.2)) ∧ t.id = p.1 := by
  unfold claimedBy at h
  split at h
  · next workerId queues leaseSeconds token skipped =>
    split at h
    · next store' t token' hclaim =>
      obtain rfl := Option.some.inj h
      exact ⟨workerId, queues, leaseSeconds, token, skipped, store', t, rfl, hclaim, rfl⟩
    · simp at h
    · simp at h
  · simp at h

/-- What the rows of a call go through that makes only writes keeps the tokens. -/
theorem running_of_writes {ok : TaskEnqueue → Prop} {now : Instant} {store store' : TaskStore}
    (h : TaskStore.Writes ok now store store') {P : AutomationTaskRecord → Prop}
    (hP : ∀ t t', t'.id = t.id → t'.leaseTokenHash = t.leaseTokenHash → P t → P t')
    (hs : ∀ t ∈ store.tasks.rows, t.status = .running → P t) :
    ∀ t ∈ store'.tasks.rows, t.status = .running → P t := by
  refine h.forall_rows (fun t t' ht hrow hrunning => ?_) ?_ hs
  · obtain ⟨hold, htoken⟩ := AutomationTaskRecord.token_of_rowStep hrow hrunning
    exact hP t t' hrow.id_eq htoken (ht hold)
  · intro payload fingerprint source id _ hrunning
    simp [enqueuedTask] at hrunning

theorem Inv.step (h : s.Inv) {e : Instant × Call} (hok : s.Admitted e) :
    (QueueHistory.step taskTypes render s e).Inv := by
  rcases step_cases taskTypes render s e with hsame | ⟨store, hcall, hstep⟩
  · rw [hsame]
    exact h
  rw [hstep]
  -- every row is well formed after the writes that come before a claim
  have hwell {store' : TaskStore} (hw : TaskStore.Writes TaskEnqueue.Accepted e.1 s.store store') :
      ∀ t ∈ store'.tasks.rows, t.WellFormed :=
    hw.forall_rows (fun _ _ ht hrow => ht.rowStep hrow)
      (fun _ fingerprint source id haccepted =>
        AutomationTaskRecord.wellFormed_enqueued haccepted fingerprint source e.1 id) h.wellFormed
  -- a row is held under the last token that a claim of it has given out
  let P (t : AutomationTaskRecord) : Prop :=
    ∃ token, t.leaseTokenHash = some (tokenHash token) ∧ s.current t.id = some (t.id, token)
  have hP (t t' : AutomationTaskRecord) (hid : t'.id = t.id)
      (htoken : t'.leaseTokenHash = t.leaseTokenHash) (ht : P t) : P t' := by
    obtain ⟨token, hhash, hcurrent⟩ := ht
    exact ⟨token, htoken.trans hhash, by rw [hid]; exact hcurrent⟩
  have hafter {store' : TaskStore}
      (hw : TaskStore.Writes TaskEnqueue.Accepted e.1 s.store store') :
      ∀ t ∈ store'.tasks.rows, t.status = .running → P t :=
    running_of_writes hw hP h.current
  rcases TaskStore.call_cases hok hcall with ⟨hwrites, hnot⟩ | ⟨s₁, hwrites, hclaims⟩
  · have hnone : claimedBy s.store e.1 e.2 = none := by
      cases hclaimed : claimedBy s.store e.1 e.2 with
      | none => rfl
      | some p =>
        obtain ⟨workerId, queues, leaseSeconds, token, skipped, -, -, hc, -⟩ :=
          claimedBy_some hclaimed
        exact absurd hc (hnot workerId queues leaseSeconds token skipped)
    rw [hnone]
    exact ⟨hwell hwrites, hafter hwrites⟩
  · obtain ⟨now, c⟩ := e
    dsimp only at hclaims hwell hafter ⊢
    cases hclaims with
    | none workerId queues leaseSeconds token skipped hclaim hs =>
      subst hs
      have hnone : claimedBy s.store now (.claimTask workerId queues leaseSeconds token skipped)
          = none := by
        simp [claimedBy, hclaim]
      rw [hnone]
      exact ⟨hwell hwrites, hafter hwrites⟩
    | some workerId queues leaseSeconds token skipped t hclaim ht hclaimable hs =>
      have hsome : claimedBy s.store now (.claimTask workerId queues leaseSeconds token skipped)
          = some (t.id, token) := by
        simp [claimedBy, hclaim, AutomationTaskRecord.claimed]
      rw [hsome, hs]
      -- the row that is claimed gets the new token, and no other row is touched
      refine ⟨fun t' ht' => ?_, fun t' ht' hrunning => ?_⟩
      · rcases Table.mem_put ht' with rfl | ⟨hold, -⟩
        · exact AutomationTaskRecord.wellFormed_claimed hclaimable workerId token leaseSeconds
        · exact hwell hwrites t' hold
      · rcases Table.mem_put ht' with rfl | ⟨hold, hne⟩
        · exact ⟨token, rfl, by simp [QueueHistory.current, AutomationTaskRecord.claimed]⟩
        · obtain ⟨token', hhash, hcurrent⟩ := hafter hwrites t' hold hrunning
          have hid : t.id ≠ t'.id := Ne.symm hne
          exact ⟨token', hhash, by simpa [QueueHistory.current, hid] using hcurrent⟩

theorem empty_inv : empty.Inv where
  wellFormed := by simp [empty, Table.empty]
  current := by simp [empty, Table.empty]

/-- A token that is stale gets its bearer nothing. -/
theorem Inv.refuses_stale (taskTypes : List String) (render : Rendering) (h : s.Inv)
    {now : Instant} {taskId : Uuid} {token : String}
    (hstale : s.Stale now taskId token) {c : Call} (hc : Presents c taskId token) :
    ∃ error, s.store.call taskTypes render now c = .error error := by
  have hno {t : AutomationTaskRecord} {workerId : String}
      (ht : s.store.tasks.get? taskId = some t) : ¬ t.LeasedBy workerId token now := by
    rintro ⟨hrunning, -, hhash, hexpiry⟩
    rcases hstale.2 with hother | hover
    · obtain ⟨token', hhash', hcurrent⟩ := h.current t (Table.mem_of_get? ht) hrunning
      have hid : t.id = taskId := Table.key_of_get? ht
      rw [hhash] at hhash'
      obtain rfl : token = token' := by simpa using hhash'
      exact hother (hid ▸ hcurrent)
    · cases hlease : t.leaseExpiresAt with
      | none => simp [hlease] at hexpiry
      | some expiry =>
        have hle : expiry ≤ now := hover t ht expiry hlease
        simp only [hlease, Option.any_some, decide_eq_true_eq] at hexpiry
        exact absurd hexpiry (not_lt.mpr hle)
  cases hcall : s.store.call taskTypes render now c with
  | error error => exact ⟨error, rfl⟩
  | ok store =>
    exfalso
    rcases hc with ⟨workerId, leaseSeconds, rfl⟩ | ⟨workerId, result, rfl⟩
      | ⟨workerId, errorCode, retryable, rfl⟩
    · obtain ⟨⟨store', t'⟩, hok, -⟩ := map_eq_ok.mp hcall
      obtain ⟨t, ht, hleased, -⟩ := TaskStore.heartbeatTask_ok hok
      exact hno ht hleased
    · obtain ⟨⟨store', t'⟩, hok, -⟩ := map_eq_ok.mp hcall
      obtain ⟨t, ht, hleased, -⟩ := TaskStore.completeTask_ok hok
      exact hno ht hleased
    · obtain ⟨⟨store', t'⟩, hok, -⟩ := map_eq_ok.mp hcall
      obtain ⟨t, ht, hleased, -⟩ := TaskStore.failTask_ok hok
      exact hno ht hleased

open AutomationTaskRecord (Progress)

/-- A row lives on over a call and makes progress. -/
theorem step_progress (taskTypes : List String) (render : Rendering) (e : Instant × Call)
    {k : Uuid} {t : AutomationTaskRecord} (ht : s.store.tasks.get? k = some t) :
    ∃ t', (QueueHistory.step taskTypes render s e).store.tasks.get? k = some t'
      ∧ Progress t t' := by
  rcases step_cases taskTypes render s e with hsame | ⟨store, hcall, hstep⟩
  · rw [hsame]
    exact ⟨t, ht, .refl t⟩
  rw [hstep]
  have hafter {store' : TaskStore} (hw : TaskStore.Writes (fun _ => True) e.1 s.store store') :
      ∃ t', store'.tasks.get? k = some t' ∧ Progress t t' :=
    hw.get?_rel Progress.refl Progress.trans (fun _ _ => Progress.of_rowStep) ht
  rcases TaskStore.call_cases (fun _ _ => trivial) hcall with ⟨hwrites, -⟩ | ⟨s₁, hwrites, hclaims⟩
  · exact hafter hwrites
  · obtain ⟨t₁, ht₁, hprogress⟩ := hafter hwrites
    obtain ⟨now, c⟩ := e
    cases hclaims with
    | none workerId queues leaseSeconds token skipped hclaim hs =>
      subst hs
      exact ⟨t₁, ht₁, hprogress⟩
    | some workerId queues leaseSeconds token skipped t₂ hclaim ht₂ hclaimable hs =>
      subst hs
      by_cases hk : t₂.id = k
      · have hsame : t₁ = t₂ := by
          rw [hk, ht₁] at ht₂
          exact Option.some.inj ht₂
        subst hsame
        exact ⟨_, Table.get?_put_self ht₁ hk,
          hprogress.trans (Progress.claimed hclaimable workerId token leaseSeconds)⟩
      · exact ⟨t₁, by rw [← ht₁]; exact Table.get?_put_of_ne hk, hprogress⟩

theorem run_progress (es : List (Instant × Call)) {k : Uuid} {t : AutomationTaskRecord}
    (ht : s.store.tasks.get? k = some t) :
    ∃ t', (Transition.run (step taskTypes render) s es).store.tasks.get? k = some t'
      ∧ Progress t t' := by
  induction es generalizing s t with
  | nil => exact ⟨t, ht, .refl t⟩
  | cons e es ih =>
    obtain ⟨t₁, ht₁, h₁⟩ := step_progress taskTypes render e ht
    obtain ⟨t₂, ht₂, h₂⟩ := ih ht₁
    exact ⟨t₂, ht₂, h₁.trans h₂⟩

/-- The life of every task over a run `es` and what comes after it: rows are well
formed, attempts never decrease and final statuses stay, and a stale token is
refused and changes nothing. -/
theorem task_lifecycle (taskTypes : List String) (render : Rendering)
    (es fs : List (Instant × Call))
    (h : Transition.Along Admitted (step taskTypes render) empty (es ++ fs)) :
    (∀ t ∈ (Transition.run (step taskTypes render) empty es).store.tasks.rows, t.WellFormed)
    ∧ (∀ k t, (Transition.run (step taskTypes render) empty es).store.tasks.get? k = some t →
      ∃ t', (Transition.run (step taskTypes render) empty (es ++ fs)).store.tasks.get? k = some t'
        ∧ Progress t t')
    ∧ ∀ now taskId token c, (Transition.run (step taskTypes render) empty es).Stale now
      taskId token →
      Presents c taskId token →
      (∃ error, (Transition.run (step taskTypes render) empty es).store.call taskTypes render now c
        = .error error)
      ∧ step taskTypes render (Transition.run (step taskTypes render) empty es) (now, c)
        = Transition.run (step taskTypes render) empty es := by
  have hinv : (Transition.run (step taskTypes render) empty es).Inv :=
    Transition.invariant_along (fun _ _ hs hok => hs.step hok) empty_inv
      ((Transition.along_append empty es fs).mp h).1
  refine ⟨hinv.wellFormed, fun k t ht => ?_, fun now taskId token c hstale hc => ?_⟩
  · rw [Transition.run_append]
    exact run_progress fs ht
  · obtain ⟨error, herror⟩ := hinv.refuses_stale taskTypes render hstale hc
    exact ⟨⟨error, herror⟩, by simp [step, herror]⟩

/-- A worker is too late with its result: the task is running again elsewhere. -/
def reclaimed : List (Instant × Call) :=
  [(0, .enqueueTask ⟨"synthetic", "\x7b\x7d", "default", 50, 3, none, none⟩),
    (0, .claimTask "w" ["default"] 1 "first" []),
    (3000000, .claimTask "w" ["default"] 1 "none" []),
    (4000000, .claimTask "w" ["default"] 60 "second" [])]

theorem task_lifecycle_reclaimed :
    (Transition.run (step ["synthetic"] ⟨fun _ => "", fun _ => ""⟩) empty reclaimed).issued
      = [(0, "second"), (0, "first")]
    ∧ ∃ error, (Transition.run (step ["synthetic"] ⟨fun _ => "", fun _ => ""⟩) empty
        reclaimed).store.call ["synthetic"] ⟨fun _ => "", fun _ => ""⟩ 5000000
          (.completeTask 0 "w" "first" "1") = .error error := by
  have hissued : (Transition.run (step ["synthetic"] ⟨fun _ => "", fun _ => ""⟩) empty
      reclaimed).issued = [(0, "second"), (0, "first")] := by
    decide +kernel
  have hadmitted : Transition.Along Admitted (step ["synthetic"] ⟨fun _ => "", fun _ => ""⟩) empty
      (reclaimed ++ []) := by
    refine ⟨?_, ?_, ?_, ?_, trivial⟩
    · rintro payload ⟨⟩
      decide
    · simp [Admitted, Call.Enqueues]
    · simp [Admitted, Call.Enqueues]
    · simp [Admitted, Call.Enqueues]
  have hstale : (Transition.run (step ["synthetic"] ⟨fun _ => "", fun _ => ""⟩) empty
      reclaimed).Stale 5000000 0 "first" := by
    refine ⟨by simp [hissued], .inl ?_⟩
    simp [current, hissued]
  exact ⟨hissued, ((task_lifecycle _ _ reclaimed [] hadmitted).2.2 5000000 0 "first" _ hstale
    (.inr (.inl ⟨"w", "1", rfl⟩))).1⟩

end QueueHistory

end QaPlatform.Runtime
