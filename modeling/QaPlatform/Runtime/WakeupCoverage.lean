import QaPlatform.Runtime.TaskIdentity
import QaPlatform.Runtime.WakeupClaims

/-!
# A wake-up for every generation

Attempts are counted by claims, so a task that waits again waits with more attempts
than any of its wake-ups has: the row that it leaves is new. A hint is published no
earlier than its row allows, and the row allows no earlier than the task did.

`Covered` looks at tasks and rows of the outbox together, and is kept by the writes of the
queue, which are a row alone or a row with its wake-up. For the times of the hints, `NotBefore`
follows one generation: its row is the only one, and nothing has been published for it earlier
than the task is available. The clock of a dispatcher must not go backwards between its claim
and its publication.
-/

namespace QaPlatform.Runtime

namespace TaskStore

/-- Rows of the outbox and tasks, seen together. -/
structure Covered (s : TaskStore) : Prop where
  refers : s.OutboxRefers
  unique : ∀ r ∈ s.outbox.rows, ∀ r' ∈ s.outbox.rows, r.taskId = r'.taskId →
    r.generation = r'.generation → r = r'
  /-- A claim has gone beyond the wake-ups there are. -/
  reached : ∀ r ∈ s.outbox.rows, ∀ t ∈ s.tasks.rows, r.taskId = t.id →
    r.generation ≤ t.attempts
      ∧ (t.status = .running ∨ t.status = .failed → r.generation < t.attempts)
  covered : ∀ t ∈ s.tasks.rows, t.Waiting →
    ∃ r ∈ s.outbox.rows, r.taskId = t.id ∧ r.generation = t.attempts

variable {s s' : TaskStore} {now : Instant} {t t' : AutomationTaskRecord}

theorem empty_covered : Covered ⟨.empty, .empty⟩ where
  refers := by simp [OutboxRefers, Table.empty]
  unique := by simp [Table.empty]
  reached := by simp [Table.empty]
  covered := by simp [Table.empty]

/-- A task that is running, or has failed, has no wake-up for its attempts. -/
theorem Covered.unannounced (h : s.Covered) (ht : s.tasks.get? t.id = some t)
    (hstatus : t.status = .running ∨ t.status = .failed) : s.Unannounced t := by
  rintro r hr ⟨htask, hgeneration⟩
  have hlt := (h.reached r hr t (Table.mem_of_get? ht) htask).2 hstatus
  omega

/-- The next task has no wake-up at all. -/
theorem Covered.unannounced_new (h : s.Covered) {t : AutomationTaskRecord}
    (ht : t.id = s.tasks.next) : s.Unannounced t := by
  rintro r hr ⟨htask, -⟩
  exact absurd (htask.trans ht) (Nat.ne_of_lt (h.refers r hr))

end TaskStore

/-- A task that is rewritten without a wake-up does not wait, and is running or has
failed only if it was running. -/
theorem TaskMove.idle {now : Instant} {t t' : AutomationTaskRecord} (h : TaskMove now t t') :
    t'.attempts = t.attempts ∧ ¬ t'.Waiting
      ∧ (t'.status = .running ∨ t'.status = .failed → t.status = .running) := by
  have hends {status : Automation.TaskStatus} (h : t.EndsAs status) :
      ¬ (status = .queued ∨ status = .retryWait) := by
    rcases h with ⟨-, rfl⟩ | ⟨-, rfl | rfl⟩
    · simp
    · simp
    · simp
  cases h with
  | extended workerId token leaseSeconds hleased =>
    refine ⟨rfl, ?_, fun _ => hleased.1⟩
    have hrunning : t.status = .running := hleased.1
    simp [AutomationTaskRecord.Waiting, hrunning]
  | completed workerId token result hleased =>
    refine ⟨rfl, ?_, fun _ => hleased.1⟩
    cases hcancel : t.cancelRequested
    · simp [AutomationTaskRecord.Waiting, AutomationTaskRecord.ended]
    · simp [AutomationTaskRecord.Waiting, AutomationTaskRecord.ended]
  | failed workerId token errorCode status hleased hstatus =>
    exact ⟨rfl, hends hstatus, fun _ => hleased.1⟩
  | expired status hexpired hstatus => exact ⟨rfl, hends hstatus, fun _ => hexpired.1⟩
  | cancelled hwaiting => exact ⟨rfl, by simp [AutomationTaskRecord.Waiting], by simp⟩
  | cancelAsked hrunning =>
    exact ⟨rfl, by simp [AutomationTaskRecord.Waiting, hrunning], fun _ => hrunning⟩
  | deadLettered errorCode hs =>
    exact ⟨rfl, by simp [AutomationTaskRecord.Waiting, AutomationTaskRecord.ended],
      by simp [AutomationTaskRecord.ended]⟩
  | replaced hwaiting => exact ⟨rfl, by simp [AutomationTaskRecord.Waiting], by simp⟩

/-- A task goes back to wait from a status in which it has no wake-up. -/
theorem TaskWait.waits {now : Instant} {t t' : AutomationTaskRecord} (h : TaskWait now t t') :
    t'.attempts = t.attempts ∧ t'.status = .retryWait
      ∧ (t.status = .running ∨ t.status = .failed) := by
  cases h with
  | failed workerId token errorCode hleased => exact ⟨rfl, rfl, .inl hleased.1⟩
  | expired hexpired => exact ⟨rfl, rfl, .inl hexpired.1⟩
  | retried hfailed => exact ⟨rfl, rfl, .inr hfailed⟩

namespace TaskStore

variable {s s' : TaskStore} {now : Instant} {t t' : AutomationTaskRecord}

/-- A row is rewritten; the outbox is not. -/
theorem Covered.putTask (h : s.Covered) (ht : s.tasks.get? t.id = some t) (hid : t'.id = t.id)
    (hwait : ¬ t'.Waiting)
    (hreached : ∀ g, g ≤ t.attempts → (t.status = .running ∨ t.status = .failed → g < t.attempts) →
      g ≤ t'.attempts ∧ (t'.status = .running ∨ t'.status = .failed → g < t'.attempts)) :
    Covered { s with tasks := s.tasks.put t' } where
  refers := h.refers
  unique := h.unique
  reached r hr t₁ ht₁ htask := by
    rcases Table.mem_put ht₁ with rfl | ⟨hold, -⟩
    · rw [hid] at htask
      obtain ⟨hle, hlt⟩ := h.reached r hr t (Table.mem_of_get? ht) htask
      exact hreached r.generation hle hlt
    · exact h.reached r hr t₁ hold htask
  covered t₁ ht₁ hwaiting := by
    rcases Table.mem_put ht₁ with rfl | ⟨hold, -⟩
    · exact absurd hwaiting hwait
    · exact h.covered t₁ hold hwaiting

/-- A row and its wake-up are written together. -/
theorem Covered.announce (h : s.Covered) {tasks : Table AutomationTaskRecord}
    (htasks : ∀ t₁ ∈ tasks.rows, t₁ = t' ∨ t₁ ∈ s.tasks.rows ∧ t₁.id ≠ t'.id)
    (hnext : s.tasks.next ≤ tasks.next) (hid : t'.id < tasks.next) (hnew : s.Unannounced t')
    (hstatus : t'.Waiting)
    (hreached : ∀ r ∈ s.outbox.rows, r.taskId = t'.id → r.generation ≤ t'.attempts) :
    Covered { tasks, outbox := s.addWakeup t' now } where
  refers r hr := by
    rcases mem_addWakeup hr with hold | rfl
    · exact (h.refers r hold).trans_le hnext
    · exact hid
  unique r hr r' hr' htask hgeneration := by
    rcases mem_addWakeup hr with hold | rfl
    · rcases mem_addWakeup hr' with hold' | rfl
      · exact h.unique r hold r' hold' htask hgeneration
      · exact absurd ⟨htask, hgeneration⟩ (hnew r hold)
    · rcases mem_addWakeup hr' with hold' | rfl
      · exact absurd ⟨htask.symm, hgeneration.symm⟩ (hnew r' hold')
      · rfl
  reached r hr t₁ ht₁ htask := by
    rcases htasks t₁ ht₁ with rfl | ⟨hold₁, hne⟩
    · refine ⟨?_, fun hs => ?_⟩
      · rcases mem_addWakeup hr with hold | rfl
        · exact hreached r hold htask
        · exact le_rfl
      · rcases hstatus with hw | hw
        · simp [hw] at hs
        · simp [hw] at hs
    · rcases mem_addWakeup hr with hold | rfl
      · exact h.reached r hold t₁ hold₁ htask
      · exact absurd htask.symm hne
  covered t₁ ht₁ hwaiting := by
    rcases htasks t₁ ht₁ with rfl | ⟨hold₁, -⟩
    · exact ⟨_, List.mem_append_right _ List.mem_cons_self, rfl, rfl⟩
    · obtain ⟨r, hr, hkeys⟩ := h.covered t₁ hold₁ hwaiting
      exact ⟨r, List.mem_append_left _ hr, hkeys⟩

theorem Covered.write (h : s.Covered) (hwrite : Write (fun _ => True) now s s') : s'.Covered := by
  cases hwrite with
  | move ht hmove =>
    obtain ⟨hattempts, hwait, hactive⟩ := hmove.idle
    refine h.putTask ht hmove.id_eq hwait fun g hle hlt => ?_
    rw [hattempts]
    exact ⟨hle, fun hs => hlt (.inl (hactive hs))⟩
  | wait ht hwait hnew =>
    obtain ⟨hattempts, hstatus, -⟩ := hwait.waits
    have hid := hwait.id_eq
    refine h.announce (fun t₁ ht₁ => ?_) le_rfl ?_ ?_ (.inr hstatus) fun r hr htask => ?_
    · rcases Table.mem_put ht₁ with rfl | ⟨hold, hne⟩
      · exact .inl rfl
      · exact .inr ⟨hold, hne⟩
    · have hlt := Table.lt_next_of_get? ht
      rw [hid]
      exact hlt
    · intro r hr
      rw [hid, hattempts]
      exact hnew r hr
    · rw [hid] at htask
      rw [hattempts]
      exact (h.reached r hr _ (Table.mem_of_get? ht) htask).1
  | insert payload fingerprint source hok hnew =>
    refine h.announce (fun t₁ ht₁ => ?_) (Nat.le_succ _) (Nat.lt_succ_self _) hnew (.inl rfl)
      fun r hr htask => ?_
    · rcases mem_addTask ht₁ with hold | rfl
      · exact .inr ⟨hold, Nat.ne_of_lt (s.tasks.bound t₁ hold)⟩
      · exact .inl rfl
    · exact absurd htask (Nat.ne_of_lt (h.refers r hr))

theorem Covered.queueStep (h : s.Covered) (hstep : QueueStep s s') : s'.Covered := by
  cases hstep with
  | write hwrite => exact h.write hwrite
  | lease workerId token leaseSeconds ht hclaimable =>
    refine h.putTask ht rfl ?_ fun g hle hlt => ?_
    · simp [AutomationTaskRecord.Waiting, AutomationTaskRecord.claimed]
    · have hmore : g < _ + 1 := Nat.lt_succ_of_le hle
      exact ⟨hmore.le, fun _ => hmore⟩

/-- A row of the outbox is rewritten as the same wake-up. -/
theorem Covered.putWakeup (h : s.Covered) {r r' : AutomationTaskWakeupOutboxRecord}
    (hr : s.outbox.get? r.id = some r) (hid : r'.id = r.id) (htask : r'.taskId = r.taskId)
    (hgeneration : r'.generation = r.generation) :
    Covered { s with outbox := s.outbox.put r' } := by
  have hmem := Table.mem_of_get? hr
  have hfrom : ∀ r₁ ∈ (s.outbox.put r').rows,
      r₁ = r' ∨ r₁ ∈ s.outbox.rows ∧ r₁.id ≠ r'.id := fun r₁ hr₁ => Table.mem_put hr₁
  -- an old row with the keys of the rewritten one would be that one
  have hother : ∀ r₁ ∈ s.outbox.rows, r₁.id ≠ r'.id → r₁.taskId = r'.taskId →
      r₁.generation ≠ r'.generation := by
    intro r₁ hr₁ hne htask₁ hgeneration₁
    have hsame := h.unique r₁ hr₁ r hmem (htask₁.trans htask) (hgeneration₁.trans hgeneration)
    rw [hsame, hid] at hne
    exact hne rfl
  exact {
    refers := fun r₁ hr₁ => by
      rcases hfrom r₁ hr₁ with rfl | ⟨hold, -⟩
      · rw [htask]
        exact h.refers r hmem
      · exact h.refers r₁ hold
    unique := fun r₁ hr₁ r₂ hr₂ htask₁ hgeneration₁ => by
      rcases hfrom r₁ hr₁ with rfl | ⟨hold₁, hne₁⟩
      · rcases hfrom r₂ hr₂ with rfl | ⟨hold₂, hne₂⟩
        · rfl
        · exact absurd hgeneration₁.symm (hother r₂ hold₂ hne₂ htask₁.symm)
      · rcases hfrom r₂ hr₂ with rfl | ⟨hold₂, hne₂⟩
        · exact absurd hgeneration₁ (hother r₁ hold₁ hne₁ htask₁)
        · exact h.unique r₁ hold₁ r₂ hold₂ htask₁ hgeneration₁
    reached := fun r₁ hr₁ t ht htask₁ => by
      rcases hfrom r₁ hr₁ with rfl | ⟨hold, -⟩
      · rw [htask] at htask₁
        rw [hgeneration]
        exact h.reached r hmem t ht htask₁
      · exact h.reached r₁ hold t ht htask₁
    covered := fun t ht hwaiting => by
      obtain ⟨r₁, hr₁, htask₁, hgeneration₁⟩ := h.covered t ht hwaiting
      by_cases hsame : r₁.id = r'.id
      · have hrow : r₁ = r := by
          have hget := Table.get?_key hr₁
          rw [AutomationTaskWakeupOutboxRecord.key_eq, hsame, hid, hr] at hget
          exact (Option.some.inj hget).symm
        subst hrow
        exact ⟨r', Table.mem_of_get? (Table.get?_put_self hr hid), htask.trans htask₁,
          hgeneration.trans hgeneration₁⟩
      · have hkept : (s.outbox.put r').get? r₁.id = s.outbox.get? r₁.id :=
          Table.get?_put_of_ne (Ne.symm hsame)
        exact ⟨r₁, Table.mem_of_get? (hkept.trans (Table.get?_key hr₁)), htask₁, hgeneration₁⟩ }

theorem Covered.queueSteps (h : s.Covered) (hsteps : QueueSteps s s') : s'.Covered :=
  hsteps.invariant (fun hstep hs => hs.queueStep hstep) h

/-! ## No insert is refused -/

theorem addTaskWakeupOutbox_ne_integrity (h : s.Unannounced t) :
    s.addTaskWakeupOutbox t now ≠ .error .integrity := by
  rw [addTaskWakeupOutbox_eq_ok.mpr ⟨h, rfl⟩]
  simp

theorem jsonFingerprint_ne_integrity (encoded : Json) :
    jsonFingerprint encoded ≠ .error .integrity :=
  bind_ne_error (refuse_ne_error (by simp [DomainError.integrity])) fun _ _ => pure_ne_error

theorem requireTask_ne_integrity (s : TaskStore) (taskId : Uuid) :
    s.requireTask taskId ≠ .error .integrity := by
  unfold requireTask
  split
  · simp [DomainError.integrity]
  · simp

theorem requireTaskLease_ne_integrity (s : TaskStore) (taskId : Uuid)
    (workerId leaseToken : String) (now : Instant) :
    s.requireTaskLease taskId workerId leaseToken now ≠ .error .integrity := by
  refine bind_ne_error (s.requireTask_ne_integrity taskId) fun record _ => ?_
  exact bind_ne_error (refuse_ne_error (by simp [DomainError.integrity])) fun _ _ => pure_ne_error

theorem Covered.enqueueRecord_ne_integrity (h : s.Covered) (taskTypes : List String)
    (render : Rendering) (payload : TaskEnqueue) (source : Option Uuid) (now : Instant) :
    s.enqueueRecord taskTypes render payload source now ≠ .error .integrity := by
  unfold enqueueRecord
  refine bind_ne_error (refuse_ne_error (by simp [DomainError.integrity])) fun _ _ => ?_
  refine bind_ne_error (jsonFingerprint_ne_integrity _) fun fingerprint _ => ?_
  split
  · exact bind_ne_error (refuse_ne_error (by simp [DomainError.integrity]))
      fun _ _ => pure_ne_error
  · refine bind_ne_error (addTaskWakeupOutbox_ne_integrity ?_) fun _ _ => pure_ne_error
    exact h.unannounced_new rfl

theorem Covered.recoverExpiredTask_goesThrough (h : s.Covered) (ht : s.tasks.get? t.id = some t)
    (hexpired : t.Expired now) : ∃ s', recoverExpiredTask now s t = .ok s' := by
  unfold recoverExpiredTask
  dsimp only
  split
  · exact ⟨_, rfl⟩
  · split
    · have hnew := h.unannounced ht (.inl hexpired.1)
      exact ⟨_, bind_eq_ok.mpr ⟨_, addTaskWakeupOutbox_eq_ok.mpr ⟨hnew, rfl⟩, rfl⟩⟩
    · exact ⟨_, rfl⟩

/-- Each recovery finds the queue as the ones before it leave it. -/
theorem Covered.foldlM_recoverExpiredTask_goesThrough (h : s.Covered)
    (records : List AutomationTaskRecord)
    (hnodup : (records.map AutomationTaskRecord.id).Nodup)
    (hrecords : ∀ t ∈ records, s.tasks.get? t.id = some t ∧ t.Expired now) :
    ∃ s', records.foldlM (recoverExpiredTask now) s = .ok s' := by
  induction records generalizing s with
  | nil => exact ⟨s, rfl⟩
  | cons t records ih =>
    obtain ⟨ht, hexpired⟩ := hrecords t List.mem_cons_self
    rw [List.map_cons, List.nodup_cons] at hnodup
    obtain ⟨s₁, hone⟩ := h.recoverExpiredTask_goesThrough ht hexpired
    have hrest : ∀ t' ∈ records, s₁.tasks.get? t'.id = some t' ∧ t'.Expired now := by
      intro t' ht'
      have hne : t.id ≠ t'.id := fun he => hnodup.1 (he ▸ List.mem_map_of_mem ht')
      rw [recoverExpiredTask_get? hone hne]
      exact hrecords t' (List.mem_cons_of_mem t ht')
    obtain ⟨s', hs'⟩ := ih (h.write (recoverExpiredTask_write ht hexpired hone)) hnodup.2 hrest
    rw [List.foldlM_cons]
    exact ⟨s', bind_eq_ok.mpr ⟨s₁, hone, hs'⟩⟩

theorem Covered.recoverExpiredTasks_goesThrough (h : s.Covered) (now : Instant)
    (skipped : List Uuid) : ∃ s', s.recoverExpiredTasks now skipped = .ok s' := by
  refine h.foldlM_recoverExpiredTask_goesThrough _ (nodup_lockExpiredTaskLeases s now skipped)
    fun t ht => ?_
  obtain ⟨hmem, hexpired⟩ := mem_lockExpiredTaskLeases ht
  exact ⟨Table.get?_key hmem, hexpired⟩

theorem Covered.claimTask_ne_integrity (h : s.Covered) (workerId : String) (queues : List String)
    (leaseSeconds : Int) (token : String) (now : Instant) (skipped : List Uuid) :
    s.claimTask workerId queues leaseSeconds token now skipped ≠ .error .integrity := by
  unfold claimTask
  obtain ⟨s₁, hrecover⟩ := h.recoverExpiredTasks_goesThrough now skipped
  rw [hrecover]
  refine bind_ne_error (refuse_ne_error (by simp [DomainError.integrity])) fun _ _ => ?_
  refine bind_ne_error (by simp) fun s₂ _ => ?_
  split
  · exact pure_ne_error
  · exact pure_ne_error

theorem Covered.failTask_ne_integrity (h : s.Covered) (taskId : Uuid)
    (workerId leaseToken errorCode : String) (retryable : Bool) (now : Instant) :
    s.failTask taskId workerId leaseToken errorCode retryable now ≠ .error .integrity := by
  unfold failTask
  refine bind_ne_error (s.requireTaskLease_ne_integrity taskId workerId leaseToken now)
    fun t hlease => ?_
  obtain ⟨hget, hleased⟩ := requireTaskLease_eq_ok.mp hlease
  obtain rfl : t.id = taskId := Table.key_of_get? hget
  dsimp only
  split
  · exact pure_ne_error
  · split
    · have hnew := h.unannounced hget (.inl hleased.1)
      exact bind_ne_error (addTaskWakeupOutbox_ne_integrity hnew) fun _ _ => pure_ne_error
    · split
      · exact pure_ne_error
      · exact pure_ne_error

theorem Covered.retryTask_ne_integrity (h : s.Covered) (taskId : Uuid) (now : Instant) :
    s.retryTask taskId now ≠ .error .integrity := by
  unfold retryTask
  refine bind_ne_error (s.requireTask_ne_integrity taskId) fun t hget => ?_
  have ht := requireTask_eq_ok.mp hget
  obtain rfl : t.id = taskId := Table.key_of_get? ht
  refine bind_ne_error (refuse_ne_error (by simp [DomainError.integrity])) fun _ hfailed => ?_
  refine bind_ne_error (refuse_ne_error (by simp [DomainError.integrity])) fun _ _ => ?_
  have hstatus : t.status = .failed := not_not.mp (refuse_eq_ok.mp hfailed)
  have hnew := h.unannounced ht (.inr hstatus)
  exact bind_ne_error (addTaskWakeupOutbox_ne_integrity hnew) fun _ _ => pure_ne_error

/-- No method of the queue has its wake-up refused. -/
theorem Covered.call_ne_integrity (h : s.Covered) (taskTypes : List String) (render : Rendering)
    (now : Instant) (c : Call) : s.call taskTypes render now c ≠ .error .integrity := by
  cases c with
  | enqueueTask payload =>
    refine map_ne_error ?_
    unfold enqueueTask
    refine bind_ne_error (refuse_ne_error (by simp [DomainError.integrity])) fun _ _ => ?_
    refine bind_ne_error (refuse_ne_error (by simp [DomainError.integrity])) fun _ _ => ?_
    exact h.enqueueRecord_ne_integrity taskTypes render payload none now
  | claimTask workerId queues leaseSeconds token skipped =>
    exact map_ne_error (h.claimTask_ne_integrity workerId queues leaseSeconds token now skipped)
  | heartbeatTask taskId workerId leaseToken leaseSeconds =>
    refine map_ne_error (bind_ne_error ?_ fun _ _ => pure_ne_error)
    exact s.requireTaskLease_ne_integrity taskId workerId leaseToken now
  | completeTask taskId workerId leaseToken result =>
    refine map_ne_error (bind_ne_error (jsonFingerprint_ne_integrity result) fun _ _ => ?_)
    refine bind_ne_error ?_ fun _ _ => pure_ne_error
    exact s.requireTaskLease_ne_integrity taskId workerId leaseToken now
  | failTask taskId workerId leaseToken errorCode retryable =>
    exact map_ne_error
      (h.failTask_ne_integrity taskId workerId leaseToken errorCode retryable now)
  | cancelTask taskId =>
    refine map_ne_error (bind_ne_error (s.requireTask_ne_integrity taskId) fun _ _ => ?_)
    exact pure_ne_error
  | retryTask taskId => exact map_ne_error (h.retryTask_ne_integrity taskId now)
  | deadLetterTask taskId errorCode =>
    refine map_ne_error (bind_ne_error (s.requireTask_ne_integrity taskId) fun _ _ => ?_)
    refine bind_ne_error (refuse_ne_error (by simp [DomainError.integrity])) fun _ _ => ?_
    refine bind_ne_error (refuse_ne_error (by simp [DomainError.integrity])) fun _ _ => ?_
    exact pure_ne_error

end TaskStore

namespace ScheduleStore

variable {setup : Setup} {schedule : ClaimedSchedule} {now : Instant} {s s' : ScheduleStore}

theorem addFire_ne_integrity {scheduleId : Uuid} {fireKey : String} {scheduledFor : Instant}
    {status : Automation.ScheduleFireStatus} {taskId : Option Uuid}
    (h : ¬ s.HasFire scheduleId fireKey) :
    s.addFire scheduleId fireKey scheduledFor status taskId now ≠ .error .integrity := by
  rw [addFire_eq_ok.mpr ⟨h, rfl, rfl⟩]
  simp

theorem createFireIfAbsent_ne_integrity (status : Automation.ScheduleFireStatus)
    (instant : Instant) :
    createFireIfAbsent setup.render schedule.id status now s instant ≠ .error .integrity := by
  unfold createFireIfAbsent
  split
  · exact pure_ne_error
  · next hnew => exact bind_ne_error (addFire_ne_integrity hnew) fun _ _ => pure_ne_error

theorem fireInstant_ne_integrity (h : s.queue.Covered) (instant : Instant) :
    fireInstant setup schedule now s instant ≠ .error .integrity := by
  unfold fireInstant
  split
  · exact pure_ne_error
  · next hnew =>
    dsimp only
    split
    · exact createFireIfAbsent_ne_integrity .skippedOverlap instant
    · refine bind_ne_error (TaskStore.Covered.enqueueRecord_ne_integrity ?_ _ _ _ _ _)
        fun _ _ => bind_ne_error (addFire_ne_integrity hnew) fun _ _ => pure_ne_error
      split
      · have hwrites : TaskStore.Writes (fun _ => True) now s.queue
            ((s.activeForSchedule schedule.id).foldl (replaceTask now) s.queue) :=
          s.activeForSchedule_writes schedule.id now
        exact h.queueSteps hwrites.queueSteps
      · exact h

theorem fireAll_ne_integrity {one : ScheduleStore → Instant →
      Except DomainError (ScheduleStore × Option ScheduleFireRecord)}
    (hone : ∀ {s s' : ScheduleStore} {instant : Instant} {fire : Option ScheduleFireRecord},
      one s instant = .ok (s', fire) → FireStep setup schedule now s instant s')
    (hok : ∀ s instant, s.queue.Covered → one s instant ≠ .error .integrity)
    (instants : List Instant) (h : s.queue.Covered) :
    fireAll one s instants ≠ .error .integrity := by
  induction instants generalizing s with
  | nil => exact pure_ne_error
  | cons instant instants ih =>
    refine bind_ne_error (hok s instant h) fun x hx => ?_
    refine bind_ne_error (ih ?_) fun _ _ => pure_ne_error
    exact h.queueSteps (hone hx).queueSteps

theorem finalizeScheduleClaim_ne_integrity (h : s.queue.Covered) (plan : CronDuePlan)
    (cutoff : Instant) :
    s.finalizeScheduleClaim setup schedule plan now cutoff ≠ .error .integrity := by
  unfold finalizeScheduleClaim
  split
  · exact pure_ne_error
  · next r hr =>
    dsimp only
    refine bind_ne_error (fireAll_ne_integrity createFireIfAbsent_ok
      (fun _ instant _ => createFireIfAbsent_ne_integrity .skippedMisfire instant) plan.skipped h)
      fun x hx => ?_
    refine bind_ne_error (fireAll_ne_integrity fireInstant_ok
      (fun _ instant hs => fireInstant_ne_integrity hs instant) plan.selected ?_)
      fun _ _ => pure_ne_error
    exact h.queueSteps (fireAll_ok createFireIfAbsent_ok hx).queueSteps

end ScheduleStore

/-! ## When hints are published -/

namespace WakeupSystem

variable {setup : Setup} {s : WakeupSystem} {queue queue' : TaskStore}
  {wakeups : List WakeupDispatch} {publishes : List WakeupPublish} {k : Uuid} {g : Nat}
  {a : Instant}

/-- The dispatch is of the wake-up of a task's generation. -/
def IsHint (queue : TaskStore) (k : Uuid) (g : Nat) (d : WakeupDispatch) : Prop :=
  ∃ r ∈ queue.outbox.rows, r.id = d.claim.outboxId ∧ r.taskId = k ∧ r.generation = g

/-- The wake-up of a task's generation is there, and has not been nor will be published
before `a`. -/
structure NotBefore (queue : TaskStore) (wakeups : List WakeupDispatch)
    (publishes : List WakeupPublish) (k : Uuid) (g : Nat) (a : Instant) : Prop where
  present : ∃ r ∈ queue.outbox.rows, r.taskId = k ∧ r.generation = g
  rows : ∀ r ∈ queue.outbox.rows, r.taskId = k → r.generation = g →
    a ≤ r.availableAt ∧ ∀ e, r.leaseExpiresAt = some e → a ≤ e
  claims : ∀ d ∈ wakeups, IsHint queue k g d → a ≤ d.claimedAt
  publishes : ∀ x ∈ publishes, ∀ d, wakeups[x.dispatch]? = some d → IsHint queue k g d → a ≤ x.time

/-- What the queue, the dispatches and the log have to do with each other. -/
structure Accounted (queue : TaskStore) (wakeups : List WakeupDispatch)
    (publishes : List WakeupPublish) : Prop where
  covered : queue.Covered
  known : ∀ d ∈ wakeups, d.claim.outboxId < queue.outbox.next
  timely : ∀ t ∈ queue.tasks.rows, t.Waiting →
    NotBefore queue wakeups publishes t.id t.attempts t.availableAt

/-- The row under a task's generation stays the only one. -/
theorem NotBefore.grow (h : NotBefore queue wakeups publishes k g a) (hcovered : queue'.Covered)
    (hgrows : TaskStore.OutboxGrows queue queue') :
    NotBefore queue' wakeups publishes k g a := by
  obtain ⟨r₀, hr₀, htask₀, hgeneration₀⟩ := h.present
  have hr₀' : r₀ ∈ queue'.outbox.rows :=
    Table.mem_of_get? (hgrows.stay _ r₀ (Table.get?_key hr₀))
  have hold : ∀ r ∈ queue'.outbox.rows, r.taskId = k → r.generation = g →
      r ∈ queue.outbox.rows := by
    intro r hr htask hgeneration
    rw [hcovered.unique r hr r₀ hr₀' (htask.trans htask₀.symm)
      (hgeneration.trans hgeneration₀.symm)]
    exact hr₀
  have hhint {d : WakeupDispatch} (hd : IsHint queue' k g d) : IsHint queue k g d := by
    obtain ⟨r, hr, hid, htask, hgeneration⟩ := hd
    exact ⟨r, hold r hr htask hgeneration, hid, htask, hgeneration⟩
  exact ⟨⟨r₀, hr₀', htask₀, hgeneration₀⟩,
    fun r hr htask hgeneration => h.rows r (hold r hr htask hgeneration) htask hgeneration,
    fun d hd hd' => h.claims d hd (hhint hd'),
    fun x hx d hd hd' => h.publishes x hx d hd (hhint hd')⟩

/-- Nothing has been done yet for a row that is new. -/
theorem NotBefore.new {tasks : Table AutomationTaskRecord} {t : AutomationTaskRecord}
    {now : Instant} (hknown : ∀ d ∈ wakeups, d.claim.outboxId < queue.outbox.next)
    (hnew : queue.Unannounced t) :
    NotBefore { tasks, outbox := queue.addWakeup t now } wakeups publishes t.id t.attempts
      t.availableAt := by
  have hhint {d : WakeupDispatch} (hd : d ∈ wakeups) :
      ¬ IsHint { tasks, outbox := queue.addWakeup t now } t.id t.attempts d := by
    rintro ⟨r, hr, hid, hkeys⟩
    rcases TaskStore.mem_addWakeup hr with hold | rfl
    · exact hnew r hold hkeys
    · exact absurd hid.symm (Nat.ne_of_lt (hknown d hd))
  refine ⟨⟨_, List.mem_append_right _ List.mem_cons_self, rfl, rfl⟩,
    fun r hr htask hgeneration => ?_, fun d hd hd' => absurd hd' (hhint hd),
    fun x hx d hd hd' => absurd hd' (hhint (List.mem_of_getElem? hd))⟩
  rcases TaskStore.mem_addWakeup hr with hold | rfl
  · exact absurd ⟨htask, hgeneration⟩ (hnew r hold)
  · exact ⟨le_rfl, by simp [wakeupRow]⟩

theorem queueStep_outbox_next (h : QueueStep queue queue') :
    queue.outbox.next ≤ queue'.outbox.next := by
  cases h with
  | write hwrite =>
    cases hwrite with
    | move => exact le_rfl
    | wait => exact Nat.le_succ _
    | insert => exact Nat.le_succ _
  | lease => exact le_rfl

/-- A step of the queue: a task that starts to wait does so with its wake-up. -/
theorem Accounted.queueStep (h : Accounted queue wakeups publishes)
    (hstep : QueueStep queue queue') :
    Accounted queue' wakeups publishes := by
  have hcovered := h.covered.queueStep hstep
  refine ⟨hcovered, fun d hd => (h.known d hd).trans_le (queueStep_outbox_next hstep), ?_⟩
  have hold {t : AutomationTaskRecord} (ht : t ∈ queue.tasks.rows) (hwaiting : t.Waiting) :
      NotBefore queue' wakeups publishes t.id t.attempts t.availableAt :=
    (h.timely t ht hwaiting).grow hcovered hstep.outboxGrows
  intro t ht hwaiting
  cases hstep with
  | write hwrite =>
    cases hwrite with
    | move ht₀ hmove =>
      rcases Table.mem_put ht with rfl | ⟨hkept, -⟩
      · exact absurd hwaiting hmove.idle.2.1
      · exact hold hkept hwaiting
    | wait ht₀ hwait hnew =>
      rcases Table.mem_put ht with rfl | ⟨hkept, -⟩
      · refine NotBefore.new h.known fun r hr => ?_
        rw [hwait.id_eq, hwait.waits.1]
        exact hnew r hr
      · exact hold hkept hwaiting
    | insert payload fingerprint source hok hnew =>
      rcases TaskStore.mem_addTask ht with hkept | rfl
      · exact hold hkept hwaiting
      · exact NotBefore.new h.known hnew
  | lease workerId token leaseSeconds ht₀ hclaimable =>
    rcases Table.mem_put ht with rfl | ⟨hkept, -⟩
    · simp [AutomationTaskRecord.Waiting, AutomationTaskRecord.claimed] at hwaiting
    · exact hold hkept hwaiting

/-! ### Dispatchers -/

/-- The clock of a dispatch does not go backwards. -/
def Forward (s : WakeupSystem) : WakeupEvent → Prop
  | .publish p now _ | .settle p now _ => (s.wakeups[p]?).all (·.claimedAt ≤ now)
  | .scheduler _ | .claim _ _ _ _ _ => True

theorem forward_le {p : Nat} {d : WakeupDispatch} {now : Instant} (hd : wakeups[p]? = some d)
    (h : (wakeups[p]?).all (·.claimedAt ≤ now)) : d.claimedAt ≤ now := by
  simpa [hd] using h

/-- A dispatcher rewrites a row as the same wake-up. -/
theorem isHint_put (r' : AutomationTaskWakeupOutboxRecord) {r : AutomationTaskWakeupOutboxRecord}
    (hr : queue.outbox.get? r.id = some r) (hid : r'.id = r.id) (htask : r'.taskId = r.taskId)
    (hgeneration : r'.generation = r.generation) {d : WakeupDispatch}
    (h : IsHint { queue with outbox := queue.outbox.put r' } k g d) : IsHint queue k g d := by
  obtain ⟨r₁, hr₁, hkeys⟩ := h
  rcases Table.mem_put hr₁ with rfl | ⟨hold, -⟩
  · rw [hid, htask, hgeneration] at hkeys
    exact ⟨r, Table.mem_of_get? hr, hkeys⟩
  · exact ⟨r₁, hold, hkeys⟩

theorem present_put {r r' : AutomationTaskWakeupOutboxRecord}
    (hr : queue.outbox.get? r.id = some r) (hid : r'.id = r.id) (htask : r'.taskId = r.taskId)
    (hgeneration : r'.generation = r.generation)
    (h : ∃ r ∈ queue.outbox.rows, r.taskId = k ∧ r.generation = g) :
    ∃ r ∈ (queue.outbox.put r').rows, r.taskId = k ∧ r.generation = g := by
  obtain ⟨r₁, hr₁, hkeys⟩ := h
  by_cases hsame : r₁.id = r'.id
  · have hrow : r₁ = r := by
      have hget := Table.get?_key hr₁
      rw [AutomationTaskWakeupOutboxRecord.key_eq, hsame, hid, hr] at hget
      exact (Option.some.inj hget).symm
    subst hrow
    refine ⟨r', Table.mem_of_get? (Table.get?_put_self hr hid), ?_⟩
    rw [htask, hgeneration]
    exact hkeys
  · have hkept : (queue.outbox.put r').get? r₁.id = queue.outbox.get? r₁.id :=
      Table.get?_put_of_ne (Ne.symm hsame)
    exact ⟨r₁, Table.mem_of_get? (hkept.trans (Table.get?_key hr₁)), hkeys⟩

theorem NotBefore.claimed (h : NotBefore queue wakeups publishes k g a)
    (hlogged : ∀ x ∈ publishes, x.dispatch < wakeups.length)
    {r : AutomationTaskWakeupOutboxRecord} {now : Instant} (hr : queue.outbox.get? r.id = some r)
    (hdue : r.Due now) (dispatcherId leaseToken : String) {leaseSeconds : Int}
    (hlease : 0 ≤ leaseSeconds) {claim : ClaimedTaskWakeup} (hclaim : claim.outboxId = r.id) :
    NotBefore
      { queue with outbox := queue.outbox.put (r.claimed dispatcherId leaseToken leaseSeconds now) }
      (wakeups ++ [⟨claim, now, now + seconds leaseSeconds, .claimed⟩]) publishes k g a := by
  have hmem := Table.mem_of_get? hr
  -- a row is due at or after the time it allows, and after its last lease
  have hnow (htask : r.taskId = k) (hgeneration : r.generation = g) : a ≤ now := by
    obtain ⟨havailable, hexpiry⟩ := h.rows r hmem htask hgeneration
    rcases hdue with ⟨-, hdue⟩ | ⟨-, hover⟩
    · exact havailable.trans hdue
    · cases he : r.leaseExpiresAt with
      | none => simp [he] at hover
      | some e =>
        have hle : e ≤ now := by simpa [he] using hover
        exact (hexpiry e he).trans hle
  have hlater : now ≤ now + seconds leaseSeconds := le_add_seconds now hlease
  refine ⟨present_put hr rfl rfl rfl h.present, fun r₁ hr₁ htask hgeneration => ?_,
    fun d hd hd' => ?_, fun x hx d hd hd' => ?_⟩
  · rcases Table.mem_put hr₁ with rfl | ⟨hold, -⟩
    · refine ⟨(h.rows r hmem htask hgeneration).1, fun e he => ?_⟩
      obtain rfl := Option.some.inj he
      exact (hnow htask hgeneration).trans hlater
    · exact h.rows r₁ hold htask hgeneration
  · have hhint := isHint_put (r.claimed dispatcherId leaseToken leaseSeconds now) hr rfl rfl rfl hd'
    rcases List.mem_append.mp hd with hold | hnew
    · exact h.claims d hold hhint
    · obtain rfl := List.mem_singleton.mp hnew
      obtain ⟨r₁, hr₁, hid, htask, hgeneration⟩ := hhint
      have hrow : r₁ = r := by
        have hget := Table.get?_key hr₁
        rw [AutomationTaskWakeupOutboxRecord.key_eq, hid, hclaim, hr] at hget
        exact (Option.some.inj hget).symm
      subst hrow
      exact hnow htask hgeneration
  · rw [List.getElem?_append_left (hlogged x hx)] at hd
    exact h.publishes x hx d hd
      (isHint_put (r.claimed dispatcherId leaseToken leaseSeconds now) hr rfl rfl rfl hd')

/-- A dispatch goes on. -/
theorem NotBefore.advance (h : NotBefore queue wakeups publishes k g a) {p : Nat}
    {d : WakeupDispatch} (hd : wakeups[p]? = some d) (progress : WakeupProgress) :
    NotBefore queue (wakeups.set p { d with progress }) publishes k g a where
  present := h.present
  rows := h.rows
  claims d' hd' hhint := by
    rcases List.mem_or_eq_of_mem_set hd' with hold | rfl
    · exact h.claims d' hold hhint
    · exact h.claims d (List.mem_of_getElem? hd) hhint
  publishes x hx d' hd' hhint := by
    rw [List.getElem?_set] at hd'
    by_cases hp : p = x.dispatch
    · rw [if_pos hp] at hd'
      split at hd'
      · obtain rfl := Option.some.inj hd'
        exact h.publishes x hx d (by rw [← hp, hd]) hhint
      · simp at hd'
    · rw [if_neg hp] at hd'
      exact h.publishes x hx d' hd' hhint

theorem NotBefore.published (h : NotBefore queue wakeups publishes k g a) {p : Nat}
    {d : WakeupDispatch} (hd : wakeups[p]? = some d) {now : Instant} (hnow : d.claimedAt ≤ now)
    (published : Bool) : NotBefore queue wakeups (publishes ++ [⟨p, now, published⟩]) k g a where
  present := h.present
  rows := h.rows
  claims := h.claims
  publishes x hx d' hd' hhint := by
    rcases List.mem_append.mp hx with hold | hnew
    · exact h.publishes x hold d' hd' hhint
    · obtain rfl := List.mem_singleton.mp hnew
      obtain rfl := Option.some.inj (hd.symm.trans hd')
      exact (h.claims d (List.mem_of_getElem? hd) hhint).trans hnow

theorem NotBefore.settled (h : NotBefore queue wakeups publishes k g a)
    {r : AutomationTaskWakeupOutboxRecord} (hr : queue.outbox.get? r.id = some r)
    {d : WakeupDispatch} (hd : d ∈ wakeups) (hrow : r.id = d.claim.outboxId) {now : Instant}
    (hnow : d.claimedAt ≤ now) (published : Bool) (attempts : Nat) :
    NotBefore
      { queue with
        outbox := queue.outbox.put (r.settled published (now + republishDelay attempts) now) }
      wakeups publishes k g a := by
  have hmem := Table.mem_of_get? hr
  have hlater : now ≤ now + republishDelay attempts := le_add_seconds now (Int.natCast_nonneg _)
  refine ⟨present_put hr rfl rfl rfl h.present, fun r₁ hr₁ htask hgeneration => ?_,
    fun d' hd' hhint => ?_, fun x hx d' hd' hhint => ?_⟩
  rotate_left
  · exact h.claims d' hd' (isHint_put (r.settled published _ now) hr rfl rfl rfl hhint)
  · exact h.publishes x hx d' hd' (isHint_put (r.settled published _ now) hr rfl rfl rfl hhint)
  rcases Table.mem_put hr₁ with rfl | ⟨hold, -⟩
  · refine ⟨?_, fun e he => absurd he (by simp [AutomationTaskWakeupOutboxRecord.settled])⟩
    cases published
    · exact (h.claims d hd ⟨r, hmem, hrow, htask, hgeneration⟩).trans (hnow.trans hlater)
    · exact (h.rows r hmem htask hgeneration).1
  · exact h.rows r₁ hold htask hgeneration

/-! ### Runs -/

/-- Every task that waits has its wake-up, and every publication its dispatch. -/
structure Timed (s : WakeupSystem) : Prop where
  accounted : Accounted s.queue s.wakeups s.publishes
  logged : ∀ x ∈ s.publishes, x.dispatch < s.wakeups.length

theorem empty_timed : empty.Timed where
  accounted := {
    covered := TaskStore.empty_covered
    known := by simp [empty]
    timely := by simp [empty, queue, SchedulerSystem.empty, Table.empty] }
  logged := by simp [empty]

/-- No event takes a hint to an earlier time. -/
theorem Timed.notBefore_step (h : s.Timed) {e : WakeupEvent} (hforward : s.Forward e)
    (hbefore : NotBefore s.queue s.wakeups s.publishes k g a) :
    NotBefore (s.step setup e).queue (s.step setup e).wakeups (s.step setup e).publishes k g a := by
  have hstep := step_cases setup s e
  generalize s.step setup e = s' at hstep ⊢
  cases hstep with
  | scheduler e =>
    have hsteps := SchedulerSystem.step_queueSteps setup s.scheduler e
    exact hbefore.grow (h.accounted.covered.queueSteps hsteps) hsteps.outboxGrows
  | idle => exact hbefore
  | claim now dispatcherId leaseSeconds leaseToken skipped r hlease hr hdue =>
    exact hbefore.claimed h.logged hr hdue dispatcherId leaseToken hlease rfl
  | publish p now published d hd hprogress =>
    have hnow : d.claimedAt ≤ now := forward_le hd hforward
    exact (hbefore.published hd hnow published).advance hd (.attempted published)
  | lost p now cutoff d published hd hprogress => exact hbefore.advance hd (.settled false)
  | settle p now cutoff d published r hd hprogress hr hsettleable =>
    have hnow : d.claimedAt ≤ now := forward_le hd hforward
    have hmem := List.mem_of_getElem? hd
    exact (hbefore.settled hr hmem hsettleable.1 hnow published d.claim.publishAttempts).advance hd
      (.settled true)

/-- A dispatcher's event leaves the tasks alone. -/
theorem Accounted.dispatched {queue' : TaskStore} {wakeups' : List WakeupDispatch}
    {publishes' : List WakeupPublish} (h : Accounted queue wakeups publishes)
    (htasks : queue'.tasks = queue.tasks) (hcovered : queue'.Covered)
    (hnext : queue'.outbox.next = queue.outbox.next)
    (hknown : ∀ d ∈ wakeups', d.claim.outboxId < queue.outbox.next)
    (hbefore : ∀ k g a, NotBefore queue wakeups publishes k g a →
      NotBefore queue' wakeups' publishes' k g a) :
    Accounted queue' wakeups' publishes' where
  covered := hcovered
  known d hd := by
    rw [hnext]
    exact hknown d hd
  timely t ht hwaiting := by
    rw [htasks] at ht
    exact hbefore _ _ _ (h.timely t ht hwaiting)

theorem Accounted.known_set (h : Accounted queue wakeups publishes) {p : Nat} {d : WakeupDispatch}
    (hd : wakeups[p]? = some d) (progress : WakeupProgress) :
    ∀ d' ∈ wakeups.set p { d with progress }, d'.claim.outboxId < queue.outbox.next := by
  intro d' hd'
  rcases List.mem_or_eq_of_mem_set hd' with hold | rfl
  · exact h.known d' hold
  · exact h.known d (List.mem_of_getElem? hd)

theorem Timed.step (h : s.Timed) {e : WakeupEvent} (hforward : s.Forward e) :
    (s.step setup e).Timed := by
  -- what a publish or a lost answer appends leaves the earlier publishes where they were
  have hbefore (k : Uuid) (g : Nat) (a : Instant)
      (hbefore : NotBefore s.queue s.wakeups s.publishes k g a) :
      NotBefore (s.step setup e).queue (s.step setup e).wakeups (s.step setup e).publishes k g a :=
    h.notBefore_step hforward hbefore
  have hstep := step_cases setup s e
  generalize s.step setup e = s' at hstep hbefore ⊢
  cases hstep with
  | scheduler e =>
    refine ⟨?_, h.logged⟩
    exact (SchedulerSystem.step_queueSteps setup s.scheduler e).invariant
      (I := fun queue => Accounted queue s.wakeups s.publishes)
      (fun hstep hs => hs.queueStep hstep) h.accounted
  | idle => exact h
  | claim now dispatcherId leaseSeconds leaseToken skipped r hlease hr hdue =>
    refine ⟨h.accounted.dispatched rfl
      (h.accounted.covered.putWakeup hr rfl rfl rfl) rfl ?_ hbefore,
      fun x hx => ?_⟩
    · intro d hd
      rcases List.mem_append.mp hd with hold | hnew
      · exact h.accounted.known d hold
      · obtain rfl := List.mem_singleton.mp hnew
        exact Table.lt_next_of_get? hr
    · rw [List.length_append]
      exact Nat.lt_add_right _ (h.logged x hx)
  | publish p now published d hd hprogress =>
    refine ⟨h.accounted.dispatched rfl h.accounted.covered rfl (h.accounted.known_set hd _) hbefore,
      fun x hx => ?_⟩
    show x.dispatch < (s.wakeups.set p _).length
    rw [List.length_set]
    rcases List.mem_append.mp hx with hold | hnew
    · exact h.logged x hold
    · obtain rfl := List.mem_singleton.mp hnew
      exact (List.getElem?_eq_some_iff.mp hd).1
  -- the answer is lost: the dispatch moves on, the log of publishes stays
  | lost p now cutoff d published hd hprogress =>
    refine ⟨h.accounted.dispatched rfl h.accounted.covered rfl (h.accounted.known_set hd _) hbefore,
      fun x hx => ?_⟩
    show x.dispatch < (s.wakeups.set p _).length
    rw [List.length_set]
    exact h.logged x hx
  | settle p now cutoff d published r hd hprogress hr hsettleable =>
    refine ⟨h.accounted.dispatched rfl (h.accounted.covered.putWakeup hr rfl rfl rfl) rfl
      (h.accounted.known_set hd _) hbefore, fun x hx => ?_⟩
    show x.dispatch < (s.wakeups.set p _).length
    rw [List.length_set]
    exact h.logged x hx

theorem step_covered (h : s.queue.Covered) (e : WakeupEvent) : (s.step setup e).queue.Covered := by
  have hstep := step_cases setup s e
  generalize s.step setup e = s' at hstep ⊢
  cases hstep with
  | scheduler e => exact h.queueSteps (SchedulerSystem.step_queueSteps setup s.scheduler e)
  | idle => exact h
  | claim now dispatcherId leaseSeconds leaseToken skipped r hlease hr hdue =>
    exact h.putWakeup hr rfl rfl rfl
  | publish => exact h
  | lost => exact h
  | settle p now cutoff d published r hd hprogress hr hsettleable =>
    exact h.putWakeup hr rfl rfl rfl

theorem run_covered (setup : Setup) (es : List WakeupEvent) :
    (Transition.run (WakeupSystem.step setup) empty es).queue.Covered :=
  Transition.invariant_run (I := fun s : WakeupSystem => s.queue.Covered) (s := empty)
    (fun _ e h => step_covered h e) TaskStore.empty_covered es

theorem run_notBefore (es : List WakeupEvent) (h : s.Timed)
    (hforward : Transition.Along Forward (WakeupSystem.step setup) s es)
    (hbefore : NotBefore s.queue s.wakeups s.publishes k g a) :
    NotBefore (Transition.run (WakeupSystem.step setup) s es).queue
      (Transition.run (WakeupSystem.step setup) s es).wakeups
      (Transition.run (WakeupSystem.step setup) s es).publishes k g a := by
  induction es generalizing s with
  | nil => exact hbefore
  | cons e es ih =>
    exact ih (h.step hforward.1) hforward.2 (h.notBefore_step hforward.1 hbefore)

/-- No transaction has the insert of a wake-up refused. -/
def NeverClashes (setup : Setup) (s : WakeupSystem) : Prop :=
  (∀ now call, s.queue.call setup.taskTypes setup.render now call ≠ .error .integrity)
  ∧ (∀ payload source now,
    s.queue.enqueueRecord setup.taskTypes setup.render payload source now ≠ .error .integrity)
  ∧ ∀ schedule plan now cutoff,
    s.scheduler.store.finalizeScheduleClaim setup schedule plan now cutoff ≠ .error .integrity

/-- A task that waits has one wake-up for its generation. -/
def WaitingCovered (s : WakeupSystem) : Prop :=
  ∀ t ∈ s.queue.tasks.rows, t.Waiting →
    ∃! r, r ∈ s.queue.outbox.rows ∧ r.taskId = t.id ∧ r.generation = t.attempts

/-- What is published in `s'` for the generation of a task that waits in `s` is published
when the task is available. -/
def NotHintedEarly (s s' : WakeupSystem) : Prop :=
  ∀ t ∈ s.queue.tasks.rows, t.Waiting → ∀ x ∈ s'.publishes, ∀ d,
    s'.wakeups[x.dispatch]? = some d → IsHint s'.queue t.id t.attempts d → t.availableAt ≤ x.time

theorem neverClashes (h : s.queue.Covered) : s.NeverClashes setup :=
  ⟨fun now call => h.call_ne_integrity setup.taskTypes setup.render now call,
    fun payload source now =>
      h.enqueueRecord_ne_integrity setup.taskTypes setup.render payload source now,
    fun _ plan _ cutoff => ScheduleStore.finalizeScheduleClaim_ne_integrity h plan cutoff⟩

theorem waitingCovered (h : s.queue.Covered) : s.WaitingCovered := by
  intro t ht hwaiting
  obtain ⟨r, hr, htask, hgeneration⟩ := h.covered t ht hwaiting
  refine ⟨r, ⟨hr, htask, hgeneration⟩, ?_⟩
  rintro r' ⟨hr', htask', hgeneration'⟩
  exact h.unique r' hr' r hr (htask'.trans htask.symm) (hgeneration'.trans hgeneration.symm)

/-- The outbox over a run `es` and what comes after it: no wake-up is refused, every task
that waits has one, and no hint comes early. -/
theorem wakeup_coverage (setup : Setup) (es fs : List WakeupEvent) :
    (Transition.run (WakeupSystem.step setup) empty es).NeverClashes setup
    ∧ (Transition.run (WakeupSystem.step setup) empty es).WaitingCovered
    ∧ (Transition.Along Forward (WakeupSystem.step setup) empty (es ++ fs) →
      NotHintedEarly (Transition.run (WakeupSystem.step setup) empty es)
        (Transition.run (WakeupSystem.step setup) empty (es ++ fs))) := by
  have hcovered := run_covered setup es
  refine ⟨neverClashes hcovered, waitingCovered hcovered, fun hforward => ?_⟩
  obtain ⟨hbefore, hafter⟩ := (Transition.along_append empty es fs).mp hforward
  have htimed : (Transition.run (WakeupSystem.step setup) empty es).Timed :=
    Transition.invariant_along (fun _ _ h hok => h.step hok) empty_timed hbefore
  intro t ht hwaiting x hx d hd hhint
  rw [Transition.run_append] at hx hd hhint
  exact (run_notBefore fs htimed hafter (htimed.accounted.timely t ht hwaiting)).publishes x hx d hd
    hhint

/-- A task that fails, waits and is hinted at twice. -/
def hintedTwice : List WakeupEvent :=
  [.scheduler (.queue 0 (.enqueueTask ⟨"synthetic", "\x7b\x7d", "default", 50, 3, none, none⟩)),
    .claim 1 "a" 5 "t" [], .publish 0 2 true, .settle 0 3 3,
    .scheduler (.queue 4 (.claimTask "w" ["default"] 60 "u" [])),
    .scheduler (.queue 5 (.failTask 0 "w" "u" "flaky" true)),
    .claim 6 "a" 5 "t" [], .claim 1000005 "a" 5 "t" [], .publish 1 1000006 true]

/-- Schedules have no part in it. -/
def unscheduled : Setup := ⟨["synthetic"], ⟨fun _ => "", fun _ => ""⟩, fun _ => none, true⟩

theorem wakeup_coverage_hintedTwice :
    ((Transition.run (WakeupSystem.step unscheduled) empty hintedTwice).publishes.map (·.time)
      = [2, 1000006])
    ∧ NotHintedEarly
      (Transition.run (WakeupSystem.step unscheduled) empty (hintedTwice.take 6))
      (Transition.run (WakeupSystem.step unscheduled) empty
        (hintedTwice.take 6 ++ hintedTwice.drop 6)) := by
  refine ⟨by decide +kernel, (wakeup_coverage unscheduled _ _).2.2 ?_⟩
  refine ⟨trivial, trivial, ?_, ?_, trivial, trivial, trivial, trivial, ?_, trivial⟩
  · show (_ : Bool) = true
    decide +kernel
  · show (_ : Bool) = true
    decide +kernel
  · show (_ : Bool) = true
    decide +kernel

end WakeupSystem

end QaPlatform.Runtime
