import Mathlib.Logic.Relation
import QaPlatform.Runtime.Tasks

/-!
# What the task methods do to the rows

Every method of the task queue, and every write of the scheduler to it, is a
sequence of row writes: one row is replaced by what `TaskMove` says, or one row
goes back to wait and leaves a wake-up for its generation (`TaskWait`), or a new
row comes with its first wake-up. A claim ends with one more write, the only one
that gives out a lease. Invariants of the queue are proved over these writes and
hold for all methods.
-/

namespace QaPlatform.Runtime

open Automation (TaskStatus)

namespace AutomationTaskRecord

/-- The task waits for a worker. -/
def Waiting (t : AutomationTaskRecord) : Prop := t.status = .queued ∨ t.status = .retryWait

instance (t : AutomationTaskRecord) : Decidable t.Waiting := by
  unfold Waiting
  infer_instance

/-- `_validate_task_lease_record` lets the worker through. -/
def LeasedBy (t : AutomationTaskRecord) (workerId leaseToken : String) (now : Instant) : Prop :=
  t.status = .running ∧ t.leaseOwner = some workerId
    ∧ t.leaseTokenHash = some (tokenHash leaseToken) ∧ t.leaseExpiresAt.any (now < ·)

/-- The lease has run out and the task is there to be recovered. -/
def Expired (t : AutomationTaskRecord) (now : Instant) : Prop :=
  t.status = .running ∧ t.leaseExpiresAt.any (· ≤ now)

/-- The row of a claim. -/
def claimed (t : AutomationTaskRecord) (workerId token : String) (leaseSeconds : Int)
    (now : Instant) : AutomationTaskRecord :=
  { t with
    status := .running
    attempts := t.attempts + 1
    errorCode := none
    result := none
    finishedAt := none
    leaseOwner := some workerId
    leaseTokenHash := some (tokenHash token)
    leaseExpiresAt := some (now + seconds leaseSeconds)
    heartbeatAt := some now
    startedAt := t.startedAt.or (some now) }

/-- The row once its work is over. -/
def ended (t : AutomationTaskRecord) (status : TaskStatus) (errorCode : Option String)
    (result : Option Json) (now : Instant) : AutomationTaskRecord :=
  { t.clearTaskLease with status, errorCode, result, finishedAt := some now }

/-- The row that waits for its next attempt. -/
def delayed (t : AutomationTaskRecord) (errorCode : String) (now : Instant) :
    AutomationTaskRecord :=
  { t.clearTaskLease with
    status := .retryWait
    errorCode := some errorCode
    availableAt := now + retryDelay t.attempts }

/-- The row that an administrator has put back. -/
def retried (t : AutomationTaskRecord) (now : Instant) : AutomationTaskRecord :=
  { t with status := .retryWait, availableAt := now, finishedAt := none, errorCode := none }

/-- How an attempt that is not to be repeated ends. -/
def EndsAs (t : AutomationTaskRecord) (status : TaskStatus) : Prop :=
  (t.cancelRequested = true ∧ status = .cancelled)
    ∨ (t.cancelRequested = false ∧ (status = .deadLetter ∨ status = .failed))

end AutomationTaskRecord

theorem lt_add_retryDelay (now : Int) (attempts : Nat) : now < now + retryDelay attempts := by
  have hpow : 0 < 2 ^ (attempts - 1) := Nat.pow_pos (by decide)
  unfold retryDelay seconds
  omega

@[simp] theorem ended_status (t : AutomationTaskRecord) (status : TaskStatus)
    (errorCode : Option String) (result : Option Json) (now : Instant) :
    (t.ended status errorCode result now).status = status := rfl

@[simp] theorem delayed_status (t : AutomationTaskRecord) (errorCode : String) (now : Instant) :
    (t.delayed errorCode now).status = .retryWait := rfl

@[simp] theorem ended_waiting (t : AutomationTaskRecord) (status : TaskStatus)
    (errorCode : Option String) (result : Option Json) (now : Instant) :
    (t.ended status errorCode result now).Waiting ↔ status = .queued ∨ status = .retryWait :=
  Iff.rfl

theorem validateTaskLeaseRecord_eq_ok {t : AutomationTaskRecord} {workerId leaseToken : String}
    {now : Instant} {u : Unit} :
    validateTaskLeaseRecord t workerId leaseToken now = .ok u
      ↔ t.LeasedBy workerId leaseToken now := by
  unfold validateTaskLeaseRecord AutomationTaskRecord.LeasedBy
  rw [refuse_eq_ok]
  cases t.leaseExpiresAt with
  | none => simp
  | some expiry => simp

/-- A row is rewritten and leaves no wake-up. -/
inductive TaskMove (now : Instant) (t : AutomationTaskRecord) : AutomationTaskRecord → Prop
  | extended (workerId token : String) (leaseSeconds : Int) (h : t.LeasedBy workerId token now) :
      TaskMove now t { t with
        heartbeatAt := some now
        leaseExpiresAt := some (now + seconds leaseSeconds) }
  | completed (workerId token : String) (result : Json) (h : t.LeasedBy workerId token now) :
      TaskMove now t (t.ended (if t.cancelRequested then .cancelled else .succeeded) t.errorCode
        (if t.cancelRequested then none else some result) now)
  | failed (workerId token errorCode : String) (status : TaskStatus)
      (h : t.LeasedBy workerId token now) (hends : t.EndsAs status) :
      TaskMove now t (t.ended status (some errorCode) t.result now)
  | expired (status : TaskStatus) (h : t.Expired now) (hends : t.EndsAs status) :
      TaskMove now t (t.ended status (some "lease_expired") t.result now)
  | cancelled (h : t.Waiting) :
      TaskMove now t { t.clearTaskLease with
        status := .cancelled
        cancelRequested := true
        finishedAt := some now }
  | cancelAsked (h : t.status = .running) : TaskMove now t { t with cancelRequested := true }
  | deadLettered (errorCode : String) (h : t.status ≠ .running) (hs : t.status ≠ .succeeded)
      (hc : t.status ≠ .cancelled) :
      TaskMove now t (t.ended .deadLetter (some errorCode) t.result now)
  /-- The scheduler puts another task in the place of one that waits. -/
  | replaced (h : t.Waiting) :
      TaskMove now t { t with
        cancelRequested := true
        status := .cancelled
        finishedAt := some now }

/-- A row goes back to wait, with a wake-up for its generation. -/
inductive TaskWait (now : Instant) (t : AutomationTaskRecord) : AutomationTaskRecord → Prop
  | failed (workerId token errorCode : String) (h : t.LeasedBy workerId token now)
      (hcancel : t.cancelRequested = false) (hattempts : t.attempts < t.maxAttempts) :
      TaskWait now t (t.delayed errorCode now)
  | expired (h : t.Expired now) (hcancel : t.cancelRequested = false)
      (hattempts : t.attempts < t.maxAttempts) : TaskWait now t (t.delayed "lease_expired" now)
  | retried (h : t.status = .failed) (hattempts : t.attempts < t.maxAttempts) :
      TaskWait now t (t.retried now)

theorem TaskMove.id_eq {now : Instant} {t t' : AutomationTaskRecord}
    (h : TaskMove now t t') : t'.id = t.id := by
  cases h <;> rfl

theorem TaskWait.id_eq {now : Instant} {t t' : AutomationTaskRecord}
    (h : TaskWait now t t') : t'.id = t.id := by
  cases h <;> rfl

/-- The row that `_add_task_wakeup_outbox` inserts. -/
def wakeupRow (task : AutomationTaskRecord) (now : Instant) (id : Uuid) :
    AutomationTaskWakeupOutboxRecord where
  id := id
  taskId := task.id
  generation := task.attempts
  status := .pending
  publishAttempts := 0
  availableAt := task.availableAt
  leaseOwner := none
  leaseTokenHash := none
  leaseExpiresAt := none
  lastErrorCode := none
  version := 0
  createdAt := now
  updatedAt := now
  publishedAt := none

/-- The row that `_enqueue_record` inserts. -/
def enqueuedTask (payload : TaskEnqueue) (fingerprint : Digest Json)
    (sourceScheduleId : Option Uuid) (now : Instant) (id : Uuid) : AutomationTaskRecord where
  id := id
  taskType := payload.taskType
  payload := payload.payload
  queue := payload.queue
  priority := payload.priority
  status := .queued
  idempotencyKey := payload.idempotencyKey
  requestFingerprint := fingerprint
  sourceScheduleId := sourceScheduleId
  attempts := 0
  maxAttempts := payload.maxAttempts
  availableAt := payload.availableAt.getD now
  leaseOwner := none
  leaseTokenHash := none
  leaseExpiresAt := none
  heartbeatAt := none
  cancelRequested := false
  result := none
  errorCode := none
  createdAt := now
  startedAt := none
  finishedAt := none

@[simp] theorem key_wakeupRow (task : AutomationTaskRecord) (now : Instant) (id : Uuid) :
    key (wakeupRow task now id) = id := rfl

@[simp] theorem key_enqueuedTask (payload : TaskEnqueue) (fingerprint : Digest Json)
    (sourceScheduleId : Option Uuid) (now : Instant) (id : Uuid) :
    key (enqueuedTask payload fingerprint sourceScheduleId now id) = id := rfl

namespace TaskStore

/-- Inserts the row of a new task. -/
def addTask (s : TaskStore) (payload : TaskEnqueue) (fingerprint : Digest Json)
    (sourceScheduleId : Option Uuid) (now : Instant) : Table AutomationTaskRecord :=
  s.tasks.add (enqueuedTask payload fingerprint sourceScheduleId now)
    (key_enqueuedTask payload fingerprint sourceScheduleId now)

/-- Inserts the wake-up of a task. -/
def addWakeup (s : TaskStore) (task : AutomationTaskRecord) (now : Instant) :
    Table AutomationTaskWakeupOutboxRecord :=
  s.outbox.add (wakeupRow task now) (key_wakeupRow task now)

theorem mem_addTask {s : TaskStore} {payload : TaskEnqueue} {fingerprint : Digest Json}
    {sourceScheduleId : Option Uuid} {now : Instant} {t : AutomationTaskRecord}
    (h : t ∈ (s.addTask payload fingerprint sourceScheduleId now).rows) :
    t ∈ s.tasks.rows ∨ t = enqueuedTask payload fingerprint sourceScheduleId now s.tasks.next :=
  Table.mem_add h

theorem get?_addTask {s : TaskStore} {payload : TaskEnqueue} {fingerprint : Digest Json}
    {sourceScheduleId : Option Uuid} {now : Instant} {k : Uuid} {t : AutomationTaskRecord}
    (h : s.tasks.get? k = some t) :
    (s.addTask payload fingerprint sourceScheduleId now).get? k = some t :=
  Table.get?_add_old h

theorem mem_addWakeup {s : TaskStore} {task : AutomationTaskRecord} {now : Instant}
    {r : AutomationTaskWakeupOutboxRecord} (h : r ∈ (s.addWakeup task now).rows) :
    r ∈ s.outbox.rows ∨ r = wakeupRow task now s.outbox.next :=
  Table.mem_add h

theorem get?_addWakeup {s : TaskStore} {task : AutomationTaskRecord} {now : Instant} {k : Uuid}
    {r : AutomationTaskWakeupOutboxRecord} (h : s.outbox.get? k = some r) :
    (s.addWakeup task now).get? k = some r :=
  Table.get?_add_old h

/-- There is no wake-up for the task's generation. -/
def Unannounced (s : TaskStore) (t : AutomationTaskRecord) : Prop :=
  ∀ r ∈ s.outbox.rows, ¬ (r.taskId = t.id ∧ r.generation = t.attempts)

/-- A write to the tables, to one row and at most one wake-up. A new row is made of
a payload that is `ok`. -/
inductive Write (ok : TaskEnqueue → Prop) (now : Instant) (s : TaskStore) : TaskStore → Prop
  | move {t t' : AutomationTaskRecord} (ht : s.tasks.get? t.id = some t) (h : TaskMove now t t') :
      Write ok now s { s with tasks := s.tasks.put t' }
  | wait {t t' : AutomationTaskRecord} (ht : s.tasks.get? t.id = some t) (h : TaskWait now t t')
      (hnew : s.Unannounced t) :
      Write ok now s { tasks := s.tasks.put t', outbox := s.addWakeup t' now }
  | insert (payload : TaskEnqueue) (fingerprint : Digest Json) (sourceScheduleId : Option Uuid)
      (hok : ok payload)
      (hnew : s.Unannounced (enqueuedTask payload fingerprint sourceScheduleId now s.tasks.next)) :
      Write ok now s
        { tasks := s.addTask payload fingerprint sourceScheduleId now
          outbox := s.addWakeup
            (enqueuedTask payload fingerprint sourceScheduleId now s.tasks.next) now }

/-- Any number of writes at one time. -/
abbrev Writes (ok : TaskEnqueue → Prop) (now : Instant) : TaskStore → TaskStore → Prop :=
  Relation.ReflTransGen (Write ok now)

variable {ok : TaskEnqueue → Prop} {s s' : TaskStore} {now : Instant}

theorem addTaskWakeupOutbox_eq_ok {t : AutomationTaskRecord} :
    s.addTaskWakeupOutbox t now = .ok s' ↔
      s.Unannounced t ∧ s' = { s with outbox := s.addWakeup t now } := by
  unfold addTaskWakeupOutbox
  rw [refuse_bind_eq_ok, pure_eq_ok]
  have hnew : (¬ (s.outbox.rows.any fun r => r.taskId = t.id ∧ r.generation = t.attempts) = true)
      ↔ s.Unannounced t := by
    simp [Unannounced, List.any_eq_true]
  rw [hnew]
  exact and_congr_right fun _ => eq_comm

theorem requireTask_eq_ok {taskId : Uuid} {t : AutomationTaskRecord} :
    s.requireTask taskId = .ok t ↔ s.tasks.get? taskId = some t := by
  unfold requireTask
  cases s.tasks.get? taskId with
  | none => simp
  | some record => simp

theorem requireTaskLease_eq_ok {taskId : Uuid} {workerId leaseToken : String}
    {t : AutomationTaskRecord} :
    s.requireTaskLease taskId workerId leaseToken now = .ok t ↔
      s.tasks.get? taskId = some t ∧ t.LeasedBy workerId leaseToken now := by
  unfold requireTaskLease
  simp only [bind_eq_ok, requireTask_eq_ok, validateTaskLeaseRecord_eq_ok, pure_eq_ok,
    exists_const]
  constructor
  · rintro ⟨record, hget, hlease, rfl⟩
    exact ⟨hget, hlease⟩
  · rintro ⟨hget, hlease⟩
    exact ⟨t, hget, hlease, rfl⟩

/-! ## Recovery -/

theorem mem_lockExpiredTaskLeases {skipped : List Uuid} {t : AutomationTaskRecord}
    (h : t ∈ s.lockExpiredTaskLeases now skipped) : t ∈ s.tasks.rows ∧ t.Expired now := by
  unfold lockExpiredTaskLeases at h
  rw [List.mem_mergeSort] at h
  have hmem := List.mem_filter.mp h
  have hexpired := of_decide_eq_true hmem.2
  exact ⟨hmem.1, hexpired.1, hexpired.2.1⟩

/-- The recovery of an expired row is one write. -/
theorem recoverExpiredTask_write {t : AutomationTaskRecord} (ht : s.tasks.get? t.id = some t)
    (hexpired : t.Expired now) (h : recoverExpiredTask now s t = .ok s') : Write ok now s s' := by
  unfold recoverExpiredTask at h
  dsimp only at h
  split at h
  · next hcancel =>
    obtain rfl := pure_eq_ok.mp h
    exact .move ht (.expired .cancelled hexpired (.inl ⟨hcancel, rfl⟩))
  · next hcancel =>
    have hcancel' : t.cancelRequested = false := by simpa using hcancel
    split at h
    · next hattempts =>
      obtain ⟨s₁, hadd, hput⟩ := bind_eq_ok.mp h
      obtain ⟨hnew, rfl⟩ := addTaskWakeupOutbox_eq_ok.mp hadd
      obtain rfl := pure_eq_ok.mp hput
      exact .wait ht (.expired hexpired hcancel' hattempts) hnew
    · obtain rfl := pure_eq_ok.mp h
      exact .move ht (.expired .deadLetter hexpired (.inr ⟨hcancel', .inl rfl⟩))

theorem recoverExpiredTask_get? {t : AutomationTaskRecord} (h : recoverExpiredTask now s t = .ok s')
    {k : Uuid} (hk : t.id ≠ k) : s'.tasks.get? k = s.tasks.get? k := by
  unfold recoverExpiredTask at h
  dsimp only at h
  split at h
  · obtain rfl := pure_eq_ok.mp h
    exact Table.get?_put_of_ne hk
  · split at h
    · obtain ⟨s₁, hadd, hput⟩ := bind_eq_ok.mp h
      obtain ⟨-, rfl⟩ := addTaskWakeupOutbox_eq_ok.mp hadd
      obtain rfl := pure_eq_ok.mp hput
      exact Table.get?_put_of_ne hk
    · obtain rfl := pure_eq_ok.mp h
      exact Table.get?_put_of_ne hk

/-- A recovered row is not running, has no lease and does not wait for a time that
has come. -/
theorem recoverExpiredTask_put {t : AutomationTaskRecord}
    (h : recoverExpiredTask now s t = .ok s') :
    ∃ t', t'.id = t.id ∧ t'.status ≠ .running
      ∧ (t'.leaseOwner = none ∧ t'.leaseTokenHash = none ∧ t'.leaseExpiresAt = none)
      ∧ (t'.Waiting → now < t'.availableAt) ∧ s'.tasks = s.tasks.put t' := by
  unfold recoverExpiredTask at h
  dsimp only at h
  split at h
  · obtain rfl := pure_eq_ok.mp h
    exact ⟨t.ended .cancelled (some "lease_expired") t.result now, rfl, by simp, ⟨rfl, rfl, rfl⟩,
      by simp, rfl⟩
  · split at h
    · obtain ⟨s₁, hadd, hput⟩ := bind_eq_ok.mp h
      obtain ⟨-, rfl⟩ := addTaskWakeupOutbox_eq_ok.mp hadd
      obtain rfl := pure_eq_ok.mp hput
      refine ⟨t.delayed "lease_expired" now, rfl, by simp, ⟨rfl, rfl, rfl⟩, fun _ => ?_, rfl⟩
      exact lt_add_retryDelay now t.attempts
    · obtain rfl := pure_eq_ok.mp h
      exact ⟨t.ended .deadLetter (some "lease_expired") t.result now, rfl, by simp,
        ⟨rfl, rfl, rfl⟩, by simp, rfl⟩

/-- Rows are recovered one by one, each as the query has found it. -/
theorem foldlM_recoverExpiredTask_writes (records : List AutomationTaskRecord)
    (hnodup : (records.map AutomationTaskRecord.id).Nodup)
    (hrecords : ∀ t ∈ records, s.tasks.get? t.id = some t ∧ t.Expired now)
    (h : records.foldlM (recoverExpiredTask now) s = .ok s') : Writes ok now s s' := by
  induction records generalizing s with
  | nil =>
    rw [List.foldlM_nil] at h
    obtain rfl := pure_eq_ok.mp h
    exact .refl
  | cons t records ih =>
    rw [List.foldlM_cons] at h
    obtain ⟨s₁, hone, hrest⟩ := bind_eq_ok.mp h
    obtain ⟨ht, hexpired⟩ := hrecords t List.mem_cons_self
    rw [List.map_cons, List.nodup_cons] at hnodup
    refine .head (recoverExpiredTask_write ht hexpired hone) (ih hnodup.2 ?_ hrest)
    intro t' ht'
    have hne : t.id ≠ t'.id := fun he => hnodup.1 (he ▸ List.mem_map_of_mem ht')
    rw [recoverExpiredTask_get? hone hne]
    exact hrecords t' (List.mem_cons_of_mem t ht')

theorem nodup_lockExpiredTaskLeases (s : TaskStore) (now : Instant) (skipped : List Uuid) :
    ((s.lockExpiredTaskLeases now skipped).map AutomationTaskRecord.id).Nodup := by
  unfold lockExpiredTaskLeases
  have hperm := List.mergeSort_perm (s.tasks.rows.filter fun r => r.status = .running
    ∧ r.leaseExpiresAt.any (· ≤ now) ∧ r.id ∉ skipped)
    fun a b => columnsLe [a.leaseExpiresAt.getD 0, a.id] [b.leaseExpiresAt.getD 0, b.id]
  rw [(hperm.map AutomationTaskRecord.id).nodup_iff]
  exact s.tasks.nodup.sublist (List.filter_sublist.map AutomationTaskRecord.id)

theorem recoverExpiredTasks_writes {skipped : List Uuid}
    (h : s.recoverExpiredTasks now skipped = .ok s') : Writes ok now s s' := by
  refine foldlM_recoverExpiredTask_writes _ (nodup_lockExpiredTaskLeases s now skipped) ?_ h
  intro t ht
  obtain ⟨hmem, hexpired⟩ := mem_lockExpiredTaskLeases ht
  exact ⟨Table.get?_key hmem, hexpired⟩

/-! ## Methods -/

theorem enqueueRecord_ok {taskTypes : List String} {render : Rendering} {payload : TaskEnqueue}
    {source : Option Uuid} {t : AutomationTaskRecord} {replayed : Bool}
    (h : s.enqueueRecord taskTypes render payload source now = .ok (s', t, replayed)) :
    (replayed = true ∧ s' = s ∧ t ∈ s.tasks.rows ∧ t.taskType = payload.taskType
      ∧ (∃ k, payload.idempotencyKey = some k ∧ t.idempotencyKey = some k)
      ∧ t.requestFingerprint = ⟨payload.request render source⟩)
    ∨ (replayed = false ∧ ∃ fingerprint : Digest Json,
      t = enqueuedTask payload fingerprint source now s.tasks.next
      ∧ (∀ k, payload.idempotencyKey = some k → ∀ r ∈ s.tasks.rows,
        ¬ (r.taskType = payload.taskType ∧ r.idempotencyKey = some k))
      ∧ s.Unannounced t
      ∧ s' = {
        tasks := s.addTask payload fingerprint source now, outbox := s.addWakeup t now }) := by
  unfold enqueueRecord at h
  obtain ⟨-, h⟩ := refuse_bind_eq_ok.mp h
  obtain ⟨fingerprint, hfingerprint, h⟩ := bind_eq_ok.mp h
  split at h
  · next previous hprevious =>
    obtain ⟨hsame, h⟩ := refuse_bind_eq_ok.mp h
    obtain ⟨rfl, rfl, rfl⟩ := by simpa only [pure_eq_ok, Prod.mk.injEq] using h
    obtain ⟨k, hk, hfind⟩ := Option.bind_eq_some_iff.mp hprevious
    have hkeys : previous.taskType = payload.taskType ∧ previous.idempotencyKey = some k := by
      simpa using List.find?_some hfind
    have hdigest : fingerprint = ⟨payload.request render source⟩ := by
      unfold jsonFingerprint at hfingerprint
      obtain ⟨-, hf⟩ := refuse_bind_eq_ok.mp hfingerprint
      exact (pure_eq_ok.mp hf).symm
    refine .inl ⟨rfl, rfl, List.mem_of_find?_eq_some hfind, hkeys.1, ⟨k, hk, hkeys.2⟩, ?_⟩
    rw [← hdigest]
    simpa using hsame
  · next hnone =>
    obtain ⟨s₁, hadd, h⟩ := bind_eq_ok.mp h
    obtain ⟨hnew, rfl⟩ := addTaskWakeupOutbox_eq_ok.mp hadd
    obtain ⟨rfl, rfl, rfl⟩ := by simpa only [pure_eq_ok, Prod.mk.injEq] using h
    refine .inr ⟨rfl, fingerprint, rfl, ?_, hnew, rfl⟩
    intro k hk r hr hkeys
    rw [hk, Option.bind_some, List.find?_eq_none] at hnone
    exact hnone r hr (by simpa using hkeys)

theorem enqueueRecord_writes {taskTypes : List String} {render : Rendering}
    {payload : TaskEnqueue} {source : Option Uuid} {t : AutomationTaskRecord} {replayed : Bool}
    (hok : ok payload)
    (h : s.enqueueRecord taskTypes render payload source now = .ok (s', t, replayed)) :
    Writes ok now s s' := by
  rcases enqueueRecord_ok h with ⟨-, rfl, -⟩ | ⟨-, fingerprint, rfl, -, hnew, rfl⟩
  · exact .refl
  · exact .single (.insert payload fingerprint source hok hnew)

theorem claimTaskCandidate_some {queues : List String} {skipped : List Uuid}
    {t : AutomationTaskRecord} (h : s.claimTaskCandidate queues now skipped = some t) :
    s.tasks.get? t.id = some t ∧ claimable queues now t := by
  have hmem := List.mem_filter.mp (mem_of_firstBy h)
  exact ⟨Table.get?_key hmem.1, (of_decide_eq_true hmem.2).1⟩

/-- A claim recovers what has expired and then takes the first task there is. -/
theorem claimTask_candidate {workerId token : String} {queues : List String} {leaseSeconds : Int}
    {skipped : List Uuid} {result : Option (AutomationTaskRecord × String)}
    (h : s.claimTask workerId queues leaseSeconds token now skipped = .ok (s', result)) :
    ∃ s₁, s.recoverExpiredTasks now skipped = .ok s₁
      ∧ ((result = none ∧ s₁.claimTaskCandidate queues now skipped = none ∧ s' = s₁)
      ∨ ∃ t, s₁.claimTaskCandidate queues now skipped = some t
        ∧ result = some (t.claimed workerId token leaseSeconds now, token)
        ∧ s' = { s₁ with tasks := s₁.tasks.put (t.claimed workerId token leaseSeconds now) }) := by
  unfold claimTask at h
  obtain ⟨-, h⟩ := refuse_bind_eq_ok.mp h
  obtain ⟨s₁, hrecover, h⟩ := bind_eq_ok.mp h
  refine ⟨s₁, hrecover, ?_⟩
  split at h
  · next hnone =>
    obtain ⟨rfl, rfl⟩ := Prod.mk.inj (pure_eq_ok.mp h)
    exact .inl ⟨rfl, hnone, rfl⟩
  · next t ht =>
    obtain ⟨rfl, rfl⟩ := Prod.mk.inj (pure_eq_ok.mp h)
    exact .inr ⟨t, ht, rfl, rfl⟩

/-- A claim recovers what has expired and then takes at most one task. -/
theorem claimTask_ok {workerId token : String} {queues : List String} {leaseSeconds : Int}
    {skipped : List Uuid} {result : Option (AutomationTaskRecord × String)}
    (h : s.claimTask workerId queues leaseSeconds token now skipped = .ok (s', result)) :
    ∃ s₁, s.recoverExpiredTasks now skipped = .ok s₁
      ∧ ((result = none ∧ s' = s₁)
      ∨ ∃ t, s₁.tasks.get? t.id = some t ∧ claimable queues now t
        ∧ result = some (t.claimed workerId token leaseSeconds now, token)
        ∧ s' = { s₁ with tasks := s₁.tasks.put (t.claimed workerId token leaseSeconds now) }) := by
  obtain ⟨s₁, hrecover, hcase⟩ := claimTask_candidate h
  refine ⟨s₁, hrecover, ?_⟩
  rcases hcase with ⟨hresult, -, hsame⟩ | ⟨t, ht, hresult, hput⟩
  · exact .inl ⟨hresult, hsame⟩
  · obtain ⟨hget, hclaimable⟩ := claimTaskCandidate_some ht
    exact .inr ⟨t, hget, hclaimable, hresult, hput⟩

theorem heartbeatTask_ok {taskId : Uuid} {workerId leaseToken : String} {leaseSeconds : Int}
    {t' : AutomationTaskRecord}
    (h : s.heartbeatTask taskId workerId leaseToken leaseSeconds now = .ok (s', t')) :
    ∃ t, s.tasks.get? taskId = some t ∧ t.LeasedBy workerId leaseToken now
      ∧ t' = { t with
          heartbeatAt := some now
          leaseExpiresAt := some (now + seconds leaseSeconds) }
      ∧ s' = { s with tasks := s.tasks.put t' } := by
  unfold heartbeatTask at h
  obtain ⟨t, hlease, h⟩ := bind_eq_ok.mp h
  obtain ⟨hget, hleased⟩ := requireTaskLease_eq_ok.mp hlease
  obtain ⟨rfl, rfl⟩ := Prod.mk.inj (pure_eq_ok.mp h)
  exact ⟨t, hget, hleased, rfl, rfl⟩

theorem completeTask_ok {taskId : Uuid} {workerId leaseToken : String} {result : Json}
    {t' : AutomationTaskRecord}
    (h : s.completeTask taskId workerId leaseToken result now = .ok (s', t')) :
    ∃ t, s.tasks.get? taskId = some t ∧ t.LeasedBy workerId leaseToken now
      ∧ t' = t.ended (if t.cancelRequested then .cancelled else .succeeded) t.errorCode
          (if t.cancelRequested then none else some result) now
      ∧ s' = { s with tasks := s.tasks.put t' } := by
  unfold completeTask at h
  obtain ⟨-, -, h⟩ := bind_eq_ok.mp h
  obtain ⟨t, hlease, h⟩ := bind_eq_ok.mp h
  obtain ⟨hget, hleased⟩ := requireTaskLease_eq_ok.mp hlease
  obtain ⟨rfl, rfl⟩ := Prod.mk.inj (pure_eq_ok.mp h)
  exact ⟨t, hget, hleased, rfl, rfl⟩

theorem failTask_ok {taskId : Uuid} {workerId leaseToken errorCode : String} {retryable : Bool}
    {t' : AutomationTaskRecord}
    (h : s.failTask taskId workerId leaseToken errorCode retryable now = .ok (s', t')) :
    ∃ t, s.tasks.get? taskId = some t ∧ t.LeasedBy workerId leaseToken now
      ∧ ((∃ status, t.EndsAs status ∧ t' = t.ended status (some errorCode) t.result now
          ∧ s' = { s with tasks := s.tasks.put t' })
        ∨ (t.cancelRequested = false ∧ t.attempts < t.maxAttempts ∧ t' = t.delayed errorCode now
          ∧ s.Unannounced t
          ∧ s' = { tasks := s.tasks.put t', outbox := s.addWakeup t' now })) := by
  unfold failTask at h
  obtain ⟨t, hlease, h⟩ := bind_eq_ok.mp h
  obtain ⟨hget, hleased⟩ := requireTaskLease_eq_ok.mp hlease
  refine ⟨t, hget, hleased, ?_⟩
  dsimp only at h
  split at h
  · next hcancel =>
    obtain ⟨rfl, rfl⟩ := Prod.mk.inj (pure_eq_ok.mp h)
    exact .inl ⟨.cancelled, .inl ⟨hcancel, rfl⟩, rfl, rfl⟩
  · next hcancel =>
    have hcancel' : t.cancelRequested = false := by simpa using hcancel
    split at h
    · next hretry =>
      obtain ⟨s₁, hadd, h⟩ := bind_eq_ok.mp h
      obtain ⟨hnew, rfl⟩ := addTaskWakeupOutbox_eq_ok.mp hadd
      obtain ⟨rfl, rfl⟩ := Prod.mk.inj (pure_eq_ok.mp h)
      exact .inr ⟨hcancel', hretry.2, rfl, hnew, rfl⟩
    · split at h
      · obtain ⟨rfl, rfl⟩ := Prod.mk.inj (pure_eq_ok.mp h)
        exact .inl ⟨.deadLetter, .inr ⟨hcancel', .inl rfl⟩, rfl, rfl⟩
      · obtain ⟨rfl, rfl⟩ := Prod.mk.inj (pure_eq_ok.mp h)
        exact .inl ⟨.failed, .inr ⟨hcancel', .inr rfl⟩, rfl, rfl⟩

theorem cancelTask_writes {taskId : Uuid} {t' : AutomationTaskRecord}
    (h : s.cancelTask taskId now = .ok (s', t')) : Writes ok now s s' := by
  unfold cancelTask at h
  obtain ⟨t, hget, hput⟩ := bind_eq_ok.mp h
  have ht := requireTask_eq_ok.mp hget
  obtain rfl : t.id = taskId := Table.key_of_get? ht
  dsimp only at hput
  obtain ⟨rfl, -⟩ := Prod.mk.inj (pure_eq_ok.mp hput)
  split
  · next hwaiting => exact .single (.move ht (.cancelled hwaiting))
  · split
    · next hrunning => exact .single (.move ht (.cancelAsked hrunning))
    · rw [Table.put_self ht]

theorem retryTask_writes {taskId : Uuid} {t' : AutomationTaskRecord}
    (h : s.retryTask taskId now = .ok (s', t')) : Writes ok now s s' := by
  unfold retryTask at h
  obtain ⟨t, hget, hbody⟩ := bind_eq_ok.mp h
  have ht := requireTask_eq_ok.mp hget
  obtain rfl : t.id = taskId := Table.key_of_get? ht
  simp only [refuse_bind_eq_ok] at hbody
  obtain ⟨hfailed, hattempts, hbody⟩ := hbody
  obtain ⟨s₁, hadd, hput⟩ := bind_eq_ok.mp hbody
  obtain ⟨hnew, rfl⟩ := addTaskWakeupOutbox_eq_ok.mp hadd
  obtain ⟨rfl, -⟩ := Prod.mk.inj (pure_eq_ok.mp hput)
  exact .single (.wait ht (.retried (by simpa using hfailed) (by omega)) hnew)

theorem deadLetterTask_writes {taskId : Uuid} {errorCode : String} {t' : AutomationTaskRecord}
    (h : s.deadLetterTask taskId errorCode now = .ok (s', t')) : Writes ok now s s' := by
  unfold deadLetterTask at h
  obtain ⟨t, hget, hbody⟩ := bind_eq_ok.mp h
  have ht := requireTask_eq_ok.mp hget
  obtain rfl : t.id = taskId := Table.key_of_get? ht
  simp only [refuse_bind_eq_ok, not_or] at hbody
  obtain ⟨hrunning, ⟨hsucceeded, hcancelled⟩, hput⟩ := hbody
  obtain ⟨rfl, -⟩ := Prod.mk.inj (pure_eq_ok.mp hput)
  exact .single (.move ht (.deadLettered errorCode hrunning hsucceeded hcancelled))

/-- The payload of a call that enqueues is `ok`. -/
def Call.Enqueues (ok : TaskEnqueue → Prop) (c : Call) : Prop :=
  ∀ payload, c = .enqueueTask payload → ok payload

/-- Every method but a claim is a sequence of writes. -/
theorem call_writes {taskTypes : List String} {render : Rendering} {c : Call}
    (hok : c.Enqueues ok) (h : s.call taskTypes render now c = .ok s')
    (hc : ∀ workerId queues leaseSeconds token skipped,
      c ≠ .claimTask workerId queues leaseSeconds token skipped) : Writes ok now s s' := by
  cases c with
  | claimTask workerId queues leaseSeconds token skipped => exact absurd rfl (hc _ _ _ _ _)
  | enqueueTask payload =>
    obtain ⟨⟨s₁, t, replayed⟩, hcall, rfl⟩ := map_eq_ok.mp h
    unfold enqueueTask at hcall
    simp only [refuse_bind_eq_ok] at hcall
    exact enqueueRecord_writes (hok payload rfl) hcall.2.2
  | heartbeatTask taskId workerId leaseToken leaseSeconds =>
    obtain ⟨⟨s₁, t'⟩, hcall, rfl⟩ := map_eq_ok.mp h
    obtain ⟨t, ht, hleased, rfl, rfl⟩ := heartbeatTask_ok hcall
    obtain rfl : t.id = taskId := Table.key_of_get? ht
    exact .single (.move ht (.extended workerId leaseToken leaseSeconds hleased))
  | completeTask taskId workerId leaseToken result =>
    obtain ⟨⟨s₁, t'⟩, hcall, rfl⟩ := map_eq_ok.mp h
    obtain ⟨t, ht, hleased, rfl, rfl⟩ := completeTask_ok hcall
    obtain rfl : t.id = taskId := Table.key_of_get? ht
    exact .single (.move ht (.completed workerId leaseToken result hleased))
  | failTask taskId workerId leaseToken errorCode retryable =>
    obtain ⟨⟨s₁, t'⟩, hcall, rfl⟩ := map_eq_ok.mp h
    obtain ⟨t, ht, hleased, hcase⟩ := failTask_ok hcall
    obtain rfl : t.id = taskId := Table.key_of_get? ht
    rcases hcase with ⟨status, hends, rfl, rfl⟩ | ⟨hcancel, hattempts, rfl, hnew, rfl⟩
    · exact .single (.move ht (.failed workerId leaseToken errorCode status hleased hends))
    · exact .single
        (.wait ht (.failed workerId leaseToken errorCode hleased hcancel hattempts) hnew)
  | cancelTask taskId =>
    obtain ⟨⟨s₁, t'⟩, hcall, rfl⟩ := map_eq_ok.mp h
    exact cancelTask_writes hcall
  | retryTask taskId =>
    obtain ⟨⟨s₁, t'⟩, hcall, rfl⟩ := map_eq_ok.mp h
    exact retryTask_writes hcall
  | deadLetterTask taskId errorCode =>
    obtain ⟨⟨s₁, t'⟩, hcall, rfl⟩ := map_eq_ok.mp h
    exact deadLetterTask_writes hcall

/-- The end of a claim that has recovered what had expired: it gives a task to the
worker, or finds none. -/
inductive Claims (now : Instant) (s s₁ : TaskStore) (s' : TaskStore) : Call → Prop
  | none (workerId : String) (queues : List String) (leaseSeconds : Int) (token : String)
      (skipped : List Uuid)
      (h : s.claimTask workerId queues leaseSeconds token now skipped = .ok (s', none))
      (hs : s' = s₁) : Claims now s s₁ s' (.claimTask workerId queues leaseSeconds token skipped)
  | some (workerId : String) (queues : List String) (leaseSeconds : Int) (token : String)
      (skipped : List Uuid) (t : AutomationTaskRecord)
      (h : s.claimTask workerId queues leaseSeconds token now skipped
        = .ok (s', some (t.claimed workerId token leaseSeconds now, token)))
      (ht : s₁.tasks.get? t.id = some t) (hclaimable : claimable queues now t)
      (hs : s' = { s₁ with tasks := s₁.tasks.put (t.claimed workerId token leaseSeconds now) }) :
      Claims now s s₁ s' (.claimTask workerId queues leaseSeconds token skipped)

/-- A method that succeeds is a sequence of writes; a claim is one that may end with
the write that gives out the lease. -/
theorem call_cases {taskTypes : List String} {render : Rendering} {c : Call}
    (hok : c.Enqueues ok) (h : s.call taskTypes render now c = .ok s') :
    (Writes ok now s s' ∧ ∀ workerId queues leaseSeconds token skipped,
      c ≠ .claimTask workerId queues leaseSeconds token skipped)
    ∨ ∃ s₁, Writes ok now s s₁ ∧ Claims now s s₁ s' c := by
  cases c with
  | claimTask workerId queues leaseSeconds token skipped =>
    right
    obtain ⟨⟨s₁, result⟩, hcall, rfl⟩ := map_eq_ok.mp h
    obtain ⟨s₂, hrecover, ⟨rfl, hs⟩ | ⟨t, hget, hclaimable, rfl, hs⟩⟩ := claimTask_ok hcall
    · exact ⟨s₂, recoverExpiredTasks_writes hrecover, .none _ _ _ _ _ hcall hs⟩
    · exact ⟨s₂, recoverExpiredTasks_writes hrecover,
        .some _ _ _ _ _ t hcall hget hclaimable hs⟩
  | enqueueTask | heartbeatTask | completeTask | failTask | cancelTask | retryTask
  | deadLetterTask =>
    exact .inl ⟨call_writes hok h (by simp), by simp⟩

/-! ## Rows over writes -/

/-- What a write may have done to a row. -/
def RowStep (now : Instant) (t t' : AutomationTaskRecord) : Prop :=
  t' = t ∨ TaskMove now t t' ∨ TaskWait now t t'

theorem RowStep.id_eq {t t' : AutomationTaskRecord} (h : RowStep now t t') : t'.id = t.id := by
  rcases h with rfl | h | h
  · rfl
  · exact h.id_eq
  · exact h.id_eq

/-- A row lives on over a write. -/
theorem Write.get?_old (h : Write ok now s s') {k : Uuid} {t : AutomationTaskRecord}
    (ht : s.tasks.get? k = some t) : ∃ t', s'.tasks.get? k = some t' ∧ RowStep now t t' := by
  have hput {t₁ t₁' : AutomationTaskRecord} (ht₁ : s.tasks.get? t₁.id = some t₁)
      (hid : t₁'.id = t₁.id) (hstep : RowStep now t₁ t₁') :
      ∃ t', (s.tasks.put t₁').get? k = some t' ∧ RowStep now t t' := by
    by_cases hk : t₁'.id = k
    · have hsame : t₁ = t := by
        rw [← hid, hk, ht] at ht₁
        exact (Option.some.inj ht₁).symm
      subst hsame
      exact ⟨t₁', Table.get?_put_self ht hk, hstep⟩
    · rw [Table.get?_put_of_ne hk]
      exact ⟨t, ht, .inl rfl⟩
  cases h with
  | move ht₁ hmove => exact hput ht₁ hmove.id_eq (.inr (.inl hmove))
  | wait ht₁ hwait hnew => exact hput ht₁ hwait.id_eq (.inr (.inr hwait))
  | insert payload fingerprint source hok hnew =>
    exact ⟨t, get?_addTask ht, .inl rfl⟩

/-- A row after a write is one from before, or new. -/
theorem Write.mem_new (h : Write ok now s s') {t' : AutomationTaskRecord}
    (ht' : t' ∈ s'.tasks.rows) :
    (∃ t ∈ s.tasks.rows, RowStep now t t')
    ∨ ∃ payload fingerprint source, ok payload
      ∧ t' = enqueuedTask payload fingerprint source now s.tasks.next := by
  cases h with
  | move ht hmove =>
    rcases Table.mem_put ht' with rfl | ⟨hold, -⟩
    · exact .inl ⟨_, Table.mem_of_get? ht, .inr (.inl hmove)⟩
    · exact .inl ⟨t', hold, .inl rfl⟩
  | wait ht hwait hnew =>
    rcases Table.mem_put ht' with rfl | ⟨hold, -⟩
    · exact .inl ⟨_, Table.mem_of_get? ht, .inr (.inr hwait)⟩
    · exact .inl ⟨t', hold, .inl rfl⟩
  | insert payload fingerprint source hok hnew =>
    rcases mem_addTask ht' with hold | rfl
    · exact .inl ⟨t', hold, .inl rfl⟩
    · exact .inr ⟨payload, fingerprint, source, hok, rfl⟩

/-- What no write undoes for a row holds at the end of all of them. -/
theorem Writes.get?_rel {R : AutomationTaskRecord → AutomationTaskRecord → Prop}
    (refl : ∀ t, R t t) (trans : ∀ {a b c}, R a b → R b c → R a c)
    (hstep : ∀ t t', RowStep now t t' → R t t') (h : Writes ok now s s') {k : Uuid}
    {t : AutomationTaskRecord} (ht : s.tasks.get? k = some t) :
    ∃ t', s'.tasks.get? k = some t' ∧ R t t' := by
  induction h with
  | refl => exact ⟨t, ht, refl t⟩
  | tail _ hwrite ih =>
    obtain ⟨t₁, ht₁, hR₁⟩ := ih
    obtain ⟨t₂, ht₂, hrow⟩ := hwrite.get?_old ht₁
    exact ⟨t₂, ht₂, trans hR₁ (hstep t₁ t₂ hrow)⟩

/-- What every write keeps true of every row holds of all rows at the end. -/
theorem Writes.forall_rows {P : AutomationTaskRecord → Prop}
    (hstep : ∀ t t', P t → RowStep now t t' → P t')
    (hnew : ∀ payload fingerprint source id, ok payload →
      P (enqueuedTask payload fingerprint source now id))
    (h : Writes ok now s s') (hs : ∀ t ∈ s.tasks.rows, P t) : ∀ t ∈ s'.tasks.rows, P t := by
  induction h with
  | refl => exact hs
  | tail _ hwrite ih =>
    intro t' ht'
    rcases hwrite.mem_new ht' with ⟨t, ht, hrow⟩ | ⟨payload, fingerprint, source, hok, rfl⟩
    · exact hstep t t' (ih t ht) hrow
    · exact hnew payload fingerprint source _ hok

end TaskStore

end QaPlatform.Runtime
