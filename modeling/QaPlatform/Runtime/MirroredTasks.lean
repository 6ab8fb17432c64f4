import QaPlatform.Automation.TaskSteps
import QaPlatform.Base.Pairing
import QaPlatform.Runtime.WakeupCoverage

/-!
# One task in two queues

The row that the in-memory queue has of a task and the row that the persistent queue
has of it: they differ in the error of an earlier attempt, which a claim of the
persistent queue clears. `Mirrors` is the simulation relation of single rows, with
what it takes to keep it; `MirrorsQueue` the one of the queues.
-/

namespace QaPlatform.Runtime

open Automation (AutomationTask InMemoryTaskQueue TaskStatus ManagerError)

/-! ## Rows -/

/-- The row in the columns of the database, with another error code. -/
def asRecord (t : AutomationTask) (errorCode : Option String) : AutomationTaskRecord where
  id := t.id
  taskType := t.taskType
  payload := t.payload
  queue := t.queue
  priority := t.priority
  status := t.status
  idempotencyKey := t.idempotencyKey
  requestFingerprint := t.requestFingerprint
  sourceScheduleId := t.sourceScheduleId
  attempts := t.attempts
  maxAttempts := t.maxAttempts
  availableAt := t.availableAt
  leaseOwner := t.leaseOwner
  leaseTokenHash := t.leaseTokenHash
  leaseExpiresAt := t.leaseExpiresAt
  heartbeatAt := t.heartbeatAt
  cancelRequested := t.cancelRequested
  result := t.result
  errorCode := errorCode
  createdAt := t.createdAt
  startedAt := t.startedAt
  finishedAt := t.finishedAt

/-- A worker has taken the task again after an earlier attempt, and no attempt has
failed since. -/
def Reclaimed (t : AutomationTask) : Prop :=
  2 ≤ t.attempts ∧ (t.status = .running ∨ t.status = .succeeded ∨ t.status = .cancelled)

/-- What the in-memory queue keeps true of its rows. -/
structure Regular (t : AutomationTask) : Prop where
  waiting : t.status = .queued ∨ t.status = .retryWait → t.attempts < t.maxAttempts
  running : t.status = .running → 1 ≤ t.attempts
  /-- A task that is not over has no result. -/
  going : t.status = .queued ∨ t.status = .retryWait ∨ t.status = .running →
    t.result = none ∧ t.finishedAt = none
  fresh : t.attempts = 0 → t.errorCode = none

/-- The two rows of one task. -/
inductive Mirrors (t : AutomationTask) : AutomationTaskRecord → Prop
  | intro (errorCode : Option String) (regular : Regular t)
      (hcode : errorCode = t.errorCode ∨ errorCode = none ∧ Reclaimed t) :
      Mirrors t (asRecord t errorCode)

variable {t : AutomationTask} {r : AutomationTaskRecord} {now : Instant}

theorem Mirrors.id_eq (h : Mirrors t r) : t.id = r.id := by
  cases h with
  | intro => rfl

theorem Mirrors.leasedBy_iff (h : Mirrors t r) {workerId leaseToken : String} :
    t.LeasedBy workerId leaseToken now ↔ r.LeasedBy workerId leaseToken now := by
  cases h with
  | intro => exact Iff.rfl

/-- Of a task that waits both rows say the same. -/
theorem Mirrors.of_waiting (h : Mirrors t r) (hs : t.status = .queued ∨ t.status = .retryWait) :
    r = asRecord t t.errorCode := by
  cases h with
  | intro errorCode regular hcode =>
    rcases hcode with rfl | ⟨-, -, hre⟩
    · rfl
    · rcases hs with hs | hs
      · simp [hs] at hre
      · simp [hs] at hre

/-- A new task. -/
theorem Mirrors.new {t : AutomationTask} (hstatus : t.status = .queued) (hattempts : t.attempts = 0)
    (hmax : 1 ≤ t.maxAttempts) (herror : t.errorCode = none)
    (hgoing : t.result = none ∧ t.finishedAt = none) : Mirrors t (asRecord t t.errorCode) := by
  refine .intro _ ⟨fun _ => by omega, fun hs => ?_, fun _ => hgoing, fun _ => herror⟩ (.inl rfl)
  rw [hstatus] at hs
  nomatch hs

theorem Mirrors.claimed (h : Mirrors t r) (hs : t.status = .queued ∨ t.status = .retryWait)
    (workerId token : String) (leaseSeconds : Int) :
    Mirrors (t.claimed workerId token leaseSeconds now)
      (r.claimed workerId token leaseSeconds now) := by
  obtain rfl := h.of_waiting hs
  cases h with
  | intro _ regular _ =>
    obtain ⟨hresult, hfinished⟩ := regular.going (by tauto)
    have hrow : (asRecord t t.errorCode).claimed workerId token leaseSeconds now
        = asRecord (t.claimed workerId token leaseSeconds now) none := by
      unfold AutomationTaskRecord.claimed AutomationTask.claimed asRecord
      simp only [hresult, hfinished]
    rw [hrow]
    refine .intro none ⟨fun hs => ?_, fun _ => Nat.succ_pos _, fun _ => ⟨hresult, hfinished⟩,
      fun h0 => (nomatch h0)⟩ ?_
    · rcases hs with hs | hs
      · nomatch hs
      · nomatch hs
    · -- the error of the attempt before is cleared in one of the rows only
      by_cases hfirst : t.attempts = 0
      · exact .inl (regular.fresh hfirst).symm
      · refine .inr ⟨rfl, ?_, .inl rfl⟩
        show 2 ≤ t.attempts + 1
        omega

/-- The lease of a running task is moved. -/
theorem Mirrors.extended (h : Mirrors t r) (heartbeatAt leaseExpiresAt : Option Instant) :
    Mirrors { t with heartbeatAt, leaseExpiresAt } { r with heartbeatAt, leaseExpiresAt } := by
  cases h with
  | intro errorCode regular hcode =>
    exact .intro errorCode ⟨regular.waiting, regular.running, regular.going, regular.fresh⟩ hcode

theorem Mirrors.cancelAsked (h : Mirrors t r) :
    Mirrors { t with cancelRequested := true } { r with cancelRequested := true } := by
  cases h with
  | intro errorCode regular hcode =>
    exact .intro errorCode ⟨regular.waiting, regular.running, regular.going, regular.fresh⟩ hcode

/-- Nothing that is over is waiting or running. -/
theorem regular_ended {status : TaskStatus} {errorCode : Option String} {result : Option Json}
    (hstatus : status ≠ .queued ∧ status ≠ .retryWait ∧ status ≠ .running)
    (hfresh : t.attempts = 0 → errorCode = none) :
    Regular (t.ended status errorCode result now) := by
  obtain ⟨hqueued, hretry, hrunning⟩ := hstatus
  refine ⟨fun hs => ?_, fun hs => absurd hs hrunning, fun hs => ?_, hfresh⟩
  · rcases hs with hs | hs
    · exact absurd hs hqueued
    · exact absurd hs hretry
  · rcases hs with hs | hs | hs
    · exact absurd hs hqueued
    · exact absurd hs hretry
    · exact absurd hs hrunning

/-- An attempt ends with an error, and that is the error of the task. -/
theorem Mirrors.failed (h : Mirrors t r) (hrunning : t.status = .running) {status : TaskStatus}
    (hstatus : status ≠ .queued ∧ status ≠ .retryWait ∧ status ≠ .running) (errorCode : String) :
    Mirrors (t.ended status (some errorCode) t.result now)
      (r.ended status (some errorCode) r.result now) := by
  cases h with
  | intro code regular hcode =>
    have hattempts := regular.running hrunning
    exact .intro (some errorCode) (regular_ended hstatus fun h0 => by omega) (.inl rfl)

/-- A worker has done its work: the error of an attempt before stays as it is. -/
theorem Mirrors.completed (h : Mirrors t r) {status : TaskStatus}
    (hstatus : status = .succeeded ∨ status = .cancelled) (result : Option Json) :
    Mirrors (t.ended status t.errorCode result now) (r.ended status r.errorCode result now) := by
  have hover : status ≠ .queued ∧ status ≠ .retryWait ∧ status ≠ .running := by
    rcases hstatus with rfl | rfl
    · simp
    · simp
  cases h with
  | intro code regular hcode =>
    refine .intro code (regular_ended hover regular.fresh) ?_
    rcases hcode with hcode | ⟨hcode, hattempts, -⟩
    · exact .inl hcode
    · exact .inr ⟨hcode, hattempts, .inr hstatus⟩

/-- A task that waits is cancelled. -/
theorem Mirrors.cancelled (h : Mirrors t r) (hs : t.status = .queued ∨ t.status = .retryWait) :
    Mirrors { t.ended .cancelled t.errorCode t.result now with cancelRequested := true }
      { r.ended .cancelled r.errorCode r.result now with cancelRequested := true } := by
  obtain rfl := h.of_waiting hs
  cases h with
  | intro _ regular _ =>
    have hended : Regular (t.ended .cancelled t.errorCode t.result now) :=
      regular_ended (by simp) regular.fresh
    exact .intro _ ⟨hended.waiting, hended.running, hended.going, hended.fresh⟩ (.inl rfl)

/-- A task goes back to wait. -/
theorem Mirrors.delayed (h : Mirrors t r) (hrunning : t.status = .running)
    (hattempts : t.attempts < t.maxAttempts) (errorCode : String) :
    Mirrors (t.delayed errorCode now) (r.delayed errorCode now) := by
  cases h with
  | intro code regular hcode =>
    have hpositive := regular.running hrunning
    refine .intro (some errorCode) ⟨fun _ => hattempts, fun hs => (nomatch hs), fun _ => ?_,
      fun h0 => ?_⟩ (.inl rfl)
    · exact regular.going (.inr (.inr hrunning))
    · have hzero : t.attempts = 0 := h0
      omega

/-! ## Recovery -/

instance (now : Instant) : DecidablePred (AutomationTaskRecord.Expired · now) := fun r => by
  unfold AutomationTaskRecord.Expired
  infer_instance

/-- The row after its lease has expired. -/
def AutomationTaskRecord.recovered (t : AutomationTaskRecord) (now : Instant) :
    AutomationTaskRecord :=
  if t.cancelRequested then t.ended .cancelled (some "lease_expired") t.result now
  else if t.attempts < t.maxAttempts then t.delayed "lease_expired" now
  else t.ended .deadLetter (some "lease_expired") t.result now

@[simp] theorem AutomationTaskRecord.recovered_id (t : AutomationTaskRecord) (now : Instant) :
    (t.recovered now).id = t.id := by
  unfold recovered
  split
  · rfl
  · split
    · rfl
    · rfl

theorem Mirrors.expired_iff (h : Mirrors t r) : t.Expired now ↔ r.Expired now := by
  cases h with
  | intro => exact Iff.rfl

theorem Mirrors.recovered (h : Mirrors t r) (hexpired : t.Expired now) :
    Mirrors (t.recovered now) (r.recovered now) := by
  have hcancel : t.cancelRequested = r.cancelRequested := by cases h; rfl
  have hattempts : t.attempts = r.attempts := by cases h; rfl
  have hmax : t.maxAttempts = r.maxAttempts := by cases h; rfl
  unfold AutomationTask.recovered AutomationTaskRecord.recovered
  rw [← hcancel, ← hattempts, ← hmax]
  by_cases hc : t.cancelRequested
  · rw [if_pos hc, if_pos hc]
    exact h.failed hexpired.1 (by simp) "lease_expired"
  · rw [if_neg hc, if_neg hc]
    by_cases hagain : t.attempts < t.maxAttempts
    · rw [if_pos hagain, if_pos hagain]
      exact h.delayed hexpired.1 hagain "lease_expired"
    · rw [if_neg hagain, if_neg hagain]
      exact h.failed hexpired.1 (by simp) "lease_expired"

namespace TaskStore

variable {s s' : TaskStore}

theorem recoverExpiredTask_tasks {r : AutomationTaskRecord}
    (h : recoverExpiredTask now s r = .ok s') : s'.tasks = s.tasks.put (r.recovered now) := by
  unfold recoverExpiredTask at h
  unfold AutomationTaskRecord.recovered
  dsimp only at h
  split at h
  · next hcancel =>
    obtain rfl := pure_eq_ok.mp h
    rw [if_pos hcancel]
    rfl
  · next hcancel =>
    rw [if_neg hcancel]
    split at h
    · next hattempts =>
      obtain ⟨s₁, hadd, hput⟩ := bind_eq_ok.mp h
      obtain ⟨-, rfl⟩ := addTaskWakeupOutbox_eq_ok.mp hadd
      obtain rfl := pure_eq_ok.mp hput
      rw [if_pos hattempts]
      rfl
    · next hattempts =>
      obtain rfl := pure_eq_ok.mp h
      rw [if_neg hattempts]
      rfl

theorem foldlM_recoverExpiredTask_tasks {records : List AutomationTaskRecord}
    (h : records.foldlM (recoverExpiredTask now) s = .ok s') :
    s'.tasks = s.tasks.putAll (·.recovered now) records := by
  induction records generalizing s with
  | nil =>
    obtain rfl := pure_eq_ok.mp h
    rfl
  | cons r records ih =>
    rw [List.foldlM_cons] at h
    obtain ⟨s₁, hone, hrest⟩ := bind_eq_ok.mp h
    rw [ih hrest, recoverExpiredTask_tasks hone]
    rfl

/-- Every task whose lease has expired is recovered, and no other one is touched. -/
theorem recoverExpiredTasks_get? (h : s.recoverExpiredTasks now [] = .ok s') :
    (∀ k, s'.tasks.get? k
        = (s.tasks.get? k).map fun r => if r.Expired now then r.recovered now else r)
      ∧ s'.tasks.next = s.tasks.next := by
  have htasks := foldlM_recoverExpiredTask_tasks h
  have hfound : (s.tasks.rows.filter fun r => r.status = .running ∧ r.leaseExpiresAt.any (· ≤ now)
        ∧ r.id ∉ ([] : List Uuid))
      = s.tasks.rows.filter fun r => r.Expired now := by
    refine List.filter_congr fun r _ => ?_
    rw [decide_eq_decide]
    simp [AutomationTaskRecord.Expired]
  have hperm : (s.lockExpiredTaskLeases now []).Perm
      (s.tasks.rows.filter fun r => r.Expired now) := by
    rw [← hfound]
    exact List.mergeSort_perm _ _
  refine ⟨fun k => ?_, ?_⟩
  · rw [htasks]
    exact Table.get?_putAll_filter (fun r => r.recovered_id now) hperm k
  · rw [htasks, Table.next_putAll]

end TaskStore

/-! ## Queues -/

/-- What a task was asked for as. -/
def SameRequest (t t' : AutomationTask) : Prop :=
  t'.id = t.id ∧ t'.taskType = t.taskType ∧ t'.idempotencyKey = t.idempotencyKey
    ∧ t'.requestFingerprint = t.requestFingerprint

/-- The two queues hold the same tasks and the same idempotency keys. -/
structure MirrorsQueue (q : InMemoryTaskQueue) (s : TaskStore) : Prop where
  tasks : Table.Paired Mirrors q.tasks s.tasks
  /-- The dictionary of idempotency keys names tasks that have the key. -/
  bound : ∀ taskType k id fingerprint,
    q.idempotency.lookup (taskType, k) = some (id, fingerprint) →
      ∃ t, q.tasks.get? id = some t ∧ t.taskType = taskType ∧ t.idempotencyKey = some k
        ∧ t.requestFingerprint = fingerprint
  /-- It names all of them. -/
  kept : ∀ t ∈ q.tasks.rows, ∀ k, t.idempotencyKey = some k →
    q.idempotency.lookup (t.taskType, k) = some (t.id, t.requestFingerprint)
  covered : s.Covered

theorem mirrorsQueue_init : MirrorsQueue .init ⟨.empty, .empty⟩ where
  tasks := Table.paired_empty
  bound _ _ _ _ h := by nomatch h
  kept _ h := by nomatch h
  covered := TaskStore.empty_covered

variable {q q' : InMemoryTaskQueue} {s s' : TaskStore}

theorem MirrorsQueue.mirrors (h : MirrorsQueue q s) (ht : t ∈ q.tasks.rows) : ∃ r, Mirrors t r := by
  obtain ⟨r, -, -, hrow⟩ := h.tasks.mem_partner ht
  exact ⟨r, hrow⟩

theorem MirrorsQueue.regular (h : MirrorsQueue q s) (ht : t ∈ q.tasks.rows) : Regular t := by
  obtain ⟨r, hrow⟩ := h.mirrors ht
  cases hrow with
  | intro _ regular _ => exact regular

/-- Rows that are rewritten as the tasks they were asked for as. -/
theorem MirrorsQueue.rewrite (h : MirrorsQueue q s) {f : AutomationTask → AutomationTask}
    (hrows : ∀ k, q'.tasks.get? k = (q.tasks.get? k).map f)
    (hf : ∀ t ∈ q.tasks.rows, SameRequest t (f t)) (hidempotency : q'.idempotency = q.idempotency)
    (htasks : Table.Paired Mirrors q'.tasks s'.tasks) (hcovered : s'.Covered) :
    MirrorsQueue q' s' where
  tasks := htasks
  bound taskType k id fingerprint hlookup := by
    rw [hidempotency] at hlookup
    obtain ⟨t, ht, htype, hkey, hfingerprint⟩ := h.bound taskType k id fingerprint hlookup
    obtain ⟨-, htype', hkey', hfingerprint'⟩ := hf t (Table.mem_of_get? ht)
    refine ⟨f t, ?_, htype'.trans htype, hkey'.trans hkey, hfingerprint'.trans hfingerprint⟩
    rw [hrows, ht]
    rfl
  kept t' ht' k hk := by
    have hget := Table.get?_key ht'
    rw [hrows] at hget
    obtain ⟨t, ht, rfl⟩ := Option.map_eq_some_iff.mp hget
    have hmem := Table.mem_of_get? ht
    obtain ⟨hid, htype, hkey, hfingerprint⟩ := hf t hmem
    rw [hidempotency, htype, hid, hfingerprint]
    exact h.kept t hmem k (hkey ▸ hk)
  covered := hcovered

/-- Both queues have written the row of one task. -/
theorem MirrorsQueue.wrote (h : MirrorsQueue q s) {t' : AutomationTask} {r' : AutomationTaskRecord}
    (ht : q.tasks.get? t.id = some t) (hrow : Mirrors t' r') (hsame : SameRequest t t')
    (htasks : q'.tasks = q.tasks.put t') (hidempotency : q'.idempotency = q.idempotency)
    (hput : s'.tasks = s.tasks.put r') (hcovered : s'.Covered) : MirrorsQueue q' s' := by
  have hrows : ∀ k, q'.tasks.get? k
      = (q.tasks.get? k).map fun x => if x.id = t'.id then t' else x := by
    intro k
    rw [htasks, Table.get?_put]
    cases hk : q.tasks.get? k with
    | none => simp
    | some x =>
      have hkey : x.id = k := Table.key_of_get? hk
      by_cases hx : t'.id = k
      · simp [hx, hkey]
      · simp [hkey, hx, Ne.symm hx]
  refine h.rewrite hrows (fun x hx => ?_) hidempotency ?_ hcovered
  · by_cases hid : x.id = t'.id
    · have hget := Table.get?_key hx
      rw [AutomationTask.key_eq, hid, hsame.1, ht] at hget
      obtain rfl := Option.some.inj hget
      rw [if_pos hid]
      exact hsame
    · rw [if_neg hid]
      exact ⟨rfl, rfl, rfl, rfl⟩
  · rw [htasks, hput]
    exact h.tasks.put hrow hrow.id_eq

/-- Both queues have recovered what had expired. -/
theorem MirrorsQueue.recovered (h : MirrorsQueue q s) {isoformat : Instant → String}
    {uuid : Uuid → String} :
    ∃ s', s.recoverExpiredTasks now [] = .ok s'
      ∧ MirrorsQueue (q.recoverExpiredLocked (Automation.midpoint isoformat uuid) now).1 s'
      ∧ ∃ changed,
        (q.recoverExpiredLocked (Automation.midpoint isoformat uuid) now).2 = .ok changed := by
  obtain ⟨s', hs'⟩ := h.covered.recoverExpiredTasks_goesThrough now []
  have hwrites : TaskStore.Writes (fun _ => True) now s s' :=
    TaskStore.recoverExpiredTasks_writes hs'
  obtain ⟨hrows, hnext, hidempotency, hchanged⟩ :=
    @InMemoryTaskQueue.recoverExpiredLocked_get? q now isoformat uuid
      fun t ht hrunning => (h.regular ht).running hrunning
  obtain ⟨hrows', hnext'⟩ := TaskStore.recoverExpiredTasks_get? hs'
  refine ⟨s', hs', h.rewrite hrows (fun t ht => ?_) hidempotency ?_ ?_, hchanged⟩
  · split
    · unfold AutomationTask.recovered
      split
      · exact ⟨rfl, rfl, rfl, rfl⟩
      · split
        · exact ⟨rfl, rfl, rfl, rfl⟩
        · exact ⟨rfl, rfl, rfl, rfl⟩
    · exact ⟨rfl, rfl, rfl, rfl⟩
  · refine h.tasks.map hnext hnext' hrows hrows' fun t r hrow => ?_
    by_cases hexpired : t.Expired now
    · rw [if_pos hexpired, if_pos (hrow.expired_iff.mp hexpired)]
      exact hrow.recovered hexpired
    · rw [if_neg hexpired, if_neg fun hr => hexpired (hrow.expired_iff.mpr hr)]
      exact hrow
  · exact h.covered.queueSteps hwrites.queueSteps

end QaPlatform.Runtime
