import Mathlib.Tactic.NormNum
import Mathlib.Tactic.Positivity
import QaPlatform.Automation.Tasks

/-!
# What the in-memory queue writes

Every method of the in-memory queue writes at most one row after its recovery of
expired leases, which writes one row for each. With the jitter at its midpoint no
delay raises and the delays are whole seconds.
-/

namespace QaPlatform.Automation

/-! ## Delays -/

theorem timedelta_natCast (n : Nat) : timedelta (n : ℚ) = seconds n := by
  have hexact : (n : ℚ) * 1000000 = ((n * 1000000 : ℕ) : ℚ) := by
    push_cast
    rfl
  have hfloor : ((n : ℚ) * 1000000).floor = (n * 1000000 : ℕ) := by
    rw [hexact]
    exact_mod_cast Rat.floor_intCast (n * 1000000 : ℕ)
  unfold timedelta seconds
  dsimp only
  rw [hfloor, hexact]
  simp

/-- In the middle of its range the jitter is nothing. -/
theorem RetryPolicy.delay_midpoint {attempts : Nat} (h : 1 ≤ attempts) :
    RetryPolicy.delay {} attempts (1 / 2) = .ok (min 300 (2 ^ (attempts - 1)) : ℕ) := by
  have hvalid : ¬ (attempts < 1 ∨ ¬ ((0 : ℚ) ≤ 1 / 2 ∧ (1 : ℚ) / 2 ≤ 1)) := by
    refine not_or.mpr ⟨by omega, not_not.mpr ⟨by norm_num, by norm_num⟩⟩
  have hjitter : (2 : ℚ) * (1 / 2) - 1 = 0 := by norm_num
  unfold RetryPolicy.delay
  refine refuse_bind_eq_ok.mpr ⟨hvalid, pure_eq_ok.mpr ?_⟩
  dsimp only
  rw [hjitter]
  push_cast
  rw [mul_zero, add_zero, one_mul]
  exact max_eq_right (by positivity)

/-- A queue whose jitter is fixed at its midpoint. -/
def midpoint (isoformat : Instant → String) (uuid : Uuid → String) : QueueSetup where
  entropy _ := 1 / 2
  isoformat := isoformat
  uuid := uuid

/-! ## Rows -/

namespace AutomationTask

/-- The row of a claim. -/
def claimed (t : AutomationTask) (workerId token : String) (leaseSeconds : Int) (now : Instant) :
    AutomationTask :=
  { t with
    status := .running
    attempts := t.attempts + 1
    leaseOwner := some workerId
    leaseTokenHash := some (tokenHash token)
    leaseExpiresAt := some (now + seconds leaseSeconds)
    heartbeatAt := some now
    startedAt := t.startedAt.or (some now) }

/-- The row once its work is over. -/
def ended (t : AutomationTask) (status : TaskStatus) (errorCode : Option String)
    (result : Option Json) (now : Instant) : AutomationTask :=
  { t.clearLease with status, errorCode, result, finishedAt := some now }

/-- The row that waits for its next attempt. -/
def delayed (t : AutomationTask) (errorCode : String) (now : Instant) : AutomationTask :=
  { t.clearLease with
    status := .retryWait
    errorCode := some errorCode
    availableAt := now + seconds (min 300 (2 ^ (t.attempts - 1)) : ℕ) }

/-- `_require_valid_lease` lets the worker through. -/
def LeasedBy (t : AutomationTask) (workerId leaseToken : String) (now : Instant) : Prop :=
  t.status = .running ∧ t.leaseOwner = some workerId
    ∧ t.leaseTokenHash = some (tokenHash leaseToken) ∧ t.leaseExpiresAt.any (now < ·)

/-- The lease has run out and the task is there to be recovered. -/
def Expired (t : AutomationTask) (now : Instant) : Prop :=
  t.status = .running ∧ t.leaseExpiresAt.any (· ≤ now)

instance (now : Instant) : DecidablePred (Expired · now) := fun t => by
  unfold Expired
  infer_instance

/-- The row after its lease has expired. -/
def recovered (t : AutomationTask) (now : Instant) : AutomationTask :=
  if t.cancelRequested then t.ended .cancelled (some "lease_expired") t.result now
  else if t.attempts < t.maxAttempts then t.delayed "lease_expired" now
  else t.ended .deadLetter (some "lease_expired") t.result now

@[simp] theorem recovered_id (t : AutomationTask) (now : Instant) :
    (t.recovered now).id = t.id := by
  unfold recovered
  split
  · rfl
  · split
    · rfl
    · rfl

end AutomationTask

namespace InMemoryTaskQueue

/-- A method has written the row of one task and returns it. -/
structure Wrote (q : InMemoryTaskQueue) (t : AutomationTask)
    (x : InMemoryTaskQueue × Except ManagerError AutomationTask) : Prop where
  tasks : x.1.tasks = q.tasks.put t
  idempotency : x.1.idempotency = q.idempotency
  result : x.2 = .ok t

variable {q : InMemoryTaskQueue} {t : AutomationTask} {now : Instant}
  {isoformat : Instant → String} {uuid : Uuid → String}

theorem requireValidLease_eq_ok {taskId : Uuid} {workerId leaseToken : String} :
    q.requireValidLease taskId workerId leaseToken now = .ok t ↔
      q.tasks.get? taskId = some t ∧ t.LeasedBy workerId leaseToken now := by
  unfold requireValidLease require AutomationTask.LeasedBy
  rw [bind_eq_ok]
  simp only [demand_eq_ok, refuse_bind_eq_ok, pure_eq_ok]
  constructor
  · rintro ⟨task, hget, hlease, rfl⟩
    refine ⟨hget, ?_⟩
    cases hexpiry : task.leaseExpiresAt with
    | none => simp [hexpiry] at hlease
    | some expiry => simpa [hexpiry] using hlease
  · rintro ⟨hget, hlease⟩
    refine ⟨t, hget, ?_, rfl⟩
    cases hexpiry : t.leaseExpiresAt with
    | none => simp [hexpiry] at hlease
    | some expiry => simpa [hexpiry] using hlease

theorem finish_wrote (q : InMemoryTaskQueue) (t : AutomationTask) (status : TaskStatus)
    (now : Instant) :
    Wrote q (t.ended status t.errorCode t.result now) (q.finish t status now) :=
  ⟨rfl, rfl, rfl⟩

theorem retryLater_wrote {errorCode : String} (hattempts : 1 ≤ t.attempts)
    (hcode : t.errorCode = some errorCode) :
    Wrote q (t.delayed errorCode now) (q.retryLater (midpoint isoformat uuid) t now) := by
  have hdelay : ((q.write { t with status := .retryWait }).delay (midpoint isoformat uuid)
      t.attempts).2 = .ok ((min 300 (2 ^ (t.attempts - 1)) : ℕ) : ℚ) :=
    RetryPolicy.delay_midpoint hattempts
  have hrow : { t.clearLease with
        status := .retryWait
        availableAt := now + timedelta ((min 300 (2 ^ (t.attempts - 1)) : ℕ) : ℚ) }
      = t.delayed errorCode now := by
    rw [timedelta_natCast]
    unfold AutomationTask.delayed
    rw [← hcode]
    rfl
  unfold retryLater
  dsimp only
  rw [andThen_ok hdelay]
  constructor
  · show (q.tasks.put _).put _ = _
    rw [Table.put_put q.tasks (by rfl)]
    exact congrArg q.tasks.put hrow
  · rfl
  · exact congrArg Except.ok hrow

theorem recoverTask_wrote (hattempts : 1 ≤ t.attempts) :
    Wrote q (t.recovered now) (recoverTask (midpoint isoformat uuid) now q t) := by
  unfold recoverTask AutomationTask.recovered
  dsimp only
  split
  · exact finish_wrote q { t with errorCode := some "lease_expired" } .cancelled now
  · split
    · exact @retryLater_wrote q { t with errorCode := some "lease_expired" } now isoformat uuid
        "lease_expired" hattempts rfl
    · exact finish_wrote q { t with errorCode := some "lease_expired" } .deadLetter now

/-- The rows of a list are recovered one by one; nothing raises. -/
theorem inTurn_recoverTask {l : List AutomationTask} (hattempts : ∀ t ∈ l, 1 ≤ t.attempts)
    (q : InMemoryTaskQueue) :
    let x := inTurn (recoverTask (midpoint isoformat uuid) now) q l
    x.1.tasks = q.tasks.putAll (·.recovered now) l ∧ x.1.idempotency = q.idempotency
      ∧ ∃ changed, x.2 = .ok changed := by
  induction l generalizing q with
  | nil => exact ⟨rfl, rfl, [], rfl⟩
  | cons t l ih =>
    have hone := @recoverTask_wrote q t now isoformat uuid (hattempts t List.mem_cons_self)
    obtain ⟨htasks, hidempotency, changed, hresult⟩ :=
      ih (fun t ht => hattempts t (List.mem_cons_of_mem _ ht))
        (recoverTask (midpoint isoformat uuid) now q t).1
    dsimp only
    rw [inTurn_cons_state hone.result]
    refine ⟨?_, ?_, t.recovered now :: changed, ?_⟩
    · rw [htasks, hone.tasks]
      rfl
    · rw [hidempotency, hone.idempotency]
    · unfold inTurn
      rw [andThen_ok hone.result, andThen_ok hresult]

/-- Every task whose lease has expired is recovered, and no other one is touched. -/
theorem recoverExpiredLocked_get? (hattempts : ∀ t ∈ q.tasks.rows, t.status = .running →
      1 ≤ t.attempts) :
    let x := q.recoverExpiredLocked (midpoint isoformat uuid) now
    (∀ k, x.1.tasks.get? k
        = (q.tasks.get? k).map fun t => if t.Expired now then t.recovered now else t)
      ∧ x.1.tasks.next = q.tasks.next ∧ x.1.idempotency = q.idempotency
      ∧ ∃ changed, x.2 = .ok changed := by
  have hrunning : ∀ t ∈ q.tasks.rows.filter fun t => t.Expired now, 1 ≤ t.attempts := by
    intro t ht
    obtain ⟨hmem, hexpired⟩ := List.mem_filter.mp ht
    exact hattempts t hmem (of_decide_eq_true hexpired).1
  obtain ⟨htasks, hidempotency, hresult⟩ :=
    @inTurn_recoverTask now isoformat uuid _ hrunning q
  refine ⟨fun k => ?_, ?_, hidempotency, hresult⟩
  · show (inTurn _ q (q.tasks.rows.filter fun t => t.Expired now)).1.tasks.get? k = _
    rw [htasks]
    exact Table.get?_putAll_filter (fun t => t.recovered_id now) (List.Perm.refl _) k
  · show (inTurn _ q (q.tasks.rows.filter fun t => t.Expired now)).1.tasks.next = _
    rw [htasks, Table.next_putAll]

end InMemoryTaskQueue

end QaPlatform.Automation
