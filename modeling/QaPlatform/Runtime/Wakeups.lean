import QaPlatform.Runtime.SchedulerSystem

/-!
# The wake-up outbox and its dispatchers

The dispatcher half of the outbox (`_claim_task_wakeup`, `_settle_task_wakeup` and
their statements). A dispatcher claims a row, publishes outside SQL, and settles
with a compare-and-set on token, version and lease. `WakeupSystem` puts any number
of dispatchers beside everything that schedulers and users do to the queue.
-/

namespace QaPlatform.Runtime

@[simp] theorem AutomationTaskWakeupOutboxRecord.key_eq (r : AutomationTaskWakeupOutboxRecord) :
    key r = r.id := rfl

/-- `_ClaimedTaskWakeup`. -/
structure ClaimedTaskWakeup where
  outboxId : Uuid
  dispatcherId : String
  leaseToken : String
  expectedVersion : Nat
  publishAttempts : Nat

/-- `_validate_task_wakeup_dispatcher`. -/
def validateTaskWakeupDispatcher (dispatcherId : String) (leaseSeconds : Int) :
    Except DomainError Unit := do
  refuse (strip dispatcherId = "" ∨ 200 < dispatcherId.length)
    (.businessValidation "outbox dispatcher_id 必须是 1 到 200 个字符的稳定标识")
  refuse (¬ (5 ≤ leaseSeconds ∧ leaseSeconds ≤ 3600))
    (.businessValidation "Outbox 租约必须在 5 到 3600 秒之间")

namespace AutomationTaskWakeupOutboxRecord

/-- `build_task_wakeup_outbox_claim_statement`, without its order. -/
def Due (now : Instant) (r : AutomationTaskWakeupOutboxRecord) : Prop :=
  ((r.status = .pending ∨ r.status = .retryWait) ∧ r.availableAt ≤ now)
    ∨ (r.status = .claimed ∧ r.leaseExpiresAt.any (· ≤ now))

instance (now : Instant) (r : AutomationTaskWakeupOutboxRecord) : Decidable (r.Due now) := by
  unfold Due
  infer_instance

/-- The row that a claim leaves. -/
def claimed (r : AutomationTaskWakeupOutboxRecord) (dispatcherId leaseToken : String)
    (leaseSeconds : Int) (now : Instant) : AutomationTaskWakeupOutboxRecord :=
  { r with
    status := .claimed
    publishAttempts := r.publishAttempts + 1
    leaseOwner := some dispatcherId
    leaseTokenHash := some (tokenHash leaseToken)
    leaseExpiresAt := some (now + seconds leaseSeconds)
    updatedAt := now
    version := r.version + 1 }

/-- `build_task_wakeup_outbox_settle_statement` finds the row. -/
def Settleable (claim : ClaimedTaskWakeup) (cutoff : Instant)
    (r : AutomationTaskWakeupOutboxRecord) : Prop :=
  r.id = claim.outboxId ∧ r.status = .claimed ∧ r.leaseOwner = some claim.dispatcherId
    ∧ r.leaseTokenHash = some (tokenHash claim.leaseToken) ∧ r.version = claim.expectedVersion
    ∧ r.leaseExpiresAt.any (cutoff < ·)

instance (claim : ClaimedTaskWakeup) (cutoff : Instant) (r : AutomationTaskWakeupOutboxRecord) :
    Decidable (r.Settleable claim cutoff) := by
  unfold Settleable
  infer_instance

/-- The row that a settlement leaves. -/
def settled (r : AutomationTaskWakeupOutboxRecord) (published : Bool) (retryAt now : Instant) :
    AutomationTaskWakeupOutboxRecord :=
  { r with
    status := if published then .published else .retryWait
    availableAt := if published then r.availableAt else retryAt
    publishedAt := if published then some now else none
    lastErrorCode := if published then none else some "broker_publish_failed"
    leaseOwner := none
    leaseTokenHash := none
    leaseExpiresAt := none
    updatedAt := now
    version := r.version + 1 }

end AutomationTaskWakeupOutboxRecord

/-- The wait before a wake-up is published again after its `attempts`-th attempt. -/
def republishDelay (attempts : Nat) : Int := seconds (min 60 (2 ^ (attempts - 1)) : Nat)

namespace TaskStore

/-- The row that a dispatcher selects: the earliest that is due and not locked. -/
def claimTaskWakeupOutbox (s : TaskStore) (now : Instant) (skipped : List Uuid) :
    Option AutomationTaskWakeupOutboxRecord :=
  firstBy (fun r => [r.availableAt, r.createdAt, r.id])
    (s.outbox.rows.filter fun r => r.Due now ∧ r.id ∉ skipped)

/-- `_claim_task_wakeup`. -/
def claimTaskWakeup (s : TaskStore) (dispatcherId : String) (leaseSeconds : Int)
    (leaseToken : String) (now : Instant) (skipped : List Uuid) :
    TaskStore × Option ClaimedTaskWakeup :=
  (s.claimTaskWakeupOutbox now skipped).elim (s, none) fun r =>
    let record := r.claimed dispatcherId leaseToken leaseSeconds now
    ({ s with outbox := s.outbox.put record },
      some ⟨record.id, dispatcherId, leaseToken, record.version, record.publishAttempts⟩)

/-- The row that a settlement finds. -/
def settleable (s : TaskStore) (claim : ClaimedTaskWakeup) (cutoff : Instant) :
    Option AutomationTaskWakeupOutboxRecord :=
  (s.outbox.get? claim.outboxId).filter fun r => r.Settleable claim cutoff

/-- `_settle_task_wakeup`. -/
def settleTaskWakeup (s : TaskStore) (claim : ClaimedTaskWakeup) (published : Bool)
    (now cutoff : Instant) : TaskStore × Bool :=
  (s.settleable claim cutoff).elim (s, false) fun r =>
    ({ s with
      outbox := s.outbox.put
        (r.settled published (now + republishDelay claim.publishAttempts) now) }, true)

end TaskStore

/-! ## Runs -/

/-- How far a dispatcher has come with a claim. -/
inductive WakeupProgress where
  | claimed
  /-- `publish_wakeup` has returned, or raised. -/
  | attempted (published : Bool)
  /-- The settlement has found the row, or not. -/
  | settled (found : Bool)
deriving DecidableEq

/-- What `dispatch_task_wakeup_once` settles with, once it has tried to publish. -/
def WakeupProgress.outcome : WakeupProgress → Option Bool
  | .attempted published => some published
  | .claimed | .settled _ => none

/-- A claim of a wake-up, and how far its dispatch has come. -/
structure WakeupDispatch where
  claim : ClaimedTaskWakeup
  claimedAt : Instant
  expiresAt : Instant
  progress : WakeupProgress

/-- A call of `publish_wakeup` for the dispatch `p`. -/
structure WakeupPublish where
  dispatch : Nat
  time : Instant
  published : Bool

/-- The scheduler and its queue, the claims of wake-ups, and what has been published. -/
structure WakeupSystem where
  scheduler : SchedulerSystem
  /-- One entry for each claim of a wake-up, oldest first. -/
  wakeups : List WakeupDispatch
  publishes : List WakeupPublish

/-- What happens: something at the scheduler or the queue, or a part of a dispatch. -/
inductive WakeupEvent where
  | scheduler (e : SchedulerEvent)
  | claim (now : Instant) (dispatcherId : String) (leaseSeconds : Int) (leaseToken : String)
      (skipped : List Uuid)
  | publish (p : Nat) (now : Instant) (published : Bool)
  | settle (p : Nat) (now cutoff : Instant)

namespace WakeupSystem

/-- Nothing is stored, and nothing has been claimed. -/
def empty : WakeupSystem := ⟨SchedulerSystem.empty, [], []⟩

/-- The tables of tasks and wake-ups. -/
def queue (s : WakeupSystem) : TaskStore := s.scheduler.store.queue

/-- The outbox is rewritten. -/
def withQueue (s : WakeupSystem) (queue : TaskStore) : WakeupSystem :=
  { s with scheduler := { s.scheduler with store := { s.scheduler.store with queue } } }

/-- The claim of a dispatcher, and the dispatch of what it claims. -/
def claimDispatch (s : WakeupSystem) (now : Instant) (dispatcherId : String) (leaseSeconds : Int)
    (leaseToken : String) (skipped : List Uuid) : WakeupSystem :=
  let claimed := s.queue.claimTaskWakeup dispatcherId leaseSeconds leaseToken now skipped
  claimed.2.elim s fun claim =>
    { s.withQueue claimed.1 with
      wakeups := s.wakeups ++ [⟨claim, now, now + seconds leaseSeconds, .claimed⟩] }

/-- The progress of a dispatch is set. -/
def advance (s : WakeupSystem) (p : Nat) (d : WakeupDispatch) (progress : WakeupProgress) :
    WakeupSystem :=
  { s with wakeups := s.wakeups.set p { d with progress } }

/-- The broker is told; whether it has been heard is in the event. -/
def publishDispatch (s : WakeupSystem) (p : Nat) (d : WakeupDispatch) (now : Instant)
    (published : Bool) : WakeupSystem :=
  if d.progress = .claimed then
    { s.advance p d (.attempted published) with
      publishes := s.publishes ++ [⟨p, now, published⟩] }
  else s

/-- The claim is settled, unless it has run out or has been taken. -/
def settleDispatch (s : WakeupSystem) (p : Nat) (d : WakeupDispatch) (now cutoff : Instant) :
    WakeupSystem :=
  d.progress.outcome.elim s fun published =>
    let settled := s.queue.settleTaskWakeup d.claim published now cutoff
    (s.withQueue settled.1).advance p d (.settled settled.2)

/-- One event; a part that is not due changes nothing. -/
def step (setup : Setup) (s : WakeupSystem) : WakeupEvent → WakeupSystem
  | .scheduler e => { s with scheduler := s.scheduler.step setup e }
  | .claim now dispatcherId leaseSeconds leaseToken skipped =>
    (validateTaskWakeupDispatcher dispatcherId leaseSeconds).toOption.elim s fun _ =>
      s.claimDispatch now dispatcherId leaseSeconds leaseToken skipped
  | .publish p now published =>
    (s.wakeups[p]?).elim s fun d => s.publishDispatch p d now published
  | .settle p now cutoff => (s.wakeups[p]?).elim s fun d => s.settleDispatch p d now cutoff

end WakeupSystem

end QaPlatform.Runtime
