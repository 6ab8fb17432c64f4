import QaPlatform.Base.RowLocks
import QaPlatform.Runtime.Schedules
import QaPlatform.Runtime.TaskSteps

/-!
# Replacing tasks while workers claim them, statement by statement

The rows of the task queue as PostgreSQL sees them under READ COMMITTED. The methods
of workers read a task FOR UPDATE before they write it, so what they decide is
decided about the row they write. T2 of a schedule whose overlap policy is `replace`
reads the schedule's active tasks without locks and decides for each which columns to
change; the UPDATE comes later, by primary key, and finds the row as it is by then.
Every transaction keeps the locks of the rows it has locked or written until it ends,
and what it writes shows when it commits. The wake-ups that these transactions insert
are left out: nobody competes for them.
-/

namespace QaPlatform.Runtime

open Automation (TaskStatus)

/-- A database session. -/
inductive QueueTx where
  | worker (id : Uuid)
  | finalisation (id : Uuid)
deriving DecidableEq

/-- The lease that a worker was told it has. -/
structure Holder where
  workerId : String
  token : String
  expiresAt : Instant

/-- What a write does to the lease of the task's worker. -/
inductive LeaseEffect where
  | granted (holder : Holder)
  | extended (expiresAt : Instant)
  | ended

/-- Who holds a task after a statement, given who held it before. -/
def LeaseEffect.holder (old : Option Holder) : LeaseEffect → Option Holder
  | .granted holder => some holder
  | .extended expiresAt => old.map ({ · with expiresAt })
  | .ended => none

/-- A row that is locked and will be written. -/
structure LockedWrite where
  row : AutomationTaskRecord
  effect : LeaseEffect

/-- The transaction of a worker's method. -/
structure WorkerSession where
  id : Uuid
  now : Instant
  /-- A `claim_task` that has recovered what had expired and has no candidate yet. -/
  claiming : Bool
  writes : List LockedWrite

/-- The request of a task that T2 puts in the place of others. -/
structure Replacement where
  payload : TaskEnqueue
  fingerprint : Digest Json
  /-- A later round of the same T2 has replaced it too. -/
  cancelled : Bool

/-- A T2 whose policy is `replace`. -/
structure FinalisationSession where
  id : Uuid
  scheduleId : Uuid
  now : Instant
  /-- The tasks in the identity map, as they were first read. -/
  loaded : List AutomationTaskRecord
  /-- The tasks whose UPDATE has been made. -/
  updated : List Uuid
  inserted : List Replacement

instance : Keyed WorkerSession := ⟨WorkerSession.id⟩
instance : Keyed FinalisationSession := ⟨FinalisationSession.id⟩

@[simp] theorem WorkerSession.key_eq (w : WorkerSession) : key w = w.id := rfl
@[simp] theorem FinalisationSession.key_eq (f : FinalisationSession) : key f = f.id := rfl

/-- The committed rows, their locks and everybody at work on them. -/
structure QueueRace where
  tasks : Table AutomationTaskRecord
  locks : RowLocks Uuid QueueTx
  workers : Table WorkerSession
  finalisations : Table FinalisationSession
  /-- For each task, the worker that has claimed it and not settled it since. -/
  holders : Uuid → Option Holder

/-- A statement of a worker's call or of T2, or a call that is one transaction. -/
inductive RaceStatement where
  | enqueue (payload : TaskEnqueue) (fingerprint : Digest Json) (source : Option Uuid)
      (now : Instant)
  /-- The first half of `claim_task`, `_recover_expired_tasks`. -/
  | recover (now : Instant)
  /-- The second half, the candidate. -/
  | claim (id : Uuid) (workerId : String) (queues : List String) (leaseSeconds : Int)
      (token : String)
  /-- A heartbeat or a settlement reads its task FOR UPDATE. -/
  | lease (call : TaskStore.Call) (now : Instant)
  | commit (id : Uuid)
  | rollback (id : Uuid)
  /-- T2 has set the schedule's row. -/
  | finalise (scheduleId : Uuid) (now : Instant)
  | readActive (id : Uuid)
  | update (id taskId : Uuid)
  | insert (id : Uuid) (payload : TaskEnqueue) (fingerprint : Digest Json)
  | commitFinalisation (id : Uuid)
  | rollbackFinalisation (id : Uuid)

/-! ## What T2 decides -/

/-- The columns that the UPDATE of a replaced task sets. -/
structure TaskChanges where
  cancelRequested : Option Bool
  status : Option TaskStatus
  finishedAt : Option Instant

/-- The changes to a task as it was read; a column that keeps its value is not set. -/
def replaceChanges (now : Instant) (read : AutomationTaskRecord) : TaskChanges where
  cancelRequested := if read.cancelRequested then none else some true
  status := if read.status ≠ .running then some .cancelled else none
  finishedAt := if read.status ≠ .running then some now else none

/-- The columns that an UPDATE names are written, the others stay. -/
def TaskChanges.apply (changes : TaskChanges) (t : AutomationTaskRecord) : AutomationTaskRecord :=
  { t with
    cancelRequested := changes.cancelRequested.getD t.cancelRequested
    status := changes.status.getD t.status
    finishedAt := changes.finishedAt.or t.finishedAt }

/-- There is a column to set. -/
def Changed (read : AutomationTaskRecord) : Prop :=
  read.cancelRequested = false ∨ read.status ≠ .running

instance (read : AutomationTaskRecord) : Decidable (Changed read) := by
  unfold Changed
  infer_instance

/-- An UPDATE that finds the row as it was read writes what `replaceTask` writes. -/
theorem replaceTask_eq_apply (now : Instant) (queue : TaskStore) (t : AutomationTaskRecord) :
    (ScheduleStore.replaceTask now queue t).tasks
      = queue.tasks.put ((replaceChanges now t).apply t) := by
  unfold ScheduleStore.replaceTask replaceChanges TaskChanges.apply
  by_cases hrunning : t.status = .running
  · cases t.cancelRequested with
    | false => simp [hrunning]
    | true => simp [hrunning]
  · cases t.cancelRequested with
    | false => simp [hrunning]
    | true => simp [hrunning]

/-- The row of a replacement. -/
def Replacement.row (r : Replacement) (scheduleId : Uuid) (now : Instant) (id : Uuid) :
    AutomationTaskRecord :=
  let row := enqueuedTask r.payload r.fingerprint (some scheduleId) now id
  { row with
    cancelRequested := r.cancelled
    status := if r.cancelled then .cancelled else row.status
    finishedAt := if r.cancelled then some now else none }

@[simp] theorem Replacement.key_row (r : Replacement) (scheduleId : Uuid) (now : Instant)
    (id : Uuid) : key (r.row scheduleId now id) = id := rfl

namespace QueueRace

/-- No task, and nobody at work. -/
def empty : QueueRace := ⟨.empty, .free, .empty, .empty, fun _ => none⟩

/-- The queue around rows; its outbox is not looked at. -/
def queueOf (tasks : Table AutomationTaskRecord) : TaskStore := ⟨tasks, .empty⟩

/-! ## Workers -/

/-- The rows that `SKIP LOCKED` passes over. -/
def lockedByOthers (s : QueueRace) (tx : QueueTx) : List Uuid :=
  (s.tasks.rows.map AutomationTaskRecord.id).filter fun k => ¬ s.locks.Available k tx

/-- The transaction that recovers the leases that have run out, over rows nobody else holds. -/
def recover (s : QueueRace) (now : Instant) : QueueRace :=
  let tx := QueueTx.worker s.workers.next
  let skipped := s.lockedByOthers tx
  ((queueOf s.tasks).recoverExpiredTasks now skipped).toOption.elim s fun recovered =>
    let writes := ((queueOf s.tasks).lockExpiredTaskLeases now skipped).filterMap fun record =>
      (recovered.tasks.get? record.id).map fun row => (⟨row, .ended⟩ : LockedWrite)
    { s with
      locks := s.locks.takeAll (writes.map (·.row.id)) tx
      workers := s.workers.add fun id => { id, now, claiming := true, writes } }

/-- The rows as the session sees them. -/
def view (s : QueueRace) (w : WorkerSession) : Table AutomationTaskRecord :=
  w.writes.foldl (fun tasks x => tasks.put x.row) s.tasks

/-- The rest of the claim: a row is selected and locked, and the UPDATE is written but not
visible. -/
def claim (s : QueueRace) (w : WorkerSession) (workerId : String) (queues : List String)
    (leaseSeconds : Int) (token : String) : QueueRace :=
  let tx := QueueTx.worker w.id
  ((queueOf (s.view w)).claimTaskCandidate queues w.now (s.lockedByOthers tx)).elim
    { s with workers := s.workers.put { w with claiming := false } }
    fun record =>
      let holder : Holder := ⟨workerId, token, w.now + seconds leaseSeconds⟩
      let write : LockedWrite :=
        ⟨record.claimed workerId token leaseSeconds w.now, .granted holder⟩
      { s with
        locks := s.locks.take record.id tx
        workers := s.workers.put { w with claiming := false, writes := w.writes ++ [write] } }

/-- The row that a heartbeat or a settlement writes, when it passes the lease check. -/
def leaseWrite (tasks : Table AutomationTaskRecord) (now : Instant) :
    TaskStore.Call → Option LockedWrite
  | .heartbeatTask taskId workerId leaseToken leaseSeconds =>
    ((queueOf tasks).heartbeatTask taskId workerId leaseToken leaseSeconds now).toOption.map
      fun written => ⟨written.2, .extended (now + seconds leaseSeconds)⟩
  | .completeTask taskId workerId leaseToken result =>
    ((queueOf tasks).completeTask taskId workerId leaseToken result now).toOption.map
      fun written => ⟨written.2, .ended⟩
  | .failTask taskId workerId leaseToken errorCode retryable =>
    ((queueOf tasks).failTask taskId workerId leaseToken errorCode retryable now).toOption.map
      fun written => ⟨written.2, .ended⟩
  | _ => none

/-- It waits while another transaction has the lock. -/
def lease (s : QueueRace) (call : TaskStore.Call) (now : Instant) : QueueRace :=
  let tx := QueueTx.worker s.workers.next
  (leaseWrite s.tasks now call).elim s fun x =>
    if s.locks.Available x.row.id tx then
      { s with
        locks := s.locks.take x.row.id tx
        workers := s.workers.add fun id => { id, now, claiming := false, writes := [x] } }
    else s

/-- One row of a transaction that commits. -/
def write (s : QueueRace) (x : LockedWrite) : QueueRace :=
  { s with
    tasks := s.tasks.put x.row
    holders := Function.update s.holders x.row.id (x.effect.holder (s.holders x.row.id)) }

/-- The end of a worker's transaction. -/
def endWorker (s : QueueRace) (id : Uuid) : QueueRace :=
  { s with locks := s.locks.release (.worker id), workers := s.workers.erase id }

/-- The writes of a worker become visible, and its rows are free. -/
def commit (s : QueueRace) (w : WorkerSession) : QueueRace :=
  (w.writes.foldl write s).endWorker w.id

/-! ## T2 -/

/-- No UPDATE is left to make. -/
def Flushed (f : FinalisationSession) : Prop :=
  ∀ read ∈ f.loaded, Changed read → read.id ∈ f.updated

instance (f : FinalisationSession) : Decidable (Flushed f) := by
  unfold Flushed
  infer_instance

/-- The active tasks of the schedule; a session flushes before it queries, and a row
that it has already loaded keeps the values it was loaded with. -/
def readActive (s : QueueRace) (f : FinalisationSession) : QueueRace :=
  if Flushed f then
    let active := s.tasks.rows.filter fun t => t.sourceScheduleId = some f.scheduleId
      ∧ (t.status = .queued ∨ t.status = .running ∨ t.status = .retryWait)
      ∧ t.id ∉ f.loaded.map AutomationTaskRecord.id
    { s with
      finalisations := s.finalisations.put { f with
        loaded := f.loaded ++ active
        inserted := f.inserted.map ({ · with cancelled := true }) } }
  else s

/-- The UPDATE of a task waits for its lock. -/
def update (s : QueueRace) (f : FinalisationSession) (taskId : Uuid) : QueueRace :=
  if (∃ read ∈ f.loaded, read.id = taskId ∧ Changed read)
      ∧ s.locks.Available taskId (.finalisation f.id) then
    { s with
      locks := s.locks.take taskId (.finalisation f.id)
      finalisations := s.finalisations.put { f with updated := f.updated ++ [taskId] } }
  else s

/-- The row after its UPDATE, which looks for the primary key and nothing else. -/
def updateRow (now : Instant) (tasks : Table AutomationTaskRecord) (read : AutomationTaskRecord) :
    Table AutomationTaskRecord :=
  (tasks.get? read.id).elim tasks fun t => tasks.put ((replaceChanges now read).apply t)

/-- The INSERT of a replacement. -/
def insertRow (scheduleId : Uuid) (now : Instant) (tasks : Table AutomationTaskRecord)
    (r : Replacement) : Table AutomationTaskRecord :=
  tasks.add (r.row scheduleId now) (r.key_row scheduleId now)

/-- The end of a T2. -/
def endFinalisation (s : QueueRace) (id : Uuid) : QueueRace :=
  { s with locks := s.locks.release (.finalisation id), finalisations := s.finalisations.erase id }

/-- T2 commits: its updates and its inserts become visible at once. -/
def commitFinalisation (s : QueueRace) (f : FinalisationSession) : QueueRace :=
  if Flushed f then
    let updated := (f.loaded.filter fun read => read.id ∈ f.updated).foldl (updateRow f.now) s.tasks
    { s with
      tasks := f.inserted.foldl (insertRow f.scheduleId f.now) updated }.endFinalisation f.id
  else s

/-- A statement; it does nothing when it is not its turn. -/
def step (s : QueueRace) : RaceStatement → QueueRace
  | .enqueue payload fingerprint source now =>
    { s with tasks := (queueOf s.tasks).addTask payload fingerprint source now }
  | .recover now => s.recover now
  | .claim id workerId queues leaseSeconds token =>
    (s.workers.get? id).elim s fun w =>
      if w.claiming then s.claim w workerId queues leaseSeconds token else s
  | .lease call now => s.lease call now
  | .commit id => (s.workers.get? id).elim s s.commit
  | .rollback id => s.endWorker id
  | .finalise scheduleId now =>
    -- the schedule's row is locked by the T2 that has set it
    if ∃ f ∈ s.finalisations.rows, f.scheduleId = scheduleId then s
    else { s with
      finalisations := s.finalisations.add fun id =>
        { id, scheduleId, now, loaded := [], updated := [], inserted := [] } }
  | .readActive id => (s.finalisations.get? id).elim s s.readActive
  | .update id taskId => (s.finalisations.get? id).elim s (s.update · taskId)
  | .insert id payload fingerprint =>
    (s.finalisations.get? id).elim s fun f =>
      { s with
        finalisations := s.finalisations.put { f with
          inserted := f.inserted ++ [⟨payload, fingerprint, false⟩] } }
  | .commitFinalisation id => (s.finalisations.get? id).elim s s.commitFinalisation
  | .rollbackFinalisation id => s.endFinalisation id

end QueueRace

end QaPlatform.Runtime
