import QaPlatform.Runtime.TwoQueues

/-!
# Runs of the two queues

The operations that both queues have, called on both at the same times with the
arguments that the schemas of the API let through and that the persistent service
itself does not refuse. What can be told of the queues is then the same after every
call, but for the error of an earlier attempt.

What is compared of a task is what both services can be asked for (`TaskState`). The one
difference that remains is named in `TaskAgrees`; the calls on which the services disagree by
what they check of a request are named in `PassesGuards`. `queues_differ` has one run for each
of these, so nothing of the condition can be left out.
-/

namespace QaPlatform.Runtime

open Automation (AutomationTask InMemoryTaskQueue TaskStatus ManagerError DateTime QueueSetup)

/-- A call, with the token that `secrets` returns in it. -/
inductive QueueOperation where
  /-- `aware` says whether `available_at` has a time zone. -/
  | enqueue (payload : TaskEnqueue) (aware : Bool)
  | claim (workerId : String) (queues : List String) (leaseSeconds : Int) (token : String)
  | heartbeat (taskId : Uuid) (workerId leaseToken : String) (leaseSeconds : Int)
  | complete (taskId : Uuid) (workerId leaseToken : String) (result : Json)
  | fail (taskId : Uuid) (workerId leaseToken errorCode : String) (retryable : Bool)
  | cancel (taskId : Uuid)
  | recoverExpired

namespace QueueOperation

/-- The schema of `TaskLeaseAction`. -/
def LeaseAction (workerId leaseToken : String) : Prop :=
  (1 ≤ workerId.length ∧ workerId.length ≤ 200) ∧ (20 ≤ leaseToken.length ∧ leaseToken.length ≤ 500)

/-- What the schemas of the API let through. -/
def Accepted : QueueOperation → Prop
  | .enqueue payload _ => payload.Accepted
  | .claim workerId queues leaseSeconds _ =>
    (1 ≤ workerId.length ∧ workerId.length ≤ 200) ∧ (1 ≤ queues.length ∧ queues.length ≤ 20)
      ∧ 1 ≤ leaseSeconds ∧ leaseSeconds ≤ 3600
  | .heartbeat _ workerId leaseToken leaseSeconds =>
    LeaseAction workerId leaseToken ∧ 1 ≤ leaseSeconds ∧ leaseSeconds ≤ 3600
  | .complete _ workerId leaseToken _ => LeaseAction workerId leaseToken
  | .fail _ workerId leaseToken errorCode _ =>
    LeaseAction workerId leaseToken ∧ 1 ≤ errorCode.length ∧ errorCode.length ≤ 100
  | .cancel _ => True
  | .recoverExpired => True

/-- What one of the services checks beyond the schemas and the other one does not. -/
def PassesGuards (taskTypes : List String) : QueueOperation → Prop
  | .enqueue payload aware =>
    payload.taskType ∈ taskTypes ∧ strip payload.queue ≠ ""
      ∧ (payload.availableAt ≠ none → aware = true)
  | .claim _ queues _ _ => queues.Nodup ∧ ∀ queue ∈ queues, strip queue ≠ ""
  | _ => True

instance (workerId leaseToken : String) : Decidable (LeaseAction workerId leaseToken) := by
  unfold LeaseAction
  infer_instance

instance : DecidablePred Accepted
  | .enqueue payload _ => inferInstanceAs (Decidable payload.Accepted)
  | .claim _ _ _ _ => inferInstanceAs (Decidable (_ ∧ _))
  | .heartbeat _ _ _ _ => inferInstanceAs (Decidable (_ ∧ _))
  | .complete _ workerId leaseToken _ =>
    inferInstanceAs (Decidable (LeaseAction workerId leaseToken))
  | .fail _ _ _ _ _ => inferInstanceAs (Decidable (_ ∧ _))
  | .cancel _ => .isTrue trivial
  | .recoverExpired => .isTrue trivial

instance (taskTypes : List String) : DecidablePred (PassesGuards taskTypes)
  | .enqueue _ _ => inferInstanceAs (Decidable (_ ∧ _))
  | .claim _ _ _ _ => inferInstanceAs (Decidable (_ ∧ _))
  | .heartbeat _ _ _ _ => .isTrue trivial
  | .complete _ _ _ _ => .isTrue trivial
  | .fail _ _ _ _ _ => .isTrue trivial
  | .cancel _ => .isTrue trivial
  | .recoverExpired => .isTrue trivial

/-- The in-memory queue after an operation, and which task it returns. -/
def onMemory (setup : QueueSetup) (q : InMemoryTaskQueue) (now : Instant) :
    QueueOperation → InMemoryTaskQueue × Except ManagerError (Option Uuid)
  | .enqueue payload aware =>
    (orNothing q (q.enqueue setup payload.taskType payload.payload payload.queue payload.priority
      payload.maxAttempts payload.idempotencyKey none
      (payload.availableAt.map (DateTime.mk · aware)) now)).map id (·.map fun a => some a.1.id)
  | .claim workerId queues leaseSeconds token =>
    (q.claim setup workerId queues leaseSeconds token now).map id
      (·.map fun claimed => claimed.map (·.1.id))
  | .heartbeat taskId workerId leaseToken leaseSeconds =>
    (q.heartbeat taskId workerId leaseToken leaseSeconds now).map id (·.map fun t => some t.id)
  | .complete taskId workerId leaseToken result =>
    (q.complete taskId workerId leaseToken (some result) now).map id (·.map fun t => some t.id)
  | .fail taskId workerId leaseToken errorCode retryable =>
    (q.fail setup taskId workerId leaseToken errorCode retryable now).map id
      (·.map fun t => some t.id)
  | .cancel taskId => (q.requestCancel taskId now).map id (·.map fun t => some t.id)
  | .recoverExpired => (q.recoverExpiredLocked setup now).map id (·.map fun _ => none)

/-- What the persistent queue commits, and which task it returns. -/
def onSql (taskTypes : List String) (render : Rendering) (s : TaskStore) (now : Instant) :
    QueueOperation → Except DomainError (TaskStore × Option Uuid)
  | .enqueue payload _ =>
    (s.enqueueTask taskTypes render payload now).map (Prod.map id fun a => some a.1.id)
  | .claim workerId queues leaseSeconds token =>
    (s.claimTask workerId queues leaseSeconds token now []).map
      (Prod.map id fun claimed => claimed.map (·.1.id))
  | .heartbeat taskId workerId leaseToken leaseSeconds =>
    (s.heartbeatTask taskId workerId leaseToken leaseSeconds now).map
      (Prod.map id fun r => some r.id)
  | .complete taskId workerId leaseToken result =>
    (s.completeTask taskId workerId leaseToken result now).map (Prod.map id fun r => some r.id)
  | .fail taskId workerId leaseToken errorCode retryable =>
    (s.failTask taskId workerId leaseToken errorCode retryable now).map
      (Prod.map id fun r => some r.id)
  | .cancel taskId => (s.cancelTask taskId now).map (Prod.map id fun r => some r.id)
  | .recoverExpired => (s.recoverExpiredTasks now []).map fun s => (s, none)

end QueueOperation

/-- What the two services are set up with. -/
structure QueuePairSetup where
  taskTypes : List String
  memory : QueueSetup

/-- The texts that both queues use. -/
def QueuePairSetup.render (setup : QueuePairSetup) : Rendering where
  isoformat := setup.memory.isoformat
  uuid := setup.memory.uuid

/-- The queue in memory beside the queue in SQL. -/
structure QueuePair where
  memory : InMemoryTaskQueue
  sql : TaskStore

namespace QueuePair

/-- Both queues before the first task. -/
def empty : QueuePair := ⟨.init, ⟨.empty, .empty⟩⟩

/-- The queues after a call at a time. -/
def step (setup : QueuePairSetup) (w : QueuePair) (e : Instant × QueueOperation) : QueuePair where
  memory := (e.2.onMemory setup.memory w.memory e.1).1
  sql :=
    match e.2.onSql setup.taskTypes setup.render w.sql e.1 with
    | .error _ => w.sql
    | .ok (s, _) => s

/-- The task that the in-memory queue would return, if it does not refuse the call. -/
def memoryAnswer (setup : QueuePairSetup) (w : QueuePair) (e : Instant × QueueOperation) :
    Option (Option Uuid) :=
  (e.2.onMemory setup.memory w.memory e.1).2.toOption

/-- The task that a call of the SQL queue is about, unless the call raises. -/
def sqlAnswer (setup : QueuePairSetup) (w : QueuePair) (e : Instant × QueueOperation) :
    Option (Option Uuid) :=
  (e.2.onSql setup.taskTypes setup.render w.sql e.1).toOption.map (·.2)

end QueuePair

/-- What is compared of a task. -/
structure TaskState where
  status : TaskStatus
  attempts : Nat
  cancelRequested : Bool
  availableAt : Instant
  result : Option Json
  errorCode : Option String
deriving DecidableEq

/-- What the two queues are compared by, of a task in memory. -/
def memoryState (t : AutomationTask) : TaskState :=
  ⟨t.status, t.attempts, t.cancelRequested, t.availableAt, t.result, t.errorCode⟩

/-- The same of a row. -/
def sqlState (r : AutomationTaskRecord) : TaskState :=
  ⟨r.status, r.attempts, r.cancelRequested, r.availableAt, r.result, r.errorCode⟩

/-- The rows of one task say the same, but the persistent queue may have cleared the
error of an attempt before the last one. -/
def TaskAgrees (t : AutomationTask) (r : AutomationTaskRecord) : Prop :=
  sqlState r = memoryState t
    ∨ Reclaimed t ∧ sqlState r = { memoryState t with errorCode := none }

namespace QueuePair

/-- Both queues have the same tasks, and say the same of each. -/
def Same (w : QueuePair) : Prop :=
  ∀ taskId, (w.memory.tasks.get? taskId).map memoryState = (w.sql.tasks.get? taskId).map sqlState

/-- Both queues have the same tasks, and agree on each. -/
def Agree (w : QueuePair) : Prop :=
  ∀ taskId, Option.Rel TaskAgrees (w.memory.tasks.get? taskId) (w.sql.tasks.get? taskId)

variable {setup : QueuePairSetup} {w : QueuePair} {e : Instant × QueueOperation}

theorem agree_of_mirrors (h : MirrorsQueue w.memory w.sql) : w.Agree := by
  intro taskId
  have hrows := h.tasks.rows taskId
  cases hq : w.memory.tasks.get? taskId with
  | none =>
    rw [h.tasks.no_partner hq]
    exact .none
  | some t =>
    obtain ⟨r, hr, hrow⟩ := h.tasks.partner hq
    rw [hr]
    refine .some ?_
    cases hrow with
    | intro code _ hcode =>
      rcases hcode with rfl | ⟨rfl, hreclaimed⟩
      · exact .inl rfl
      · exact .inr ⟨hreclaimed, rfl⟩

/-- What one call does to related queues. -/
theorem step_of_matches {α β : Type} {rel : α → β → Prop}
    {x : InMemoryTaskQueue × Except ManagerError α} {y : Except DomainError (TaskStore × β)}
    (hmatches : Matches w.sql rel x y) (f : α → Option Uuid) (g : β → Option Uuid)
    (hrel : ∀ a b, rel a b → f a = g b)
    (hx : e.2.onMemory setup.memory w.memory e.1 = x.map id (·.map f))
    (hy : e.2.onSql setup.taskTypes setup.render w.sql e.1 = y.map (Prod.map id g)) :
    w.memoryAnswer setup e = w.sqlAnswer setup e
      ∧ MirrorsQueue (w.step setup e).memory (w.step setup e).sql := by
  unfold memoryAnswer sqlAnswer step
  rw [hx, hy]
  cases hmatches with
  | refused error error' hxe hye h =>
    rw [hye]
    refine ⟨?_, h⟩
    show Except.toOption (x.2.map f) = none
    rw [hxe]
    rfl
  | done a s' b hxe hye hab h =>
    rw [hye]
    refine ⟨?_, h⟩
    show Except.toOption (x.2.map f) = some (g b)
    rw [hxe, ← hrel a b hab]
    rfl

/-- The step lemma: one case for each operation. -/
theorem step_matches (h : MirrorsQueue w.memory w.sql) (isoformat : Instant → String)
    (uuid : Uuid → String) (hmemory : setup.memory = Automation.midpoint isoformat uuid)
    (haccepted : e.2.Accepted) (hguards : e.2.PassesGuards setup.taskTypes) :
    w.memoryAnswer setup e = w.sqlAnswer setup e
      ∧ MirrorsQueue (w.step setup e).memory (w.step setup e).sql := by
  obtain ⟨taskTypes, memory⟩ := setup
  obtain rfl : memory = Automation.midpoint isoformat uuid := hmemory
  obtain ⟨now, operation⟩ := e
  have hid : ∀ t r, Mirrors t r → some t.id = some r.id := fun t r hrow =>
    congrArg some hrow.id_eq
  cases operation with
  | enqueue payload aware =>
    exact step_of_matches
      (enqueue_matches h haccepted hguards.1 hguards.2.1 hguards.2.2 isoformat uuid)
      (fun a => some a.1.id) (fun b => some b.1.id) (fun a b hrow => hid a.1 b.1 hrow) rfl rfl
  | claim workerId queues leaseSeconds token =>
    obtain ⟨⟨hworker, -⟩, ⟨hqueues, -⟩, hseconds, -⟩ := haccepted
    have hworker' : workerId ≠ "" := by
      rintro rfl
      exact absurd hworker (by decide)
    have hqueues' : queues ≠ [] := List.ne_nil_of_length_pos hqueues
    refine step_of_matches (claim_matches h hworker' hseconds hqueues' hguards token isoformat uuid)
      (fun a => a.map (·.1.id)) (fun b => b.map (·.1.id)) (fun a b hrow => ?_) rfl rfl
    cases hrow with
    | none => rfl
    | some hrow => exact hid _ _ hrow
  | heartbeat taskId workerId leaseToken leaseSeconds =>
    exact step_of_matches (heartbeat_matches h haccepted.2.1) (fun t => some t.id)
      (fun r => some r.id) hid rfl rfl
  | complete taskId workerId leaseToken result =>
    exact step_of_matches (complete_matches h result) (fun t => some t.id) (fun r => some r.id)
      hid rfl rfl
  | fail taskId workerId leaseToken errorCode retryable =>
    exact step_of_matches (fail_matches h haccepted.2 retryable isoformat uuid) (fun t => some t.id)
      (fun r => some r.id) hid rfl rfl
  | cancel taskId =>
    exact step_of_matches (requestCancel_matches h) (fun t => some t.id) (fun r => some r.id)
      hid rfl rfl
  | recoverExpired =>
    obtain ⟨s₁, hs₁, h₁, changed, hchanged⟩ := @MirrorsQueue.recovered now _ _ h isoformat uuid
    have hmatches : Matches w.sql (fun _ _ => True)
        (w.memory.recoverExpiredLocked (Automation.midpoint isoformat uuid) now)
        ((w.sql.recoverExpiredTasks now []).map fun s => (s, ())) :=
      .done changed s₁ () hchanged (by rw [hs₁]; rfl) trivial h₁
    refine step_of_matches hmatches (fun _ => none) (fun _ => none) (fun _ _ _ => rfl) rfl ?_
    show (w.sql.recoverExpiredTasks now []).map _ = _
    rw [hs₁]
    rfl

/-- A call that the schemas let through and no service refuses by itself. -/
def Ordinary (taskTypes : List String) (e : Instant × QueueOperation) : Prop :=
  e.2.Accepted ∧ e.2.PassesGuards taskTypes

instance (taskTypes : List String) : DecidablePred (Ordinary taskTypes) := fun e =>
  inferInstanceAs (Decidable (e.2.Accepted ∧ e.2.PassesGuards taskTypes))

/-- With the jitter at its midpoint the two queues run alike: after every call of every
run they agree on every task, and they have returned the same task or have both
refused. -/
theorem queues_agree (taskTypes : List String) (isoformat : Instant → String)
    (uuid : Uuid → String) (es : List (Instant × QueueOperation))
    (hes : ∀ e ∈ es, Ordinary taskTypes e) :
    let setup : QueuePairSetup := ⟨taskTypes, Automation.midpoint isoformat uuid⟩
    ∀ done e rest, es = done ++ e :: rest →
      let before := Transition.run (step setup) empty done
      before.memoryAnswer setup e = before.sqlAnswer setup e ∧ (before.step setup e).Agree := by
  intro setup done e rest hsplit before
  have hstep : ∀ (w : QueuePair) (e : Instant × QueueOperation), MirrorsQueue w.memory w.sql →
      Ordinary taskTypes e → MirrorsQueue (w.step setup e).memory (w.step setup e).sql :=
    fun w e h hok => (step_matches h isoformat uuid rfl hok.1 hok.2).2
  have hdone : ∀ x ∈ done, Ordinary taskTypes x := fun x hx =>
    hes x (by rw [hsplit]; exact List.mem_append_left _ hx)
  have hbefore : MirrorsQueue before.memory before.sql :=
    Transition.invariant_along hstep mirrorsQueue_init (Transition.Along.of_mem hdone empty)
  obtain ⟨haccepted, hguards⟩ : Ordinary taskTypes e := hes e (by rw [hsplit]; simp)
  obtain ⟨hanswer, hafter⟩ :=
    @step_matches setup before e hbefore isoformat uuid rfl haccepted hguards
  exact ⟨hanswer, agree_of_mirrors hafter⟩

/-- One task type, entropy in the middle, and texts that are of no interest. -/
def quiet : QueuePairSetup := ⟨["synthetic"], Automation.midpoint (fun _ => "") fun _ => ""⟩

/-- A request at the default priority, without an idempotency key. -/
def request (taskType queue : String) (availableAt : Option Instant) : TaskEnqueue :=
  ⟨taskType, "\x7b\x7d", queue, 50, 3, none, availableAt⟩

/-- A task fails and is claimed again. -/
def claimedAgain : List (Instant × QueueOperation) :=
  [(0, .enqueue (request "synthetic" "default" none) true),
    (0, .claim "w" ["default"] 30 "first-token-of-the-task"),
    (0, .fail 0 "w" "first-token-of-the-task" "boom" true),
    (1000000, .claim "w" ["default"] 30 "second-token-of-the-task")]

theorem queues_agree_claimedAgain :
    let before := Transition.run (step quiet) empty (claimedAgain.take 3)
    (before.memoryAnswer quiet claimedAgain[3] = some (some 0)
      ∧ before.memoryAnswer quiet claimedAgain[3] = before.sqlAnswer quiet claimedAgain[3])
    ∧ (before.step quiet claimedAgain[3]).Agree := by
  have hagree := queues_agree ["synthetic"] (fun _ => "") (fun _ => "") claimedAgain
    (by decide +kernel) (claimedAgain.take 3) claimedAgain[3] [] rfl
  exact ⟨⟨by decide +kernel, hagree.1⟩, hagree.2⟩

/-- The two queues return the same task, and then say the same of every task, after
every call of a run. -/
def RunsAlike (setup : QueuePairSetup) (es : List (Instant × QueueOperation)) : Prop :=
  ∀ done e rest, es = done ++ e :: rest →
    let before := Transition.run (step setup) empty done
    before.memoryAnswer setup e = before.sqlAnswer setup e ∧ (before.step setup e).Same

/-- The schemas let every call of a run through, the clock does not go back, and still
the two queues do not run alike. -/
def Differs (setup : QueuePairSetup) (es : List (Instant × QueueOperation)) : Prop :=
  (∀ e ∈ es, e.2.Accepted) ∧ (es.map Prod.fst).Pairwise (· ≤ ·) ∧ ¬ RunsAlike setup es

/-- Which task is returned tells the two queues apart at the first call. -/
theorem differs_of_answer {e : Instant × QueueOperation} (haccepted : e.2.Accepted)
    (hanswer : empty.memoryAnswer setup e ≠ empty.sqlAnswer setup e) : Differs setup [e] := by
  refine ⟨?_, by simp, fun halike => hanswer (halike [] e [] rfl).1⟩
  intro x hx
  obtain rfl := List.mem_singleton.mp hx
  exact haccepted

/-- A claim clears the error of the attempt before in one queue only; the persistent
service refuses a task type that it does not know, a queue without a name and queues that
are named twice; the in-memory queue refuses a time without a zone. -/
theorem queues_differ :
    Differs quiet claimedAgain
    ∧ Differs quiet [(0, .enqueue (request "shell" "default" none) true)]
    ∧ Differs quiet [(0, .enqueue (request "synthetic" " " none) true)]
    ∧ Differs quiet [(0, .claim "w" ["default", "default"] 30 "first-token-of-the-task")]
    ∧ Differs quiet [(0, .claim "w" [" "] 30 "first-token-of-the-task")]
    ∧ Differs quiet [(0, .enqueue (request "synthetic" "default" (some 0)) false)] := by
  refine ⟨⟨by decide +kernel, by decide, fun halike => ?_⟩, ?_, ?_, ?_, ?_, ?_⟩
  · have hsame := (halike (claimedAgain.take 3) claimedAgain[3] [] rfl).2 0
    revert hsame
    decide +kernel
  · exact differs_of_answer (by decide +kernel) (by decide +kernel)
  · exact differs_of_answer (by decide +kernel) (by decide +kernel)
  · exact differs_of_answer (by decide +kernel) (by decide +kernel)
  · exact differs_of_answer (by decide +kernel) (by decide +kernel)
  · exact differs_of_answer (by decide +kernel) (by decide +kernel)

end QueuePair

end QaPlatform.Runtime
