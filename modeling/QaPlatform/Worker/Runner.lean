import QaPlatform.Base.Transition
import QaPlatform.Core

/-!
# The worker

`WorkerRunner._execute` (`app/worker/runner.py`): one claimed task, its handler, and the
heartbeats of its lease. Between two of its awaits the coroutine is alone; while it waits,
the handler and the heartbeat may end in any order, and it finds them as they are then.

`SettledOnce` says what is to hold of an execution: it makes one settlement at most, and none
after a heartbeat has failed; when it has ended so has its handler, and there is exactly one
settlement unless it was cancelled from outside or a heartbeat had failed before the tasks are
closed. The failed heartbeat is where the source goes wrong: when the grace of a stop has
expired it cancels the handler and waits for it without looking at the heartbeat. `InTime` is
the condition on the events, and it is exact for executions that end on their own.
-/

namespace QaPlatform.Worker

/-- `HandlerFailure`. -/
structure HandlerFailure where
  errorCode : String
  retryable : Bool
  deriving DecidableEq

/-- `FixedHandlerRegistry.resolve`. -/
def resolve (taskTypes : List String) (taskType : String) : Except HandlerFailure Unit :=
  if taskType ∈ taskTypes then .ok () else .error ⟨"worker_unknown_task_type", false⟩

/-- How a handler ends. -/
inductive HandlerEnd where
  | returned (result : Json)
  /-- It returns what is not a dictionary. -/
  | returnedOther
  | failed (error : HandlerFailure)
  /-- It raises any other exception. -/
  | raised
  | cancelled
  deriving DecidableEq

/-- The task that runs the handler. -/
inductive HandlerTask where
  | absent
  | running
  | done (result : HandlerEnd)
  deriving DecidableEq

/-- The task that renews the lease. -/
inductive HeartbeatTask where
  | absent
  | running
  | returned (cancelRequested : Bool)
  | raised
  | cancelled
  deriving DecidableEq

/-- Its exception is set, or it is cancelled. -/
def HeartbeatTask.failed : HeartbeatTask → Bool
  | .raised | .cancelled => true
  | .absent | .running | .returned _ => false

/-- A call of the backend that ends the task. -/
inductive Settlement where
  | complete (result : Json)
  | fail (errorCode : String) (retryable : Bool)
  deriving DecidableEq

/-- A settlement and whether a heartbeat has failed before it is made. -/
structure SettlementCall where
  settlement : Settlement
  afterFailure : Bool
  deriving DecidableEq

/-- Why the handler has been cancelled. -/
inductive CancelReason where
  | graceExpired
  | leaseLost
  | cancelRequested
  deriving DecidableEq

/-- Where the coroutine awaits. -/
inductive Phase where
  /-- `asyncio.wait`, of the stop request too while there is no deadline. -/
  | waiting (shutdownDeadline : Option Instant)
  /-- The end of the cancelled handler. -/
  | stopping (reason : CancelReason)
  /-- The settlement call. -/
  | settling
  /-- The tasks, in the `finally` block. -/
  | closing
  | ended
  deriving DecidableEq

/-- The handler is waited for: nothing is settled, and the tasks are not being closed. -/
def Phase.awaitsHandler : Phase → Bool
  | .waiting _ | .stopping _ => true
  | .settling | .closing | .ended => false

/-- What `_execute` has in hand, with what it has done so far: the locals are the tasks, the
deadline stands in the phase. -/
structure Execution where
  phase : Phase
  handler : HandlerTask
  heartbeat : HeartbeatTask
  /-- A heartbeat has failed while the handler was waited for. One that is cut off because the
  `finally` block cancels its task is not one of them. -/
  heartbeatFailed : Bool
  stopRequested : Bool
  /-- The execution itself has been cancelled. -/
  cancelled : Bool
  settlements : List SettlementCall
  deriving DecidableEq

/-- How the backend answers a heartbeat. -/
inductive HeartbeatAnswer where
  | renewed
  | cancelRequested
  | raised
  | cancelled
  deriving DecidableEq

/-- The heartbeat task after an answer. -/
def HeartbeatAnswer.task : HeartbeatAnswer → HeartbeatTask
  | .renewed => .running
  | .cancelRequested => .returned true
  | .raised => .raised
  | .cancelled => .cancelled

/-- What `_execute` waits for, or what ends it. -/
inductive WorkerEvent where
  | handlerEnds (result : HandlerEnd)
  /-- The backend answers a heartbeat. -/
  | heartbeat (answer : HeartbeatAnswer)
  /-- The loop of the heartbeats sees that it is over. -/
  | heartbeatDone
  | requestStop
  /-- The coroutine is run at the time `now` of the loop. -/
  | resume (now : Instant)
  /-- The settlement call returns or raises, which is logged. -/
  | answered
  | cancel
  deriving DecidableEq

namespace Execution

/-- The settlement of a handler that has ended. -/
def settlementOf : HandlerEnd → Settlement
  | .returned result => .complete result
  | .returnedOther => .fail "worker_invalid_result" false
  | .failed error => .fail error.errorCode error.retryable
  | .raised => .fail "worker_handler_error" true
  | .cancelled => .fail "worker_shutdown" true

/-- `_record_completion` and `_record_failure`. -/
def settle (x : Execution) (settlement : Settlement) : Execution :=
  { x with
    phase := .settling
    settlements := x.settlements ++ [⟨settlement, x.heartbeat.failed⟩] }

/-- The task is claimed and its handler looked up. -/
def start (taskTypes : List String) (taskType : String) : Execution :=
  match resolve taskTypes taskType with
  | .error error =>
    settle ⟨.settling, .absent, .absent, false, false, false, []⟩
      (.fail error.errorCode error.retryable)
  | .ok () => ⟨.waiting none, .running, .running, false, false, false, []⟩

/-- `stop_task` is awaited and done. -/
def stopDone (x : Execution) (shutdownDeadline : Option Instant) : Bool :=
  shutdownDeadline.isNone && x.stopRequested

/-- The loop when no heartbeat has failed or asked to cancel. -/
def withoutSignal (shutdownGrace : Int) (x : Execution) (shutdownDeadline : Option Instant)
    (now : Instant) : Execution :=
  match x.handler with
  | .done result => x.settle (settlementOf result)
  | .absent | .running =>
    if x.stopDone shutdownDeadline then { x with phase := .waiting (some (now + shutdownGrace)) }
    else x

/-- The loop after `asyncio.wait`, which waits on unless something is done or the time is up. -/
def afterWait (shutdownGrace : Int) (x : Execution) (shutdownDeadline : Option Instant)
    (now : Instant) : Execution :=
  if x.handler = .running ∧ x.heartbeat = .running ∧ x.stopDone shutdownDeadline = false then
    if shutdownDeadline.any (· ≤ now) then { x with phase := .stopping .graceExpired } else x
  else
    match x.heartbeat with
    | .raised => { x with phase := .stopping .leaseLost }
    -- `heartbeat_task.exception()` raises
    | .cancelled => { x with phase := .closing }
    | .returned true => { x with phase := .stopping .cancelRequested }
    | .absent | .running | .returned false => x.withoutSignal shutdownGrace shutdownDeadline now

/-- The cancelled handler has ended. -/
def afterStop (x : Execution) (reason : CancelReason) : Execution :=
  if x.cancelled then { x with phase := .closing }
  else
    match reason with
    | .graceExpired => x.settle (.fail "worker_shutdown" true)
    | .leaseLost => { x with phase := .closing }
    | .cancelRequested => x.settle (.complete "\x7b\x7d")

/-- `_execute` goes on, as far as the next time that it has to wait. -/
def resume (shutdownGrace : Int) (x : Execution) (now : Instant) : Execution :=
  match x.phase with
  | .waiting shutdownDeadline => x.afterWait shutdownGrace shutdownDeadline now
  | .stopping reason => if x.handler = .running then x else x.afterStop reason
  | .closing =>
    if x.handler = .running ∨ x.heartbeat = .running then x else { x with phase := .ended }
  | .settling | .ended => x

/-- One event, after which `_execute` goes on. -/
def step (shutdownGrace : Int) (x : Execution) : WorkerEvent → Execution
  | .handlerEnds result => if x.handler = .running then { x with handler := .done result } else x
  | .heartbeat answer =>
    if x.heartbeat = .running then
      { x with
        heartbeat := answer.task
        heartbeatFailed :=
          x.heartbeatFailed || x.phase.awaitsHandler && answer.task.failed }
    else x
  | .heartbeatDone =>
    if x.heartbeat = .running ∧ x.phase = .closing
      then { x with heartbeat := .returned false } else x
  | .requestStop => { x with stopRequested := true }
  | .resume now => x.resume shutdownGrace now
  | .answered => if x.phase = .settling then { x with phase := .closing } else x
  | .cancel =>
    -- a wait ends at once, what is gathered ends first
    match x.phase with
    | .waiting _ => { x with phase := .closing, cancelled := true }
    | .stopping _ | .settling | .closing => { x with cancelled := true }
    | .ended => x

/-! ## Settlements -/

/-- What is to hold of an execution. A heartbeat that its own `finally` block cuts off is no excuse
for a settlement that is missing. -/
structure SettledOnce (x : Execution) : Prop where
  atMostOne : x.settlements.length ≤ 1
  inTime : ∀ call ∈ x.settlements, call.afterFailure = false
  handler : x.phase = .ended → x.handler ≠ .running
  exactlyOne : x.phase = .ended → x.cancelled = false → x.heartbeatFailed = false →
    x.settlements.length = 1

/-- How many settlements there are at each await. -/
structure Counted (x : Execution) : Prop where
  waiting : ∀ shutdownDeadline, x.phase = .waiting shutdownDeadline → x.settlements = []
  stopping : ∀ reason, x.phase = .stopping reason → x.settlements = []
    ∧ (reason = .leaseLost → x.heartbeatFailed = true)
    ∧ (reason = .cancelRequested → x.heartbeat = .returned true)
  failure : x.phase.awaitsHandler = true → x.heartbeat.failed = true → x.heartbeatFailed = true
  atMostOne : x.settlements.length ≤ 1
  closed : x.phase = .settling ∨ x.phase = .closing ∨ x.phase = .ended →
    x.settlements.length = 1 ∨ x.cancelled = true ∨ x.heartbeatFailed = true
  handler : x.phase = .ended → x.handler ≠ .running

/-- No heartbeat fails while a handler is waited for whose grace has expired. -/
def InTime (x : Execution) (e : WorkerEvent) : Prop :=
  x.phase = .stopping .graceExpired → x.heartbeat = .running →
    e ≠ .heartbeat .raised ∧ e ≠ .heartbeat .cancelled

section
variable {x : Execution} {shutdownGrace : Int} {now : Instant}

theorem Counted.settle (h : x.settlements = []) (settlement : Settlement) :
    Counted (x.settle settlement) := by
  have hone : (x.settle settlement).settlements.length = 1 := by
    show (x.settlements ++ [_]).length = 1
    rw [h]
    rfl
  exact ⟨fun _ hphase => (nomatch hphase), fun _ hphase => (nomatch hphase),
    fun hphase => (nomatch hphase), Nat.le_of_eq hone, fun _ => .inl hone,
    fun hphase => (nomatch hphase)⟩

theorem Counted.close (h : Counted x)
    (hover : x.settlements.length = 1 ∨ x.cancelled = true ∨ x.heartbeatFailed = true) :
    Counted { x with phase := .closing } :=
  ⟨fun _ hphase => (nomatch hphase), fun _ hphase => (nomatch hphase),
    fun hphase => (nomatch hphase), h.atMostOne, fun _ => hover, fun hphase => (nomatch hphase)⟩

theorem Counted.stop (h : Counted x) {shutdownDeadline : Option Instant}
    (hphase : x.phase = .waiting shutdownDeadline) {reason : CancelReason}
    (hlost : reason = .leaseLost → x.heartbeatFailed = true)
    (hrequested : reason = .cancelRequested → x.heartbeat = .returned true) :
    Counted { x with phase := .stopping reason } := by
  refine ⟨fun _ h => (nomatch h), fun reason' hreason => ?_, fun _ hfailed => ?_, h.atMostOne, ?_,
    fun h => (nomatch h)⟩
  · obtain rfl := Phase.stopping.inj hreason
    exact ⟨h.waiting shutdownDeadline hphase, hlost, hrequested⟩
  · exact h.failure (by rw [hphase]; rfl) hfailed
  · rintro (h | h | h) <;> cases h

theorem Counted.withoutSignal (h : Counted x) {shutdownDeadline : Option Instant}
    (hphase : x.phase = .waiting shutdownDeadline) :
    Counted (x.withoutSignal shutdownGrace shutdownDeadline now) := by
  have hnone := h.waiting shutdownDeadline hphase
  have hwaits : Counted (if x.stopDone shutdownDeadline then
      { x with phase := .waiting (some (now + shutdownGrace)) } else x) := by
    split
    · refine ⟨fun _ _ => hnone, fun _ h => (nomatch h), fun _ hfailed => ?_, h.atMostOne, ?_,
        fun h => (nomatch h)⟩
      · exact h.failure (by rw [hphase]; rfl) hfailed
      · rintro (h | h | h) <;> cases h
    · exact h
  unfold Execution.withoutSignal
  split
  · exact .settle hnone _
  · exact hwaits
  · exact hwaits

theorem Counted.afterWait (h : Counted x) {shutdownDeadline : Option Instant}
    (hphase : x.phase = .waiting shutdownDeadline) :
    Counted (x.afterWait shutdownGrace shutdownDeadline now) := by
  have hopen : x.phase.awaitsHandler = true := by
    rw [hphase]
    rfl
  unfold Execution.afterWait
  split
  · split
    · exact h.stop hphase (fun h => (nomatch h)) (fun h => (nomatch h))
    · exact h
  · split
    · next hheartbeat =>
      refine h.stop hphase (fun _ => h.failure hopen ?_) (fun h => (nomatch h))
      rw [hheartbeat]
      rfl
    · next hheartbeat =>
      refine h.close (.inr (.inr (h.failure hopen ?_)))
      rw [hheartbeat]
      rfl
    · next hheartbeat => exact h.stop hphase (fun h => (nomatch h)) (fun _ => hheartbeat)
    · exact h.withoutSignal hphase
    · exact h.withoutSignal hphase
    · exact h.withoutSignal hphase

theorem Counted.afterStop (h : Counted x) {reason : CancelReason}
    (hphase : x.phase = .stopping reason) : Counted (x.afterStop reason) := by
  obtain ⟨hnone, hlost, -⟩ := h.stopping reason hphase
  unfold Execution.afterStop
  split
  · next hcancelled => exact h.close (.inr (.inl hcancelled))
  · cases reason with
    | graceExpired => exact .settle hnone _
    | leaseLost => exact h.close (.inr (.inr (hlost rfl)))
    | cancelRequested => exact .settle hnone _

theorem Counted.resume (h : Counted x) : Counted (x.resume shutdownGrace now) := by
  unfold Execution.resume
  split
  · next hphase => exact h.afterWait hphase
  · next hphase =>
    split
    · exact h
    · exact h.afterStop hphase
  · next hphase =>
    split
    · exact h
    · next hdone =>
      exact ⟨fun _ h => (nomatch h), fun _ h => (nomatch h), fun h => (nomatch h), h.atMostOne,
        fun _ => h.closed (.inr (.inl hphase)), fun _ hrunning => hdone (.inl hrunning)⟩
  · exact h
  · exact h

theorem Counted.step (h : Counted x) (e : WorkerEvent) : Counted (x.step shutdownGrace e) := by
  cases e with
  | handlerEnds result =>
    show Counted (ite _ _ _)
    split
    · exact { h with handler := fun _ hdone => nomatch hdone }
    · exact h
  | heartbeat answer =>
    show Counted (ite _ _ _)
    split
    · next hrunning =>
      -- what has failed stays failed, and a running heartbeat has not been told to cancel
      have hkept : x.heartbeatFailed = true →
          (x.heartbeatFailed || x.phase.awaitsHandler && answer.task.failed) = true := by
        intro hfailed
        rw [hfailed]
        rfl
      refine { h with
        stopping := fun reason hphase => ?_
        failure := fun hopen hfailed => ?_
        closed := fun hphase => ?_ }
      · obtain ⟨hnone, hlost, hrequested⟩ := h.stopping reason hphase
        refine ⟨hnone, fun hreason => hkept (hlost hreason), fun hreason => ?_⟩
        exact absurd (hrunning.symm.trans (hrequested hreason)) (by decide)
      · show (x.heartbeatFailed || x.phase.awaitsHandler && answer.task.failed) = true
        rw [show x.phase.awaitsHandler = true from hopen,
          show answer.task.failed = true from hfailed,
          Bool.true_and, Bool.or_true]
      · rcases h.closed hphase with hone | hcancelled | hfailed
        · exact .inl hone
        · exact .inr (.inl hcancelled)
        · exact .inr (.inr (hkept hfailed))
    · exact h
  | heartbeatDone =>
    show Counted (ite _ _ _)
    split
    · next hover =>
      obtain ⟨-, hclosing⟩ := hover
      refine { h with
        stopping := fun reason hphase => ?_
        failure := fun _ hfailed => nomatch hfailed }
      exact absurd (hclosing.symm.trans hphase) (fun h => nomatch h)
    · exact h
  | requestStop => exact { h with }
  | resume now => exact h.resume
  | answered =>
    show Counted (ite _ _ _)
    split
    · next hsettling => exact h.close (h.closed (.inl hsettling))
    · exact h
  | cancel =>
    dsimp only [Execution.step]
    split
    · exact ⟨fun _ h => (nomatch h), fun _ h => (nomatch h), fun h => (nomatch h), h.atMostOne,
        fun _ => .inr (.inl rfl), fun h => (nomatch h)⟩
    · exact { h with closed := fun _ => .inr (.inl rfl) }
    · exact { h with closed := fun _ => .inr (.inl rfl) }
    · exact { h with closed := fun _ => .inr (.inl rfl) }
    · exact h

theorem Counted.start (taskTypes : List String) (taskType : String) :
    Counted (start taskTypes taskType) := by
  unfold Execution.start
  split
  · exact .settle rfl _
  · refine ⟨fun _ _ => rfl, fun _ h => (nomatch h), fun _ h => (nomatch h), Nat.zero_le 1, ?_,
      fun h => (nomatch h)⟩
    rintro (h | h | h) <;> cases h

/-! ## Failed heartbeats -/

/-- No settlement has been made after a failure, and none is about to be. -/
structure Timely (x : Execution) : Prop where
  calls : ∀ call ∈ x.settlements, call.afterFailure = false
  grace : x.phase = .stopping .graceExpired → x.heartbeat.failed = false

/-- A settlement has been made after a failure, or will be unless the execution is cancelled. -/
def Untimely (x : Execution) : Prop :=
  x.cancelled = true ∨ (∃ call ∈ x.settlements, call.afterFailure = true)
    ∨ x.phase = .stopping .graceExpired ∧ x.heartbeat.failed = true

theorem Timely.settle (h : Timely x) (hfailed : x.heartbeat.failed = false)
    (settlement : Settlement) : Timely (x.settle settlement) := by
  refine ⟨fun call hcall => ?_, fun hphase => (nomatch hphase)⟩
  rcases List.mem_append.mp hcall with hold | hnew
  · exact h.calls call hold
  · rw [List.mem_singleton.mp hnew]
    exact hfailed

/-- Another phase than the one in question. -/
theorem Timely.move (h : Timely x) {phase : Phase} (hphase : phase ≠ .stopping .graceExpired) :
    Timely { x with phase } :=
  ⟨h.calls, fun hgrace => absurd hgrace hphase⟩

theorem Timely.withoutSignal (h : Timely x) (hfailed : x.heartbeat.failed = false)
    (shutdownDeadline : Option Instant) :
    Timely (x.withoutSignal shutdownGrace shutdownDeadline now) := by
  have hwaits : Timely (if x.stopDone shutdownDeadline then
      { x with phase := .waiting (some (now + shutdownGrace)) } else x) := by
    split
    · exact h.move (fun h => nomatch h)
    · exact h
  unfold Execution.withoutSignal
  split
  · exact h.settle hfailed _
  · exact hwaits
  · exact hwaits

theorem Timely.afterWait (h : Timely x) (shutdownDeadline : Option Instant) :
    Timely (x.afterWait shutdownGrace shutdownDeadline now) := by
  have hworks : ∀ heartbeat, heartbeat.failed = false → x.heartbeat = heartbeat →
      x.heartbeat.failed = false := by
    intro heartbeat hfailed heq
    rw [heq]
    exact hfailed
  unfold Execution.afterWait
  split
  · next hrunning =>
    split
    · exact ⟨h.calls, fun _ => hworks .running rfl hrunning.2.1⟩
    · exact h
  · split
    · exact h.move (fun h => nomatch h)
    · exact h.move (fun h => nomatch h)
    · exact h.move (fun h => nomatch h)
    · next hheartbeat => exact h.withoutSignal (hworks _ rfl hheartbeat) shutdownDeadline
    · next hheartbeat => exact h.withoutSignal (hworks _ rfl hheartbeat) shutdownDeadline
    · next hheartbeat => exact h.withoutSignal (hworks _ rfl hheartbeat) shutdownDeadline

theorem Timely.afterStop (h : Timely x) (hcounted : Counted x) {reason : CancelReason}
    (hphase : x.phase = .stopping reason) : Timely (x.afterStop reason) := by
  unfold Execution.afterStop
  split
  · exact h.move (fun h => nomatch h)
  · cases reason with
    | graceExpired => exact h.settle (h.grace hphase) _
    | leaseLost => exact h.move (fun h => nomatch h)
    | cancelRequested =>
      have hrequested := (hcounted.stopping _ hphase).2.2 rfl
      refine h.settle ?_ _
      rw [hrequested]
      rfl

theorem Timely.resume (h : Timely x) (hcounted : Counted x) :
    Timely (x.resume shutdownGrace now) := by
  unfold Execution.resume
  split
  · exact h.afterWait _
  · next hphase =>
    split
    · exact h
    · exact h.afterStop hcounted hphase
  · split
    · exact h
    · exact h.move (fun h => nomatch h)
  · exact h
  · exact h

theorem Timely.step (h : Timely x) (hcounted : Counted x) {e : WorkerEvent} (hin : InTime x e) :
    Timely (x.step shutdownGrace e) := by
  cases e with
  | handlerEnds result =>
    show Timely (ite _ _ _)
    split
    · exact { h with }
    · exact h
  | heartbeat answer =>
    show Timely (ite _ _ _)
    split
    · next hrunning =>
      refine { h with grace := fun hphase => ?_ }
      obtain ⟨hraised, hcancelled⟩ := hin hphase hrunning
      cases answer with
      | renewed => rfl
      | cancelRequested => rfl
      | raised => exact absurd rfl hraised
      | cancelled => exact absurd rfl hcancelled
    · exact h
  | heartbeatDone =>
    show Timely (ite _ _ _)
    split
    · exact { h with grace := fun _ => rfl }
    · exact h
  | requestStop => exact { h with }
  | resume now => exact h.resume hcounted
  | answered =>
    show Timely (ite _ _ _)
    split
    · exact h.move (fun h => nomatch h)
    · exact h
  | cancel =>
    dsimp only [Execution.step]
    split
    · exact ⟨h.calls, fun h => (nomatch h)⟩
    · exact { h with }
    · exact { h with }
    · exact { h with }
    · exact h

theorem Timely.start (taskTypes : List String) (taskType : String) :
    Timely (start taskTypes taskType) := by
  unfold Execution.start
  split
  · have hnone : Timely ⟨.settling, .absent, .absent, false, false, false, []⟩ :=
      ⟨fun _ h => (nomatch h), fun h => (nomatch h)⟩
    exact hnone.settle rfl _
  · exact ⟨fun _ h => (nomatch h), fun h => (nomatch h)⟩

/-- A settlement that is made stays made. -/
theorem settlements_initial (x : Execution) (e : WorkerEvent) :
    x.settlements <+: (x.step shutdownGrace e).settlements := by
  have hsettle : ∀ settlement, x.settlements <+: (x.settle settlement).settlements :=
    fun _ => List.prefix_append _ _
  cases e with
  | resume now =>
    dsimp only [Execution.step]
    unfold Execution.resume Execution.afterWait Execution.withoutSignal Execution.afterStop
    repeat' split
    all_goals first | exact List.prefix_rfl | exact hsettle _
  | cancel =>
    dsimp only [Execution.step]
    split <;> exact List.prefix_rfl
  | requestStop => exact List.prefix_rfl
  | handlerEnds | heartbeat | heartbeatDone | answered =>
    dsimp only [Execution.step]
    split <;> exact List.prefix_rfl

theorem cancelled_step (h : x.cancelled = true) (e : WorkerEvent) :
    (x.step shutdownGrace e).cancelled = true := by
  cases e with
  | resume now =>
    dsimp only [Execution.step]
    unfold Execution.resume Execution.afterWait Execution.withoutSignal Execution.afterStop
    repeat' split
    all_goals exact h
  | cancel =>
    dsimp only [Execution.step]
    split <;> first | exact h | rfl
  | requestStop => exact h
  | handlerEnds | heartbeat | heartbeatDone | answered =>
    dsimp only [Execution.step]
    split <;> exact h

theorem Untimely.step (h : Untimely x) (e : WorkerEvent) : Untimely (x.step shutdownGrace e) := by
  rcases h with hcancelled | ⟨call, hcall, hlate⟩ | ⟨hphase, hfailed⟩
  · exact .inl (cancelled_step hcancelled e)
  · exact .inr (.inl ⟨call, (settlements_initial x e).subset hcall, hlate⟩)
  · have hstays : Untimely x := .inr (.inr ⟨hphase, hfailed⟩)
    have hnot : x.heartbeat ≠ .running := by
      intro hrunning
      rw [hrunning] at hfailed
      cases hfailed
    cases e with
    | handlerEnds result =>
      show Untimely (ite _ _ _)
      split
      · exact .inr (.inr ⟨hphase, hfailed⟩)
      · exact hstays
    | heartbeat answer =>
      show Untimely (ite _ _ _)
      rw [if_neg hnot]
      exact hstays
    | heartbeatDone =>
      show Untimely (ite _ _ _)
      rw [if_neg fun hdone => hnot hdone.1]
      exact hstays
    | requestStop => exact .inr (.inr ⟨hphase, hfailed⟩)
    | resume now =>
      dsimp only [Execution.step]
      unfold Execution.resume
      rw [hphase]
      dsimp only
      split
      · exact hstays
      · unfold Execution.afterStop
        split
        · next hcancelled => exact .inl hcancelled
        · -- the settlement that comes too late
          exact .inr (.inl ⟨_, List.mem_append_right _ (List.mem_singleton_self _), hfailed⟩)
    | answered =>
      show Untimely (ite _ _ _)
      rw [if_neg fun hsettling => ?_]
      · exact hstays
      · rw [hphase] at hsettling
        cases hsettling
    | cancel =>
      dsimp only [Execution.step]
      rw [hphase]
      exact .inl rfl

theorem inTime_or_untimely (x : Execution) (e : WorkerEvent) :
    InTime x e ∨ Untimely (x.step shutdownGrace e) := by
  by_cases hin : InTime x e
  · exact .inl hin
  · unfold InTime at hin
    push Not at hin
    obtain ⟨hphase, hrunning, hfails⟩ := hin
    have hlate : e = .heartbeat .raised ∨ e = .heartbeat .cancelled := by
      by_cases hraised : e = .heartbeat .raised
      · exact .inl hraised
      · exact .inr (hfails hraised)
    rcases hlate with rfl | rfl
    · refine .inr (.inr (.inr ?_))
      dsimp only [Execution.step]
      rw [if_pos hrunning]
      exact ⟨hphase, rfl⟩
    · refine .inr (.inr (.inr ?_))
      dsimp only [Execution.step]
      rw [if_pos hrunning]
      exact ⟨hphase, rfl⟩

end

/-- One execution of a claimed task settles it as it is to be settled, if no heartbeat fails while a
handler is waited for whose grace has expired; one that ends on its own settles it so only then. -/
theorem execution_settles (shutdownGrace : Int) (taskTypes : List String) (taskType : String)
    (es : List WorkerEvent) :
    let x := Transition.run (step shutdownGrace) (start taskTypes taskType) es
    (Transition.Along InTime (step shutdownGrace) (start taskTypes taskType) es → SettledOnce x)
    ∧ (x.phase = .ended → x.cancelled = false →
        (SettledOnce x
          ↔ Transition.Along InTime (step shutdownGrace) (start taskTypes taskType) es)) := by
  intro x
  have hcounted : Counted x :=
    Transition.invariant_run (fun _ e h => h.step e) (.start taskTypes taskType) es
  have hsettles : Transition.Along InTime (step shutdownGrace) (start taskTypes taskType) es →
      SettledOnce x := by
    intro hin
    have hstep : ∀ x e, Counted x ∧ Timely x → InTime x e →
        Counted (step shutdownGrace x e) ∧ Timely (step shutdownGrace x e) :=
      fun _ e h hok => ⟨h.1.step e, h.2.step h.1 hok⟩
    have hboth : Counted x ∧ Timely x := Transition.invariant_along hstep
      ⟨Counted.start taskTypes taskType, Timely.start taskTypes taskType⟩ hin
    refine ⟨hcounted.atMostOne, hboth.2.calls, hcounted.handler, fun hended hkept hworks => ?_⟩
    rcases hcounted.closed (.inr (.inr hended)) with hone | hcancelled | hfailed
    · exact hone
    · exact absurd hcancelled (by rw [hkept]; decide)
    · exact absurd hfailed (by rw [hworks]; decide)
  refine ⟨hsettles, fun hended hkept => ⟨fun hsettled => ?_, hsettles⟩⟩
  have hcaught : Transition.Along InTime (step shutdownGrace) (start taskTypes taskType) es
      ∨ Untimely x :=
    Transition.along_or_trapped (fun _ e h => h.step e) (fun x e => inTime_or_untimely x e) _ es
  rcases hcaught with hin | hcancelled | ⟨call, hcall, hlate⟩ | ⟨hphase, -⟩
  · exact hin
  · exact absurd hcancelled (by rw [hkept]; decide)
  · exact absurd hlate (by rw [hsettled.inTime call hcall]; decide)
  · exact absurd (hended.symm.trans hphase) (fun h => nomatch h)

/-- Its grace has expired, and a heartbeat fails before the handler has ended. -/
def lateFailure : List WorkerEvent :=
  [.requestStop, .resume 0, .resume 30000000, .heartbeat .raised, .handlerEnds .cancelled,
    .resume 30000001, .answered, .resume 30000002]

theorem settled_after_failure :
    ¬ ∀ (shutdownGrace : Int) (taskTypes : List String) (taskType : String) (es : List WorkerEvent),
      SettledOnce (Transition.run (step shutdownGrace) (start taskTypes taskType) es) := by
  intro hsettles
  have hcalls : (Transition.run (step 30000000) (start ["qa.import.validate"] "qa.import.validate")
      lateFailure).settlements = [⟨.fail "worker_shutdown" true, true⟩] := by decide
  have htime := (hsettles 30000000 ["qa.import.validate"] "qa.import.validate" lateFailure).inTime
  rw [hcalls] at htime
  exact absurd (htime _ (List.mem_singleton_self _)) (by decide)

end Execution

end QaPlatform.Worker
