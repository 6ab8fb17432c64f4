import QaPlatform.Runtime.SchedulerSystem

/-!
# What becomes of the queue

Whatever schedulers, users and workers do, the queue changes by row writes and by
leases given out. An invariant of the queue that these keep holds in every state of
the whole system.
-/

namespace QaPlatform.Runtime

/-- A row write, or a lease given out. -/
inductive QueueStep (s : TaskStore) : TaskStore → Prop
  | write {now : Instant} {s' : TaskStore} (h : TaskStore.Write (fun _ => True) now s s') :
      QueueStep s s'
  | lease {queues : List String} {now : Instant} {t : AutomationTaskRecord}
      (workerId token : String) (leaseSeconds : Int) (ht : s.tasks.get? t.id = some t)
      (hclaimable : TaskStore.claimable queues now t) :
      QueueStep s { s with tasks := s.tasks.put (t.claimed workerId token leaseSeconds now) }

/-- Any number of steps. -/
abbrev QueueSteps : TaskStore → TaskStore → Prop := Relation.ReflTransGen QueueStep

/-- The run lemma of the queue. -/
theorem QueueSteps.invariant {I : TaskStore → Prop}
    (hstep : ∀ {s s'}, QueueStep s s' → I s → I s') {s s' : TaskStore} (h : QueueSteps s s')
    (hs : I s) : I s' := by
  induction h with
  | refl => exact hs
  | tail _ hlast ih => exact hstep hlast ih

namespace TaskStore

variable {now : Instant} {s s' : TaskStore}

theorem Write.weaken {ok : TaskEnqueue → Prop} (h : Write ok now s s') :
    Write (fun _ => True) now s s' := by
  cases h with
  | move ht hmove => exact .move ht hmove
  | wait ht hwait hnew => exact .wait ht hwait hnew
  | insert payload fingerprint source _ hnew =>
    exact .insert payload fingerprint source trivial hnew

theorem Writes.queueSteps {ok : TaskEnqueue → Prop} (h : Writes ok now s s') : QueueSteps s s' := by
  induction h with
  | refl => exact .refl
  | tail _ hwrite ih => exact ih.tail (.write hwrite.weaken)

theorem call_queueSteps {taskTypes : List String} {render : Rendering} {c : Call}
    (h : s.call taskTypes render now c = .ok s') : QueueSteps s s' := by
  have hany : c.Enqueues fun _ => True := fun _ _ => trivial
  rcases call_cases hany h with ⟨hwrites, -⟩ | ⟨s₁, hwrites, hclaims⟩
  · exact hwrites.queueSteps
  · cases hclaims with
    | none _ _ _ _ _ _ hsame =>
      subst hsame
      exact hwrites.queueSteps
    | some workerId _ leaseSeconds token _ t _ ht hclaimable hput =>
      subst hput
      exact hwrites.queueSteps.tail (.lease workerId token leaseSeconds ht hclaimable)

end TaskStore

namespace ScheduleStore

variable {setup : Setup} {schedule : ClaimedSchedule} {now : Instant} {s s' : ScheduleStore}

theorem FireStep.queueSteps {instant : Instant} (h : FireStep setup schedule now s instant s') :
    QueueSteps s.queue s'.queue := by
  cases h with
  | present => exact .refl
  | skipped => exact .refl
  | enqueued queue queue' task replayed hnew hreplaced henqueued =>
    have hwrites : TaskStore.Writes (fun _ => True) now queue queue' :=
      TaskStore.enqueueRecord_writes trivial henqueued
    exact hreplaced.queueSteps.trans hwrites.queueSteps

theorem FireSteps.queueSteps (h : FireSteps setup schedule now s s') :
    QueueSteps s.queue s'.queue := by
  induction h with
  | refl => exact .refl
  | tail _ hround ih =>
    obtain ⟨instant, hround⟩ := hround
    exact ih.trans hround.queueSteps

theorem releaseScheduleClaim_queue (s : ScheduleStore) (schedule : ClaimedSchedule) :
    (s.releaseScheduleClaim schedule).queue = s.queue := by
  unfold releaseScheduleClaim
  split
  · rfl
  · rfl

theorem finalizeScheduleClaim_queueSteps {plan : CronDuePlan} {cutoff : Instant}
    {created : List ScheduleFireRecord}
    (h : s.finalizeScheduleClaim setup schedule plan now cutoff = .ok (s', created)) :
    QueueSteps s.queue s'.queue := by
  rcases finalizeScheduleClaim_ok h with ⟨-, rfl, -⟩ | ⟨r, -, hrounds⟩
  · rw [releaseScheduleClaim_queue]
  · exact hrounds.queueSteps

theorem runScheduleNow_queueSteps {scheduleId : Uuid} {fire : ScheduleFireRecord}
    (h : s.runScheduleNow setup scheduleId now = .ok (s', fire)) :
    QueueSteps s.queue s'.queue := by
  unfold runScheduleNow at h
  obtain ⟨r, -, h⟩ := bind_eq_ok.mp h
  obtain ⟨⟨queue, task, replayed⟩, henqueued, hfire⟩ := bind_eq_ok.mp h
  obtain ⟨-, rfl, -⟩ := addFire_eq_ok.mp hfire
  have hwrites : TaskStore.Writes (fun _ => True) now s.queue queue :=
    TaskStore.enqueueRecord_writes trivial henqueued
  exact hwrites.queueSteps

theorem createSchedule_queue {payload : ScheduleCreate} {r : ScheduleRecord}
    (h : s.createSchedule setup payload now = .ok (s', r)) : s'.queue = s.queue := by
  unfold createSchedule at h
  obtain ⟨-, h⟩ := refuse_bind_eq_ok.mp h
  obtain ⟨-, -, h⟩ := bind_eq_ok.mp h
  obtain ⟨-, h⟩ := refuse_bind_eq_ok.mp h
  obtain ⟨expression, -, h⟩ := bind_eq_ok.mp h
  obtain ⟨nextRun, -, h⟩ := bind_eq_ok.mp h
  obtain ⟨-, h⟩ := refuse_bind_eq_ok.mp h
  obtain ⟨rfl, -⟩ := Prod.mk.inj (pure_eq_ok.mp h)
  rfl

theorem updateSchedule_queue {scheduleId : Uuid} {payload : SchedulePatch} {r : ScheduleRecord}
    (h : s.updateSchedule setup scheduleId payload now = .ok (s', r)) : s'.queue = s.queue := by
  unfold updateSchedule at h
  obtain ⟨r₀, -, h⟩ := bind_eq_ok.mp h
  obtain ⟨-, h⟩ := refuse_bind_eq_ok.mp h
  obtain ⟨-, h⟩ := refuse_bind_eq_ok.mp h
  obtain ⟨-, -, h⟩ := bind_eq_ok.mp h
  obtain ⟨expression, -, h⟩ := bind_eq_ok.mp h
  obtain ⟨nextRunAt, -, h⟩ := bind_eq_ok.mp h
  obtain ⟨-, h⟩ := refuse_bind_eq_ok.mp h
  obtain ⟨rfl, -⟩ := Prod.mk.inj (pure_eq_ok.mp h)
  rfl

theorem deleteSchedule_queue {scheduleId : Uuid} (h : s.deleteSchedule scheduleId = .ok s') :
    s'.queue = s.queue := by
  unfold deleteSchedule at h
  obtain ⟨r, -, h⟩ := bind_eq_ok.mp h
  obtain ⟨-, h⟩ := refuse_bind_eq_ok.mp h
  obtain ⟨-, h⟩ := refuse_bind_eq_ok.mp h
  obtain rfl := pure_eq_ok.mp h
  rfl

theorem claimDueSchedule_queue {schedulerId claimToken : String} {leaseSeconds : Int}
    {fallbackNow : Option Instant} {excludedIds skipped : List Uuid}
    {claim : Option ClaimedSchedule}
    (h : s.claimDueSchedule setup schedulerId leaseSeconds fallbackNow excludedIds claimToken now
      skipped = (s', claim)) : s'.queue = s.queue := by
  cases claim with
  | none =>
    obtain rfl := claimDueSchedule_none h
    rfl
  | some claim =>
    obtain ⟨dueAt, r, -, -, -, rfl⟩ := claimDueSchedule_some h
    rfl

end ScheduleStore

namespace SchedulerSystem

variable {setup : Setup} {s : SchedulerSystem}

theorem commit_queueSteps {x : Except DomainError ScheduleStore}
    (hx : ∀ store, x = .ok store → QueueSteps s.store.queue store.queue) :
    QueueSteps s.store.queue (s.commit x).store.queue := by
  cases x with
  | error error => exact .refl
  | ok store => exact hx store rfl

/-- Every event of the scheduler's system is a sequence of steps of the queue. -/
theorem step_queueSteps (setup : Setup) (s : SchedulerSystem) (e : SchedulerEvent) :
    QueueSteps s.store.queue (s.step setup e).store.queue := by
  cases e with
  | queue now call =>
    refine commit_queueSteps fun store hok => ?_
    obtain ⟨queue, hcall, rfl⟩ := map_eq_ok.mp hok
    exact TaskStore.call_queueSteps hcall
  | createSchedule now payload =>
    refine commit_queueSteps fun store hok => ?_
    obtain ⟨⟨store', r⟩, hcreate, rfl⟩ := map_eq_ok.mp hok
    rw [ScheduleStore.createSchedule_queue hcreate]
  | updateSchedule now scheduleId payload =>
    refine commit_queueSteps fun store hok => ?_
    obtain ⟨⟨store', r'⟩, hupdate, rfl⟩ := map_eq_ok.mp hok
    rw [ScheduleStore.updateSchedule_queue hupdate]
  | deleteSchedule scheduleId =>
    refine commit_queueSteps fun store hok => ?_
    rw [ScheduleStore.deleteSchedule_queue hok]
  | runScheduleNow now scheduleId =>
    refine commit_queueSteps fun store hok => ?_
    obtain ⟨⟨store', fire⟩, hrun, rfl⟩ := map_eq_ok.mp hok
    exact ScheduleStore.runScheduleNow_queueSteps hrun
  | claim now schedulerId leaseSeconds fallbackNow excludedIds claimToken skipped =>
    have hsame : (s.claimDispatch setup now schedulerId leaseSeconds fallbackNow excludedIds
        claimToken skipped).store.queue = s.store.queue :=
      ScheduleStore.claimDueSchedule_queue rfl
    show QueueSteps s.store.queue (s.claimDispatch setup now schedulerId leaseSeconds fallbackNow
      excludedIds claimToken skipped).store.queue
    rw [hsame]
  | plan p =>
    refine withDispatch_cases (P := fun s' => QueueSteps s.store.queue s'.store.queue) .refl
      fun d hd => ?_
    unfold planDispatch
    split
    · exact .refl
    · exact .refl
  | finalize p now cutoff =>
    refine withDispatch_cases (P := fun s' => QueueSteps s.store.queue s'.store.queue) .refl
      fun d hd => ?_
    unfold finalizeDispatch
    split
    · refine commit_queueSteps fun store hok => ?_
      obtain ⟨⟨store', created⟩, hfinalize, rfl⟩ := map_eq_ok.mp hok
      exact ScheduleStore.finalizeScheduleClaim_queueSteps hfinalize
    · exact .refl
    · exact .refl
  | abandon p =>
    refine withDispatch_cases (P := fun s' => QueueSteps s.store.queue s'.store.queue) .refl
      fun d hd => ?_
    unfold abandonDispatch
    split
    · show QueueSteps s.store.queue (s.store.releaseScheduleClaim d.claim).queue
      rw [ScheduleStore.releaseScheduleClaim_queue]
    · exact .refl
    · exact .refl

end SchedulerSystem

end QaPlatform.Runtime
