import QaPlatform.Runtime.Schedules
import QaPlatform.Runtime.TaskSteps

/-!
# What the scheduler does to the rows

Inversions of the scheduler's methods. A round of T2's loops finds the fire of its
instant there already, or records one that was skipped, or enqueues a task and
records the fire that points at it (`FireStep`); everything T2 does after its
compare-and-set is a sequence of such rounds.
-/

namespace QaPlatform.Runtime

open Automation (TaskStatus ScheduleFireStatus)

theorem requireSchedule_eq_ok {s : ScheduleStore} {scheduleId : Uuid} {r : ScheduleRecord} :
    s.requireSchedule scheduleId = .ok r ↔ s.schedules.get? scheduleId = some r :=
  demand_eq_ok

theorem asBusiness_eq_ok {x : Except Automation.AutomationValidationError α} {a : α} :
    asBusiness x = .ok a ↔ x = .ok a := by
  cases x with
  | error e => simp [asBusiness, Except.mapError]
  | ok b => simp [asBusiness, Except.mapError]

/-- The plan's next instant is the next fire time after the time the plan was made for. -/
theorem cronDuePlan_next {zones : Automation.Zones} {expression : Automation.CronExpression}
    {firstDue now : Instant} {timezoneName : String} {policy : Automation.MisfirePolicy}
    {misfireGraceSeconds catchUpLimit : Nat} {plan : CronDuePlan}
    (h : cronDuePlan zones expression firstDue now timezoneName policy misfireGraceSeconds
      catchUpLimit = .ok plan) : expression.nextAfter zones now timezoneName
      = .ok plan.nextRunAt := by
  unfold cronDuePlan at h
  obtain ⟨latest, -, h⟩ := bind_eq_ok.mp h
  obtain ⟨nextRun, hnext, h⟩ := bind_eq_ok.mp h
  have hlater := asBusiness_eq_ok.mp hnext
  obtain ⟨-, h⟩ := refuse_bind_eq_ok.mp h
  cases policy with
  | fireOnce =>
    obtain rfl := pure_eq_ok.mp h
    exact hlater
  | catchUpLimited =>
    obtain ⟨selected, -, h⟩ := bind_eq_ok.mp h
    obtain rfl := pure_eq_ok.mp h
    exact hlater
  | skip =>
    obtain ⟨start, -, h⟩ := bind_eq_ok.mp h
    obtain ⟨selected, -, h⟩ := bind_eq_ok.mp h
    split at h
    · obtain ⟨representative, -, h⟩ := bind_eq_ok.mp h
      obtain rfl := pure_eq_ok.mp h
      exact hlater
    · obtain rfl := pure_eq_ok.mp h
      exact hlater

theorem ClaimedSchedule.duePlan_next {schedule : ClaimedSchedule} {zones : Automation.Zones}
    {plan : CronDuePlan} (h : schedule.duePlan zones = .ok plan) :
    ∃ expression, parseCron schedule.cron = .ok expression
      ∧ expression.nextAfter zones schedule.claimedAt schedule.timezone = .ok plan.nextRunAt := by
  obtain ⟨expression, hparse, hplan⟩ := bind_eq_ok.mp h
  exact ⟨expression, hparse, cronDuePlan_next hplan⟩

theorem ClaimedSchedule.duePlan_lt {schedule : ClaimedSchedule} {zones : Automation.Zones}
    {plan : CronDuePlan} (h : schedule.duePlan zones = .ok plan) :
    schedule.claimedAt < plan.nextRunAt := by
  obtain ⟨expression, -, hnext⟩ := duePlan_next h
  exact Automation.CronExpression.lt_nextAfter hnext

/-- The row that a fire inserts. -/
def fireRow (scheduleId : Uuid) (fireKey : String) (scheduledFor : Instant)
    (status : ScheduleFireStatus) (taskId : Option Uuid) (now : Instant) (id : Uuid) :
    ScheduleFireRecord where
  id := id
  scheduleId := scheduleId
  fireKey := fireKey
  scheduledFor := scheduledFor
  status := status
  taskId := taskId
  createdAt := now

@[simp] theorem key_fireRow (scheduleId : Uuid) (fireKey : String) (scheduledFor : Instant)
    (status : ScheduleFireStatus) (taskId : Option Uuid) (now : Instant) (id : Uuid) :
    key (fireRow scheduleId fireKey scheduledFor status taskId now id) = id := rfl

namespace ScheduleStore

variable {setup : Setup} {schedule : ClaimedSchedule} {now : Instant} {s s' : ScheduleStore}

/-- The fires with one more. -/
def fired (s : ScheduleStore) (scheduleId : Uuid) (fireKey : String) (scheduledFor : Instant)
    (status : ScheduleFireStatus) (taskId : Option Uuid) (now : Instant) :
    Table ScheduleFireRecord :=
  s.fires.add (fireRow scheduleId fireKey scheduledFor status taskId now)
    (key_fireRow scheduleId fireKey scheduledFor status taskId now)

theorem mem_fired {scheduleId : Uuid} {fireKey : String} {scheduledFor : Instant}
    {status : ScheduleFireStatus} {taskId : Option Uuid} {fire : ScheduleFireRecord} :
    fire ∈ (s.fired scheduleId fireKey scheduledFor status taskId now).rows ↔
      fire ∈ s.fires.rows
        ∨ fire = fireRow scheduleId fireKey scheduledFor status taskId now s.fires.next := by
  simp [fired, Table.add]

theorem addFire_eq_ok {scheduleId : Uuid} {fireKey : String} {scheduledFor : Instant}
    {status : ScheduleFireStatus} {taskId : Option Uuid} {fire : ScheduleFireRecord} :
    s.addFire scheduleId fireKey scheduledFor status taskId now = .ok (s', fire) ↔
      ¬ s.HasFire scheduleId fireKey
        ∧ s' = { s with fires := s.fired scheduleId fireKey scheduledFor status taskId now }
        ∧ fire = fireRow scheduleId fireKey scheduledFor status taskId now s.fires.next := by
  unfold addFire
  rw [refuse_bind_eq_ok, pure_eq_ok, Prod.mk.injEq]
  exact and_congr_right fun _ => and_congr eq_comm eq_comm

/-- What a round of T2's loops does. -/
inductive FireStep (setup : Setup) (schedule : ClaimedSchedule) (now : Instant)
    (s : ScheduleStore) (instant : Instant) : ScheduleStore → Prop
  | present (h : s.HasFire schedule.id (setup.render.cronFireKey instant)) :
      FireStep setup schedule now s instant s
  | skipped (status : ScheduleFireStatus)
      (h : ¬ s.HasFire schedule.id (setup.render.cronFireKey instant)) :
      FireStep setup schedule now s instant
        { s with
          fires := s.fired schedule.id (setup.render.cronFireKey instant) instant status none now }
  | enqueued (queue queue' : TaskStore) (task : AutomationTaskRecord) (replayed : Bool)
      (h : ¬ s.HasFire schedule.id (setup.render.cronFireKey instant))
      (hreplaced : TaskStore.Writes (fun _ => False) now s.queue queue)
      (henqueued : queue.enqueueRecord setup.taskTypes setup.render
        (fireRequest setup.render schedule instant) (some schedule.id) now
          = .ok (queue', task, replayed)) :
      FireStep setup schedule now s instant
        { s with
          queue := queue'
          fires := s.fired schedule.id (setup.render.cronFireKey instant) instant .enqueued
            (some task.id) now }

theorem createFireIfAbsent_ok {status : ScheduleFireStatus} {instant : Instant}
    {fire : Option ScheduleFireRecord}
    (h : createFireIfAbsent setup.render schedule.id status now s instant = .ok (s', fire)) :
    FireStep setup schedule now s instant s' := by
  unfold createFireIfAbsent at h
  split at h
  · next hfire =>
    obtain ⟨rfl, -⟩ := Prod.mk.inj (pure_eq_ok.mp h)
    exact .present hfire
  · next hfire =>
    obtain ⟨⟨s₁, fire₁⟩, hadd, h⟩ := bind_eq_ok.mp h
    obtain ⟨-, rfl, -⟩ := addFire_eq_ok.mp hadd
    obtain ⟨rfl, -⟩ := Prod.mk.inj (pure_eq_ok.mp h)
    exact .skipped status hfire

/-- The write of `replace` to one active row. -/
theorem replaceTask_write {queue : TaskStore} {t : AutomationTaskRecord}
    (ht : queue.tasks.get? t.id = some t)
    (hactive : t.status = .queued ∨ t.status = .running ∨ t.status = .retryWait)
    {ok : TaskEnqueue → Prop} : TaskStore.Write ok now queue (replaceTask now queue t) := by
  unfold replaceTask
  dsimp only
  split
  · next hrunning =>
    refine .move ht (.replaced ?_)
    rcases hactive with hs | hs | hs
    · exact .inl hs
    · exact absurd hs hrunning
    · exact .inr hs
  · next hrunning => exact .move ht (.cancelAsked (not_not.mp hrunning))

theorem replaceTask_get? {queue : TaskStore} {t : AutomationTaskRecord} {k : Uuid}
    (hk : t.id ≠ k) : (replaceTask now queue t).tasks.get? k = queue.tasks.get? k := by
  unfold replaceTask
  dsimp only
  split
  · exact Table.get?_put_of_ne hk
  · exact Table.get?_put_of_ne hk

/-- `replace` goes through the active rows, each as the query has found it. -/
theorem foldl_replaceTask_writes (active : List AutomationTaskRecord)
    (hnodup : (active.map AutomationTaskRecord.id).Nodup) {queue : TaskStore}
    (hactive : ∀ t ∈ active, queue.tasks.get? t.id = some t
      ∧ (t.status = .queued ∨ t.status = .running ∨ t.status = .retryWait))
    {ok : TaskEnqueue → Prop} :
    TaskStore.Writes ok now queue (active.foldl (replaceTask now) queue) := by
  induction active generalizing queue with
  | nil => exact .refl
  | cons t active ih =>
    obtain ⟨ht, hstatus⟩ := hactive t List.mem_cons_self
    rw [List.map_cons, List.nodup_cons] at hnodup
    refine .head (replaceTask_write ht hstatus) (ih hnodup.2 fun t' ht' => ?_)
    have hne : t.id ≠ t'.id := fun he => hnodup.1 (he ▸ List.mem_map_of_mem ht')
    rw [replaceTask_get? hne]
    exact hactive t' (List.mem_cons_of_mem t ht')

theorem activeForSchedule_writes (s : ScheduleStore) (scheduleId : Uuid) (now : Instant)
    {ok : TaskEnqueue → Prop} :
    TaskStore.Writes ok now s.queue
      ((s.activeForSchedule scheduleId).foldl (replaceTask now) s.queue) := by
  refine foldl_replaceTask_writes _ ?_ fun t ht => ?_
  · exact s.queue.tasks.nodup.sublist (List.filter_sublist.map AutomationTaskRecord.id)
  · have hmem := List.mem_filter.mp ht
    exact ⟨Table.get?_key hmem.1, (of_decide_eq_true hmem.2).2⟩

theorem fireInstant_ok {instant : Instant} {fire : Option ScheduleFireRecord}
    (h : fireInstant setup schedule now s instant = .ok (s', fire)) :
    FireStep setup schedule now s instant s' := by
  unfold fireInstant at h
  split at h
  · next hfire =>
    obtain ⟨rfl, -⟩ := Prod.mk.inj (pure_eq_ok.mp h)
    exact .present hfire
  · next hfire =>
    dsimp only at h
    split at h
    · exact createFireIfAbsent_ok h
    · obtain ⟨⟨queue', task, replayed⟩, henqueued, h⟩ := bind_eq_ok.mp h
      obtain ⟨⟨s₁, fire₁⟩, hadd, h⟩ := bind_eq_ok.mp h
      obtain ⟨-, rfl, -⟩ := addFire_eq_ok.mp hadd
      obtain ⟨rfl, -⟩ := Prod.mk.inj (pure_eq_ok.mp h)
      refine .enqueued _ queue' task replayed hfire ?_ henqueued
      split
      · exact s.activeForSchedule_writes schedule.id now
      · exact .refl

/-- The rounds of T2. -/
abbrev FireSteps (setup : Setup) (schedule : ClaimedSchedule) (now : Instant) :
    ScheduleStore → ScheduleStore → Prop :=
  Relation.ReflTransGen fun s s' => ∃ instant, FireStep setup schedule now s instant s'

theorem fireAll_ok {one : ScheduleStore → Instant →
      Except DomainError (ScheduleStore × Option ScheduleFireRecord)}
    (hone : ∀ {s s' : ScheduleStore} {instant : Instant} {fire : Option ScheduleFireRecord},
      one s instant = .ok (s', fire) → FireStep setup schedule now s instant s')
    {instants : List Instant} {created : List ScheduleFireRecord}
    (h : fireAll one s instants = .ok (s', created)) : FireSteps setup schedule now s s' := by
  induction instants generalizing s created with
  | nil =>
    obtain ⟨rfl, -⟩ := Prod.mk.inj (pure_eq_ok.mp h)
    exact .refl
  | cons instant instants ih =>
    unfold fireAll at h
    obtain ⟨⟨s₁, fire⟩, hfirst, h⟩ := bind_eq_ok.mp h
    obtain ⟨⟨s₂, created₂⟩, hrest, h⟩ := bind_eq_ok.mp h
    obtain ⟨rfl, -⟩ := Prod.mk.inj (pure_eq_ok.mp h)
    exact .head ⟨instant, hone hfirst⟩ (ih hrest)

/-- The row that T2's UPDATE finds. -/
def finalizable (s : ScheduleStore) (schedule : ClaimedSchedule) (cutoff : Instant) :
    Option ScheduleRecord :=
  (s.schedules.get? schedule.id).filter fun r => Finalizable schedule cutoff r

/-- T2 that finds no row gives up its claim and writes nothing else; the one that
finds its row is that row's update and the rounds after it. -/
theorem finalizeScheduleClaim_ok {plan : CronDuePlan} {cutoff : Instant}
    {created : List ScheduleFireRecord}
    (h : s.finalizeScheduleClaim setup schedule plan now cutoff = .ok (s', created)) :
    (s.finalizable schedule cutoff = none ∧ s' = s.releaseScheduleClaim schedule ∧ created = [])
    ∨ ∃ r, s.finalizable schedule cutoff = some r
      ∧ FireSteps setup schedule now
        { s with schedules := s.schedules.put (finalizedRow plan now r) } s' := by
  unfold finalizeScheduleClaim at h
  split at h
  · next hnone =>
    obtain ⟨rfl, rfl⟩ := Prod.mk.inj (pure_eq_ok.mp h)
    exact .inl ⟨hnone, rfl, rfl⟩
  · next r hsome =>
    dsimp only at h
    obtain ⟨⟨s₁, skipped⟩, hskipped, h⟩ := bind_eq_ok.mp h
    obtain ⟨⟨s₂, selected⟩, hselected, h⟩ := bind_eq_ok.mp h
    obtain ⟨rfl, -⟩ := Prod.mk.inj (pure_eq_ok.mp h)
    refine .inr ⟨r, hsome, ?_⟩
    exact (fireAll_ok createFireIfAbsent_ok hskipped).trans (fireAll_ok fireInstant_ok hselected)

theorem finalizable_eq_some {cutoff : Instant} {r : ScheduleRecord} :
    s.finalizable schedule cutoff = some r ↔
      s.schedules.get? schedule.id = some r ∧ Finalizable schedule cutoff r := by
  simp [finalizable, Option.filter_eq_some_iff]

/-- Rounds leave the schedules alone. -/
theorem FireSteps.schedules_eq (h : FireSteps setup schedule now s s') :
    s'.schedules = s.schedules := by
  induction h with
  | refl => rfl
  | tail _ hround ih =>
    obtain ⟨instant, hround⟩ := hround
    cases hround with
    | present => exact ih
    | skipped => exact ih
    | enqueued => exact ih

/-- The claimable row that T1 takes, if there is one. -/
theorem claimDueSchedule_some {schedulerId claimToken : String} {leaseSeconds : Int}
    {fallbackNow : Option Instant} {excludedIds skipped : List Uuid} {claim : ClaimedSchedule}
    (h : s.claimDueSchedule setup schedulerId leaseSeconds fallbackNow excludedIds claimToken now
      skipped = (s', some claim)) :
    ∃ dueAt r, s.schedules.get? r.id = some r ∧ Claimable now dueAt excludedIds r
      ∧ claim = claimOf schedulerId claimToken dueAt r
      ∧ s' = { s with
          schedules := s.schedules.put
            (claimedRow schedulerId claimToken leaseSeconds now r) } := by
  unfold claimDueSchedule at h
  dsimp only at h
  split at h
  · simp at h
  · next r hr =>
    obtain ⟨rfl, hclaim⟩ := Prod.mk.inj h
    have hmem := List.mem_filter.mp (mem_of_firstBy hr)
    exact ⟨_, r, Table.get?_key hmem.1, (of_decide_eq_true hmem.2).1,
      (Option.some.inj hclaim).symm, rfl⟩

theorem claimDueSchedule_none {schedulerId claimToken : String} {leaseSeconds : Int}
    {fallbackNow : Option Instant} {excludedIds skipped : List Uuid}
    (h : s.claimDueSchedule setup schedulerId leaseSeconds fallbackNow excludedIds claimToken now
      skipped = (s', none)) : s' = s := by
  unfold claimDueSchedule at h
  dsimp only at h
  split at h
  · exact (Prod.mk.inj h).1.symm
  · simp at h

/-- A claim is taken at or after the instant it is for. -/
theorem claimOf_due (schedulerId claimToken : String) {dueAt : Instant} {excludedIds : List Uuid}
    {r : ScheduleRecord} (h : Claimable now dueAt excludedIds r) :
    r.nextRunAt = some (claimOf schedulerId claimToken dueAt r).firstDue
      ∧ (claimOf schedulerId claimToken dueAt r).firstDue
        ≤ (claimOf schedulerId claimToken dueAt r).claimedAt := by
  cases hnext : r.nextRunAt with
  | none => simp [Claimable, hnext] at h
  | some due =>
    have hdue : due ≤ dueAt := by simpa [Claimable, hnext] using h.2.1
    simpa [claimOf, hnext] using hdue

end ScheduleStore

end QaPlatform.Runtime
