import QaPlatform.Base.Delimited
import QaPlatform.Base.Transition
import QaPlatform.Runtime.CronFiring

/-!
# The keys of the scheduler's tasks

Users and schedules share one index of idempotency keys. The request documents that
the keys are bound to name the schedule, so T2 never takes somebody else's task for
its own; but a task that has the key already makes T2 raise, and anybody may have
put it there.
-/

namespace QaPlatform.Runtime

/-! ## Keys and documents -/

/-- What the texts of identifiers are relied on for. -/
structure Rendering.Faithful (render : Rendering) : Prop where
  uuid_inj : ∀ u v, render.uuid u = render.uuid v → u = v
  uuid_colon : ∀ u, ':' ∉ (render.uuid u).toList

namespace Rendering

variable {render : Rendering}

theorem isoformat_eq_of_cronFireKey {i j : Instant}
    (h : render.cronFireKey i = render.cronFireKey j) :
    render.isoformat i = render.isoformat j :=
  (String.append_right_inj "cron:").mp h

theorem toList_colon (p a b : String) :
    (p ++ a ++ ":" ++ b).toList = p.toList ++ (a.toList ++ ':' :: b.toList) := by
  have hcolon : ":".toList = [':'] := by decide
  simp only [String.toList_append, List.append_assoc, hcolon, List.singleton_append]

theorem toList_scheduleKey (k : Uuid) (i : Instant) :
    (render.scheduleKey k i).toList
      = "schedule:".toList ++ ((render.uuid k).toList ++ ':' :: (render.isoformat i).toList) :=
  toList_colon _ _ _

theorem toList_manualKey (k f : Uuid) :
    (render.manualKey k f).toList
      = "schedule-manual:".toList ++ ((render.uuid k).toList ++ ':' :: (render.uuid f).toList) :=
  toList_colon _ _ _

/-- A key tells the schedule and the text of the instant. -/
theorem Faithful.scheduleKey_inj (h : render.Faithful) {k k' : Uuid} {i i' : Instant}
    (heq : render.scheduleKey k i = render.scheduleKey k' i') :
    k = k' ∧ render.isoformat i = render.isoformat i' := by
  have htexts := congrArg String.toList heq
  rw [toList_scheduleKey, toList_scheduleKey] at htexts
  obtain ⟨huuid, hiso⟩ := Delimited.eq_of_append_cons (h.uuid_colon k) (h.uuid_colon k')
    (List.append_cancel_left htexts)
  exact ⟨h.uuid_inj k k' (String.toList_injective huuid), String.toList_injective hiso⟩

theorem Faithful.manualKey_inj (h : render.Faithful) {k k' f f' : Uuid}
    (heq : render.manualKey k f = render.manualKey k' f') : k = k' := by
  have htexts := congrArg String.toList heq
  rw [toList_manualKey, toList_manualKey] at htexts
  obtain ⟨huuid, -⟩ := Delimited.eq_of_append_cons (h.uuid_colon k) (h.uuid_colon k')
    (List.append_cancel_left htexts)
  exact h.uuid_inj k k' (String.toList_injective huuid)

theorem scheduleKey_ne_manualKey (k k' f : Uuid) (i : Instant) :
    render.scheduleKey k i ≠ render.manualKey k' f := by
  intro heq
  have htexts := congrArg String.toList heq
  rw [toList_scheduleKey, toList_manualKey] at htexts
  have hschedule : "schedule:".toList = ['s', 'c', 'h', 'e', 'd', 'u', 'l', 'e', ':'] := by decide
  have hmanual : "schedule-manual:".toList
      = ['s', 'c', 'h', 'e', 'd', 'u', 'l', 'e', '-', 'm', 'a', 'n', 'u', 'a', 'l', ':'] := by
    decide
  rw [hschedule, hmanual] at htexts
  simp at htexts

end Rendering

/-- The document of a user's request is none of a schedule's. -/
theorem TaskEnqueue.request_ne {render : Rendering} {payload payload' : TaskEnqueue} {k : Uuid}
    (htype : payload.taskType = payload'.taskType) :
    payload.request render none ≠ payload'.request render (some k) := by
  intro heq
  unfold TaskEnqueue.request at heq
  rw [htype] at heq
  have hends := (String.append_left_inj _).mp ((String.append_left_inj _).mp
    ((String.append_left_inj _).mp heq))
  -- one of the documents says null where the other has a quoted text
  have hnull (x : String) : (x ++ "null").toList = (x.toList ++ ['n', 'u', 'l']) ++ ['l'] := by
    have htext : "null".toList = ['n', 'u', 'l', 'l'] := by decide
    simp [String.toList_append, htext]
  have hquote (x y : String) : ∃ z, (x ++ jsonString y).toList = z ++ [Char.ofNat 34] := by
    have htext : "\"".toList = [Char.ofNat 34] := by decide
    refine ⟨x.toList ++ ("\"" ++ String.join (y.toList.map jsonChar)).toList, ?_⟩
    rw [jsonString, String.toList_append, String.toList_append, htext, List.append_assoc]
  obtain ⟨z, hz⟩ := hquote _ (render.uuid k)
  have htexts := congrArg String.toList hends
  rw [show jsonOption (fun u => jsonString (render.uuid u)) none = "null" from rfl, hnull,
    show jsonOption (fun u => jsonString (render.uuid u)) (some k) = jsonString (render.uuid k)
      from rfl, hz] at htexts
  exact Delimited.ne_of_last_ne (show 'l' ≠ Char.ofNat 34 by decide) htexts

/-! ## Where tasks come from -/

/-- A key that a schedule gives its tasks. -/
def Rendering.OwnKey (render : Rendering) (k : Uuid) (key : String) : Prop :=
  (∃ i, key = render.scheduleKey k i) ∨ ∃ f, key = render.manualKey k f

theorem Rendering.Faithful.ownKey_inj {render : Rendering} (h : render.Faithful) {k k' : Uuid}
    {key : String} (hk : render.OwnKey k key) (hk' : render.OwnKey k' key) : k = k' := by
  rcases hk with ⟨i, rfl⟩ | ⟨f, rfl⟩
  · rcases hk' with ⟨i', heq⟩ | ⟨f', heq⟩
    · exact (h.scheduleKey_inj heq).1
    · exact absurd heq (Rendering.scheduleKey_ne_manualKey k k' f' i)
  · rcases hk' with ⟨i', heq⟩ | ⟨f', heq⟩
    · exact absurd heq.symm (Rendering.scheduleKey_ne_manualKey k' k f i')
    · exact h.manualKey_inj heq

namespace ScheduleStore

variable {setup : Setup} {schedule : ClaimedSchedule} {now : Instant} {s s' : ScheduleStore}

/-- What the rows tell of where they come from. -/
structure Traced (setup : Setup) (s : ScheduleStore) : Prop where
  /-- The document of a task names its source. -/
  bound : ∀ t ∈ s.queue.tasks.rows, ∃ payload : TaskEnqueue, payload.taskType = t.taskType
    ∧ t.requestFingerprint = ⟨payload.request setup.render t.sourceScheduleId⟩
  /-- So does the key of a schedule's task, and the task of an instant has a fire. -/
  named : ∀ t ∈ s.queue.tasks.rows, ∀ k, t.sourceScheduleId = some k →
    (∃ i, t.idempotencyKey = some (setup.render.scheduleKey k i)
        ∧ s.HasFire k (setup.render.cronFireKey i))
      ∨ ∃ f, t.idempotencyKey = some (setup.render.manualKey k f)
  pointed : ∀ fire ∈ s.fires.rows, ∀ id, fire.taskId = some id →
    ∃ t, s.queue.tasks.get? id = some t ∧ t.sourceScheduleId = some fire.scheduleId
  refers : s.queue.OutboxRefers
  typed : ∀ r ∈ s.schedules.rows, r.taskType ∈ setup.taskTypes

theorem Traced.ownKey (h : s.Traced setup) {t : AutomationTaskRecord}
    (ht : t ∈ s.queue.tasks.rows) {k : Uuid} (hk : t.sourceScheduleId = some k) :
    ∃ key, t.idempotencyKey = some key ∧ setup.render.OwnKey k key := by
  rcases h.named t ht k hk with ⟨i, hkey, -⟩ | ⟨f, hkey⟩
  · exact ⟨_, hkey, .inl ⟨i, rfl⟩⟩
  · exact ⟨_, hkey, .inr ⟨f, rfl⟩⟩

/-- The schedules are rewritten. -/
theorem Traced.withSchedules (h : s.Traced setup) {schedules : Table ScheduleRecord}
    (htyped : ∀ r ∈ schedules.rows, r.taskType ∈ setup.taskTypes) :
    Traced setup { s with schedules } :=
  ⟨h.bound, h.named, h.pointed, h.refers, htyped⟩

theorem Traced.putSchedule (h : s.Traced setup) {r r' : ScheduleRecord}
    (hr : s.schedules.get? r.id = some r) (htype : r'.taskType = r.taskType) :
    Traced setup { s with schedules := s.schedules.put r' } := by
  refine h.withSchedules fun r₁ hr₁ => ?_
  rcases Table.mem_put hr₁ with rfl | ⟨hold, -⟩
  · rw [htype]
    exact h.typed r (Table.mem_of_get? hr)
  · exact h.typed r₁ hold

/-- The tasks stay the same tasks. -/
theorem Traced.withQueue (h : s.Traced setup) {queue : TaskStore}
    (hfrom : s.queue.RowsFrom queue) (hstay : s.queue.RowsStay queue)
    (hrefers : queue.OutboxRefers) : Traced setup { s with queue } where
  bound t' ht' := by
    obtain ⟨t, ht, hsame⟩ := hfrom t' ht'
    obtain ⟨payload, htype, hprint⟩ := h.bound t ht
    refine ⟨payload, htype.trans hsame.taskType.symm, ?_⟩
    rw [hsame.requestFingerprint, hsame.sourceScheduleId, hprint]
  named t' ht' k hk := by
    obtain ⟨t, ht, hsame⟩ := hfrom t' ht'
    rw [hsame.idempotencyKey]
    exact h.named t ht k (hsame.sourceScheduleId ▸ hk)
  pointed fire hfire id hid := by
    obtain ⟨t, ht, hsource⟩ := h.pointed fire hfire id hid
    obtain ⟨t', ht', hsame⟩ := hstay id t ht
    exact ⟨t', ht', hsame.sourceScheduleId.trans hsource⟩
  refers := hrefers
  typed := h.typed

theorem Traced.writes (h : s.Traced setup) {queue : TaskStore}
    (hwrites : TaskStore.Writes (fun _ => False) now s.queue queue) :
    Traced setup { s with queue } :=
  h.withQueue hwrites.rowsFrom hwrites.rowsStay (hwrites.outboxRefers h.refers)

theorem HasFire.mono {fires : Table ScheduleFireRecord} {queue : TaskStore}
    (hfires : ∀ fire ∈ s.fires.rows, fire ∈ fires.rows) {k : Uuid} {key : String}
    (h : s.HasFire k key) : HasFire { s with queue, fires } k key := by
  obtain ⟨fire, hfire, hkeys⟩ := h
  exact ⟨fire, hfires fire hfire, hkeys⟩

/-- What is enqueued for a user. -/
theorem Traced.enqueueTask (h : s.Traced setup) {queue : TaskStore} {payload : TaskEnqueue}
    {task : AutomationTaskRecord} {replayed : Bool}
    (henqueued : s.queue.enqueueRecord setup.taskTypes setup.render payload none now
      = .ok (queue, task, replayed)) : Traced setup { s with queue } where
  bound t ht := by
    rcases TaskStore.enqueueRecord_mem henqueued ht with hold | ⟨rfl, htype, -, hsource, -⟩
    · exact h.bound t hold
    · refine ⟨payload, htype.symm, ?_⟩
      rw [hsource]
      exact (TaskStore.enqueueRecord_accepted henqueued).2.2
  named t ht k hk := by
    rcases TaskStore.enqueueRecord_mem henqueued ht with hold | ⟨rfl, -, -, hsource, -⟩
    · exact h.named t hold k hk
    · rw [hsource] at hk
      simp at hk
  pointed fire hfire id hid := by
    obtain ⟨t, ht, hsource⟩ := h.pointed fire hfire id hid
    obtain ⟨t', ht', hsame⟩ := TaskStore.enqueueRecord_rowsStay henqueued id t ht
    exact ⟨t', ht', hsame.sourceScheduleId.trans hsource⟩
  refers := TaskStore.enqueueRecord_outboxRefers henqueued h.refers
  typed := h.typed

/-- A task under a schedule's own key, of the schedule's document, is the schedule's. -/
theorem Traced.owned (hr : setup.render.Faithful) (h : s.Traced setup)
    {t : AutomationTaskRecord} (ht : t ∈ s.queue.tasks.rows) {k : Uuid} {key : String}
    {payload : TaskEnqueue} (hown : setup.render.OwnKey k key) (hkey : t.idempotencyKey = some key)
    (htype : t.taskType = payload.taskType)
    (hprint : t.requestFingerprint = ⟨payload.request setup.render (some k)⟩) :
    t.sourceScheduleId = some k := by
  obtain ⟨payload', htype', hprint'⟩ := h.bound t ht
  cases hsource : t.sourceScheduleId with
  | none =>
    rw [hsource, hprint] at hprint'
    exact absurd (Digest.mk.inj hprint').symm
      (TaskEnqueue.request_ne (htype'.trans htype))
  | some k' =>
    obtain ⟨key', hkey', hown'⟩ := h.ownKey ht hsource
    obtain rfl := Option.some.inj (hkey.symm.trans hkey')
    rw [hr.ownKey_inj hown' hown]

/-- The task that a schedule enqueues is its own, new or not. -/
theorem Traced.enqueued_source (hr : setup.render.Faithful) (h : s.Traced setup)
    {queue : TaskStore} {payload : TaskEnqueue} {task : AutomationTaskRecord} {replayed : Bool}
    {k : Uuid} {key : String} (hown : setup.render.OwnKey k key)
    (hpayload : payload.idempotencyKey = some key)
    (henqueued : s.queue.enqueueRecord setup.taskTypes setup.render payload (some k) now
      = .ok (queue, task, replayed)) :
    queue.tasks.get? task.id = some task ∧ task.sourceScheduleId = some k := by
  rcases TaskStore.enqueueRecord_ok henqueued
    with ⟨-, rfl, ht, htype, ⟨key', hkey, hkey'⟩, hprint⟩ | ⟨-, fingerprint, rfl, -, -, rfl⟩
  · obtain rfl := Option.some.inj (hpayload.symm.trans hkey)
    exact ⟨Table.get?_key ht, h.owned hr ht hown hkey' htype hprint⟩
  · refine ⟨?_, rfl⟩
    show (s.queue.addTask payload fingerprint (some k) now).get? s.queue.tasks.next = _
    unfold TaskStore.addTask
    rw [Table.get?_add, if_pos rfl]

/-- A schedule's task and the fire that points at it. -/
theorem Traced.fired (hr : setup.render.Faithful) (h : s.Traced setup) {queue : TaskStore}
    {payload : TaskEnqueue} {task : AutomationTaskRecord} {replayed : Bool} {k : Uuid}
    {key fireKey : String} {scheduledFor : Instant} {status : Automation.ScheduleFireStatus}
    (hown : (∃ i, key = setup.render.scheduleKey k i ∧ fireKey = setup.render.cronFireKey i)
      ∨ ∃ f, key = setup.render.manualKey k f)
    (hpayload : payload.idempotencyKey = some key)
    (henqueued : s.queue.enqueueRecord setup.taskTypes setup.render payload (some k) now
      = .ok (queue, task, replayed)) :
    Traced setup { s with
      queue
      fires := s.fired k fireKey scheduledFor status (some task.id) now } where
  bound t ht := by
    rcases TaskStore.enqueueRecord_mem henqueued ht with hold | ⟨rfl, htype, -, hsource, -⟩
    · exact h.bound t hold
    · refine ⟨payload, htype.symm, ?_⟩
      rw [hsource]
      exact (TaskStore.enqueueRecord_accepted henqueued).2.2
  named t ht k' hk' := by
    have hfires : ∀ fire ∈ s.fires.rows,
        fire ∈ (s.fired k fireKey scheduledFor status (some task.id) now).rows :=
      fun fire hfire => mem_fired.mpr (.inl hfire)
    rcases TaskStore.enqueueRecord_mem henqueued ht with hold | ⟨rfl, -, hkey, hsource, -⟩
    · rcases h.named t hold k' hk' with ⟨i, hkey, hfire⟩ | hmanual
      · exact .inl ⟨i, hkey, hfire.mono hfires⟩
      · exact .inr hmanual
    · obtain rfl : k = k' := Option.some.inj (hsource.symm.trans hk')
      rw [hkey, hpayload]
      rcases hown with ⟨i, rfl, rfl⟩ | ⟨f, rfl⟩
      · exact .inl ⟨i, rfl, _, mem_fired.mpr (.inr rfl), rfl, rfl⟩
      · exact .inr ⟨f, rfl⟩
  pointed fire hfire id hid := by
    have hkey : setup.render.OwnKey k key := by
      rcases hown with ⟨i, rfl, -⟩ | ⟨f, rfl⟩
      · exact .inl ⟨i, rfl⟩
      · exact .inr ⟨f, rfl⟩
    rcases mem_fired.mp hfire with hold | rfl
    · obtain ⟨t, ht, hsource⟩ := h.pointed fire hold id hid
      obtain ⟨t', ht', hsame⟩ := TaskStore.enqueueRecord_rowsStay henqueued id t ht
      exact ⟨t', ht', hsame.sourceScheduleId.trans hsource⟩
    · obtain rfl : task.id = id := Option.some.inj hid
      exact ⟨task, h.enqueued_source hr hkey hpayload henqueued⟩
  refers := TaskStore.enqueueRecord_outboxRefers henqueued h.refers
  typed := h.typed

theorem FireStep.traced (hr : setup.render.Faithful) (h : s.Traced setup) {instant : Instant}
    (hstep : FireStep setup schedule now s instant s') : s'.Traced setup := by
  cases hstep with
  | present => exact h
  | skipped status hnew =>
    exact {
      bound := h.bound
      named := fun t ht k hk => by
        rcases h.named t ht k hk with ⟨i, hkey, hfire⟩ | hmanual
        · exact .inl ⟨i, hkey, hfire.mono fun fire hfire => mem_fired.mpr (.inl hfire)⟩
        · exact .inr hmanual
      pointed := fun fire hfire id hid => by
        rcases mem_fired.mp hfire with hold | rfl
        · exact h.pointed fire hold id hid
        · exact absurd hid (by simp [fireRow])
      refers := h.refers
      typed := h.typed }
  | enqueued queue queue' task replayed hnew hreplaced henqueued =>
    exact (h.writes hreplaced).fired hr (.inl ⟨instant, rfl, rfl⟩) rfl henqueued

theorem FireSteps.traced (hr : setup.render.Faithful) (h : s.Traced setup)
    (hrounds : FireSteps setup schedule now s s') : s'.Traced setup := by
  induction hrounds with
  | refl => exact h
  | tail _ hround ih =>
    obtain ⟨instant, hround⟩ := hround
    exact hround.traced hr ih

/-! ## Methods and runs -/

theorem releaseScheduleClaim_traced (h : s.Traced setup) (schedule : ClaimedSchedule) :
    (s.releaseScheduleClaim schedule).Traced setup := by
  unfold releaseScheduleClaim
  split
  · exact h
  · next r hr =>
    obtain ⟨hget, -⟩ := Option.filter_eq_some_iff.mp hr
    have hown : s.schedules.get? (key r) = some r := by rw [Table.key_of_get? hget, hget]
    exact h.putSchedule hown rfl

theorem finalizeScheduleClaim_traced (hr : setup.render.Faithful) (h : s.Traced setup)
    {plan : CronDuePlan} {cutoff : Instant} {created : List ScheduleFireRecord}
    (hok : s.finalizeScheduleClaim setup schedule plan now cutoff = .ok (s', created)) :
    s'.Traced setup := by
  rcases finalizeScheduleClaim_ok hok with ⟨-, rfl, -⟩ | ⟨r, hfound, hrounds⟩
  · exact releaseScheduleClaim_traced h schedule
  · obtain ⟨hget, hheld⟩ := finalizable_eq_some.mp hfound
    have hown : s.schedules.get? r.id = some r := by rw [hheld.1.1, hget]
    have hfirst : Traced setup { s with schedules := s.schedules.put (finalizedRow plan now r) } :=
      h.putSchedule hown rfl
    exact hrounds.traced hr hfirst

theorem createSchedule_traced (h : s.Traced setup) {payload : ScheduleCreate} {r : ScheduleRecord}
    (hok : s.createSchedule setup payload now = .ok (s', r)) : s'.Traced setup := by
  unfold createSchedule at hok
  obtain ⟨htype, hok⟩ := refuse_bind_eq_ok.mp hok
  obtain ⟨-, -, hok⟩ := bind_eq_ok.mp hok
  obtain ⟨-, hok⟩ := refuse_bind_eq_ok.mp hok
  obtain ⟨expression, -, hok⟩ := bind_eq_ok.mp hok
  obtain ⟨nextRun, -, hok⟩ := bind_eq_ok.mp hok
  obtain ⟨-, hok⟩ := refuse_bind_eq_ok.mp hok
  obtain ⟨rfl, -⟩ := Prod.mk.inj (pure_eq_ok.mp hok)
  refine h.withSchedules fun r hr => ?_
  rcases Table.mem_add hr with hold | rfl
  · exact h.typed r hold
  · exact not_not.mp htype

theorem deleteSchedule_traced (h : s.Traced setup) {scheduleId : Uuid}
    (hok : s.deleteSchedule scheduleId = .ok s') : s'.Traced setup := by
  unfold deleteSchedule at hok
  obtain ⟨r, -, hok⟩ := bind_eq_ok.mp hok
  obtain ⟨-, hok⟩ := refuse_bind_eq_ok.mp hok
  obtain ⟨-, hok⟩ := refuse_bind_eq_ok.mp hok
  obtain rfl := pure_eq_ok.mp hok
  exact h.withSchedules fun r hr => h.typed r (List.mem_of_mem_filter hr)

theorem runScheduleNow_traced (hr : setup.render.Faithful) (h : s.Traced setup)
    {scheduleId : Uuid} {fire : ScheduleFireRecord}
    (hok : s.runScheduleNow setup scheduleId now = .ok (s', fire)) : s'.Traced setup := by
  unfold runScheduleNow at hok
  obtain ⟨r, -, hbody⟩ := bind_eq_ok.mp hok
  obtain ⟨⟨queue, task, replayed⟩, henqueued, hfire⟩ := bind_eq_ok.mp hbody
  obtain ⟨-, rfl, -⟩ := addFire_eq_ok.mp hfire
  exact h.fired hr (.inr ⟨s.fires.next, rfl⟩) rfl henqueued

theorem queueCall_traced (h : s.Traced setup) {queue : TaskStore} {c : TaskStore.Call}
    (hok : s.queue.call setup.taskTypes setup.render now c = .ok queue) :
    Traced setup { s with queue } := by
  obtain ⟨hstay, hfrom | ⟨payload, t, replayed, henqueued⟩⟩ := TaskStore.call_rows hok
  · exact h.withQueue hfrom hstay (TaskStore.call_outboxRefers hok h.refers)
  · exact h.enqueueTask henqueued

end ScheduleStore

namespace SchedulerSystem

variable {setup : Setup} {s : SchedulerSystem}

theorem empty_traced : empty.store.Traced setup where
  bound := by simp [empty, Table.empty]
  named := by simp [empty, Table.empty]
  pointed := by simp [empty, Table.empty]
  refers := by simp [TaskStore.OutboxRefers, empty, Table.empty]
  typed := by simp [empty, Table.empty]

theorem commit_traced (h : s.store.Traced setup) {x : Except DomainError ScheduleStore}
    (hx : ∀ store, x = .ok store → store.Traced setup) : (s.commit x).store.Traced setup := by
  cases x with
  | error error => exact h
  | ok store => exact hx store rfl

theorem step_traced (hr : setup.render.Faithful) (h : s.store.Traced setup) (e : SchedulerEvent) :
    (SchedulerSystem.step setup s e).store.Traced setup := by
  -- a firing is traced when it is created; every other step keeps the firings' ids and types
  cases e with
  | queue now call =>
    refine commit_traced h fun store hok => ?_
    obtain ⟨queue, hcall, rfl⟩ := map_eq_ok.mp hok
    exact ScheduleStore.queueCall_traced h hcall
  | createSchedule now payload =>
    refine commit_traced h fun store hok => ?_
    obtain ⟨⟨store', r⟩, hcreate, rfl⟩ := map_eq_ok.mp hok
    exact ScheduleStore.createSchedule_traced h hcreate
  | updateSchedule now scheduleId payload =>
    refine commit_traced h fun store hok => ?_
    obtain ⟨⟨store', r'⟩, hupdate, rfl⟩ := map_eq_ok.mp hok
    obtain ⟨r, hget, -, -, htype, -, rfl⟩ := ScheduleStore.updateSchedule_ok hupdate
    exact h.putSchedule hget htype
  | deleteSchedule scheduleId =>
    exact commit_traced h fun store hok => ScheduleStore.deleteSchedule_traced h hok
  | runScheduleNow now scheduleId =>
    refine commit_traced h fun store hok => ?_
    obtain ⟨⟨store', fire⟩, hrun, rfl⟩ := map_eq_ok.mp hok
    exact ScheduleStore.runScheduleNow_traced hr h hrun
  | claim now schedulerId leaseSeconds fallbackNow excludedIds claimToken skipped =>
    show (s.claimDispatch setup now schedulerId leaseSeconds fallbackNow excludedIds claimToken
      skipped).store.Traced setup
    unfold claimDispatch
    cases hclaim : s.store.claimDueSchedule setup schedulerId leaseSeconds fallbackNow excludedIds
        claimToken now skipped with
    | mk store claim =>
      cases claim with
      | none =>
        obtain rfl := ScheduleStore.claimDueSchedule_none hclaim
        exact h
      | some claim =>
        obtain ⟨dueAt, r, hget, -, -, rfl⟩ := ScheduleStore.claimDueSchedule_some hclaim
        exact h.putSchedule hget rfl
  | plan p =>
    refine withDispatch_cases (P := fun s' => s'.store.Traced setup) h fun d hd => ?_
    unfold planDispatch
    split
    · exact h
    · exact h
  | finalize p now cutoff =>
    refine withDispatch_cases (P := fun s' => s'.store.Traced setup) h fun d hd => ?_
    unfold finalizeDispatch
    split
    · refine commit_traced h fun store hok => ?_
      obtain ⟨⟨store', created⟩, hfinalize, rfl⟩ := map_eq_ok.mp hok
      exact ScheduleStore.finalizeScheduleClaim_traced hr h hfinalize
    · exact h
    · exact h
  | abandon p =>
    refine withDispatch_cases (P := fun s' => s'.store.Traced setup) h fun d hd => ?_
    unfold abandonDispatch
    split
    · exact ScheduleStore.releaseScheduleClaim_traced h d.claim
    · exact h
    · exact h

theorem run_traced (hr : setup.render.Faithful) (es : List SchedulerEvent) :
    (Transition.run (SchedulerSystem.step setup) empty es).store.Traced setup :=
  Transition.invariant_run (I := fun s : SchedulerSystem => s.store.Traced setup)
    (fun _ e h => step_traced hr h e)
    empty_traced es

end SchedulerSystem

end QaPlatform.Runtime
