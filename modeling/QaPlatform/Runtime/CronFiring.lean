import QaPlatform.Runtime.SchedulerSystem
import QaPlatform.Runtime.TaskIdentity

/-!
# A cron instant fires once

Over every interleaving of schedulers with each other and with edits: the fire keys
and the idempotency keys keep an instant from firing twice, and the compare-and-set
of T2 keeps a process from writing on a claim that is not its own any more.

The invariant is about the store alone, so transactions of users, workers and schedulers keep it
in the same way; what has been claimed is described beside it. `Advances` and `StaleHarmless`
spell out the compare-and-set column by column: token, version, expected instant and lease, as
the WHERE of the UPDATE does. The witness is a planner that is so slow that its lease is taken
over while it plans.
-/

namespace QaPlatform.Runtime

namespace ScheduleStore

/-- The fire of a schedule for a cron instant. -/
def IsCronFire (render : Rendering) (scheduleId : Uuid) (instant : Instant)
    (fire : ScheduleFireRecord) : Prop :=
  fire.scheduleId = scheduleId ∧ fire.fireKey = render.cronFireKey instant

/-- The task of a schedule for a cron instant. -/
def IsCronTask (render : Rendering) (scheduleId : Uuid) (instant : Instant)
    (t : AutomationTaskRecord) : Prop :=
  t.sourceScheduleId = some scheduleId
    ∧ t.idempotencyKey = some (render.scheduleKey scheduleId instant)

/-- A schedule has one fire for a key, and a type one task for an idempotency key. -/
structure Sound (s : ScheduleStore) : Prop where
  fires : ∀ fire ∈ s.fires.rows, ∀ fire' ∈ s.fires.rows, fire.scheduleId = fire'.scheduleId →
    fire.fireKey = fire'.fireKey → fire = fire'
  keys : s.queue.KeysUnique
  /-- A schedule is there as long as its tasks, and all of them have its type. -/
  origin : ∀ t ∈ s.queue.tasks.rows, ∀ k, t.sourceScheduleId = some k →
    ∃ r, s.schedules.get? k = some r ∧ r.taskType = t.taskType

/-- What no transaction takes back. -/
structure Keeps (s s' : ScheduleStore) : Prop where
  sound : s.Sound → s'.Sound
  fires : ∀ fire ∈ s.fires.rows, fire ∈ s'.fires.rows
  tasks : s.queue.RowsStay s'.queue
  next : s.schedules.next ≤ s'.schedules.next
  types : ∀ k < s.schedules.next, ∀ r', s'.schedules.get? k = some r' →
    ∃ r, s.schedules.get? k = some r ∧ r.taskType = r'.taskType

variable {setup : Setup} {schedule : ClaimedSchedule} {now : Instant} {s s' : ScheduleStore}

theorem Keeps.refl (s : ScheduleStore) : Keeps s s where
  sound := id
  fires _ := id
  tasks := .refl _
  next := le_rfl
  types _ _ r hr := ⟨r, hr, rfl⟩

theorem Keeps.trans {a b c : ScheduleStore} (h : Keeps a b) (h' : Keeps b c) : Keeps a c where
  sound := h'.sound ∘ h.sound
  fires fire hfire := h'.fires fire (h.fires fire hfire)
  tasks := h.tasks.trans h'.tasks
  next := h.next.trans h'.next
  types k hk r' hr' := by
    obtain ⟨r₁, hr₁, htype₁⟩ := h'.types k (hk.trans_le h.next) r' hr'
    obtain ⟨r, hr, htype⟩ := h.types k hk r₁ hr₁
    exact ⟨r, hr, htype.trans htype₁⟩

/-- A schedule's row is rewritten; its task type is not. -/
theorem keeps_putSchedule {r r' : ScheduleRecord} (hr : s.schedules.get? r.id = some r)
    (hid : r'.id = r.id) (htype : r'.taskType = r.taskType) :
    Keeps s { s with schedules := s.schedules.put r' } where
  sound hs := {
    fires := hs.fires
    keys := hs.keys
    origin := by
      intro t ht k hk
      obtain ⟨r₁, hr₁, htype₁⟩ := hs.origin t ht k hk
      by_cases hput : r'.id = k
      · have hsame : r₁ = r := by
          rw [← hput, hid, hr] at hr₁
          exact (Option.some.inj hr₁).symm
        subst hsame
        exact ⟨r', Table.get?_put_self hr₁ hput, htype.trans htype₁⟩
      · exact ⟨r₁, by rw [← hr₁]; exact Table.get?_put_of_ne hput, htype₁⟩ }
  fires _ := id
  tasks := .refl _
  next := le_rfl
  types k _ r₁ hr₁ := by
    by_cases hput : r'.id = k
    · have hget : s.schedules.get? k = some r := by
        rw [← hput, hid]
        exact hr
      have hsome : (s.schedules.put r').get? k = some r' := Table.get?_put_self hget hput
      obtain rfl : r₁ = r' := Option.some.inj (hr₁.symm.trans hsome)
      exact ⟨r, hget, htype.symm⟩
    · have hsame : (s.schedules.put r').get? k = s.schedules.get? k := Table.get?_put_of_ne hput
      exact ⟨r₁, hsame ▸ hr₁, rfl⟩

/-- A fire whose key the schedule has not used. -/
theorem fires_fired (hs : s.Sound) {scheduleId : Uuid} {fireKey : String}
    {scheduledFor : Instant} {status : Automation.ScheduleFireStatus} {taskId : Option Uuid}
    (hnew : ¬ s.HasFire scheduleId fireKey) :
    ∀ fire ∈ (s.fired scheduleId fireKey scheduledFor status taskId now).rows,
      ∀ fire' ∈ (s.fired scheduleId fireKey scheduledFor status taskId now).rows,
        fire.scheduleId = fire'.scheduleId → fire.fireKey = fire'.fireKey → fire = fire' := by
  intro fire hfire fire' hfire' hid hkey
  rcases mem_fired.mp hfire with hold | rfl
  · rcases mem_fired.mp hfire' with hold' | rfl
    · exact hs.fires fire hold fire' hold' hid hkey
    · exact absurd ⟨fire, hold, hid, hkey⟩ hnew
  · rcases mem_fired.mp hfire' with hold' | rfl
    · exact absurd ⟨fire', hold', hid.symm, hkey.symm⟩ hnew
    · rfl

/-- A task of a schedule and the fire that points at it. -/
theorem keeps_enqueued {queue queue' : TaskStore} {task : AutomationTaskRecord} {replayed : Bool}
    {payload : TaskEnqueue} {scheduleId : Uuid} {fireKey : String} {scheduledFor : Instant}
    {status : Automation.ScheduleFireStatus} {taskId : Option Uuid} {r : ScheduleRecord}
    (hr : s.schedules.get? scheduleId = some r) (htype : r.taskType = payload.taskType)
    (hnew : ¬ s.HasFire scheduleId fireKey)
    (hreplaced : TaskStore.Writes (fun _ => False) now s.queue queue)
    (henqueued : queue.enqueueRecord setup.taskTypes setup.render payload (some scheduleId) now
      = .ok (queue', task, replayed)) :
    Keeps s { s with
      queue := queue'
      fires := s.fired scheduleId fireKey scheduledFor status taskId now } where
  sound hs := {
    fires := fires_fired hs hnew
    keys := TaskStore.enqueueRecord_keysUnique henqueued (hreplaced.rowsFrom.keysUnique hs.keys)
    origin := by
      intro t ht k hk
      rcases TaskStore.enqueueRecord_mem henqueued ht with hold | ⟨rfl, htype', -, hsource, -⟩
      · obtain ⟨t₁, ht₁, hsame⟩ := hreplaced.rowsFrom t hold
        obtain ⟨r₁, hr₁, htype₁⟩ := hs.origin t₁ ht₁ k (hsame.sourceScheduleId ▸ hk)
        exact ⟨r₁, hr₁, htype₁.trans hsame.taskType.symm⟩
      · obtain rfl : scheduleId = k := Option.some.inj (hsource.symm.trans hk)
        exact ⟨r, hr, htype.trans htype'.symm⟩ }
  fires fire hfire := mem_fired.mpr (.inl hfire)
  tasks := hreplaced.rowsStay.trans (TaskStore.enqueueRecord_rowsStay henqueued)
  next := le_rfl
  types _ _ r' hr' := ⟨r', hr', rfl⟩

theorem FireStep.keeps {instant : Instant} {r : ScheduleRecord}
    (hr : s.schedules.get? schedule.id = some r) (htype : r.taskType = schedule.taskType)
    (h : FireStep setup schedule now s instant s') : Keeps s s' := by
  cases h with
  | present => exact .refl s
  | skipped status hnew =>
    exact {
      sound := fun hs => ⟨fires_fired hs hnew, hs.keys, hs.origin⟩
      fires := fun fire hfire => mem_fired.mpr (.inl hfire)
      tasks := .refl _
      next := le_rfl
      types := fun _ _ r' hr' => ⟨r', hr', rfl⟩ }
  | enqueued queue queue' task replayed hnew hreplaced henqueued =>
    exact keeps_enqueued hr htype hnew hreplaced henqueued

theorem FireSteps.keeps {r : ScheduleRecord} (hr : s.schedules.get? schedule.id = some r)
    (htype : r.taskType = schedule.taskType) (h : FireSteps setup schedule now s s') :
    Keeps s s' := by
  induction h with
  | refl => exact .refl s
  | tail hrounds hround ih =>
    obtain ⟨instant, hround⟩ := hround
    exact ih.trans (hround.keeps (by rw [FireSteps.schedules_eq hrounds]; exact hr) htype)

theorem releaseScheduleClaim_keeps (s : ScheduleStore) (schedule : ClaimedSchedule) :
    Keeps s (s.releaseScheduleClaim schedule) := by
  unfold releaseScheduleClaim
  split
  · exact .refl s
  · next r hr =>
    obtain ⟨hget, hheld⟩ := Option.filter_eq_some_iff.mp hr
    have hid : r.id = schedule.id := Table.key_of_get? hget
    rw [← hid] at hget
    exact keeps_putSchedule hget rfl rfl

theorem finalizeScheduleClaim_keeps
    (htype : ∀ r, s.schedules.get? schedule.id = some r → r.taskType = schedule.taskType)
    {plan : CronDuePlan} {cutoff : Instant} {created : List ScheduleFireRecord}
    (h : s.finalizeScheduleClaim setup schedule plan now cutoff = .ok (s', created)) :
    Keeps s s' := by
  rcases finalizeScheduleClaim_ok h with ⟨-, rfl, -⟩ | ⟨r, hr, hrounds⟩
  · exact s.releaseScheduleClaim_keeps schedule
  · obtain ⟨hget, hheld⟩ := finalizable_eq_some.mp hr
    have hid : r.id = schedule.id := hheld.1.1
    have hput : (s.schedules.put (finalizedRow plan now r)).get? schedule.id
        = some (finalizedRow plan now r) := Table.get?_put_self hget hid
    have hown : s.schedules.get? r.id = some r := by rw [hid, hget]
    have hfirst : Keeps s { s with schedules := s.schedules.put (finalizedRow plan now r) } :=
      keeps_putSchedule hown rfl rfl
    exact hfirst.trans (FireSteps.keeps hput (htype r hget) hrounds)

theorem claimDueSchedule_keeps {schedulerId claimToken : String} {leaseSeconds : Int}
    {fallbackNow : Option Instant} {excludedIds skipped : List Uuid}
    {claim : Option ClaimedSchedule}
    (h : s.claimDueSchedule setup schedulerId leaseSeconds fallbackNow excludedIds claimToken now
      skipped = (s', claim)) : Keeps s s' := by
  cases claim with
  | none =>
    obtain rfl := claimDueSchedule_none h
    exact .refl _
  | some claim =>
    obtain ⟨dueAt, r, hr, -, -, rfl⟩ := claimDueSchedule_some h
    exact keeps_putSchedule hr rfl rfl

theorem createSchedule_keeps {payload : ScheduleCreate} {r : ScheduleRecord}
    (h : s.createSchedule setup payload now = .ok (s', r)) : Keeps s s' := by
  unfold createSchedule at h
  obtain ⟨-, h⟩ := refuse_bind_eq_ok.mp h
  obtain ⟨-, -, h⟩ := bind_eq_ok.mp h
  obtain ⟨-, h⟩ := refuse_bind_eq_ok.mp h
  obtain ⟨expression, -, h⟩ := bind_eq_ok.mp h
  obtain ⟨nextRun, -, h⟩ := bind_eq_ok.mp h
  obtain ⟨-, h⟩ := refuse_bind_eq_ok.mp h
  obtain ⟨rfl, -⟩ := Prod.mk.inj (pure_eq_ok.mp h)
  exact {
    sound := fun hs => {
      fires := hs.fires
      keys := hs.keys
      origin := by
        intro t ht k hk
        obtain ⟨r₁, hr₁, htype₁⟩ := hs.origin t ht k hk
        exact ⟨r₁, Table.get?_add_old hr₁, htype₁⟩ }
    fires := fun _ => id
    tasks := .refl _
    next := Nat.le_succ _
    types := by
      intro k hk r' hr'
      rw [Table.get?_add, if_neg (Ne.symm hk.ne)] at hr'
      exact ⟨r', hr', rfl⟩ }

theorem updateSchedule_ok {scheduleId : Uuid} {payload : SchedulePatch} {r' : ScheduleRecord}
    (h : s.updateSchedule setup scheduleId payload now = .ok (s', r')) :
    ∃ r, s.schedules.get? r.id = some r ∧ r.id = scheduleId ∧ r'.id = r.id
      ∧ r'.taskType = r.taskType ∧ r'.version = r.version + 1
      ∧ s' = { s with schedules := s.schedules.put r' } := by
  unfold updateSchedule at h
  obtain ⟨r, hr, h⟩ := bind_eq_ok.mp h
  have hget := requireSchedule_eq_ok.mp hr
  have hid : r.id = scheduleId := Table.key_of_get? hget
  obtain ⟨-, h⟩ := refuse_bind_eq_ok.mp h
  obtain ⟨-, h⟩ := refuse_bind_eq_ok.mp h
  obtain ⟨-, -, h⟩ := bind_eq_ok.mp h
  obtain ⟨expression, -, h⟩ := bind_eq_ok.mp h
  obtain ⟨nextRunAt, -, h⟩ := bind_eq_ok.mp h
  obtain ⟨-, h⟩ := refuse_bind_eq_ok.mp h
  obtain ⟨rfl, rfl⟩ := Prod.mk.inj (pure_eq_ok.mp h)
  exact ⟨r, hid ▸ hget, hid, rfl, rfl, rfl, rfl⟩

theorem deleteSchedule_keeps {scheduleId : Uuid} (h : s.deleteSchedule scheduleId = .ok s') :
    Keeps s s' := by
  unfold deleteSchedule at h
  obtain ⟨r, -, h⟩ := bind_eq_ok.mp h
  obtain ⟨-, h⟩ := refuse_bind_eq_ok.mp h
  obtain ⟨hnone, h⟩ := refuse_bind_eq_ok.mp h
  obtain rfl := pure_eq_ok.mp h
  exact {
    sound := fun hs => {
      fires := hs.fires
      keys := hs.keys
      origin := by
        intro t ht k hk
        obtain ⟨r₁, hr₁, htype₁⟩ := hs.origin t ht k hk
        have hne : scheduleId ≠ k := by
          rintro rfl
          exact hnone ⟨t, ht, hk⟩
        exact ⟨r₁, by rw [Table.get?_erase, if_neg hne]; exact hr₁, htype₁⟩ }
    fires := fun _ => id
    tasks := .refl _
    next := le_rfl
    types := by
      intro k _ r' hr'
      rw [Table.get?_erase] at hr'
      split at hr'
      · simp at hr'
      · exact ⟨r', hr', rfl⟩ }

theorem runScheduleNow_keeps {scheduleId : Uuid} {fire : ScheduleFireRecord}
    (h : s.runScheduleNow setup scheduleId now = .ok (s', fire)) : Keeps s s' := by
  unfold runScheduleNow at h
  obtain ⟨r, hr, hbody⟩ := bind_eq_ok.mp h
  have hget := requireSchedule_eq_ok.mp hr
  obtain rfl : r.id = scheduleId := Table.key_of_get? hget
  obtain ⟨⟨queue, task, replayed⟩, henqueued, hfire⟩ := bind_eq_ok.mp hbody
  obtain ⟨hnew, rfl, -⟩ := addFire_eq_ok.mp hfire
  exact keeps_enqueued hget rfl hnew .refl henqueued

theorem queueCall_keeps {queue : TaskStore} {c : TaskStore.Call}
    (h : s.queue.call setup.taskTypes setup.render now c = .ok queue) :
    Keeps s { s with queue } := by
  obtain ⟨hstay, hrows⟩ := TaskStore.call_rows h
  exact {
    sound := fun hs => {
      fires := hs.fires
      keys := by
        rcases hrows with hfrom | ⟨payload, t, replayed, henqueued⟩
        · exact hfrom.keysUnique hs.keys
        · exact TaskStore.enqueueRecord_keysUnique henqueued hs.keys
      origin := by
        intro t ht k hk
        rcases hrows with hfrom | ⟨payload, t', replayed, henqueued⟩
        · obtain ⟨t₁, ht₁, hsame⟩ := hfrom t ht
          obtain ⟨r₁, hr₁, htype₁⟩ := hs.origin t₁ ht₁ k (hsame.sourceScheduleId ▸ hk)
          exact ⟨r₁, hr₁, htype₁.trans hsame.taskType.symm⟩
        · rcases TaskStore.enqueueRecord_mem henqueued ht with hold | ⟨rfl, -, -, hsource, -⟩
          · exact hs.origin t hold k hk
          · rw [hsource] at hk
            simp at hk }
    fires := fun _ => id
    tasks := hstay
    next := le_rfl
    types := fun _ _ r' hr' => ⟨r', hr', rfl⟩ }

end ScheduleStore

/-! ## Runs -/

namespace SchedulerSystem

open ScheduleStore (Keeps)

/-- The store is sound, and what has been claimed is about schedules that have been there. -/
structure Inv (s : SchedulerSystem) : Prop where
  sound : s.store.Sound
  known : ∀ d ∈ s.dispatches, d.claim.id < s.store.schedules.next
    ∧ ∀ r, s.store.schedules.get? d.claim.id = some r → r.taskType = d.claim.taskType
  /-- A plan goes beyond the instant it starts from. -/
  due : ∀ d ∈ s.dispatches, d.claim.firstDue ≤ d.claim.claimedAt
    ∧ ∀ plan, d.progress = .planned plan → d.claim.claimedAt < plan.nextRunAt

variable {setup : Setup} {s : SchedulerSystem}

theorem empty_inv : empty.Inv where
  sound := {
    fires := by simp [empty, Table.empty]
    keys := by simp [TaskStore.KeysUnique, empty, Table.empty]
    origin := by simp [empty, Table.empty] }
  known := by simp [empty]
  due := by simp [empty]

/-- A transaction of somebody else. -/
theorem Inv.store (h : s.Inv) {store : ScheduleStore} (hkeeps : Keeps s.store store) :
    SchedulerSystem.Inv { s with store } where
  sound := hkeeps.sound h.sound
  known d hd := by
    obtain ⟨hnext, htype⟩ := h.known d hd
    refine ⟨hnext.trans_le hkeeps.next, fun r' hr' => ?_⟩
    obtain ⟨r, hr, hsame⟩ := hkeeps.types d.claim.id hnext r' hr'
    exact hsame.symm.trans (htype r hr)
  due := h.due

theorem commit_keeps {x : Except DomainError ScheduleStore}
    (hx : ∀ store, x = .ok store → Keeps s.store store) : Keeps s.store (s.commit x).store := by
  cases x with
  | error error => exact .refl _
  | ok store => exact hx store rfl

theorem Inv.commit (h : s.Inv) {x : Except DomainError ScheduleStore}
    (hx : ∀ store, x = .ok store → Keeps s.store store) : (s.commit x).Inv :=
  h.store (commit_keeps hx)

theorem Inv.advance (h : s.Inv) {p : Nat} {d : ScheduleDispatch} (hd : s.dispatches[p]? = some d)
    {progress : ScheduleProgress}
    (hplan : ∀ plan, progress = .planned plan → d.claim.claimedAt < plan.nextRunAt) :
    (s.advance p d progress).Inv where
  sound := h.sound
  known d' hd' := by
    rcases List.mem_or_eq_of_mem_set hd' with hold | rfl
    · exact h.known d' hold
    · exact h.known d (List.mem_of_getElem? hd)
  due d' hd' := by
    rcases List.mem_or_eq_of_mem_set hd' with hold | rfl
    · exact h.due d' hold
    · exact ⟨(h.due d (List.mem_of_getElem? hd)).1, hplan⟩

/-- T1 adds a dispatch. -/
theorem Inv.claimed (h : s.Inv) {now : Instant} {schedulerId claimToken : String}
    {leaseSeconds : Int} {fallbackNow : Option Instant} {excludedIds skipped : List Uuid}
    {store : ScheduleStore} {claim : ClaimedSchedule}
    (hclaim : s.store.claimDueSchedule setup schedulerId leaseSeconds fallbackNow excludedIds
      claimToken now skipped = (store, some claim)) :
    SchedulerSystem.Inv ⟨store, s.dispatches ++ [⟨claim, .claimed⟩]⟩ := by
  have hstore := h.store (ScheduleStore.claimDueSchedule_keeps hclaim)
  obtain ⟨dueAt, r, hr, hclaimable, rfl, rfl⟩ := ScheduleStore.claimDueSchedule_some hclaim
  have hdue := ScheduleStore.claimOf_due schedulerId claimToken hclaimable
  refine ⟨hstore.sound, fun d hd => ?_, fun d hd => ?_⟩
  · rcases List.mem_append.mp hd with hold | hnew
    · exact hstore.known d hold
    · obtain rfl := List.mem_singleton.mp hnew
      have hnext : r.id < s.store.schedules.next := Table.lt_next_of_get? hr
      refine ⟨hnext, fun r' hr' => ?_⟩
      have hput : (s.store.schedules.put
          (ScheduleStore.claimedRow schedulerId claimToken leaseSeconds now r)).get? r.id
            = some (ScheduleStore.claimedRow schedulerId claimToken leaseSeconds now r) :=
        Table.get?_put_self hr rfl
      obtain rfl := Option.some.inj (hr'.symm.trans hput)
      rfl
  · rcases List.mem_append.mp hd with hold | hnew
    · exact hstore.due d hold
    · obtain rfl := List.mem_singleton.mp hnew
      exact ⟨hdue.2, by simp⟩

theorem finalize_keeps (h : s.Inv) {d : ScheduleDispatch} (hd : d ∈ s.dispatches)
    {plan : CronDuePlan} {now cutoff : Instant} {store : ScheduleStore}
    (hok : (s.store.finalizeScheduleClaim setup d.claim plan now cutoff).map (·.1) = .ok store) :
    Keeps s.store store := by
  obtain ⟨⟨store', created⟩, hfinalize, rfl⟩ := map_eq_ok.mp hok
  exact ScheduleStore.finalizeScheduleClaim_keeps (h.known d hd).2 hfinalize

/-- Every event keeps the invariant, and what the store has. -/
theorem Inv.step (h : s.Inv) (e : SchedulerEvent) :
    (SchedulerSystem.step setup s e).Inv
    ∧ Keeps s.store (SchedulerSystem.step setup s e).store := by
  -- whatever is one transaction keeps the invariant when what it commits keeps the fires
  have htransaction {x : Except DomainError ScheduleStore}
      (hx : ∀ store, x = .ok store → Keeps s.store store) :
      (s.commit x).Inv ∧ Keeps s.store (s.commit x).store :=
    ⟨h.commit hx, commit_keeps hx⟩
  cases e with
  | queue now call =>
    refine htransaction fun store hok => ?_
    obtain ⟨queue, hcall, rfl⟩ := map_eq_ok.mp hok
    exact ScheduleStore.queueCall_keeps hcall
  | createSchedule now payload =>
    refine htransaction fun store hok => ?_
    obtain ⟨⟨store', r⟩, hcreate, rfl⟩ := map_eq_ok.mp hok
    exact ScheduleStore.createSchedule_keeps hcreate
  | updateSchedule now scheduleId payload =>
    refine htransaction fun store hok => ?_
    obtain ⟨⟨store', r'⟩, hupdate, rfl⟩ := map_eq_ok.mp hok
    obtain ⟨r, hr, -, hid, htype, -, rfl⟩ := ScheduleStore.updateSchedule_ok hupdate
    exact ScheduleStore.keeps_putSchedule hr hid htype
  | deleteSchedule scheduleId =>
    exact htransaction fun store hok => ScheduleStore.deleteSchedule_keeps hok
  | runScheduleNow now scheduleId =>
    refine htransaction fun store hok => ?_
    obtain ⟨⟨store', fire⟩, hrun, rfl⟩ := map_eq_ok.mp hok
    exact ScheduleStore.runScheduleNow_keeps hrun
  | claim now schedulerId leaseSeconds fallbackNow excludedIds claimToken skipped =>
    show SchedulerSystem.Inv (s.claimDispatch setup now schedulerId leaseSeconds fallbackNow
        excludedIds claimToken skipped)
      ∧ Keeps s.store (s.claimDispatch setup now schedulerId leaseSeconds fallbackNow excludedIds
        claimToken skipped).store
    unfold claimDispatch
    cases hclaim : s.store.claimDueSchedule setup schedulerId leaseSeconds fallbackNow excludedIds
        claimToken now skipped with
    | mk store claim =>
      refine ⟨?_, ScheduleStore.claimDueSchedule_keeps hclaim⟩
      cases claim with
      | none =>
        have hinv := h.store (ScheduleStore.claimDueSchedule_keeps hclaim)
        simpa using hinv
      | some claim => exact h.claimed hclaim
  | plan p =>
    refine withDispatch_cases (P := fun s' => s'.Inv ∧ Keeps s.store s'.store) ⟨h, .refl _⟩
      fun d hd => ?_
    unfold planDispatch
    split
    · next plan _ hplan =>
      refine ⟨h.advance hd fun plan' hplan' => ?_, .refl _⟩
      -- a plan is made of what was claimed, and its instants come before the next run
      obtain rfl := ScheduleProgress.planned.inj hplan'
      exact ClaimedSchedule.duePlan_lt hplan
    · exact ⟨h, .refl _⟩
  | finalize p now cutoff =>
    refine withDispatch_cases (P := fun s' => s'.Inv ∧ Keeps s.store s'.store) ⟨h, .refl _⟩
      fun d hd => ?_
    unfold finalizeDispatch
    split
    · obtain ⟨hinv, hkeeps⟩ := htransaction fun store hok =>
        finalize_keeps h (List.mem_of_getElem? hd) hok
      exact ⟨hinv.advance hd (by simp), hkeeps⟩
    · exact ⟨h, .refl _⟩
    · exact ⟨h, .refl _⟩
  | abandon p =>
    refine withDispatch_cases (P := fun s' => s'.Inv ∧ Keeps s.store s'.store) ⟨h, .refl _⟩
      fun d hd => ?_
    unfold abandonDispatch
    split
    · have hrelease (store : ScheduleStore)
          (hok : (.ok (s.store.releaseScheduleClaim d.claim) : Except DomainError ScheduleStore)
            = .ok store) : Keeps s.store store := by
        obtain rfl := Except.ok.inj hok
        exact s.store.releaseScheduleClaim_keeps d.claim
      obtain ⟨hinv, hkeeps⟩ := htransaction hrelease
      exact ⟨hinv.advance hd (by simp), hkeeps⟩
    · exact ⟨h, .refl _⟩
    · exact ⟨h, .refl _⟩

theorem run_keeps (es : List SchedulerEvent) (h : s.Inv) :
    (Transition.run (SchedulerSystem.step setup) s es).Inv
      ∧ Keeps s.store (Transition.run (SchedulerSystem.step setup) s es).store := by
  induction es generalizing s with
  | nil => exact ⟨h, .refl _⟩
  | cons e es ih =>
    obtain ⟨hinv, hkeeps⟩ := h.step e
    obtain ⟨hrun, hkeeps'⟩ := ih hinv
    exact ⟨hrun, hkeeps.trans hkeeps'⟩

/-- The claims of all dispatches. -/
def claims (s : SchedulerSystem) : List ClaimedSchedule := s.dispatches.map (·.claim)

/-- A claim stays what T1 has made it. -/
theorem claims_advance {p : Nat} {d : ScheduleDispatch} (hd : s.dispatches[p]? = some d)
    (progress : ScheduleProgress) : (s.advance p d progress).claims = s.claims := by
  obtain ⟨hp, hget⟩ := List.getElem?_eq_some_iff.mp hd
  show (s.dispatches.set p { d with progress }).map (·.claim) = s.dispatches.map (·.claim)
  refine List.ext_getElem (by simp) fun q hq _ => ?_
  simp only [List.getElem_map, List.getElem_set]
  split
  · next hpq =>
    subst hpq
    rw [hget]
  · rfl

theorem step_claims (setup : Setup) (s : SchedulerSystem) (e : SchedulerEvent) :
    (SchedulerSystem.step setup s e).claims = s.claims
    ∨ ∃ now schedulerId leaseSeconds fallbackNow excludedIds skipped claim,
      e = .claim now schedulerId leaseSeconds fallbackNow excludedIds claim.claimToken skipped
        ∧ (SchedulerSystem.step setup s e).claims = s.claims ++ [claim] := by
  cases e with
  | queue | createSchedule | updateSchedule | deleteSchedule | runScheduleNow => exact .inl rfl
  | claim now schedulerId leaseSeconds fallbackNow excludedIds claimToken skipped =>
    show (s.claimDispatch setup now schedulerId leaseSeconds fallbackNow excludedIds claimToken
      skipped).claims = s.claims ∨ _
    cases hclaim : s.store.claimDueSchedule setup schedulerId leaseSeconds fallbackNow excludedIds
        claimToken now skipped with
    | mk store claim =>
      cases claim with
      | none => exact .inl (by simp [claimDispatch, hclaim, claims])
      | some claim =>
        obtain ⟨dueAt, r, -, -, rfl, -⟩ := ScheduleStore.claimDueSchedule_some hclaim
        refine .inr ⟨now, schedulerId, leaseSeconds, fallbackNow, excludedIds, skipped,
          ScheduleStore.claimOf schedulerId claimToken dueAt r, rfl, ?_⟩
        show (s.claimDispatch setup now schedulerId leaseSeconds fallbackNow excludedIds claimToken
          skipped).claims = _
        simp [claimDispatch, hclaim, claims]
  | plan p =>
    left
    refine withDispatch_cases (P := fun s' => s'.claims = s.claims) rfl fun d hd => ?_
    unfold planDispatch
    split
    · exact claims_advance hd _
    · rfl
  | finalize p now cutoff =>
    left
    refine withDispatch_cases (P := fun s' => s'.claims = s.claims) rfl fun d hd => ?_
    unfold finalizeDispatch
    split
    · next plan _ =>
      have hd' : (s.commit ((s.store.finalizeScheduleClaim setup d.claim plan now cutoff).map
        (·.1))).dispatches[p]? = some d := hd
      exact claims_advance hd' _
    · rfl
    · rfl
  | abandon p =>
    left
    refine withDispatch_cases (P := fun s' => s'.claims = s.claims) rfl fun d hd => ?_
    unfold abandonDispatch
    split
    · have hd' : (s.commit (.ok (s.store.releaseScheduleClaim d.claim))).dispatches[p]? = some d :=
        hd
      exact claims_advance hd' _
    · rfl
    · rfl

/-- No two claims have one token. -/
def TokensDistinct (s : SchedulerSystem) : Prop := (s.claims.map (·.claimToken)).Nodup

theorem TokensDistinct.step (h : s.TokensDistinct) {e : SchedulerEvent} (hfresh : s.Fresh e) :
    (SchedulerSystem.step setup s e).TokensDistinct := by
  unfold TokensDistinct at h ⊢
  rcases step_claims setup s e with hsame | ⟨_, _, _, _, _, _, claim, rfl, hadded⟩
  · rw [hsame]
    exact h
  · rw [hadded, List.map_append, List.nodup_append]
    refine ⟨h, by simp, fun token htoken token' htoken' => ?_⟩
    obtain rfl : token' = claim.claimToken := by simpa using htoken'
    obtain ⟨claim', hclaim', rfl⟩ := List.mem_map.mp htoken
    obtain ⟨d, hd, rfl⟩ := List.mem_map.mp hclaim'
    exact hfresh d hd

theorem TokensDistinct.eq (h : s.TokensDistinct) {p q : Nat} {d d' : ScheduleDispatch}
    (hd : s.dispatches[p]? = some d) (hd' : s.dispatches[q]? = some d')
    (htoken : d.claim.claimToken = d'.claim.claimToken) : p = q := by
  have htokens {q : Nat} {d : ScheduleDispatch} (hd : s.dispatches[q]? = some d) :
      (s.claims.map (·.claimToken))[q]? = some d.claim.claimToken := by
    simp [claims, hd]
  obtain ⟨hp, -⟩ := List.getElem?_eq_some_iff.mp (htokens hd)
  exact (List.getElem?_inj hp h).mp (by rw [htokens hd, htokens hd', htoken])

open ScheduleStore (IsCronFire IsCronTask Finalizable HeldBy)

/-- For an instant there is one fire and one task, then and later. -/
def FiresOnce (render : Rendering) (s s' : SchedulerSystem) : Prop :=
  ∀ k instant,
    (∀ fire ∈ s.store.fires.rows, ∀ fire' ∈ s'.store.fires.rows,
      IsCronFire render k instant fire → IsCronFire render k instant fire' → fire = fire')
    ∧ ∀ t ∈ s.store.queue.tasks.rows, ∀ t' ∈ s'.store.queue.tasks.rows,
      IsCronTask render k instant t → IsCronTask render k instant t' → t.id = t'.id

/-- A T2 whose row still has the claim, the version and the instant that it was planned for, under
a lease that has not run out, moves the schedule on. -/
def Advances (setup : Setup) (s : SchedulerSystem) : Prop :=
  ∀ d ∈ s.dispatches, ∀ plan, d.progress = .planned plan → ∀ now cutoff r store created,
    s.store.schedules.get? d.claim.id = some r →
    (r.enabled = true ∧ r.claimOwner = some d.claim.schedulerId
      ∧ r.claimTokenHash = some (tokenHash d.claim.claimToken)
      ∧ r.version = d.claim.expectedVersion ∧ r.nextRunAt = some d.claim.firstDue
      ∧ r.claimExpiresAt.any (cutoff < ·)) →
    s.store.finalizeScheduleClaim setup d.claim plan now cutoff = .ok (store, created) →
    ∃ due r', r.nextRunAt = some due ∧ due < plan.nextRunAt
      ∧ store.schedules.get? d.claim.id = some r' ∧ r'.nextRunAt = some plan.nextRunAt

/-- A T2 with an owner, a token, a version, an instant or a lease that is not the row's writes
nothing to the claims of others, and fires nothing. -/
def StaleHarmless (setup : Setup) (s : SchedulerSystem) : Prop :=
  ∀ (p : Nat) (d : ScheduleDispatch), s.dispatches[p]? = some d →
    ∀ plan now cutoff, (∀ r, s.store.schedules.get? d.claim.id = some r →
        r.enabled = false ∨ r.claimOwner ≠ some d.claim.schedulerId
          ∨ r.claimTokenHash ≠ some (tokenHash d.claim.claimToken)
          ∨ r.version ≠ d.claim.expectedVersion ∨ r.nextRunAt ≠ some d.claim.firstDue
          ∨ r.claimExpiresAt.all (· ≤ cutoff)) →
      ∃ store, s.store.finalizeScheduleClaim setup d.claim plan now cutoff = .ok (store, [])
        ∧ store.fires = s.store.fires ∧ store.queue = s.store.queue
        ∧ ∀ (q : Nat) (d' : ScheduleDispatch), q ≠ p → s.dispatches[q]? = some d' →
          ∀ r, s.store.schedules.get? d'.claim.id = some r →
            r.claimOwner = some d'.claim.schedulerId →
            r.claimTokenHash = some (tokenHash d'.claim.claimToken) →
            store.schedules.get? d'.claim.id = some r

theorem Inv.advances (h : s.Inv) : s.Advances setup := by
  intro d hd plan hplan now cutoff r store created hget hcurrent hok
  obtain ⟨henabled, howner, htoken, hversion, hinstant, hlease⟩ := hcurrent
  have hid : r.id = d.claim.id := Table.key_of_get? hget
  have hr : s.store.finalizable d.claim cutoff = some r :=
    ScheduleStore.finalizable_eq_some.mpr
      ⟨hget, ⟨hid, howner, htoken⟩, henabled, hversion, hinstant, hlease⟩
  obtain ⟨hdue, hlater⟩ := h.due d hd
  rcases ScheduleStore.finalizeScheduleClaim_ok hok with ⟨hnone, -⟩ | ⟨r₁, hr₁, hrounds⟩
  · rw [hnone] at hr
    simp at hr
  · obtain rfl := Option.some.inj (hr.symm.trans hr₁)
    refine ⟨d.claim.firstDue, ScheduleStore.finalizedRow plan now r, hinstant,
      hdue.trans_lt (hlater plan hplan), ?_, rfl⟩
    rw [ScheduleStore.FireSteps.schedules_eq hrounds]
    exact Table.get?_put_self hget hid

/-- A lease that is over. -/
theorem not_any_of_all_le {expiry : Option Instant} {cutoff : Instant}
    (h : expiry.all (· ≤ cutoff)) : ¬ expiry.any (cutoff < ·) := by
  cases expiry with
  | none => simp
  | some expiresAt =>
    have hover : expiresAt ≤ cutoff := by simpa using h
    simpa using hover

theorem TokensDistinct.staleHarmless (h : s.TokensDistinct) : s.StaleHarmless setup := by
  intro p d hd plan now cutoff hstale
  have hnone : s.store.finalizable d.claim cutoff = none := by
    refine Option.eq_none_iff_forall_ne_some.mpr fun r hr => ?_
    obtain ⟨hget, ⟨-, howner, htoken⟩, henabled, hversion, hinstant, hlease⟩ :=
      ScheduleStore.finalizable_eq_some.mp hr
    rcases hstale r hget with hoff | hother | hother | hother | hother | hover
    · rw [henabled] at hoff
      cases hoff
    · exact hother howner
    · exact hother htoken
    · exact hother hversion
    · exact hother hinstant
    · exact not_any_of_all_le hover hlease
  refine ⟨s.store.releaseScheduleClaim d.claim, ?_, ?_, ?_, fun q d' hq hd' r hr _ htoken' => ?_⟩
  · unfold ScheduleStore.finalizeScheduleClaim
    have hfilter : ((s.store.schedules.get? d.claim.id).filter fun r =>
        Finalizable d.claim cutoff r) = none := hnone
    rw [hfilter]
    rfl
  · unfold ScheduleStore.releaseScheduleClaim
    split
    · rfl
    · rfl
  · unfold ScheduleStore.releaseScheduleClaim
    split
    · rfl
    · rfl
  · unfold ScheduleStore.releaseScheduleClaim
    split
    · exact hr
    · next r₀ hr₀ =>
      obtain ⟨hget₀, hheld₀⟩ := Option.filter_eq_some_iff.mp hr₀
      have hother : r₀.id ≠ d'.claim.id := by
        intro hid
        have hsame : r₀ = r := by
          have hkey : d.claim.id = d'.claim.id := (of_decide_eq_true hheld₀).1.symm.trans hid
          rw [hkey, hr] at hget₀
          exact (Option.some.inj hget₀).symm
        subst hsame
        have htoken : tokenHash d'.claim.claimToken = tokenHash d.claim.claimToken :=
          Option.some.inj (htoken'.symm.trans (of_decide_eq_true hheld₀).2.2)
        exact hq (h.eq hd' hd (tokenHash_inj.mp htoken))
      rw [← hr]
      exact Table.get?_put_of_ne hother

theorem Inv.firesOnce {s' : SchedulerSystem} {render : Rendering} (hs' : s'.Inv)
    (hkeeps : Keeps s.store s'.store) : FiresOnce render s s' := by
  refine fun k instant => ⟨fun fire hfire fire' hfire' hcron hcron' => ?_,
    fun t ht t' ht' hcron hcron' => ?_⟩
  · exact hs'.sound.fires fire (hkeeps.fires fire hfire) fire' hfire' (hcron.1.trans hcron'.1.symm)
      (hcron.2.trans hcron'.2.symm)
  · obtain ⟨t₁, ht₁, hsame⟩ := hkeeps.tasks t.id t (Table.get?_key ht)
    have hmem := Table.mem_of_get? ht₁
    have hsource : t₁.sourceScheduleId = some k := hsame.sourceScheduleId.trans hcron.1
    obtain ⟨r, hr, htype⟩ := hs'.sound.origin t₁ hmem k hsource
    obtain ⟨r', hr', htype'⟩ := hs'.sound.origin t' ht' k hcron'.1
    obtain rfl := Option.some.inj (hr.symm.trans hr')
    rw [← hsame.id]
    exact hs'.sound.keys t₁ hmem t' ht' (htype.symm.trans htype') _
      (hsame.idempotencyKey.trans hcron.2) hcron'.2

/-- Over a run `es` and what comes after it: an instant fires once, every T2 moves its
schedule on, and a stale T2 does no harm. -/
theorem cron_fires_once (setup : Setup) (es fs : List SchedulerEvent)
    (h : Transition.Along Fresh (SchedulerSystem.step setup) empty (es ++ fs)) :
    FiresOnce setup.render (Transition.run (SchedulerSystem.step setup) empty es)
        (Transition.run (SchedulerSystem.step setup) empty (es ++ fs))
      ∧ (Transition.run (SchedulerSystem.step setup) empty es).Advances setup
      ∧ (Transition.run (SchedulerSystem.step setup) empty es).StaleHarmless setup := by
  obtain ⟨hinv, -⟩ := run_keeps es empty_inv
  obtain ⟨hinv', hkeeps⟩ := run_keeps fs hinv
  have htokens : (Transition.run (SchedulerSystem.step setup) empty es).TokensDistinct :=
    Transition.invariant_along (fun _ _ hs hfresh => hs.step hfresh)
      (by simp [TokensDistinct, claims, empty]) ((Transition.along_append empty es fs).mp h).1
  rw [Transition.run_append]
  exact ⟨hinv'.firesOnce hkeeps, hinv.advances, htokens.staleHarmless⟩

/-- A schedule that is due each minute, and a lease that runs out while its holder plans. -/
def slowPlanner : List SchedulerEvent :=
  [.createSchedule 0 ⟨"nightly", "synthetic", "\x7b\x7d", "default", 50, 3, "* * * * *", "UTC",
      .fireOnce, .forbid, 60, 3, true⟩,
    .claim 60000000 "a" 5 none [] "first" [],
    .plan 0,
    .claim 66000000 "b" 5 none [] "second" [],
    .plan 1,
    .finalize 1 67000000 67000000]

/-- Every minute matches an expression of stars. -/
def lesson : Setup :=
  ⟨["synthetic"], ⟨fun i => toString i, fun u => toString u⟩,
    fun _ => some fun _ => ⟨0, 0, 1, 1, 0⟩,
    true⟩

theorem cron_fires_once_slowPlanner :
    ((Transition.run (SchedulerSystem.step lesson) empty
        (slowPlanner ++ [.finalize 0 67500000 67500000])).store.fires.rows.map (·.fireKey)
      = ["cron:60000000"])
    ∧ FiresOnce lesson.render (Transition.run (SchedulerSystem.step lesson) empty slowPlanner)
        (Transition.run (SchedulerSystem.step lesson) empty
          (slowPlanner ++ [.finalize 0 67500000 67500000])) := by
  refine ⟨by decide +kernel, (cron_fires_once lesson slowPlanner _ ?_).1⟩
  refine ⟨trivial, ?_, trivial, ?_, trivial, trivial, trivial, trivial⟩
  · show ∀ d ∈ _, _
    decide +kernel
  · show ∀ d ∈ _, _
    decide +kernel

end SchedulerSystem

end QaPlatform.Runtime
