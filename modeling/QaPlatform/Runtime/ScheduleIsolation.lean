import QaPlatform.Runtime.ScheduleNamespace

/-!
# What a claimed schedule needs to be finalised

T2 raises when it asks for a task whose key a user has taken, or whose document is
too large, and then nothing of it is committed. Everything else it can meet it
copes with, and then every selected instant has its fire.

`Clear` says that no instant of the plan is refused its task. The proof goes down to the rounds
of T2's loops: a round sees to its instant and to no other, and goes through exactly when its
task does. `claim_finalises_iff_clear` holds in every state that schedulers, users and edits
lead to. In the counterexample a user who knows the schedule's next instant has enqueued a task
under its key.
-/

namespace QaPlatform.Runtime

namespace ScheduleStore

variable {setup : Setup} {schedule : ClaimedSchedule} {now : Instant} {s s' : ScheduleStore}

/-- A user's task has the key of the task of an instant. -/
def Taken (render : Rendering) (s : ScheduleStore) (schedule : ClaimedSchedule)
    (instant : Instant) : Prop :=
  ∃ t ∈ s.queue.tasks.rows, t.sourceScheduleId = none ∧ t.taskType = schedule.taskType
    ∧ t.idempotencyKey = some (render.scheduleKey schedule.id instant)

/-- The document of the task of an instant exceeds the limit. -/
def Oversized (render : Rendering) (schedule : ClaimedSchedule) (instant : Instant) : Prop :=
  262144 < ((fireRequest render schedule instant).request render (some schedule.id)).utf8ByteSize

/-- The selected instants that have no fire, nor get one as a misfire. -/
def openInstants (render : Rendering) (s : ScheduleStore) (schedule : ClaimedSchedule)
    (plan : CronDuePlan) : List Instant :=
  plan.selected.filter fun i => ¬ s.HasFire schedule.id (render.cronFireKey i)
    ∧ ∀ j ∈ plan.skipped, render.cronFireKey j ≠ render.cronFireKey i

/-- The instants that T2 wants a task for; `forbid` wants one, unless a task is active. -/
def requestedInstants (render : Rendering) (s : ScheduleStore) (schedule : ClaimedSchedule)
    (plan : CronDuePlan) : List Instant :=
  if schedule.overlapPolicy = .forbid then
    if s.activeForSchedule schedule.id = [] then (s.openInstants render schedule plan).take 1
    else []
  else s.openInstants render schedule plan

/-- No instant that the schedule's plan wants a task for is refused one. -/
def Clear (setup : Setup) (s : ScheduleStore) (schedule : ClaimedSchedule) : Prop :=
  ∃ plan, schedule.duePlan setup.zones = .ok plan
    ∧ ∀ i ∈ s.requestedInstants setup.render schedule plan,
      ¬ s.Taken setup.render schedule i ∧ ¬ Oversized setup.render schedule i

/-- The tick that has claimed a schedule moves it on, and every selected instant has a
fire whose task, if there is one, is the schedule's. -/
def Finalises (setup : Setup) (s : ScheduleStore) (schedule : ClaimedSchedule)
    (now cutoff : Instant) : Prop :=
  ∃ plan store created, schedule.duePlan setup.zones = .ok plan
    ∧ s.executeScheduleClaim setup schedule now cutoff = (store, .ok created)
    ∧ (∃ r, store.schedules.get? schedule.id = some r ∧ r.nextRunAt = some plan.nextRunAt
      ∧ schedule.firstDue < plan.nextRunAt)
    ∧ ∀ i ∈ plan.selected, ∃ fire ∈ store.fires.rows,
      IsCronFire setup.render schedule.id i fire ∧ ∀ id, fire.taskId = some id →
        ∃ t, store.queue.tasks.get? id = some t ∧ t.sourceScheduleId = some schedule.id

/-! ## Rounds -/

theorem hasFire_fired (queue : TaskStore) {k k' : Uuid} {key key' : String}
    {scheduledFor : Instant} {status : Automation.ScheduleFireStatus} {taskId : Option Uuid} :
    HasFire { s with queue, fires := s.fired k key scheduledFor status taskId now } k' key'
      ↔ s.HasFire k' key' ∨ (k = k' ∧ key = key') := by
  constructor
  · rintro ⟨fire, hfire, hk, hkey⟩
    rcases mem_fired.mp hfire with hold | rfl
    · exact .inl ⟨fire, hold, hk, hkey⟩
    · exact .inr ⟨hk, hkey⟩
  · rintro (hfire | ⟨rfl, rfl⟩)
    · exact hfire.mono fun fire hold => mem_fired.mpr (.inl hold)
    · exact ⟨_, mem_fired.mpr (.inr rfl), rfl, rfl⟩

/-- A round sees to its instant and to no other. -/
theorem FireStep.hasFire {instant : Instant} (h : FireStep setup schedule now s instant s')
    {key : String} : s'.HasFire schedule.id key
      ↔ s.HasFire schedule.id key ∨ setup.render.cronFireKey instant = key := by
  cases h with
  | present hfire =>
    refine ⟨.inl, ?_⟩
    rintro (hold | rfl)
    · exact hold
    · exact hfire
  | skipped status hnew =>
    rw [hasFire_fired s.queue]
    simp
  | enqueued queue queue' task replayed hnew hreplaced henqueued =>
    rw [hasFire_fired]
    simp

/-- Rounds take no key for a user. -/
theorem FireStep.taken {instant i : Instant} {schedule' : ClaimedSchedule}
    (h : FireStep setup schedule now s instant s') :
    s'.Taken setup.render schedule' i ↔ s.Taken setup.render schedule' i := by
  cases h with
  | present => rfl
  | skipped => rfl
  | enqueued queue queue' task replayed hnew hreplaced henqueued =>
    constructor
    · rintro ⟨t, ht, hsource, htype, hkey⟩
      rcases TaskStore.enqueueRecord_mem henqueued ht with hold | ⟨rfl, -, -, hown, -⟩
      · obtain ⟨t₀, ht₀, hsame⟩ := hreplaced.rowsFrom t hold
        exact ⟨t₀, ht₀, hsame.sourceScheduleId ▸ hsource, hsame.taskType ▸ htype,
          hsame.idempotencyKey ▸ hkey⟩
      · rw [hown] at hsource
        simp at hsource
    · rintro ⟨t, ht, hsource, htype, hkey⟩
      have hstay : s.queue.RowsStay queue' :=
        hreplaced.rowsStay.trans (TaskStore.enqueueRecord_rowsStay henqueued)
      obtain ⟨t', ht', hsame⟩ := hstay t.id t (Table.get?_key ht)
      exact ⟨t', Table.mem_of_get? ht', hsame.sourceScheduleId.trans hsource,
        hsame.taskType.trans htype, hsame.idempotencyKey.trans hkey⟩

/-- Instants with one text share their fate. -/
theorem taken_congr {render : Rendering} {i j : Instant}
    (h : render.isoformat i = render.isoformat j) :
    s.Taken render schedule i ↔ s.Taken render schedule j := by
  unfold Taken Rendering.scheduleKey
  rw [h]

theorem oversized_congr {render : Rendering} {i j : Instant}
    (h : render.isoformat i = render.isoformat j) :
    Oversized render schedule i ↔ Oversized render schedule j := by
  unfold Oversized TaskEnqueue.request fireRequest
  simp only [jsonOption, h]

/-- A schedule's task for an instant has its fire. -/
theorem Traced.fire_of_key (hr : setup.render.Faithful) (h : s.Traced setup)
    {t : AutomationTaskRecord} (ht : t ∈ s.queue.tasks.rows) {k k' : Uuid} {i : Instant}
    (hsource : t.sourceScheduleId = some k')
    (hkey : t.idempotencyKey = some (setup.render.scheduleKey k i)) :
    s.HasFire k (setup.render.cronFireKey i) := by
  rcases h.named t ht k' hsource with ⟨i', hkey', hfire⟩ | ⟨f, hkey'⟩
  · obtain ⟨rfl, hiso⟩ := hr.scheduleKey_inj (Option.some.inj (hkey.symm.trans hkey'))
    have hsame : setup.render.cronFireKey i = setup.render.cronFireKey i' := by
      unfold Rendering.cronFireKey
      rw [hiso]
    rw [hsame]
    exact hfire
  · exact absurd (Option.some.inj (hkey.symm.trans hkey'))
      (Rendering.scheduleKey_ne_manualKey k k' f i)

/-- The task that a round asks for is there already only if a user has taken its key. -/
theorem Traced.free_iff (hr : setup.render.Faithful) (h : s.Traced setup) {instant : Instant}
    (hopen : ¬ s.HasFire schedule.id (setup.render.cronFireKey instant)) :
    (∀ t ∈ s.queue.tasks.rows, ¬ (t.taskType = schedule.taskType
        ∧ t.idempotencyKey = some (setup.render.scheduleKey schedule.id instant)))
      ↔ ¬ s.Taken setup.render schedule instant := by
  constructor
  · rintro hfree ⟨t, ht, -, htype, hkey⟩
    exact hfree t ht ⟨htype, hkey⟩
  · rintro hnot t ht ⟨htype, hkey⟩
    cases hsource : t.sourceScheduleId with
    | none => exact hnot ⟨t, ht, hsource, htype, hkey⟩
    | some k => exact hopen (h.fire_of_key hr ht hsource hkey)

/-- An enqueue for an open instant: it is refused a taken key and an oversized document. -/
theorem enqueueRecord_open (now : Instant) (hr : setup.render.Faithful) (h : s.Traced setup)
    {instant : Instant}
    (htype : schedule.taskType ∈ setup.taskTypes)
    (hopen : ¬ s.HasFire schedule.id (setup.render.cronFireKey instant)) :
    (∃ x, s.queue.enqueueRecord setup.taskTypes setup.render
        (fireRequest setup.render schedule instant) (some schedule.id) now = .ok x)
      ↔ ¬ s.Taken setup.render schedule instant ∧ ¬ Oversized setup.render schedule instant := by
  rw [← h.free_iff hr hopen]
  constructor
  · rintro ⟨⟨queue, t, replayed⟩, henqueued⟩
    refine ⟨fun t' ht' hkeys => ?_, (TaskStore.enqueueRecord_accepted henqueued).2.1⟩
    rcases TaskStore.enqueueRecord_ok henqueued
      with ⟨-, rfl, ht, htype', ⟨key, hkey, hkey'⟩, hprint⟩ | ⟨-, fingerprint, -, hfree, -⟩
    · -- the task under the key would be the schedule's, with a fire for the instant
      obtain rfl : setup.render.scheduleKey schedule.id instant = key := Option.some.inj hkey
      have hsource := h.owned hr ht (.inl ⟨instant, rfl⟩) hkey' htype' hprint
      exact hopen (h.fire_of_key hr ht hsource hkey')
    · exact hfree _ rfl t' ht' hkeys
  · rintro ⟨hfree, hsize⟩
    have hnew : ∃ queue t, s.queue.enqueueRecord setup.taskTypes setup.render
        (fireRequest setup.render schedule instant) (some schedule.id) now
          = .ok (queue, t, false) := by
      refine TaskStore.enqueueRecord_new h.refers htype hsize fun key hkey t ht => ?_
      obtain rfl : setup.render.scheduleKey schedule.id instant = key := Option.some.inj hkey
      exact hfree t ht
    obtain ⟨queue, t, henqueued⟩ := hnew
    exact ⟨_, henqueued⟩

/-- The queue that a round enqueues to. -/
def replacedQueue (s : ScheduleStore) (schedule : ClaimedSchedule) (now : Instant) : TaskStore :=
  if schedule.overlapPolicy = .replace then
    (s.activeForSchedule schedule.id).foldl (replaceTask now) s.queue
  else s.queue

theorem replacedQueue_writes (s : ScheduleStore) (schedule : ClaimedSchedule) (now : Instant) :
    TaskStore.Writes (fun _ => False) now s.queue (s.replacedQueue schedule now) := by
  unfold replacedQueue
  split
  · exact s.activeForSchedule_writes schedule.id now
  · exact .refl

theorem taken_writes {queue : TaskStore} {i : Instant}
    (h : TaskStore.Writes (fun _ => False) now s.queue queue) :
    Taken setup.render { s with queue } schedule i ↔ s.Taken setup.render schedule i := by
  constructor
  · rintro ⟨t, ht, hsource, htype, hkey⟩
    obtain ⟨t₀, ht₀, hsame⟩ := h.rowsFrom t ht
    exact ⟨t₀, ht₀, hsame.sourceScheduleId ▸ hsource, hsame.taskType ▸ htype,
      hsame.idempotencyKey ▸ hkey⟩
  · rintro ⟨t, ht, hsource, htype, hkey⟩
    obtain ⟨t', ht', hsame⟩ := h.rowsStay t.id t (Table.get?_key ht)
    exact ⟨t', Table.mem_of_get? ht', hsame.sourceScheduleId.trans hsource,
      hsame.taskType.trans htype, hsame.idempotencyKey.trans hkey⟩

/-- A round that does not wait for an active task goes through when its task does; then
there is an active task. -/
theorem fireInstant_open (now : Instant) (hr : setup.render.Faithful) (h : s.Traced setup)
    {instant : Instant} (htype : schedule.taskType ∈ setup.taskTypes)
    (hopen : ¬ s.HasFire schedule.id (setup.render.cronFireKey instant))
    (hoverlap : ¬ (schedule.overlapPolicy = .forbid ∧ s.activeForSchedule schedule.id ≠ [])) :
    ((∃ x, fireInstant setup schedule now s instant = .ok x)
      ↔ ¬ s.Taken setup.render schedule instant ∧ ¬ Oversized setup.render schedule instant)
    ∧ ∀ s' fire, fireInstant setup schedule now s instant = .ok (s', fire) →
      s'.activeForSchedule schedule.id ≠ [] := by
  have hwrites := s.replacedQueue_writes schedule now
  have htraced : Traced setup { s with queue := s.replacedQueue schedule now } := h.writes hwrites
  have henqueue := enqueueRecord_open now hr htraced htype hopen
  rw [taken_writes hwrites] at henqueue
  have hbody (x : ScheduleStore × Option ScheduleFireRecord) :
      fireInstant setup schedule now s instant = .ok x
        ↔ ∃ y, (s.replacedQueue schedule now).enqueueRecord setup.taskTypes setup.render
            (fireRequest setup.render schedule instant) (some schedule.id) now = .ok y
          ∧ ∃ z, { s with queue := y.1 }.addFire schedule.id (setup.render.cronFireKey instant)
            instant .enqueued (some y.2.1.id) now = .ok z ∧ (z.1, some z.2) = x := by
    unfold fireInstant
    rw [if_neg hopen]
    dsimp only
    rw [if_neg hoverlap, bind_eq_ok]
    refine exists_congr fun y => and_congr_right fun _ => ?_
    rw [bind_eq_ok]
    exact exists_congr fun z => and_congr_right fun _ => pure_eq_ok
  refine ⟨⟨?_, fun hclear => ?_⟩, fun s' fire hok => ?_⟩
  · rintro ⟨x, hok⟩
    obtain ⟨y, henqueued, -⟩ := (hbody x).mp hok
    exact henqueue.mp ⟨y, henqueued⟩
  · obtain ⟨y, henqueued⟩ := henqueue.mpr hclear
    exact ⟨_, (hbody _).mpr ⟨y, henqueued, _, addFire_eq_ok.mpr ⟨hopen, rfl, rfl⟩, rfl⟩⟩
  · obtain ⟨⟨queue, task, replayed⟩, henqueued, ⟨s₁, fire₁⟩, hadd, heq⟩ := (hbody _).mp hok
    obtain ⟨-, rfl, -⟩ := addFire_eq_ok.mp hadd
    obtain ⟨rfl, -⟩ := Prod.mk.inj heq
    have hfree := (htraced.free_iff hr hopen).mpr ((taken_writes hwrites).not.mpr
      (henqueue.mp ⟨_, henqueued⟩).1)
    rcases TaskStore.enqueueRecord_ok henqueued
      with ⟨-, -, ht, htype', ⟨key, hkey, hkey'⟩, -⟩ | ⟨-, fingerprint, htask, -, -, rfl⟩
    · obtain rfl : setup.render.scheduleKey schedule.id instant = key := Option.some.inj hkey
      exact absurd ⟨htype', hkey'⟩ (hfree task ht)
    · have hactive : task.sourceScheduleId = some schedule.id ∧ (task.status = .queued
          ∨ task.status = .running ∨ task.status = .retryWait) := by
        rw [htask]
        exact ⟨rfl, .inl rfl⟩
      refine List.ne_nil_of_mem (List.mem_filter.mpr ⟨?_, decide_eq_true hactive⟩)
      rw [htask]
      exact List.mem_append_right _ List.mem_cons_self

/-- A round for a misfire, or one that finds an active task, takes no task. -/
theorem createFireIfAbsent_total (setup : Setup) (schedule : ClaimedSchedule) (now : Instant)
    (s : ScheduleStore) (status : Automation.ScheduleFireStatus) (instant : Instant) :
    ∃ s' fire, createFireIfAbsent setup.render schedule.id status now s instant = .ok (s', fire)
      ∧ s'.queue = s.queue := by
  unfold createFireIfAbsent
  split
  · exact ⟨s, none, rfl, rfl⟩
  · next hnew =>
    exact ⟨_, _, bind_eq_ok.mpr ⟨_, addFire_eq_ok.mpr ⟨hnew, rfl, rfl⟩, rfl⟩, rfl⟩

theorem fireInstant_overlap (setup : Setup) (now instant : Instant)
    (hforbid : schedule.overlapPolicy = .forbid)
    (hactive : s.activeForSchedule schedule.id ≠ []) :
    ∃ s' fire, fireInstant setup schedule now s instant = .ok (s', fire) ∧ s'.queue = s.queue := by
  unfold fireInstant
  split
  · exact ⟨s, none, rfl, rfl⟩
  · dsimp only
    rw [if_pos ⟨hforbid, hactive⟩]
    exact createFireIfAbsent_total setup schedule now s .skippedOverlap instant

theorem fireInstant_present {instant : Instant}
    (h : s.HasFire schedule.id (setup.render.cronFireKey instant)) :
    fireInstant setup schedule now s instant = .ok (s, none) := by
  unfold fireInstant
  rw [if_pos h]
  rfl

/-! ## Loops -/

section
variable {one : ScheduleStore → Instant →
  Except DomainError (ScheduleStore × Option ScheduleFireRecord)}

theorem fireAll_cons_ok {instant : Instant} {instants : List Instant} :
    (∃ x, fireAll one s (instant :: instants) = .ok x)
      ↔ ∃ s₁ fire, one s instant = .ok (s₁, fire) ∧ ∃ x, fireAll one s₁ instants = .ok x := by
  constructor
  · rintro ⟨x, h⟩
    obtain ⟨⟨s₁, fire⟩, hfirst, h⟩ := bind_eq_ok.mp h
    obtain ⟨y, hrest, -⟩ := bind_eq_ok.mp h
    exact ⟨s₁, fire, hfirst, y, hrest⟩
  · rintro ⟨s₁, fire, hfirst, y, hrest⟩
    exact ⟨_, bind_eq_ok.mpr ⟨_, hfirst, bind_eq_ok.mpr ⟨_, hrest, rfl⟩⟩⟩

/-- A loop sees to its instants and to no others. -/
theorem fireAll_hasFire
    (hone : ∀ {s s' : ScheduleStore} {instant : Instant} {fire : Option ScheduleFireRecord},
      one s instant = .ok (s', fire) → FireStep setup schedule now s instant s')
    {instants : List Instant} {created : List ScheduleFireRecord}
    (h : fireAll one s instants = .ok (s', created)) {key : String} :
    s'.HasFire schedule.id key
      ↔ s.HasFire schedule.id key ∨ ∃ i ∈ instants, setup.render.cronFireKey i = key := by
  induction instants generalizing s created with
  | nil =>
    obtain ⟨rfl, -⟩ := Prod.mk.inj (pure_eq_ok.mp h)
    simp
  | cons instant instants ih =>
    unfold fireAll at h
    obtain ⟨⟨s₁, fire⟩, hfirst, h⟩ := bind_eq_ok.mp h
    obtain ⟨⟨s₂, created₂⟩, hrest, h⟩ := bind_eq_ok.mp h
    obtain ⟨rfl, -⟩ := Prod.mk.inj (pure_eq_ok.mp h)
    rw [ih hrest, (hone hfirst).hasFire]
    simp [or_assoc]

end

/-- The misfires are recorded whatever there is. -/
theorem fireAll_misfires (setup : Setup) (schedule : ClaimedSchedule) (now : Instant)
    (s : ScheduleStore) (instants : List Instant) :
    ∃ s' created, fireAll (createFireIfAbsent setup.render schedule.id .skippedMisfire now) s
      instants = .ok (s', created) ∧ s'.queue = s.queue := by
  induction instants generalizing s with
  | nil => exact ⟨s, [], rfl, rfl⟩
  | cons instant instants ih =>
    obtain ⟨s₁, fire, hfirst, hqueue₁⟩ :=
      createFireIfAbsent_total setup schedule now s .skippedMisfire instant
    obtain ⟨s₂, created, hrest, hqueue₂⟩ := ih s₁
    exact ⟨s₂, _, bind_eq_ok.mpr ⟨_, hfirst, bind_eq_ok.mpr ⟨_, hrest, rfl⟩⟩,
      hqueue₂.trans hqueue₁⟩

/-- Next to an active task `forbid` asks for nothing. -/
theorem fireAll_overlap (hforbid : schedule.overlapPolicy = .forbid) (instants : List Instant)
    (hactive : s.activeForSchedule schedule.id ≠ []) :
    ∃ x, fireAll (fireInstant setup schedule now) s instants = .ok x := by
  induction instants generalizing s with
  | nil => exact ⟨_, rfl⟩
  | cons instant instants ih =>
    obtain ⟨s₁, fire, hfirst, hqueue⟩ :=
      fireInstant_overlap setup now instant hforbid hactive
    refine fireAll_cons_ok.mpr ⟨s₁, fire, hfirst, ih ?_⟩
    have hsame : s₁.activeForSchedule schedule.id = s.activeForSchedule schedule.id := by
      unfold activeForSchedule
      rw [hqueue]
    rw [hsame]
    exact hactive

/-- The instants of a list that have no fire. -/
def unfired (render : Rendering) (s : ScheduleStore) (schedule : ClaimedSchedule)
    (instants : List Instant) : List Instant :=
  instants.filter fun i => ¬ s.HasFire schedule.id (render.cronFireKey i)

theorem unfired_cons_present {instant : Instant} {instants : List Instant}
    (h : s.HasFire schedule.id (setup.render.cronFireKey instant)) :
    s.unfired setup.render schedule (instant :: instants)
      = s.unfired setup.render schedule instants := by
  simp [unfired, h]

theorem unfired_cons_open {instant : Instant} {instants : List Instant}
    (h : ¬ s.HasFire schedule.id (setup.render.cronFireKey instant)) :
    s.unfired setup.render schedule (instant :: instants)
      = instant :: s.unfired setup.render schedule instants := by
  simp [unfired, h]

/-- Without `forbid` the loop goes through when every open instant gets its task. -/
theorem fireAll_open (hr : setup.render.Faithful) (htype : schedule.taskType ∈ setup.taskTypes)
    (hforbid : schedule.overlapPolicy ≠ .forbid) (instants : List Instant)
    (h : s.Traced setup) :
    (∃ x, fireAll (fireInstant setup schedule now) s instants = .ok x)
      ↔ ∀ i ∈ s.unfired setup.render schedule instants,
        ¬ s.Taken setup.render schedule i ∧ ¬ Oversized setup.render schedule i := by
  induction instants generalizing s with
  | nil => exact ⟨fun _ => by simp [unfired], fun _ => ⟨_, rfl⟩⟩
  | cons instant instants ih =>
    rw [fireAll_cons_ok]
    by_cases hopen : s.HasFire schedule.id (setup.render.cronFireKey instant)
    · rw [unfired_cons_present hopen, ← ih h, fireInstant_present hopen]
      simp
    · rw [unfired_cons_open hopen, List.forall_mem_cons]
      have hfirst := (fireInstant_open now hr h htype hopen (by simp [hforbid])).1
      constructor
      · rintro ⟨s₁, fire, hone, hrest⟩
        have hclear := hfirst.mp ⟨_, hone⟩
        have hstep := fireInstant_ok hone
        rw [ih (hstep.traced hr h)] at hrest
        refine ⟨hclear, fun i hi => ?_⟩
        obtain ⟨hmem, hi⟩ := List.mem_filter.mp hi
        by_cases hsame : setup.render.cronFireKey instant = setup.render.cronFireKey i
        · have hiso := Rendering.isoformat_eq_of_cronFireKey hsame
          rw [← taken_congr hiso, ← oversized_congr hiso]
          exact hclear
        · rw [← hstep.taken]
          refine hrest i (List.mem_filter.mpr ⟨hmem, decide_eq_true ?_⟩)
          rw [hstep.hasFire]
          exact not_or.mpr ⟨of_decide_eq_true hi, hsame⟩
      · rintro ⟨hclear, hrest⟩
        obtain ⟨⟨s₁, fire⟩, hone⟩ := hfirst.mpr hclear
        have hstep := fireInstant_ok hone
        refine ⟨s₁, fire, hone, (ih (hstep.traced hr h)).mpr fun i hi => ?_⟩
        obtain ⟨hmem, hi⟩ := List.mem_filter.mp hi
        rw [hstep.taken]
        refine hrest i (List.mem_filter.mpr ⟨hmem, decide_eq_true fun hfire => ?_⟩)
        exact of_decide_eq_true hi (hstep.hasFire.mpr (.inl hfire))

/-- With `forbid`, and no active task, it is the first open instant that has to. -/
theorem fireAll_forbid (hr : setup.render.Faithful) (htype : schedule.taskType ∈ setup.taskTypes)
    (hforbid : schedule.overlapPolicy = .forbid) (instants : List Instant) (h : s.Traced setup)
    (hactive : s.activeForSchedule schedule.id = []) :
    (∃ x, fireAll (fireInstant setup schedule now) s instants = .ok x)
      ↔ ∀ i ∈ (s.unfired setup.render schedule instants).take 1,
        ¬ s.Taken setup.render schedule i ∧ ¬ Oversized setup.render schedule i := by
  induction instants with
  | nil => exact ⟨fun _ => by simp [unfired], fun _ => ⟨_, rfl⟩⟩
  | cons instant instants ih =>
    rw [fireAll_cons_ok]
    by_cases hopen : s.HasFire schedule.id (setup.render.cronFireKey instant)
    · rw [unfired_cons_present hopen, ← ih, fireInstant_present hopen]
      simp
    · obtain ⟨hfirst, hlater⟩ :=
        fireInstant_open now hr h htype hopen (by simp [hactive])
      rw [unfired_cons_open hopen, List.take_one]
      simp only [List.head?_cons, Option.toList_some, List.forall_mem_singleton]
      rw [← hfirst]
      constructor
      · rintro ⟨s₁, fire, hone, -⟩
        exact ⟨_, hone⟩
      · rintro ⟨⟨s₁, fire⟩, hone⟩
        exact ⟨s₁, fire, hone, fireAll_overlap hforbid instants (hlater s₁ fire hone)⟩

/-! ## The transaction -/

/-- T2 after its compare-and-set goes through when no requested instant is refused. -/
theorem finalizeScheduleClaim_total (now : Instant) (hr : setup.render.Faithful)
    (h : s.Traced setup) (htype : schedule.taskType ∈ setup.taskTypes) {plan : CronDuePlan}
    {cutoff : Instant}
    {r : ScheduleRecord} (hrow : s.finalizable schedule cutoff = some r) :
    (∃ x, s.finalizeScheduleClaim setup schedule plan now cutoff = .ok x)
      ↔ ∀ i ∈ s.requestedInstants setup.render schedule plan,
        ¬ s.Taken setup.render schedule i ∧ ¬ Oversized setup.render schedule i := by
  obtain ⟨hget, hheld⟩ := finalizable_eq_some.mp hrow
  have hown : s.schedules.get? r.id = some r := by rw [hheld.1.1, hget]
  have htraced : Traced setup { s with schedules := s.schedules.put (finalizedRow plan now r) } :=
    h.putSchedule hown rfl
  obtain ⟨s₁, misfires, hmisfires, hqueue⟩ := fireAll_misfires setup schedule now
    { s with schedules := s.schedules.put (finalizedRow plan now r) } plan.skipped
  have htraced₁ : s₁.Traced setup := (fireAll_ok createFireIfAbsent_ok hmisfires).traced hr htraced
  have hbody : (∃ x, s.finalizeScheduleClaim setup schedule plan now cutoff = .ok x)
      ↔ ∃ x, fireAll (fireInstant setup schedule now) s₁ plan.selected = .ok x := by
    unfold finalizeScheduleClaim
    rw [show ((s.schedules.get? schedule.id).filter fun r => Finalizable schedule cutoff r)
      = some r from hrow]
    dsimp only
    rw [hmisfires]
    constructor
    · rintro ⟨x, hok⟩
      obtain ⟨y, hfirst, hok⟩ := bind_eq_ok.mp hok
      obtain rfl := Except.ok.inj hfirst
      obtain ⟨z, hloop, -⟩ := bind_eq_ok.mp hok
      exact ⟨z, hloop⟩
    · rintro ⟨z, hloop⟩
      exact ⟨_, bind_eq_ok.mpr ⟨_, rfl, bind_eq_ok.mpr ⟨z, hloop, rfl⟩⟩⟩
  -- what the loop over the selected instants starts from, told of the store before
  have hopen : s₁.unfired setup.render schedule plan.selected
      = s.openInstants setup.render schedule plan := by
    refine List.filter_congr fun i _ => decide_eq_decide.mpr ?_
    rw [fireAll_hasFire createFireIfAbsent_ok hmisfires]
    show ¬ (s.HasFire schedule.id _ ∨ _) ↔ _
    rw [not_or]
    exact and_congr_right fun _ => by simp
  have hactive : s₁.activeForSchedule schedule.id = s.activeForSchedule schedule.id := by
    unfold activeForSchedule
    rw [hqueue]
  have htaken (i : Instant) :
      s₁.Taken setup.render schedule i ↔ s.Taken setup.render schedule i := by
    unfold Taken
    rw [hqueue]
  rw [hbody]
  unfold requestedInstants
  by_cases hforbid : schedule.overlapPolicy = .forbid
  · rw [if_pos hforbid]
    by_cases hnone : s.activeForSchedule schedule.id = []
    · rw [if_pos hnone, fireAll_forbid hr htype hforbid _ htraced₁ (hactive.trans hnone), hopen]
      simp only [htaken]
    · rw [if_neg hnone]
      refine ⟨fun _ => by simp, fun _ => fireAll_overlap hforbid _ ?_⟩
      rw [hactive]
      exact hnone
  · rw [if_neg hforbid, fireAll_open hr htype hforbid _ htraced₁, hopen]
    simp only [htaken]

/-- A T2 that commits has done all that it is for. -/
theorem finalizeScheduleClaim_complete (hr : setup.render.Faithful) (h : s.Traced setup)
    {plan : CronDuePlan} {cutoff : Instant} {r : ScheduleRecord}
    {created : List ScheduleFireRecord} (hrow : s.finalizable schedule cutoff = some r)
    (hok : s.finalizeScheduleClaim setup schedule plan now cutoff = .ok (s', created)) :
    (∃ r', s'.schedules.get? schedule.id = some r' ∧ r'.nextRunAt = some plan.nextRunAt)
    ∧ ∀ i ∈ plan.selected, ∃ fire ∈ s'.fires.rows,
      IsCronFire setup.render schedule.id i fire ∧ ∀ id, fire.taskId = some id →
        ∃ t, s'.queue.tasks.get? id = some t ∧ t.sourceScheduleId = some schedule.id := by
  obtain ⟨hget, hheld⟩ := finalizable_eq_some.mp hrow
  have htraced := finalizeScheduleClaim_traced hr h hok
  constructor
  · rcases finalizeScheduleClaim_ok hok with ⟨hnone, -⟩ | ⟨r₁, hrow₁, hrounds⟩
    · rw [hrow] at hnone
      simp at hnone
    · obtain rfl := Option.some.inj (hrow.symm.trans hrow₁)
      rw [hrounds.schedules_eq]
      exact ⟨_, Table.get?_put_self hget hheld.1.1, rfl⟩
  · unfold finalizeScheduleClaim at hok
    rw [show ((s.schedules.get? schedule.id).filter fun r => Finalizable schedule cutoff r)
      = some r from hrow] at hok
    dsimp only at hok
    obtain ⟨⟨s₁, misfires⟩, -, hok⟩ := bind_eq_ok.mp hok
    obtain ⟨⟨s₂, selected⟩, hselected, hok⟩ := bind_eq_ok.mp hok
    obtain ⟨rfl, -⟩ := Prod.mk.inj (pure_eq_ok.mp hok)
    intro i hi
    obtain ⟨fire, hfire, hkeys⟩ :=
      (fireAll_hasFire fireInstant_ok hselected).mpr (.inr ⟨i, hi, rfl⟩)
    refine ⟨fire, hfire, hkeys, fun id hid => ?_⟩
    obtain ⟨t, ht, hsource⟩ := htraced.pointed fire hfire id hid
    exact ⟨t, ht, by rw [hsource, hkeys.1]⟩

theorem finalises_iff_clear (hr : setup.render.Faithful) (h : s.Traced setup)
    (htype : schedule.taskType ∈ setup.taskTypes) {cutoff : Instant} {r : ScheduleRecord}
    (hrow : s.finalizable schedule cutoff = some r)
    (hdue : schedule.firstDue ≤ schedule.claimedAt) :
    s.Finalises setup schedule now cutoff ↔ s.Clear setup schedule := by
  constructor
  · rintro ⟨plan, store, created, hplan, hok, -⟩
    refine ⟨plan, hplan, (finalizeScheduleClaim_total now hr h htype hrow).mp ?_⟩
    unfold executeScheduleClaim at hok
    rw [hplan] at hok
    dsimp only at hok
    split at hok
    · simp at hok
    · next x hfinalize => exact ⟨_, hfinalize⟩
  · rintro ⟨plan, hplan, hclear⟩
    obtain ⟨⟨store, created⟩, hfinalize⟩ :=
      (finalizeScheduleClaim_total now hr h htype hrow).mpr hclear
    obtain ⟨⟨r', hr', hnext⟩, hfires⟩ := finalizeScheduleClaim_complete hr h hrow hfinalize
    refine ⟨plan, store, created, hplan, ?_, ⟨r', hr', hnext, ?_⟩, hfires⟩
    · unfold executeScheduleClaim
      rw [hplan]
      dsimp only
      rw [hfinalize]
    · exact hdue.trans_lt (ClaimedSchedule.duePlan_lt hplan)

end ScheduleStore

namespace SchedulerSystem

open ScheduleStore (Finalises Clear)

variable {setup : Setup} {s : SchedulerSystem}

/-- In every state that schedulers, users and edits lead to, the tick of a claim that
its row still has finalises it exactly when its plan is clear of users' keys. -/
theorem claim_finalises_iff_clear (setup : Setup) (hr : setup.render.Faithful)
    (es : List SchedulerEvent)
    (d : ScheduleDispatch)
    (hd : d ∈ (Transition.run (SchedulerSystem.step setup) empty es).dispatches)
    (now cutoff : Instant) (r : ScheduleRecord)
    (hrow : (Transition.run (SchedulerSystem.step setup) empty es).store.finalizable d.claim cutoff
      = some r) :
    (Transition.run (SchedulerSystem.step setup) empty es).store.Finalises setup d.claim now cutoff
      ↔ (Transition.run (SchedulerSystem.step setup) empty es).store.Clear setup d.claim := by
  have htraced := run_traced hr es
  have hinv : (Transition.run (SchedulerSystem.step setup) empty es).Inv :=
    (run_keeps es empty_inv).1
  obtain ⟨hget, -⟩ := ScheduleStore.finalizable_eq_some.mp hrow
  refine ScheduleStore.finalises_iff_clear hr htraced ?_ hrow (hinv.due d hd).1
  rw [← (hinv.known d hd).2 r hget]
  exact htraced.typed r (Table.mem_of_get? hget)

/-- Decimal numbers do for identifiers. -/
theorem lesson_faithful : lesson.render.Faithful where
  uuid_inj u v h := by
    have hdigits : Nat.toDigits 10 u = Nat.toDigits 10 v := by
      rw [← Nat.toList_repr, ← Nat.toList_repr]
      exact congrArg String.toList h
    rw [← @Nat.ofDigitChars_ten_toDigits u, hdigits, Nat.ofDigitChars_ten_toDigits]
  uuid_colon u hcolon := by
    have hmem : ':' ∈ Nat.toDigits 10 u := by
      rw [← Nat.toList_repr]
      exact hcolon
    exact absurd (Nat.isDigit_of_mem_toDigits (by decide) (by decide) hmem) (by decide)

/-- A user knows the schedule and its next instant, and takes the key of its task. -/
def takenKey : List SchedulerEvent :=
  [.createSchedule 0 ⟨"nightly", "synthetic", "\x7b\x7d", "default", 50, 3, "* * * * *", "UTC",
      .fireOnce, .forbid, 60, 3, true⟩,
    .queue 1 (.enqueueTask ⟨"synthetic", "\x7b\x7d", "default", 50, 3, some "schedule:0:60000000",
      none⟩),
    .claim 60000000 "a" 60 none [] "first" []]

theorem claim_finalises_iff_clear_takenKey :
    ∃ d ∈ (Transition.run (SchedulerSystem.step lesson) empty takenKey).dispatches,
      (Transition.run (SchedulerSystem.step lesson) empty takenKey).store.Finalises lesson d.claim
          61000000 61000000
        ↔ (Transition.run (SchedulerSystem.step lesson) empty takenKey).store.Clear lesson
          d.claim := by
  have hheld : ∃ d ∈ (Transition.run (SchedulerSystem.step lesson) empty takenKey).dispatches,
      ((Transition.run (SchedulerSystem.step lesson) empty takenKey).store.finalizable d.claim
        61000000).isSome = true := by
    decide +kernel
  obtain ⟨d, hd, hrow⟩ := hheld
  obtain ⟨r, hr⟩ := Option.isSome_iff_exists.mp hrow
  exact ⟨d, hd, claim_finalises_iff_clear lesson lesson_faithful takenKey d hd _ _ r hr⟩

/-- The tick has its claim, but it cannot finalise it. -/
theorem takenKey_blocks :
    ∃ d ∈ (Transition.run (SchedulerSystem.step lesson) empty takenKey).dispatches,
      ((Transition.run (SchedulerSystem.step lesson) empty takenKey).store.finalizable d.claim
        61000000).isSome = true
      ∧ ¬ (Transition.run (SchedulerSystem.step lesson) empty takenKey).store.Finalises lesson
        d.claim 61000000 61000000 := by
  have hraises : ∃ d ∈ (Transition.run (SchedulerSystem.step lesson) empty takenKey).dispatches,
      ((Transition.run (SchedulerSystem.step lesson) empty takenKey).store.finalizable d.claim
        61000000).isSome = true
      ∧ ((Transition.run (SchedulerSystem.step lesson) empty takenKey).store.executeScheduleClaim
        lesson d.claim 61000000 61000000).2.toOption.isNone = true := by
    decide +kernel
  obtain ⟨d, hd, hrow, herror⟩ := hraises
  refine ⟨d, hd, hrow, ?_⟩
  rintro ⟨plan, store, created, -, hok, -⟩
  rw [hok] at herror
  simp [Except.toOption] at herror

end SchedulerSystem

end QaPlatform.Runtime
