import QaPlatform.Automation.SchedulerTurns
import QaPlatform.Automation.SearchWindow
import QaPlatform.Automation.Tasks
import QaPlatform.Base.Transition

/-!
# Scheduler accounting

Runs of the in-memory scheduler over the in-memory queue. A tick that returns has one cron fire
for every occurrence that was due, and a schedule that forbids overlaps gets no task while it has
an active one.

Two facts are carried through a tick. `Kept` says that no fire is lost and that a new one is
stored under the key of its occurrence; since a key is injective in schedule and instant, every
occurrence has one record at most. `AddsAloneFor` says what becomes of the tasks of one
schedule: nothing is added, or one task where none is active. `tick_accounts` puts them together
with the enumeration of what is due, over every run of calls, in which others may do with the
queue whatever they like.
-/

namespace QaPlatform.Automation

/-- `is_active`. -/
def TaskStatus.isActive : TaskStatus → Bool
  | .queued | .running | .retryWait => true
  | _ => false

/-- The tasks of a schedule that are not over. -/
def InMemoryTaskQueue.activeForSchedule (q : InMemoryTaskQueue) (scheduleId : Uuid) :
    List AutomationTask :=
  q.tasks.rows.filter fun t => t.sourceScheduleId = some scheduleId ∧ t.status.isActive = true

/-- The tasks of a schedule, in the order in which they were enqueued. -/
def InMemoryTaskQueue.tasksOf (q : InMemoryTaskQueue) (scheduleId : Uuid) : List AutomationTask :=
  q.tasks.rows.filter (·.sourceScheduleId = some scheduleId)

/-- `InMemoryTaskQueue` as the queue of a scheduler; `utcNow` is what its own clock shows. -/
def taskQueuePort (setup : QueueSetup) (utcNow : InMemoryTaskQueue → Instant) :
    TaskQueuePort InMemoryTaskQueue where
  enqueue q request :=
    match q.enqueue setup request.taskType request.payload request.queue request.priority
      request.maxAttempts request.idempotencyKey request.sourceScheduleId
      (request.availableAt.map (⟨·, true⟩)) (utcNow q) with
    | .ok (q', task, _) => (q', .ok task.id)
    | .error e => (q, .error e)
  activeForSchedule q scheduleId := .ok ((q.activeForSchedule scheduleId).map (·.id))
  requestCancel q taskId now :=
    let result := q.requestCancel taskId now
    (result.1, result.2.map fun _ => ())

namespace InMemoryScheduler

/-! ## Runs -/

/-- A call, or whatever others do with the queue in between. -/
inductive Call (σ : Type) where
  | add (schedule : AutomationSchedule) (now : Instant)
  | tick (now : Instant)
  | runNow (scheduleId : Uuid) (now : Instant)
  | setEnabled (scheduleId : Uuid) (enabled : Bool) (now : Instant)
  | others (queue : σ)

variable {σ : Type} {setup : SchedulerSetup σ} {now : Instant} {m m' : InMemoryScheduler σ}

/-- The scheduler after a call, also when it raises. -/
def call (setup : SchedulerSetup σ) (m : InMemoryScheduler σ) : Call σ → InMemoryScheduler σ
  | .add schedule now =>
    match m.add setup schedule now with
    | .ok added => added.1
    | .error _ => m
  | .tick now => (m.tick setup now).1
  | .runNow scheduleId now => (m.runNow setup scheduleId now).1
  | .setEnabled scheduleId enabled now => (m.setEnabled setup scheduleId enabled now).1
  | .others queue => { m with queue }

/-! ## Cron fires -/

/-- The fires under the key of an occurrence. -/
def cronFires (setup : SchedulerSetup σ) (m : InMemoryScheduler σ) (scheduleId : Uuid)
    (scheduledFor : Instant) : List ScheduleFire :=
  (m.fires.filter (·.1 = cronFireKey setup scheduleId scheduledFor)).map (·.2)

theorem cronFires_congr (h : m'.fires = m.fires) (scheduleId : Uuid) (i : Instant) :
    m'.cronFires setup scheduleId i = m.cronFires setup scheduleId i := by
  unfold cronFires
  rw [h]

/-- There is exactly one, and it is of this occurrence. -/
def Recorded (setup : SchedulerSetup σ) (m : InMemoryScheduler σ) (scheduleId : Uuid)
    (scheduledFor : Instant) : Prop :=
  ∃ fire, m.cronFires setup scheduleId scheduledFor = [fire] ∧ fire.scheduleId = scheduleId
    ∧ fire.scheduledFor = scheduledFor

/-- No fire is lost, and new ones are of their occurrence. -/
structure Kept (setup : SchedulerSetup σ) (m m' : InMemoryScheduler σ) : Prop where
  recorded : ∀ scheduleId i, m.Recorded setup scheduleId i → m'.Recorded setup scheduleId i
  fresh : ∀ scheduleId i, m.cronFires setup scheduleId i = [] →
    m'.cronFires setup scheduleId i = [] ∨ m'.Recorded setup scheduleId i

namespace Kept

theorem refl (m : InMemoryScheduler σ) : Kept setup m m := ⟨fun _ _ h => h, fun _ _ h => .inl h⟩

theorem trans {a b c : InMemoryScheduler σ} (h : Kept setup a b) (h' : Kept setup b c) :
    Kept setup a c where
  recorded scheduleId i hrecorded := h'.recorded scheduleId i (h.recorded scheduleId i hrecorded)
  fresh scheduleId i hnone :=
    (h.fresh scheduleId i hnone).elim (h'.fresh scheduleId i)
      fun hrecorded => .inr (h'.recorded scheduleId i hrecorded)

theorem of_cronFires (h : ∀ scheduleId i,
    m'.cronFires setup scheduleId i = m.cronFires setup scheduleId i) : Kept setup m m' := by
  constructor
  · intro scheduleId i hrecorded
    unfold Recorded at hrecorded ⊢
    rwa [h]
  · intro scheduleId i hnone
    exact .inl ((h scheduleId i).trans hnone)

theorem of_fires (h : m'.fires = m.fires) : Kept setup m m' := .of_cronFires (cronFires_congr h)

end Kept

theorem lookup_isSome_iff (setup : SchedulerSetup σ) (m : InMemoryScheduler σ) (scheduleId : Uuid)
    (i : Instant) : (m.fires.lookup (cronFireKey setup scheduleId i)).isSome = true ↔
      m.cronFires setup scheduleId i ≠ [] := by
  unfold cronFires
  induction m.fires with
  | nil => simp
  | cons e fires ih =>
    obtain ⟨key, fire⟩ := e
    by_cases hkey : key = cronFireKey setup scheduleId i
    · simp [hkey]
    · have hother : (cronFireKey setup scheduleId i == key) = false :=
        beq_eq_false_iff_ne.mpr (Ne.symm hkey)
      rw [List.lookup_cons, hother, List.filter_cons_of_neg (by simpa using hkey)]
      exact ih

theorem cancelActive_fires (setup : SchedulerSetup σ) (m : InMemoryScheduler σ) (active : List Uuid)
    (now : Instant) : (m.cancelActive setup active now).1.fires = m.fires :=
  inTurn_rel (R := fun a b : InMemoryScheduler σ => b.fires = a.fires) (fun _ => rfl)
    (fun h h' => h'.trans h) (fun _ _ _ => rfl) m

section
variable (hiso : Function.Injective setup.isoformat)
include hiso

theorem cronFireKey_inj {scheduleId scheduleId' : Uuid} {i i' : Instant}
    (h : cronFireKey setup scheduleId i = cronFireKey setup scheduleId' i') :
    scheduleId = scheduleId' ∧ i = i' :=
  ⟨congrArg Prod.fst h, hiso ((String.append_right_inj "cron:").mp (congrArg Prod.snd h))⟩

/-- A new fire under the key of its occurrence. -/
theorem addFire_kept {scheduleId : Uuid} {i : Instant} (fire : Uuid → ScheduleFire)
    (hnone : m.cronFires setup scheduleId i = [])
    (hschedule : (fire m.nextUuid).scheduleId = scheduleId)
    (hfor : (fire m.nextUuid).scheduledFor = i) :
    Kept setup m (m.addFire (cronFireKey setup scheduleId i) fire).1
      ∧ (m.addFire (cronFireKey setup scheduleId i) fire).1.Recorded setup scheduleId i := by
  have hnew : (m.addFire (cronFireKey setup scheduleId i) fire).1.cronFires setup scheduleId i
      = [fire m.nextUuid] := by
    unfold cronFires at hnone ⊢
    simp only [addFire, List.filter_append, List.map_append, hnone, List.nil_append]
    simp
  have hold : ∀ scheduleId' i', ¬ (scheduleId = scheduleId' ∧ i = i') →
      (m.addFire (cronFireKey setup scheduleId i) fire).1.cronFires setup scheduleId' i'
        = m.cronFires setup scheduleId' i' := by
    intro scheduleId' i' hne
    have hkey : cronFireKey setup scheduleId i ≠ cronFireKey setup scheduleId' i' :=
      fun h => hne (cronFireKey_inj hiso h)
    unfold cronFires
    simp only [addFire, List.filter_append, List.map_append]
    simp [hkey]
  have hrecorded :
      (m.addFire (cronFireKey setup scheduleId i) fire).1.Recorded setup scheduleId i :=
    ⟨_, hnew, hschedule, hfor⟩
  refine ⟨⟨fun scheduleId' i' h => ?_, fun scheduleId' i' h => ?_⟩, hrecorded⟩
  · have hne : ¬ (scheduleId = scheduleId' ∧ i = i') := by
      rintro ⟨rfl, rfl⟩
      obtain ⟨_, hone, -⟩ := h
      rw [hnone] at hone
      cases hone
    unfold Recorded at h ⊢
    rwa [hold scheduleId' i' hne]
  · by_cases hsame : scheduleId = scheduleId' ∧ i = i'
    · obtain ⟨rfl, rfl⟩ := hsame
      exact .inr hrecorded
    · exact .inl ((hold scheduleId' i' hsame).trans h)

theorem recordFire_kept (m : InMemoryScheduler σ) (schedule : AutomationSchedule) (i : Instant)
    (status : ScheduleFireStatus) (now : Instant) :
    Kept setup m (m.recordFire setup schedule i status now).1
      ∧ (m.cronFires setup schedule.id i = [] ∨ m.Recorded setup schedule.id i →
        (m.recordFire setup schedule i status now).1.Recorded setup schedule.id i) := by
  unfold recordFire
  by_cases hsome : (m.fires.lookup (cronFireKey setup schedule.id i)).isSome = true
  · simp only [if_pos hsome]
    refine ⟨.refl m, fun h => h.resolve_left ?_⟩
    exact (lookup_isSome_iff setup m schedule.id i).mp hsome
  · simp only [if_neg hsome]
    rw [lookup_isSome_iff, not_not] at hsome
    obtain ⟨hkept, hrecorded⟩ := addFire_kept hiso (fun id =>
      { id, scheduleId := schedule.id, scheduledFor := i, status, taskId := none,
        createdAt := now })
      hsome rfl rfl
    exact ⟨hkept, fun _ => hrecorded⟩

theorem fireInstant_kept (schedule : AutomationSchedule) (now : Instant) (m : InMemoryScheduler σ)
    (i : Instant) : Kept setup m (fireInstant setup schedule now m i).1
      ∧ (m.cronFires setup schedule.id i = [] ∨ m.Recorded setup schedule.id i →
        ∀ fire, (fireInstant setup schedule now m i).2 = .ok fire →
          (fireInstant setup schedule now m i).1.Recorded setup schedule.id i) := by
  unfold fireInstant
  by_cases hsome : (m.fires.lookup (cronFireKey setup schedule.id i)).isSome = true
  -- the firing of this instant is there already
  · simp only [if_pos hsome]
    refine ⟨.refl m, fun h _ _ => h.resolve_left ?_⟩
    exact (lookup_isSome_iff setup m schedule.id i).mp hsome
  simp only [if_neg hsome]
  rw [lookup_isSome_iff, not_not] at hsome
  cases hactive : setup.port.activeForSchedule m.queue schedule.id with
  | error e =>
    rw [andThen_error (e := e) rfl]
    exact ⟨.refl m, fun _ _ h => nomatch h⟩
  | ok active =>
    rw [andThen_ok (a := active) rfl]
    dsimp only
    split
    · obtain ⟨hkept, hrecorded⟩ := recordFire_kept hiso m schedule i .skippedOverlap now
      exact ⟨hkept, fun h _ _ => hrecorded h⟩
    · -- the tasks that are replaced and the new one leave the fires alone
      have hfires : (if schedule.overlapPolicy = .replace then m.cancelActive setup active now
          else (m, .ok [])).1.fires = m.fires := by
        split
        · exact m.cancelActive_fires setup active now
        · rfl
      generalize (if schedule.overlapPolicy = .replace then m.cancelActive setup active now
        else (m, .ok [])) = replaced at hfires ⊢
      cases hreplaced : replaced.2 with
      | error e =>
        rw [andThen_error hreplaced]
        exact ⟨.of_fires hfires, fun _ _ h => nomatch h⟩
      | ok _ =>
        rw [andThen_ok hreplaced]
        -- a task that is not queued leaves the instant unfired, to be fired again at the next tick
        generalize hqueued : replaced.1.onQueue _ = queued
        have hfires' : queued.1.fires = m.fires := by
          rw [← hqueued]
          exact hfires
        cases htask : queued.2 with
        | error e =>
          rw [andThen_error htask]
          exact ⟨.of_fires hfires', fun _ _ h => nomatch h⟩
        | ok taskId =>
          rw [andThen_ok htask]
          obtain ⟨hkept, hrecorded⟩ := addFire_kept hiso (fun id =>
            { id, scheduleId := schedule.id, scheduledFor := i, status := .enqueued
              taskId := some taskId, createdAt := now })
            ((cronFires_congr hfires' schedule.id i).trans hsome) rfl rfl
          exact ⟨(Kept.of_fires hfires').trans hkept, fun _ _ _ => hrecorded⟩

end

/-- Every occurrence has at most one record, and of itself. -/
def Single (setup : SchedulerSetup σ) (m : InMemoryScheduler σ) : Prop :=
  ∀ scheduleId i, m.cronFires setup scheduleId i = [] ∨ m.Recorded setup scheduleId i

theorem Kept.single (h : Kept setup m m') (hsingle : m.Single setup) : m'.Single setup :=
  fun scheduleId i => (hsingle scheduleId i).elim (h.fresh scheduleId i)
    fun hrecorded => .inr (h.recorded scheduleId i hrecorded)

/-- A loop that records what it goes over. -/
theorem inTurn_recorded {β : Type} {f : InMemoryScheduler σ → Instant →
      InMemoryScheduler σ × Except ManagerError β} {scheduleId : Uuid}
        {l : List Instant} {bs : List β}
    (hkept : ∀ m i, Kept setup m (f m i).1)
    (hrecorded : ∀ m i b, m.Single setup → (f m i).2 = .ok b →
      (f m i).1.Recorded setup scheduleId i)
    (hsingle : m.Single setup) (hok : (inTurn f m l).2 = .ok bs) :
    ∀ i ∈ l, (inTurn f m l).1.Recorded setup scheduleId i := by
  intro i hi
  obtain ⟨pre, post, rfl⟩ := List.append_of_mem hi
  obtain ⟨b, cs, hturn, -, hstate⟩ := inTurn_split hok
  have hbefore : Kept setup m (inTurn f m pre).1 :=
    inTurn_rel .refl .trans (fun m i _ => hkept m i) m
  have hafter := inTurn_rel (l := post) (R := Kept setup) .refl .trans (fun m i _ => hkept m i)
    (f (inTurn f m pre).1 i).1
  rw [hstate]
  exact hafter.recorded scheduleId i (hrecorded _ i b (hbefore.single hsingle) hturn)

/-! ## What is due -/

/-- The occurrences from `cursor` on: itself, the next after it, and so on. -/
def Enumerated (setup : SchedulerSetup σ) (expression : CronExpression) (timezone : String) :
    Instant → Instant → Prop :=
  Relation.ReflTransGen fun i j => expression.nextAfter setup.zones i timezone = .ok j

theorem asManager_eq_ok {x : Except AutomationValidationError α} {a : α} :
    asManager x = .ok a ↔ x = .ok a := by
  cases x with
  | error e => simp [asManager, Except.mapError]
  | ok b => simp [asManager, Except.mapError]

theorem Enumerated.le {expression : CronExpression} {timezone : String} {cursor i : Instant}
    (h : Enumerated setup expression timezone cursor i) : cursor ≤ i := by
  induction h with
  | refl => exact le_rfl
  | tail _ hnext ih => exact le_trans ih (le_of_lt (CronExpression.lt_nextAfter hnext))

/-- What is due is what is enumerated up to now, and the new cursor is later. -/
theorem dueFrom_spec {expression : CronExpression} {timezone : String} {room : Nat}
    {cursor : Instant} {due : List Instant × Instant}
    (h : dueFrom (fun i => asManager (expression.nextAfter setup.zones i timezone)) now room cursor
      = .ok due) :
    (∀ i, i ∈ due.1 ↔ Enumerated setup expression timezone cursor i ∧ i ≤ now) ∧ now < due.2 := by
  have hbeyond : ∀ cursor, ¬ cursor ≤ now → ∀ i, i ∈ ([] : List Instant) ↔
      Enumerated setup expression timezone cursor i ∧ i ≤ now := by
    intro cursor hlater i
    refine ⟨fun hi => absurd hi List.not_mem_nil, fun ⟨henumerated, hle⟩ => ?_⟩
    exact absurd (le_trans henumerated.le hle) hlater
  induction room generalizing cursor due with
  | zero =>
    unfold dueFrom at h
    obtain ⟨hlater, hdue⟩ := refuse_bind_eq_ok.mp h
    obtain rfl := pure_eq_ok.mp hdue
    exact ⟨hbeyond cursor hlater, not_le.mp hlater⟩
  | succ room ih =>
    unfold dueFrom at h
    by_cases hle : cursor ≤ now
    · rw [if_pos hle] at h
      obtain ⟨next, hnext, hrest⟩ := bind_eq_ok.mp h
      obtain ⟨later, hlater, hdue⟩ := bind_eq_ok.mp hrest
      obtain rfl := pure_eq_ok.mp hdue
      rw [asManager_eq_ok] at hnext
      obtain ⟨hmem, hlast⟩ := ih hlater
      refine ⟨fun i => ?_, hlast⟩
      rw [List.mem_cons, hmem]
      constructor
      · rintro (rfl | ⟨henumerated, hi⟩)
        · exact ⟨.refl, hle⟩
        · exact ⟨henumerated.head hnext, hi⟩
      · rintro ⟨henumerated, hi⟩
        obtain rfl | ⟨j, hj, hrest⟩ := Relation.ReflTransGen.cases_head henumerated
        · exact .inl rfl
        · obtain rfl := Except.ok.inj (hnext.symm.trans hj)
          exact .inr ⟨hrest, hi⟩
    · rw [if_neg hle] at h
      obtain rfl := pure_eq_ok.mp h
      exact ⟨hbeyond cursor hle, not_le.mp hle⟩

theorem mem_applyMisfirePolicy (schedule : AutomationSchedule) {due : List Instant} (now : Instant)
    {i : Instant} (hi : i ∈ due) : i ∈ (applyMisfirePolicy schedule due now).1
      ∨ i ∈ (applyMisfirePolicy schedule due now).2 := by
  unfold applyMisfirePolicy
  cases schedule.misfirePolicy with
  | fireOnce =>
    show i ∈ due.getLast?.toList ∨ i ∈ due.dropLast
    have hne : due ≠ [] := List.ne_nil_of_mem hi
    rw [← List.dropLast_append_getLast hne, List.mem_append, List.mem_singleton] at hi
    rw [List.getLast?_eq_getLast_of_ne_nil hne]
    exact hi.symm.imp_left fun h => by simp [h]
  | catchUpLimited =>
    rw [← List.take_append_drop (due.length - schedule.catchUpLimit) due, List.mem_append] at hi
    exact hi.symm
  | skip =>
    by_cases hcutoff : now - seconds schedule.misfireGraceSeconds ≤ i
    · exact .inl (List.mem_filter.mpr ⟨hi, decide_eq_true hcutoff⟩)
    · exact .inr (List.mem_filter.mpr ⟨hi, decide_eq_true (not_le.mp hcutoff)⟩)

/-! ## Turns -/

theorem fireDueLocked_expressions (m : InMemoryScheduler σ) (f : AutomationSchedule) :
    (fireDueLocked setup now m f).1.expressions = m.expressions := by
  have hturn := turn_fireDueLocked setup now m f
  generalize fireDueLocked setup now m f = x at hturn ⊢
  cases hturn with
  | raised m' e hsame => exact hsame.expressions
  | idle => rfl
  | moved m' cursor due created hnext hdue hsame => exact hsame.expressions

section
variable (hiso : Function.Injective setup.isoformat)
include hiso

/-- The loop over the skipped instants. -/
theorem recordSkipped_kept (schedule : AutomationSchedule) (now : Instant) (l : List Instant)
    (m : InMemoryScheduler σ) :
    let skipped := inTurn (fun m i =>
      let recorded := m.recordFire setup schedule i .skippedMisfire now
      (recorded.1, (.ok recorded.2 : Except ManagerError _))) m l
    Kept setup m skipped.1 ∧ (m.Single setup → ∀ fires, skipped.2 = .ok fires →
      ∀ i ∈ l, skipped.1.Recorded setup schedule.id i) := by
  have hstep := fun m i => recordFire_kept hiso m schedule i .skippedMisfire now
  refine ⟨inTurn_rel .refl .trans (fun m i _ => (hstep m i).1) m, fun hsingle fires hok => ?_⟩
  exact inTurn_recorded (fun m i => (hstep m i).1)
    (fun m i _ hsingle _ => (hstep m i).2 (hsingle schedule.id i)) hsingle hok

/-- The loop over the selected instants. -/
theorem fireSelected_kept (schedule : AutomationSchedule) (now : Instant) (l : List Instant)
    (m : InMemoryScheduler σ) :
    let selected := inTurn (fireInstant setup schedule now) m l
    Kept setup m selected.1 ∧ (m.Single setup → ∀ fires, selected.2 = .ok fires →
      ∀ i ∈ l, selected.1.Recorded setup schedule.id i) := by
  have hstep := fireInstant_kept hiso schedule now
  refine ⟨inTurn_rel .refl .trans (fun m i _ => (hstep m i).1) m, fun hsingle fires hok => ?_⟩
  exact inTurn_recorded (fun m i => (hstep m i).1)
    (fun m i fire hsingle hfire => (hstep m i).2 (hsingle schedule.id i) fire hfire) hsingle hok

/-- A turn loses no fire, and one that does not raise records what was due. -/
theorem fireDueLocked_kept (m : InMemoryScheduler σ) (schedule : AutomationSchedule) :
    Kept setup m (fireDueLocked setup now m schedule).1
      ∧ (m.Single setup → ∀ created, (fireDueLocked setup now m schedule).2 = .ok created →
        ∀ cursor due, schedule.nextRunAt = some cursor →
          m.dueInstants setup schedule cursor now = .ok due → ∀ i ∈ due.1,
            (fireDueLocked setup now m schedule).1.Recorded setup schedule.id i) := by
  unfold fireDueLocked
  cases hnext : schedule.nextRunAt with
  | none => exact ⟨.refl m, fun _ _ _ _ _ h => nomatch h⟩
  | some cursor =>
    dsimp only
    cases hdue : m.dueInstants setup schedule cursor now with
    | error e =>
      rw [andThen_error (e := e) rfl]
      exact ⟨.refl m, fun _ _ h => nomatch h⟩
    | ok due =>
      rw [andThen_ok (a := due) rfl]
      have hskipped := recordSkipped_kept hiso schedule now
        (applyMisfirePolicy schedule due.1 now).2 m
      dsimp only at hskipped ⊢
      generalize inTurn _ m (applyMisfirePolicy schedule due.1 now).2 = x at hskipped ⊢
      obtain ⟨m₁, skipped⟩ := x
      obtain ⟨hkept₁, hrecorded₁⟩ := hskipped
      cases skipped with
      | error e =>
        rw [andThen_error (e := e) rfl]
        exact ⟨hkept₁, fun _ _ h => nomatch h⟩
      | ok skipped =>
        rw [andThen_ok (a := skipped) rfl]
        have hselected := fireSelected_kept hiso schedule now
          (applyMisfirePolicy schedule due.1 now).1 m₁
        dsimp only at hselected ⊢
        generalize inTurn _ m₁ (applyMisfirePolicy schedule due.1 now).1 = y at hselected ⊢
        obtain ⟨m₂, selected⟩ := y
        obtain ⟨hkept₂, hrecorded₂⟩ := hselected
        cases selected with
        | error e =>
          rw [andThen_error (e := e) rfl]
          exact ⟨hkept₁.trans hkept₂, fun _ _ h => nomatch h⟩
        | ok selected =>
          rw [andThen_ok (a := selected) rfl]
          have hmoved : ∀ schedules, Kept setup m₂ { m₂ with schedules } := fun _ => .of_fires rfl
          refine ⟨(hkept₁.trans hkept₂).trans (hmoved _),
            fun hsingle _ _ cursor' due' hcursor' hdue' i hi => ?_⟩
          obtain rfl := Option.some.inj hcursor'
          obtain rfl := Except.ok.inj (hdue.symm.trans hdue')
          refine (hmoved _).recorded schedule.id i ?_
          obtain hi | hi := mem_applyMisfirePolicy schedule now hi
          · exact hrecorded₂ (hkept₁.single hsingle) selected rfl i hi
          · exact hkept₂.recorded schedule.id i (hrecorded₁ hsingle skipped rfl i hi)

theorem turns_kept (now : Instant) (l : List AutomationSchedule) (m : InMemoryScheduler σ) :
    Kept setup m (inTurn (fireDueLocked setup now) m l).1 :=
  inTurn_rel .refl .trans (fun m schedule _ => (fireDueLocked_kept hiso m schedule).1) m

/-- After a tick that returns, what was due is recorded and the next run is later. -/
theorem tick_recorded (hsingle : m.Single setup) {created : List ScheduleFire}
    (htick : (m.tick setup now).2 = .ok created) {schedule : AutomationSchedule}
    (hrow : schedule ∈ m.schedules.rows) (henabled : schedule.enabled = true) {cursor : Instant}
    (hcursor : schedule.nextRunAt = some cursor) {expression : CronExpression}
    (hexpression : m.expressions.lookup schedule.id = some expression) :
    (∀ i, Enumerated setup expression schedule.timezone cursor i → i ≤ now →
      (m.tick setup now).1.Recorded setup schedule.id i)
      ∧ ∃ row next, (m.tick setup now).1.schedules.get? schedule.id = some row
        ∧ row.nextRunAt = some next ∧ now < next := by
  have hok : ∃ turns, (inTurn (fireDueLocked setup now) m (m.dueSchedules now)).2 = .ok turns := by
    unfold tick at htick
    cases hresult : (inTurn (fireDueLocked setup now) m (m.dueSchedules now)).2 with
    | error e =>
      rw [andThen_error hresult] at htick
      cases htick
    | ok turns => exact ⟨turns, rfl⟩
  obtain ⟨turns, hturns⟩ := hok
  rw [tick_state]
  have hstored : m.schedules.get? schedule.id = some schedule := Table.get?_key hrow
  by_cases hdue : cursor ≤ now
  · have hmem : schedule ∈ m.dueSchedules now :=
      mem_dueSchedules.mpr ⟨hrow, henabled, by rw [hcursor]; exact decide_eq_true hdue⟩
    obtain ⟨pre, post, horder⟩ := List.append_of_mem hmem
    have hids := dueSchedules_ids horder
    rw [horder] at hturns ⊢
    obtain ⟨fires, _, hturn, -, hstate⟩ := inTurn_split hturns
    rw [hstate]
    -- the turn of the schedule, after those of `pre`
    have hbefore : Kept setup m (inTurn (fireDueLocked setup now) m pre).1 :=
      turns_kept hiso now pre m
    have hstored' : (inTurn (fireDueLocked setup now) m pre).1.schedules.get? schedule.id
        = some schedule :=
      (inTurn_get? m fun f hf => hids f (List.mem_append_left _ hf)).trans hstored
    have hnot : ¬ Raises setup now (inTurn (fireDueLocked setup now) m pre).1 schedule := by
      rintro ⟨e, he⟩
      rw [hturn] at he
      cases he
    obtain ⟨_, -, cursor', due, hcursor', hplan, hmoved⟩ :=
      finalisedBy_turn hstored' (by rw [hcursor]; exact Option.some_ne_none cursor) hnot
    obtain rfl := Option.some.inj (hcursor.symm.trans hcursor')
    have hexpression' : (inTurn (fireDueLocked setup now) m pre).1.expression schedule.id
        = .ok expression := by
      have hsame : (inTurn (fireDueLocked setup now) m pre).1.expressions = m.expressions :=
        inTurn_rel (R := fun a b : InMemoryScheduler σ => b.expressions = a.expressions)
          (fun _ => rfl) (fun h h' => h'.trans h) (fun m f _ => fireDueLocked_expressions m f) m
      unfold InMemoryScheduler.expression
      rw [hsame]
      exact demand_eq_ok.mpr hexpression
    have hplan' := hplan
    unfold dueInstants at hplan'
    rw [hexpression', ok_bind] at hplan'
    obtain ⟨hmem, hlater⟩ := dueFrom_spec hplan'
    have hafter : Kept setup (fireDueLocked setup now (inTurn (fireDueLocked setup now) m pre).1
      schedule).1 _ := turns_kept hiso now post _
    refine ⟨fun i henumerated hi => hafter.recorded schedule.id i ?_,
      movedOn schedule due.1 due.2 now, due.2, ?_, rfl, hlater⟩
    · exact (fireDueLocked_kept hiso _ schedule).2 (hbefore.single hsingle) fires hturn cursor due
        hcursor hplan i ((hmem i).mpr ⟨henumerated, hi⟩)
    · exact (inTurn_get? _ fun f hf => hids f (List.mem_append_right _ hf)).trans hmoved
  · refine ⟨fun i henumerated hi => absurd (le_trans henumerated.le hi) hdue, schedule, cursor, ?_,
      hcursor, not_le.mp hdue⟩
    rw [inTurn_get? m ?_]
    · exact hstored
    · intro f hf he
      obtain ⟨hrow', -, hnext⟩ := mem_dueSchedules.mp hf
      obtain rfl := Option.some.inj ((Table.get?_key hrow').symm.trans
        ((congrArg m.schedules.get? he).trans hstored))
      rw [hcursor] at hnext
      exact hdue (of_decide_eq_true hnext)

end

/-! ## Calls -/

/-- A row has a next run, and its expression is at hand. -/
structure Planned (expressions : List (Uuid × CronExpression))
    (row : AutomationSchedule) : Prop where
  nextRunAt : row.nextRunAt.isSome = true
  expression : ∃ expression, expressions.lookup row.id = some expression
    ∧ CronExpression.parse row.cron = .ok expression

/-- What holds after every call. -/
structure Consistent (setup : SchedulerSetup σ) (m : InMemoryScheduler σ) : Prop where
  planned : ∀ row ∈ m.schedules.rows, Planned m.expressions row
  single : m.Single setup

theorem planned_movedOn {expressions : List (Uuid × CronExpression)} {schedule : AutomationSchedule}
    (h : Planned expressions schedule) (due : List Instant) (cursor now : Instant) :
    Planned expressions (movedOn schedule due cursor now) :=
  ⟨rfl, h.expression⟩

theorem planned_turns {l : List AutomationSchedule} (hl : ∀ f ∈ l, Planned m.expressions f)
    (hm : ∀ row ∈ m.schedules.rows, Planned m.expressions row) :
    ∀ row ∈ (inTurn (fireDueLocked setup now) m l).1.schedules.rows,
      Planned (inTurn (fireDueLocked setup now) m l).1.expressions row := by
  have hturns := inTurn_rel (l := l) (f := fireDueLocked setup now)
    (R := fun a b : InMemoryScheduler σ => b.expressions = a.expressions
      ∧ (a.expressions = m.expressions → (∀ row ∈ a.schedules.rows, Planned m.expressions row) →
        ∀ row ∈ b.schedules.rows, Planned m.expressions row))
    (fun _ => ⟨rfl, fun _ h => h⟩)
    (fun h h' => ⟨h'.1.trans h.1, fun he hrows => h'.2 (h.1.trans he) (h.2 he hrows)⟩) ?_ m
  · intro row hrow
    rw [hturns.1]
    exact hturns.2 rfl hm row hrow
  · intro a f hf
    refine ⟨fireDueLocked_expressions a f, fun _ hrows row hrow => ?_⟩
    have hturn := turn_fireDueLocked setup now a f
    generalize fireDueLocked setup now a f = x at hturn hrow
    cases hturn with
    | raised m' e hsame => exact hrows row (hsame.schedules ▸ hrow)
    | idle => exact hrows row hrow
    | moved m' cursor due created hnext hdue hsame =>
      obtain rfl | hold := Table.mem_put hrow
      · exact planned_movedOn (hl f hf) _ _ _
      · exact hrows row (hsame.schedules ▸ hold.1)

theorem consistent_tick (hiso : Function.Injective setup.isoformat) (hm : m.Consistent setup) :
    (m.tick setup now).1.Consistent setup := by
  rw [tick_state]
  refine ⟨planned_turns (fun f hf => ?_) hm.planned, (turns_kept hiso now _ m).single hm.single⟩
  exact hm.planned f (mem_dueSchedules.mp hf).1

theorem consistent_add (hm : m.Consistent setup) {schedule : AutomationSchedule}
    {added : InMemoryScheduler σ × AutomationSchedule} (h : m.add setup schedule now = .ok added) :
    added.1.Consistent setup := by
  obtain ⟨expression, hexpression, h⟩ := bind_eq_ok.mp h
  obtain ⟨calculatedNext, -, h⟩ := bind_eq_ok.mp h
  dsimp only at h
  split at h
  · next hnew =>
    obtain rfl := pure_eq_ok.mp h
    refine ⟨fun row hrow => ?_, (Kept.of_fires rfl).single hm.single⟩
    obtain hold | hadded := List.mem_append.mp hrow
    · obtain ⟨hnext, expression', hlookup, hparse⟩ := hm.planned row hold
      refine ⟨hnext, expression', ?_, hparse⟩
      have hne : row.id ≠ schedule.id := by
        intro he
        have hget := Table.get?_key hold
        rw [AutomationSchedule.key_eq, he, hnew] at hget
        cases hget
      have hother : (row.id == schedule.id) = false := beq_eq_false_iff_ne.mpr hne
      rw [List.lookup_cons, hother]
      exact hlookup
    · obtain rfl := List.mem_singleton.mp hadded
      exact ⟨rfl, expression, List.lookup_cons_self, asManager_eq_ok.mp hexpression⟩
  · cases h

theorem consistent_put (hm : m.Consistent setup) {row : AutomationSchedule}
    (hrow : Planned m.expressions row) :
    ({ m with schedules := m.schedules.put row } : InMemoryScheduler σ).Consistent setup := by
  refine ⟨fun row' hrow' => ?_, (Kept.of_fires rfl).single hm.single⟩
  obtain rfl | hold := Table.mem_put hrow'
  · exact hrow
  · exact hm.planned row' hold.1

theorem consistent_setEnabled (hm : m.Consistent setup) (scheduleId : Uuid) (enabled : Bool) :
    (m.setEnabled setup scheduleId enabled now).1.Consistent setup := by
  unfold setEnabled
  cases hrequire : m.require scheduleId with
  | error e =>
    rw [andThen_error (e := e) rfl]
    exact hm
  | ok schedule =>
    rw [andThen_ok (a := schedule) rfl]
    have hplanned := hm.planned schedule (Table.mem_of_get? (demand_eq_ok.mp hrequire))
    have hswitched := consistent_put hm (show Planned m.expressions { schedule with enabled } from
      ⟨hplanned.nextRunAt, hplanned.expression⟩)
    dsimp only
    -- the next run stays, or is calculated
    have hnext : ∀ next, (if enabled = true ∧ schedule.nextRunAt.all (· ≤ now) = true then do
          let expression ← m.expression scheduleId
          (asManager (expression.nextAfter setup.zones now schedule.timezone)).map some
        else .ok schedule.nextRunAt : Except ManagerError (Option Instant)) = .ok next →
        next.isSome = true := by
      intro next h
      split at h
      · obtain ⟨expression, -, h⟩ := bind_eq_ok.mp h
        obtain ⟨i, -, rfl⟩ := map_eq_ok.mp h
        rfl
      · obtain rfl := Except.ok.inj h
        exact hplanned.nextRunAt
    generalize (if enabled = true ∧ schedule.nextRunAt.all (· ≤ now) = true then _
      else _ : Except ManagerError (Option Instant)) = result at hnext
    cases result with
    | error e =>
      rw [andThen_error (e := e) rfl]
      exact hswitched
    | ok next =>
      rw [andThen_ok (a := next) rfl]
      exact consistent_put hswitched ⟨hnext next rfl, hplanned.expression⟩

/-- A manual fire has another kind of key. -/
theorem manual_ne_cronFireKey (setup : SchedulerSetup σ) (scheduleId scheduleId' : Uuid)
    (text : String) (i : Instant) :
    (scheduleId, "manual:" ++ text) ≠ cronFireKey setup scheduleId' i := by
  intro h
  have htexts := congrArg (fun key : Uuid × String => key.2.toList.head?) h
  simp [cronFireKey, String.toList_append] at htexts

theorem consistent_runNow (hm : m.Consistent setup) (scheduleId : Uuid) :
    (m.runNow setup scheduleId now).1.Consistent setup := by
  unfold runNow
  cases hrequire : m.require scheduleId with
  | error e =>
    rw [andThen_error (e := e) rfl]
    exact hm
  | ok schedule =>
    rw [andThen_ok (a := schedule) rfl]
    dsimp only
    generalize setup.port.enqueue m.queue _ = queued
    obtain ⟨queue, task⟩ := queued
    cases task with
    | error e =>
      rw [andThen_error (e := e) rfl]
      exact ⟨hm.planned, (Kept.of_fires rfl).single hm.single⟩
    | ok taskId =>
      rw [andThen_ok (a := taskId) rfl]
      refine ⟨hm.planned, (Kept.of_cronFires fun scheduleId' i => ?_).single hm.single⟩
      have hkey := manual_ne_cronFireKey setup schedule.id scheduleId'
        (setup.uuid m.nextUuid) i
      simp [cronFires, onQueue, List.filter_append, hkey]

end InMemoryScheduler

/-! ## Overlaps -/

/-- Nothing is added, or one active task to a list that has none. -/
def AddsAlone (l l' : List AutomationTask) : Prop :=
  l' = l ∨ ((∀ task ∈ l, task.status.isActive = false)
    ∧ ∃ task, l' = l ++ [task] ∧ task.status.isActive = true)

theorem AddsAlone.refl (l : List AutomationTask) : AddsAlone l l := .inl rfl

theorem AddsAlone.trans {a b c : List AutomationTask} (h : AddsAlone a b) (h' : AddsAlone b c) :
    AddsAlone a c := by
  obtain rfl | ⟨hnone, task, rfl, hactive⟩ := h
  · exact h'
  · obtain rfl | ⟨hnone', -⟩ := h'
    · exact .inr ⟨hnone, task, rfl, hactive⟩
    · -- the task that was added is active
      have hidle := hnone' task (List.mem_append_right a (List.mem_singleton_self task))
      rw [hactive] at hidle
      cases hidle

namespace InMemoryTaskQueue

variable {q : InMemoryTaskQueue} {scheduleId : Uuid}

theorem mem_activeForSchedule {task : AutomationTask} : task ∈ q.activeForSchedule scheduleId ↔
    task ∈ q.tasks.rows ∧ task.sourceScheduleId = some scheduleId
    ∧ task.status.isActive = true := by
  simp [activeForSchedule]

theorem activeForSchedule_eq_nil : q.activeForSchedule scheduleId = [] ↔
    ∀ task ∈ q.tasksOf scheduleId, task.status.isActive = false := by
  simp [activeForSchedule, tasksOf, List.filter_eq_nil_iff]

theorem tasksOf_add {q' : InMemoryTaskQueue} {task : AutomationTask}
    (hrows : q'.tasks.rows = q.tasks.rows ++ [task])
    (hsource : task.sourceScheduleId = some scheduleId) :
    q'.tasksOf scheduleId = q.tasksOf scheduleId ++ [task] := by
  unfold tasksOf
  rw [hrows, List.filter_append, List.filter_cons_of_pos (by simpa using hsource), List.filter_nil]

theorem tasksOf_add_of_ne {q' : InMemoryTaskQueue} {task : AutomationTask}
    (hrows : q'.tasks.rows = q.tasks.rows ++ [task])
    (hsource : task.sourceScheduleId ≠ some scheduleId) :
    q'.tasksOf scheduleId = q.tasksOf scheduleId := by
  unfold tasksOf
  rw [hrows, List.filter_append, List.filter_cons_of_neg (by simpa using hsource), List.filter_nil,
    List.append_nil]

theorem enqueue_tasksOf (setup : QueueSetup) (utcNow : InMemoryTaskQueue → Instant)
    (q : InMemoryTaskQueue) (request : TaskRequest) (scheduleId : Uuid) :
    let queue := ((taskQueuePort setup utcNow).enqueue q request).1
    queue.tasksOf scheduleId = q.tasksOf scheduleId
      ∨ (request.sourceScheduleId = some scheduleId
        ∧ ∃ task, queue.tasksOf scheduleId = q.tasksOf scheduleId ++ [task]
          ∧ task.status.isActive = true) := by
  unfold taskQueuePort
  dsimp only
  cases hresult : q.enqueue setup request.taskType request.payload request.queue request.priority
    request.maxAttempts request.idempotencyKey request.sourceScheduleId
    (request.availableAt.map (⟨·, true⟩)) (utcNow q) with
  | error e => exact .inl rfl
  | ok result =>
    unfold enqueue at hresult
    obtain ⟨dueAt, -, hresult⟩ := bind_eq_ok.mp hresult
    obtain ⟨requestFingerprint, -, hresult⟩ := bind_eq_ok.mp hresult
    split at hresult
    · -- the task was there already
      obtain ⟨-, hresult⟩ := refuse_bind_eq_ok.mp hresult
      obtain ⟨task, -, hresult⟩ := bind_eq_ok.mp hresult
      obtain rfl := pure_eq_ok.mp hresult
      exact .inl rfl
    · dsimp only at hresult
      obtain ⟨-, hresult⟩ := refuse_bind_eq_ok.mp hresult
      obtain rfl := pure_eq_ok.mp hresult
      by_cases hsource : request.sourceScheduleId = some scheduleId
      · exact .inr ⟨hsource, _, tasksOf_add rfl hsource, rfl⟩
      · exact .inl (tasksOf_add_of_ne rfl hsource)

/-- A cancellation writes one row, which keeps its schedule. -/
theorem requestCancel_cases (q : InMemoryTaskQueue) (taskId : Uuid) (now : Instant) :
    (q.requestCancel taskId now).1 = q
    ∨ ∃ task task', (q.requestCancel taskId now).1 = q.write task'
      ∧ q.tasks.get? taskId = some task ∧ task'.id = task.id
      ∧ task'.sourceScheduleId = task.sourceScheduleId := by
  unfold requestCancel
  cases hrequire : q.require taskId with
  | error e =>
    rw [andThen_error (e := e) rfl]
    exact .inl rfl
  | ok task =>
    rw [andThen_ok (a := task) rfl]
    refine .inr ⟨task, ?_⟩
    dsimp only
    split
    · exact ⟨_, rfl, demand_eq_ok.mp hrequire, rfl, rfl⟩
    · split
      · exact ⟨_, rfl, demand_eq_ok.mp hrequire, rfl, rfl⟩
      · exact ⟨_, rfl, demand_eq_ok.mp hrequire, rfl, rfl⟩

theorem requestCancel_sources (q : InMemoryTaskQueue) (taskId : Uuid) (now : Instant) {id : Uuid}
    {task' : AutomationTask} (h : (q.requestCancel taskId now).1.tasks.get? id = some task') :
    ∃ task, q.tasks.get? id = some task ∧ task'.sourceScheduleId = task.sourceScheduleId := by
  obtain hsame | ⟨task, written, hwrite, hget, hid, hsource⟩ := q.requestCancel_cases taskId now
  · rw [hsame] at h
    exact ⟨task', h, rfl⟩
  · rw [hwrite] at h
    unfold write at h
    by_cases hk : written.id = id
    · have htask : q.tasks.get? id = some task := by
        rw [← hk, hid, ← AutomationTask.key_eq, Table.key_of_get? hget, hget]
      rw [Table.get?_put_self htask hk] at h
      obtain rfl := Option.some.inj h
      exact ⟨task, htask, hsource⟩
    · rw [Table.get?_put_of_ne hk] at h
      exact ⟨task', h, rfl⟩

theorem requestCancel_tasksOf (q : InMemoryTaskQueue) (taskId : Uuid) (now : Instant)
    (h : ∀ task, q.tasks.get? taskId = some task → task.sourceScheduleId ≠ some scheduleId) :
    (q.requestCancel taskId now).1.tasksOf scheduleId = q.tasksOf scheduleId := by
  obtain hsame | ⟨task, written, hwrite, hget, hid, hsource⟩ := q.requestCancel_cases taskId now
  · rw [hsame]
  · rw [hwrite]
    have hother := h task hget
    have hkey : q.tasks.get? (key task) = some task := by rwa [Table.key_of_get? hget]
    exact Table.filter_put hkey hid (by simpa using hother) (by simpa [hsource] using hother)

end InMemoryTaskQueue

namespace InMemoryScheduler

theorem recordFire_queue {σ : Type} (setup : SchedulerSetup σ) (m : InMemoryScheduler σ)
    (schedule : AutomationSchedule) (i : Instant) (status : ScheduleFireStatus) (now : Instant) :
    (m.recordFire setup schedule i status now).1.queue = m.queue := by
  unfold recordFire
  dsimp only
  split
  · rfl
  · rfl

/-- What the tasks of a schedule are before and after. -/
def AddsAloneFor (scheduleId : Uuid) (m m' : InMemoryScheduler InMemoryTaskQueue) : Prop :=
  AddsAlone (m.queue.tasksOf scheduleId) (m'.queue.tasksOf scheduleId)

theorem AddsAloneFor.refl (scheduleId : Uuid) (m : InMemoryScheduler InMemoryTaskQueue) :
    AddsAloneFor scheduleId m m :=
  AddsAlone.refl _

theorem AddsAloneFor.trans {scheduleId : Uuid} {a b c : InMemoryScheduler InMemoryTaskQueue}
    (h : AddsAloneFor scheduleId a b) (h' : AddsAloneFor scheduleId b c) :
    AddsAloneFor scheduleId a c :=
  AddsAlone.trans h h'

section
variable {queueSetup : QueueSetup} {utcNow : InMemoryTaskQueue → Instant}
  {setup : SchedulerSetup InMemoryTaskQueue} (hport : setup.port = taskQueuePort queueSetup utcNow)
include hport

/-- Cancelling tasks of other schedules leaves those of a schedule alone. -/
theorem cancelActive_tasksOf {scheduleId : Uuid} {active : List Uuid} {now : Instant}
    {m : InMemoryScheduler InMemoryTaskQueue}
    (h : ∀ taskId ∈ active, ∀ task, m.queue.tasks.get? taskId = some task →
      task.sourceScheduleId ≠ some scheduleId) :
    (m.cancelActive setup active now).1.queue.tasksOf scheduleId = m.queue.tasksOf scheduleId := by
  -- the sources of the tasks stay, so the later ones are of other schedules too
  have hturns := inTurn_rel (l := active)
    (f := fun (m : InMemoryScheduler InMemoryTaskQueue) taskId =>
      m.onQueue (setup.port.requestCancel m.queue taskId now))
    (R := fun a b => (∀ taskId ∈ active, ∀ task, a.queue.tasks.get? taskId = some task →
        task.sourceScheduleId ≠ some scheduleId) →
      (∀ taskId ∈ active, ∀ task, b.queue.tasks.get? taskId = some task →
        task.sourceScheduleId ≠ some scheduleId)
      ∧ b.queue.tasksOf scheduleId = a.queue.tasksOf scheduleId)
    (fun _ h => ⟨h, rfl⟩)
    (fun hab hbc h => ⟨(hbc (hab h).1).1, (hbc (hab h).1).2.trans (hab h).2⟩) ?_ m
  · exact (hturns h).2
  · intro a taskId htask hothers
    rw [hport]
    refine ⟨fun id hid task' hget => ?_,
      a.queue.requestCancel_tasksOf taskId now (hothers taskId htask)⟩
    obtain ⟨task, hold, hsource⟩ := a.queue.requestCancel_sources taskId now hget
    rw [hsource]
    exact hothers id hid task hold

/-- A round of the loop adds nothing to the tasks of another schedule, and to those of one that
forbids overlaps only when none of them is active. -/
theorem fireInstant_addsAlone {scheduleId : Uuid} {schedule : AutomationSchedule}
    (hforbid : schedule.id = scheduleId → schedule.overlapPolicy = .forbid) (now : Instant)
    (m : InMemoryScheduler InMemoryTaskQueue) (i : Instant) :
    AddsAlone (m.queue.tasksOf scheduleId)
      ((fireInstant setup schedule now m i).1.queue.tasksOf scheduleId) := by
  unfold fireInstant
  dsimp only
  split
  · exact .refl _
  have hport' : setup.port.activeForSchedule m.queue schedule.id
      = .ok ((m.queue.activeForSchedule schedule.id).map (·.id)) := by rw [hport]; rfl
  rw [andThen_ok (a := (m.queue.activeForSchedule schedule.id).map (·.id)) hport']
  dsimp only
  split
  · rw [recordFire_queue]
    exact .refl _
  · next hgo =>
    -- the schedule itself has no active task when it comes to this
    have halone : schedule.id = scheduleId →
        ∀ task ∈ m.queue.tasksOf scheduleId, task.status.isActive = false := by
      rintro rfl
      rw [← InMemoryTaskQueue.activeForSchedule_eq_nil]
      by_contra hactive
      exact hgo ⟨hforbid rfl, fun hnil => hactive (List.map_eq_nil_iff.mp hnil)⟩
    have hreplaced : (if schedule.overlapPolicy = .replace then
          m.cancelActive setup ((m.queue.activeForSchedule schedule.id).map (·.id)) now
        else (m, .ok [])).1.queue.tasksOf scheduleId = m.queue.tasksOf scheduleId := by
      split
      · next hreplace =>
        refine cancelActive_tasksOf hport fun taskId htask task hget hsource => ?_
        obtain ⟨task', hactive, rfl⟩ := List.mem_map.mp htask
        obtain ⟨hrow, hsource', -⟩ := InMemoryTaskQueue.mem_activeForSchedule.mp hactive
        obtain rfl := Option.some.inj ((Table.get?_key hrow).symm.trans hget)
        have hsame := hforbid (Option.some.inj (hsource'.symm.trans hsource))
        rw [hreplace] at hsame
        cases hsame
      · rfl
    generalize (if schedule.overlapPolicy = .replace then
        m.cancelActive setup ((m.queue.activeForSchedule schedule.id).map (·.id)) now
      else (m, .ok [])) = replaced at hreplaced ⊢
    obtain ⟨m₁, cancelled⟩ := replaced
    cases cancelled with
    | error e =>
      rw [andThen_error (e := e) rfl]
      exact .inl hreplaced
    | ok cancelled =>
      rw [andThen_ok (a := cancelled) rfl]
      dsimp only at hreplaced ⊢
      have hqueued := InMemoryTaskQueue.enqueue_tasksOf queueSetup utcNow m₁.queue
        (fireRequest setup schedule i) scheduleId
      rw [← hport] at hqueued
      generalize setup.port.enqueue m₁.queue (fireRequest setup schedule i) = queued at hqueued ⊢
      have hadds : AddsAlone (m.queue.tasksOf scheduleId) (queued.1.tasksOf scheduleId) := by
        obtain hsame | ⟨hsource, task, happended, hactive⟩ := hqueued
        · exact .inl (hsame.trans hreplaced)
        · refine .inr ⟨halone (Option.some.inj hsource), task, ?_, hactive⟩
          rw [← hreplaced]
          exact happended
      obtain ⟨queue, task⟩ := queued
      cases task with
      | error e =>
        rw [andThen_error (e := e) rfl]
        exact hadds
      | ok taskId =>
        rw [andThen_ok (a := taskId) rfl]
        exact hadds

theorem fireDueLocked_addsAlone {scheduleId : Uuid} {schedule : AutomationSchedule}
    (hforbid : schedule.id = scheduleId → schedule.overlapPolicy = .forbid) (now : Instant)
    (m : InMemoryScheduler InMemoryTaskQueue) :
    AddsAloneFor scheduleId m (fireDueLocked setup now m schedule).1 := by
  unfold fireDueLocked
  cases hnext : schedule.nextRunAt with
  | none => exact .refl scheduleId m
  | some cursor =>
    refine andThen_rel .trans (.refl scheduleId m) fun due _ =>
      andThen_rel .trans ?_ fun skipped _ =>
      andThen_rel .trans ?_ fun selected _ => .refl scheduleId _
    · refine inTurn_rel (.refl scheduleId) .trans (fun a i _ => ?_) m
      unfold AddsAloneFor
      rw [recordFire_queue]
      exact .refl _
    · exact inTurn_rel (.refl scheduleId) .trans
        (fun a i _ => fireInstant_addsAlone hport hforbid now a i) _

/-- A tick adds at most one task of a schedule that forbids overlaps, and only when it has none
that is active. -/
theorem tick_addsAlone {m : InMemoryScheduler InMemoryTaskQueue} {schedule : AutomationSchedule}
    (hrow : schedule ∈ m.schedules.rows) (hforbid : schedule.overlapPolicy = .forbid)
    (now : Instant) :
    AddsAlone (m.queue.tasksOf schedule.id) ((m.tick setup now).1.queue.tasksOf schedule.id) := by
  rw [tick_state]
  refine inTurn_rel (R := AddsAloneFor schedule.id) (.refl schedule.id) .trans (fun a f hf => ?_) m
  refine fireDueLocked_addsAlone hport (fun hid => ?_) now a
  obtain rfl := Option.some.inj ((Table.get?_key (mem_dueSchedules.mp hf).1).symm.trans
    ((congrArg m.schedules.get? hid).trans (Table.get?_key hrow)))
  exact hforbid

end

/-! ## Accounting -/

theorem consistent_call {σ : Type} {setup : SchedulerSetup σ}
    (hiso : Function.Injective setup.isoformat) (m : InMemoryScheduler σ) (c : Call σ)
    (hm : m.Consistent setup) : (call setup m c).Consistent setup := by
  cases c with
  | add schedule now =>
    unfold call
    dsimp only
    split
    · next added hadd => exact consistent_add hm hadd
    · exact hm
  | tick now => exact consistent_tick hiso hm
  | runNow scheduleId now => exact consistent_runNow hm scheduleId
  | setEnabled scheduleId enabled now => exact consistent_setEnabled hm scheduleId enabled
  | others queue => exact ⟨hm.planned, (Kept.of_fires rfl).single hm.single⟩

theorem consistent_init {σ : Type} {setup : SchedulerSetup σ} {queue : σ} {maxDue : Nat}
    {m : InMemoryScheduler σ} (h : init queue maxDue = .ok m) : m.Consistent setup := by
  obtain ⟨-, hm⟩ := refuse_bind_eq_ok.mp h
  obtain rfl := pure_eq_ok.mp hm
  exact ⟨fun row hrow => absurd hrow List.not_mem_nil, fun _ _ => .inl rfl⟩

/-- A scheduler over the in-memory queue. -/
def overTaskQueue (queueSetup : QueueSetup) (utcNow : InMemoryTaskQueue → Instant) (zones : Zones) :
    SchedulerSetup InMemoryTaskQueue where
  port := taskQueuePort queueSetup utcNow
  zones := zones
  isoformat := queueSetup.isoformat
  uuid := queueSetup.uuid

/-- In every run, a tick that returns has one cron fire for each occurrence of an enabled schedule
that was due, and leaves its next run in the future; a schedule that forbids overlaps gets a task
only when none of its tasks is active. -/
theorem tick_accounts (queueSetup : QueueSetup) (utcNow : InMemoryTaskQueue → Instant)
    (zones : Zones) (hiso : Function.Injective queueSetup.isoformat) {queue : InMemoryTaskQueue}
    {maxDue : Nat} {m₀ : InMemoryScheduler InMemoryTaskQueue} (hinit : init queue maxDue = .ok m₀)
    (calls : List (Call InMemoryTaskQueue)) (now : Instant) :
    let setup := overTaskQueue queueSetup utcNow zones
    let m := Transition.run (call setup) m₀ calls
    let ticked := m.tick setup now
    (∀ created, ticked.2 = .ok created → ∀ schedule ∈ m.schedules.rows, schedule.enabled = true →
      ∃ cursor expression, schedule.nextRunAt = some cursor
        ∧ CronExpression.parse schedule.cron = .ok expression
        ∧ (∀ i, Enumerated setup expression schedule.timezone cursor i → i ≤ now →
          ticked.1.Recorded setup schedule.id i)
        ∧ ∃ row next, ticked.1.schedules.get? schedule.id = some row ∧ row.nextRunAt = some next
          ∧ now < next)
    ∧ ∀ schedule ∈ m.schedules.rows, schedule.overlapPolicy = .forbid →
      AddsAlone (m.queue.tasksOf schedule.id) (ticked.1.queue.tasksOf schedule.id) := by
  intro setup m ticked
  have hm : m.Consistent setup := Transition.invariant_run
    (fun m c hm => consistent_call hiso m c hm) (consistent_init hinit) calls
  constructor
  · intro created htick schedule hrow henabled
    obtain ⟨hnext, expression, hexpression, hparse⟩ := hm.planned schedule hrow
    obtain ⟨cursor, hcursor⟩ := Option.isSome_iff_exists.mp hnext
    obtain ⟨hrecorded, hlater⟩ :=
      tick_recorded hiso hm.single htick hrow henabled hcursor hexpression
    exact ⟨cursor, expression, hcursor, hparse, hrecorded, hlater⟩
  · intro schedule hrow hforbid
    exact tick_addsAlone rfl hrow hforbid now

/-- A number for every integer. -/
def unary (i : Int) : Nat := if 0 ≤ i then 2 * i.toNat else 2 * (-i).toNat + 1

theorem unary_injective : Function.Injective unary := by
  intro i j h
  unfold unary at h
  split at h <;> split at h <;> omega

/-- A queue that shows the first minute of 1970 as `isoformat` does. -/
def firstMinute : QueueSetup where
  entropy _ := 1 / 2
  isoformat i :=
    if i = 60000000 then "1970-01-01T00:01:00+00:00"
    else String.ofList (List.replicate (unary i) 'x')
  uuid _ := "0f8fad5b-d9cb-469f-a165-70867728950e"

theorem firstMinute_injective : Function.Injective firstMinute.isoformat := by
  have hother : ∀ n, String.ofList (List.replicate n 'x') ≠ "1970-01-01T00:01:00+00:00" := by
    intro n h
    have hmem : '1' ∈ (String.ofList (List.replicate n 'x')).toList := by
      rw [h]
      decide
    rw [String.toList_ofList] at hmem
    exact absurd (List.eq_of_mem_replicate hmem) (by decide)
  intro i j h
  unfold firstMinute at h
  dsimp only at h
  by_cases hi : i = 60000000
  · by_cases hj : j = 60000000
    · rw [hi, hj]
    · rw [if_pos hi, if_neg hj] at h
      exact absurd h.symm (hother _)
  · by_cases hj : j = 60000000
    · rw [if_neg hi, if_pos hj] at h
      exact absurd h (hother _)
    · rw [if_neg hi, if_neg hj] at h
      have hlength := congrArg List.length (String.ofList_injective h)
      rw [List.length_replicate, List.length_replicate] at hlength
      exact unary_injective hlength

/-- A schedule of every minute fires at its first minute. -/
theorem tick_accounts_firstMinute :
    let setup := overTaskQueue firstMinute (fun _ => 60000000) fun _ => some utc
    let schedule : AutomationSchedule :=
      { id := 7, name := "Smoke", taskType := "run", payload := "\x7b\x7d", queue := "default"
        priority := 50, maxAttempts := 3, cron := "* * * * *", timezone := "UTC"
        misfirePolicy := .fireOnce, overlapPolicy := .forbid, misfireGraceSeconds := 60
        catchUpLimit := 3, enabled := true, nextRunAt := none, lastRunAt := none, version := 0
        createdAt := 0, updatedAt := 0 }
    let m := Transition.run (call setup) ⟨InMemoryTaskQueue.init, .empty, [], [], 10000, 0⟩
      [.add schedule 0]
    (m.tick setup 60000000).1.Recorded setup 7 60000000
      ∧ AddsAlone (m.queue.tasksOf 7) ((m.tick setup 60000000).1.queue.tasksOf 7) := by
  intro setup schedule m
  have hrows : m.schedules.rows = [{ schedule with nextRunAt := some 60000000 }] := by
    decide +kernel
  have hrow : { schedule with nextRunAt := some 60000000 } ∈ m.schedules.rows := by
    rw [hrows]
    exact List.mem_singleton_self _
  have hreturns : (m.tick setup 60000000).2.isOk = true := by decide +kernel
  obtain ⟨hrecords, halone⟩ := tick_accounts firstMinute (fun _ => 60000000) (fun _ => some utc)
    firstMinute_injective (show init InMemoryTaskQueue.init 10000 = _ from rfl) [.add schedule 0]
    60000000
  refine ⟨?_, halone _ hrow rfl⟩
  cases htick : (m.tick setup 60000000).2 with
  | error e =>
    rw [htick] at hreturns
    cases hreturns
  | ok created =>
    obtain ⟨cursor, expression, hcursor, -, hrecorded, -⟩ := hrecords created htick _ hrow rfl
    obtain rfl := Option.some.inj hcursor
    exact hrecorded 60000000 .refl le_rfl

end InMemoryScheduler

end QaPlatform.Automation
