import QaPlatform.Runtime.ScheduleIsolation

/-!
# The turn of a schedule

What a tick does with the schedule it has claimed. Its planning raises and the claim is
given up, or T2 raises and the claim stays until its lease runs out, or the schedule is
finalised. What T2 asks for another schedule's claim is the same afterwards.
-/

namespace QaPlatform.Runtime

namespace ScheduleStore

variable {setup : Setup} {schedule : ClaimedSchedule} {now : Instant} {s s' : ScheduleStore}

/-! ## What a turn leaves to the others -/

/-- What the claims of schedules other than `k` are refused for has not changed. -/
structure Elsewhere (render : Rendering) (k : Uuid) (s s' : ScheduleStore) : Prop where
  hasFire : ∀ k', k ≠ k' → ∀ key, s'.HasFire k' key ↔ s.HasFire k' key
  active : ∀ k', k ≠ k' → s'.activeForSchedule k' = s.activeForSchedule k'
  taken : ∀ schedule i, s'.Taken render schedule i ↔ s.Taken render schedule i

namespace Elsewhere

variable {render : Rendering} {k : Uuid}

theorem refl (render : Rendering) (k : Uuid) (s : ScheduleStore) : Elsewhere render k s s where
  hasFire := fun _ _ _ => Iff.rfl
  active := fun _ _ => rfl
  taken := fun _ _ => Iff.rfl

theorem trans {a b c : ScheduleStore} (h : Elsewhere render k a b) (h' : Elsewhere render k b c) :
    Elsewhere render k a c where
  hasFire := fun k' hk key => (h'.hasFire k' hk key).trans (h.hasFire k' hk key)
  active := fun k' hk => (h'.active k' hk).trans (h.active k' hk)
  taken := fun schedule i => (h'.taken schedule i).trans (h.taken schedule i)

/-- The rows of schedules are not what a claim is refused for. -/
theorem withSchedules (h : Elsewhere render k s s') (schedules schedules' : Table ScheduleRecord) :
    Elsewhere render k { s with schedules } { s' with schedules := schedules' } :=
  ⟨h.hasFire, h.active, h.taken⟩

/-- Whether another schedule's claim can be finalised has not changed. -/
theorem clear_iff (h : Elsewhere setup.render k s s') (hk : k ≠ schedule.id) :
    s'.Clear setup schedule ↔ s.Clear setup schedule := by
  have hopen (plan : CronDuePlan) :
      s'.openInstants setup.render schedule plan = s.openInstants setup.render schedule plan := by
    refine List.filter_congr fun i _ => decide_eq_decide.mpr ?_
    rw [h.hasFire schedule.id hk]
  have hrequested (plan : CronDuePlan) :
      s'.requestedInstants setup.render schedule plan
        = s.requestedInstants setup.render schedule plan := by
    unfold requestedInstants
    rw [h.active schedule.id hk, hopen]
  unfold Clear
  simp only [hrequested, h.taken]

end Elsewhere

/-- `replace` writes to the active tasks of its schedule only. -/
theorem replaceTask_active {queue : TaskStore} {t : AutomationTaskRecord} {k k' : Uuid}
    (ht : queue.tasks.get? t.id = some t) (hsource : t.sourceScheduleId = some k) (hk : k ≠ k')
    (s : ScheduleStore) :
    activeForSchedule { s with queue := replaceTask now queue t } k'
      = activeForSchedule { s with queue } k' := by
  have hother : ¬ some k = some k' := fun he => hk (Option.some.inj he)
  unfold activeForSchedule replaceTask
  dsimp only
  split
  · exact Table.filter_put ht rfl (by simp [hsource, hother]) (by simp [hsource, hother])
  · exact Table.filter_put ht rfl (by simp [hsource, hother]) (by simp [hsource, hother])

theorem foldl_replaceTask_active (active : List AutomationTaskRecord) {k k' : Uuid} (hk : k ≠ k')
    (s : ScheduleStore) (hnodup : (active.map AutomationTaskRecord.id).Nodup) {queue : TaskStore}
    (hactive : ∀ t ∈ active, queue.tasks.get? t.id = some t ∧ t.sourceScheduleId = some k) :
    activeForSchedule { s with queue := active.foldl (replaceTask now) queue } k'
      = activeForSchedule { s with queue } k' := by
  induction active generalizing queue with
  | nil => rfl
  | cons t active ih =>
    obtain ⟨ht, hsource⟩ := hactive t List.mem_cons_self
    rw [List.map_cons, List.nodup_cons] at hnodup
    rw [List.foldl_cons, ih hnodup.2, replaceTask_active ht hsource hk]
    intro t' ht'
    have hne : t.id ≠ t'.id := fun he => hnodup.1 (he ▸ List.mem_map_of_mem ht')
    rw [replaceTask_get? hne]
    exact hactive t' (List.mem_cons_of_mem t ht')

theorem replacedQueue_active (s : ScheduleStore) (schedule : ClaimedSchedule) (now : Instant)
    {k : Uuid} (hk : schedule.id ≠ k) :
    activeForSchedule { s with queue := s.replacedQueue schedule now } k
      = s.activeForSchedule k := by
  unfold replacedQueue
  split
  · refine foldl_replaceTask_active _ hk s ?_ fun t ht => ?_
    · exact s.queue.tasks.nodup.sublist (List.filter_sublist.map AutomationTaskRecord.id)
    · have hmem := List.mem_filter.mp ht
      exact ⟨Table.get?_key hmem.1, (of_decide_eq_true hmem.2).1⟩
  · rfl

/-- A schedule's enqueue makes no task active for another one. -/
theorem enqueueRecord_active {queue queue' : TaskStore} {payload : TaskEnqueue}
    {task : AutomationTaskRecord} {replayed : Bool} {k k' : Uuid} (hk : k ≠ k') (s : ScheduleStore)
    (h : queue.enqueueRecord setup.taskTypes setup.render payload (some k) now
      = .ok (queue', task, replayed)) :
    activeForSchedule { s with queue := queue' } k' = activeForSchedule { s with queue } k' := by
  rcases TaskStore.enqueueRecord_ok h with ⟨-, rfl, -⟩ | ⟨-, fingerprint, -, -, -, rfl⟩
  · rfl
  · have hother : ¬ some k = some k' := fun he => hk (Option.some.inj he)
    show List.filter _ (queue.tasks.rows ++ [_]) = _
    rw [List.filter_append]
    simp [activeForSchedule, enqueuedTask, hother]

/-- A round leaves the fires and the users' keys of other schedules alone. -/
theorem FireStep.elsewhere {instant : Instant} (h : FireStep setup schedule now s instant s')
    (hactive : ∀ k, schedule.id ≠ k → s'.activeForSchedule k = s.activeForSchedule k) :
    Elsewhere setup.render schedule.id s s' where
  hasFire k hk key := by
    cases h with
    | present => rfl
    | skipped =>
      rw [hasFire_fired s.queue]
      simp [hk]
    | enqueued queue queue' =>
      rw [hasFire_fired queue']
      simp [hk]
  active := hactive
  taken _ _ := h.taken

theorem createFireIfAbsent_elsewhere {status : Automation.ScheduleFireStatus} {instant : Instant}
    {fire : Option ScheduleFireRecord}
    (h : createFireIfAbsent setup.render schedule.id status now s instant = .ok (s', fire)) :
    Elsewhere setup.render schedule.id s s' := by
  refine (createFireIfAbsent_ok h).elsewhere fun k _ => ?_
  obtain ⟨s₁, fire₁, hok, hqueue⟩ :=
    createFireIfAbsent_total setup schedule now s status instant
  obtain ⟨rfl, -⟩ := Prod.mk.inj (Except.ok.inj (hok.symm.trans h))
  unfold activeForSchedule
  rw [hqueue]

theorem fireInstant_elsewhere {instant : Instant} {fire : Option ScheduleFireRecord}
    (h : fireInstant setup schedule now s instant = .ok (s', fire)) :
    Elsewhere setup.render schedule.id s s' := by
  have hstep := fireInstant_ok h
  unfold fireInstant at h
  split at h
  · obtain ⟨rfl, -⟩ := Prod.mk.inj (pure_eq_ok.mp h)
    exact .refl setup.render schedule.id s
  · dsimp only at h
    split at h
    · exact createFireIfAbsent_elsewhere h
    · obtain ⟨⟨queue', task, replayed⟩, henqueued, h⟩ := bind_eq_ok.mp h
      obtain ⟨⟨s₁, fire₁⟩, hadd, h⟩ := bind_eq_ok.mp h
      obtain ⟨-, rfl, -⟩ := addFire_eq_ok.mp hadd
      obtain ⟨rfl, -⟩ := Prod.mk.inj (pure_eq_ok.mp h)
      refine hstep.elsewhere fun k hk => ?_
      exact (enqueueRecord_active hk s henqueued).trans (s.replacedQueue_active schedule now hk)

theorem fireAll_elsewhere {one : ScheduleStore → Instant →
      Except DomainError (ScheduleStore × Option ScheduleFireRecord)}
    (hone : ∀ {s s' : ScheduleStore} {instant : Instant} {fire : Option ScheduleFireRecord},
      one s instant = .ok (s', fire) → Elsewhere setup.render schedule.id s s')
    {instants : List Instant} {created : List ScheduleFireRecord}
    (h : fireAll one s instants = .ok (s', created)) : Elsewhere setup.render schedule.id s s' := by
  induction instants generalizing s created with
  | nil =>
    obtain ⟨rfl, -⟩ := Prod.mk.inj (pure_eq_ok.mp h)
    exact .refl setup.render schedule.id s
  | cons instant instants ih =>
    unfold fireAll at h
    obtain ⟨⟨s₁, fire⟩, hfirst, h⟩ := bind_eq_ok.mp h
    obtain ⟨⟨s₂, created₂⟩, hrest, h⟩ := bind_eq_ok.mp h
    obtain ⟨rfl, -⟩ := Prod.mk.inj (pure_eq_ok.mp h)
    exact (hone hfirst).trans (ih hrest)

/-- T2 leaves what other schedules are refused for alone. -/
theorem finalizeScheduleClaim_elsewhere {plan : CronDuePlan} {cutoff : Instant}
    {created : List ScheduleFireRecord} {r : ScheduleRecord}
    (hok : s.finalizeScheduleClaim setup schedule plan now cutoff = .ok (s', created))
    (hrow : s.finalizable schedule cutoff = some r) :
    Elsewhere setup.render schedule.id s s' := by
  unfold finalizeScheduleClaim at hok
  rw [show ((s.schedules.get? schedule.id).filter fun r => Finalizable schedule cutoff r)
    = some r from hrow] at hok
  dsimp only at hok
  obtain ⟨⟨s₁, misfires⟩, hmisfires, hok⟩ := bind_eq_ok.mp hok
  obtain ⟨⟨s₂, selected⟩, hselected, hok⟩ := bind_eq_ok.mp hok
  obtain ⟨rfl, -⟩ := Prod.mk.inj (pure_eq_ok.mp hok)
  have hfirst := fireAll_elsewhere createFireIfAbsent_elsewhere hmisfires
  have hrest := fireAll_elsewhere fireInstant_elsewhere hselected
  exact (hfirst.withSchedules s.schedules s₁.schedules).trans hrest

end ScheduleStore

/-! ## A turn -/

/-- A call for one schedule: who makes it, and when. -/
structure Tick where
  schedulerId : String
  leaseSeconds : Int
  fallbackNow : Option Instant
  reading : ScheduleStore.TickReading

namespace Tick

/-- The instant up to which the call takes schedules. -/
def dueAt (setup : Setup) (t : Tick) : Instant :=
  if setup.isPostgresql then t.reading.claimedAt else t.fallbackNow.getD t.reading.claimedAt

/-- The claim that the call makes of a row. -/
def claim (setup : Setup) (t : Tick) (r : ScheduleRecord) : ClaimedSchedule :=
  ScheduleStore.claimOf t.schedulerId t.reading.claimToken (t.dueAt setup) r

/-- The row while the call has its claim. -/
def claimedRow (t : Tick) (r : ScheduleRecord) : ScheduleRecord :=
  ScheduleStore.claimedRow t.schedulerId t.reading.claimToken t.leaseSeconds t.reading.claimedAt r

/-- The row is due and free for the call. -/
def Waits (setup : Setup) (t : Tick) (r : ScheduleRecord) : Prop :=
  ScheduleStore.Claimable t.reading.claimedAt (t.dueAt setup) [] r ∧ r.id ∉ t.reading.skipped

instance (setup : Setup) (t : Tick) (r : ScheduleRecord) : Decidable (t.Waits setup r) := by
  unfold Waits
  infer_instance

/-- The call is one that is let in, and its T2 comes before its lease runs out. -/
def InTime (t : Tick) : Prop :=
  ScheduleStore.validateSchedulerClaim t.schedulerId t.leaseSeconds = .ok ()
    ∧ t.reading.cutoff < t.reading.claimedAt + seconds t.leaseSeconds

end Tick

/-- The order in which schedules are claimed. -/
def ScheduleRecord.Before (p h : ScheduleRecord) : Prop :=
  p.nextRunAt.getD 0 < h.nextRunAt.getD 0
    ∨ p.nextRunAt.getD 0 = h.nextRunAt.getD 0 ∧ p.id < h.id

instance (p h : ScheduleRecord) : Decidable (p.Before h) := by
  unfold ScheduleRecord.Before
  infer_instance

namespace ScheduleStore

variable {setup : Setup} {t : Tick} {s s' : ScheduleStore} {r h : ScheduleRecord}

/-- What the turn of a row comes to. -/
inductive Turn (setup : Setup) (t : Tick) (s : ScheduleStore) (r : ScheduleRecord) :
    ScheduleStore × Except DomainError (List ScheduleFireRecord) → Prop
  | unplanned (e : DomainError) (hplan : ∀ plan, (t.claim setup r).duePlan setup.zones ≠ .ok plan) :
      Turn setup t s r ({ s with schedules := s.schedules.put (unclaimedRow r) }, .error e)
  | refused (plan : CronDuePlan) (e : DomainError)
      (hplan : (t.claim setup r).duePlan setup.zones = .ok plan)
      (hclear : ¬ s.Clear setup (t.claim setup r)) :
      Turn setup t s r ({ s with schedules := s.schedules.put (t.claimedRow r) }, .error e)
  | finalised (plan : CronDuePlan) (s' : ScheduleStore) (created : List ScheduleFireRecord)
      (hplan : (t.claim setup r).duePlan setup.zones = .ok plan)
      (hclear : s.Clear setup (t.claim setup r))
      (helsewhere : Elsewhere setup.render r.id s s')
      (hrow : s'.schedules = s.schedules.put (finalizedRow plan t.reading.finalizedAt r))
      (hfires : ∀ i ∈ plan.selected, s'.HasFire r.id (setup.render.cronFireKey i)) :
      Turn setup t s r (s', .ok created)

/-- The store with the claim of a row. -/
def claimedStore (t : Tick) (s : ScheduleStore) (r : ScheduleRecord) : ScheduleStore :=
  { s with schedules := s.schedules.put (t.claimedRow r) }

theorem turn_executeScheduleClaim (hr : setup.render.Faithful) (hs : s.Traced setup)
    (hget : s.schedules.get? r.id = some r) (hwaits : t.Waits setup r) (htime : t.InTime) :
    Turn setup t s r ((claimedStore t s r).executeScheduleClaim setup (t.claim setup r)
      t.reading.finalizedAt t.reading.cutoff)
    ∧ ((claimedStore t s r).executeScheduleClaim setup (t.claim setup r)
      t.reading.finalizedAt t.reading.cutoff).1.Traced setup := by
  have hclaimed : (claimedStore t s r).schedules.get? r.id = some (t.claimedRow r) :=
    Table.get?_put_self hget rfl
  have htraced : (claimedStore t s r).Traced setup := hs.putSchedule hget rfl
  have hheld : HeldBy (t.claim setup r) (t.claimedRow r) := ⟨rfl, rfl, rfl⟩
  unfold executeScheduleClaim
  cases hplan : (t.claim setup r).duePlan setup.zones with
  | error e =>
    -- the claim is given up, which leaves the row as it was but for the columns of the claim
    have hrelease : (claimedStore t s r).releaseScheduleClaim (t.claim setup r)
        = { s with schedules := s.schedules.put (unclaimedRow r) } := by
      unfold releaseScheduleClaim
      rw [show ((claimedStore t s r).schedules.get? (t.claim setup r).id).filter
          (fun r' => HeldBy (t.claim setup r) r') = some (t.claimedRow r) from
        Option.filter_eq_some_iff.mpr ⟨hclaimed, decide_eq_true hheld⟩]
      show ({ s with schedules := (s.schedules.put (t.claimedRow r)).put (unclaimedRow r) }
        : ScheduleStore) = _
      rw [Table.put_put _ (show key (t.claimedRow r) = key (unclaimedRow r) from rfl)]
    dsimp only
    rw [hrelease]
    exact ⟨.unplanned e (by simp [hplan]), hs.putSchedule hget rfl⟩
  | ok plan =>
    -- nobody has come between T1 and T2, so the row still has the claim
    have hrow : (claimedStore t s r).finalizable (t.claim setup r) t.reading.cutoff
        = some (t.claimedRow r) := by
      refine finalizable_eq_some.mpr ⟨hclaimed, hheld, hwaits.1.1, rfl, ?_, ?_⟩
      · exact (claimOf_due _ _ hwaits.1).1
      · simpa [Tick.claimedRow, claimedRow] using htime.2
    have htype : (t.claim setup r).taskType ∈ setup.taskTypes := hs.typed r (Table.mem_of_get? hget)
    have htotal :=
      @finalizeScheduleClaim_total setup _ _ t.reading.finalizedAt hr htraced htype plan
      _ _ hrow
    have hclear : s.Clear setup (t.claim setup r)
        ↔ ∃ x, (claimedStore t s r).finalizeScheduleClaim setup (t.claim setup r) plan
          t.reading.finalizedAt t.reading.cutoff = .ok x := by
      rw [htotal]
      constructor
      · rintro ⟨plan', hplan', hfree⟩
        obtain rfl := Except.ok.inj (hplan.symm.trans hplan')
        exact hfree
      · exact fun hfree => ⟨plan, hplan, hfree⟩
    dsimp only
    cases hfinal : (claimedStore t s r).finalizeScheduleClaim setup (t.claim setup r) plan
        t.reading.finalizedAt t.reading.cutoff with
    | error e =>
      refine ⟨.refused plan e hplan fun hc => ?_, htraced⟩
      obtain ⟨x, hx⟩ := hclear.mp hc
      rw [hfinal] at hx
      simp at hx
    | ok x =>
      obtain ⟨s', created⟩ := x
      refine ⟨.finalised plan s' created hplan (hclear.mpr ⟨_, hfinal⟩) ?_ ?_ ?_,
        finalizeScheduleClaim_traced hr htraced hfinal⟩
      · exact (finalizeScheduleClaim_elsewhere hfinal hrow).withSchedules s.schedules s'.schedules
      · rcases finalizeScheduleClaim_ok hfinal with ⟨hnone, -⟩ | ⟨r₁, hrow₁, hrounds⟩
        · rw [hrow] at hnone
          simp at hnone
        · obtain rfl := Option.some.inj (hrow.symm.trans hrow₁)
          rw [hrounds.schedules_eq]
          show (s.schedules.put (t.claimedRow r)).put _ = _
          -- both transactions have written the row, and the second write is what is left
          rw [Table.put_put _ (show key (t.claimedRow r)
            = key (finalizedRow plan t.reading.finalizedAt (t.claimedRow r)) from rfl)]
          rfl
      · intro i hi
        obtain ⟨fire, hfire, hkeys, -⟩ :=
          (finalizeScheduleClaim_complete hr htraced hrow hfinal).2 i hi
        exact ⟨fire, hfire, hkeys⟩

end ScheduleStore

end QaPlatform.Runtime
