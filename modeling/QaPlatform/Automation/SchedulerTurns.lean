import Mathlib.Data.List.Sort
import QaPlatform.Automation.Scheduler

/-!
# The turns of a tick

A tick gives the due schedules their turns in order. A turn that raises leaves its
schedule as it is and ends the tick; one that does not moves its schedule on, and
nobody else's.

`tick_finalises_iff` says when a tick moves a schedule on that can be finalised: exactly if no
schedule before it fails. Over a queue that raises nothing only the planning of a schedule can
fail, and whether it does is the same at every turn.
-/

namespace QaPlatform.Automation.InMemoryScheduler

variable {σ : Type} {setup : SchedulerSetup σ} {now : Instant} {m m' : InMemoryScheduler σ}

/-- The schedules, and what they are fired by, are the same. -/
structure SameSchedules (m m' : InMemoryScheduler σ) : Prop where
  schedules : m'.schedules = m.schedules
  expressions : m'.expressions = m.expressions
  maxDue : m'.maxDue = m.maxDue

namespace SameSchedules

theorem refl (m : InMemoryScheduler σ) : SameSchedules m m := ⟨rfl, rfl, rfl⟩

theorem trans {a b c : InMemoryScheduler σ} (h : SameSchedules a b) (h' : SameSchedules b c) :
    SameSchedules a c :=
  ⟨h'.schedules.trans h.schedules, h'.expressions.trans h.expressions, h'.maxDue.trans h.maxDue⟩

end SameSchedules

theorem onQueue_same (m : InMemoryScheduler σ) (x : σ × Except ManagerError α) :
    SameSchedules m (m.onQueue x).1 :=
  ⟨rfl, rfl, rfl⟩

theorem recordFire_same (setup : SchedulerSetup σ) (m : InMemoryScheduler σ)
    (schedule : AutomationSchedule) (scheduledFor : Instant) (status : ScheduleFireStatus)
    (now : Instant) : SameSchedules m (m.recordFire setup schedule scheduledFor status now).1 := by
  unfold recordFire
  dsimp only
  split
  · exact .refl m
  · exact ⟨rfl, rfl, rfl⟩

theorem cancelActive_same (setup : SchedulerSetup σ) (m : InMemoryScheduler σ) (active : List Uuid)
    (now : Instant) : SameSchedules m (m.cancelActive setup active now).1 :=
  inTurn_rel .refl .trans (fun m _ _ => m.onQueue_same _) m

theorem fireInstant_same (setup : SchedulerSetup σ) (schedule : AutomationSchedule) (now : Instant)
    (m : InMemoryScheduler σ) (scheduledFor : Instant) :
    SameSchedules m (fireInstant setup schedule now m scheduledFor).1 := by
  unfold fireInstant
  dsimp only
  split
  · exact .refl m
  · refine andThen_rel .trans (.refl m) fun active _ => ?_
    split
    · exact m.recordFire_same setup schedule scheduledFor .skippedOverlap now
    · refine andThen_rel .trans ?_ fun _ _ => andThen_rel .trans (onQueue_same _ _) fun _ _ => ?_
      · split
        · exact m.cancelActive_same setup active now
        · exact .refl m
      · exact ⟨rfl, rfl, rfl⟩

theorem dueInstants_same (h : SameSchedules m m') (schedule : AutomationSchedule)
    (cursor : Instant) :
    m'.dueInstants setup schedule cursor now = m.dueInstants setup schedule cursor now := by
  unfold dueInstants expression
  rw [h.expressions, h.maxDue]

/-- What a turn comes to: it raises, or there is nothing to do, or the schedule moves on. -/
inductive Turn (setup : SchedulerSetup σ) (now : Instant) (m : InMemoryScheduler σ)
    (schedule : AutomationSchedule) :
    InMemoryScheduler σ × Except ManagerError (List ScheduleFire) → Prop
  | raised (m' : InMemoryScheduler σ) (e : ManagerError) (hsame : SameSchedules m m') :
      Turn setup now m schedule (m', .error e)
  | idle (hnext : schedule.nextRunAt = none) : Turn setup now m schedule (m, .ok [])
  | moved (m' : InMemoryScheduler σ) (cursor : Instant) (due : List Instant × Instant)
      (created : List ScheduleFire) (hnext : schedule.nextRunAt = some cursor)
      (hdue : m.dueInstants setup schedule cursor now = .ok due) (hsame : SameSchedules m m') :
      Turn setup now m schedule
        ({ m' with schedules := m'.schedules.put (movedOn schedule due.1 due.2 now) }, .ok created)

theorem turn_fireDueLocked (setup : SchedulerSetup σ) (now : Instant) (m : InMemoryScheduler σ)
    (schedule : AutomationSchedule) :
    Turn setup now m schedule (fireDueLocked setup now m schedule) := by
  unfold fireDueLocked
  cases hnext : schedule.nextRunAt with
  | none => exact .idle hnext
  | some cursor =>
    dsimp only
    cases hdue : m.dueInstants setup schedule cursor now with
    | error e =>
      rw [andThen_error (e := e) rfl]
      exact .raised m e (.refl m)
    | ok due =>
      rw [andThen_ok (a := due) rfl]
      have hskipped : SameSchedules m (inTurn (fun m scheduledFor =>
          let recorded := m.recordFire setup schedule scheduledFor .skippedMisfire now
          (recorded.1, (.ok recorded.2 : Except ManagerError _))) m
            (applyMisfirePolicy schedule due.1 now).2).1 :=
        inTurn_rel .refl .trans
          (fun m i _ => m.recordFire_same setup schedule i .skippedMisfire now) m
      dsimp only at hskipped ⊢
      generalize inTurn _ m (applyMisfirePolicy schedule due.1 now).2 = x at hskipped ⊢
      obtain ⟨m₁, skipped⟩ := x
      cases skipped with
      | error e =>
        rw [andThen_error (e := e) rfl]
        exact .raised m₁ e hskipped
      | ok skipped =>
        rw [andThen_ok (a := skipped) rfl]
        have hselected : SameSchedules m₁ (inTurn (fireInstant setup schedule now) m₁
            (applyMisfirePolicy schedule due.1 now).1).1 :=
          inTurn_rel .refl .trans (fun m i _ => fireInstant_same setup schedule now m i) m₁
        dsimp only at hselected ⊢
        generalize inTurn _ m₁ (applyMisfirePolicy schedule due.1 now).1 = y at hselected ⊢
        obtain ⟨m₂, selected⟩ := y
        cases selected with
        | error e =>
          rw [andThen_error (e := e) rfl]
          exact .raised m₂ e (hskipped.trans hselected)
        | ok selected =>
          rw [andThen_ok (a := selected) rfl]
          exact .moved m₂ cursor due _ hnext hdue (hskipped.trans hselected)

/-! ## A tick -/

/-- The turn of a schedule raises. -/
def Raises (setup : SchedulerSetup σ) (now : Instant) (m : InMemoryScheduler σ)
    (schedule : AutomationSchedule) : Prop :=
  ∃ e, (fireDueLocked setup now m schedule).2 = .error e

/-- Turns of the schedules in `due` lead from one state to the other. -/
abbrev Turns (setup : SchedulerSetup σ) (now : Instant) (due : List AutomationSchedule) :
    InMemoryScheduler σ → InMemoryScheduler σ → Prop :=
  Relation.ReflTransGen fun a b => ∃ f ∈ due, b = (fireDueLocked setup now a f).1

/-- The turn of a schedule never raises, whichever turns come before it. -/
def Healthy (setup : SchedulerSetup σ) (now : Instant) (m : InMemoryScheduler σ)
    (schedule : AutomationSchedule) : Prop :=
  ∀ m', Turns setup now (m.dueSchedules now) m m' → ¬ Raises setup now m' schedule

/-- It raises every time. -/
def Fails (setup : SchedulerSetup σ) (now : Instant) (m : InMemoryScheduler σ)
    (schedule : AutomationSchedule) : Prop :=
  ∀ m', Turns setup now (m.dueSchedules now) m m' → Raises setup now m' schedule

/-- The tick has moved a schedule on. -/
def FinalisedBy (setup : SchedulerSetup σ) (now : Instant) (m m' : InMemoryScheduler σ)
    (schedule : AutomationSchedule) : Prop :=
  ∃ cursor due, schedule.nextRunAt = some cursor
    ∧ m.dueInstants setup schedule cursor now = .ok due
    ∧ m'.schedules.get? schedule.id = some (movedOn schedule due.1 due.2 now)

/-- A turn leaves the schedules of others alone. -/
theorem fireDueLocked_get? (m : InMemoryScheduler σ) {f : AutomationSchedule} {k : Uuid}
    (hk : f.id ≠ k) :
    (fireDueLocked setup now m f).1.schedules.get? k = m.schedules.get? k := by
  have hturn := turn_fireDueLocked setup now m f
  generalize fireDueLocked setup now m f = x at hturn ⊢
  cases hturn with
  | raised m' e hsame => exact congrArg (Table.get? · k) hsame.schedules
  | idle => rfl
  | moved m' cursor due created hnext hdue hsame =>
    show (m'.schedules.put (movedOn f due.1 due.2 now)).get? k = _
    rw [Table.get?_put_of_ne (show key (movedOn f due.1 due.2 now) ≠ k from hk), hsame.schedules]

theorem fireDueLocked_dueInstants (m : InMemoryScheduler σ) (f schedule : AutomationSchedule)
    (cursor : Instant) :
    (fireDueLocked setup now m f).1.dueInstants setup schedule cursor now
      = m.dueInstants setup schedule cursor now := by
  have hturn := turn_fireDueLocked setup now m f
  generalize fireDueLocked setup now m f = x at hturn ⊢
  cases hturn with
  | raised m' e hsame => exact dueInstants_same hsame schedule cursor
  | idle => rfl
  | moved m' cursor' due created hnext hdue hsame => exact dueInstants_same hsame schedule cursor

theorem turns_dueInstants {due : List AutomationSchedule} (hreached : Turns setup now due m m')
    (schedule : AutomationSchedule) (cursor : Instant) :
    m'.dueInstants setup schedule cursor now = m.dueInstants setup schedule cursor now := by
  induction hreached with
  | refl => rfl
  | tail _ hturn ih =>
    obtain ⟨f, -, rfl⟩ := hturn
    exact (fireDueLocked_dueInstants _ f schedule cursor).trans ih

theorem inTurn_get? (m : InMemoryScheduler σ) {l : List AutomationSchedule} {k : Uuid}
    (hk : ∀ f ∈ l, f.id ≠ k) :
    (inTurn (fireDueLocked setup now) m l).1.schedules.get? k = m.schedules.get? k :=
  inTurn_rel (R := fun a b : InMemoryScheduler σ => b.schedules.get? k = a.schedules.get? k)
    (fun _ => rfl) (fun h h' => h'.trans h) (fun m f hf => m.fireDueLocked_get? (hk f hf)) m

/-- A schedule that does not raise has moved on after its turn. -/
theorem finalisedBy_turn {h : AutomationSchedule} (hstored : m.schedules.get? h.id = some h)
    (hnext : h.nextRunAt ≠ none) (hnot : ¬ Raises setup now m h) :
    ∃ created, (fireDueLocked setup now m h).2 = .ok created
      ∧ FinalisedBy setup now m (fireDueLocked setup now m h).1 h := by
  have hturn := turn_fireDueLocked setup now m h
  unfold Raises at hnot
  generalize fireDueLocked setup now m h = x at hturn hnot ⊢
  cases hturn with
  | raised m' e => exact absurd ⟨e, rfl⟩ hnot
  | idle hnone => exact absurd hnone hnext
  | moved m' cursor due created hcursor hdue hsame =>
    refine ⟨created, rfl, cursor, due, hcursor, hdue, ?_⟩
    show (m'.schedules.put (movedOn h due.1 due.2 now)).get? h.id = _
    rw [hsame.schedules]
    exact Table.get?_put_self hstored rfl

/-- The turns in order, seen from one of the schedules. -/
theorem inTurn_finalises_iff {due pre post : List AutomationSchedule} {h : AutomationSchedule}
    {m₀ : InMemoryScheduler σ} (hsub : ∀ f ∈ pre, f ∈ due)
    (hids : ∀ f ∈ pre ++ post, f.id ≠ h.id) (hnext : h.nextRunAt ≠ none)
    (hstored : m.schedules.get? h.id = some h) (hreached : Turns setup now due m₀ m)
    (hhealthy : ∀ m', Turns setup now due m₀ m' → ¬ Raises setup now m' h)
    (hpre : ∀ f ∈ pre, (∀ m', Turns setup now due m₀ m' → ¬ Raises setup now m' f)
      ∨ ∀ m', Turns setup now due m₀ m' → Raises setup now m' f) :
    FinalisedBy setup now m (inTurn (fireDueLocked setup now) m (pre ++ h :: post)).1 h
      ↔ ∀ f ∈ pre, ¬ ∀ m', Turns setup now due m₀ m' → Raises setup now m' f := by
  induction pre generalizing m with
  | nil =>
    refine ⟨fun _ => by simp, fun _ => ?_⟩
    obtain ⟨created, hok, cursor, instants, hcursor, hdue, hrow⟩ :=
      finalisedBy_turn hstored hnext (hhealthy m hreached)
    refine ⟨cursor, instants, hcursor, hdue, ?_⟩
    rw [List.nil_append, inTurn_cons_state hok,
      inTurn_get? _ fun f hf => hids f (by simpa using hf)]
    exact hrow
  | cons f pre ih =>
    have hf : f.id ≠ h.id := hids f (by simp)
    rcases hpre f List.mem_cons_self with hgood | hbad
    · -- the turn of a healthy schedule, and the rest of the tick after it
      have hok : ∃ created, (fireDueLocked setup now m f).2 = .ok created := by
        cases hresult : (fireDueLocked setup now m f).2 with
        | error e => exact absurd ⟨e, hresult⟩ (hgood m hreached)
        | ok created => exact ⟨created, rfl⟩
      obtain ⟨created, hok⟩ := hok
      have hnext' : Turns setup now due m₀ (fireDueLocked setup now m f).1 :=
        hreached.tail ⟨f, hsub f List.mem_cons_self, rfl⟩
      have hlater := ih (fun f' hf' => hsub f' (List.mem_cons_of_mem f hf'))
        (fun f' hf' => hids f' (List.mem_cons_of_mem f hf'))
        ((m.fireDueLocked_get? hf).trans hstored) hnext'
        (fun f' hf' => hpre f' (List.mem_cons_of_mem f hf'))
      rw [List.cons_append, inTurn_cons_state hok, List.forall_mem_cons, ← hlater]
      have hsame (m' : InMemoryScheduler σ) : FinalisedBy setup now m m' h
          ↔ FinalisedBy setup now (fireDueLocked setup now m f).1 m' h := by
        unfold FinalisedBy
        simp only [fireDueLocked_dueInstants]
      rw [hsame]
      refine ⟨fun hfin => ⟨fun hbad => ?_, hfin⟩, fun hfin => hfin.2⟩
      exact hgood m hreached (hbad m hreached)
    · -- nothing happens after the turn that raises
      obtain ⟨e, hraised⟩ := hbad m hreached
      rw [List.cons_append, inTurn_cons_error hraised]
      refine ⟨?_, fun hnone => absurd hbad (hnone f List.mem_cons_self)⟩
      rintro ⟨cursor, instants, -, -, hrow⟩
      have hsame : (fireDueLocked setup now m f).1.schedules.get? h.id = some h :=
        (m.fireDueLocked_get? hf).trans hstored
      have hversion := congrArg AutomationSchedule.version (Option.some.inj (hsame.symm.trans hrow))
      have hmoved : h.version = h.version + 1 := hversion
      omega

theorem mem_dueSchedules {h : AutomationSchedule} :
    h ∈ m.dueSchedules now ↔ h ∈ m.schedules.rows ∧ h.enabled = true
    ∧ h.nextRunAt.any (· ≤ now) := by
  unfold dueSchedules
  rw [List.mem_insertionSort, List.mem_filter]
  simp

theorem nodup_dueSchedules (m : InMemoryScheduler σ) (now : Instant) :
    ((m.dueSchedules now).map AutomationSchedule.id).Nodup := by
  have hperm : (m.dueSchedules now).Perm _ := List.perm_insertionSort _ _
  rw [(hperm.map AutomationSchedule.id).nodup_iff]
  exact m.schedules.nodup.sublist (List.filter_sublist.map AutomationSchedule.id)

/-- A tick is the turns of its schedules. -/
theorem tick_state (setup : SchedulerSetup σ) (m : InMemoryScheduler σ) (now : Instant) :
    (m.tick setup now).1 = (inTurn (fireDueLocked setup now) m (m.dueSchedules now)).1 := by
  unfold tick
  cases hresult : (inTurn (fireDueLocked setup now) m (m.dueSchedules now)).2 with
  | error e => rw [andThen_error hresult]
  | ok created => rw [andThen_ok hresult]

/-- The other schedules that are due have other ids. -/
theorem dueSchedules_ids {pre post : List AutomationSchedule} {h : AutomationSchedule}
    (horder : m.dueSchedules now = pre ++ h :: post) : ∀ f ∈ pre ++ post, f.id ≠ h.id := by
  have hnodup := m.nodup_dueSchedules now
  rw [horder, List.map_append, List.map_cons, List.nodup_middle, List.nodup_cons] at hnodup
  intro f hf he
  rw [← List.map_append] at hnodup
  exact hnodup.1 (he ▸ List.mem_map_of_mem hf)

/-- A tick moves a healthy schedule on unless one that fails has its turn before it. -/
theorem tick_finalises_iff (setup : SchedulerSetup σ) (m : InMemoryScheduler σ) (now : Instant)
    {pre post : List AutomationSchedule} {h : AutomationSchedule}
    (horder : m.dueSchedules now = pre ++ h :: post) (hhealthy : Healthy setup now m h)
    (hpre : ∀ f ∈ pre, Healthy setup now m f ∨ Fails setup now m f) :
    FinalisedBy setup now m (m.tick setup now).1 h ↔ ∀ f ∈ pre, ¬ Fails setup now m f := by
  have hmem : h ∈ m.dueSchedules now := by rw [horder]; simp
  obtain ⟨hrow, -, hdue⟩ := mem_dueSchedules.mp hmem
  rw [tick_state, horder]
  refine inTurn_finalises_iff (fun f hf => ?_) (dueSchedules_ids horder) ?_
    (Table.get?_key hrow) .refl hhealthy hpre
  · rw [horder]
    exact List.mem_append_left _ hf
  · intro hnone
    rw [hnone] at hdue
    simp at hdue

/-! ## Queues that raise nothing -/

/-- Every call to the queue returns. -/
structure Total (port : TaskQueuePort σ) : Prop where
  enqueue : ∀ queue request, ∃ taskId, (port.enqueue queue request).2 = .ok taskId
  activeForSchedule : ∀ queue scheduleId, ∃ active,
    port.activeForSchedule queue scheduleId = .ok active
  requestCancel : ∀ queue taskId now, ∃ u, (port.requestCancel queue taskId now).2 = .ok u

theorem Total.fireInstant (htotal : Total setup.port) (schedule : AutomationSchedule)
    (m : InMemoryScheduler σ) (scheduledFor : Instant) :
    ∃ fire, (fireInstant setup schedule now m scheduledFor).2 = .ok fire := by
  unfold InMemoryScheduler.fireInstant
  dsimp only
  split
  · exact ⟨none, rfl⟩
  · refine andThen_total (htotal.activeForSchedule m.queue schedule.id) fun m active => ?_
    split
    · exact ⟨_, rfl⟩
    · refine andThen_total ?_ fun m _ =>
        andThen_total (htotal.enqueue m.queue _) fun m _ => ⟨_, rfl⟩
      split
      · unfold cancelActive
        refine inTurn_total (fun a taskId => ?_) m
        exact htotal.requestCancel a.queue taskId now
      · exact ⟨_, rfl⟩

/-- Then only planning can fail, and whether it does is the same at every turn. -/
theorem Total.healthy (htotal : Total setup.port) {schedule : AutomationSchedule}
    (hplans : ∀ cursor, schedule.nextRunAt = some cursor →
      ∃ due, m.dueInstants setup schedule cursor now = .ok due) : Healthy setup now m schedule := by
  rintro m' hreached ⟨e, hraised⟩
  have hok : ∃ created, (fireDueLocked setup now m' schedule).2 = .ok created := by
    unfold fireDueLocked
    split
    · exact ⟨[], rfl⟩
    · next cursor hnext =>
      obtain ⟨due, hdue⟩ := hplans cursor hnext
      refine andThen_total ⟨due, (turns_dueInstants hreached schedule cursor).trans hdue⟩
        fun m due => ?_
      refine andThen_total (inTurn_total (fun m i => ⟨_, rfl⟩) m) fun m skipped => ?_
      exact andThen_total (inTurn_total (htotal.fireInstant schedule) m) fun m selected => ⟨_, rfl⟩
  obtain ⟨created, hcreated⟩ := hok
  rw [hcreated] at hraised
  simp at hraised

end QaPlatform.Automation.InMemoryScheduler
