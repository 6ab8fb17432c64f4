import QaPlatform.Automation.SchedulerTurns
import QaPlatform.Runtime.ScheduleTurns

/-!
# Schedules that fail every time

Nothing catches what the turn of a schedule raises. A batch ends there, and what comes
later in the order of claims is not attempted. A call for one schedule comes back to a
schedule whose planning fails, because its claim was given up; one that fails in T2 is
passed over while its lease lasts.

Both drivers are compared in one theorem. A batch finalises a healthy schedule unless one that
fails comes before it; calls for one schedule, enough of them, finalise it unless one that
cannot be planned does. What the turn of a schedule does to others is nothing that they depend
on, so whether a schedule is healthy does not change while others have their turns.
-/

namespace QaPlatform.Runtime

namespace ScheduleStore

variable {setup : Setup} {t : Tick} {s s' : ScheduleStore} {r p h : ScheduleRecord}

/-! ## Who comes first -/

theorem Before.ne (hbefore : p.Before h) : p ≠ h := by
  rintro rfl
  rcases hbefore with hlt | ⟨-, hlt⟩
  · exact lt_irrefl _ hlt
  · exact lt_irrefl _ hlt

theorem Before.trans (hrp : r.Before p) (hph : p.Before h) : r.Before h := by
  rcases hrp with hlt | ⟨heq, hid⟩
  · rcases hph with hlt' | ⟨heq', -⟩
    · exact .inl (hlt.trans hlt')
    · exact .inl (heq' ▸ hlt)
  · rcases hph with hlt' | ⟨heq', hid'⟩
    · exact .inl (heq ▸ hlt')
    · exact .inr ⟨heq.trans heq', hid.trans hid'⟩

theorem Before.asymm (hbefore : p.Before h) : ¬ h.Before p :=
  fun hback => Before.ne (Before.trans hbefore hback) rfl

/-- The row that T1 takes. -/
structure First (setup : Setup) (t : Tick) (excluded : List Uuid) (s : ScheduleStore)
    (r : ScheduleRecord) : Prop where
  stored : s.schedules.get? r.id = some r
  waits : t.Waits setup r
  fresh : r.id ∉ excluded
  least : ∀ p ∈ s.schedules.rows, t.Waits setup p → p.id ∉ excluded → p = r ∨ r.Before p

theorem waits_excluded {excluded : List Uuid} :
    (Claimable t.reading.claimedAt (t.dueAt setup) excluded r ∧ r.id ∉ t.reading.skipped)
      ↔ t.Waits setup r ∧ r.id ∉ excluded := by
  unfold Tick.Waits Claimable
  simp only [List.not_mem_nil, not_false_eq_true, and_true]
  tauto

theorem claimDueSchedule_first (setup : Setup) (t : Tick) (s : ScheduleStore)
    (excluded : List Uuid) :
    (s.claimDueSchedule setup t.schedulerId t.leaseSeconds t.fallbackNow excluded
        t.reading.claimToken t.reading.claimedAt t.reading.skipped = (s, none)
      ∧ ∀ p ∈ s.schedules.rows, t.Waits setup p → p.id ∈ excluded)
    ∨ ∃ r, First setup t excluded s r
      ∧ s.claimDueSchedule setup t.schedulerId t.leaseSeconds t.fallbackNow excluded
        t.reading.claimToken t.reading.claimedAt t.reading.skipped
          = (claimedStore t s r, some (t.claim setup r)) := by
  have hmem (p : ScheduleRecord) : p ∈ s.schedules.rows.filter (fun r =>
        Claimable t.reading.claimedAt (t.dueAt setup) excluded r ∧ r.id ∉ t.reading.skipped)
      ↔ p ∈ s.schedules.rows ∧ t.Waits setup p ∧ p.id ∉ excluded := by
    rw [List.mem_filter, decide_eq_true_eq, waits_excluded]
  cases hfirst : s.claimScheduleCandidate t.reading.claimedAt (t.dueAt setup) excluded
      t.reading.skipped with
  | none =>
    refine .inl ⟨?_, fun p hp hwaits => ?_⟩
    · unfold Tick.dueAt at hfirst
      unfold claimDueSchedule
      dsimp only
      rw [hfirst]
    · by_contra hfresh
      have hin := (hmem p).mpr ⟨hp, hwaits, hfresh⟩
      rw [firstBy_eq_none.mp hfirst] at hin
      exact List.not_mem_nil hin
  | some r =>
    obtain ⟨hr, hwaits, hfresh⟩ := (hmem r).mp (mem_of_firstBy hfirst)
    refine .inr ⟨r, ⟨Table.get?_key hr, hwaits, hfresh, fun p hp hp' hpfresh => ?_⟩, ?_⟩
    · have hle := firstBy_le hfirst ((hmem p).mpr ⟨hp, hp', hpfresh⟩)
      simp only [columnsLe, decide_eq_true_eq, Nat.cast_lt, Nat.cast_inj] at hle
      rcases hle with hlt | ⟨heq, hlt | ⟨hid, -⟩⟩
      · exact .inr (.inl hlt)
      · exact .inr (.inr ⟨heq, hlt⟩)
      · have hsame : some r = some p := by
          rw [← Table.get?_key hr, ← Table.get?_key hp]
          exact congrArg s.schedules.get? hid
        exact .inl (Option.some.inj hsame).symm
    · unfold Tick.dueAt at hfirst
      unfold claimDueSchedule
      dsimp only
      rw [hfirst]
      rfl

theorem First.id_ne {excluded : List Uuid} (hfirst : First setup t excluded s r)
    (hp : s.schedules.get? p.id = some p) (hne : r ≠ p) : r.id ≠ p.id := by
  intro heq
  have hstored := hfirst.stored
  rw [heq, hp] at hstored
  exact hne (Option.some.inj hstored).symm

/-- A free row that comes before another one keeps the other one from being first. -/
theorem First.ne_of_before {excluded : List Uuid} (hfirst : First setup t excluded s r)
    (hp : p ∈ s.schedules.rows) (hwaits : t.Waits setup p) (hfresh : p.id ∉ excluded)
    (hbefore : p.Before h) : r ≠ h := by
  rintro rfl
  rcases hfirst.least p hp hwaits hfresh with rfl | hback
  · exact Before.ne hbefore rfl
  · exact Before.asymm hbefore hback

/-- The first row is a free row, or comes before it. -/
theorem First.eq_or_before {excluded : List Uuid} (hfirst : First setup t excluded s r)
    (hstored : s.schedules.get? h.id = some h) (hwaits : t.Waits setup h)
    (hfresh : h.id ∉ excluded) : r = h ∨ r.Before h := by
  rcases hfirst.least h (Table.mem_of_get? hstored) hwaits hfresh with rfl | hbefore
  · exact .inl rfl
  · exact .inr hbefore

/-! ## Turns and rows -/

/-- The call has finalised a row. -/
def FinalisedBy (setup : Setup) (t : Tick) (s' : ScheduleStore) (h : ScheduleRecord) : Prop :=
  ∃ plan, (t.claim setup h).duePlan setup.zones = .ok plan
    ∧ s'.schedules.get? h.id = some (finalizedRow plan t.reading.finalizedAt h)
    ∧ ∀ i ∈ plan.selected, s'.HasFire h.id (setup.render.cronFireKey i)

/-- The row is free for the call, and its turn goes through. -/
def Healthy (setup : Setup) (t : Tick) (s : ScheduleStore) (p : ScheduleRecord) : Prop :=
  t.Waits setup p ∧ s.Clear setup (t.claim setup p)

/-- The row is free for the call, and its turn raises. -/
def Fails (setup : Setup) (t : Tick) (s : ScheduleStore) (p : ScheduleRecord) : Prop :=
  t.Waits setup p ∧ ¬ s.Clear setup (t.claim setup p)

instance (setup : Setup) (s : ScheduleStore) (schedule : ClaimedSchedule) :
    Decidable (s.Clear setup schedule) :=
  match hplan : schedule.duePlan setup.zones with
  | .error e => .isFalse fun hclear => by
    obtain ⟨plan, hok, -⟩ := hclear
    rw [hplan] at hok
    simp at hok
  | .ok plan =>
    have : Decidable (∀ i ∈ s.requestedInstants setup.render schedule plan,
        ¬ s.Taken setup.render schedule i ∧ ¬ Oversized setup.render schedule i) := by
      unfold Taken Oversized
      infer_instance
    decidable_of_iff (∀ i ∈ s.requestedInstants setup.render schedule plan,
        ¬ s.Taken setup.render schedule i ∧ ¬ Oversized setup.render schedule i)
      ⟨fun hfree => ⟨plan, hplan, hfree⟩, fun ⟨_, hok, hfree⟩ =>
        Except.ok.inj (hplan.symm.trans hok) ▸ hfree⟩

instance (setup : Setup) (t : Tick) (s : ScheduleStore) (p : ScheduleRecord) :
    Decidable (Healthy setup t s p) := by
  unfold Healthy
  infer_instance

instance (setup : Setup) (t : Tick) (s : ScheduleStore) (p : ScheduleRecord) :
    Decidable (Fails setup t s p) := by
  unfold Fails
  infer_instance

/-- The row is free for the call, and its planning raises. -/
def Unplannable (setup : Setup) (t : Tick) (p : ScheduleRecord) : Prop :=
  t.Waits setup p ∧ ∀ plan, (t.claim setup p).duePlan setup.zones ≠ .ok plan

section
variable {x : ScheduleStore × Except DomainError (List ScheduleFireRecord)}

theorem Turn.get?_of_ne (hturn : Turn setup t s r x) {k : Uuid} (hk : r.id ≠ k) :
    x.1.schedules.get? k = s.schedules.get? k := by
  cases hturn with
  | unplanned => exact Table.get?_put_of_ne hk
  | refused => exact Table.get?_put_of_ne hk
  | finalised plan s' created _ _ _ hrow =>
    show s'.schedules.get? k = _
    rw [hrow]
    exact Table.get?_put_of_ne hk

theorem Turn.elsewhere (hturn : Turn setup t s r x) : Elsewhere setup.render r.id s x.1 := by
  cases hturn with
  | unplanned => exact (Elsewhere.refl setup.render r.id s).withSchedules s.schedules _
  | refused => exact (Elsewhere.refl setup.render r.id s).withSchedules s.schedules _
  | finalised _ _ _ _ _ helsewhere => exact helsewhere

/-- The rows that a turn has not touched are those of before. -/
theorem Turn.mem_of_ne (hturn : Turn setup t s r x) (hp : p ∈ x.1.schedules.rows)
    (hk : r.id ≠ p.id) : p ∈ s.schedules.rows := by
  have hget : x.1.schedules.get? p.id = some p := Table.get?_key hp
  rw [hturn.get?_of_ne hk] at hget
  exact Table.mem_of_get? hget

theorem Turn.clear_iff (hturn : Turn setup t s r x) {t' : Tick} (hk : r.id ≠ p.id) :
    x.1.Clear setup (t'.claim setup p) ↔ s.Clear setup (t'.claim setup p) := by
  have hid : r.id ≠ (t'.claim setup p).id := hk
  exact hturn.elsewhere.clear_iff hid

theorem Turn.healthy_iff (hturn : Turn setup t s r x) {t' : Tick} (hk : r.id ≠ p.id) :
    Healthy setup t' x.1 p ↔ Healthy setup t' s p :=
  and_congr_right fun _ => hturn.clear_iff hk

theorem Turn.fails_iff (hturn : Turn setup t s r x) {t' : Tick} (hk : r.id ≠ p.id) :
    Fails setup t' x.1 p ↔ Fails setup t' s p :=
  and_congr_right fun _ => not_congr (hturn.clear_iff hk)

/-- A healthy row's turn goes through. -/
theorem Turn.of_clear (hturn : Turn setup t s r x) (hget : s.schedules.get? r.id = some r)
    (hclear : s.Clear setup (t.claim setup r)) :
    (∃ created, x.2 = .ok created) ∧ FinalisedBy setup t x.1 r := by
  cases hturn with
  | unplanned e hplan =>
    obtain ⟨plan, hok, -⟩ := hclear
    exact absurd hok (hplan plan)
  | refused plan e hplan hnot => exact absurd hclear hnot
  | finalised plan s' created hplan _ _ hrow hfires =>
    refine ⟨⟨created, rfl⟩, plan, hplan, ?_, hfires⟩
    show s'.schedules.get? r.id = _
    rw [hrow]
    exact Table.get?_put_self hget rfl

/-- Any other row's turn raises. -/
theorem Turn.of_not_clear (hturn : Turn setup t s r x)
    (hclear : ¬ s.Clear setup (t.claim setup r)) : ∃ e, x.2 = .error e := by
  cases hturn with
  | unplanned e => exact ⟨e, rfl⟩
  | refused plan e => exact ⟨e, rfl⟩
  | finalised plan s' created _ hok => exact absurd hok hclear

end

theorem FinalisedBy.ne (hfin : FinalisedBy setup t s' h) : s'.schedules.get? h.id ≠ some h := by
  intro hsame
  obtain ⟨plan, -, hrow, -⟩ := hfin
  have hversion := congrArg ScheduleRecord.version (Option.some.inj (hsame.symm.trans hrow))
  have hmoved : h.version = h.version + 1 := hversion
  omega

/-- What other rows' turns do leaves a finalised row finalised. -/
theorem FinalisedBy.after (hfin : FinalisedBy setup t s h)
    (hrow : s'.schedules.get? h.id = s.schedules.get? h.id)
    (hfires : ∀ key, s.HasFire h.id key → s'.HasFire h.id key) : FinalisedBy setup t s' h := by
  obtain ⟨plan, hplan, hget, hall⟩ := hfin
  exact ⟨plan, hplan, hrow.trans hget, fun i hi => hfires _ (hall i hi)⟩

/-! ## A batch -/

/-- The calls of a batch. -/
def batchTick (schedulerId : String) (leaseSeconds : Int) (fallbackNow : Option Instant)
    (reading : Nat → TickReading) (i : Nat) : Tick :=
  ⟨schedulerId, leaseSeconds, fallbackNow, reading i⟩

section
variable {schedulerId : String} {leaseSeconds : Int} {fallbackNow : Option Instant}
  {reading : Nat → TickReading}

/-- A round of the batch: nothing is left, or the first row has its turn and the batch goes
on if that does not raise. -/
theorem tickRounds_succ (hr : setup.render.Faithful) (hs : s.Traced setup)
    (attempted : List Uuid) (rounds : Nat)
    (htime : (batchTick schedulerId leaseSeconds fallbackNow reading attempted.length).InTime) :
    ((∀ p ∈ s.schedules.rows,
        (batchTick schedulerId leaseSeconds fallbackNow reading attempted.length).Waits setup p →
          p.id ∈ attempted)
      ∧ (tickRounds setup schedulerId leaseSeconds fallbackNow reading (rounds + 1) s attempted).1
        = s)
    ∨ ∃ r x, First setup (batchTick schedulerId leaseSeconds fallbackNow reading attempted.length)
        attempted s r
      ∧ Turn setup (batchTick schedulerId leaseSeconds fallbackNow reading attempted.length) s r x
      ∧ x.1.Traced setup
      ∧ (tickRounds setup schedulerId leaseSeconds fallbackNow reading (rounds + 1) s attempted).1
        = x.2.toOption.elim x.1 fun _ =>
          (tickRounds setup schedulerId leaseSeconds fallbackNow reading rounds x.1
            (r.id :: attempted)).1 := by
  rw [tickRounds]
  rcases claimDueSchedule_first setup
      (batchTick schedulerId leaseSeconds fallbackNow reading attempted.length) s attempted
    with ⟨hclaim, hnone⟩ | ⟨r, hfirst, hclaim⟩
  · refine .inl ⟨hnone, ?_⟩
    dsimp only [batchTick] at hclaim ⊢
    rw [hclaim]
  · obtain ⟨hturn, htraced⟩ := turn_executeScheduleClaim hr hs hfirst.stored hfirst.waits htime
    refine .inr ⟨r, _, hfirst, hturn, htraced, ?_⟩
    dsimp only [batchTick] at hclaim ⊢
    rw [hclaim]
    dsimp only
    split
    · next hresult => simp only [hresult, Except.toOption, Option.elim_none]
    · next hresult => simp only [hresult, Except.toOption, Option.elim_some]; rfl

/-- What a batch does not attempt any more stays as it is. -/
theorem tickRounds_attempted (hr : setup.render.Faithful) (rounds : Nat) (hs : s.Traced setup)
    {attempted : List Uuid} {k : Uuid} (hk : k ∈ attempted)
    (htime : ∀ i, (batchTick schedulerId leaseSeconds fallbackNow reading i).InTime) :
    (tickRounds setup schedulerId leaseSeconds fallbackNow reading rounds s
      attempted).1.schedules.get? k
        = s.schedules.get? k
      ∧ ∀ key, s.HasFire k key →
        (tickRounds setup schedulerId leaseSeconds fallbackNow reading rounds s attempted).1.HasFire
          k key := by
  induction rounds generalizing s attempted with
  | zero => exact ⟨rfl, fun _ hfire => hfire⟩
  | succ rounds ih =>
    rcases tickRounds_succ hr hs attempted rounds (htime attempted.length)
      with ⟨-, hstate⟩ | ⟨r, ⟨s₁, result⟩, hfirst, hturn, htraced, hstate⟩
    · rw [hstate]
      exact ⟨rfl, fun _ hfire => hfire⟩
    · have hne : r.id ≠ k := fun he => hfirst.fresh (he ▸ hk)
      have hrow := hturn.get?_of_ne hne
      have hfires := hturn.elsewhere.hasFire k hne
      rw [hstate]
      cases result with
      | error e => exact ⟨hrow, fun key hfire => (hfires key).mpr hfire⟩
      | ok created =>
        obtain ⟨hlater, hmore⟩ := ih htraced (List.mem_cons_of_mem r.id hk)
        exact ⟨hlater.trans hrow, fun key hfire => hmore key ((hfires key).mpr hfire)⟩

/-- Everybody before `h` is healthy, and there are rounds enough. -/
theorem tickRounds_reaches (hr : setup.render.Faithful) (rounds : Nat) (hs : s.Traced setup)
    {attempted : List Uuid} (hstored : s.schedules.get? h.id = some h)
    (hfresh : h.id ∉ attempted)
    (htime : ∀ i, (batchTick schedulerId leaseSeconds fallbackNow reading i).InTime)
    (hhealthy : ∀ i, Healthy setup (batchTick schedulerId leaseSeconds fallbackNow reading i) s h)
    (hahead : ∀ p ∈ s.schedules.rows, p.Before h → p.id ∉ attempted →
      (∀ i, Healthy setup (batchTick schedulerId leaseSeconds fallbackNow reading i) s p)
        ∨ ∀ i, ¬ (batchTick schedulerId leaseSeconds fallbackNow reading i).Waits setup p)
    (waiting : List Uuid)
    (hwaiting : ∀ p ∈ s.schedules.rows, p.Before h → p.id ∉ attempted →
      (batchTick schedulerId leaseSeconds fallbackNow reading 0).Waits setup p → p.id ∈ waiting)
    (henough : waiting.length < rounds) :
    ∃ i, FinalisedBy setup (batchTick schedulerId leaseSeconds fallbackNow reading i)
      (tickRounds setup schedulerId leaseSeconds fallbackNow reading rounds s attempted).1 h := by
  induction rounds generalizing s attempted waiting with
  | zero => omega
  | succ rounds ih =>
    rcases tickRounds_succ hr hs attempted rounds (htime attempted.length)
      with ⟨hnone, -⟩ | ⟨r, ⟨s₁, result⟩, hfirst, hturn, htraced, hstate⟩
    · exact absurd (hnone h (Table.mem_of_get? hstored) (hhealthy _).1) hfresh
    · rcases hfirst.eq_or_before hstored (hhealthy _).1 hfresh with rfl | hbefore
      · -- its own turn; the rest of the batch leaves it alone
        obtain ⟨⟨created, hresult⟩, hfin⟩ := hturn.of_clear hfirst.stored (hhealthy _).2
        obtain rfl : result = .ok created := hresult
        refine ⟨attempted.length, ?_⟩
        rw [hstate]
        obtain ⟨hrow, hfires⟩ := tickRounds_attempted hr rounds htraced
          (List.mem_cons_self (a := r.id) (l := attempted)) htime
        exact hfin.after hrow hfires
      · have hne : r.id ≠ h.id := hfirst.id_ne hstored (Before.ne hbefore)
        have hrmem := Table.mem_of_get? hfirst.stored
        rcases hahead r hrmem hbefore hfirst.fresh with hgood | hidle
        · obtain ⟨⟨created, hresult⟩, -⟩ := hturn.of_clear hfirst.stored (hgood _).2
          obtain rfl : result = .ok created := hresult
          rw [hstate]
          refine ih htraced ((hturn.get?_of_ne hne).trans hstored) ?_ ?_ ?_
            (waiting.erase r.id) ?_ ?_
          · exact fun hin => (List.mem_cons.mp hin).elim (fun he => hne he.symm) hfresh
          · exact fun i => (hturn.healthy_iff hne).mpr (hhealthy i)
          · intro p hp hpbefore hpfresh
            have hpne : r.id ≠ p.id := fun he => hpfresh (he ▸ List.mem_cons_self)
            have hold := hturn.mem_of_ne hp hpne
            simp only [hturn.healthy_iff hpne]
            exact hahead p hold hpbefore fun hin => hpfresh (List.mem_cons_of_mem _ hin)
          · intro p hp hpbefore hpfresh hpwaits
            have hpne : r.id ≠ p.id := fun he => hpfresh (he ▸ List.mem_cons_self)
            refine (List.mem_erase_of_ne hpne.symm).mpr ?_
            exact hwaiting p (hturn.mem_of_ne hp hpne) hpbefore
              (fun hin => hpfresh (List.mem_cons_of_mem _ hin)) hpwaits
          · have hin := hwaiting r hrmem hbefore hfirst.fresh (hgood 0).1
            have hlength := List.length_erase_of_mem hin
            have hpos := List.length_pos_of_mem hin
            omega
        · exact absurd hfirst.waits (hidle _)

/-- Somebody before `h` fails every time. -/
theorem tickRounds_blocked (hr : setup.render.Faithful) (rounds : Nat) (hs : s.Traced setup)
    {attempted : List Uuid} (hstored : s.schedules.get? h.id = some h)
    (htime : ∀ i, (batchTick schedulerId leaseSeconds fallbackNow reading i).InTime)
    (hp : s.schedules.get? p.id = some p) (hbefore : p.Before h) (hfresh : p.id ∉ attempted)
    (hfails : ∀ i, Fails setup (batchTick schedulerId leaseSeconds fallbackNow reading i) s p) :
    (tickRounds setup schedulerId leaseSeconds fallbackNow reading rounds s
      attempted).1.schedules.get?
      h.id = some h := by
  induction rounds generalizing s attempted with
  | zero => exact hstored
  | succ rounds ih =>
    rcases tickRounds_succ hr hs attempted rounds (htime attempted.length)
      with ⟨-, hstate⟩ | ⟨r, ⟨s₁, result⟩, hfirst, hturn, htraced, hstate⟩
    · rw [hstate]
      exact hstored
    · have hne : r.id ≠ h.id := hfirst.id_ne hstored
        (hfirst.ne_of_before (Table.mem_of_get? hp) (hfails _).1 hfresh hbefore)
      have hkept := (hturn.get?_of_ne hne).trans hstored
      rw [hstate]
      by_cases hrp : r = p
      · -- its own turn ends the batch
        subst hrp
        obtain ⟨e, hresult⟩ := hturn.of_not_clear (hfails _).2
        obtain rfl : result = .error e := hresult
        exact hkept
      · have hrpid : r.id ≠ p.id := hfirst.id_ne hp hrp
        cases result with
        | error e => exact hkept
        | ok created =>
          refine ih htraced hkept ((hturn.get?_of_ne hrpid).trans hp) ?_ fun i =>
            (hturn.fails_iff hrpid).mpr (hfails i)
          exact fun hin => (List.mem_cons.mp hin).elim (fun he => hrpid he.symm) hfresh

theorem tickSchedules_blocked (hr : setup.render.Faithful) (hs : s.Traced setup)
    (hstored : s.schedules.get? h.id = some h)
    (htime : ∀ i, (batchTick schedulerId leaseSeconds fallbackNow reading i).InTime)
    (hp : p ∈ s.schedules.rows) (hbefore : p.Before h)
    (hfails : ∀ i, Fails setup (batchTick schedulerId leaseSeconds fallbackNow reading i) s p) :
    (s.tickSchedules setup schedulerId leaseSeconds fallbackNow reading).1.schedules.get? h.id
      = some h := by
  have hvalid : validateSchedulerClaim schedulerId leaseSeconds = .ok () := (htime 0).1
  unfold tickSchedules
  rw [hvalid]
  exact tickRounds_blocked hr _ hs hstored htime (Table.get?_key hp) hbefore List.not_mem_nil hfails

/-- A batch finalises a healthy row unless one that fails comes before it. -/
theorem tickSchedules_finalises_iff (hr : setup.render.Faithful) (hs : s.Traced setup)
    (hstored : s.schedules.get? h.id = some h)
    (htime : ∀ i, (batchTick schedulerId leaseSeconds fallbackNow reading i).InTime)
    (hhealthy : ∀ i, Healthy setup (batchTick schedulerId leaseSeconds fallbackNow reading i) s h)
    (hahead : ∀ p ∈ s.schedules.rows, p.Before h →
      (∀ i, Healthy setup (batchTick schedulerId leaseSeconds fallbackNow reading i) s p)
      ∨ (∀ i, Fails setup (batchTick schedulerId leaseSeconds fallbackNow reading i) s p)
      ∨ ∀ i, ¬ (batchTick schedulerId leaseSeconds fallbackNow reading i).Waits setup p)
    (hfew : (s.schedules.rows.filter
      ((batchTick schedulerId leaseSeconds fallbackNow reading 0).Waits setup)).length
        < scheduleTickBatchLimit) :
    (∃ i, FinalisedBy setup (batchTick schedulerId leaseSeconds fallbackNow reading i)
        (s.tickSchedules setup schedulerId leaseSeconds fallbackNow reading).1 h)
      ↔ ∀ p ∈ s.schedules.rows, p.Before h →
        ¬ ∀ i, Fails setup (batchTick schedulerId leaseSeconds fallbackNow reading i) s p := by
  constructor
  · rintro ⟨i, hfin⟩ p hp hbefore hfails
    exact hfin.ne (tickSchedules_blocked hr hs hstored htime hp hbefore hfails)
  · intro hnone
    have hvalid : validateSchedulerClaim schedulerId leaseSeconds = .ok () := (htime 0).1
    unfold tickSchedules
    rw [hvalid]
    refine tickRounds_reaches hr _ hs hstored List.not_mem_nil htime hhealthy ?_
      ((s.schedules.rows.filter
        ((batchTick schedulerId leaseSeconds fallbackNow reading 0).Waits setup)).map
          ScheduleRecord.id) ?_ ?_
    · intro p hp hbefore _
      rcases hahead p hp hbefore with hgood | hbad | hidle
      · exact .inl hgood
      · exact absurd hbad (hnone p hp hbefore)
      · exact .inr hidle
    · intro p hp _ _ hwaits
      exact List.mem_map_of_mem (List.mem_filter.mpr ⟨hp, decide_eq_true hwaits⟩)
    · rw [List.length_map]
      exact hfew

end

/-! ## Calls for one schedule -/

/-- The store after `tick_schedule_once`. -/
def onceTicked (setup : Setup) (s : ScheduleStore) (t : Tick) : ScheduleStore :=
  (s.tickScheduleOnce setup t.schedulerId t.leaseSeconds t.fallbackNow t.reading).1

/-- The store after the first calls of a sequence. -/
def ticked (setup : Setup) : (Nat → Tick) → ScheduleStore → Nat → ScheduleStore
  | _, s, 0 => s
  | ticks, s, n + 1 => ticked setup (fun i => ticks (i + 1)) (s.onceTicked setup (ticks 0)) n

theorem onceTicked_cases (hr : setup.render.Faithful) (hs : s.Traced setup) (htime : t.InTime) :
    ((∀ p ∈ s.schedules.rows, ¬ t.Waits setup p) ∧ s.onceTicked setup t = s)
    ∨ ∃ r x, First setup t [] s r ∧ Turn setup t s r x ∧ x.1.Traced setup
      ∧ s.onceTicked setup t = x.1 := by
  unfold onceTicked tickScheduleOnce
  rw [htime.1]
  dsimp only
  rcases claimDueSchedule_first setup t s [] with ⟨hclaim, hnone⟩ | ⟨r, hfirst, hclaim⟩
  · rw [hclaim]
    exact .inl ⟨fun p hp hwaits => List.not_mem_nil (hnone p hp hwaits), rfl⟩
  · obtain ⟨hturn, htraced⟩ := turn_executeScheduleClaim hr hs hfirst.stored hfirst.waits htime
    rw [hclaim]
    exact .inr ⟨r, _, hfirst, hturn, htraced, rfl⟩

/-- Everybody in `ahead`, and nobody else, may come before `h`; they all can be planned, and
the calls come while the first lease lasts. -/
theorem ticked_reaches (hr : setup.render.Faithful) (ahead : List Uuid) {ticks : Nat → Tick}
    (hs : s.Traced setup) (hstored : s.schedules.get? h.id = some h)
    (htime : ∀ i, (ticks i).InTime) (hhealthy : ∀ i, Healthy setup (ticks i) s h)
    (hahead : ∀ p ∈ s.schedules.rows, p.Before h →
      (∀ i ≤ ahead.length, ¬ (ticks i).Waits setup p)
      ∨ p.id ∈ ahead ∧ ∀ i, ∃ plan, ((ticks i).claim setup p).duePlan setup.zones = .ok plan)
    (hlease : ∀ i j, i ≤ j → j ≤ ahead.length →
      (ticks j).reading.claimedAt < (ticks i).reading.claimedAt + seconds (ticks i).leaseSeconds) :
    ∃ n, FinalisedBy setup (ticks n) (ticked setup ticks s (n + 1)) h := by
  obtain ⟨k, hk⟩ : ∃ k, k = ahead.length := ⟨_, rfl⟩
  induction k generalizing s ahead ticks with
  | zero =>
    rcases onceTicked_cases hr hs (htime 0) with ⟨hnone, -⟩ | ⟨r, x, hfirst, hturn, -, hstate⟩
    · exact absurd (hhealthy 0).1 (hnone h (Table.mem_of_get? hstored))
    · rcases hfirst.eq_or_before hstored (hhealthy 0).1 List.not_mem_nil with rfl | hbefore
      · refine ⟨0, ?_⟩
        show FinalisedBy setup (ticks 0) (s.onceTicked setup (ticks 0)) r
        rw [hstate]
        exact (hturn.of_clear hfirst.stored (hhealthy 0).2).2
      · rcases hahead r (Table.mem_of_get? hfirst.stored) hbefore with hidle | ⟨hin, -⟩
        · exact absurd hfirst.waits (hidle 0 (Nat.zero_le _))
        · rw [List.length_eq_zero_iff.mp hk.symm] at hin
          exact absurd hin List.not_mem_nil
  | succ k ih =>
    rcases onceTicked_cases hr hs (htime 0) with ⟨hnone, -⟩ | ⟨r, x, hfirst, hturn, htraced, hstate⟩
    · exact absurd (hhealthy 0).1 (hnone h (Table.mem_of_get? hstored))
    · rcases hfirst.eq_or_before hstored (hhealthy 0).1 List.not_mem_nil with rfl | hbefore
      · refine ⟨0, ?_⟩
        show FinalisedBy setup (ticks 0) (s.onceTicked setup (ticks 0)) r
        rw [hstate]
        exact (hturn.of_clear hfirst.stored (hhealthy 0).2).2
      · have hne : r.id ≠ h.id := hfirst.id_ne hstored (Before.ne hbefore)
        rcases hahead r (Table.mem_of_get? hfirst.stored) hbefore with hidle | ⟨hin, hplans⟩
        · exact absurd hfirst.waits (hidle 0 (Nat.zero_le _))
        have hlength : (ahead.erase r.id).length = k := by
          rw [List.length_erase_of_mem hin]
          omega
        -- the row's turn puts it behind `h`, or leaves it claimed while the lease lasts
        have hdone : ∀ r', x.1.schedules.get? r.id = some r' → r'.Before h →
            ∀ i ≤ k, ¬ (ticks (i + 1)).Waits setup r' := by
          intro r' hget' hbefore' i hi
          cases hturn with
          | unplanned e hnoplan =>
            obtain ⟨plan, hplan⟩ := hplans 0
            exact absurd hplan (hnoplan plan)
          | refused plan e =>
            have hrow : some r' = some ((ticks 0).claimedRow r) := by
              rw [← hget']
              exact Table.get?_put_self hfirst.stored rfl
            obtain rfl := Option.some.inj hrow
            rintro ⟨⟨-, -, hfree, -⟩, -⟩
            have hheld := hlease 0 (i + 1) (Nat.zero_le _) (by omega)
            have hlapsed : (ticks 0).reading.claimedAt + seconds (ticks 0).leaseSeconds
                ≤ (ticks (i + 1)).reading.claimedAt := by
              simpa [Tick.claimedRow, claimedRow] using hfree
            exact absurd hlapsed (not_le.mpr hheld)
          | finalised plan s' created hplan _ _ hrow =>
            have hrow' : some r' = some (finalizedRow plan (ticks 0).reading.finalizedAt r) := by
              rw [← hget']
              show s'.schedules.get? r.id = _
              rw [hrow]
              exact Table.get?_put_self hfirst.stored rfl
            obtain rfl := Option.some.inj hrow'
            have hlater : (ticks 0).dueAt setup < plan.nextRunAt := ClaimedSchedule.duePlan_lt hplan
            obtain ⟨hnext, hdue⟩ := claimOf_due (ticks 0).schedulerId
              (ticks 0).reading.claimToken (hhealthy 0).1.1
            have hhdue : h.nextRunAt.getD 0 < plan.nextRunAt := by
              rw [hnext]
              exact lt_of_le_of_lt hdue hlater
            rcases hbefore' with hlt | ⟨heq, -⟩
            · exact absurd hlt (lt_asymm hhdue)
            · exact absurd heq (ne_of_gt hhdue)
        have hahead' : ∀ p ∈ x.1.schedules.rows, p.Before h →
            (∀ i ≤ (ahead.erase r.id).length, ¬ (ticks (i + 1)).Waits setup p)
            ∨ p.id ∈ ahead.erase r.id
              ∧ ∀ i, ∃ plan, ((ticks (i + 1)).claim setup p).duePlan setup.zones = .ok plan := by
          intro p hp hpbefore
          by_cases hrp : r.id = p.id
          · refine .inl fun i hi => hdone p ?_ hpbefore i (by omega)
            rw [hrp]
            exact Table.get?_key hp
          · rcases hahead p (hturn.mem_of_ne hp hrp) hpbefore with hidle | ⟨hpin, hpplans⟩
            · exact .inl fun i hi => hidle (i + 1) (by omega)
            · exact .inr ⟨(List.mem_erase_of_ne (Ne.symm hrp)).mpr hpin, fun i => hpplans (i + 1)⟩
        have hlater : ∃ n, FinalisedBy setup (ticks (n + 1))
            (ticked setup (fun i => ticks (i + 1)) x.1 (n + 1)) h :=
          ih (ahead.erase r.id) htraced ((hturn.get?_of_ne hne).trans hstored)
            (fun i => htime (i + 1)) (fun i => (hturn.healthy_iff hne).mpr (hhealthy (i + 1)))
            hahead' (fun i j hij hj => hlease (i + 1) (j + 1) (by omega) (by omega)) hlength.symm
        obtain ⟨n, hfin⟩ := hlater
        refine ⟨n + 1, ?_⟩
        show FinalisedBy setup (ticks (n + 1))
          (ticked setup (fun i => ticks (i + 1)) (s.onceTicked setup (ticks 0)) (n + 1)) h
        rw [hstate]
        exact hfin

/-- A row before `h` cannot be planned, and is claimed again and again. -/
theorem ticked_starves (hr : setup.render.Faithful) (n : Nat) {ticks : Nat → Tick}
    (hs : s.Traced setup) (hstored : s.schedules.get? h.id = some h)
    (htime : ∀ i, (ticks i).InTime) (hp : s.schedules.get? p.id = some p) (hbefore : p.Before h)
    (hplan : ∀ i, Unplannable setup (ticks i) p) :
    (ticked setup ticks s n).schedules.get? h.id = some h := by
  induction n generalizing s ticks p with
  | zero => exact hstored
  | succ n ih =>
    show (ticked setup (fun i => ticks (i + 1)) (s.onceTicked setup (ticks 0)) n).schedules.get?
      h.id = some h
    rcases onceTicked_cases hr hs (htime 0) with ⟨hnone, -⟩ | ⟨r, x, hfirst, hturn, htraced, hstate⟩
    · exact absurd (hplan 0).1 (hnone p (Table.mem_of_get? hp))
    · have hne : r.id ≠ h.id := hfirst.id_ne hstored
        (hfirst.ne_of_before (Table.mem_of_get? hp) (hplan 0).1 List.not_mem_nil hbefore)
      have hkept := (hturn.get?_of_ne hne).trans hstored
      rw [hstate]
      by_cases hrp : r = p
      · subst hrp
        cases hturn with
        | unplanned e =>
          refine ih (p := unclaimedRow r) htraced hkept (fun i => htime (i + 1))
            (Table.get?_put_self hp rfl) hbefore fun i => ⟨?_, (hplan (i + 1)).2⟩
          obtain ⟨⟨henabled, hdue, -, hfresh⟩, hskipped⟩ := (hplan (i + 1)).1
          exact ⟨⟨henabled, hdue, rfl, hfresh⟩, hskipped⟩
        | refused plan e hok => exact absurd hok ((hplan 0).2 plan)
        | finalised plan s' created hok => exact absurd hok ((hplan 0).2 plan)
      · have hrpid : r.id ≠ p.id := hfirst.id_ne hp hrp
        exact ih htraced hkept (fun i => htime (i + 1)) ((hturn.get?_of_ne hrpid).trans hp) hbefore
          fun i => hplan (i + 1)

/-- Calls for one schedule, enough of them within one lease, finalise a healthy row unless
one that cannot be planned comes before it. -/
theorem ticked_finalises_iff (hr : setup.render.Faithful) (hs : s.Traced setup)
    {ticks : Nat → Tick} (hstored : s.schedules.get? h.id = some h)
    (htime : ∀ i, (ticks i).InTime) (hhealthy : ∀ i, Healthy setup (ticks i) s h)
    (hahead : ∀ p ∈ s.schedules.rows, p.Before h →
      (∀ i, ∃ plan, ((ticks i).claim setup p).duePlan setup.zones = .ok plan)
      ∨ (∀ i, Unplannable setup (ticks i) p) ∨ ∀ i, ¬ (ticks i).Waits setup p)
    (hlease : ∀ i j, i ≤ j → j ≤ (s.schedules.rows.filter (·.Before h)).length →
      (ticks j).reading.claimedAt < (ticks i).reading.claimedAt + seconds (ticks i).leaseSeconds) :
    (∃ n, FinalisedBy setup (ticks n) (ticked setup ticks s (n + 1)) h)
      ↔ ∀ p ∈ s.schedules.rows, p.Before h → ¬ ∀ i, Unplannable setup (ticks i) p := by
  constructor
  · rintro ⟨n, hfin⟩ p hp hbefore hplan
    exact hfin.ne (ticked_starves hr (n + 1) hs hstored htime (Table.get?_key hp) hbefore hplan)
  · intro hnone
    refine ticked_reaches hr ((s.schedules.rows.filter (·.Before h)).map ScheduleRecord.id) hs
      hstored htime hhealthy (fun p hp hbefore => ?_) ?_
    · rcases hahead p hp hbefore with hplans | hbad | hidle
      · exact .inr ⟨List.mem_map_of_mem (List.mem_filter.mpr ⟨hp, decide_eq_true hbefore⟩), hplans⟩
      · exact absurd hbad (hnone p hp hbefore)
      · exact .inl fun i _ => hidle i
    · rw [List.length_map]
      exact hlease

end ScheduleStore

namespace SchedulerSystem

open ScheduleStore (FinalisedBy Healthy Fails Unplannable TickReading batchTick ticked
  scheduleTickBatchLimit)
open Automation (InMemoryScheduler SchedulerSetup AutomationSchedule)

/-- In every state that schedulers, users and edits lead to, and of a schedule that itself
fails at no call: a batch finalises it unless one that fails comes before it; repeated calls
for one schedule, unless one that cannot be planned comes before it; and a tick in memory,
unless one that fails has its turn before. -/
theorem finalised_unless_preceded (setup : Setup) (hr : setup.render.Faithful)
    (es : List SchedulerEvent) (h : ScheduleRecord)
    (hstored : (Transition.run (SchedulerSystem.step setup) empty es).store.schedules.get? h.id
      = some h) :
    (∀ (schedulerId : String) (leaseSeconds : Int) (fallbackNow : Option Instant)
      (reading : Nat → TickReading),
      (∀ i, (batchTick schedulerId leaseSeconds fallbackNow reading i).InTime) →
      (∀ i, Healthy setup (batchTick schedulerId leaseSeconds fallbackNow reading i)
        (Transition.run (SchedulerSystem.step setup) empty es).store h) →
      (∀ p ∈ (Transition.run (SchedulerSystem.step setup) empty es).store.schedules.rows,
        p.Before h →
        (∀ i, Healthy setup (batchTick schedulerId leaseSeconds fallbackNow reading i)
          (Transition.run (SchedulerSystem.step setup) empty es).store p)
        ∨ (∀ i, Fails setup (batchTick schedulerId leaseSeconds fallbackNow reading i)
          (Transition.run (SchedulerSystem.step setup) empty es).store p)
        ∨ ∀ i, ¬ (batchTick schedulerId leaseSeconds fallbackNow reading i).Waits setup p) →
      ((Transition.run (SchedulerSystem.step setup) empty es).store.schedules.rows.filter
        ((batchTick schedulerId leaseSeconds fallbackNow reading 0).Waits setup)).length
          < scheduleTickBatchLimit →
      ((∃ i, FinalisedBy setup (batchTick schedulerId leaseSeconds fallbackNow reading i)
        ((Transition.run (SchedulerSystem.step setup) empty es).store.tickSchedules setup
          schedulerId leaseSeconds fallbackNow reading).1 h)
      ↔ ∀ p ∈ (Transition.run (SchedulerSystem.step setup) empty es).store.schedules.rows,
        p.Before h →
        ¬ ∀ i, Fails setup (batchTick schedulerId leaseSeconds fallbackNow reading i)
          (Transition.run (SchedulerSystem.step setup) empty es).store p))
    ∧ (∀ ticks : Nat → Tick, (∀ i, (ticks i).InTime) →
      (∀ i, Healthy setup (ticks i)
        (Transition.run (SchedulerSystem.step setup) empty es).store h) →
      (∀ p ∈ (Transition.run (SchedulerSystem.step setup) empty es).store.schedules.rows,
        p.Before h →
        (∀ i, ∃ plan, ((ticks i).claim setup p).duePlan setup.zones = .ok plan)
        ∨ (∀ i, Unplannable setup (ticks i) p) ∨ ∀ i, ¬ (ticks i).Waits setup p) →
      (∀ i j, i ≤ j →
        j ≤ ((Transition.run (SchedulerSystem.step setup) empty es).store.schedules.rows.filter
          (·.Before h)).length →
        (ticks j).reading.claimedAt
          < (ticks i).reading.claimedAt + seconds (ticks i).leaseSeconds) →
      ((∃ n, FinalisedBy setup (ticks n)
        (ticked setup ticks (Transition.run (SchedulerSystem.step setup) empty es).store (n + 1)) h)
      ↔ ∀ p ∈ (Transition.run (SchedulerSystem.step setup) empty es).store.schedules.rows,
        p.Before h → ¬ ∀ i, Unplannable setup (ticks i) p))
    ∧ ∀ (σ : Type) (inMemory : SchedulerSetup σ) (m : InMemoryScheduler σ) (now : Instant)
      (pre post : List AutomationSchedule) (schedule : AutomationSchedule),
      m.dueSchedules now = pre ++ schedule :: post →
      InMemoryScheduler.Healthy inMemory now m schedule →
      (∀ f ∈ pre, InMemoryScheduler.Healthy inMemory now m f
        ∨ InMemoryScheduler.Fails inMemory now m f) →
      (InMemoryScheduler.FinalisedBy inMemory now m (m.tick inMemory now).1 schedule
        ↔ ∀ f ∈ pre, ¬ InMemoryScheduler.Fails inMemory now m f) := by
  have htraced := run_traced hr es
  refine ⟨?_, ?_, ?_⟩
  · intro schedulerId leaseSeconds fallbackNow reading htime hhealthy hahead hfew
    exact ScheduleStore.tickSchedules_finalises_iff hr htraced hstored htime hhealthy hahead hfew
  · intro ticks htime hhealthy hahead hlease
    exact ScheduleStore.ticked_finalises_iff hr htraced hstored htime hhealthy hahead hlease
  · intro σ inMemory m now pre post schedule horder hhealthy hpre
    exact InMemoryScheduler.tick_finalises_iff inMemory m now horder hhealthy hpre

/-- Two schedules for every minute; a user has taken the key of the first one's task. -/
def takenKeyAhead : List SchedulerEvent :=
  [.createSchedule 0 ⟨"nightly", "synthetic", "\x7b\x7d", "default", 50, 3, "* * * * *", "UTC",
      .fireOnce, .forbid, 60, 3, true⟩,
    .createSchedule 0 ⟨"weekly", "synthetic", "\x7b\x7d", "default", 50, 3, "* * * * *", "UTC",
      .fireOnce, .forbid, 60, 3, true⟩,
    .queue 1 (.enqueueTask ⟨"synthetic", "\x7b\x7d", "default", 50, 3, some "schedule:0:60000000",
      none⟩)]

/-- A call a second after both are due. -/
def lessonReading : TickReading := ⟨61000000, "token", [], 61000000, 61000000⟩

theorem lessonReading_inTime (i : Nat) :
    (batchTick "a" 30 none (fun _ => lessonReading) i).InTime := by
  refine ⟨refuse_bind_eq_ok.mpr ⟨?_, refuse_eq_ok.mpr ?_⟩, ?_⟩
  · show ¬ (strip "a" = "" ∨ 200 < "a".length)
    decide +kernel
  · show ¬ ¬ ((5 : Int) ≤ 30 ∧ (30 : Int) ≤ 3600)
    decide
  · show (61000000 : Int) < 61000000 + seconds 30
    decide

/-- The second schedule could be finalised, the first one could not. -/
theorem takenKeyAhead_schedules :
    ∃ h ∈ (Transition.run (SchedulerSystem.step lesson) empty takenKeyAhead).store.schedules.rows,
      Healthy lesson (batchTick "a" 30 none (fun _ => lessonReading) 0)
        (Transition.run (SchedulerSystem.step lesson) empty takenKeyAhead).store h
      ∧ ∃ p ∈ (Transition.run (SchedulerSystem.step lesson) empty
        takenKeyAhead).store.schedules.rows,
        p.Before h ∧ Fails lesson (batchTick "a" 30 none (fun _ => lessonReading) 0)
          (Transition.run (SchedulerSystem.step lesson) empty takenKeyAhead).store p := by
  decide +kernel

theorem takenKeyAhead_few :
    ((Transition.run (SchedulerSystem.step lesson) empty takenKeyAhead).store.schedules.rows.filter
      ((batchTick "a" 30 none (fun _ => lessonReading) 0).Waits lesson)).length
        < scheduleTickBatchLimit := by
  decide +kernel

/-- The second schedule fails at no call, and has not been attempted when the batch ends. -/
theorem not_finalised_behind_takenKey :
    ∃ h ∈ (Transition.run (SchedulerSystem.step lesson) empty takenKeyAhead).store.schedules.rows,
      (∀ i, Healthy lesson (batchTick "a" 30 none (fun _ => lessonReading) i)
        (Transition.run (SchedulerSystem.step lesson) empty takenKeyAhead).store h)
      ∧ ((Transition.run (SchedulerSystem.step lesson) empty
        takenKeyAhead).store.schedules.rows.filter
        ((batchTick "a" 30 none (fun _ => lessonReading) 0).Waits lesson)).length
          < scheduleTickBatchLimit
      ∧ ((Transition.run (SchedulerSystem.step lesson) empty takenKeyAhead).store.tickSchedules
        lesson
        "a" 30 none (fun _ => lessonReading)).1.schedules.get? h.id = some h := by
  obtain ⟨h, hmem, hhealthy, p, hp, hbefore, hfails⟩ := takenKeyAhead_schedules
  refine ⟨h, hmem, fun _ => hhealthy, takenKeyAhead_few, ?_⟩
  exact ScheduleStore.tickSchedules_blocked lesson_faithful (run_traced lesson_faithful _)
    (Table.get?_key hmem) lessonReading_inTime hp hbefore fun _ => hfails

/-- A queue of task ids. -/
def lessonQueue : Automation.TaskQueuePort (List Uuid) where
  enqueue queue _ := (queue ++ [queue.length], .ok queue.length)
  activeForSchedule queue _ := .ok queue
  requestCancel queue _ _ := (queue, .ok ())

theorem lessonQueue_total : InMemoryScheduler.Total lessonQueue where
  enqueue _ _ := ⟨_, rfl⟩
  activeForSchedule _ _ := ⟨_, rfl⟩
  requestCancel _ _ _ := ⟨_, rfl⟩

/-- The in-memory scheduler with the zones and the texts of `lesson`. -/
def inMemoryLesson : SchedulerSetup (List Uuid) :=
  ⟨lessonQueue, lesson.zones, lesson.render.isoformat, lesson.render.uuid⟩

/-- One schedule for every minute. -/
def inMemoryNightly : Except Automation.ManagerError (InMemoryScheduler (List Uuid)) := do
  let m ← InMemoryScheduler.init [] 10000
  (m.add inMemoryLesson ⟨0, "nightly", "synthetic", "\x7b\x7d", "default", 50, 3,
    "* * * * *", "UTC",
    .fireOnce, .forbid, 60, 3, true, none, none, 0, 0, 0⟩ 0).map (·.1)

theorem inMemoryNightly_due :
    ∃ m schedule, inMemoryNightly = .ok m ∧ m.dueSchedules 61000000 = [] ++ schedule :: []
      ∧ ∀ cursor, schedule.nextRunAt = some cursor →
        ∃ due, m.dueInstants inMemoryLesson schedule cursor 61000000 = .ok due := by
  have hcheck : (inMemoryNightly.toOption.any fun m => (m.dueSchedules 61000000).length = 1
      ∧ ∀ schedule ∈ m.dueSchedules 61000000, schedule.nextRunAt.all fun cursor =>
        (m.dueInstants inMemoryLesson schedule cursor 61000000).toOption.isSome) = true := by
    decide +kernel
  cases hm : inMemoryNightly with
  | error e =>
    rw [hm] at hcheck
    simp [Except.toOption] at hcheck
  | ok m =>
    rw [hm] at hcheck
    obtain ⟨hone, hplans⟩ := of_decide_eq_true hcheck
    obtain ⟨schedule, hdue⟩ := List.length_eq_one_iff.mp hone
    refine ⟨m, schedule, rfl, hdue, fun cursor hcursor => ?_⟩
    have hplan := hplans schedule (by rw [hdue]; exact List.mem_cons_self)
    rw [hcursor] at hplan
    cases hinstants : m.dueInstants inMemoryLesson schedule cursor 61000000 with
    | error e => simp [hinstants, Except.toOption] at hplan
    | ok due => exact ⟨due, rfl⟩

/-- With the key taken it is the first schedule that keeps the second one from being finalised
by the batch, but not by the calls for one schedule. -/
theorem finalised_unless_preceded_takenKey :
    ∃ h ∈ (Transition.run (SchedulerSystem.step lesson) empty takenKeyAhead).store.schedules.rows,
      ((∃ i, FinalisedBy lesson (batchTick "a" 30 none (fun _ => lessonReading) i)
        ((Transition.run (SchedulerSystem.step lesson) empty takenKeyAhead).store.tickSchedules
          lesson "a" 30 none (fun _ => lessonReading)).1 h)
      ↔ ∀ p ∈ (Transition.run (SchedulerSystem.step lesson) empty
        takenKeyAhead).store.schedules.rows,
        p.Before h →
        ¬ ∀ i, Fails lesson (batchTick "a" 30 none (fun _ => lessonReading) i)
          (Transition.run (SchedulerSystem.step lesson) empty takenKeyAhead).store p)
      ∧ ((∃ n, FinalisedBy lesson (batchTick "a" 30 none (fun _ => lessonReading) n)
        (ticked lesson (batchTick "a" 30 none (fun _ => lessonReading))
          (Transition.run (SchedulerSystem.step lesson) empty takenKeyAhead).store (n + 1)) h)
      ↔ ∀ p ∈ (Transition.run (SchedulerSystem.step lesson) empty
        takenKeyAhead).store.schedules.rows,
        p.Before h →
        ¬ ∀ i, Unplannable lesson (batchTick "a" 30 none (fun _ => lessonReading) i) p)
      ∧ ∃ m schedule, inMemoryNightly = .ok m
        ∧ (InMemoryScheduler.FinalisedBy inMemoryLesson 61000000 m
          (m.tick inMemoryLesson 61000000).1 schedule
        ↔ ∀ f ∈ [], ¬ InMemoryScheduler.Fails inMemoryLesson 61000000 m f) := by
  obtain ⟨h, hmem, hhealthy, -⟩ := takenKeyAhead_schedules
  obtain ⟨m, schedule, hm, horder, hplans⟩ := inMemoryNightly_due
  obtain ⟨hbatch, honce, hmemory⟩ :=
    finalised_unless_preceded lesson lesson_faithful takenKeyAhead h
    (Table.get?_key hmem)
  refine ⟨h, hmem, ?_, ?_, m, schedule, hm, ?_⟩
  · refine hbatch "a" 30 none (fun _ => lessonReading) lessonReading_inTime (fun _ => hhealthy)
      (fun p hp hbefore => ?_) takenKeyAhead_few
    by_cases hwaits : (batchTick "a" 30 none (fun _ => lessonReading) 0).Waits lesson p
    · by_cases hclear :
        (Transition.run (SchedulerSystem.step lesson) empty takenKeyAhead).store.Clear
          lesson ((batchTick "a" 30 none (fun _ => lessonReading) 0).claim lesson p)
      · exact .inl fun _ => ⟨hwaits, hclear⟩
      · exact .inr (.inl fun _ => ⟨hwaits, hclear⟩)
    · exact .inr (.inr fun _ => hwaits)
  · refine honce (batchTick "a" 30 none (fun _ => lessonReading)) lessonReading_inTime
      (fun _ => hhealthy) (fun p hp hbefore => ?_) fun i _ _ _ => (lessonReading_inTime i).2
    by_cases hplan : ∃ plan, ((batchTick "a" 30 none (fun _ => lessonReading) 0).claim lesson
        p).duePlan lesson.zones = .ok plan
    · exact .inl fun _ => hplan
    · by_cases hwaits : (batchTick "a" 30 none (fun _ => lessonReading) 0).Waits lesson p
      · exact .inr (.inl fun _ => ⟨hwaits, fun plan hok => hplan ⟨plan, hok⟩⟩)
      · exact .inr (.inr fun _ => hwaits)
  · exact hmemory (List Uuid) inMemoryLesson m 61000000 [] [] schedule horder
      (lessonQueue_total.healthy hplans) (by simp)

end SchedulerSystem

end QaPlatform.Runtime
