import QaPlatform.Services.SuiteCoverage

/-!
# What trends and summary count

An instant is inside the bounds of a period exactly if its local date is one of the period's
days, so the summary and the trends count the same; each day of the period has its bucket, and
each bucket a day of the period.

The two ways of counting are related by the zone: a date is in the period exactly if an instant
of it is within the bounds (`within_iff`). A log lists what is counted under which field and in
which bucket; the trends are the counts of this log, the summary its totals, and totals of
buckets add up as `Base.Counters` has it. The report raises for a defect with a timestamp of
which there is no local date, and for nothing else.
-/

namespace QaPlatform.Services.QualityService

/-! ## Instants and dates -/

/-- A period that a report is made of, and what its bounds are. -/
structure ValidPeriod (dateFrom dateTo offset : Int) : Prop where
  ordered : dateFrom ≤ dateTo
  short : dateTo - dateFrom + 1 ≤ maxPeriodDays
  first : IsDate dateFrom
  after : IsDate (dateTo + 1)
  startUtc : IsReading (midnight dateFrom + -offset)
  endUtc : IsReading (midnight (dateTo + 1) + -offset)

/-- The bounds of a period in UTC. -/
def utcBounds (dateFrom dateTo offset : Int) : Instant × Instant :=
  (midnight dateFrom + -offset, midnight (dateTo + 1) + -offset)

section
variable {dateFrom dateTo offset : Int} {granularity : TrendGranularity} {t : Instant}

theorem periodBounds_ok (h : ValidPeriod dateFrom dateTo offset) :
    periodBounds dateFrom dateTo offset = .ok (utcBounds dateFrom dateTo offset) := by
  have hordered : ¬ dateTo < dateFrom := Int.not_lt.mpr h.ordered
  have hshort : ¬ dateTo - dateFrom + 1 > maxPeriodDays := Int.not_lt.mpr h.short
  rw [periodBounds, refuse_bind_of_not hordered, refuse_bind_of_not hshort,
    refuse_bind_of_not (not_not_intro h.after), shifted, if_pos h.startUtc, ok_bind, shifted,
    if_pos h.endUtc]
  rfl

theorem between_midnights_iff (t dateFrom dateTo offset : Int) :
    midnight dateFrom + -offset ≤ t ∧ t < midnight (dateTo + 1) + -offset
      ↔ dateFrom ≤ dayOf (t + offset) ∧ dayOf (t + offset) ≤ dateTo := by
  simp only [midnight, dayOf, dayLength, epochDay]
  omega

/-- The same period, by instants and by local dates. -/
theorem within_iff : within (some t) (utcBounds dateFrom dateTo offset).1
      (utcBounds dateFrom dateTo offset).2 = true
    ↔ dateFrom ≤ dayOf (t + offset) ∧ dayOf (t + offset) ≤ dateTo := by
  rw [within, Option.any_some, decide_eq_true_eq]
  exact between_midnights_iff t dateFrom dateTo offset

theorem localDate_ok (h : IsReading (t + offset)) :
    localDate t offset = .ok (dayOf (t + offset)) := by
  rw [localDate, shifted, if_pos h]
  rfl

theorem localDate_overflow (h : ¬ IsReading (t + offset)) :
    localDate t offset = .error .overflow := by
  rw [localDate, shifted, if_neg h]
  rfl

theorem bucketStart_ok (h : IsReading (t + offset)) :
    bucketStart t offset granularity = .ok (bucketOf granularity (dayOf (t + offset))) := by
  rw [bucketStart, localDate_ok h]
  rfl

/-- A day of the period has a date. -/
theorem isReading_of_day (h : ValidPeriod dateFrom dateTo offset)
    (hday : dateFrom ≤ dayOf (t + offset) ∧ dayOf (t + offset) ≤ dateTo) :
    IsReading (t + offset) := by
  have hfirst := h.first.1
  have hafter := h.after.2
  exact ⟨by omega, by omega⟩

/-! ## Buckets -/

theorem bucketOf_mono (granularity : TrendGranularity) {a b : Int} (h : a ≤ b) :
    bucketOf granularity a ≤ bucketOf granularity b := by
  cases granularity with
  | day => exact h
  | week =>
    simp only [bucketOf, Calendar.weekday]
    omega

theorem mem_periodDays {day : Int} :
    day ∈ periodDays dateFrom dateTo ↔ dateFrom ≤ day ∧ day ≤ dateTo := by
  simp only [periodDays, List.mem_map, List.mem_range]
  constructor
  · rintro ⟨k, hk, rfl⟩
    omega
  · intro h
    exact ⟨(day - dateFrom).toNat, by omega, by omega⟩

theorem periodDays_sorted : (periodDays dateFrom dateTo).Pairwise (· ≤ ·) := by
  rw [periodDays, List.pairwise_map]
  exact List.pairwise_lt_range.imp fun hlt => by omega

/-- The buckets are those of the days. -/
theorem mem_periodBucketStarts {bucket : Int} :
    bucket ∈ periodBucketStarts dateFrom dateTo granularity
      ↔ ∃ day, dateFrom ≤ day ∧ day ≤ dateTo ∧ bucketOf granularity day = bucket := by
  rw [periodBucketStarts, Counters.mem_firsts, List.mem_map]
  simp only [mem_periodDays, and_assoc]

theorem periodBucketStarts_increasing :
    (periodBucketStarts dateFrom dateTo granularity).Pairwise (· < ·) := by
  apply Counters.firsts_increasing
  rw [List.pairwise_map]
  exact periodDays_sorted.imp (bucketOf_mono granularity)

theorem periodBucketStarts_nodup : (periodBucketStarts dateFrom dateTo granularity).Nodup :=
  periodBucketStarts_increasing.imp fun hlt => by omega

/-! ## Increments -/

theorem value_ne_completed (status : CaseResultStatus) : "completed_executions" ≠ status.value := by
  cases status <;> decide

theorem value_inj {a b : CaseResultStatus} : a.value = b.value ↔ a = b := by
  cases a <;> cases b <;> decide

/-- The increments of a completed execution. -/
theorem executionIncrements_ok {execution : TestExecution}
    (hcompleted : execution.completedAt = some t)
    (h : IsReading (t + offset)) :
    executionIncrements offset granularity execution
      = .ok ((bucketOf granularity (dayOf (t + offset)), "completed_executions")
        :: execution.results.map fun result =>
          (bucketOf granularity (dayOf (t + offset)), result.status.value)) := by
  have hpresent : demand ReportError.assertion (some t) = .ok t := rfl
  rw [executionIncrements, hcompleted, hpresent, ok_bind, bucketStart_ok h]
  rfl

theorem countP_execution (bucket : Int) (execution : TestExecution) (field : String) :
    ((bucket, "completed_executions")
        :: execution.results.map fun result => (bucket, result.status.value)).countP (·.2 = field)
      = (if "completed_executions" = field then 1 else 0)
        + execution.results.countP (·.status.value = field) := by
  rw [List.countP_cons, List.countP_map, Nat.add_comm]
  congr 1
  by_cases h : "completed_executions" = field <;> simp [h]

theorem timestampIncrements_out {field : String} (h : IsReading (t + offset))
    (hday : ¬ (dateFrom ≤ dayOf (t + offset) ∧ dayOf (t + offset) ≤ dateTo)) :
    timestampIncrements dateFrom dateTo offset granularity field (some t) = .ok [] := by
  rw [timestampIncrements, localDate_ok h, ok_bind, if_pos hday]
  rfl

theorem timestampIncrements_in {field : String} (h : IsReading (t + offset))
    (hday : dateFrom ≤ dayOf (t + offset) ∧ dayOf (t + offset) ≤ dateTo) :
    timestampIncrements dateFrom dateTo offset granularity field (some t)
      = .ok [(bucketOf granularity (dayOf (t + offset)), field)] := by
  rw [timestampIncrements, localDate_ok h, ok_bind, if_neg (not_not_intro hday), bucketStart_ok h]
  rfl

/-- A timestamp is counted if there is a local date of it. -/
theorem timestampIncrements_returns {field : String} {timestamp : Option Instant} :
    (∃ increments, timestampIncrements dateFrom dateTo offset granularity field timestamp
      = .ok increments)
      ↔ ∀ t, timestamp = some t → IsReading (t + offset) := by
  cases timestamp with
  | none => exact iff_of_true ⟨[], rfl⟩ (by simp)
  | some t =>
    simp only [Option.some.injEq, forall_eq']
    constructor
    · rintro ⟨increments, h⟩
      by_contra hreading
      rw [timestampIncrements, localDate_overflow hreading, error_bind] at h
      cases h
    · intro hreading
      by_cases hday : dateFrom ≤ dayOf (t + offset) ∧ dayOf (t + offset) ≤ dateTo
      · exact ⟨_, timestampIncrements_in hreading hday⟩
      · exact ⟨_, timestampIncrements_out hreading hday⟩

/-- It is counted once if it is within the period, and in a bucket of the period. -/
theorem timestampIncrements_ok {field : String} {timestamp : Option Instant}
    {increments : List Increment}
    (h : timestampIncrements dateFrom dateTo offset granularity field timestamp = .ok increments) :
    (∀ other, increments.countP (·.2 = other) = if field = other
        ∧ within timestamp (utcBounds dateFrom dateTo offset).1 (utcBounds dateFrom dateTo offset).2
      then 1 else 0)
      ∧ ∀ key ∈ increments, key.1 ∈ periodBucketStarts dateFrom dateTo granularity := by
  cases timestamp with
  | none =>
    obtain rfl := Except.ok.inj h
    exact ⟨fun other => by simp [within], fun _ hkey => absurd hkey List.not_mem_nil⟩
  | some t =>
    have hreading : IsReading (t + offset) := timestampIncrements_returns.mp ⟨_, h⟩ t rfl
    simp only [within_iff]
    by_cases hday : dateFrom ≤ dayOf (t + offset) ∧ dayOf (t + offset) ≤ dateTo
    · rw [timestampIncrements_in hreading hday] at h
      obtain rfl := Except.ok.inj h
      refine ⟨fun other => ?_, fun key hkey => ?_⟩
      · by_cases hfield : field = other <;> simp [hfield, hday]
      · rw [List.mem_singleton.mp hkey]
        exact mem_periodBucketStarts.mpr ⟨_, hday.1, hday.2, rfl⟩
    · rw [timestampIncrements_out hreading hday] at h
      obtain rfl := Except.ok.inj h
      exact ⟨fun other => by simp [hday], fun _ hkey => absurd hkey List.not_mem_nil⟩

theorem reopenIncrements_ok {event : AuditEvent} (h : IsReading (event.createdAt + offset)) :
    reopenIncrements offset granularity event
      = .ok [(bucketOf granularity (dayOf (event.createdAt + offset)), "defects_reopened")] := by
  rw [reopenIncrements, bucketStart_ok h]
  rfl

/-! ## The log of a report -/

/-- Every timestamp of a defect is one of a local date. -/
def HasLocalDates (offset : Int) (defect : Defect) : Prop :=
  ∀ entry ∈ timestamps defect, ∀ t, entry.2 = some t → IsReading (t + offset)

/-- What is counted under a field. -/
def counted (executions : List TestExecution) (defects : List Defect)
    (reopenEvents : List AuditEvent)
    (bounds : Instant × Instant) (field : String) : Nat :=
  Counters.total (executions.map fun execution =>
      (if "completed_executions" = field then 1 else 0)
        + execution.results.countP (·.status.value = field))
    + Counters.total (defects.map fun defect => Counters.total ((timestamps defect).map fun entry =>
        if entry.1 = field ∧ within entry.2 bounds.1 bounds.2 then 1 else 0))
    + Counters.total (reopenEvents.map fun _ => if "defects_reopened" = field then 1 else 0)

theorem defectIncrements_returns {defect : Defect} :
    (∃ increments, defectIncrements dateFrom dateTo offset granularity defect = .ok increments)
      ↔ HasLocalDates offset defect := by
  constructor
  · rintro ⟨increments, h⟩ entry hentry
    exact timestampIncrements_returns.mp (Counters.mem_of_gather h hentry)
  · intro h
    exact Counters.gather_ok fun entry hentry => timestampIncrements_returns.mpr (h entry hentry)

variable (granularity) in
theorem executions_logged (h : ValidPeriod dateFrom dateTo offset) {executions : List TestExecution}
    (hwithin : ∀ execution ∈ executions, within execution.completedAt
      (utcBounds dateFrom dateTo offset).1 (utcBounds dateFrom dateTo offset).2 = true) :
    ∃ log, Counters.gather (executionIncrements offset granularity) executions = .ok log
      ∧ (∀ key ∈ log, key.1 ∈ periodBucketStarts dateFrom dateTo granularity)
      ∧ ∀ field, log.countP (·.2 = field) = Counters.total (executions.map fun execution =>
        (if "completed_executions" = field then 1 else 0)
          + execution.results.countP (·.status.value = field)) := by
  apply Counters.gather_spec
  intro execution hexecution
  have hin := hwithin execution hexecution
  cases hcompleted : execution.completedAt with
  | none =>
    rw [hcompleted] at hin
    cases hin
  | some t =>
    rw [hcompleted] at hin
    have hday := within_iff.mp hin
    refine ⟨_, executionIncrements_ok hcompleted (isReading_of_day h hday), fun key hkey => ?_,
      countP_execution _ execution⟩
    have hbucket : key.1 = bucketOf granularity (dayOf (t + offset)) := by
      rcases List.mem_cons.mp hkey with rfl | hkey
      · rfl
      · obtain ⟨_, -, rfl⟩ := List.mem_map.mp hkey
        rfl
    exact mem_periodBucketStarts.mpr ⟨_, hday.1, hday.2, hbucket.symm⟩

variable (dateFrom dateTo granularity) in
theorem defects_logged {defects : List Defect}
    (h : ∀ defect ∈ defects, HasLocalDates offset defect) :
    ∃ log, Counters.gather (defectIncrements dateFrom dateTo offset granularity) defects = .ok log
      ∧ (∀ key ∈ log, key.1 ∈ periodBucketStarts dateFrom dateTo granularity)
      ∧ ∀ field, log.countP (·.2 = field) = Counters.total (defects.map fun defect =>
        Counters.total ((timestamps defect).map fun entry =>
          if entry.1 = field ∧ within entry.2 (utcBounds dateFrom dateTo offset).1
            (utcBounds dateFrom dateTo offset).2 then 1 else 0)) := by
  apply Counters.gather_spec
  intro defect hdefect
  apply Counters.gather_spec
  intro entry hentry
  obtain ⟨increments, hincrements⟩ :=
    timestampIncrements_returns.mpr (h defect hdefect entry hentry)
  obtain ⟨hcount, hbuckets⟩ := timestampIncrements_ok hincrements
  exact ⟨increments, hincrements, hbuckets, hcount⟩

variable (granularity) in
theorem reopenings_logged (h : ValidPeriod dateFrom dateTo offset) {events : List AuditEvent}
    (hwithin : ∀ event ∈ events, within (some event.createdAt)
      (utcBounds dateFrom dateTo offset).1 (utcBounds dateFrom dateTo offset).2 = true) :
    ∃ log, Counters.gather (reopenIncrements offset granularity) events = .ok log
      ∧ (∀ key ∈ log, key.1 ∈ periodBucketStarts dateFrom dateTo granularity)
      ∧ ∀ field, log.countP (·.2 = field) = Counters.total (events.map fun _ =>
        if "defects_reopened" = field then 1 else 0) := by
  apply Counters.gather_spec
  intro event hevent
  have hday := within_iff.mp (hwithin event hevent)
  refine ⟨_, reopenIncrements_ok (isReading_of_day h hday), fun key hkey => ?_, fun field => ?_⟩
  · rw [List.mem_singleton.mp hkey]
    exact mem_periodBucketStarts.mpr ⟨_, hday.1, hday.2, rfl⟩
  · by_cases hfield : "defects_reopened" = field <;> simp [hfield]

/-- The trends are returned if the timestamps of the defects have local dates, and they are then
the counts of a log that accounts for every field. -/
theorem buildTrends_ok (h : ValidPeriod dateFrom dateTo offset) {executions : List TestExecution}
    {defects : List Defect} {events : List AuditEvent}
    (hexecutions : ∀ execution ∈ executions, within execution.completedAt
      (utcBounds dateFrom dateTo offset).1 (utcBounds dateFrom dateTo offset).2 = true)
    (hevents : ∀ event ∈ events, within (some event.createdAt)
      (utcBounds dateFrom dateTo offset).1 (utcBounds dateFrom dateTo offset).2 = true)
    (hdefects : ∀ defect ∈ defects, HasLocalDates offset defect) :
    ∃ log, buildTrends dateFrom dateTo granularity offset executions defects events
        = .ok ((periodBucketStarts dateFrom dateTo granularity).map (trendPoint log))
      ∧ ∀ field, Counters.total ((periodBucketStarts dateFrom dateTo granularity).map fun bucket =>
          log.count (bucket, field))
        = counted executions defects events (utcBounds dateFrom dateTo offset) field := by
  obtain ⟨ofExecutions, hok, hin, hcount⟩ := executions_logged granularity h hexecutions
  obtain ⟨ofDefects, hok', hin', hcount'⟩ := defects_logged dateFrom dateTo granularity hdefects
  obtain ⟨ofEvents, hok'', hin'', hcount''⟩ := reopenings_logged granularity h hevents
  refine ⟨ofExecutions ++ ofDefects ++ ofEvents, ?_, fun field => ?_⟩
  · rw [buildTrends, hok, ok_bind, hok', ok_bind, hok'']
    rfl
  · rw [Counters.total_buckets periodBucketStarts_nodup, List.countP_append, List.countP_append,
      hcount, hcount', hcount'', counted]
    · intro key hkey _
      rcases List.mem_append.mp hkey with hkey | hkey
      · exact (List.mem_append.mp hkey).elim (hin key) (hin' key)
      · exact hin'' key hkey

theorem buildTrends_overflow {executions : List TestExecution} {defects : List Defect}
    {events : List AuditEvent} {points : List QualityTrendPoint}
    (h : buildTrends dateFrom dateTo granularity offset executions defects events = .ok points) :
    ∀ defect ∈ defects, HasLocalDates offset defect := by
  obtain ⟨_, -, h⟩ := bind_eq_ok.mp h
  obtain ⟨_, hdefects, -⟩ := bind_eq_ok.mp h
  exact fun defect hdefect =>
    defectIncrements_returns.mp (Counters.mem_of_gather hdefects hdefect)

end

/-! ## What is under each field -/

section
variable (executions : List TestExecution) (defects : List Defect) (reopenEvents : List AuditEvent)
  (bounds : Instant × Instant)

theorem countP_results_eq_zero {field : String}
    (h : ∀ status : CaseResultStatus, status.value ≠ field)
    (execution : TestExecution) : execution.results.countP (·.status.value = field) = 0 :=
  List.countP_eq_zero.mpr fun result _ => by simp [h result.status]

theorem counted_completed :
    counted executions defects reopenEvents bounds "completed_executions" = executions.length := by
  simp [counted, timestamps, countP_results_eq_zero fun status => (value_ne_completed status).symm]

theorem counted_status (status : CaseResultStatus) :
    counted executions defects reopenEvents bounds status.value
      = (executionFacts executions).counts.count status := by
  have hresults :
      ∀ execution : TestExecution, execution.results.countP (·.status.value = status.value)
      = (execution.results.map (·.status)).count status := fun execution => by
    rw [List.count, List.countP_map]
    exact List.countP_congr fun result _ => by simp [value_inj]
  have hothers : ∀ defect : Defect, Counters.total ((timestamps defect).map fun entry =>
      if entry.1 = status.value ∧ within entry.2 bounds.1 bounds.2 then 1 else 0) = 0 :=
        fun defect => by
    cases status <;> simp [timestamps, CaseResultStatus.value]
  have hreopened : "defects_reopened" ≠ status.value := by cases status <;> decide
  simp only [counted, hothers, if_neg (value_ne_completed status), if_neg hreopened, hresults,
    executionFacts, List.count, Counters.countP_flatMap, Nat.zero_add]
  rw [Counters.total_map_zero fun _ _ => rfl, Counters.total_map_zero fun _ _ => rfl]
  rfl

/-- No result has the name of a counter of defects. -/
theorem value_ne_defects (status : CaseResultStatus) : status.value ≠ "defects_created"
    ∧ status.value ≠ "defects_resolved" ∧ status.value ≠ "defects_closed"
    ∧ status.value ≠ "defects_reopened" := by
  cases status <;> decide

theorem counted_created : counted executions defects reopenEvents bounds "defects_created"
    = defects.countP fun defect => within (some defect.createdAt) bounds.1 bounds.2 := by
  simp [counted, timestamps, countP_results_eq_zero fun status => (value_ne_defects status).1,
    Counters.total_map_ite]

theorem counted_resolved : counted executions defects reopenEvents bounds "defects_resolved"
    = defects.countP fun defect => within defect.resolvedAt bounds.1 bounds.2 := by
  simp [counted, timestamps, countP_results_eq_zero fun status => (value_ne_defects status).2.1,
    Counters.total_map_ite]

theorem counted_closed : counted executions defects reopenEvents bounds "defects_closed"
    = defects.countP fun defect => within defect.closedAt bounds.1 bounds.2 := by
  simp [counted, timestamps, countP_results_eq_zero fun status => (value_ne_defects status).2.2.1,
    Counters.total_map_ite]

theorem counted_reopened : counted executions defects reopenEvents bounds "defects_reopened"
    = reopenEvents.length := by
  simp [counted, timestamps, countP_results_eq_zero fun status => (value_ne_defects status).2.2.2]

end

/-! ## The report -/

/-- Each counted field adds up to its total in the summary. -/
structure Conserves (r : QualityReport) : Prop where
  completedExecutions : Counters.total (r.trends.map (·.completedExecutions))
    = r.summary.executions.completedExecutions
  passed : Counters.total (r.trends.map (·.passed)) = r.summary.executions.passed
  failed : Counters.total (r.trends.map (·.failed)) = r.summary.executions.failed
  blocked : Counters.total (r.trends.map (·.blocked)) = r.summary.executions.blocked
  skipped : Counters.total (r.trends.map (·.skipped)) = r.summary.executions.skipped
  notRun : Counters.total (r.trends.map (·.notRun)) = r.summary.executions.notRun
  defectsCreated : Counters.total (r.trends.map (·.defectsCreated))
    = r.summary.defects.createdInPeriod
  defectsResolved : Counters.total (r.trends.map (·.defectsResolved))
    = r.summary.defects.resolvedInPeriod
  defectsClosed : Counters.total (r.trends.map (·.defectsClosed))
    = r.summary.defects.closedInPeriod
  defectsReopened : Counters.total (r.trends.map (·.defectsReopened))
    = r.summary.defects.reopenedInPeriod

section
variable {s : QaStore} {project : Uuid} {dateFrom dateTo : Int} {granularity : TrendGranularity}
  {timezoneName : String} {offset : Int} {generatedAt : Instant} {fuel : Nat} {r : QualityReport}

theorem selected_within (bounds : Instant × Instant) :
    ∀ execution ∈ selectedExecutions s project bounds,
      within execution.completedAt bounds.1 bounds.2 = true :=
  fun _ hmem => (of_decide_eq_true (List.mem_filter.mp hmem).2).2.2

theorem reopened_within (bounds : Instant × Instant) :
    ∀ event ∈ reopenedAudits s project bounds,
      within (some event.createdAt) bounds.1 bounds.2 = true :=
  fun _ hmem => (of_decide_eq_true (List.mem_filter.mp hmem).2).2.2

/-- The trends that a report is made with. -/
def trendsOf (s : QaStore) (project : Uuid) (dateFrom dateTo : Int) (granularity : TrendGranularity)
    (offset : Int) : Except ReportError (List QualityTrendPoint) :=
  buildTrends dateFrom dateTo granularity offset
    (selectedExecutions s project (utcBounds dateFrom dateTo offset)) (projectDefects s project)
    (reopenedAudits s project (utcBounds dateFrom dateTo offset))

theorem reportAt_ok (hperiod : ValidPeriod dateFrom dateTo offset)
    (h : reportAt s project dateFrom dateTo granularity timezoneName offset generatedAt
      fuel = .ok r) :
    trendsOf s project dateFrom dateTo granularity offset = .ok r.trends
      ∧ r.summary = summaryOf s project ⟨dateFrom, dateTo, timezoneName⟩
        (utcBounds dateFrom dateTo offset) generatedAt := by
  rw [reportAt, periodBounds_ok hperiod, ok_bind] at h
  obtain ⟨trends, htrends, h⟩ := bind_eq_ok.mp h
  obtain ⟨rows, -, h⟩ := bind_eq_ok.mp h
  obtain rfl := Except.ok.inj h
  exact ⟨htrends, rfl⟩

theorem reportAt_returns (hperiod : ValidPeriod dateFrom dateTo offset)
    (hfuel : (projectSuites s project).length < fuel) {trends : List QualityTrendPoint}
    (h : trendsOf s project dateFrom dateTo granularity offset = .ok trends) :
    ∃ r, reportAt s project dateFrom dateTo granularity timezoneName offset generatedAt
      fuel = .ok r := by
  let facts := executionFacts (selectedExecutions s project (utcBounds dateFrom dateTo offset))
  obtain ⟨rows, hrows⟩ := buildSuiteCoverage_ends (activeCases s project) (projectSuites s project)
    facts.reached facts.failurePairs
      (linkedFailurePairs (projectDefects s project) facts.failurePairs)
  rw [reportAt, periodBounds_ok hperiod, ok_bind]
  dsimp only
  unfold trendsOf at h
  rw [h, ok_bind, hrows fuel hfuel]
  exact ⟨_, rfl⟩

variable (granularity) in
/-- The trends of a report are those of a log that accounts for every field. -/
theorem trendsOf_ok (hperiod : ValidPeriod dateFrom dateTo offset)
    (hdefects : ∀ defect ∈ projectDefects s project, HasLocalDates offset defect) :
    ∃ log, trendsOf s project dateFrom dateTo granularity offset
        = .ok ((periodBucketStarts dateFrom dateTo granularity).map (trendPoint log))
      ∧ ∀ field, Counters.total ((periodBucketStarts dateFrom dateTo granularity).map fun bucket =>
          log.count (bucket, field))
        = counted (selectedExecutions s project (utcBounds dateFrom dateTo offset))
          (projectDefects s project) (reopenedAudits s project (utcBounds dateFrom dateTo offset))
          (utcBounds dateFrom dateTo offset) field :=
  buildTrends_ok hperiod (selected_within _) (reopened_within _) hdefects

theorem conserves_of_log {log : List Increment} {starts : List Int}
    {period : QualityPeriod} {bounds : Instant × Instant}
    (hsummary : r.summary = summaryOf s project period bounds generatedAt)
    (htrends : r.trends = starts.map (trendPoint log))
    (hlog : ∀ field, Counters.total (starts.map fun bucket => log.count (bucket, field))
      = counted (selectedExecutions s project bounds) (projectDefects s project)
        (reopenedAudits s project bounds) bounds field) : Conserves r := by
  have hfield : ∀ (value : QualityTrendPoint → Nat) (field : String),
      (∀ bucket, value (trendPoint log bucket) = log.count (bucket, field)) →
        Counters.total (r.trends.map value) = counted (selectedExecutions s project bounds)
          (projectDefects s project) (reopenedAudits s project bounds) bounds field := by
    intro value field hvalue
    rw [htrends, List.map_map, ← hlog field]
    exact congrArg Counters.total (List.map_congr_left fun bucket _ => hvalue bucket)
  have hstatus : ∀ (value : QualityTrendPoint → Nat) (status : CaseResultStatus),
      (∀ bucket, value (trendPoint log bucket) = log.count (bucket, status.value)) →
        Counters.total (r.trends.map value)
          = (executionFacts (selectedExecutions s project bounds)).counts.count status := by
    intro value status hvalue
    rw [hfield value _ hvalue, counted_status]
  constructor
  · rw [hfield (·.completedExecutions) _ fun _ => rfl, hsummary, counted_completed]
    rfl
  · rw [hstatus (·.passed) .passed fun _ => rfl, hsummary]
    rfl
  · rw [hstatus (·.failed) .failed fun _ => rfl, hsummary]
    rfl
  · rw [hstatus (·.blocked) .blocked fun _ => rfl, hsummary]
    rfl
  · rw [hstatus (·.skipped) .skipped fun _ => rfl, hsummary]
    rfl
  · rw [hstatus (·.notRun) .notRun fun _ => rfl, hsummary]
    rfl
  · rw [hfield (·.defectsCreated) _ fun _ => rfl, hsummary, counted_created]
    rfl
  · rw [hfield (·.defectsResolved) _ fun _ => rfl, hsummary, counted_resolved]
    rfl
  · rw [hfield (·.defectsClosed) _ fun _ => rfl, hsummary, counted_closed]
    rfl
  · rw [hfield (·.defectsReopened) _ fun _ => rfl, hsummary, counted_reopened]
    rfl

end

/-- A report of a period is returned if the timestamps of the project's defects have local dates.
What it counts is conserved, its buckets increase, and they are those of the days of the period. -/
theorem report_conserves (s : QaStore) (project : Uuid) (dateFrom dateTo : Int)
    (granularity : TrendGranularity) (timezoneName : String) (offset : Int) (generatedAt : Instant)
    (fuel : Nat) (hperiod : ValidPeriod dateFrom dateTo offset)
    (hfuel : (projectSuites s project).length < fuel) :
    ((∃ r, reportAt s project dateFrom dateTo granularity timezoneName offset
      generatedAt fuel = .ok r)
      ↔ ∀ defect ∈ projectDefects s project, HasLocalDates offset defect)
    ∧ ∀ r, reportAt s project dateFrom dateTo granularity timezoneName offset generatedAt
      fuel = .ok r →
      Conserves r ∧ (r.trends.map (·.bucketStart)).Pairwise (· < ·)
        ∧ ∀ bucket, bucket ∈ r.trends.map (·.bucketStart)
          ↔ ∃ day, dateFrom ≤ day ∧ day ≤ dateTo ∧ bucketOf granularity day = bucket := by
  constructor
  · constructor
    · rintro ⟨r, h⟩
      exact buildTrends_overflow (reportAt_ok hperiod h).1
    · intro hdefects
      obtain ⟨log, hlog, -⟩ := trendsOf_ok granularity hperiod hdefects
      exact reportAt_returns hperiod hfuel hlog
  · intro r h
    obtain ⟨htrends, hsummary⟩ := reportAt_ok hperiod h
    obtain ⟨log, hlog, hcounted⟩ := trendsOf_ok granularity hperiod
      (buildTrends_overflow htrends)
    have hpoints :
      r.trends = (periodBucketStarts dateFrom dateTo granularity).map (trendPoint log) :=
      Except.ok.inj (htrends.symm.trans hlog)
    have hstarts :
      r.trends.map (·.bucketStart) = periodBucketStarts dateFrom dateTo granularity := by
      rw [hpoints, List.map_map]
      exact List.map_id _
    rw [hstarts]
    exact ⟨conserves_of_log hsummary hpoints hcounted, periodBucketStarts_increasing,
      fun bucket => mem_periodBucketStarts⟩

/-- A defect that was resolved at the first midnight after the epoch in Shanghai. -/
def lateDefect (id : Uuid) : Defect :=
  ⟨id, 7, none, none, "totals differ", "", .major, .p1, .resolved, "ana", "", "", [],
    "", "", "", 0, 0,
    some 57600000000, none⟩

/-- A defect of the first day of 1970 in Shanghai, and resolved on the next day there. -/
def oneDefect : QaStore := { QaStore.empty with defects := Table.empty.add lateDefect }

theorem report_conserves_oneDefect :
    (∃ r, reportAt oneDefect 7 719162 719162 .week "Asia/Shanghai" (seconds 28800) 0 1 = .ok r)
    ∧ ∀ r, reportAt oneDefect 7 719162 719162 .week "Asia/Shanghai" (seconds 28800) 0 1 = .ok r →
      Conserves r ∧ (r.trends.map (·.bucketStart)).Pairwise (· < ·)
        ∧ ∀ bucket, bucket ∈ r.trends.map (·.bucketStart)
          ↔ ∃ day, 719162 ≤ day ∧ day ≤ 719162 ∧ bucketOf .week day = bucket := by
  have hperiod : ValidPeriod 719162 719162 (seconds 28800) :=
    ⟨by decide, by decide, by decide, by decide, by decide, by decide⟩
  have hdefects : ∀ defect ∈ projectDefects oneDefect 7, HasLocalDates (seconds 28800) defect := by
    have hone : projectDefects oneDefect 7 = [lateDefect 0] := rfl
    intro defect hdefect entry hentry t ht
    rw [hone, List.mem_singleton] at hdefect
    subst hdefect
    simp only [timestamps, List.mem_cons, List.not_mem_nil, or_false] at hentry
    rcases hentry with rfl | rfl | rfl <;> cases ht <;> decide
  obtain ⟨hreturns, hreports⟩ := report_conserves oneDefect 7 719162 719162 .week "Asia/Shanghai"
    (seconds 28800) 0 1 hperiod (by decide)
  exact ⟨hreturns.mpr hdefects, hreports⟩

end QaPlatform.Services.QualityService
