import QaPlatform.CiLab.RunLives

/-!
# Views that agree

The row of a run is stored, and its jobs are computed anew for every view. A view of a row that
stands to its definition as it should agrees with itself, as long as the time that it looks at is
as far as the row is.
-/

namespace QaPlatform.CiLab.CiLabStore

variable {definition : PipelineDefinition} {now : Instant} {run : RunRecord}
  {gate : Option QualityGateRecord}

/-- The jobs of all stages. -/
def RunView.jobs (view : RunView) : List JobView := view.stages.flatMap (·.jobs)

/-- A view's parts tell of the same run. -/
structure RunView.Agrees (view : RunView) : Prop where
  queued : view.status = .queued → ∀ job ∈ view.jobs, job.status = .queued ∧ job.startedAt = none
  passed : view.status = .waitingApproval ∨ view.status = .succeeded
      ∨ view.qualityGate.status = .rejected →
    ∀ job ∈ view.jobs, job.status = .succeeded
  failed : view.status = .failed → view.qualityGate.status ≠ .rejected →
    ∃ before failure after, view.jobs = before ++ failure :: after
      ∧ (∀ job ∈ before, job.status ≠ .failed) ∧ failure.status = .failed
      ∧ ∀ job ∈ after, job.status = .cancelled
  running : (view.jobs.filter fun job => job.status = .running).length ≤ 1
  run_chronological : Chronological view.startedAt view.finishedAt
  stages_chronological : ∀ stage ∈ view.stages, Chronological stage.startedAt stage.finishedAt
  jobs_chronological : ∀ job ∈ view.jobs, Chronological job.startedAt job.finishedAt

namespace Life

theorem chronological (h : Life definition run gate) :
    Chronological run.startedAt run.finishedAt := by
  intro start hstart finish hfinish
  cases h with
  | queued _ _ hnone | running _ _ hnone | waiting _ _ _ hnone =>
    rw [hnone] at hfinish
    cases hfinish
  | ended hstatus hstarted hended =>
    rw [hstarted] at hstart
    rw [hended] at hfinish
    obtain rfl := Option.some.inj hstart
    obtain rfl := Option.some.inj hfinish
    exact startsAt_le_terminalAt definition run
  | decided hpasses hstatus hstarted hended hreached =>
    rw [hstarted] at hstart
    rw [hended] at hfinish
    obtain rfl := Option.some.inj hstart
    obtain rfl := Option.some.inj hfinish
    exact Int.le_trans (startsAt_le_terminalAt definition run) hreached
  | cancelled hstatus hstarted hended =>
    rw [hended] at hfinish
    obtain rfl := Option.some.inj hfinish
    exact hstarted start hstart

/-- A cancelled run is looked at from its cancellation. -/
theorem cancelledInTime (h : Life definition run gate) (hregular : definition.Regular)
    (now : Instant) :
    CancelledInTime definition run.createdAt
      (elapsedMs (observationTime run now) run.createdAt) run.cancelledAt := by
  intro t ht item hitem hstart
  cases h with
  | queued _ _ _ hnone | running _ _ _ hnone | waiting _ _ _ _ hnone | ended _ _ _ hnone
  | decided _ _ _ _ _ hnone =>
    rw [hnone] at ht
    cases ht
  | @cancelled cancelledAt hstatus hstarted hended hcancelled =>
    obtain rfl : cancelledAt = t := Option.some.inj (hcancelled.symm.trans ht)
    have htime : observationTime run now = cancelledAt := by
      unfold observationTime
      rw [hstatus, hended, hcancelled, if_pos ⟨.inr (.inr rfl), rfl⟩]
      exact max_self _
    rw [htime] at hstart
    obtain ⟨hdelay, hspan⟩ := PipelineDefinition.le_startMs hitem
    have hpos := hregular.delayed
    have hshort := hregular.short item hitem
    exact le_of_le_elapsedMs (by omega) (by omega) hstart

/-- A run that is done is looked at from where it is done. -/
theorem observationTime_done (h : Life definition run gate) (hdone : Done run gate)
    (now : Instant) : observationTime run now = shownAt run now := by
  unfold observationTime shownAt
  cases h with
  | queued hstatus _ _ _ hgate | running hstatus _ _ _ hgate =>
    rcases hdone with hs | hs | ⟨g, hg, hwaiting⟩
    · simp [hstatus] at hs
    · simp [hstatus] at hs
    · simp [hgate g hg] at hwaiting
  | waiting _ hstatus hstarted hfinished hcancelled =>
    rw [hstatus, hstarted, hfinished, hcancelled, if_neg (by decide), if_pos ⟨rfl, rfl⟩]
    rfl
  | ended hstatus _ hfinished hcancelled =>
    rw [hfinished, hcancelled, if_pos]
    · rfl
    · refine ⟨?_, rfl⟩
      rcases terminalPoint_status definition with hs | hs
      · exact .inr (.inl (hstatus.trans hs))
      · exact .inl (hstatus.trans hs)
  | decided _ hstatus _ hfinished _ hcancelled =>
    rw [hfinished, hcancelled, if_pos]
    · rfl
    · refine ⟨?_, rfl⟩
      rcases hstatus with ⟨hs, -⟩ | ⟨hs, -⟩
      · exact .inl hs
      · exact .inr (.inl hs)
  | cancelled hstatus _ _ _ hgate =>
    rcases hdone with hs | hs | ⟨g, hg, hwaiting⟩
    · simp [hstatus] at hs
    · simp [hstatus] at hs
    · simp [hgate g hg] at hwaiting

/-- A run that is public as queued. -/
theorem of_queued (h : Life definition run gate)
    (hqueued : CiLab.publicRunStatus run gate = .queued) :
    run.status = .queued ∧ run.cancelledAt = none := by
  have hstatus : run.status = .queued := by
    rw [← h.publicRunStatus.2 (by simp [hqueued]), hqueued]
  refine ⟨hstatus, ?_⟩
  cases h with
  | queued _ _ _ hnone | running _ _ _ hnone | waiting _ _ _ _ hnone | ended _ _ _ hnone
  | decided _ _ _ _ _ hnone => exact hnone
  | cancelled hother => simp [hstatus] at hother

/-- A run that waits, has succeeded or was rejected has passed its jobs. -/
theorem of_passed (h : Life definition run gate)
    (hpassed : CiLab.publicRunStatus run gate = .waitingApproval
      ∨ CiLab.publicRunStatus run gate = .succeeded
      ∨ (qualityGateView gate).status = .rejected) :
    definition.firstFailure = none ∧ Done run gate := by
  obtain ⟨hwaits, hstatus⟩ := h.publicRunStatus
  have hsucceeds : run.status = .succeeded ∨ (∃ g, gate = some g
      ∧ (g.status = .waitingApproval ∨ g.status = .rejected)) := by
    rcases hpassed with hwaiting | hsucceeded | hrejected
    · obtain ⟨g, hg, hs⟩ := hwaits.mp hwaiting
      exact .inr ⟨g, hg, .inl hs⟩
    · rw [← hstatus (by simp [hsucceeded])]
      exact .inl hsucceeded
    · cases gate with
      | none => simp [qualityGateView] at hrejected
      | some g => exact .inr ⟨g, rfl, .inr hrejected⟩
  cases h with
  | queued hs _ _ _ hgate | running hs _ _ _ hgate | cancelled hs _ _ _ hgate =>
    rcases hsucceeds with hother | ⟨g, hg, hother⟩
    · simp [hs] at hother
    · simp [hgate g hg] at hother
  | waiting hpasses _ _ _ _ hgate hwaiting => exact ⟨hpasses, .inr (.inr ⟨_, hgate, hwaiting⟩)⟩
  | decided hpasses hs =>
    refine ⟨hpasses, ?_⟩
    rcases hs with ⟨hs, -⟩ | ⟨hs, -⟩
    · exact .inl hs
    · exact .inr (.inl hs)
  | ended hs _ _ _ hgate =>
    rcases hsucceeds with hsucceeded | ⟨g, hg, hother⟩
    · exact ⟨PipelineDefinition.firstFailure_of_succeeded (hs.symm.trans hsucceeded),
        .inl hsucceeded⟩
    · simp [hgate g hg] at hother

/-- A run that has failed otherwise than by a rejection has a job that fails. -/
theorem of_failed (h : Life definition run gate)
    (hfailed : CiLab.publicRunStatus run gate = .failed)
    (hgate : (qualityGateView gate).status ≠ .rejected) :
    Done run gate ∧ ∃ failure, definition.firstFailure = some failure := by
  have hstatus : run.status = .failed := by
    rw [← h.publicRunStatus.2 (by simp [hfailed]), hfailed]
  refine ⟨.inr (.inl hstatus), ?_⟩
  cases h with
  | queued hs | running hs | waiting _ hs | cancelled hs => simp [hstatus] at hs
  | ended hs => exact PipelineDefinition.firstFailure_of_failed (hs.symm.trans hstatus)
  | decided hpasses hs _ _ _ _ hdecided =>
    rcases hs with ⟨hs, -⟩ | ⟨-, hs⟩
    · simp [hstatus] at hs
    · rw [hdecided] at hgate
      exact absurd hs hgate

/-- The view of a run that is looked at from as far as it is agrees with itself. -/
theorem agrees {isoformat : Instant → String} {uuid : Uuid → String} (h : Life definition run gate)
    (hregular : definition.Regular) (hkeys : definition.jobKeys.Nodup)
    (hseen : Seen definition run gate now) (s : CiLabStore) (replayed : Bool) :
    (s.runView (clockSetup isoformat uuid) run definition now gate replayed).Agrees := by
  have hjobs : (s.runView (clockSetup isoformat uuid) run definition now gate replayed).jobs
      = jobViews definition run.createdAt (elapsedMs (observationTime run now) run.createdAt)
        run.cancelledAt := stageViews_jobs hkeys
  have htime := h.cancelledInTime hregular now
  have hlate : Done run gate →
      definition.terminalPoint.ms ≤ elapsedMs (observationTime run now) run.createdAt := by
    intro hdone
    rw [h.observationTime_done hdone]
    exact hseen.done hdone
  constructor
  · intro hqueued
    obtain ⟨hstatus, hcancelled⟩ := h.of_queued hqueued
    have hnow : observationTime run now = now := by
      unfold observationTime
      rw [hstatus, hcancelled, if_neg fun h => absurd h.1 (by decide),
        if_neg fun h => absurd h.1 (by decide)]
      rfl
    rw [hjobs, hcancelled, hnow]
    exact jobViews_queued (hseen.queued hstatus)
  · intro hpassed
    obtain ⟨hpasses, hdone⟩ := h.of_passed hpassed
    rw [hjobs]
    exact jobViews_succeeded hpasses (hlate hdone)
  · intro hfailed hgate
    obtain ⟨hdone, failure, hfailure⟩ := h.of_failed hfailed hgate
    have hover := hlate hdone
    rw [(PipelineDefinition.terminalPoint_of_failure hfailure).2] at hover
    obtain ⟨before, failed, after, heq, hbefore, hstatus, hafter⟩ :=
      jobViews_failed run.createdAt run.cancelledAt hfailure
        (hregular.failing failure hfailure) hover
    rw [hjobs]
    refine ⟨before, failed, after, heq, fun job hjob => ?_, hstatus, hafter⟩
    rw [hbefore job hjob]
    decide
  · rw [hjobs]
    exact length_running_le definition _ _ _
  · exact h.chronological
  · intro stage hstage
    exact stage_chronological htime hstage
  · intro job hjob
    rw [hjobs] at hjob
    exact job_chronological htime hjob

end Life

end QaPlatform.CiLab.CiLabStore
