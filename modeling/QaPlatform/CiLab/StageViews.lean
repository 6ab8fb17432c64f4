import QaPlatform.CiLab.Timeline

/-!
# What a view shows of jobs and stages

A view is computed from an elapsed time alone, and from the instant of a cancellation. The
jobs of all stages together are the jobs of the timeline, in its order.
-/

namespace QaPlatform.CiLab.CiLabStore

variable {definition : PipelineDefinition} {createdAt : Instant} {elapsedMs : Nat}
  {cancelledAt : Option Instant} {failure : Option JobTimeline} {item earlier first : JobTimeline}

/-! ## One job -/

/-- The cases of a job's view: its status, its start and its end. -/
inductive JobPhase (createdAt : Instant) (elapsedMs : Nat) (cancelledAt : Option Instant)
    (failure : Option JobTimeline) (item : JobTimeline) :
    RunStatus → Option Instant → Option Instant → Prop where
  | blocked {earlier : JobTimeline} (hfailure : failure = some earlier)
      (h : earlier.finishMs ≤ item.startMs) :
      JobPhase createdAt elapsedMs cancelledAt failure item .cancelled none
        (some (createdAt + milliseconds earlier.finishMs))
  | unstarted (hcancelled : cancelledAt.isSome) (h : elapsedMs < item.startMs) :
      JobPhase createdAt elapsedMs cancelledAt failure item .cancelled none cancelledAt
  | cancelled (hcancelled : cancelledAt.isSome) (hstart : item.startMs ≤ elapsedMs) :
      JobPhase createdAt elapsedMs cancelledAt failure item .cancelled
        (some (createdAt + milliseconds item.startMs)) cancelledAt
  | failed (hfails : item.definition.shouldFail = true) (h : item.finishMs ≤ elapsedMs) :
      JobPhase createdAt elapsedMs cancelledAt failure item .failed
        (some (createdAt + milliseconds item.startMs))
        (some (createdAt + milliseconds item.finishMs))
  | succeeded (hfails : item.definition.shouldFail = false) (h : item.finishMs ≤ elapsedMs) :
      JobPhase createdAt elapsedMs cancelledAt failure item .succeeded
        (some (createdAt + milliseconds item.startMs))
        (some (createdAt + milliseconds item.finishMs))
  | running (hcancelled : cancelledAt = none) (hstart : item.startMs ≤ elapsedMs)
      (h : elapsedMs < item.finishMs)
      (hopen : ∀ earlier, failure = some earlier → item.startMs < earlier.finishMs) :
      JobPhase createdAt elapsedMs cancelledAt failure item .running
        (some (createdAt + milliseconds item.startMs)) none
  | queued (hcancelled : cancelledAt = none) (h : elapsedMs < item.startMs) :
      JobPhase createdAt elapsedMs cancelledAt failure item .queued none none

/-- What a job that is shown running says of the time. -/
theorem JobPhase.of_running {startedAt finishedAt : Option Instant}
    (h : JobPhase createdAt elapsedMs cancelledAt failure item .running startedAt finishedAt) :
    cancelledAt = none ∧ item.startMs ≤ elapsedMs ∧ elapsedMs < item.finishMs
      ∧ ∀ earlier, failure = some earlier → item.startMs < earlier.finishMs := by
  cases h with
  | running hcancelled hstart hfinish hopen => exact ⟨hcancelled, hstart, hfinish, hopen⟩

theorem jobView_blocked (createdAt : Instant) (elapsedMs : Nat) (cancelledAt : Option Instant)
    (hfailure : failure = some earlier) (h : earlier.finishMs ≤ item.startMs) :
    (jobView createdAt elapsedMs cancelledAt failure item).status = .cancelled
      ∧ JobPhase createdAt elapsedMs cancelledAt failure item .cancelled
        (jobView createdAt elapsedMs cancelledAt failure item).startedAt
        (jobView createdAt elapsedMs cancelledAt failure item).finishedAt := by
  subst hfailure
  have hview : jobView createdAt elapsedMs cancelledAt (some earlier) item
      = ⟨item.definition.key, item.definition.name, .cancelled, item.definition.durationMs, none,
        some (createdAt + milliseconds earlier.finishMs),
        some "cancelled after an earlier fixed job failed"⟩ := by
    simp [jobView, Option.filter, h]
  rw [hview]
  exact ⟨rfl, .blocked rfl h⟩

/-- No earlier job has failed. -/
theorem jobView_open (createdAt : Instant) (elapsedMs : Nat) (cancelledAt : Option Instant)
    (hopen : ∀ earlier, failure = some earlier → item.startMs < earlier.finishMs)
    (hspan : item.startMs ≤ item.finishMs) :
    let view := jobView createdAt elapsedMs cancelledAt failure item
    JobPhase createdAt elapsedMs cancelledAt failure item view.status view.startedAt view.finishedAt
      ∧ (item.finishMs ≤ elapsedMs →
        view.status = if item.definition.shouldFail then .failed else .succeeded) := by
  have hfilter : (failure.filter fun failure => failure.finishMs ≤ item.startMs) = none := by
    cases failure with
    | none => rfl
    | some earlier =>
      have hlt := hopen earlier rfl
      simp [Option.filter, Nat.not_le.mpr hlt]
  dsimp only
  unfold jobView
  simp only [hfilter]
  by_cases hfinish : item.finishMs ≤ elapsedMs
  · have hstart : item.startMs ≤ elapsedMs := Nat.le_trans hspan hfinish
    rw [if_neg (by omega), if_pos hfinish]
    by_cases hfails : item.definition.shouldFail = true
    · rw [if_pos hfails]
      exact ⟨.failed hfails hfinish, fun _ => (if_pos hfails).symm⟩
    · rw [if_neg hfails]
      exact ⟨.succeeded (by simpa using hfails) hfinish, fun _ => (if_neg hfails).symm⟩
  · refine ⟨?_, fun h => absurd h hfinish⟩
    by_cases hcancelled : cancelledAt.isSome
    · rw [if_pos ⟨hcancelled, Nat.lt_of_not_le hfinish⟩]
      by_cases hstart : item.startMs ≤ elapsedMs
      · simp only [if_pos hstart]
        exact .cancelled hcancelled hstart
      · simp only [if_neg hstart]
        exact .unstarted hcancelled (Nat.lt_of_not_le hstart)
    · have hnone : cancelledAt = none := by simpa using hcancelled
      rw [if_neg fun h => hcancelled h.1, if_neg hfinish]
      by_cases hstart : item.startMs ≤ elapsedMs
      · rw [if_pos hstart]
        exact .running hnone hstart (Nat.lt_of_not_le hfinish) hopen
      · rw [if_neg hstart]
        exact .queued hnone (Nat.lt_of_not_le hstart)

theorem jobView_phase (hspan : item.startMs ≤ item.finishMs) :
    JobPhase createdAt elapsedMs cancelledAt failure item
      (jobView createdAt elapsedMs cancelledAt failure item).status
      (jobView createdAt elapsedMs cancelledAt failure item).startedAt
      (jobView createdAt elapsedMs cancelledAt failure item).finishedAt := by
  by_cases hopen : ∀ earlier, failure = some earlier → item.startMs < earlier.finishMs
  · exact (jobView_open createdAt elapsedMs cancelledAt hopen hspan).1
  · obtain ⟨earlier, hfailure, hblocked⟩ :
        ∃ earlier, failure = some earlier ∧ earlier.finishMs ≤ item.startMs := by
      simpa using hopen
    obtain ⟨hstatus, hphase⟩ := jobView_blocked createdAt elapsedMs cancelledAt hfailure hblocked
    rw [hstatus]
    exact hphase

/-! ## All jobs -/

/-- The first failing job, once it has failed. -/
def failedBy (definition : PipelineDefinition) (elapsedMs : Nat) : Option JobTimeline :=
  definition.firstFailure.filter fun failure => failure.finishMs ≤ elapsedMs

/-- The views of the jobs, in the order of the timeline. -/
def jobViews (definition : PipelineDefinition) (createdAt : Instant) (elapsedMs : Nat)
    (cancelledAt : Option Instant) : List JobView :=
  definition.timeline.map (jobView createdAt elapsedMs cancelledAt (failedBy definition elapsedMs))

theorem failedBy_eq_some :
    failedBy definition elapsedMs = some first
      ↔ definition.firstFailure = some first ∧ first.finishMs ≤ elapsedMs := by
  unfold failedBy
  rw [Option.filter_eq_some_iff]
  simp

theorem mem_jobViews {view : JobView}
    (h : view ∈ jobViews definition createdAt elapsedMs cancelledAt) :
    ∃ item ∈ definition.timeline,
      view = jobView createdAt elapsedMs cancelledAt (failedBy definition elapsedMs) item
        ∧ JobPhase createdAt elapsedMs cancelledAt (failedBy definition elapsedMs) item view.status
          view.startedAt view.finishedAt := by
  obtain ⟨item, hitem, rfl⟩ := List.mem_map.mp h
  exact ⟨item, hitem, rfl, jobView_phase (PipelineDefinition.le_startMs hitem).2⟩

theorem jobView_key :
    (jobView createdAt elapsedMs cancelledAt failure item).key = item.definition.key := by
  unfold jobView
  dsimp only
  repeat' split
  all_goals rfl

theorem jobViews_key (definition : PipelineDefinition) (createdAt : Instant) (elapsedMs : Nat)
    (cancelledAt : Option Instant) :
    (jobViews definition createdAt elapsedMs cancelledAt).map (·.key) = definition.jobKeys := by
  have hkeys : (jobViews definition createdAt elapsedMs cancelledAt).map (·.key)
      = (definition.timeline.map (·.definition)).map (·.key) := by
    unfold jobViews
    rw [List.map_map, List.map_map]
    exact List.map_congr_left fun item _ => jobView_key
  rw [hkeys]
  exact congrArg (List.map (·.key)) (timelineFrom_definition _ _)

/-- The stages show the jobs of the timeline. -/
theorem stageViews_jobs (h : definition.jobKeys.Nodup) :
    (stageViews definition createdAt elapsedMs cancelledAt).flatMap (·.jobs)
      = jobViews definition createdAt elapsedMs cancelledAt := by
  have hkeys := jobViews_key definition createdAt elapsedMs cancelledAt
  have hnodup : ((jobViews definition createdAt elapsedMs cancelledAt).map (·.key)).Nodup := by
    rw [hkeys]
    exact h
  have hlookup := Spans.filterMap_find?_keys hnodup
  rw [hkeys] at hlookup
  calc (stageViews definition createdAt elapsedMs cancelledAt).flatMap (·.jobs)
      = definition.stages.flatMap fun stage => stage.jobs.filterMap fun job =>
          (jobViews definition createdAt elapsedMs cancelledAt).find? (·.key = job.key) := by
        rw [stageViews, List.flatMap_map]
        rfl
    _ = definition.jobKeys.filterMap fun key =>
          (jobViews definition createdAt elapsedMs cancelledAt).find? (·.key = key) := by
        rw [PipelineDefinition.jobKeys, List.filterMap_map, List.filterMap_flatMap]
        rfl
    _ = jobViews definition createdAt elapsedMs cancelledAt := hlookup

/-- Before the queue delay has passed no job has started. -/
theorem jobViews_queued (h : elapsedMs < definition.queueDelayMs) :
    ∀ job ∈ jobViews definition createdAt elapsedMs none,
      job.status = .queued ∧ job.startedAt = none := by
  intro job hjob
  obtain ⟨item, hitem, -, hphase⟩ := mem_jobViews hjob
  obtain ⟨hdelay, hspan⟩ := PipelineDefinition.le_startMs hitem
  generalize job.status = status at hphase ⊢
  generalize job.startedAt = startedAt at hphase ⊢
  generalize job.finishedAt = finishedAt at hphase
  cases hphase with
  | blocked hfailure hblocked =>
    obtain ⟨hfirst, hfailed⟩ := failedBy_eq_some.mp hfailure
    have hlate := PipelineDefinition.le_startMs (PipelineDefinition.mem_of_firstFailure hfirst)
    omega
  | unstarted hcancelled => cases hcancelled
  | cancelled hcancelled => cases hcancelled
  | failed hfails hfinish => omega
  | succeeded hfails hfinish => omega
  | running hcancelled hstart => omega
  | queued => exact ⟨rfl, rfl⟩

/-- At the terminal point of a definition without a failing job every job has succeeded. -/
theorem jobViews_succeeded (hnone : definition.firstFailure = none)
    (h : definition.terminalPoint.ms ≤ elapsedMs) :
    ∀ job ∈ jobViews definition createdAt elapsedMs cancelledAt, job.status = .succeeded := by
  intro job hjob
  obtain ⟨item, hitem, rfl⟩ := List.mem_map.mp hjob
  have hfinish := (PipelineDefinition.terminalPoint_of_none hnone).2 item hitem
  have hopen : ∀ earlier, failedBy definition elapsedMs = some earlier →
      item.startMs < earlier.finishMs := by
    intro earlier hfailed
    rw [(failedBy_eq_some.mp hfailed).1] at hnone
    cases hnone
  have hview := (jobView_open createdAt elapsedMs cancelledAt hopen
    (PipelineDefinition.le_startMs hitem).2).2 (by omega)
  rw [hview, PipelineDefinition.shouldFail_of_firstFailure hnone hitem]
  rfl

/-- Once the first failing job has failed, the ones before it have succeeded and the ones behind it
are cancelled, as long as it takes its time. -/
theorem jobViews_failed (createdAt : Instant) (cancelledAt : Option Instant)
    (hfailure : definition.firstFailure = some first)
    (hpositive : first.startMs < first.finishMs) (h : first.finishMs ≤ elapsedMs) :
    ∃ before failed after,
      jobViews definition createdAt elapsedMs cancelledAt = before ++ failed :: after
        ∧ (∀ job ∈ before, job.status = .succeeded) ∧ failed.status = .failed
        ∧ ∀ job ∈ after, job.status = .cancelled := by
  obtain ⟨hfails, before, after, htimeline, hbefore, hafter⟩ :=
    PipelineDefinition.timeline_split hfailure
  have hfailed : failedBy definition elapsedMs = some first :=
    failedBy_eq_some.mpr ⟨hfailure, h⟩
  have hspans : ∀ item ∈ before ++ first :: after, item.startMs ≤ item.finishMs := by
    intro item hitem
    rw [← htimeline] at hitem
    exact (PipelineDefinition.le_startMs hitem).2
  have hopen : ∀ item : JobTimeline, item.startMs < first.finishMs → ∀ earlier,
      failedBy definition elapsedMs = some earlier → item.startMs < earlier.finishMs := by
    intro item hitem earlier hearlier
    rw [hfailed] at hearlier
    obtain rfl := Option.some.inj hearlier
    exact hitem
  let view := jobView createdAt elapsedMs cancelledAt (failedBy definition elapsedMs)
  refine ⟨before.map view, view first, after.map view, ?_, ?_, ?_, ?_⟩
  · unfold jobViews
    rw [htimeline, List.map_append, List.map_cons]
  · intro job hjob
    obtain ⟨item, hitem, rfl⟩ := List.mem_map.mp hjob
    obtain ⟨hsucceeds, hearly⟩ := hbefore item hitem
    have hspan := hspans item (by simp [hitem])
    have hview := (jobView_open createdAt elapsedMs cancelledAt (hopen item (by omega))
      hspan).2 (by omega)
    rw [hview, hsucceeds]
    rfl
  · have hview := (jobView_open createdAt elapsedMs cancelledAt (hopen first hpositive)
      (Nat.le_of_lt hpositive)).2 h
    rw [hview, hfails]
    rfl
  · intro job hjob
    obtain ⟨item, hitem, rfl⟩ := List.mem_map.mp hjob
    exact (jobView_blocked createdAt elapsedMs cancelledAt hfailed (hafter item hitem)).1

/-- One job is running at most. -/
theorem length_running_le (definition : PipelineDefinition) (createdAt : Instant) (elapsedMs : Nat)
    (cancelledAt : Option Instant) :
    ((jobViews definition createdAt elapsedMs cancelledAt).filter
      fun job => job.status = .running).length ≤ 1 := by
  unfold jobViews
  rw [List.filter_map, List.length_map]
  refine definition.timeline_inOrder.length_filter_le (t := elapsedMs) fun item hitem hrunning => ?_
  have hspan := (PipelineDefinition.le_startMs hitem).2
  have hphase : JobPhase createdAt elapsedMs cancelledAt (failedBy definition elapsedMs) item
      _ _ _ := jobView_phase hspan
  have hstatus : (jobView createdAt elapsedMs cancelledAt (failedBy definition elapsedMs)
      item).status = .running := by
    simpa using hrunning
  rw [hstatus] at hphase
  obtain ⟨-, hstart, hfinish, -⟩ := hphase.of_running
  exact ⟨hstart, hfinish⟩

/-- While a job is running none has failed and none is cancelled. -/
theorem not_ended_of_running {running job : JobView}
    (hrunning : running ∈ jobViews definition createdAt elapsedMs cancelledAt)
    (hstatus : running.status = .running)
    (hjob : job ∈ jobViews definition createdAt elapsedMs cancelledAt) :
    job.status ≠ .failed ∧ job.status ≠ .cancelled := by
  obtain ⟨item, hitem, -, hphase⟩ := mem_jobViews hrunning
  rw [hstatus] at hphase
  obtain ⟨hcancelled, hstart, hfinish, hopen⟩ := hphase.of_running
  -- had a job failed, the running one would be over, or blocked
  have hnone : ∀ first, failedBy definition elapsedMs ≠ some first := by
    intro first hfailed
    obtain ⟨hfirst, hlate⟩ := failedBy_eq_some.mp hfailed
    obtain ⟨-, before, after, htimeline, hbefore, hafter⟩ :=
      PipelineDefinition.timeline_split hfirst
    have hblocked := hopen first hfailed
    have hspan := (PipelineDefinition.le_startMs (PipelineDefinition.mem_of_firstFailure hfirst)).2
    rw [htimeline] at hitem
    rcases List.mem_append.mp hitem with hearly | hrest
    · have hover := (hbefore item hearly).2
      omega
    rcases List.mem_cons.mp hrest with rfl | hbehind
    · omega
    · have hnext := hafter item hbehind
      omega
  obtain ⟨other, hother, -, hphase'⟩ := mem_jobViews hjob
  generalize job.status = status at hphase' ⊢
  generalize job.startedAt = startedAt at hphase'
  generalize job.finishedAt = finishedAt at hphase'
  cases hphase' with
  | blocked hfailure => exact absurd hfailure (hnone _)
  | unstarted hsome => simp [hcancelled] at hsome
  | cancelled hsome => simp [hcancelled] at hsome
  | failed hfails hover =>
    cases hfirst : definition.firstFailure with
    | none =>
      rw [PipelineDefinition.shouldFail_of_firstFailure hfirst hother] at hfails
      cases hfails
    | some first =>
      -- the first one that fails fails no later
      have hle : first.finishMs ≤ other.finishMs := by
        obtain ⟨-, before, after, htimeline, hbefore, hafter⟩ :=
          PipelineDefinition.timeline_split hfirst
        have hspan := (PipelineDefinition.le_startMs hother).2
        rw [htimeline] at hother
        rcases List.mem_append.mp hother with hearly | hrest
        · rw [(hbefore other hearly).1] at hfails
          cases hfails
        rcases List.mem_cons.mp hrest with rfl | hbehind
        · exact Nat.le_refl _
        · have hnext := hafter other hbehind
          omega
      exact absurd (failedBy_eq_some.mpr ⟨hfirst, Nat.le_trans hle hover⟩) (hnone first)
  | succeeded | running | queued => decide

/-! ## Starts and ends -/

/-- What has an end has not ended before its start. -/
def Chronological (startedAt finishedAt : Option Instant) : Prop :=
  ∀ start, startedAt = some start → ∀ finish, finishedAt = some finish → start ≤ finish

/-- A cancellation comes after the start of every job that the time has reached. -/
def CancelledInTime (definition : PipelineDefinition) (createdAt : Instant) (elapsedMs : Nat)
    (cancelledAt : Option Instant) : Prop :=
  ∀ t, cancelledAt = some t → ∀ item ∈ definition.timeline, item.startMs ≤ elapsedMs →
    createdAt + milliseconds item.startMs ≤ t

theorem add_milliseconds_le {m n : Nat} (h : m ≤ n) (createdAt : Instant) :
    createdAt + milliseconds m ≤ createdAt + milliseconds n := by
  have hle : milliseconds m ≤ milliseconds n := by
    unfold milliseconds
    omega
  exact Int.add_le_add_left hle createdAt

theorem job_chronological (htime : CancelledInTime definition createdAt elapsedMs cancelledAt)
    {job : JobView} (hjob : job ∈ jobViews definition createdAt elapsedMs cancelledAt) :
    Chronological job.startedAt job.finishedAt := by
  obtain ⟨item, hitem, -, hphase⟩ := mem_jobViews hjob
  have hspan := add_milliseconds_le (PipelineDefinition.le_startMs hitem).2 createdAt
  intro start hstart finish hfinish
  rw [hstart, hfinish] at hphase
  generalize job.status = status at hphase
  cases hphase with
  | failed | succeeded => exact hspan
  | cancelled _ hreached => exact htime finish rfl item hitem hreached

/-- What has started and is not running has an end. -/
theorem job_finished {job : JobView}
    (hjob : job ∈ jobViews definition createdAt elapsedMs cancelledAt)
    (hstarted : job.startedAt.isSome) (hstatus : job.status ≠ .running) :
    ∃ finish, job.finishedAt = some finish := by
  obtain ⟨item, hitem, -, hphase⟩ := mem_jobViews hjob
  generalize job.status = status at hphase hstatus
  generalize job.startedAt = startedAt at hphase hstarted
  generalize job.finishedAt = finishedAt at hphase ⊢
  cases hphase with
  | blocked | unstarted | queued => cases hstarted
  | cancelled hcancelled => exact Option.isSome_iff_exists.mp hcancelled
  | failed | succeeded => exact ⟨_, rfl⟩
  | running => exact absurd rfl hstatus

/-- The status of a stage that has ended. -/
theorem stageStatus_terminal {jobs : List JobView} (h : (stageStatus jobs).isTerminal) :
    (∃ job ∈ jobs, job.status = .failed ∨ job.status = .cancelled)
      ∨ ∀ job ∈ jobs, job.status = .succeeded := by
  unfold stageStatus at h
  split at h
  · next hfailed =>
    obtain ⟨job, hjob, hstatus⟩ := List.any_eq_true.mp hfailed
    exact .inl ⟨job, hjob, .inl (by simpa using hstatus)⟩
  split at h
  · next hsucceeded =>
    refine .inr fun job hjob => ?_
    simpa using List.all_eq_true.mp hsucceeded job hjob
  split at h
  · next hcancelled =>
    obtain ⟨job, hjob, hstatus⟩ := List.any_eq_true.mp hcancelled
    exact .inl ⟨job, hjob, .inr (by simpa using hstatus)⟩
  split at h
  · exact absurd h (by decide)
  · exact absurd h (by decide)

/-- A stage shows jobs of the timeline. -/
theorem stage_jobs {stage : StageView}
    (h : stage ∈ stageViews definition createdAt elapsedMs cancelledAt) :
    (∀ job ∈ stage.jobs, job ∈ jobViews definition createdAt elapsedMs cancelledAt)
      ∧ stage.status = stageStatus stage.jobs
      ∧ stage.startedAt = (stage.jobs.filterMap (·.startedAt)).min?
      ∧ stage.finishedAt = if stage.status.isTerminal
          then (stage.jobs.filterMap (·.finishedAt)).max? else none := by
  obtain ⟨definitionStage, -, rfl⟩ := List.mem_map.mp h
  refine ⟨fun job hjob => ?_, rfl, rfl, rfl⟩
  obtain ⟨jobDefinition, -, hfind⟩ := List.mem_filterMap.mp hjob
  exact List.mem_of_find?_eq_some hfind

/-- A stage that has ended has ended no earlier than it started. -/
theorem stage_chronological (htime : CancelledInTime definition createdAt elapsedMs cancelledAt)
    {stage : StageView} (hstage : stage ∈ stageViews definition createdAt elapsedMs cancelledAt) :
    Chronological stage.startedAt stage.finishedAt := by
  obtain ⟨hjobs, hstatus, hstarted, hfinished⟩ := stage_jobs hstage
  intro start hstart finish hfinish
  rw [hstarted] at hstart
  rw [hfinished] at hfinish
  split at hfinish
  · next hterminal =>
    rw [hstatus] at hterminal
    -- the job that has started first
    obtain ⟨job, hjob, hfirst⟩ := List.mem_filterMap.mp (List.min?_mem hstart)
    have hidle : job.status ≠ .running := by
      intro hrunning
      rcases stageStatus_terminal hterminal with ⟨ended, hended, hend⟩ | hall
      · obtain ⟨hfailed, hcancelled⟩ :=
          not_ended_of_running (hjobs job hjob) hrunning (hjobs ended hended)
        rcases hend with hend | hend
        · exact hfailed hend
        · exact hcancelled hend
      · have hsucceeded := hall job hjob
        rw [hrunning] at hsucceeded
        cases hsucceeded
    obtain ⟨jobFinish, hjobFinish⟩ :=
      job_finished (hjobs job hjob) (by simp [hfirst]) hidle
    have hinTurn := job_chronological htime (hjobs job hjob) start hfirst jobFinish hjobFinish
    have hlast : jobFinish ≤ finish := by
      have hmem : jobFinish ∈ stage.jobs.filterMap (·.finishedAt) :=
        List.mem_filterMap.mpr ⟨job, hjob, hjobFinish⟩
      exact (List.max?_eq_some_iff.mp hfinish).2 jobFinish hmem
    exact Int.le_trans hinTurn hlast
  · cases hfinish

end QaPlatform.CiLab.CiLabStore
