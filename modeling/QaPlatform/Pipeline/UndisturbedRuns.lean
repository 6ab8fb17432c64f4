import QaPlatform.Pipeline.DurableMemory
import QaPlatform.Pipeline.OtherRuns
import QaPlatform.Pipeline.Progress

/-!
# Undisturbed runs

A run that nobody cancels and nobody calls back on is brought to its end by its executor, however
often the executor waits for others, and whatever happens to the other runs meanwhile. Its end is
the outcome of its jobs.

Two inductions make the proof. Over the plan of the run: each section of the executor brings it
to a later position, with the tree that belongs there, until it leaves
(`executeSection_goesOn`). Over the steps of the service: one of another run leaves this run on
track, however its saves end, as no snapshot has the run otherwise (`OnTrack.other`), and one of
its own executor, whose save takes effect, is one of its sections (`OnTrack.own`). How many
turns are enough is said in advance.
-/

namespace QaPlatform.Pipeline

open PipelineStatus Plan

namespace InMemoryPipelineService

variable {s : InMemoryPipelineService} {o : SaveOutcome} {runId : String} {run run' : PipelineRun}
  {plan before after : Plan} {js done rest : List Bool} {next : Bool}
  {now : Instant} {storage : Storage} {stopped : Bool}

/-! ## The sections of an executor -/

/-- A section has left a run, and its executor goes on. -/
structure Went (runId : String) (s : InMemoryPipelineService) (run' : PipelineRun)
    (goal : Option Executor)
    (r : InMemoryPipelineService × Except PipelineFailure (Option Executor)) : Prop where
  ok : r.2 = .ok goal
  run : r.1.runs.get? runId = some run'
  rest : r.1.tasks = s.tasks ∧ r.1.initialized = s.initialized ∧ r.1.closed = s.closed

/-- A section brings an executor forward. -/
def GoesOn (plan : Plan) (runId : String) (s : InMemoryPipelineService) (run : PipelineRun)
    (executor : Executor)
    (r : InMemoryPipelineService × Except PipelineFailure (Option Executor)) : Prop :=
  ∃ run' goal, Went runId s run' goal r ∧ run.Advances run' ∧ Settled plan goal run'.shape
    ∧ left plan goal < remaining plan executor

theorem went_unchanged (hrun : s.runs.get? runId = some run) (goal : Option Executor) :
    Went runId s run goal (s, .ok goal) := ⟨rfl, hrun, rfl, rfl, rfl⟩

theorem went_commit {x : Change PipelineRun Unit} (hsave : o = .saved)
    (hrun : s.runs.get? runId = some run) (hx : x run = (run', .ok ())) (goal : Option Executor) :
    Went runId s run' goal ((do
      overRun runId x
      checkpointLocked o
      return goal : Section (Option Executor)) s) := by
  subst hsave
  rw [Edit.bind_eq_of_ok (overRun_of_ok hrun hx), checkpointLocked_pure]
  have hok := checkpointLocked_saved_ok { s with runs := s.runs.set runId run' }
  refine ⟨saving_ok hok, ?_, checkpointLocked_rest _ _⟩
  have hruns : (checkpointLocked .saved { s with runs := s.runs.set runId run' }).1.runs
      = s.runs.set runId run' :=
    congrArg PipelinePersistenceState.runs (checkpointLocked_ok hok).1
  show (checkpointLocked .saved { s with runs := s.runs.set runId run' }).1.runs.get? runId = _
  rw [hruns, Dict.get?_set_self]

theorem atStage_of_lt {i n : Nat} (h : i < n) : atStage i n = .stageEntry i n := if_pos h

theorem atJob_of_lt {i n j m : Nat} (h : j < m) : atJob i n j m = .jobEntry i n j m := if_pos h

theorem atJob_self (i n m : Nat) : atJob i n m m = .stageExit i n := if_neg (Nat.lt_irrefl m)

theorem length_stages (hplan : run.plan = plan) : run.stages.length = plan.length := by
  rw [← hplan]
  exact (List.length_map _).symm

theorem length_jobs {stage : PipelineStageResult} (h : stage.jobs.map (·.shouldFail) = js) :
    stage.jobs.length = js.length := by
  rw [← h]
  exact (List.length_map _).symm

theorem enterRun_goesOn (hsave : storage.save = .saved) (hrun : s.runs.get? runId = some run)
    (hplan : run.plan = plan) (hne : plan ≠ []) (hshape : run.shape = (.queued, boundary [] plan)) :
    GoesOn plan runId s run .entering (enterRun now storage runId s) := by
  have hqueued : run.status = .queued := congrArg Prod.fst hshape
  obtain ⟨run', hx, hadvances, hshape'⟩ := PipelineRun.leads_to
    (PipelineRun.keeps_node keeps_start) hshape
    (PipelineRun.moves_node (moves_start (.inl rfl)) (boundary [] plan))
  unfold enterRun
  rw [Edit.bind_eq_of_ok (requireRun_of_some hrun), if_neg (not_not_intro hqueued)]
  refine ⟨run', _, went_commit hsave hrun hx _, hadvances, ?_⟩
  obtain ⟨js, after, rfl⟩ := List.exists_cons_of_ne_nil hne
  rw [length_stages hplan, atStage_of_lt (by simp), hshape']
  have hnone : Plan.Clear [] := fun _ hjs => by cases hjs
  exact ⟨.stageEntry (List.nil_append (js :: after)).symm hnone, Nat.lt_succ_self _⟩

theorem enterStage_goesOn (hsave : storage.save = .saved) (hrun : s.runs.get? runId = some run)
    (hplan : run.plan = plan) (hne : ∀ js ∈ plan, js ≠ []) (h : plan = before ++ js :: after)
    (hclear : before.Clear) (hshape : run.shape = (.running, boundary before (js :: after))) :
    GoesOn plan runId s run (.stageEntry before.length plan.length)
      (enterStage now storage runId before.length plan.length s) := by
  have hrunning : run.status = .running := congrArg Prod.fst hshape
  obtain ⟨stage, hi, htree, hfails⟩ := PipelineRun.stage_at (hplan.trans h)
    (congrArg Prod.snd hshape)
  have hqueued : stage.status = .queued := congrArg Prod.fst htree
  have hne' : stage.status ≠ .succeeded := by
    rw [hqueued]
    decide
  have hstart : Edit.Moves PipelineStageResult.shape (PipelineStageResult.node (start now))
      (queuedStage js) (.running, js.map fun _ => .queued) :=
    PipelineStageResult.moves_node (moves_start (.inl rfl)) _
  obtain ⟨run', hx, hadvances, hshape'⟩ := PipelineRun.leads_to
    (PipelineRun.keeps_stage (PipelineStageResult.keeps_node keeps_start) before.length) hshape
    (PipelineRun.moves_stage (getElem?_stage before (queuedStage js) _) hstart)
  unfold enterStage
  rw [Edit.bind_eq_of_ok (requireRun_of_some hrun), if_neg (not_not_intro hrunning), hi]
  show GoesOn _ _ _ _ _ ((if stage.status = .succeeded then _ else _ : Section _) s)
  rw [if_neg hne']
  refine ⟨run', _, went_commit hsave hrun hx _, hadvances, ?_⟩
  obtain ⟨next, rest, rfl⟩ := List.exists_cons_of_ne_nil (hne js (h ▸ by simp))
  rw [length_jobs hfails, atJob_of_lt (by simp), hshape', boundary, List.map_cons, set_stage]
  have hnone : true ∉ ([] : List Bool) := List.not_mem_nil
  refine ⟨.jobEntry h hclear hnone, ?_⟩
  rw [left, remaining_stageEntry h, remaining, h, drop_succ_append]
  simp only [List.length_cons]
  omega

theorem enterJob_goesOn (hsave : storage.save = .saved) (hrun : s.runs.get? runId = some run)
    (hplan : run.plan = plan) (h : plan = before ++ (done ++ next :: rest) :: after)
    (hclear : before.Clear) (hdone : true ∉ done)
    (hshape : run.shape = (.running, midway before (midJobs done .queued rest) after)) :
    GoesOn plan runId s run
      (.jobEntry before.length plan.length done.length (done ++ next :: rest).length)
      (enterJob now storage runId before.length plan.length done.length
        (done ++ next :: rest).length s) := by
  have hrunning : run.status = .running := congrArg Prod.fst hshape
  obtain ⟨stage, hi, htree, hfails⟩ := PipelineRun.stage_at (hplan.trans h)
    (congrArg Prod.snd hshape)
  have hstage : stage.status = .running := congrArg Prod.fst htree
  obtain ⟨job, hj, hjob, -⟩ := PipelineStageResult.job_at hfails (congrArg Prod.snd htree)
  have hne : job.status ≠ .succeeded := by
    rw [hjob]
    decide
  have hstart : Edit.Moves PipelineStageResult.shape
      (PipelineStageResult.job done.length (start now)) (.running, midJobs done .queued rest)
      (.running, (midJobs done .queued rest).set done.length .running) :=
    PipelineStageResult.moves_job (getElem?_job done .queued _) (moves_start (.inl rfl))
  obtain ⟨run', hx, hadvances, hshape'⟩ := PipelineRun.leads_to
    (PipelineRun.keeps_stage (PipelineStageResult.keeps_job keeps_start done.length) before.length)
    hshape (PipelineRun.moves_stage (getElem?_stage before _ _) hstart)
  unfold enterJob
  rw [Edit.bind_eq_of_ok (requireRun_of_some hrun), if_neg (not_not_intro hrunning), hi]
  show GoesOn _ _ _ _ _ ((if stage.status ≠ .running then _ else _ : Section _) s)
  rw [if_neg (not_not_intro hstage), hj]
  show GoesOn _ _ _ _ _ ((if job.status = .succeeded then _ else _ : Section _) s)
  rw [if_neg hne]
  refine ⟨run', _, went_commit hsave hrun hx _, hadvances, ?_⟩
  rw [hshape', midway, set_stage, midJobs, set_job]
  refine ⟨.waiting h hclear hdone, ?_⟩
  rw [left, remaining, remaining]
  omega

theorem awake_goesOn (hrun : s.runs.get? runId = some run)
    (hwait : s.cancelEvents.get? runId ≠ some true)
    (h : plan = before ++ (done ++ next :: rest) :: after)
    (hclear : before.Clear) (hdone : true ∉ done)
    (hshape : run.shape = (.running, midway before (midJobs done .running rest) after)) :
    GoesOn plan runId s run
      (.waiting before.length plan.length done.length (done ++ next :: rest).length)
      (awake runId stopped before.length plan.length done.length
        (done ++ next :: rest).length s) := by
  unfold awake
  rw [Edit.read_bind, if_neg fun hstopped => hwait hstopped.2]
  refine ⟨run, _, went_unchanged hrun _, .refl run, ?_⟩
  rw [hshape]
  refine ⟨.jobExit h hclear hdone, ?_⟩
  rw [left, remaining, remaining, List.length_append, List.length_cons]
  omega

/-! ## The end of a job -/

/-- The tree after a job that has succeeded. -/
def advanced (before : Plan) (done rest : List Bool) (after : Plan) : RunShape :=
  if rest = [] then
    (if after = [] then .succeeded else .running, boundary (before ++ [done ++ [false]]) after)
  else
    (.running, midway before (done.map (fun _ => .succeeded) ++ .succeeded
      :: rest.map fun _ => .queued) after)

theorem counted_advanced (before : Plan) (done rest : List Bool) (after : Plan) :
    (PipelineStatus.running.counted ((before.map succeededStage
        ++ advancedStage done rest :: after.map queuedStage).map Prod.fst),
      before.map succeededStage ++ advancedStage done rest :: after.map queuedStage)
        = advanced before done rest after := by
  unfold advanced advancedStage
  split
  · rw [← boundary_append, counted_boundary]
  · have hrunning : PipelineStatus.running ∈ (before.map succeededStage
        ++ (PipelineStatus.running, done.map (fun _ => PipelineStatus.succeeded)
          ++ .succeeded :: rest.map fun _ => .queued) :: after.map queuedStage).map Prod.fst := by
      simp
    rw [counted_of_mem hrunning (by decide), midway]

/-- A stage ends with its last job, and the run with its last stage. -/
theorem completeJob_leaves {stage : PipelineStageResult} {job : PipelineJobResult}
    (hjob : job.shouldFail = false) : Edit.Leaves PipelineRun.shape
      (completeJob now before.length done.length stage job)
      (.running, midway before (midJobs done .running rest) after)
      (advanced before done rest after) := by
  have hfinish : Edit.Moves PipelineStageResult.shape
      (PipelineStageResult.job done.length (finish now .succeeded none))
      (.running, midJobs done .running rest)
      (.running, done.map (fun _ => .succeeded) ++ .succeeded :: rest.map fun _ => .queued) := by
    rw [← set_job done .running]
    exact PipelineStageResult.moves_job (getElem?_job done .running _)
      (moves_finish (.inl rfl) (.inl (.inr rfl)))
  have hset : (midway before (done.map (fun _ => PipelineStatus.succeeded) ++ .succeeded
      :: rest.map fun _ => .queued) after)[before.length]? = some (.running, _) :=
    getElem?_stage before _ _
  have hcount : Edit.Moves PipelineRun.shape (PipelineRun.aggregateSuccess now (some before.length))
      (.running, midway before (done.map (fun _ => .succeeded) ++ .succeeded
        :: rest.map fun _ => .queued) after) (advanced before done rest after) := by
    have hmoves : Edit.Moves PipelineRun.shape
        (PipelineRun.aggregateSuccess now (some before.length)) (.running, _) _ :=
      PipelineRun.moves_aggregateSuccess (.inl (.inr rfl))
        (PipelineRun.moves_aggregateStage hset (.inl (.inr rfl)) .running)
    rwa [midway, set_stage, counted_jobs, counted_advanced] at hmoves
  have hstage := PipelineRun.moves_stage (a := .running)
    (getElem?_stage before (.running, midJobs done .running rest) (after.map queuedStage)) hfinish
  rw [set_stage] at hstage
  unfold completeJob
  rw [if_neg (by simp [hjob])]
  exact hstage.leaves_bind (hcount.leaves_bind (PipelineRun.leaves_assert _))

/-- A job that fails ends its stage. -/
theorem failStage_moves {message stageMessage : Option String} {note : String} :
    Edit.Moves PipelineStageResult.shape (do
      PipelineStageResult.job done.length (finish now .failed message)
      PipelineStageResult.node (finish now .failed stageMessage)
      PipelineStageResult.cancelUnfinishedJobs now note)
      (.running, midJobs done .running rest) (.failed, brokenJobs done rest) := by
  have hset : (midJobs done .running rest).set done.length .failed = midJobs done .failed rest :=
    set_job done _ _ _
  have hfinish : Edit.Moves PipelineStageResult.shape
      (PipelineStageResult.job done.length (finish now .failed message))
      (.running, midJobs done .running rest) (.running, midJobs done .failed rest) := by
    rw [← hset]
    exact PipelineStageResult.moves_job (getElem?_job done .running _)
      (moves_finish (.inr (.inl rfl)) (.inl (.inr rfl)))
  rw [← map_cancelled?_failed]
  exact hfinish.bind ((PipelineStageResult.moves_node
    (moves_finish (.inr (.inl rfl)) (.inl (.inr rfl))) _).bind
      (PipelineStageResult.moves_cancelUnfinishedJobs .failed _))

/-- A job that fails ends the run. -/
theorem failJob_leaves {stage : PipelineStageResult} {job : PipelineJobResult}
    (hjob : job.shouldFail = true) (hclear : before.Clear) (hdone : true ∉ done) :
    Edit.Leaves PipelineRun.shape (completeJob now before.length done.length stage job)
      (.running, midway before (midJobs done .running rest) after)
      (outcome (before ++ (done ++ true :: rest) :: after)) := by
  have hstage : Edit.Moves PipelineRun.shape (PipelineRun.stage before.length do
      PipelineStageResult.job done.length
        (finish now .failed (some "deterministic simulated failure"))
      PipelineStageResult.node (finish now .failed (some ("job " ++ job.name ++ " failed")))
      PipelineStageResult.cancelUnfinishedJobs now "not executed after an earlier job failed")
      (.running, midway before (midJobs done .running rest) after)
      (.running, before.map succeededStage
        ++ (.failed, brokenJobs done rest) :: after.map queuedStage) := by
    rw [← set_stage before (.running, midJobs done .running rest)]
    exact PipelineRun.moves_stage (getElem?_stage before _ _) failStage_moves
  have hrun : Edit.Moves PipelineRun.shape (PipelineRun.failRun now
      (some ("stage " ++ stage.name ++ ", job " ++ job.name ++ " failed")))
      (.running, before.map succeededStage
        ++ (.failed, brokenJobs done rest) :: after.map queuedStage)
      (outcome (before ++ (done ++ true :: rest) :: after)) := by
    have hleft := map_cancelStage before (.failed, brokenJobs done rest) after
    rw [cancelStage_broken] at hleft
    rw [outcome_of_failure hclear hdone, ← hleft]
    exact PipelineRun.moves_failRun (.inl (.inr rfl)) _
  unfold completeJob
  rw [if_pos hjob]
  exact (hstage.bind hrun).leaves_bind (PipelineRun.leaves_assert _)

/-- A section that brings an executor from the end of a job to a later position. -/
theorem settled_advanced (h : plan = before ++ (done ++ false :: rest) :: after)
    (hclear : before.Clear) (hdone : true ∉ done) :
    Settled plan (some (atJob before.length plan.length (done.length + 1)
        (done ++ false :: rest).length)) (advanced before done rest after)
      ∧ left plan (some (atJob before.length plan.length (done.length + 1)
        (done ++ false :: rest).length))
          < remaining plan (.jobExit before.length plan.length done.length
            (done ++ false :: rest).length) := by
  have hdone' : true ∉ done ++ [false] := by simp [hdone]
  have hlength : (done ++ [false]).length = done.length + 1 := by simp
  unfold advanced
  cases rest with
  | nil =>
    have hexit : atJob before.length plan.length (done.length + 1) (done ++ [false]).length
        = .stageExit before.length plan.length := by
      rw [hlength]
      exact atJob_self _ _ _
    rw [hexit, if_pos rfl]
    refine ⟨.stageExit h hclear hdone', ?_⟩
    rw [left, remaining, remaining, hlength]
    omega
  | cons b rest =>
    have hentry : atJob before.length plan.length (done.length + 1)
        (done ++ false :: b :: rest).length
          = .jobEntry before.length plan.length (done ++ [false]).length
            ((done ++ [false]) ++ b :: rest).length := by
      rw [atJob_of_lt (by simp), hlength]
      simp
    have h' : plan = before ++ ((done ++ [false]) ++ b :: rest) :: after := by
      rw [h]
      simp
    have hjobs : done.map (fun _ => PipelineStatus.succeeded) ++ .succeeded
        :: (b :: rest).map (fun _ => .queued) = midJobs (done ++ [false]) .queued rest := by
      simp [midJobs]
    rw [hentry, if_neg (by simp), hjobs]
    refine ⟨.jobEntry h' hclear hdone', ?_⟩
    rw [left, remaining, remaining]
    simp only [List.length_append, List.length_cons, List.length_nil]
    omega

theorem exitJob_goesOn (hsound : run.Sound) (hsave : storage.save = .saved)
    (hrun : s.runs.get? runId = some run) (hplan : run.plan = plan)
    (h : plan = before ++ (done ++ next :: rest) :: after)
    (hclear : before.Clear) (hdone : true ∉ done)
    (hshape : run.shape = (.running, midway before (midJobs done .running rest) after)) :
    GoesOn plan runId s run
      (.jobExit before.length plan.length done.length (done ++ next :: rest).length)
      (exitJob now storage runId before.length plan.length done.length
        (done ++ next :: rest).length s) := by
  have hrunning : run.status = .running := congrArg Prod.fst hshape
  obtain ⟨stage, hi, htree, hfails⟩ := PipelineRun.stage_at (hplan.trans h)
    (congrArg Prod.snd hshape)
  have hstage : stage.status = .running := congrArg Prod.fst htree
  obtain ⟨job, hj, hjob, hfail⟩ := PipelineStageResult.job_at hfails (congrArg Prod.snd htree)
  have hne : job.status ≠ .succeeded := by
    rw [hjob]
    decide
  have hbegun : stage.status ≠ .queued := by
    rw [hstage]
    decide
  obtain ⟨run', hx, hbecomes⟩ :=
    PipelineRun.completeJob_becomes hsound hrunning hi hbegun hj hne
  unfold exitJob
  rw [Edit.bind_eq_of_ok (requireRun_of_some hrun), if_neg (not_not_intro hrunning), hi]
  show GoesOn _ _ _ _ _ ((Edit.lift (demand _ stage.jobs[done.length]?) >>= _ : Section _) s)
  rw [hj]
  show GoesOn _ _ _ _ _ ((if job.status = .succeeded then _ else _ : Section _) s)
  rw [if_neg hne]
  refine ⟨run', _, went_commit hsave hrun hx _, hbecomes.advances, ?_⟩
  cases next with
  | false =>
    rw [if_neg (by simp [hfail]), completeJob_leaves hfail run run' hshape hx]
    exact settled_advanced h hclear hdone
  | true =>
    rw [if_pos hfail, failJob_leaves hfail hclear hdone run run' hshape hx]
    refine ⟨congrArg outcome h.symm, ?_⟩
    rw [left, remaining, List.length_append, List.length_cons]
    omega

theorem exitStage_goesOn (hsound : run.Sound) (hsave : storage.save = .saved)
    (hrun : s.runs.get? runId = some run) (hplan : run.plan = plan)
    (h : plan = before ++ js :: after) (hclear : before.Clear) (hjs : true ∉ js)
    (hshape : run.shape
      = (if after = [] then .succeeded else .running, boundary (before ++ [js]) after)) :
    GoesOn plan runId s run (.stageExit before.length plan.length)
      (exitStage now storage runId before.length plan.length s) := by
  have hclear' : Plan.Clear (before ++ [js]) := hclear.append_singleton hjs
  unfold exitStage
  rw [Edit.bind_eq_of_ok (requireRun_of_some hrun)]
  cases after with
  | nil =>
    -- the run has ended with its last job
    have hsucceeded : run.status = .succeeded := congrArg Prod.fst hshape
    have hne : run.status ≠ .running := by
      rw [hsucceeded]
      decide
    rw [if_pos hne]
    refine ⟨run, none, went_unchanged hrun none, .refl run, ?_, ?_⟩
    · rw [h]
      exact hshape.trans (outcome_of_clear hclear').symm
    · rw [left, remaining]
      omega
  | cons js' after =>
    have hrunning : run.status = .running := congrArg Prod.fst hshape
    obtain ⟨stage, hi, -, -⟩ := PipelineRun.stage_at (hplan.trans h)
      ((congrArg Prod.snd hshape).trans (boundary_append before js (js' :: after)))
    have hcounts : run.Counts (some before.length) := counts_some hi
    obtain ⟨run', hx, hbecomes⟩ :=
      PipelineRun.aggregateChecked_becomes hsound hrunning hcounts
    have hleaves : Edit.Leaves PipelineRun.shape (aggregateChecked now (some before.length))
        run.shape run.shape :=
      (PipelineRun.moves_aggregate hsound hrunning hcounts).leaves_bind
        (PipelineRun.leaves_assert run.shape)
    have hlength : (before ++ [js]).length = before.length + 1 := by simp
    have h' : plan = (before ++ [js]) ++ js' :: after := by
      rw [h]
      simp
    rw [if_neg (not_not_intro hrunning), hi]
    refine ⟨run', _, went_commit hsave hrun hx _, hbecomes.advances, ?_⟩
    have hentry : atStage (before.length + 1) plan.length
        = .stageEntry (before ++ [js]).length plan.length := by
      rw [atStage_of_lt (by simp [h]), hlength]
    rw [hleaves run run' rfl hx, hshape, if_neg (by simp), hentry]
    refine ⟨.stageEntry h' hclear', ?_⟩
    rw [left, remaining_stageEntry h', remaining, h, drop_succ_append, stagesSections_cons]
    omega

/-- Each section of an executor that is not disturbed brings it forward. -/
theorem executeSection_goesOn {executor : Executor} (hs : s.Sound) (hinit : s.initialized = true)
    (hsave : storage.save = .saved) (hrun : s.runs.get? runId = some run)
    (hevents : s.EventsSet) (hplan : run.plan = plan) (hnonempty : plan ≠ [])
    (hne : ∀ js ∈ plan, js ≠ []) (hprogress : Progress plan executor run.shape) :
    GoesOn plan runId s run executor (executeSection now storage stopped runId executor s) := by
  have hsound : run.Sound := hs.memory.runs hrun
  generalize htree : run.shape = tree at hprogress
  cases hprogress with
  | entering =>
    show GoesOn _ _ _ _ _ (enter now storage runId s)
    unfold enter
    rw [Edit.bind_eq_of_ok (initializeLocked_of_initialized hinit)]
    exact enterRun_goesOn hsave hrun hplan hnonempty htree
  | stageEntry h hclear => exact enterStage_goesOn hsave hrun hplan hne h hclear htree
  | jobEntry h hclear hdone => exact enterJob_goesOn hsave hrun hplan h hclear hdone htree
  | waiting h hclear hdone =>
    have hwait : s.cancelEvents.get? runId ≠ some true := by
      have hrunning : run.status = .running := congrArg Prod.fst htree
      rw [hevents.1, terminalEvents, Dict.get?_mapVals, hrun]
      simp [hrunning, PipelineStatus.Terminal]
    exact awake_goesOn hrun hwait h hclear hdone htree
  | jobExit h hclear hdone => exact exitJob_goesOn hsound hsave hrun hplan h hclear hdone htree
  | stageExit h hclear hjs => exact exitStage_goesOn hsound hsave hrun hplan h hclear hjs htree

/-! ## A run among others -/

/-- An event that leaves a run to its executor. -/
def Event.Spares (runId : String) : Event → Prop
  | .cancel other | .applyCallback other _ => runId ≠ other
  | .shutdown | .reset | .restart => False
  | .read | .trigger _ _ | .execute _ _ | .endTask _ => True

/-- An event in which the executor of a run goes on. -/
def Event.executes (runId : String) : Event → Bool
  | .execute other _ => other = runId
  | _ => false

/-- The run is where its executor is, after `n` of the sections that it needs at most. -/
structure OnTrack (runId : String) (plan : Plan) (n : Nat) (s : InMemoryPipelineService) :
    Prop where
  sound : s.Sound
  initialized : s.initialized = true
  isOpen : s.closed = false
  events : s.EventsSet
  /-- The same in whatever the memory becomes when the save of another run raises. -/
  run : ∃ run : PipelineRun, (∀ state ∈ s.snapshots, state.runs.get? runId = some run)
    ∧ run.plan = plan ∧ Settled plan (s.tasks runId) run.shape
  left : left plan (s.tasks runId) ≤ plan.sections - n

/-- Once the service is initialized, a save sets the events however it ends. -/
theorem Sound.checkpoint_events (hs : s.Sound) (hinit : s.initialized = true) (o : SaveOutcome) :
    (checkpointLocked o s).1.EventsSet := by
  cases hp : s.persistence with
  | none =>
    rw [checkpointLocked_of_none hp]
    exact ⟨rfl, rfl⟩
  | some stored =>
    cases o with
    | saved =>
      rw [checkpointLocked_saved hp]
      exact ⟨rfl, rfl⟩
    | raised message written reloads =>
      rw [checkpointLocked_raised hp]
      unfold reconcileMemory
      cases reloads with
      | true => exact restoreState_events _ s
      | false =>
        obtain ⟨durable, hdurable⟩ := Option.isSome_iff_exists.mp (hs.known hinit (by simp [hp]))
        rw [if_neg (by simp), hdurable]
        exact restoreState_events durable s

theorem Ended.events {α : Type} {Q : α → Option PipelinePersistenceState → Prop}
    {r : InMemoryPipelineService × Except PipelineFailure α} (h : Ended o s Q r) (hs : s.Sound)
    (hinit : s.initialized = true) (hevents : s.EventsSet) : r.1.EventsSet := by
  cases h with
  | raised e => exact hevents
  | unchanged a _ => exact hevents
  | saved a hw _ => exact (hs.worked hw).checkpoint_events (hw.initialized.trans hinit) o

theorem triggerSection_events (hs : s.Sound) (hinit : s.initialized = true) (hevents : s.EventsSet)
    (hfree : s.tasks runId = none) (request : PipelineTriggerRequest) :
    (triggerSection now storage runId request s).1.EventsSet := by
  have hsaved : (checkpointLocked storage.save (s.withRun now runId request)).1.EventsSet :=
    (hs.withRun hfree).checkpoint_events hinit storage.save
  rcases triggerSection_cases now storage runId request s with ⟨r, hresult⟩ | hresult
  · rw [hresult]
    exact hevents
  · rw [hresult]
    rcases createRun_cases now storage runId request s with ⟨e, -, hcreated⟩ | ⟨-, hcreated⟩
    · rw [hcreated]
      exact hsaved
    · rw [hcreated]
      unfold spawn
      split
      · exact hsaved
      · exact hsaved

/-- After a save that has not raised every snapshot is the memory. -/
theorem Sound.snapshots_of_ok (hs : s.Sound) (h : (checkpointLocked o s).2 = .ok ()) :
    ∀ state ∈ (checkpointLocked o s).1.snapshots, state = s.memory := by
  obtain ⟨hmemory, ⟨hnone, hp, hd⟩ | ⟨hp, hd⟩⟩ := checkpointLocked_ok h
  · intro state hstate
    rw [mem_snapshots, hmemory, hp, hd, hs.durable hnone] at hstate
    rcases hstate with rfl | hstate | hstate
    · rfl
    · cases hstate
    · cases hstate
  · intro state hstate
    rw [mem_snapshots, hmemory, hp, hd] at hstate
    rcases hstate with rfl | hstate | hstate
    · rfl
    · exact (Option.some.inj hstate).symm
    · exact (Option.some.inj hstate).symm

/-- What a section whose save does not raise has made of a run is in every snapshot. -/
theorem Ended.snapshots {α : Type} {Q : α → Option PipelinePersistenceState → Prop}
    {r : InMemoryPipelineService × Except PipelineFailure α} (h : Ended .saved s Q r) (hs : s.Sound)
    (hall : ∀ state ∈ s.snapshots, state.runs.get? runId = some run)
    (hrun : r.1.runs.get? runId = some run') :
    ∀ state ∈ r.1.snapshots, state.runs.get? runId = some run' := by
  have hkept : s.runs.get? runId = some run' →
      ∀ state ∈ s.snapshots, state.runs.get? runId = some run' := by
    intro hsame
    have hbefore : s.runs.get? runId = some run := hall s.memory (mem_snapshots.mpr (.inl rfl))
    rw [hbefore] at hsame
    rwa [← hsame]
  cases h with
  | raised e => exact hkept hrun
  | unchanged a _ => exact hkept hrun
  | @saved s₁ a hw _ =>
    have hok := checkpointLocked_saved_ok s₁
    have hsame : (checkpointLocked .saved s₁).1.memory = s₁.memory := (checkpointLocked_ok hok).1
    intro state hstate
    rw [(hs.worked hw).snapshots_of_ok hok state hstate, ← hsame]
    exact hrun

section
variable {n : Nat} {s' : InMemoryPipelineService} {e : Step}

/-- What is about another run leaves the run on track. -/
theorem OnTrack.aside (h : OnTrack runId plan n s) (hs : s'.Sound) (hevents : s'.EventsSet)
    (hrun : KeepsRun runId s s') (htasks : s'.tasks runId = s.tasks runId)
    (hrest : s'.initialized = s.initialized ∧ s'.closed = s.closed) : OnTrack runId plan n s' where
  sound := hs
  initialized := hrest.1.trans h.initialized
  isOpen := hrest.2.trans h.isOpen
  events := hevents
  run := by
    obtain ⟨run, hall, hplan⟩ := h.run
    rw [htasks]
    refine ⟨run, fun state' hstate' => ?_, hplan⟩
    obtain ⟨state, hstate, heq⟩ := hrun state' hstate'
    exact heq.trans (hall state hstate)
  left := by
    rw [htasks]
    exact h.left

/-- A step in which the executor of the run does not go on, however its save ends. -/
theorem OnTrack.other (h : OnTrack runId plan n s) (hspares : e.event.Spares runId)
    (hexecutes : e.event.executes runId = false) : OnTrack runId plan n (step s e) := by
  have hsound : (step s e).Sound := h.sound.step e
  -- a step that leaves the run, its executor and the flags of the service alone
  have haside : ∀ s', InMemoryPipelineService.step s e = s' → s'.EventsSet → KeepsRun runId s s' →
      s'.tasks runId = s.tasks runId → s'.initialized = s.initialized ∧ s'.closed = s.closed →
      OnTrack runId plan n (step s e) := by
    rintro s' rfl hevents hrun htasks hrest
    exact h.aside hsound hevents hrun htasks hrest
  -- a section of another run, which has been initialized before
  have hkept : ∀ {α : Type} {x : Section α} {o : SaveOutcome}
      {Q : α → Option PipelinePersistenceState → Prop}, InMemoryPipelineService.step s e
      = ((initializeLocked e.now e.storage >>= fun _ => x) s).1 → Ended o s Q (x s) →
      Edit.Keeps (Aside runId) x → OnTrack runId plan n (step s e) := by
    intro α x o Q hstep hended hx
    rw [Edit.bind_eq_of_ok (initializeLocked_of_initialized h.initialized)] at hstep
    have hevents : (x s).1.EventsSet := hended.events h.sound h.initialized h.events
    exact haside _ hstep hevents (hx s).run (congrFun (hx s).rest.1 runId) (hx s).rest.2
  have hsame : InMemoryPipelineService.step s e = s → OnTrack runId plan n (step s e) :=
    fun hstep => haside s hstep h.events (.refl s) rfl ⟨rfl, rfl⟩
  obtain ⟨now, storage, event⟩ := e
  cases event with
  | read => exact hsame (congrArg Prod.fst (initializeLocked_of_initialized h.initialized))
  | trigger other request =>
    by_cases hfresh : s.Fresh other
    · have hne : runId ≠ other := by
        rintro rfl
        obtain ⟨run, hall, -⟩ := h.run
        have hnone : s.runs.get? runId = none := hfresh.2 s.memory (mem_snapshots.mpr (.inl rfl))
        have hrun : s.runs.get? runId = some run := hall s.memory (mem_snapshots.mpr (.inl rfl))
        rw [hnone] at hrun
        cases hrun
      have hstep : InMemoryPipelineService.step s ⟨now, storage, .trigger other request⟩
          = (triggerSection now storage other request s).1 := by
        show (if s.Fresh other then (trigger now storage other request s).1 else s) = _
        rw [if_pos hfresh]
        exact congrArg Prod.fst
          (Edit.bind_eq_of_ok (initializeLocked_of_initialized h.initialized))
      have hside : Beside runId other s (triggerSection now storage other request s).1 :=
        triggerSection_aside hne request s
      have hevents : (triggerSection now storage other request s).1.EventsSet :=
        triggerSection_events h.sound h.initialized h.events hfresh.1 request
      exact haside _ hstep hevents hside.run (hside.task runId hne) hside.rest
    · exact hsame (if_neg hfresh)
  | cancel other =>
    exact hkept rfl (cancelSection_ended h.sound.memory) (keeps_cancelSection hspares)
  | applyCallback other callback =>
    exact hkept rfl (callbackSection_ended h.sound.memory) (keeps_callbackSection hspares callback)
  | shutdown => exact hspares.elim
  | reset => exact hspares.elim
  | execute other stopped =>
    have hne : runId ≠ other := by
      rintro rfl
      simp [Event.executes] at hexecutes
    cases hexecutor : s.tasks other with
    | none => exact hsame (execute_of_none hexecutor)
    | some executor =>
      have hside : Aside runId s (executeSection now storage stopped other executor s).1 :=
        keeps_executeSection hne h.initialized executor
      have hevents : (executeSection now storage stopped other executor s).1.EventsSet :=
        (executeSection_ended h.sound hexecutor).events h.sound h.initialized h.events
      refine haside _ (execute_of_some hexecutor) hevents hside.run ?_ hside.rest.2
      show Function.update _ other _ runId = _
      rw [Function.update_of_ne hne]
      exact congrFun hside.rest.1 runId
  | endTask other => exact hsame (if_neg (by simp [h.isOpen]))
  | restart => exact hspares.elim

/-- A step in which the executor of the run goes on. -/
theorem OnTrack.own (h : OnTrack runId plan n s) (hnonempty : plan ≠ [])
    (hne : ∀ js ∈ plan, js ≠ []) (hsave : e.storage.save = .saved)
    (hexecutes : e.event.executes runId = true) : OnTrack runId plan (n + 1) (step s e) := by
  have hsound : (step s e).Sound := h.sound.step e
  obtain ⟨now, storage, event⟩ := e
  cases event with
  | execute other stopped =>
    obtain rfl : other = runId := of_decide_eq_true hexecutes
    obtain ⟨run, hall, hplan, hsettled⟩ := h.run
    have hrun : s.runs.get? other = some run := hall s.memory (mem_snapshots.mpr (.inl rfl))
    cases hexecutor : s.tasks other with
    | none =>
      rw [show InMemoryPipelineService.step s ⟨now, storage, .execute other stopped⟩ = s from
        execute_of_none hexecutor]
      refine ⟨h.sound, h.initialized, h.isOpen, h.events, h.run, ?_⟩
      rw [hexecutor]
      exact Nat.zero_le _
    | some executor =>
      have hleft := h.left
      rw [hexecutor] at hsettled hleft
      have hgoes : GoesOn plan other s run executor
          (executeSection now storage stopped other executor s) :=
        executeSection_goesOn h.sound h.initialized hsave hrun h.events hplan hnonempty hne hsettled
      have hended : Ended storage.save s (Placed other executor)
          (executeSection now storage stopped other executor s) :=
        executeSection_ended h.sound hexecutor
      obtain ⟨run', goal, hwent, hadvances, hsettled', hfewer⟩ := hgoes
      have hstep : InMemoryPipelineService.step s ⟨now, storage, .execute other stopped⟩ = _ :=
        execute_of_some hexecutor
      have htask : (InMemoryPipelineService.step s
          ⟨now, storage, .execute other stopped⟩).tasks other = goal := by
        have hproceed : proceed executor
            (executeSection now storage stopped other executor s).2 = goal := by
          rw [hwent.ok]
          rfl
        rw [hstep, ← hproceed]
        exact Function.update_self _ _ _
      have hrest := hwent.rest.2
      have hevents := hended.events h.sound h.initialized h.events
      have hall' := Ended.snapshots (hsave ▸ hended) h.sound hall hwent.run
      rw [hstep] at hsound htask ⊢
      refine ⟨hsound, hrest.1.trans h.initialized, hrest.2.trans h.isOpen, hevents, ?_, ?_⟩
      · rw [htask]
        exact ⟨run', hall', hadvances.plan.trans hplan, hsettled'⟩
      · rw [htask]
        have hsome : Plan.left plan (some executor) = remaining plan executor := rfl
        omega
  | read | trigger | cancel | applyCallback | shutdown | reset | endTask | restart =>
    cases hexecutes

/-- What a step leaves to the executor of a run: its saves are to take effect, those of the other
runs may end as they like. -/
structure Step.Spares (runId : String) (e : Step) : Prop where
  save : e.event.executes runId = true → e.storage.save = .saved
  event : e.event.Spares runId

/-- How often the executor of a run goes on. -/
def turns (runId : String) (es : List Step) : Nat := es.countP fun e => e.event.executes runId

theorem turns_cons (runId : String) (e : Step) (es : List Step) :
    turns runId (e :: es) = turns runId es + if e.event.executes runId then 1 else 0 :=
  List.countP_cons

/-- Every section of the executor counts, whatever comes between them. -/
theorem OnTrack.run_steps (h : OnTrack runId plan n s) (hnonempty : plan ≠ [])
    (hne : ∀ js ∈ plan, js ≠ []) {later : List Step} (hlater : ∀ e ∈ later, e.Spares runId) :
    OnTrack runId plan (n + turns runId later) (Transition.run step s later) := by
  induction later generalizing s n with
  | nil => exact h
  | cons e later ih =>
    have hspares : e.Spares runId := hlater e List.mem_cons_self
    have hrest : ∀ e ∈ later, e.Spares runId := fun e he => hlater e (List.mem_cons_of_mem _ he)
    rw [Transition.run_cons, turns_cons]
    cases hexecutes : e.event.executes runId with
    | true =>
      have hnext : OnTrack runId plan (n + 1) (InMemoryPipelineService.step s e) :=
        h.own hnonempty hne (hspares.save hexecutes) hexecutes
      rw [if_pos rfl, show n + (turns runId later + 1) = n + 1 + turns runId later by omega]
      exact ih hnext hrest
    | false =>
      have hnext : OnTrack runId plan n (InMemoryPipelineService.step s e) :=
        h.other hspares.event hexecutes
      rw [if_neg (by simp), Nat.add_zero]
      exact ih hnext hrest

end

/-! ## From the trigger on -/

section
variable {request : PipelineTriggerRequest} {result : PipelineTriggerResult}

theorem newRun_plan (now : Instant) (runId : String) (request : PipelineTriggerRequest) :
    (newRun now runId request).plan = request.plan := by
  simp [newRun, PipelineRun.plan, PipelineTriggerRequest.plan]

theorem newRun_shape (now : Instant) (runId : String) (request : PipelineTriggerRequest) :
    (newRun now runId request).shape = (.queued, boundary [] request.plan) := by
  simp [newRun, PipelineRun.shape, PipelineStageResult.shape, PipelineTriggerRequest.plan, boundary,
    queuedStage]

theorem plan_nonempty (request : PipelineTriggerRequest) :
    request.plan ≠ [] ∧ ∀ js ∈ request.plan, js ≠ [] := by
  refine ⟨by simpa [PipelineTriggerRequest.plan] using request.stages_ne, fun js hjs => ?_⟩
  obtain ⟨stage, -, rfl⟩ := List.mem_map.mp hjs
  simpa using stage.jobs_ne

/-- A trigger that has not answered with an earlier run has created one. -/
theorem triggerSection_new (h : (triggerSection now storage runId request s).2 = .ok result)
    (hnew : result.replayed = false) : s.closed = false
      ∧ triggerSection now storage runId request s = createRun now storage runId request s := by
  unfold triggerSection at h ⊢
  cases hclosed : s.closed with
  | true =>
    rw [Edit.bind_eq_of_error (ensureOpen_of_closed hclosed)] at h
    cases h
  | false =>
    rw [Edit.bind_eq_of_ok (ensureOpen_of_open hclosed), Edit.read_bind] at h ⊢
    cases hkey : request.idempotencyKey.bind s.triggerKeys.get? with
    | none => exact ⟨rfl, rfl⟩
    | some previous =>
      rw [hkey] at h
      have hreplayed : (replayTrigger request previous s).2 = .ok result := h
      unfold replayTrigger at hreplayed
      split at hreplayed
      · cases hreplayed
      · rw [Edit.read_bind] at hreplayed
        cases hrun : s.runs.get? previous.1 with
        | none =>
          rw [hrun] at hreplayed
          cases hreplayed
        | some run =>
          rw [hrun] at hreplayed
          obtain rfl := Except.ok.inj hreplayed
          cases hnew

/-- A run that has been started with its trigger is on track. -/
theorem onTrack_trigger (hs : s.Sound) (hfresh : s.Fresh runId) (hauto : request.autoStart = true)
    (hok : (trigger now storage runId request s).2 = .ok result) (hnew : result.replayed = false) :
    OnTrack runId request.plan 0 (trigger now storage runId request s).1 := by
  have hsound : (trigger now storage runId request s).1.Sound := by
    have hstep := hs.step ⟨now, storage, .trigger runId request⟩
    rwa [show InMemoryPipelineService.step s ⟨now, storage, .trigger runId request⟩
      = (trigger now storage runId request s).1 from if_pos hfresh] at hstep
  cases hinit : (initializeLocked now storage s).2 with
  | error e =>
    have hraised : trigger now storage runId request s = (_, .error e) := Edit.bind_of_error hinit
    rw [hraised] at hok
    cases hok
  | ok u =>
    have hs₀ : (initializeLocked now storage s).1.Sound := hs.initialization
    have hinitialized := hs.initialized_of_ok hinit
    have hfree : (initializeLocked now storage s).1.tasks runId = none := by
      rw [hs.initialization_tasks]
      exact hfresh.1
    have htrigger : trigger now storage runId request s
        = triggerSection now storage runId request (initializeLocked now storage s).1 :=
      Edit.bind_of_ok hinit
    rw [htrigger] at hok hsound ⊢
    generalize (initializeLocked now storage s).1 = s₀ at *
    obtain ⟨hopen, hcreated⟩ := triggerSection_new hok hnew
    rw [hcreated] at hok hsound ⊢
    rcases createRun_cases now storage runId request s₀ with
      ⟨e, -, hresult⟩ | ⟨hsave, hresult⟩
    · rw [hresult] at hok
      cases hok
    -- a new run, saved: its task is spawned on the state as it was stored
    obtain ⟨-, hinit', hclosed⟩ := checkpointLocked_rest storage.save (s₀.withRun now runId request)
    have hadded : (s₀.withRun now runId request).Sound := hs₀.withRun hfree
    have hall := hadded.snapshots_of_ok hsave
    have hevents := hadded.checkpoint_events hinitialized storage.save
    rw [hresult] at hsound ⊢
    generalize (checkpointLocked storage.save (s₀.withRun now runId request)).1 = saved at *
    have hspawned : spawn runId request saved
        = { saved with tasks := Function.update saved.tasks runId (some .entering) } := if_pos hauto
    have htask : Function.update saved.tasks runId (some .entering) runId = some .entering :=
      Function.update_self _ _ _
    rw [hspawned] at hsound ⊢
    refine ⟨hsound, hinit'.trans hinitialized, hclosed.trans hopen, hevents, ?_, ?_⟩
    · refine ⟨newRun now runId request, ?_, newRun_plan now runId request, ?_⟩
      · intro state hstate
        rw [hall state hstate]
        exact Dict.get?_set_self _ _ _
      · show Settled request.plan (Function.update saved.tasks runId (some .entering) runId) _
        rw [htask, newRun_shape]
        exact .entering
    · show left request.plan (Function.update saved.tasks runId (some .entering) runId) ≤ _
      rw [htask]
      exact Nat.le_refl _

end

/-- A run that has been started with its trigger, and that is left to its executor, has ended as its
jobs say once the executor has gone on often enough, whatever has happened to the other runs; until
then it is in order with its executor, which is still there. -/
theorem undisturbed_run_ends (durable : Bool) (es later : List Step) (now : Instant)
    (storage : Storage) (runId : String) (request : PipelineTriggerRequest)
    (result : PipelineTriggerResult) (hauto : request.autoStart = true)
    (hfresh : (Transition.run step (initial durable) es).Fresh runId)
    (hok : (trigger now storage runId request (Transition.run step (initial durable) es)).2
      = .ok result) (hnew : result.replayed = false) (hlater : ∀ e ∈ later, e.Spares runId) :
    let s := Transition.run step (initial durable)
      (es ++ ⟨now, storage, .trigger runId request⟩ :: later)
    ∃ run, s.runs.get? runId = some run
      ∧ (s.tasks runId = none → run.shape = request.plan.outcome)
      ∧ (request.plan.sections ≤ turns runId later → s.tasks runId = none)
      ∧ ∀ executor, s.tasks runId = some executor → Progress request.plan executor run.shape := by
  intro s
  have hs : (Transition.run step (initial durable) es).Sound := run_sound durable es
  obtain ⟨hnonempty, hne⟩ := plan_nonempty request
  have htrack : OnTrack runId request.plan (turns runId later) s := by
    have hstart := onTrack_trigger hs hfresh hauto hok hnew
    have hrun := hstart.run_steps hnonempty hne hlater
    rw [Nat.zero_add] at hrun
    have hsame : s = Transition.run step (trigger now storage runId request
        (Transition.run step (initial durable) es)).1 later := by
      show Transition.run step (initial durable) _ = _
      rw [Transition.run_append, Transition.run_cons]
      congr 1
      exact if_pos hfresh
    exact hsame ▸ hrun
  obtain ⟨run, hall, -, hsettled⟩ := htrack.run
  have hrun : s.runs.get? runId = some run := hall s.memory (mem_snapshots.mpr (.inl rfl))
  refine ⟨run, hrun, fun hnone => ?_, fun henough => ?_, fun executor hexecutor => ?_⟩
  · rwa [hnone] at hsettled
  · cases hexecutor : s.tasks runId with
    | none => rfl
    | some executor =>
      -- an executor that is still there has a section left
      have hleft := htrack.left
      rw [hexecutor] at hsettled hleft
      have hpos : 0 < remaining request.plan executor := hsettled.remaining_pos
      have hsome : left request.plan (some executor) = remaining request.plan executor := rfl
      omega
  · rwa [hexecutor] at hsettled

/-- The save of another trigger is lost, and what is stored cannot be loaded after it. -/
def lostTrigger : Step :=
  ⟨1, { save := .raised "connection lost" false false }, .trigger "run-2" lesson⟩

/-- A lesson that starts at once, executed six times after the save of another trigger is lost. -/
theorem started_lesson_ends :
    let s := Transition.run step (initial true)
      (⟨0, {}, .trigger "run-1" { lesson with autoStart := true }⟩
        :: lostTrigger :: List.replicate 6 ⟨1, {}, .execute "run-1" false⟩)
    ∃ run, s.runs.get? "run-1" = some run ∧ run.shape = (.succeeded, [(.succeeded, [.succeeded])])
      ∧ s.tasks "run-1" = none := by
  have hspares : ∀ e ∈ lostTrigger :: List.replicate 6 (⟨1, {}, .execute "run-1" false⟩ : Step),
      e.Spares "run-1" := by
    refine List.forall_mem_cons.mpr
      ⟨⟨fun hexecutes => (nomatch hexecutes), trivial⟩, fun e he => ?_⟩
    obtain ⟨-, rfl⟩ := List.mem_replicate.mp he
    exact ⟨fun _ => rfl, trivial⟩
  obtain ⟨run, hrun, hended, henough, -⟩ := undisturbed_run_ends true []
    (lostTrigger :: List.replicate 6 ⟨1, {}, .execute "run-1" false⟩) 0 {} "run-1"
    { lesson with autoStart := true } ⟨newRun 0 "run-1" { lesson with autoStart := true }, false⟩
    rfl (by decide) rfl rfl hspares
  have hnone := henough (by decide)
  exact ⟨run, hrun, hended hnone, hnone⟩

end InMemoryPipelineService

end QaPlatform.Pipeline
