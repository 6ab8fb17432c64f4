import QaPlatform.Pipeline.Outcomes
import QaPlatform.Pipeline.ServiceSteps

/-!
# The progress of an executor

Between two sections of an executor that nobody disturbs, the tree of its run is the one that
belongs to the position of the executor. Each section leads to a later position, or to the outcome.
-/

namespace QaPlatform.Pipeline

open PipelineStatus Plan

namespace Plan

/-- The tree that is found at a position. -/
inductive Progress (plan : Plan) : Executor → RunShape → Prop
  | entering : Progress plan .entering (.queued, boundary [] plan)
  | stageEntry {before : Plan} {js : List Bool} {after : Plan}
    (h : plan = before ++ js :: after) (hclear : before.Clear) :
    Progress plan (.stageEntry before.length plan.length) (.running, boundary before (js :: after))
  | jobEntry {before : Plan} {done : List Bool} {next : Bool} {rest : List Bool}
    {after : Plan} (h : plan = before ++ (done ++ next :: rest) :: after)
    (hclear : before.Clear) (hdone : true ∉ done) :
    Progress plan (.jobEntry before.length plan.length done.length (done ++ next :: rest).length)
      (.running, midway before (midJobs done .queued rest) after)
  | waiting {before : Plan} {done : List Bool} {next : Bool} {rest : List Bool}
    {after : Plan} (h : plan = before ++ (done ++ next :: rest) :: after)
    (hclear : before.Clear) (hdone : true ∉ done) :
    Progress plan (.waiting before.length plan.length done.length (done ++ next :: rest).length)
      (.running, midway before (midJobs done .running rest) after)
  | jobExit {before : Plan} {done : List Bool} {next : Bool} {rest : List Bool}
    {after : Plan} (h : plan = before ++ (done ++ next :: rest) :: after)
    (hclear : before.Clear) (hdone : true ∉ done) :
    Progress plan (.jobExit before.length plan.length done.length (done ++ next :: rest).length)
      (.running, midway before (midJobs done .running rest) after)
  | stageExit {before : Plan} {js : List Bool} {after : Plan}
    (h : plan = before ++ js :: after) (hclear : before.Clear)
    (hjs : true ∉ js) : Progress plan (.stageExit before.length plan.length)
      (if after = [] then .succeeded else .running, boundary (before ++ [js]) after)

variable {plan before after : Plan} {js done rest : List Bool} {next : Bool}

/-- Where an executor is, or what it has left. -/
def Settled (plan : Plan) : Option Executor → RunShape → Prop
  | some executor, tree => plan.Progress executor tree
  | none, tree => tree = plan.outcome

/-- The sections that are left at a position. -/
def remaining (plan : Plan) : Executor → Nat
  | .entering => plan.sections
  | .stageEntry i _ => stagesSections (plan.drop i)
  | .jobEntry i _ j m => 3 * (m - j) + 1 + stagesSections (plan.drop (i + 1))
  | .waiting i _ j m => 3 * (m - j) + stagesSections (plan.drop (i + 1))
  | .jobExit i _ j m => 3 * (m - j) - 1 + stagesSections (plan.drop (i + 1))
  | .stageExit i _ => 1 + stagesSections (plan.drop (i + 1))
  | .leaving | .failing _ => 0

/-- How many sections are still to come; none, when there is no executor. -/
def left (plan : Plan) : Option Executor → Nat
  | some executor => plan.remaining executor
  | none => 0

theorem drop_append (before : Plan) (js : List Bool) (after : Plan) :
    (before ++ js :: after).drop before.length = js :: after := List.drop_left

theorem drop_succ_append (before : Plan) (js : List Bool) (after : Plan) :
    (before ++ js :: after).drop (before.length + 1) = after := by
  rw [show before ++ js :: after = (before ++ [js]) ++ after by simp]
  exact List.drop_left' (by simp)

theorem remaining_stageEntry (h : plan = before ++ js :: after) (n : Nat) :
    plan.remaining (.stageEntry before.length n) = 3 * js.length + 2 + stagesSections after := by
  rw [remaining, h, drop_append, stagesSections_cons]

/-- An executor that is somewhere has something left to do. -/
theorem Progress.remaining_pos {executor : Executor} {tree : RunShape}
    (h : plan.Progress executor tree) : 0 < plan.remaining executor := by
  cases h with
  | entering =>
    show 0 < plan.stagesSections + 1
    omega
  | stageEntry h _ =>
    rw [remaining_stageEntry h]
    omega
  | jobEntry h _ _ =>
    rw [remaining]
    omega
  | waiting h _ _ =>
    rw [remaining, List.length_append, List.length_cons]
    omega
  | jobExit h _ _ =>
    rw [remaining, List.length_append, List.length_cons]
    omega
  | stageExit h _ _ =>
    rw [remaining]
    omega

end Plan

/-! ## The nodes at a position -/

/-- Which jobs of the run fail. -/
def PipelineRun.plan (run : PipelineRun) : Plan :=
  run.stages.map fun stage => stage.jobs.map (·.shouldFail)

/-- Which jobs of the request fail. -/
def PipelineTriggerRequest.plan (request : PipelineTriggerRequest) : Plan :=
  request.stages.map fun stage => stage.jobs.map (·.shouldFail)

section
variable {run run' : PipelineRun} {stage : PipelineStageResult} {α β : Type}

theorem PipelineStageResult.Advances.fails {stage stage' : PipelineStageResult}
    (h : stage.Advances stage') :
    stage'.jobs.map (·.shouldFail) = stage.jobs.map (·.shouldFail) := by
  have hjobs := h.jobs
  generalize stage.jobs = js, stage'.jobs = js' at hjobs ⊢
  induction hjobs with
  | nil => rfl
  | cons hjob _ ih => rw [List.map_cons, List.map_cons, hjob.same.2.2, ih]

theorem PipelineRun.Advances.plan (h : run.Advances run') : run'.plan = run.plan := by
  have hstages := h.stages
  unfold PipelineRun.plan
  generalize run.stages = l, run'.stages = l' at hstages ⊢
  induction hstages with
  | nil => rfl
  | cons hstage _ ih => rw [List.map_cons, List.map_cons, hstage.fails, ih]

/-- An entry of which two lists tell. -/
theorem getElem?_of_maps {f : α → β} {γ : Type} {g : α → γ} {l : List α} {before : List γ} {c : γ}
    {after : List γ} {bs : List β} {b : β} {as : List β} (hg : l.map g = before ++ c :: after)
    (hf : l.map f = bs ++ b :: as) (hlength : bs.length = before.length) :
    ∃ a, l[before.length]? = some a ∧ f a = b ∧ g a = c := by
  have hlt : before.length < l.length := by
    have htotal := congrArg List.length hg
    rw [List.length_map, List.length_append, List.length_cons] at htotal
    omega
  refine ⟨l[before.length], List.getElem?_eq_getElem hlt, ?_, ?_⟩
  · have hat : (l.map f)[before.length]? = some b := by
      rw [hf, ← hlength, List.getElem?_append_right (Nat.le_refl _), Nat.sub_self]
      rfl
    rw [List.getElem?_map, List.getElem?_eq_getElem hlt] at hat
    exact Option.some.inj hat
  · have hat : (l.map g)[before.length]? = some c := by
      rw [hg, List.getElem?_append_right (Nat.le_refl _), Nat.sub_self]
      rfl
    rw [List.getElem?_map, List.getElem?_eq_getElem hlt] at hat
    exact Option.some.inj hat

variable {before after : Plan} {js done rest : List Bool} {next : Bool} {status : PipelineStatus}
  {tree : StageShape} {others : List StageShape}

/-- The stage that the executor is at. -/
theorem PipelineRun.stage_at (hplan : run.plan = before ++ js :: after)
    (hshape : run.shape.2 = before.map succeededStage ++ tree :: others) :
    ∃ stage, run.stages[before.length]? = some stage ∧ stage.shape = tree
      ∧ stage.jobs.map (·.shouldFail) = js :=
  getElem?_of_maps hplan hshape (List.length_map _)

/-- The job that the executor is at. -/
theorem PipelineStageResult.job_at (hfails : stage.jobs.map (·.shouldFail) = done ++ next :: rest)
    (hshape : stage.shape.2 = midJobs done status rest) :
    ∃ job, stage.jobs[done.length]? = some job ∧ job.status = status ∧ job.shouldFail = next :=
  getElem?_of_maps hfails hshape (List.length_map _)

end

/-! ## Moves of the tree -/

namespace PipelineRun

variable {run : PipelineRun} {x : Change PipelineRun Unit} {t t' : RunShape}

/-- Code that never takes anything back, and leads from the tree of the run to another. -/
theorem leads_to (hkeeps : Edit.Keeps Advances x) (hshape : run.shape = t)
    (hmoves : Edit.Moves shape x t t') :
    ∃ run', x run = (run', .ok ()) ∧ run.Advances run' ∧ run'.shape = t' := by
  obtain ⟨run', hrun', hshape'⟩ := hmoves run hshape
  refine ⟨run', hrun', ?_, hshape'⟩
  have hx := hkeeps run
  rwa [hrun'] at hx

/-- The assertions do not touch the tree. -/
theorem leaves_assert (t : RunShape) : Edit.Leaves shape
    (Edit.read >>= fun run : PipelineRun => Edit.lift run.assertRunInvariants) t t := by
  intro run run' hrun h
  have hsame : run = run' := congrArg Prod.fst h
  exact hsame ▸ hrun

end PipelineRun

namespace Plan

variable {before after : Plan} {js done rest : List Bool} {status : PipelineStatus}

theorem set_stage (before : Plan) (tree tree' : StageShape) (others : List StageShape) :
    (before.map succeededStage ++ tree :: others).set before.length tree'
      = before.map succeededStage ++ tree' :: others := by
  simp

theorem getElem?_stage (before : Plan) (tree : StageShape) (others : List StageShape) :
    (before.map succeededStage ++ tree :: others)[before.length]? = some tree := by
  rw [List.getElem?_append_right (by simp)]
  simp

theorem set_job (done : List Bool) (a b : PipelineStatus) (others : List PipelineStatus) :
    (done.map (fun _ => PipelineStatus.succeeded) ++ a :: others).set done.length b
      = done.map (fun _ => .succeeded) ++ b :: others := by
  simp

theorem getElem?_job (done : List Bool) (a : PipelineStatus) (others : List PipelineStatus) :
    (done.map (fun _ => PipelineStatus.succeeded) ++ a :: others)[done.length]? = some a := by
  rw [List.getElem?_append_right (by simp)]
  simp

theorem counted_of_mem {children : List PipelineStatus} {child : PipelineStatus}
    (hmem : child ∈ children) (hne : child ≠ .succeeded) : status.counted children = status :=
  if_neg fun hall => hne (hall child hmem)

/-- A stage after one of its jobs has succeeded. -/
def advancedStage (done rest : List Bool) : StageShape :=
  if rest = [] then succeededStage (done ++ [false])
  else (.running, done.map (fun _ => .succeeded) ++ .succeeded :: rest.map fun _ => .queued)

theorem counted_jobs (done rest : List Bool) :
    (PipelineStatus.running.counted (done.map (fun _ => PipelineStatus.succeeded)
        ++ .succeeded :: rest.map fun _ => .queued),
      done.map (fun _ => .succeeded) ++ .succeeded :: rest.map fun _ => .queued)
        = advancedStage done rest := by
  unfold advancedStage
  split
  · next hrest =>
    subst hrest
    have hall : ∀ child ∈ done.map (fun _ => PipelineStatus.succeeded) ++ [.succeeded],
        child = .succeeded := by
      simp only [List.mem_append, List.mem_map, List.mem_singleton]
      rintro child (⟨-, -, rfl⟩ | rfl) <;> rfl
    rw [List.map_nil, PipelineStatus.counted, if_pos hall]
    simp [succeededStage]
  · next hrest =>
    obtain ⟨b, rest, rfl⟩ := List.exists_cons_of_ne_nil hrest
    have hqueued : PipelineStatus.queued ∈ done.map (fun _ => PipelineStatus.succeeded)
        ++ .succeeded :: (b :: rest).map fun _ => .queued := by simp
    rw [counted_of_mem hqueued (by decide)]

theorem boundary_append (before : Plan) (js : List Bool) (after : Plan) :
    boundary (before ++ [js]) after
      = before.map succeededStage ++ succeededStage js :: after.map queuedStage := by
  simp [boundary]

/-- A running run succeeds with its last stage. -/
theorem counted_boundary (before after : Plan) :
    PipelineStatus.running.counted ((boundary before after).map Prod.fst)
      = if after = [] then .succeeded else .running := by
  split
  · next hafter =>
    subst hafter
    exact if_pos (by simp [boundary, succeededStage])
  · next hafter =>
    obtain ⟨js, after, rfl⟩ := List.exists_cons_of_ne_nil hafter
    have hqueued : PipelineStatus.queued ∈ (boundary before (js :: after)).map Prod.fst := by
      simp [boundary, queuedStage]
    exact counted_of_mem hqueued (by decide)

theorem cancelStage_succeeded (js : List Bool) :
    cancelStage (succeededStage js) = succeededStage js := by
  simp [cancelStage, succeededStage]

theorem cancelStage_queued (js : List Bool) : cancelStage (queuedStage js) = cancelledStage js := by
  have hqueued : PipelineStatus.queued.cancelled? = .cancelled := by decide
  simp [cancelStage, queuedStage, cancelledStage, hqueued]

/-- Nothing is left to cancel after a failure. -/
theorem map_cancelled?_broken (done rest : List Bool) :
    (brokenJobs done rest).map cancelled? = brokenJobs done rest := by
  have hcancelled : PipelineStatus.cancelled.cancelled? = .cancelled := by decide
  have hfailed : PipelineStatus.failed.cancelled? = .failed := by decide
  have hsucceeded : PipelineStatus.succeeded.cancelled? = .succeeded := by decide
  simp [brokenJobs, hcancelled, hfailed, hsucceeded]

theorem map_cancelled?_failed (done rest : List Bool) :
    (midJobs done .failed rest).map cancelled? = brokenJobs done rest := by
  have hqueued : PipelineStatus.queued.cancelled? = .cancelled := by decide
  have hfailed : PipelineStatus.failed.cancelled? = .failed := by decide
  have hsucceeded : PipelineStatus.succeeded.cancelled? = .succeeded := by decide
  simp [midJobs, brokenJobs, hqueued, hfailed, hsucceeded]

theorem cancelStage_broken (done rest : List Bool) :
    cancelStage (.failed, brokenJobs done rest) = (.failed, brokenJobs done rest) := by
  have hfailed : PipelineStatus.failed.cancelled? = .failed := by decide
  exact Prod.ext hfailed (map_cancelled?_broken done rest)

/-- What is left of a run when a stage has failed. -/
theorem map_cancelStage (before : Plan) (tree : StageShape) (after : Plan) :
    (before.map succeededStage ++ tree :: after.map queuedStage).map cancelStage
      = before.map succeededStage ++ cancelStage tree :: after.map cancelledStage := by
  simp [Function.comp_def, cancelStage_succeeded, cancelStage_queued]

end Plan

end QaPlatform.Pipeline
