import QaPlatform.Pipeline.Lasting

/-!
# The tree of a run

In every state that the service can reach, the statuses of a run, of its stages and of their jobs
agree with each other, in memory and in what is stored. A node that has ended stays as it is, as
long as what is stored can be loaded after a save that has raised.

The first part holds for every behaviour of the persistence layer, since it holds of every
snapshot. The second compares an earlier state with a later one: a node that has ended is as it
was, with its message and its times. It needs that what is stored can be loaded after a save
that has raised, since the memory falls back on an older snapshot otherwise.
-/

namespace QaPlatform.Pipeline

open PipelineStatus

namespace PipelineRun

/-- What the statuses of a run, of its stages and of their jobs have to do with each other. -/
structure TreeInvariant (run : PipelineRun) : Prop where
  runningStage : ∀ stage ∈ run.stages, stage.status = .running → run.status = .running
  runningJob : ∀ stage ∈ run.stages, ∀ job ∈ stage.jobs, job.status = .running →
    stage.status = .running
  failedJob : ∀ stage ∈ run.stages, ∀ job ∈ stage.jobs, job.status = .failed →
    stage.status = .failed ∧ run.status = .failed
  succeeded : run.status = .succeeded ↔ ∀ stage ∈ run.stages, stage.status = .succeeded
  succeededStage : ∀ stage ∈ run.stages,
    (stage.status = .succeeded ↔ ∀ job ∈ stage.jobs, job.status = .succeeded)
  ended : run.status.Terminal → ∀ stage ∈ run.stages, stage.status.Terminal
  endedStage : ∀ stage ∈ run.stages, stage.status.Terminal →
    ∀ job ∈ stage.jobs, job.status.Terminal
  finishedAt : run.finishedAt.isSome ↔ run.status.Terminal
  finishedAtNodes : ∀ stage ∈ run.stages, (stage.finishedAt.isSome ↔ stage.status.Terminal)
    ∧ ∀ job ∈ stage.jobs, (job.finishedAt.isSome ↔ job.status.Terminal)

/-- Every node that had ended is as it was, with its message and its times. -/
structure KeepsEnded (run run' : PipelineRun) : Prop where
  state : run.status.Terminal → run'.toResultState = run.toResultState
  nodes : List.Forall₂ (fun stage stage' : PipelineStageResult =>
    (stage.status.Terminal → stage'.toResultState = stage.toResultState)
      ∧ List.Forall₂ (fun job job' : PipelineJobResult =>
        job.status.Terminal → job'.toResultState = job.toResultState) stage.jobs stage'.jobs)
    run.stages run'.stages

end PipelineRun

variable {parent child : PipelineStatus} {run run' : PipelineRun}

/-! ## From the shape of a tree to its nodes -/

theorem PipelineStatus.running_of_fits_running (h : parent.fits .running = true) :
    parent = .running := by
  revert h
  cases parent <;> decide

theorem PipelineStatus.failed_of_fits_failed (h : parent.fits .failed = true) :
    parent = .failed := by
  revert h
  cases parent <;> decide

theorem PipelineRun.Sound.treeInvariant (h : run.Sound) : run.TreeInvariant := by
  have hrun : Family run.status (run.stages.map (·.status)) := by
    have hstages := h.coherent.stages
    rwa [show run.shape.2.map Prod.fst = run.stages.map (·.status) from List.map_map] at hstages
  have hstage : ∀ stage ∈ run.stages, Family stage.status (stage.jobs.map (·.status)) :=
    fun stage hmem => h.coherent.jobs stage.shape (List.mem_map_of_mem hmem)
  have hfits : ∀ stage ∈ run.stages, run.status.fits stage.status = true :=
    fun stage hmem => hrun.fits _ (List.mem_map_of_mem hmem)
  have hfitsJob : ∀ stage ∈ run.stages, ∀ job ∈ stage.jobs,
      stage.status.fits job.status = true :=
    fun stage hmem job hjob => (hstage stage hmem).fits _ (List.mem_map_of_mem hjob)
  constructor
  case runningStage =>
    intro stage hmem hrunning
    exact running_of_fits_running (hrunning ▸ hfits stage hmem)
  case runningJob =>
    intro stage hmem job hjob hrunning
    exact running_of_fits_running (hrunning ▸ hfitsJob stage hmem job hjob)
  case failedJob =>
    intro stage hmem job hjob hfailed
    have hstageFailed : stage.status = .failed :=
      failed_of_fits_failed (hfailed ▸ hfitsJob stage hmem job hjob)
    exact ⟨hstageFailed, failed_of_fits_failed (hstageFailed ▸ hfits stage hmem)⟩
  case succeeded => simpa using hrun.succeeded_iff
  case succeededStage =>
    intro stage hmem
    simpa using (hstage stage hmem).succeeded_iff
  case ended =>
    intro hterminal stage hmem
    exact terminal_of_fits (hfits stage hmem) hterminal
  case endedStage =>
    intro stage hmem hterminal job hjob
    exact terminal_of_fits (hfitsJob stage hmem job hjob) hterminal
  case finishedAt => exact h.stamped
  case finishedAtNodes => exact h.nodes

theorem PipelineRun.Advances.keepsEnded (h : run.Advances run') : run.KeepsEnded run' where
  state := h.state.ended
  nodes := by
    apply h.stages.imp
    intro stage stage' hstage
    refine ⟨hstage.state.ended, ?_⟩
    exact hstage.jobs.imp fun _ _ hjob => hjob.state.ended

/-! ## From one state to a later one -/

/-- The run is no less advanced than it was, if it is there. -/
def NoLess (runId : String) (run : PipelineRun) (state : PipelinePersistenceState) : Prop :=
  ∀ run', state.runs.get? runId = some run' → run.Advances run'

namespace InMemoryPipelineService

variable {s : InMemoryPipelineService} {runId : String} {e : Step}

/-- No section takes a run back. -/
theorem noLess_lasting (runId : String) (run : PipelineRun) :
    Lasting (· ≠ runId) (NoLess runId run) where
  edits := by
    intro state state' hedits h run'' hrun''
    obtain ⟨run', hrun', hbecomes⟩ := hedits.before hrun''
    exact (h run' hrun').trans hbecomes.advances
  empty := by
    intro run' hrun'
    cases hrun'
  added := by
    intro s now other request hother h run' hrun'
    apply h run'
    rwa [show (s.withRun now other request).runs = s.runs.set other (newRun now other request)
      from rfl, Dict.get?_set_ne hother.symm] at hrun'

/-- What is no operation leaves the memory as it is, or empties it. -/
theorem step_of_not_operates (h : ¬ s.Operates e.event) :
    (∃ tasks, InMemoryPipelineService.step s e = { s with tasks })
      ∨ InMemoryPipelineService.step s e = create s.persistence := by
  obtain ⟨now, storage, event⟩ := e
  cases event with
  | read | cancel runId | applyCallback runId callback | shutdown | reset => exact absurd trivial h
  | trigger runId request => exact .inl ⟨s.tasks, if_neg h⟩
  | execute runId stopped =>
    have hnone : s.tasks runId = none := by
      cases hexecutor : s.tasks runId with
      | none => rfl
      | some executor => exact absurd ⟨executor, hexecutor⟩ h
    refine .inl ⟨s.tasks, ?_⟩
    show execute now storage stopped runId s = s
    unfold execute
    rw [hnone]
  | endTask runId =>
    by_cases hclosed : s.closed = true
    · exact .inl ⟨_, if_pos hclosed⟩
    · exact .inl ⟨s.tasks, if_neg hclosed⟩
  | restart => exact .inr rfl

/-- A memory that is not in step is that of a process that has just begun. -/
theorem run_inStep_or_empty (durable : Bool) {es : List Step}
    (hes : ∀ e ∈ es, e.storage.Allows SaveOutcome.Reloads) :
    (Transition.run step (initial durable) es).InStep
      ∨ (Transition.run step (initial durable) es).memory = .empty := by
  have hstep : ∀ (s : InMemoryPipelineService) (e : Step),
      (s.Sound ∧ (s.initialized = true → s.InStep) ∧ (s.InStep ∨ s.memory = .empty)) →
      e.storage.Allows SaveOutcome.Reloads →
      (step s e).Sound ∧ ((step s e).initialized = true → (step s e).InStep)
        ∧ ((step s e).InStep ∨ (step s e).memory = .empty) := by
    rintro s e ⟨hs, hinit, hmemory⟩ hr
    refine ⟨hs.step e, inStep_settles.step hs hinit hr, ?_⟩
    by_cases hoperates : s.Operates e.event
    · exact .inl (inStep_settles.operation hs hinit hr hoperates)
    · rcases step_of_not_operates hoperates with ⟨tasks, hsame⟩ | hcreated
      · rw [hsame]
        exact hmemory.imp_left fun h => ⟨h.stored, h.events⟩
      · rw [hcreated]
        exact .inr rfl
  have hinitial : (initial durable).initialized = true → (initial durable).InStep := by
    intro hinit
    cases durable with
    | false => exact inStep_settles.created
    | true => cases hinit
  exact (Transition.invariant_along hstep ⟨initial_sound durable, hinitial, .inr rfl⟩
    (Transition.Along.of_mem hes _)).2.2

/-- In every state the trees are in order, in memory and in what is stored. As long as what is
stored can be loaded, no node that has ended is touched again. -/
theorem tree_invariant (durable : Bool) (es : List Step) :
    let s := Transition.run step (initial durable) es
    (∀ state ∈ s.snapshots, ∀ runId run, state.runs.get? runId = some run → run.TreeInvariant)
      ∧ ∀ later, (∀ e ∈ es ++ later, e.storage.Allows SaveOutcome.Reloads) →
        ∀ runId run run', (∀ e ∈ later, ∀ request, e.event ≠ .trigger runId request) →
          s.runs.get? runId = some run →
          (Transition.run step s later).runs.get? runId = some run' → run.KeepsEnded run' := by
  intro s
  have hs : s.Sound := run_sound durable es
  refine ⟨fun state hstate runId run hrun => ((hs.states state hstate).runs hrun).treeInvariant,
    fun later hstorage runId run run' hlater hrun hrun' => ?_⟩
  have hbefore : ∀ e ∈ es, e.storage.Allows SaveOutcome.Reloads :=
    fun e he => hstorage e (List.mem_append_left later he)
  have hstored : ∀ stored, s.persistence = some stored → s.memory = stored := by
    rcases run_inStep_or_empty durable hbefore with hinStep | hempty
    · exact hinStep.stored
    · have hnone : s.runs.get? runId = none := by
        rw [show s.runs = PipelinePersistenceState.empty.runs from
          congrArg PipelinePersistenceState.runs hempty]
        rfl
      rw [hnone] at hrun
      cases hrun
  -- what the memory can become from here is the memory
  have hnow : Everywhere false (NoLess runId run) s := by
    intro state hstate run' hrun'
    have hsame : state = s.memory := by
      rcases mem_live.mp hstate with hmemory | hp | ⟨hfallback, -⟩
      · exact hmemory
      · exact (hstored state hp).symm
      · cases hfallback
    rw [hsame] at hrun'
    obtain rfl := Option.some.inj (hrun.symm.trans hrun')
    exact .refl run
  have hreloads : false = false → ∀ e ∈ later, e.storage.Reloads := fun _ e he =>
    have hallowed := hstorage e (List.mem_append_right es he)
    ⟨hallowed.recoverySave, hallowed.save⟩
  have hthen : Everywhere false (NoLess runId run) (Transition.run step s later) := by
    apply hnow.run (noLess_lasting runId run) hs hreloads
    rintro e he other request hevent rfl
    exact hlater e he request hevent
  exact (hthen _ (mem_live.mpr (.inl rfl)) run' hrun').keepsEnded

end InMemoryPipelineService

end QaPlatform.Pipeline
