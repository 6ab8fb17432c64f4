import QaPlatform.Pipeline.Advances
import QaPlatform.Pipeline.Reconciliation
import QaPlatform.Pipeline.Service

/-!
# Sound runs

A run is sound when its tree is coherent and its nodes are stamped with the time of their end. The
service changes a sound run as a whole, into a sound run that takes nothing back.
-/

namespace QaPlatform.Pipeline

open PipelineStatus

/-- The time of the end is there exactly if the node has ended. -/
def ResultState.Stamped (r : ResultState) : Prop := r.finishedAt.isSome ↔ r.status.Terminal

/-- A child of a running node that has not succeeded is active. -/
theorem PipelineStatus.active_of_fits {child : PipelineStatus}
    (h : PipelineStatus.running.fits child = true) (hne : child ≠ .succeeded) : child.Active := by
  revert h hne
  cases child <;> decide

namespace PipelineRun

/-- The statuses of a run agree with each other and with the times. -/
structure Sound (run : PipelineRun) : Prop where
  coherent : Coherent run.shape
  stamped : run.toResultState.Stamped
  nodes : ∀ stage ∈ run.stages, stage.toResultState.Stamped
    ∧ ∀ job ∈ stage.jobs, job.toResultState.Stamped

/-- What a run becomes. -/
structure Becomes (run run' : PipelineRun) : Prop where
  advances : run.Advances run'
  sound : run'.Sound

variable {run run' : PipelineRun}

theorem Sound.of_advances (h : run.Sound) (hadvances : run.Advances run')
    (hcoherent : Coherent run'.shape) : run'.Sound where
  coherent := hcoherent
  stamped := hadvances.state.stamped h.stamped
  nodes := by
    intro stage' hstage'
    obtain ⟨stage, hstage, hstep⟩ := Edit.exists_of_forall₂ hadvances.stages hstage'
    have hnodes := h.nodes stage hstage
    refine ⟨hstep.state.stamped hnodes.1, fun job' hjob' => ?_⟩
    obtain ⟨job, hjob, hjobStep⟩ := Edit.exists_of_forall₂ hstep.jobs hjob'
    exact hjobStep.state.stamped (hnodes.2 job hjob)

theorem Sound.refl (h : run.Sound) : run.Becomes run := ⟨.refl run, h⟩

section
variable {x : Change PipelineRun Unit} {t : RunShape}

/-- Code whose moves are known changes a sound run as a whole. -/
theorem Sound.leads (h : run.Sound) (hkeeps : Edit.Keeps Advances x)
    (hmoves : Edit.Moves shape x run.shape t) (ht : Coherent t) :
    ∃ run', x run = (run', .ok ()) ∧ run.Becomes run' ∧ run'.shape = t := by
  obtain ⟨run', hrun', rfl⟩ := hmoves run rfl
  have hadvances : run.Advances run' := by
    have hx := hkeeps run
    rwa [hrun'] at hx
  exact ⟨run', hrun', ⟨hadvances, h.of_advances hadvances ht⟩, rfl⟩

theorem Sound.becomes (h : run.Sound) (hkeeps : Edit.Keeps Advances x)
    (hmoves : Edit.Moves shape x run.shape t) (ht : Coherent t) :
    ∃ run', x run = (run', .ok ()) ∧ run.Becomes run' := by
  obtain ⟨run', hrun', hbecomes, -⟩ := h.leads hkeeps hmoves ht
  exact ⟨run', hrun', hbecomes⟩

end

variable {now : Instant} {message : Option String} {note childNote : String}
  {callback : PipelineCallbackRequest} {stage : PipelineStageResult} {job : PipelineJobResult}
  {i j : Nat}

/-- A callback is applied as a whole, or it raises and changes nothing. -/
theorem reconcile_becomes (h : run.Sound) :
    (∃ e, reconcile now callback run = (run, .error e))
      ∨ ∃ run', reconcile now callback run = (run', .ok ()) ∧ run.Becomes run' := by
  rcases reconcile_atomic h.coherent with hraised | ⟨run', hrun', hcoherent⟩
  · exact .inl hraised
  · have hadvances : run.Advances run' := by
      have hx : run.Advances (reconcile now callback run).1 := keeps_reconcile run
      rwa [hrun'] at hx
    exact .inr ⟨run', hrun', hadvances, h.of_advances hadvances hcoherent⟩

/-! ## What the service does -/

theorem PipelineStageResult.getElem?_shape {stage : PipelineStageResult}
    (hj : stage.jobs[j]? = some job) : stage.shape.2[j]? = some job.status := by
  unfold PipelineStageResult.shape
  rw [List.getElem?_map, hj]
  rfl

theorem getElem?_shape (hi : run.stages[i]? = some stage) :
    run.shape.2[i]? = some stage.shape := by
  unfold PipelineRun.shape
  rw [List.getElem?_map, hi]
  rfl

theorem keeps_assert : Edit.Keeps Advances
    (Edit.read >>= fun run : PipelineRun => Edit.lift run.assertRunInvariants) :=
  Edit.keeps_read fun run => .refl run

/-- The assertions hold of a coherent tree. -/
theorem moves_assert {t : RunShape} (h : Coherent t) : Edit.Moves shape
    (Edit.read >>= fun run : PipelineRun => Edit.lift run.assertRunInvariants) t t := by
  apply Edit.moves_read
  rintro run rfl
  refine fun s hs => ⟨s, ?_, hs⟩
  rw [assertRunInvariants_coherent h]
  rfl

theorem start_becomes (h : run.Sound) (hrun : run.status.Active) :
    ∃ run', node (start now) run = (run', .ok ()) ∧ run.Becomes run' :=
  h.becomes (keeps_node keeps_start) (moves_node (moves_start hrun) _) (h.coherent.begin hrun)

/-- A stage of a running run begins. -/
theorem startStage_becomes (h : run.Sound) (hrun : run.status = .running)
    (hi : run.stages[i]? = some stage) (hne : stage.status ≠ .succeeded) :
    ∃ run', PipelineRun.stage i (PipelineStageResult.node (start now)) run = (run', .ok ())
      ∧ run.Becomes run' := by
  have hshape := getElem?_shape hi
  have hcoherent : Coherent (.running, run.shape.2) := hrun ▸ h.coherent
  have hactive : stage.status.Active := active_of_fits (hcoherent.fits hshape) hne
  apply h.becomes (keeps_stage (PipelineStageResult.keeps_node keeps_start) i)
  · exact moves_stage hshape (PipelineStageResult.moves_node (moves_start hactive) _)
  · show Coherent (run.status, _)
    rw [hrun]
    exact hcoherent.set_active (List.getElem?_eq_some_iff.mp hshape).1
      ((hcoherent.family hshape).begin hactive) (.inr rfl)

/-- A job of a running stage begins. -/
theorem startJob_becomes (h : run.Sound) (hrun : run.status = .running)
    (hi : run.stages[i]? = some stage) (hstage : stage.status = .running)
    (hj : stage.jobs[j]? = some job) (hne : job.status ≠ .succeeded) :
    ∃ run', PipelineRun.stage i (PipelineStageResult.job j (start now)) run = (run', .ok ())
      ∧ run.Becomes run' := by
  have hshape := getElem?_shape hi
  have hcoherent : Coherent (.running, run.shape.2) := hrun ▸ h.coherent
  have hfamily : Family .running stage.shape.2 := hstage ▸ hcoherent.family hshape
  have hjob : stage.shape.2[j]? = some job.status := PipelineStageResult.getElem?_shape hj
  have hactive : job.status.Active :=
    active_of_fits (hfamily.fits _ (List.mem_of_getElem? hjob)) hne
  apply h.becomes (keeps_stage (PipelineStageResult.keeps_job keeps_start j) i)
  · exact moves_stage hshape (PipelineStageResult.moves_job hjob (moves_start hactive))
  · show Coherent (run.status, run.shape.2.set i (stage.status, _))
    rw [hrun, hstage]
    exact hcoherent.set_active (List.getElem?_eq_some_iff.mp hshape).1
      (hfamily.set_active (List.getElem?_eq_some_iff.mp hjob).1 (.inr rfl)) (.inr rfl)

/-- Counting the jobs of a stage changes nothing in a coherent tree. -/
theorem moves_countStage {l : List StageShape} {s : StageShape}
    (h : Coherent (.running, l)) (hi : l[i]? = some s) :
    Edit.Moves shape (aggregateStage now (some i)) (.running, l) (.running, l) := by
  have hstage : s.1.Active ∨ s.1 = .succeeded := by
    by_cases hsucceeded : s.1 = .succeeded
    · exact .inr hsucceeded
    · exact .inl (active_of_fits (h.fits hi) hsucceeded)
  have hmoves : Edit.Moves shape (aggregateStage now (some i)) (.running, l)
      (.running, l.set i _) := moves_aggregateStage hi hstage .running
  rwa [(h.family hi).counted_eq, set_same hi] at hmoves

/-- Nor does counting the stages. -/
theorem moves_count {l : List StageShape} {stageIndex : Option Nat} (h : Coherent (.running, l))
    (hstage : Edit.Moves shape (aggregateStage now stageIndex) (.running, l) (.running, l)) :
    Edit.Moves shape (aggregateSuccess now stageIndex) (.running, l) (.running, l) := by
  have hmoves := moves_aggregateSuccess (.inl (.inr rfl)) hstage
  rwa [h.stages.counted_eq] at hmoves

/-- The index that an executor counts at: a stage of the run, or none. -/
def Counts (run : PipelineRun) (stageIndex : Option Nat) : Prop :=
  ∀ i ∈ stageIndex, ∃ stage, run.stages[i]? = some stage

theorem moves_aggregate {stageIndex : Option Nat} (h : run.Sound) (hrun : run.status = .running)
    (hindex : run.Counts stageIndex) :
    Edit.Moves shape (aggregateSuccess now stageIndex) run.shape run.shape := by
  have hshape : run.shape = (.running, run.shape.2) := Prod.ext hrun rfl
  rw [hshape]
  have hcoherent : Coherent (.running, run.shape.2) := hshape ▸ h.coherent
  apply moves_count hcoherent
  cases stageIndex with
  | none => exact Edit.moves_pure _ _
  | some i =>
    obtain ⟨stage, hi⟩ := hindex i rfl
    exact moves_countStage hcoherent (getElem?_shape hi)

theorem aggregate_becomes {stageIndex : Option Nat} (h : run.Sound) (hrun : run.status = .running)
    (hindex : run.Counts stageIndex) :
    ∃ run', aggregateSuccess now stageIndex run = (run', .ok ()) ∧ run.Becomes run' :=
  h.becomes (keeps_aggregateSuccess stageIndex) (moves_aggregate h hrun hindex) h.coherent

theorem aggregateChecked_becomes {stageIndex : Option Nat} (h : run.Sound)
    (hrun : run.status = .running) (hindex : run.Counts stageIndex) :
    ∃ run', InMemoryPipelineService.aggregateChecked now stageIndex run = (run', .ok ())
      ∧ run.Becomes run' :=
  h.becomes ((keeps_aggregateSuccess stageIndex).bind .trans fun _ => keeps_assert)
    ((moves_aggregate h hrun hindex).bind (moves_assert h.coherent)) h.coherent

theorem keeps_completeJob : Edit.Keeps Advances
    (InMemoryPipelineService.completeJob now i j stage job) := by
  unfold InMemoryPipelineService.completeJob
  split
  · exact (keeps_failJob i j).bind .trans fun _ => keeps_assert
  · exact (keeps_stage (PipelineStageResult.keeps_job keeps_finish j) i).bind .trans fun _ =>
      (keeps_aggregateSuccess _).bind .trans fun _ => keeps_assert

/-- An active job of a running stage ends. -/
theorem moves_completeJob {l : List StageShape} {js : List PipelineStatus}
    (h : Coherent (.running, l)) (hi : l[i]? = some (.running, js)) (hj : js[j]? = some job.status)
    (hjob : job.status.Active) :
    ∃ t, Edit.Moves shape (InMemoryPipelineService.completeJob now i j stage job) (.running, l) t
      ∧ Coherent t := by
  unfold InMemoryPipelineService.completeJob
  by_cases hfail : job.shouldFail
  · rw [if_pos hfail]
    obtain ⟨t, hmoves, hcoherent⟩ := moves_failJob h hi hj hjob
    exact ⟨t, hmoves.bind (moves_assert hcoherent), hcoherent⟩
  · rw [if_neg hfail]
    have hset : (l.set i (.running, js.set j .succeeded))[i]?
        = some (.running, js.set j .succeeded) := getElem?_set_same hi
    have hjobs : ∀ child ∈ js.set j .succeeded, PipelineStatus.running.fits child = true := by
      intro child hchild
      rcases List.mem_or_eq_of_mem_set hchild with hold | rfl
      · exact (h.family hi).fits child hold
      · rfl
    have hfits : PipelineStatus.running.fits (PipelineStatus.running.counted (js.set j .succeeded))
        = true := by
      unfold counted
      split <;> rfl
    have hcoherent : Coherent (_, l.set i (_, js.set j .succeeded)) :=
      h.count (Family.count hjobs) hfits
    have hcount : Edit.Moves shape (aggregateSuccess now (some i)) (.running, l.set i _) _ :=
      moves_aggregateSuccess (.inl (.inr rfl))
        (moves_aggregateStage hset (.inl (.inr rfl)) .running)
    rw [List.set_set] at hcount
    refine ⟨_, (moves_stage hi ?_).bind (hcount.bind (moves_assert hcoherent)), hcoherent⟩
    exact PipelineStageResult.moves_job hj (moves_finish (.inl rfl) (.inl hjob))

/-- A job of a stage that has begun ends. -/
theorem completeJob_becomes (h : run.Sound) (hrun : run.status = .running)
    (hi : run.stages[i]? = some stage) (hstage : stage.status ≠ .queued)
    (hj : stage.jobs[j]? = some job) (hne : job.status ≠ .succeeded) :
    ∃ run', InMemoryPipelineService.completeJob now i j stage job run = (run', .ok ())
      ∧ run.Becomes run' := by
  have hshape : run.shape = (.running, run.shape.2) := Prod.ext hrun rfl
  have hcoherent : Coherent (.running, run.shape.2) := hshape ▸ h.coherent
  have hstageShape : run.shape.2[i]? = some stage.shape := getElem?_shape hi
  have hjob : stage.shape.2[j]? = some job.status := PipelineStageResult.getElem?_shape hj
  have hfamily : Family stage.status stage.shape.2 := hcoherent.family hstageShape
  -- a stage of a running run that has begun and has a job to end is running
  have hrunning : stage.status = .running := by
    have hunfinished : stage.status ≠ .succeeded := fun hsucceeded =>
      hne (hfamily.succeeded_iff.mp hsucceeded _ (List.mem_of_getElem? hjob))
    exact (active_of_fits (hcoherent.fits hstageShape) hunfinished).resolve_left hstage
  have hactive : job.status.Active := by
    rw [hrunning] at hfamily
    exact active_of_fits (hfamily.fits _ (List.mem_of_getElem? hjob)) hne
  have hi' : run.shape.2[i]? = some (.running, stage.shape.2) := by
    rw [hstageShape, ← hrunning]
    rfl
  have hends : ∃ t, Edit.Moves shape (InMemoryPipelineService.completeJob now i j stage job)
      (.running, run.shape.2) t ∧ Coherent t := moves_completeJob hcoherent hi' hjob hactive
  obtain ⟨t, hmoves, ht⟩ := hends
  rw [← hshape] at hmoves
  exact h.becomes keeps_completeJob hmoves ht

theorem failRun_becomes (h : run.Sound) (hrun : run.status.Active) :
    ∃ run', failRun now message run = (run', .ok ()) ∧ run.Becomes run' :=
  h.becomes keeps_failRun (moves_failRun (.inl hrun) _) (h.coherent.break_ hrun (.inl rfl))

theorem keeps_cancel : Edit.Keeps Advances (cancel now note childNote) :=
  (keeps_node keeps_finish).bind .trans fun _ =>
    keeps_cancelUnfinishedChildren.bind .trans fun _ =>
      keeps_markTerminal.bind .trans fun _ => keeps_assert

/-- An active run is cancelled. -/
theorem cancel_becomes (h : run.Sound) (hrun : run.status.Active) :
    ∃ run', cancel now note childNote run = (run', .ok ()) ∧ run.Becomes run'
      ∧ run'.status.Terminal := by
  have hcoherent : Coherent (.cancelled, run.shape.2.map cancelStage) :=
    h.coherent.break_ hrun (.inr rfl)
  have hmoves : Edit.Moves shape (cancel now note childNote) run.shape
      (.cancelled, run.shape.2.map cancelStage) :=
    (moves_node (moves_finish (.inr (.inr rfl)) (.inl hrun)) _).bind
      ((moves_cancelUnfinishedChildren _ _).bind
        ((moves_markTerminal (.inr (.inr rfl)) _).bind (moves_assert hcoherent)))
  obtain ⟨run', hrun', hbecomes, hshape⟩ := h.leads keeps_cancel hmoves hcoherent
  exact ⟨run', hrun', hbecomes, .inr (.inr (congrArg Prod.fst hshape))⟩

theorem shutDownRun_becomes (h : run.Sound) :
    ∃ run', InMemoryPipelineService.shutDownRun now run = (run', .ok ()) ∧ run.Becomes run'
      ∧ run'.status.Terminal := by
  unfold InMemoryPipelineService.shutDownRun
  rw [Edit.read_bind]
  by_cases hterminal : run.status.Terminal
  · rw [if_neg (not_not_intro hterminal)]
    exact ⟨run, rfl, h.refl, hterminal⟩
  · rw [if_pos hterminal]
    exact cancel_becomes h (not_terminal_iff.mp hterminal)

/-- The end of the recovery. -/
theorem moves_checkRecovered {t : RunShape} (h : Coherent t) (hterminal : t.1.Terminal) :
    Edit.Moves shape (do
      let run ← Edit.read
      Edit.lift run.assertRunInvariants
      markTerminal) t t := by
  apply Edit.moves_read
  rintro run rfl
  rw [assertRunInvariants_coherent h]
  exact moves_markTerminal hterminal _

theorem keeps_checkRecovered : Edit.Keeps Advances (do
    let run ← Edit.read
    Edit.lift run.assertRunInvariants
    markTerminal) :=
  Edit.keeps_read fun run => (Edit.keeps_lift .refl _).bind .trans (fun _ => keeps_markTerminal) run

theorem recover_of_terminal (h : run.Sound) (hterminal : run.status.Terminal) :
    InMemoryPipelineService.recover now run = (run, .ok ()) := by
  unfold InMemoryPipelineService.recover
  rw [Edit.read_bind, if_neg (not_not_intro hterminal)]
  show (Edit.lift run.assertRunInvariants >>= fun _ => markTerminal) run = _
  rw [assertRunInvariants_coherent h.coherent, Edit.lift_ok_bind]
  unfold markTerminal
  rw [Edit.read_bind, if_neg (not_not_intro hterminal)]
  rfl

/-- Every run has ended after the recovery; one that had ended before is left as it is. -/
theorem recover_becomes (h : run.Sound) :
    ∃ run', InMemoryPipelineService.recover now run = (run', .ok ()) ∧ run.Becomes run'
      ∧ run'.status.Terminal ∧ (run.status.Terminal → run' = run) := by
  by_cases hterminal : run.status.Terminal
  · exact ⟨run, recover_of_terminal h hterminal, h.refl, hterminal, fun _ => rfl⟩
  · unfold InMemoryPipelineService.recover
    rw [Edit.read_bind, if_pos hterminal]
    have hactive : run.status.Active := not_terminal_iff.mp hterminal
    have hcoherent : Coherent (.cancelled, run.shape.2.map cancelStage) :=
      h.coherent.break_ hactive (.inr rfl)
    obtain ⟨run', hrun', hbecomes, hshape⟩ := h.leads
      ((keeps_node keeps_finish).bind .trans fun _ =>
        keeps_cancelUnfinishedChildren.bind .trans fun _ => keeps_checkRecovered)
      ((moves_node (moves_finish (.inr (.inr rfl)) (.inl hactive)) _).bind
        ((moves_cancelUnfinishedChildren _ _).bind
          (moves_checkRecovered hcoherent (.inr (.inr rfl))))) hcoherent
    exact ⟨run', hrun', hbecomes, .inr (.inr (congrArg Prod.fst hshape)),
      fun h => absurd h hterminal⟩

/-- The run and all of its nodes have ended. -/
def Over (run : PipelineRun) : Prop :=
  run.status.Terminal ∧ ∀ stage ∈ run.stages, stage.status.Terminal
    ∧ ∀ job ∈ stage.jobs, job.status.Terminal

theorem Sound.isOver {run : PipelineRun} (h : run.Sound) (hrun : run.status.Terminal) :
    run.Over := by
  refine ⟨hrun, fun stage hstage => ?_⟩
  have hshape : stage.shape ∈ run.shape.2 := List.mem_map_of_mem hstage
  have hterminal : stage.status.Terminal :=
    h.coherent.stages.terminal hrun _ (List.mem_map_of_mem hshape)
  exact ⟨hterminal, fun job hjob =>
    (h.coherent.jobs _ hshape).terminal hterminal _ (List.mem_map_of_mem hjob)⟩

/-- A run that has just been created. -/
theorem newRun_sound (now : Instant) (runId : String) (request : PipelineTriggerRequest) :
    (InMemoryPipelineService.newRun now runId request).Sound := by
  have hqueued : ∀ {children : List PipelineStatus}, children ≠ [] →
      (∀ child ∈ children, child = .queued) → Family .queued children := by
    intro children hne hall
    refine ⟨fun child hchild => by rw [hall child hchild]; rfl, fun _ => ?_⟩
    obtain ⟨child, hchild⟩ := List.exists_mem_of_ne_nil children hne
    exact ⟨child, hchild, by rw [hall child hchild]; decide⟩
  have hstamped : ResultState.Stamped {} := by
    unfold ResultState.Stamped
    decide
  refine ⟨⟨hqueued ?_ ?_, ?_⟩, hstamped, ?_⟩
  · simpa [InMemoryPipelineService.newRun, shape] using request.stages_ne
  · simp [InMemoryPipelineService.newRun, shape, PipelineStageResult.shape]
  · intro s hs
    obtain ⟨stage, -, rfl⟩ : ∃ stage ∈ request.stages,
        (PipelineStatus.queued, stage.jobs.map fun _ => PipelineStatus.queued) = s := by
      simpa [InMemoryPipelineService.newRun, shape, PipelineStageResult.shape, Function.comp_def]
        using hs
    exact hqueued (by simpa using stage.jobs_ne) (by simp)
  · intro stage hstage
    obtain ⟨spec, -, rfl⟩ := List.mem_map.mp hstage
    refine ⟨hstamped, fun job hjob => ?_⟩
    obtain ⟨_, -, rfl⟩ := List.mem_map.mp hjob
    exact hstamped

end PipelineRun

end QaPlatform.Pipeline
