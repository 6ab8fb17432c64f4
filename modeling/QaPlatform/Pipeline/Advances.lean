import QaPlatform.Pipeline.Runs

/-!
# What a tree operation never takes back

However an operation on a tree ends, a node that has ended stays as it is, a node that has begun
has begun, and the time of the end is there exactly if the node has ended.
-/

namespace QaPlatform.Pipeline

/-- A state that is over stays as it is, one that has begun does not go back, and an end has its
time. -/
structure ResultState.Advances (r r' : ResultState) : Prop where
  ended : r.status.Terminal → r' = r
  begun : r.status ≠ .queued → r'.status ≠ .queued
  stamped : (r.finishedAt.isSome ↔ r.status.Terminal) → (r'.finishedAt.isSome ↔ r'.status.Terminal)

namespace ResultState.Advances

theorem refl (r : ResultState) : r.Advances r := ⟨fun _ => rfl, fun h => h, fun h => h⟩

theorem trans {r r' r'' : ResultState} (h : r.Advances r') (h' : r'.Advances r'') :
    r.Advances r'' where
  ended hterminal := by
    have hsame := h.ended hterminal
    rw [h'.ended (hsame ▸ hterminal), hsame]
  begun hbegun := h'.begun (h.begun hbegun)
  stamped hstamped := h'.stamped (h.stamped hstamped)

end ResultState.Advances

variable {now : Instant} {status : PipelineStatus} {message : Option String} {note : String}

open ResultState (Advances)

theorem keeps_transition : Edit.Keeps Advances (transition now status message) := by
  intro r
  unfold transition
  rw [Edit.read_bind]
  by_cases hsame : r.status = status
  · rw [if_pos hsame]
    exact .refl r
  by_cases hallowed : status ∈ allowedTransitions r.status
  · rw [if_neg hsame, if_neg (not_not_intro hallowed)]
    have hactive : ¬ r.status.Terminal := by
      revert hallowed
      cases r.status <;> simp [allowedTransitions, PipelineStatus.Terminal]
    refine ⟨fun hterminal => absurd hterminal hactive, fun _ => ?_, fun hstamped => ?_⟩
    · show status ≠ .queued
      rintro rfl
      revert hallowed
      cases r.status <;> simp [allowedTransitions]
    · show (if status.Terminal then some now else r.finishedAt).isSome ↔ status.Terminal
      split
      · next hterminal => exact iff_of_true rfl hterminal
      · next hterminal => exact iff_of_false (fun h => hactive (hstamped.mp h)) hterminal
  · rw [if_neg hsame, if_pos hallowed]
    exact .refl r

theorem keeps_start : Edit.Keeps Advances (start now) := by
  refine Edit.keeps_read fun r => ?_
  split
  · exact keeps_transition r
  · split
    · exact .refl r
    · exact .refl r

theorem keeps_finish : Edit.Keeps Advances (finish now status message) := by
  unfold finish
  split
  · exact fun r => .refl r
  · refine Edit.keeps_read fun r => ?_
    split
    · exact .refl r
    · split
      · exact (keeps_start.bind .trans fun _ => keeps_transition) r
      · exact keeps_transition r

theorem keeps_cancelUnfinished : Edit.Keeps Advances (cancelUnfinished now note) := by
  refine Edit.keeps_read fun r => ?_
  split
  · exact keeps_finish r
  · exact .refl r

/-! ## Stages and jobs -/

/-- A job gets on, and is still the job that it was. -/
structure PipelineJobResult.Advances (job job' : PipelineJobResult) : Prop where
  state : job.toResultState.Advances job'.toResultState
  same : job'.name = job.name ∧ job'.durationMs = job.durationMs ∧ job'.shouldFail = job.shouldFail

/-- A stage gets on, and so does each of its jobs. -/
structure PipelineStageResult.Advances (stage stage' : PipelineStageResult) : Prop where
  state : stage.toResultState.Advances stage'.toResultState
  jobs : List.Forall₂ PipelineJobResult.Advances stage.jobs stage'.jobs
  same : stage'.name = stage.name

/-- A run gets on, and so does each of its stages. -/
structure PipelineRun.Advances (run run' : PipelineRun) : Prop where
  state : run.toResultState.Advances run'.toResultState
  stages : List.Forall₂ PipelineStageResult.Advances run.stages run'.stages
  same : run'.id = run.id

theorem forall₂_trans {α : Type} {R : α → α → Prop} (htrans : ∀ {a b c}, R a b → R b c → R a c)
    {l l' l'' : List α} (h : List.Forall₂ R l l') (h' : List.Forall₂ R l' l'') :
    List.Forall₂ R l l'' := by
  induction h generalizing l'' with
  | nil => exact h'
  | cons hr _ ih =>
    cases h' with
    | cons hr' hrest => exact .cons (htrans hr hr') (ih hrest)

namespace PipelineJobResult

theorem Advances.refl (job : PipelineJobResult) : job.Advances job := ⟨.refl _, rfl, rfl, rfl⟩

theorem Advances.trans {job job' job'' : PipelineJobResult} (h : job.Advances job')
    (h' : job'.Advances job'') : job.Advances job'' :=
  ⟨h.state.trans h'.state, h'.same.1.trans h.same.1, h'.same.2.1.trans h.same.2.1,
    h'.same.2.2.trans h.same.2.2⟩

theorem keeps_node {x : Change ResultState Unit} (h : Edit.Keeps ResultState.Advances x) :
    Edit.Keeps Advances (node x) :=
  h.zoom fun _ _ hr => ⟨hr, rfl, rfl, rfl⟩

end PipelineJobResult

namespace PipelineStageResult

theorem Advances.refl (stage : PipelineStageResult) : stage.Advances stage :=
  ⟨.refl _, List.forall₂_same.mpr fun job _ => .refl job, rfl⟩

theorem Advances.trans {stage stage' stage'' : PipelineStageResult} (h : stage.Advances stage')
    (h' : stage'.Advances stage'') : stage.Advances stage'' :=
  ⟨h.state.trans h'.state, forall₂_trans .trans h.jobs h'.jobs, h'.same.trans h.same⟩

theorem keeps_node {x : Change ResultState Unit} (h : Edit.Keeps ResultState.Advances x) :
    Edit.Keeps Advances (node x) :=
  h.zoom fun _ _ hr => ⟨hr, List.forall₂_same.mpr fun job _ => .refl job, rfl⟩

theorem keeps_overJobs {x : Change (List PipelineJobResult) Unit}
    (h : Edit.Keeps (List.Forall₂ PipelineJobResult.Advances) x) :
    Edit.Keeps Advances (overJobs x) :=
  h.zoom fun _ _ hr => ⟨.refl _, hr, rfl⟩

theorem keeps_job {x : Change ResultState Unit} (h : Edit.Keeps ResultState.Advances x) (j : Nat) :
    Edit.Keeps Advances (job j x) :=
  keeps_overJobs ((PipelineJobResult.keeps_node h).nth .refl j)

theorem keeps_cancelUnfinishedJobs : Edit.Keeps Advances (cancelUnfinishedJobs now note) :=
  keeps_overJobs ((PipelineJobResult.keeps_node keeps_cancelUnfinished).each .refl)

end PipelineStageResult

/-! ## Runs -/

namespace PipelineRun

theorem Advances.refl (run : PipelineRun) : run.Advances run :=
  ⟨.refl _, List.forall₂_same.mpr fun stage _ => .refl stage, rfl⟩

theorem Advances.trans {run run' run'' : PipelineRun} (h : run.Advances run')
    (h' : run'.Advances run'') : run.Advances run'' :=
  ⟨h.state.trans h'.state, forall₂_trans .trans h.stages h'.stages, h'.same.trans h.same⟩

theorem keeps_node {x : Change ResultState Unit} (h : Edit.Keeps ResultState.Advances x) :
    Edit.Keeps Advances (node x) :=
  h.zoom fun _ _ hr => ⟨hr, List.forall₂_same.mpr fun stage _ => .refl stage, rfl⟩

theorem keeps_overStages {x : Change (List PipelineStageResult) Unit}
    (h : Edit.Keeps (List.Forall₂ PipelineStageResult.Advances) x) :
    Edit.Keeps Advances (overStages x) :=
  h.zoom fun _ _ hr => ⟨.refl _, hr, rfl⟩

theorem keeps_stage {x : Change PipelineStageResult Unit}
    (h : Edit.Keeps PipelineStageResult.Advances x) (i : Nat) : Edit.Keeps Advances (stage i x) :=
  keeps_overStages (h.nth .refl i)

theorem keeps_cancelUnfinishedChildren :
    Edit.Keeps Advances (cancelUnfinishedChildren now note) :=
  keeps_overStages ((PipelineStageResult.keeps_cancelUnfinishedJobs.bind .trans fun _ =>
    PipelineStageResult.keeps_node keeps_cancelUnfinished).each .refl)

theorem keeps_markTerminal : Edit.Keeps Advances markTerminal := by
  refine Edit.keeps_read fun run => ?_
  split
  · exact .refl run
  · exact .refl run

theorem keeps_aggregateStage (stageIndex : Option Nat) :
    Edit.Keeps Advances (aggregateStage now stageIndex) := by
  cases stageIndex with
  | none => exact .refl
  | some i =>
    refine keeps_stage (Edit.keeps_read fun current => ?_) i
    split
    · exact PipelineStageResult.keeps_node keeps_finish current
    · exact .refl current

theorem keeps_aggregateSuccess (stageIndex : Option Nat) :
    Edit.Keeps Advances (aggregateSuccess now stageIndex) := by
  refine (keeps_aggregateStage stageIndex).bind .trans fun _ => Edit.keeps_read fun run => ?_
  split
  · exact ((keeps_node keeps_finish).bind .trans fun _ => keeps_markTerminal) run
  · exact .refl run

theorem keeps_failRun : Edit.Keeps Advances (failRun now message) :=
  (keeps_node keeps_finish).bind .trans fun _ =>
    keeps_cancelUnfinishedChildren.bind .trans fun _ => keeps_markTerminal

theorem keeps_failJob {stageName jobName : String} (i j : Nat) :
    Edit.Keeps Advances (failJob now i stageName j jobName message) := by
  refine (keeps_stage ?_ i).bind .trans fun _ => keeps_failRun
  exact (PipelineStageResult.keeps_job keeps_finish j).bind .trans fun _ =>
    (PipelineStageResult.keeps_node keeps_finish).bind .trans fun _ =>
      PipelineStageResult.keeps_cancelUnfinishedJobs

theorem keeps_cancelled : Edit.Keeps Advances (do
    node (finish now .cancelled message)
    cancelUnfinishedChildren now note
    markTerminal) :=
  (keeps_node keeps_finish).bind .trans fun _ =>
    keeps_cancelUnfinishedChildren.bind .trans fun _ => keeps_markTerminal

variable {callback : PipelineCallbackRequest}

theorem keeps_applyPipelineCallback : Edit.Keeps Advances (applyPipelineCallback now callback) := by
  unfold applyPipelineCallback
  cases callback.status with
  | queued => exact keeps_node keeps_transition
  | running => exact keeps_node keeps_start
  | succeeded => exact (keeps_node keeps_finish).bind .trans fun _ => keeps_markTerminal
  | failed => exact keeps_failRun
  | cancelled => exact keeps_cancelled

theorem keeps_applyStageCallback (i : Nat) (stageName : String) :
    Edit.Keeps Advances (applyStageCallback now callback i stageName) := by
  have hstart : Edit.Keeps Advances (node (start now)) := keeps_node keeps_start
  have hbreak : ∀ status note, Edit.Keeps PipelineStageResult.Advances (do
      PipelineStageResult.node (finish now status callback.message)
      PipelineStageResult.cancelUnfinishedJobs now note) := fun status note =>
    (PipelineStageResult.keeps_node keeps_finish).bind .trans fun _ =>
      PipelineStageResult.keeps_cancelUnfinishedJobs
  unfold applyStageCallback
  cases callback.status with
  | queued => exact keeps_stage (PipelineStageResult.keeps_node keeps_transition) i
  | running =>
    exact hstart.bind .trans fun _ => keeps_stage (PipelineStageResult.keeps_node keeps_start) i
  | succeeded =>
    exact hstart.bind .trans fun _ =>
      (keeps_stage (PipelineStageResult.keeps_node keeps_finish) i).bind .trans fun _ =>
        keeps_aggregateSuccess _
  | failed =>
    exact hstart.bind .trans fun _ =>
      (keeps_stage (hbreak _ _) i).bind .trans fun _ => keeps_failRun
  | cancelled => exact (keeps_stage (hbreak _ _) i).bind .trans fun _ => keeps_cancelled

theorem keeps_applyJobCallback (i j : Nat) (stageName jobName : String) :
    Edit.Keeps Advances (applyJobCallback now callback i stageName j jobName) := by
  have hstart : Edit.Keeps Advances (node (start now)) := keeps_node keeps_start
  have hstage : Edit.Keeps PipelineStageResult.Advances (PipelineStageResult.node (start now)) :=
    PipelineStageResult.keeps_node keeps_start
  unfold applyJobCallback
  cases callback.status with
  | queued => exact keeps_stage (PipelineStageResult.keeps_job keeps_transition j) i
  | running =>
    exact hstart.bind .trans fun _ =>
      keeps_stage (hstage.bind .trans fun _ => PipelineStageResult.keeps_job keeps_start j) i
  | succeeded =>
    exact hstart.bind .trans fun _ =>
      (keeps_stage (hstage.bind .trans fun _ => PipelineStageResult.keeps_job keeps_finish j)
        i).bind .trans fun _ => keeps_aggregateSuccess _
  | failed =>
    exact hstart.bind .trans fun _ => (keeps_stage hstage i).bind .trans fun _ => keeps_failJob i j
  | cancelled =>
    refine (keeps_stage ?_ i).bind .trans fun _ => keeps_cancelled
    exact (PipelineStageResult.keeps_job keeps_finish j).bind .trans fun _ =>
      (PipelineStageResult.keeps_node keeps_finish).bind .trans fun _ =>
        PipelineStageResult.keeps_cancelUnfinishedJobs

theorem keeps_applyCallback (target : Target) :
    Edit.Keeps Advances (applyCallback now callback target) := by
  cases target with
  | pipeline => exact keeps_applyPipelineCallback
  | stage i stageName => exact keeps_applyStageCallback i stageName
  | job i stageName j jobName => exact keeps_applyJobCallback i j stageName jobName

theorem keeps_reconcile : Edit.Keeps Advances (reconcile now callback) := by
  refine Edit.keeps_read fun run => ?_
  have hassert : Edit.Keeps Advances
      (Edit.read >>= fun run : PipelineRun => Edit.lift run.assertRunInvariants) :=
    Edit.keeps_read fun run => .refl run
  exact ((Edit.keeps_lift .refl _).bind .trans fun target =>
    (Edit.keeps_lift .refl _).bind .trans fun _ =>
      (keeps_applyCallback target).bind .trans fun _ => hassert) run

end PipelineRun

end QaPlatform.Pipeline
