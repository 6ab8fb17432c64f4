import QaPlatform.Base.Edits
import QaPlatform.Base.JsonText
import QaPlatform.Pipeline.LearningCiTrigger
import QaPlatform.Runtime.Json

/-!
# Pipeline runs

The models of `app/pipeline/models.py` and what `app/pipeline/service.py` does to the tree of a
run, with its stages and their jobs. Time stands still while the service holds its lock: every
`_now()` of a section is the one reading `now`.
-/

namespace QaPlatform.Pipeline

/-- The text of a status. -/
def PipelineStatus.value : PipelineStatus → String
  | .queued => "queued"
  | .running => "running"
  | .succeeded => "succeeded"
  | .failed => "failed"
  | .cancelled => "cancelled"

/-- `_ALLOWED_TRANSITIONS`. -/
def allowedTransitions : PipelineStatus → List PipelineStatus
  | .queued => [.running, .cancelled]
  | .running => [.succeeded, .failed, .cancelled]
  | .succeeded | .failed | .cancelled => []

/-- The errors of `app/pipeline/errors.py`, and the other exceptions that the service raises. -/
inductive PipelineFailure where
  | notFound (message : String)
  | transition (message : String)
  | invariant (message : String)
  | idempotencyConflict (message : String)
  | targetNotFound (message : String)
  | serviceClosed (message : String)
  | valueError (message : String)
  | keyError (message : String)
  | indexError
  | assertionError
  /-- What the persistence layer raises. -/
  | storage (message : String)
deriving DecidableEq, Repr

/-- `str(exc)`. -/
def PipelineFailure.str : PipelineFailure → String
  | notFound message | transition message | invariant message | idempotencyConflict message
  | targetNotFound message | serviceClosed message | valueError message | keyError message
  | storage message => message
  | indexError => "list index out of range"
  | assertionError => ""

/-! ## Models -/

/-- `PipelineJobSpec`. -/
structure PipelineJobSpec where
  name : String
  durationMs : Nat
  shouldFail : Bool

/-- `PipelineStageSpec`, with what its validators have checked. -/
structure PipelineStageSpec where
  name : String
  jobs : List PipelineJobSpec
  jobs_ne : jobs ≠ []
  jobNamesAreUnique : (jobs.map (·.name)).Nodup

/-- `PipelineTriggerRequest`, with what its validators have checked. -/
structure PipelineTriggerRequest where
  name : String
  stages : List PipelineStageSpec
  idempotencyKey : Option String
  autoStart : Bool
  triggerVariables : List (String × String)
  stages_ne : stages ≠ []
  stageNamesAreUnique : (stages.map (·.name)).Nodup

/-- The fields that runs, stages and jobs share. -/
structure ResultState where
  status : PipelineStatus := .queued
  startedAt : Option Instant := none
  finishedAt : Option Instant := none
  message : Option String := none
deriving DecidableEq, Repr

/-- `PipelineJobResult`. -/
structure PipelineJobResult extends ResultState where
  name : String
  durationMs : Nat
  shouldFail : Bool
deriving DecidableEq, Repr

/-- `PipelineStageResult`. -/
structure PipelineStageResult extends ResultState where
  name : String
  jobs : List PipelineJobResult
deriving DecidableEq, Repr

/-- `PipelineRun`. -/
structure PipelineRun extends ResultState where
  id : String
  name : String
  stages : List PipelineStageResult
  triggerVariables : List (String × String)
  idempotencyKey : Option String
  createdAt : Instant
deriving DecidableEq, Repr

/-- `CallbackTarget`. -/
inductive CallbackTarget where
  | pipeline
  | stage
  | job
deriving DecidableEq, Repr

/-- The text of a target. -/
def CallbackTarget.value : CallbackTarget → String
  | .pipeline => "pipeline"
  | .stage => "stage"
  | .job => "job"

/-- `target_has_required_names`. -/
def targetHasRequiredNames (target : CallbackTarget) (stageName jobName : Option String) : Bool :=
  match target with
  | .pipeline => stageName = none ∧ jobName = none
  | .stage => stageName ≠ none ∧ jobName = none
  | .job => stageName ≠ none ∧ jobName ≠ none

/-- `PipelineCallbackRequest`, with what its validator has checked. -/
structure PipelineCallbackRequest where
  eventId : String
  target : CallbackTarget
  status : PipelineStatus
  stageName : Option String
  jobName : Option String
  message : Option String
  names : targetHasRequiredNames target stageName jobName = true

open LearningCi (members text optionalText)

/-- What `_fingerprint(callback, "event_id")` hashes, keys sorted. -/
def callbackContent (callback : PipelineCallbackRequest) : JsonText.Doc :=
  .object (members
    [("job_name", optionalText callback.jobName), ("message", optionalText callback.message),
      ("stage_name", optionalText callback.stageName), ("status", text callback.status.value),
      ("target", text callback.target.value)])

/-- `_fingerprint(callback, "event_id")`. -/
def callbackFingerprint (callback : PipelineCallbackRequest) : Digest Json :=
  ⟨String.ofList (JsonText.render (callbackContent callback))⟩

open QaPlatform.Runtime (jsonString jsonStrings)

/-- The JSON text of a job, keys sorted. -/
def jobJson (job : PipelineJobSpec) : Json :=
  "\x7b\"duration_ms\":" ++ toString job.durationMs ++ ",\"name\":" ++ jsonString job.name
    ++ ",\"should_fail\":" ++ toString job.shouldFail ++ "\x7d"

/-- The JSON text of a stage, keys sorted. -/
def stageJson (stage : PipelineStageSpec) : Json :=
  "\x7b\"jobs\":[" ++ ",".intercalate (stage.jobs.map jobJson) ++ "],\"name\":"
    ++ jsonString stage.name ++ "\x7d"

/-- `_fingerprint(request, "idempotency_key")`. -/
def triggerFingerprint (request : PipelineTriggerRequest) : Digest Json :=
  ⟨"\x7b\"auto_start\":" ++ toString request.autoStart ++ ",\"name\":" ++ jsonString request.name
    ++ ",\"stages\":[" ++ ",".intercalate (request.stages.map stageJson) ++ "],\"variables\":"
    ++ jsonStrings request.triggerVariables ++ "\x7d"⟩

/-! ## Transitions -/

/-- Code that changes a node or a tree. -/
abbrev Change (σ : Type) := Edit PipelineFailure σ

/-- `_assert_transition_allowed`. -/
def assertTransitionAllowed (status newStatus : PipelineStatus) : Except PipelineFailure Unit :=
  if status = newStatus then .ok ()
  -- providers commonly omit a running event
  else if status = .queued ∧ (newStatus = .succeeded ∨ newStatus = .failed) then .ok ()
  else refuse (newStatus ∉ allowedTransitions status)
    (.transition ("cannot transition " ++ status.value ++ " to " ++ newStatus.value))

/-- `_transition`. -/
def transition (now : Instant) (newStatus : PipelineStatus) (message : Option String) :
    Change ResultState Unit := do
  let result ← Edit.read
  if result.status = newStatus then return
  else if newStatus ∉ allowedTransitions result.status then
    Edit.raise (.transition
      ("cannot transition " ++ result.status.value ++ " to " ++ newStatus.value))
  else
    Edit.update fun result =>
      { status := newStatus
        startedAt := if newStatus = .running ∧ result.startedAt = none then some now
          else result.startedAt
        finishedAt := if newStatus.Terminal then some now else result.finishedAt
        message := message.or result.message }

/-- `_start`. -/
def start (now : Instant) : Change ResultState Unit := do
  let result ← Edit.read
  if result.status = .queued then transition now .running none
  else if result.status ≠ .running then
    Edit.raise (.transition ("cannot start a " ++ result.status.value ++ " result"))
  else return

/-- `_finish`. -/
def finish (now : Instant) (newStatus : PipelineStatus) (message : Option String) :
    Change ResultState Unit := do
  if ¬ newStatus.Terminal then Edit.raise (.valueError "_finish requires a terminal status")
  else
    let result ← Edit.read
    if result.status = newStatus then return
    else if result.status = .queued ∧ newStatus ≠ .cancelled then
      start now
      transition now newStatus message
    else transition now newStatus message

/-- `if not node.status.is_terminal: _finish(node, CANCELLED, message=message)`. -/
def cancelUnfinished (now : Instant) (message : String) : Change ResultState Unit := do
  let result ← Edit.read
  if ¬ result.status.Terminal then finish now .cancelled (some message) else return

/-! ## The nodes of a tree -/

namespace PipelineJobResult

/-- An edit of the state of a job. -/
def node (x : Change ResultState Unit) : Change PipelineJobResult Unit :=
  Edit.zoom toResultState (fun r job => { job with toResultState := r }) x

end PipelineJobResult

namespace PipelineStageResult

/-- An edit of the state of a stage. -/
def node (x : Change ResultState Unit) : Change PipelineStageResult Unit :=
  Edit.zoom toResultState (fun r stage => { stage with toResultState := r }) x

/-- An edit of the jobs of a stage. -/
def overJobs (x : Change (List PipelineJobResult) Unit) : Change PipelineStageResult Unit :=
  Edit.zoom jobs (fun jobs stage => { stage with jobs }) x

/-- A job of the stage. -/
def job (jobIndex : Nat) (x : Change ResultState Unit) : Change PipelineStageResult Unit :=
  overJobs (Edit.nth .indexError (PipelineJobResult.node x) jobIndex)

/-- `_cancel_unfinished_jobs`. -/
def cancelUnfinishedJobs (now : Instant) (message : String) : Change PipelineStageResult Unit :=
  overJobs (Edit.each (PipelineJobResult.node (cancelUnfinished now message)))

/-- `all(job.status == PipelineStatus.SUCCEEDED for job in stage.jobs)`. -/
def jobsSucceeded (stage : PipelineStageResult) : Bool :=
  stage.jobs.all (·.status = .succeeded)

end PipelineStageResult

namespace PipelineRun

/-- An edit of the state of a run. -/
def node (x : Change ResultState Unit) : Change PipelineRun Unit :=
  Edit.zoom toResultState (fun r run => { run with toResultState := r }) x

/-- An edit of the stages of a run. -/
def overStages (x : Change (List PipelineStageResult) Unit) : Change PipelineRun Unit :=
  Edit.zoom stages (fun stages run => { run with stages }) x

/-- A stage of the run. -/
def stage (stageIndex : Nat) (x : Change PipelineStageResult Unit) : Change PipelineRun Unit :=
  overStages (Edit.nth .indexError x stageIndex)

/-- `_cancel_unfinished_children`. -/
def cancelUnfinishedChildren (now : Instant) (message : String) : Change PipelineRun Unit :=
  overStages (Edit.each do
    PipelineStageResult.cancelUnfinishedJobs now message
    PipelineStageResult.node (cancelUnfinished now message))

/-- `_mark_terminal`. -/
def markTerminal : Change PipelineRun Unit := do
  let run ← Edit.read
  if ¬ run.status.Terminal then
    Edit.raise (.invariant "completion requires a terminal pipeline")
  else return

/-- The first half of `_aggregate_success`: the stage, if there is one. -/
def aggregateStage (now : Instant) : Option Nat → Change PipelineRun Unit
  | none => return
  | some i => stage i do
    let current ← Edit.read
    if current.jobsSucceeded then PipelineStageResult.node (finish now .succeeded none) else return

/-- `_aggregate_success`. -/
def aggregateSuccess (now : Instant) (stageIndex : Option Nat) : Change PipelineRun Unit := do
  aggregateStage now stageIndex
  let run ← Edit.read
  if run.stages.all (·.status = .succeeded) then
    node (finish now .succeeded none)
    markTerminal
  else return

/-- `_fail_run`. -/
def failRun (now : Instant) (message : Option String) : Change PipelineRun Unit := do
  node (finish now .failed message)
  cancelUnfinishedChildren now "not executed after the pipeline failed"
  markTerminal

/-- `_fail_job`. -/
def failJob (now : Instant) (stageIndex : Nat) (stageName : String) (jobIndex : Nat)
    (jobName : String) (message : Option String) : Change PipelineRun Unit := do
  stage stageIndex do
    PipelineStageResult.job jobIndex (finish now .failed message)
    PipelineStageResult.node (finish now .failed (some ("job " ++ jobName ++ " failed")))
    PipelineStageResult.cancelUnfinishedJobs now "not executed after an earlier job failed"
  failRun now (some ("stage " ++ stageName ++ ", job " ++ jobName ++ " failed"))

/-- `_assert_run_invariants`. -/
def assertRunInvariants (run : PipelineRun) : Except PipelineFailure Unit := do
  run.stages.forM fun stage => do
    refuse (stage.status = .succeeded ∧ ¬ stage.jobsSucceeded)
      (.invariant ("succeeded stage " ++ stage.name ++ " has an unfinished job"))
    refuse (stage.status.Terminal ∧ stage.jobs.any (¬ ·.status.Terminal))
      (.invariant ("terminal stage " ++ stage.name ++ " has an active job"))
  refuse (run.status = .succeeded ∧ ¬ run.stages.all (·.status = .succeeded))
    (.invariant "succeeded pipeline has a non-succeeded stage")
  refuse (run.status.Terminal ∧ run.stages.any (¬ ·.status.Terminal))
    (.invariant "terminal pipeline has an active stage")

/-! ## Callbacks -/

/-- The node that a callback is about, with the names on the way. -/
inductive Target where
  | pipeline
  | stage (stageIndex : Nat) (stageName : String)
  | job (stageIndex : Nat) (stageName : String) (jobIndex : Nat) (jobName : String)
deriving DecidableEq

/-- The first entry with the name, and where it stands. -/
def named {α : Type} (nameOf : α → String) (name : Option String) (entries : List α) :
    Option (Nat × α) := do
  let name ← name
  let index ← entries.findIdx? (nameOf · = name)
  let entry ← entries[index]?
  return (index, entry)

/-- `_stage_for_callback`. -/
def stageForCallback (run : PipelineRun) (callback : PipelineCallbackRequest) :
    Option (Nat × PipelineStageResult) :=
  named (·.name) callback.stageName run.stages

/-- `_callback_target`. -/
def callbackTarget (run : PipelineRun) (callback : PipelineCallbackRequest) :
    Except PipelineFailure Target := do
  if callback.target = .pipeline then return .pipeline
  else
    let stage ← demand (.targetNotFound ("stage not found: " ++ callback.stageName.getD "None"))
      (run.stageForCallback callback)
    if callback.target = .stage then return .stage stage.1 stage.2.name
    else
      let job ← demand (.targetNotFound ("job not found: " ++ callback.jobName.getD "None"))
        (named (·.name) callback.jobName stage.2.jobs)
      return .job stage.1 stage.2.name job.1 job.2.name

/-- The status of a node. -/
def statusOf (run : PipelineRun) : Target → Option PipelineStatus
  | .pipeline => some run.status
  | .stage i _ => run.stages[i]?.map (·.status)
  | .job i _ j _ => do
    let stage ← run.stages[i]?
    let job ← stage.jobs[j]?
    return job.status

/-- A job of a stage that has ended does not change. -/
def validateStage (callback : PipelineCallbackRequest) :
    Option PipelineStageResult → Except PipelineFailure Unit
  | none => .ok ()
  | some stage =>
    refuse (callback.target = .job ∧ stage.status.Terminal)
      (.transition ("cannot change a child of a " ++ stage.status.value ++ " stage"))

/-- What has to have succeeded before. -/
def validateSuccess (run : PipelineRun) (stage : Option PipelineStageResult) :
    CallbackTarget → Except PipelineFailure Unit
  | .pipeline =>
    refuse (¬ run.stages.all fun stage => stage.status = .succeeded ∧ stage.jobsSucceeded)
      (.invariant "pipeline cannot succeed until every stage and job succeeds")
  | .stage => do
    let stage ← demand .assertionError stage
    refuse (¬ stage.jobsSucceeded) (.invariant "stage cannot succeed until every job succeeds")
  | .job => .ok ()

/-- `_validate_callback`. -/
def validateCallback (run : PipelineRun) (callback : PipelineCallbackRequest) (target : Target) :
    Except PipelineFailure Unit := do
  refuse (callback.target ≠ .pipeline ∧ run.status.Terminal)
    (.transition ("cannot change a child of a " ++ run.status.value ++ " pipeline"))
  let stage := (run.stageForCallback callback).map Prod.snd
  validateStage callback stage
  let status ← demand .indexError (run.statusOf target)
  assertTransitionAllowed status callback.status
  if callback.status = .succeeded then run.validateSuccess stage callback.target else return

/-- `_apply_pipeline_callback`. -/
def applyPipelineCallback (now : Instant) (callback : PipelineCallbackRequest) :
    Change PipelineRun Unit :=
  match callback.status with
  | .queued => node (transition now .queued callback.message)
  | .running => node (start now)
  | .succeeded => do
    node (finish now .succeeded callback.message)
    markTerminal
  | .failed => failRun now callback.message
  | .cancelled => do
    node (finish now .cancelled callback.message)
    cancelUnfinishedChildren now "pipeline was cancelled by provider"
    markTerminal

/-- `_apply_stage_callback`. -/
def applyStageCallback (now : Instant) (callback : PipelineCallbackRequest) (i : Nat)
    (stageName : String) : Change PipelineRun Unit :=
  match callback.status with
  | .queued => stage i (PipelineStageResult.node (transition now .queued callback.message))
  | .running => do
    node (start now)
    stage i (PipelineStageResult.node (start now))
  | .succeeded => do
    node (start now)
    stage i (PipelineStageResult.node (finish now .succeeded callback.message))
    aggregateSuccess now (some i)
  | .failed => do
    node (start now)
    stage i do
      PipelineStageResult.node (finish now .failed callback.message)
      PipelineStageResult.cancelUnfinishedJobs now "not executed after the stage failed"
    failRun now (some ("stage " ++ stageName ++ " failed"))
  | .cancelled => do
    stage i do
      PipelineStageResult.node (finish now .cancelled callback.message)
      PipelineStageResult.cancelUnfinishedJobs now "stage was cancelled by provider"
    node (finish now .cancelled (some ("stage " ++ stageName ++ " was cancelled")))
    cancelUnfinishedChildren now "not executed after a stage was cancelled"
    markTerminal

/-- `_apply_job_callback`. -/
def applyJobCallback (now : Instant) (callback : PipelineCallbackRequest) (i : Nat)
    (stageName : String) (j : Nat) (jobName : String) : Change PipelineRun Unit :=
  match callback.status with
  | .queued => stage i (PipelineStageResult.job j (transition now .queued callback.message))
  | .running => do
    node (start now)
    stage i do
      PipelineStageResult.node (start now)
      PipelineStageResult.job j (start now)
  | .succeeded => do
    node (start now)
    stage i do
      PipelineStageResult.node (start now)
      PipelineStageResult.job j (finish now .succeeded callback.message)
    aggregateSuccess now (some i)
  | .failed => do
    node (start now)
    stage i (PipelineStageResult.node (start now))
    failJob now i stageName j jobName callback.message
  | .cancelled => do
    stage i do
      PipelineStageResult.job j (finish now .cancelled callback.message)
      PipelineStageResult.node
        (finish now .cancelled (some ("job " ++ jobName ++ " was cancelled")))
      PipelineStageResult.cancelUnfinishedJobs now "not executed after a job was cancelled"
    node (finish now .cancelled
      (some ("stage " ++ stageName ++ ", job " ++ jobName ++ " was cancelled")))
    cancelUnfinishedChildren now "not executed after a job was cancelled"
    markTerminal

/-- `_apply_callback`. -/
def applyCallback (now : Instant) (callback : PipelineCallbackRequest) :
    Target → Change PipelineRun Unit
  | .pipeline => applyPipelineCallback now callback
  | .stage i stageName => applyStageCallback now callback i stageName
  | .job i stageName j jobName => applyJobCallback now callback i stageName j jobName

/-- What `apply_callback` does to the tree of a run. -/
def reconcile (now : Instant) (callback : PipelineCallbackRequest) : Change PipelineRun Unit := do
  let run ← Edit.read
  let target ← Edit.lift (run.callbackTarget callback)
  Edit.lift (run.validateCallback callback target)
  applyCallback now callback target
  let run ← Edit.read
  Edit.lift run.assertRunInvariants

/-- What `cancel` does to the tree of an active run. -/
def cancel (now : Instant) (message childMessage : String) : Change PipelineRun Unit := do
  node (finish now .cancelled (some message))
  cancelUnfinishedChildren now childMessage
  markTerminal
  let run ← Edit.read
  Edit.lift run.assertRunInvariants

end PipelineRun

end QaPlatform.Pipeline
