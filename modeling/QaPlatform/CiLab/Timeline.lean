import QaPlatform.Base.Spans
import QaPlatform.CiLab.Service

/-!
# The timeline of a definition

The jobs of a definition are spans in its time, one after another, from the end of the queue
delay to the terminal point. What a view shows of a job at an elapsed time follows from where
the time lies; `JobPhase` lists the cases.
-/

namespace QaPlatform.CiLab

/-! ## Definitions that pass their checks -/

/-- `JobDefinition.__post_init__`. -/
def JobDefinition.Checked (job : JobDefinition) : Prop :=
  job.key ≠ "" ∧ job.name ≠ "" ∧ job.durationMs ≤ 60000

/-- `StageDefinition.__post_init__`. -/
def StageDefinition.Checked (stage : StageDefinition) : Prop :=
  stage.key ≠ "" ∧ stage.name ≠ "" ∧ (stage.jobs.map (·.key)).Nodup

/-- The keys of the jobs, through all stages. -/
def PipelineDefinition.jobKeys (definition : PipelineDefinition) : List String :=
  (definition.stages.flatMap (·.jobs)).map (·.key)

/-- `PipelineDefinition.__post_init__`, and that of its parts. -/
structure CheckedDefinition extends PipelineDefinition where
  named : key ≠ "" ∧ name ≠ ""
  revision_pos : 1 ≤ revision
  queueDelay_le : queueDelayMs ≤ 60000
  stageKeys_nodup : (stages.map (·.key)).Nodup
  jobKeys_nodup : toPipelineDefinition.jobKeys.Nodup
  stages_checked : ∀ stage ∈ stages, stage.Checked
  jobs_checked : ∀ job ∈ stages.flatMap (·.jobs), job.Checked

/-- `{definition.key: definition for definition in definitions}`. -/
def definitionRegistry (definitions : List CheckedDefinition) : DefinitionRegistry := fun key =>
  (definitions.reverse.find? fun definition => definition.key = key).map (·.toPipelineDefinition)

/-- `build_default_definition_registry`. -/
def defaultDefinitions : List CheckedDefinition :=
  [{ key := "local-quality-gate"
     name := "Local QA quality gate"
     revision := 1
     queueDelayMs := 100
     stages :=
       [⟨"validate", "Validate", [⟨"validate-input", "Validate bounded inputs", 100, false⟩],
          by simp⟩,
        ⟨"test", "Test", [⟨"deterministic-tests", "Run deterministic tests", 300, false⟩], by simp⟩,
        ⟨"report", "Report", [⟨"quality-summary", "Build quality summary", 100, false⟩], by simp⟩]
     stages_ne := by simp
     named := by decide
     revision_pos := by decide
     queueDelay_le := by decide
     stageKeys_nodup := by decide
     jobKeys_nodup := by decide
     stages_checked := by simp [StageDefinition.Checked]
     jobs_checked := by simp [JobDefinition.Checked] },
   { key := "local-failure-demo"
     name := "Local deterministic failure"
     revision := 1
     queueDelayMs := 50
     stages :=
       [⟨"validate", "Validate", [⟨"validate-input", "Validate bounded inputs", 50, false⟩],
          by simp⟩,
        ⟨"test", "Test", [⟨"fixed-failure", "Demonstrate deterministic failure", 100, true⟩],
          by simp⟩,
        ⟨"package", "Package",
          [⟨"never-runs-after-failure", "Cancelled downstream work", 100, false⟩], by simp⟩]
     stages_ne := by simp
     named := by decide
     revision_pos := by decide
     queueDelay_le := by decide
     stageKeys_nodup := by decide
     jobKeys_nodup := by decide
     stages_checked := by simp [StageDefinition.Checked]
     jobs_checked := by simp [JobDefinition.Checked] }]

theorem definitionRegistry_eq_some {definitions : List CheckedDefinition} {key : String}
    {definition : PipelineDefinition} (h : definitionRegistry definitions key = some definition) :
    definition.key = key ∧ definition.jobKeys.Nodup := by
  obtain ⟨checked, hchecked, rfl⟩ := Option.map_eq_some_iff.mp h
  have hkey : checked.key = key := by simpa using List.find?_some hchecked
  exact ⟨hkey, checked.jobKeys_nodup⟩

/-! ## Spans -/

section
variable {offset : Nat} {jobs : List JobDefinition}

theorem timelineFrom_definition (offset : Nat) (jobs : List JobDefinition) :
    (timelineFrom offset jobs).map (·.definition) = jobs := by
  induction jobs generalizing offset with
  | nil => rfl
  | cons job jobs ih => simp [timelineFrom, ih]

theorem timelineFrom_bounds {item : JobTimeline} (h : item ∈ timelineFrom offset jobs) :
    offset ≤ item.startMs ∧ item.finishMs = item.startMs + item.definition.durationMs := by
  induction jobs generalizing offset with
  | nil => cases h
  | cons job jobs ih =>
    rcases List.mem_cons.mp h with rfl | hrest
    · exact ⟨Nat.le_refl _, rfl⟩
    · have hbounds := ih hrest
      exact ⟨by omega, hbounds.2⟩

theorem timelineFrom_inOrder (offset : Nat) (jobs : List JobDefinition) :
    Spans.InOrder JobTimeline.startMs JobTimeline.finishMs (timelineFrom offset jobs) := by
  induction jobs generalizing offset with
  | nil => exact .nil
  | cons job jobs ih =>
    refine .cons (fun item hitem => ?_) (ih _)
    exact (timelineFrom_bounds hitem).1

/-- The last job ends last. -/
theorem timelineFrom_last {item : JobTimeline} (h : item ∈ timelineFrom offset jobs) (d : Nat) :
    item.finishMs ≤ ((timelineFrom offset jobs).getLast?.map (·.finishMs)).getD d := by
  induction jobs generalizing offset item with
  | nil => cases h
  | cons job jobs ih =>
    cases jobs with
    | nil =>
      obtain rfl := List.mem_singleton.mp h
      exact Nat.le_refl _
    | cons next jobs =>
      have hlast : (timelineFrom offset (job :: next :: jobs)).getLast?
          = (timelineFrom (offset + job.durationMs) (next :: jobs)).getLast? := rfl
      rw [hlast]
      rcases List.mem_cons.mp h with rfl | hrest
      · -- the job ends where the next one begins
        have hmem : (⟨next, offset + job.durationMs,
            offset + job.durationMs + next.durationMs⟩ : JobTimeline)
              ∈ timelineFrom (offset + job.durationMs) (next :: jobs) := List.mem_cons_self
        exact Nat.le_trans (Nat.le_add_right _ _) (ih hmem)
      · exact ih hrest

end

namespace PipelineDefinition

variable {definition : PipelineDefinition} {item failure : JobTimeline}

theorem le_startMs (h : item ∈ definition.timeline) :
    definition.queueDelayMs ≤ item.startMs ∧ item.startMs ≤ item.finishMs := by
  obtain ⟨hstart, hfinish⟩ := timelineFrom_bounds h
  exact ⟨hstart, by omega⟩

theorem timeline_inOrder (definition : PipelineDefinition) :
    Spans.InOrder JobTimeline.startMs JobTimeline.finishMs definition.timeline :=
  timelineFrom_inOrder _ _

/-- The first job that fails. -/
def firstFailure (definition : PipelineDefinition) : Option JobTimeline :=
  definition.timeline.find? (·.definition.shouldFail)

theorem mem_of_firstFailure (h : definition.firstFailure = some failure) :
    failure ∈ definition.timeline :=
  List.mem_of_find?_eq_some h

/-- What comes before the first failing job and after it. -/
theorem timeline_split (h : definition.firstFailure = some failure) :
    failure.definition.shouldFail = true
      ∧ ∃ before after, definition.timeline = before ++ failure :: after
        ∧ (∀ item ∈ before, item.definition.shouldFail = false ∧ item.finishMs ≤ failure.startMs)
        ∧ ∀ item ∈ after, failure.finishMs ≤ item.startMs := by
  obtain ⟨hfails, before, after, heq, hbefore⟩ := List.find?_eq_some_iff_append.mp h
  have horder := definition.timeline_inOrder
  rw [heq] at horder
  refine ⟨hfails, before, after, heq, fun item hitem => ⟨?_, horder.front_le item hitem⟩,
    horder.le_back⟩
  simpa using hbefore item hitem

theorem shouldFail_of_firstFailure (h : definition.firstFailure = none)
    (hitem : item ∈ definition.timeline) : item.definition.shouldFail = false := by
  simpa using List.find?_eq_none.mp h item hitem

/-! ## The terminal point -/

theorem terminalPoint_of_failure (h : definition.firstFailure = some failure) :
    definition.terminalPoint.status = .failed
      ∧ definition.terminalPoint.ms = failure.finishMs := by
  unfold firstFailure at h
  simp [terminalPoint, h]

theorem terminalPoint_of_none (h : definition.firstFailure = none) :
    definition.terminalPoint.status = .succeeded
      ∧ ∀ item ∈ definition.timeline, item.finishMs ≤ definition.terminalPoint.ms := by
  unfold firstFailure at h
  constructor
  · simp [terminalPoint, h]
  · intro item hitem
    have hlast : item.finishMs
        ≤ (definition.timeline.getLast?.map (·.finishMs)).getD definition.queueDelayMs :=
      timelineFrom_last hitem definition.queueDelayMs
    simpa [terminalPoint, h] using hlast

theorem firstFailure_of_failed (h : definition.terminalPoint.status = .failed) :
    ∃ failure, definition.firstFailure = some failure := by
  cases hfailure : definition.firstFailure with
  | some failure => exact ⟨failure, rfl⟩
  | none =>
    rw [(terminalPoint_of_none hfailure).1] at h
    cases h

theorem firstFailure_of_succeeded (h : definition.terminalPoint.status = .succeeded) :
    definition.firstFailure = none := by
  cases hfailure : definition.firstFailure with
  | none => rfl
  | some failure =>
    rw [(terminalPoint_of_failure hfailure).1] at h
    cases h

theorem timeline_ne_nil (definition : PipelineDefinition) : definition.timeline ≠ [] := by
  intro hnil
  have hjobs := timelineFrom_definition definition.queueDelayMs (definition.stages.flatMap (·.jobs))
  have hempty : definition.stages.flatMap (·.jobs) = [] := by
    rw [← hjobs]
    exact congrArg (List.map _) hnil
  cases hstages : definition.stages with
  | nil => exact definition.stages_ne hstages
  | cons stage stages =>
    rw [List.flatMap_eq_nil_iff] at hempty
    exact stage.jobs_ne (hempty stage (by simp [hstages]))

/-- The terminal point is the end of a job. -/
theorem terminalPoint_mem (definition : PipelineDefinition) :
    ∃ item ∈ definition.timeline, definition.terminalPoint.ms = item.finishMs := by
  cases hfailure : definition.firstFailure with
  | some failure =>
    exact ⟨failure, mem_of_firstFailure hfailure, (terminalPoint_of_failure hfailure).2⟩
  | none =>
    have hlast := List.getLast?_eq_some_getLast definition.timeline_ne_nil
    refine ⟨_, List.getLast_mem definition.timeline_ne_nil, ?_⟩
    unfold firstFailure at hfailure
    simp [terminalPoint, hfailure, hlast]

theorem queueDelay_le_terminal (definition : PipelineDefinition) :
    definition.queueDelayMs ≤ definition.terminalPoint.ms := by
  obtain ⟨item, hitem, hms⟩ := definition.terminalPoint_mem
  obtain ⟨hdelay, hspan⟩ := le_startMs hitem
  omega

end PipelineDefinition

end QaPlatform.CiLab
