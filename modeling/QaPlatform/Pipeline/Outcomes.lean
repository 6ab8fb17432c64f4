import QaPlatform.Pipeline.StatusTree

/-!
# Outcomes

What becomes of a tree on which nobody but its executor works. Which of its jobs fail is all that
counts: the jobs are gone through in order, and the first that fails ends its stage and the run. The
way there is described from the positions between two sections, each with the tree that is found
there.
-/

namespace QaPlatform.Pipeline

/-- Which jobs of its stages fail. -/
abbrev Plan := List (List Bool)

namespace Plan

variable {plan before after : Plan} {js done rest : List Bool} {next : Bool}

/-! ## Trees -/

/-- A stage that has not begun. -/
def queuedStage (js : List Bool) : StageShape := (.queued, js.map fun _ => .queued)

/-- A stage whose jobs have all succeeded. -/
def succeededStage (js : List Bool) : StageShape := (.succeeded, js.map fun _ => .succeeded)

/-- A stage that was not reached. -/
def cancelledStage (js : List Bool) : StageShape := (.cancelled, js.map fun _ => .cancelled)

/-- The jobs of a stage in the end. -/
def endedJobs : List Bool → List PipelineStatus
  | [] => []
  | false :: js => .succeeded :: endedJobs js
  | true :: js => .failed :: js.map fun _ => .cancelled

/-- The stages of a run in the end. -/
def endedStages : Plan → List StageShape
  | [] => []
  | js :: plan =>
    if true ∈ js then (.failed, endedJobs js) :: plan.map cancelledStage
    else succeededStage js :: endedStages plan

/-- No job fails. -/
def Clear (plan : Plan) : Prop := ∀ js ∈ plan, true ∉ js

instance (plan : Plan) : Decidable plan.Clear := by
  unfold Clear
  infer_instance

/-- What a run ends with. -/
def outcome (plan : Plan) : RunShape :=
  (if plan.Clear then .succeeded else .failed, plan.endedStages)

/-- Some stages have succeeded and the others have not begun. -/
def boundary (before after : Plan) : List StageShape :=
  before.map succeededStage ++ after.map queuedStage

/-- A stage with some jobs that have succeeded, one with the status, and others that have not
begun. -/
def midJobs (done : List Bool) (status : PipelineStatus) (rest : List Bool) : List PipelineStatus :=
  done.map (fun _ => .succeeded) ++ status :: rest.map fun _ => .queued

/-- A run in the middle of one of its stages. -/
def midway (before : Plan) (jobs : List PipelineStatus) (after : Plan) : List StageShape :=
  before.map succeededStage ++ (.running, jobs) :: after.map queuedStage

/-- The jobs of a stage of which one has failed. -/
def brokenJobs (done rest : List Bool) : List PipelineStatus :=
  done.map (fun _ => .succeeded) ++ .failed :: rest.map fun _ => .cancelled

theorem endedJobs_append (h : true ∉ done) :
    endedJobs (done ++ true :: rest) = brokenJobs done rest := by
  induction done with
  | nil => rfl
  | cons b done ih =>
    cases b with
    | false =>
      rw [List.cons_append, endedJobs, ih fun hmem => h (List.mem_cons_of_mem _ hmem)]
      rfl
    | true => exact absurd List.mem_cons_self h

theorem Clear.tail (h : Clear (js :: plan)) : Clear plan :=
  fun other hother => h other (List.mem_cons_of_mem js hother)

theorem Clear.append_singleton (h : before.Clear) (hjs : true ∉ js) : Clear (before ++ [js]) := by
  intro other hother
  rcases List.mem_append.mp hother with hold | hnew
  · exact h other hold
  · rwa [List.mem_singleton.mp hnew]

theorem endedStages_of_clear (h : plan.Clear) : plan.endedStages = plan.map succeededStage := by
  induction plan with
  | nil => rfl
  | cons js plan ih => rw [endedStages, if_neg (h js List.mem_cons_self), ih h.tail, List.map_cons]

theorem outcome_of_clear (h : plan.Clear) : outcome plan = (.succeeded, boundary plan []) := by
  unfold outcome boundary
  rw [if_pos h, endedStages_of_clear h, List.map_nil, List.append_nil]

theorem endedStages_append (h : before.Clear) (hjs : true ∈ js) :
    endedStages (before ++ js :: after)
      = before.map succeededStage ++ (.failed, endedJobs js) :: after.map cancelledStage := by
  induction before with
  | nil => exact if_pos hjs
  | cons js' before ih =>
    rw [List.cons_append, endedStages, if_neg (h js' List.mem_cons_self), ih h.tail]
    rfl

/-- The first job that fails ends everything. -/
theorem outcome_of_failure (h : before.Clear) (hdone : true ∉ done) :
    outcome (before ++ (done ++ true :: rest) :: after)
      = (.failed, before.map succeededStage
        ++ (.failed, brokenJobs done rest) :: after.map cancelledStage) := by
  have hmem : true ∈ done ++ true :: rest := by simp
  have hnot : ¬ Clear (before ++ (done ++ true :: rest) :: after) := fun hclear =>
    hclear _ (by simp) hmem
  unfold outcome
  rw [if_neg hnot, endedStages_append h hmem, endedJobs_append hdone]

/-! ## What is left to do -/

/-- The sections that an executor spends on a stage: one before it, three for each of its jobs, and
one after it. -/
def stageSections (js : List Bool) : Nat := 3 * js.length + 2

/-- The sections that a list of stages takes. -/
def stagesSections : Plan → Nat
  | [] => 0
  | js :: plan => stageSections js + stagesSections plan

/-- The sections of an executor that is never at fault. -/
def sections (plan : Plan) : Nat := plan.stagesSections + 1

@[simp] theorem stagesSections_cons : stagesSections (js :: plan)
    = 3 * js.length + 2 + stagesSections plan := rfl

end Plan

end QaPlatform.Pipeline
