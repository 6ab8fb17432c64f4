import QaPlatform.Services.Calls

/-!
# Plans and executions in lock-step

A plan has at most one execution, their statuses go together, and an archived project
has no work left. Every write keeps this; each call is one of the writes.

The invariant has to say more than that: cases are listed once in a plan, and a completed
execution has no result that is open, or the writes would not keep it. The calls are those of
`Services.Calls`, each of which is one of the writes with what it has found before.
-/

namespace QaPlatform.Services

open ExecutionService (planStatus)

theorem ExecutionService.planStatus_injective {a b : ExecutionStatus}
    (h : planStatus a = planStatus b) : a = b := by
  revert h
  cases a <;> cases b <;> decide

namespace QaStore

/-- No work is left in a project. -/
structure Quiet (s : QaStore) (projectId : Uuid) : Prop where
  plans : ∀ plan ∈ s.testPlans.rows, plan.projectId = projectId → ¬ plan.status.IsActive
  executions : ∀ execution ∈ s.executions.rows,
    execution.projectId = projectId → ¬ execution.status.IsActive
  defects : ∀ defect ∈ s.defects.rows, defect.projectId = projectId → defect.status = .closed

/-- The plan of an execution, as the execution has it. -/
structure Backs (plan : TestPlan) (execution : TestExecution) : Prop where
  project : plan.projectId = execution.projectId
  status : plan.status = planStatus execution.status
  cases : execution.results.map (·.caseId) = plan.caseIds

/-- A plan and its execution are at the same stage. -/
structure LockStep (s : QaStore) : Prop where
  one : ∀ execution ∈ s.executions.rows, ∀ other ∈ s.executions.rows,
    execution.planId = other.planId → execution = other
  backed : ∀ execution ∈ s.executions.rows,
    ∃ plan, s.testPlans.get? execution.planId = some plan ∧ Backs plan execution
  nodup : ∀ plan ∈ s.testPlans.rows, plan.caseIds.Nodup
  complete : ∀ execution ∈ s.executions.rows, execution.status = .completed →
    ∀ result ∈ execution.results, result.status ≠ .notRun
  quiet : ∀ project ∈ s.projects.rows, project.status = .archived → s.Quiet project.id

theorem lockStep_empty : empty.LockStep where
  one := fun _ h => absurd h List.not_mem_nil
  backed := fun _ h => absurd h List.not_mem_nil
  nodup := fun _ h => absurd h List.not_mem_nil
  complete := fun _ h => absurd h List.not_mem_nil
  quiet := fun _ h => absurd h List.not_mem_nil

section
variable {s : QaStore}

theorem not_archived {projectId : Uuid} (h : s.ActiveProject projectId) {project : Project}
    (hmem : project ∈ s.projects.rows) (harchived : project.status = .archived) :
    project.id ≠ projectId := by
  rintro rfl
  obtain ⟨found, hget, hactive⟩ := h
  have hsame : some found = some project := by
    rw [← hget]
    exact Table.get?_key hmem
  rw [Option.some.inj hsame, harchived] at hactive
  cases hactive

/-! ## Writes of plans -/

namespace LockStep

/-- The plan of an execution, seen from the plan. -/
theorem status_of_mem (h : s.LockStep) {plan : TestPlan} {execution : TestExecution}
    (hget : s.testPlans.get? execution.planId = some plan) (hmem : execution ∈ s.executions.rows) :
    Backs plan execution := by
  obtain ⟨backing, hbacking, hbacks⟩ := h.backed execution hmem
  rw [hget] at hbacking
  exact Option.some.inj hbacking ▸ hbacks

/-- A draft has no execution. -/
theorem unused_of_draft (h : s.LockStep) {plan : TestPlan}
    (hget : s.testPlans.get? plan.id = some plan) (hdraft : plan.status = .draft) :
    ∀ execution ∈ s.executions.rows, execution.planId ≠ plan.id := by
  intro execution hmem hplan
  have hbacks := h.status_of_mem (hplan ▸ hget) hmem
  have hstatus : planStatus execution.status = .draft := hbacks.status.symm.trans hdraft
  cases hexecution : execution.status <;> rw [hexecution] at hstatus <;> cases hstatus

theorem add_plan (h : s.LockStep) {plan : Uuid → TestPlan} (hkey : ∀ k, Keyed.key (plan k) = k)
    (hnodup : (plan s.testPlans.next).caseIds.Nodup)
    (hactive : s.ActiveProject (plan s.testPlans.next).projectId) :
    { s with testPlans := s.testPlans.add plan hkey }.LockStep where
  one := h.one
  backed := by
    intro execution hmem
    obtain ⟨backing, hget, hbacks⟩ := h.backed execution hmem
    exact ⟨backing, @Table.get?_add_old _ _ _ _ hkey _ _ hget, hbacks⟩
  nodup := by
    intro p hp
    rcases @Table.mem_add _ _ _ _ hkey _ hp with hold | rfl
    · exact h.nodup p hold
    · exact hnodup
  complete := h.complete
  quiet := by
    intro project hmem harchived
    have hquiet := h.quiet project hmem harchived
    refine ⟨fun p hp hproject => ?_, hquiet.executions, hquiet.defects⟩
    rcases @Table.mem_add _ _ _ _ hkey _ hp with hold | rfl
    · exact hquiet.plans p hold hproject
    · exact absurd hproject.symm (not_archived hactive hmem harchived)

/-- A plan without an execution is replaced. -/
theorem put_plan (h : s.LockStep) {plan plan' : TestPlan} (hid : plan'.id = plan.id)
    (hunused : ∀ execution ∈ s.executions.rows, execution.planId ≠ plan.id)
    (hnodup : plan'.caseIds.Nodup)
    (hquiet : ∀ project ∈ s.projects.rows, project.status = .archived →
      plan'.projectId = project.id → ¬ plan'.status.IsActive) :
    { s with testPlans := s.testPlans.put plan' }.LockStep where
  one := h.one
  backed := by
    intro execution hmem
    obtain ⟨backing, hget, hbacks⟩ := h.backed execution hmem
    refine ⟨backing, ?_, hbacks⟩
    rw [Table.get?_put_of_ne (fun hk => hunused execution hmem (hk.symm.trans hid))]
    exact hget
  nodup := by
    intro p hp
    rcases Table.mem_put hp with rfl | ⟨hold, -⟩
    · exact hnodup
    · exact h.nodup p hold
  complete := h.complete
  quiet := by
    intro project hmem harchived
    have hold := h.quiet project hmem harchived
    refine ⟨fun p hp hproject => ?_, hold.executions, hold.defects⟩
    rcases Table.mem_put hp with rfl | ⟨hp, -⟩
    · exact hquiet project hmem harchived hproject
    · exact hold.plans p hp hproject

theorem erase_plan (h : s.LockStep) {planId : Uuid}
    (hunused : ∀ execution ∈ s.executions.rows, execution.planId ≠ planId) :
    { s with testPlans := s.testPlans.erase planId }.LockStep where
  one := h.one
  backed := by
    intro execution hmem
    obtain ⟨backing, hget, hbacks⟩ := h.backed execution hmem
    refine ⟨backing, ?_, hbacks⟩
    show (s.testPlans.erase planId).get? execution.planId = some backing
    rw [Table.get?_erase, if_neg fun hk => hunused execution hmem hk.symm]
    exact hget
  nodup := fun p hp => h.nodup p (List.mem_of_mem_filter hp)
  complete := h.complete
  quiet := by
    intro project hmem harchived
    have hold := h.quiet project hmem harchived
    exact ⟨fun p hp => hold.plans p (List.mem_of_mem_filter hp), hold.executions, hold.defects⟩

/-! ## Writes of executions -/

theorem add_execution (h : s.LockStep) {execution : Uuid → TestExecution} {plan : TestPlan}
    (hkey : ∀ k, Keyed.key (execution k) = k)
    (hget : s.testPlans.get? (execution s.executions.next).planId = some plan)
    (hunused : ∀ other ∈ s.executions.rows,
      other.planId ≠ (execution s.executions.next).planId)
    (hbacks : Backs plan (execution s.executions.next))
    (hcreated : (execution s.executions.next).status = .created)
    (hactive : s.ActiveProject (execution s.executions.next).projectId) :
    { s with executions := s.executions.add execution hkey }.LockStep where
  one := by
    intro e he e' he' hplan
    rcases @Table.mem_add _ _ _ _ hkey _ he with hold | rfl
    · rcases @Table.mem_add _ _ _ _ hkey _ he' with hold' | rfl
      · exact h.one e hold e' hold' hplan
      · exact absurd hplan (hunused e hold)
    · rcases @Table.mem_add _ _ _ _ hkey _ he' with hold' | rfl
      · exact absurd hplan.symm (hunused e' hold')
      · rfl
  backed := by
    intro e he
    rcases @Table.mem_add _ _ _ _ hkey _ he with hold | rfl
    · exact h.backed e hold
    · exact ⟨plan, hget, hbacks⟩
  nodup := h.nodup
  complete := by
    intro e he hcompleted
    rcases @Table.mem_add _ _ _ _ hkey _ he with hold | rfl
    · exact h.complete e hold hcompleted
    · rw [hcreated] at hcompleted
      cases hcompleted
  quiet := by
    intro project hmem harchived
    have hold := h.quiet project hmem harchived
    refine ⟨hold.plans, fun e he hproject => ?_, hold.defects⟩
    rcases @Table.mem_add _ _ _ _ hkey _ he with he | rfl
    · exact hold.executions e he hproject
    · exact absurd hproject.symm (not_archived hactive hmem harchived)

/-- An execution and its plan are replaced together. -/
theorem put_both (h : s.LockStep) {execution execution' : TestExecution} {plan plan' : TestPlan}
    (hget : s.executions.get? execution.id = some execution)
    (hplan : s.testPlans.get? execution.planId = some plan)
    (hid : execution'.id = execution.id) (hplanId : execution'.planId = execution.planId)
    (hid' : plan'.id = plan.id) (hbacks : Backs plan' execution') (hnodup : plan'.caseIds.Nodup)
    (hcomplete : execution'.status = .completed →
      ∀ result ∈ execution'.results, result.status ≠ .notRun)
    (hquiet : ∀ project ∈ s.projects.rows, project.status = .archived →
      execution'.projectId = project.id → ¬ execution'.status.IsActive ∧ ¬ plan'.status.IsActive) :
    { s with
      testPlans := s.testPlans.put plan'
      executions := s.executions.put execution' }.LockStep := by
  have hkey : plan.id = execution.planId := Table.key_of_get? hplan
  have hmem := Table.mem_of_get? hget
  have hread : (s.testPlans.put plan').get? execution.planId = some plan' :=
    Table.get?_put_self hplan (hid'.trans hkey)
  -- the plan has one execution only, so every other execution keeps its own plan
  have hother : ∀ e ∈ s.executions.rows, Keyed.key e ≠ Keyed.key execution' →
      e.planId ≠ execution.planId := by
    intro e he hne hsame
    have hsameRow := h.one e he execution hmem hsame
    exact hne (by rw [hsameRow]; exact hid.symm)
  constructor
  case one =>
    intro e he e' he' hsame
    rcases Table.mem_put he with rfl | ⟨hold, hne⟩
    · rcases Table.mem_put he' with rfl | ⟨hold', hne'⟩
      · rfl
      · exact absurd (hsame.symm.trans hplanId) (hother e' hold' hne')
    · rcases Table.mem_put he' with rfl | ⟨hold', -⟩
      · exact absurd (hsame.trans hplanId) (hother e hold hne)
      · exact h.one e hold e' hold' hsame
  case backed =>
    intro e he
    rcases Table.mem_put he with rfl | ⟨hold, hne⟩
    · exact ⟨plan', hplanId ▸ hread, hbacks⟩
    · obtain ⟨backing, hbacking, hold⟩ := h.backed e hold
      refine ⟨backing, ?_, hold⟩
      have hplanNe : Keyed.key plan' ≠ e.planId := fun hk =>
        hother e ‹_› hne (hk.symm.trans (hid'.trans hkey))
      show (s.testPlans.put plan').get? e.planId = some backing
      rw [Table.get?_put_of_ne hplanNe]
      exact hbacking
  case nodup =>
    intro p hp
    rcases Table.mem_put hp with rfl | ⟨hold, -⟩
    · exact hnodup
    · exact h.nodup p hold
  case complete =>
    intro e he hcompleted
    rcases Table.mem_put he with rfl | ⟨hold, -⟩
    · exact hcomplete hcompleted
    · exact h.complete e hold hcompleted
  case quiet =>
    intro project hproject harchived
    have hold := h.quiet project hproject harchived
    refine ⟨fun p hp hsame => ?_, fun e he hsame => ?_, hold.defects⟩
    · rcases Table.mem_put hp with rfl | ⟨hp, -⟩
      · exact (hquiet project hproject harchived (hbacks.project.symm.trans hsame)).2
      · exact hold.plans p hp hsame
    · rcases Table.mem_put he with rfl | ⟨he, -⟩
      · exact (hquiet project hproject harchived hsame).1
      · exact hold.executions e he hsame

theorem erase_execution (h : s.LockStep) (executionId : Uuid) :
    { s with executions := s.executions.erase executionId }.LockStep where
  one := fun e he e' he' =>
    h.one e (List.mem_of_mem_filter he) e' (List.mem_of_mem_filter he')
  backed := fun e he => h.backed e (List.mem_of_mem_filter he)
  nodup := h.nodup
  complete := fun e he => h.complete e (List.mem_of_mem_filter he)
  quiet := by
    intro project hmem harchived
    have hold := h.quiet project hmem harchived
    exact ⟨hold.plans, fun e he => hold.executions e (List.mem_of_mem_filter he), hold.defects⟩

/-! ## Other writes -/

/-- What is not looked at may change. -/
theorem frame (h : s.LockStep) {s' : QaStore} (hprojects : s'.projects = s.projects)
    (hplans : s'.testPlans = s.testPlans) (hexecutions : s'.executions = s.executions)
    (hdefects : s'.defects = s.defects) : s'.LockStep where
  one := hexecutions ▸ h.one
  backed := hexecutions ▸ hplans ▸ h.backed
  nodup := hplans ▸ h.nodup
  complete := hexecutions ▸ h.complete
  quiet := by
    intro project hmem harchived
    have hold := h.quiet project (hprojects ▸ hmem) harchived
    exact ⟨hplans ▸ hold.plans, hexecutions ▸ hold.executions, hdefects ▸ hold.defects⟩

/-- Defects are written in active projects, or they are closed. -/
theorem write_defects (h : s.LockStep) {defects : Table Defect}
    (hdefects : ∀ project ∈ s.projects.rows, project.status = .archived →
      ∀ defect ∈ defects.rows, defect.projectId = project.id →
        defect ∈ s.defects.rows ∨ defect.status = .closed) :
    { s with defects }.LockStep where
  one := h.one
  backed := h.backed
  nodup := h.nodup
  complete := h.complete
  quiet := by
    intro project hmem harchived
    have hold := h.quiet project hmem harchived
    refine ⟨hold.plans, hold.executions, fun defect hdefect hproject => ?_⟩
    rcases hdefects project hmem harchived defect hdefect hproject with hkept | hclosed
    · exact hold.defects defect hkept hproject
    · exact hclosed

/-- Projects are written so that those that are archived are quiet. -/
theorem write_projects (h : s.LockStep) {projects : Table Project}
    (hquiet : ∀ project ∈ projects.rows, project.status = .archived → s.Quiet project.id) :
    { s with projects }.LockStep where
  one := h.one
  backed := h.backed
  nodup := h.nodup
  complete := h.complete
  quiet := by
    intro project hmem harchived
    have hproject := hquiet project hmem harchived
    exact ⟨hproject.plans, hproject.executions, hproject.defects⟩

end LockStep

/-! ## Calls -/

namespace LockStep

variable {c : Context}

theorem createProject (h : s.LockStep) (payload : ProjectCreate) :
    (s.kept (ProjectService.create c s payload)).LockStep := by
  refine kept_cases h fun s' project hcreate => ?_
  rw [ProjectService.create_ok hcreate]
  refine h.write_projects fun project hmem harchived => ?_
  rcases Table.mem_add hmem with hold | rfl
  · exact h.quiet project hold harchived
  · cases harchived

theorem updateProject (h : s.LockStep) (projectId : Uuid) (payload : ProjectUpdate) :
    (s.kept (ProjectService.update c s projectId payload)).LockStep := by
  refine kept_cases h fun s' project hupdate => ?_
  obtain ⟨old, hget, hid, hstatus, rfl⟩ := ProjectService.update_ok hupdate
  refine h.write_projects fun other hmem harchived => ?_
  rcases Table.mem_put hmem with rfl | ⟨hold, -⟩
  · rw [hid]
    exact h.quiet old (Table.mem_of_get? hget) (hstatus.symm.trans harchived)
  · exact h.quiet other hold harchived

theorem transitionProject (h : s.LockStep) (projectId : Uuid) (target : ProjectStatus) :
    (s.kept (ProjectService.transition c s projectId target)).LockStep := by
  refine kept_cases h fun s' project htransition => ?_
  rcases ProjectService.transition_ok htransition with rfl | ⟨old, hget, hid, hstatus, rfl, hcheck⟩
  · exact h
  · refine h.write_projects fun other hmem harchived => ?_
    rcases Table.mem_put hmem with rfl | ⟨hold, -⟩
    · obtain ⟨u, hquiet⟩ := hcheck (hstatus.symm.trans harchived)
      obtain ⟨hplans, hexecutions, hdefects⟩ :=
        ProjectService.ensureProjectHasNoActiveWork_ok hquiet
      rw [hid]
      exact ⟨hplans, hexecutions, hdefects⟩
    · exact h.quiet other hold harchived

theorem deleteProject (h : s.LockStep) (projectId : Uuid) :
    (s.kept (ProjectService.delete s projectId)).LockStep := by
  refine kept_cases h fun s' id hdelete => ?_
  obtain ⟨old, -, rfl⟩ := ProjectService.delete_ok hdelete
  exact h.write_projects fun project hmem => h.quiet project (List.mem_of_mem_filter hmem)

/-- Suites and their events are not looked at. -/
theorem audited_suites (h : s.LockStep) {s' : QaStore} {testSuites : Table TestSuite}
    (haudited : TestSuiteService.Audited s s' testSuites) : s'.LockStep := by
  obtain ⟨event, -, rfl⟩ := haudited
  exact h.frame rfl rfl rfl rfl

theorem createPlan (h : s.LockStep) (payload : TestPlanCreate) :
    (s.kept (TestPlanService.create c s payload)).LockStep := by
  refine kept_cases h fun s' plan hcreate => ?_
  obtain ⟨projectId, caseIds, hactive, hnodup, rfl⟩ := TestPlanService.create_ok hcreate
  exact h.add_plan _ hnodup hactive

theorem updatePlan (h : s.LockStep) (planId : Uuid) (payload : TestPlanUpdate) :
    (s.kept (TestPlanService.update c s planId payload)).LockStep := by
  refine kept_cases h fun s' plan hupdate => ?_
  obtain ⟨old, hget, hdraft, hid, hproject, hstatus, hnodup, rfl⟩ :=
    TestPlanService.update_ok hupdate
  have hmem := Table.mem_of_get? hget
  refine h.put_plan hid (h.unused_of_draft (Table.get?_key hmem) hdraft) (hnodup (h.nodup old hmem))
    fun project hmember harchived hsame => ?_
  -- an archived project has no draft
  exact absurd (.inl hdraft)
    ((h.quiet project hmember harchived).plans old hmem (hproject.symm.trans hsame))

theorem transitionPlan (h : s.LockStep) (planId : Uuid) (target : TestPlanStatus) :
    (s.kept (TestPlanService.transition c s planId target)).LockStep := by
  refine kept_cases h fun s' plan htransition => ?_
  rcases TestPlanService.transition_ok htransition with rfl | ⟨old, u, hget, hcheck, rfl⟩
  · exact h
  have hmem := Table.mem_of_get? hget
  rcases TestPlanService.checkTransition_ok hcheck with
    ⟨hdraft, rfl, hactive⟩ | ⟨hready, rfl, hunused⟩
  · have hunused := h.unused_of_draft (Table.get?_key hmem) hdraft
    exact h.put_plan rfl hunused (h.nodup old hmem) fun project hmember harchived hsame =>
      absurd hsame.symm (not_archived hactive hmember harchived)
  · refine h.put_plan rfl hunused (h.nodup old hmem) fun project hmember harchived hsame => ?_
    exact absurd (.inr (.inl hready))
      ((h.quiet project hmember harchived).plans old hmem hsame)

theorem deletePlan (h : s.LockStep) (planId : Uuid) :
    (s.kept (TestPlanService.delete s planId)).LockStep := by
  refine kept_cases h fun s' id hdelete => ?_
  obtain ⟨old, -, hunused, rfl⟩ := TestPlanService.delete_ok hdelete
  exact h.erase_plan hunused

theorem createExecution (h : s.LockStep) (planId : UuidText) :
    (s.kept (ExecutionService.create c s planId)).LockStep := by
  refine kept_cases h fun s' execution hcreate => ?_
  obtain ⟨plan, results, hget, hactive, hready, hunused, hcases, rfl⟩ :=
    ExecutionService.create_ok hcreate
  exact h.add_execution _ hget hunused ⟨rfl, hready, hcases⟩ rfl hactive

theorem transitionExecution (h : s.LockStep) (executionId : Uuid) (target : ExecutionStatus) :
    (ExecutionService.transition c s executionId target .done .done).1.LockStep := by
  rcases ExecutionService.transition_cases c s executionId target with
    hsame | ⟨execution, plan, hprepare, hstate⟩
  · rw [hsame]
    exact h
  rw [hstate]
  obtain ⟨hget, -, hplan, u, hcheck⟩ := ExecutionService.prepareTransition_ok hprepare
  have hmem := Table.mem_of_get? hget
  have hbacks := h.status_of_mem hplan hmem
  have hnodup := h.nodup plan (Table.mem_of_get? hplan)
  have hself : s.executions.get? execution.id = some execution := Table.get?_key hmem
  -- only a running execution is active after its transition, and it was active before
  rcases ExecutionService.checkTransition_ok hcheck with
    ⟨rfl, hcreated⟩ | ⟨rfl, hrunning, hrun⟩ | ⟨rfl, hactive⟩
  · refine h.put_both hself hplan rfl rfl rfl ⟨hbacks.project, rfl, hbacks.cases⟩ hnodup ?_
      fun project hmember harchived hsame => ?_
    · intro hcompleted
      cases hcompleted
    · exact absurd (.inl hcreated)
        ((h.quiet project hmember harchived).executions execution hmem hsame)
  · refine h.put_both hself hplan rfl rfl rfl ⟨hbacks.project, rfl, hbacks.cases⟩ hnodup
      (fun _ => hrun) fun _ _ _ _ => ⟨?_, ?_⟩
    · show ¬ ExecutionStatus.IsActive .completed
      decide
    · show ¬ TestPlanStatus.IsActive .completed
      decide
  · refine h.put_both hself hplan rfl rfl rfl ⟨hbacks.project, rfl, hbacks.cases⟩ hnodup ?_
      fun _ _ _ _ => ⟨?_, ?_⟩
    · intro hcompleted
      cases hcompleted
    · show ¬ ExecutionStatus.IsActive .cancelled
      decide
    · show ¬ TestPlanStatus.IsActive .cancelled
      decide

theorem updateCaseResult (h : s.LockStep) (executionId caseId : Uuid) (status : CaseResultStatus)
    (actualResult comment : String) :
    (s.kept (ExecutionService.updateCaseResult c s executionId caseId status actualResult
      comment)).LockStep := by
  refine kept_cases h fun s' execution hupdate => ?_
  obtain ⟨old, hget, hrunning, hid, hplanId, hproject, hstatus, hcases, rfl⟩ :=
    ExecutionService.updateCaseResult_ok hupdate
  have hmem := Table.mem_of_get? hget
  obtain ⟨plan, hplan, hbacks⟩ := h.backed old hmem
  have hsameStatus : execution.status = old.status := hstatus.trans hrunning.symm
  have hkeep := h.put_both (Table.get?_key hmem) hplan hid hplanId rfl
    ⟨hbacks.project.trans hproject.symm, hsameStatus ▸ hbacks.status, hcases.trans hbacks.cases⟩
    (h.nodup plan (Table.mem_of_get? hplan))
    (fun hcompleted => by rw [hstatus] at hcompleted; cases hcompleted)
    fun project hmember harchived hsame => absurd (.inr hrunning)
      ((h.quiet project hmember harchived).executions old hmem (hproject.symm.trans hsame))
  -- the plan is written back as it was
  rw [Table.put_self (Table.get?_key (Table.mem_of_get? hplan))] at hkeep
  exact hkeep

theorem deleteExecution (h : s.LockStep) (executionId : Uuid) :
    (s.kept (ExecutionService.delete s executionId)).LockStep := by
  refine kept_cases h fun s' id hdelete => ?_
  obtain ⟨old, -, rfl⟩ := ExecutionService.delete_ok hdelete
  exact h.erase_execution old.id

/-- Events are not looked at. -/
theorem audited_defects (h : s.LockStep) {s' : QaStore} {defects : Table Defect}
    {defectId : Uuid} {changes : List (String × AuditChange)}
    (haudited : DefectService.Audited s s' defects defectId changes)
    (hdefects : ∀ project ∈ s.projects.rows, project.status = .archived →
      ∀ defect ∈ defects.rows, defect.projectId = project.id →
        defect ∈ s.defects.rows ∨ defect.status = .closed) : s'.LockStep := by
  obtain ⟨event, -, -, -, rfl⟩ := haudited
  exact (h.write_defects hdefects).frame rfl rfl rfl rfl

theorem createDefect (h : s.LockStep) (payload : DefectCreate) :
    (DefectService.create c s payload).1.LockStep := by
  rcases DefectService.create_cases c s payload with hsame | ⟨projectId, _, _, hactive, haudited⟩
  · rw [hsame]
    exact h
  · refine h.audited_defects haudited fun project hmem harchived defect hdefect hproject => ?_
    rcases Table.mem_add hdefect with hold | rfl
    · exact .inl hold
    · exact absurd hproject.symm (not_archived hactive hmem harchived)

theorem updateDefect (h : s.LockStep) (defectId : Uuid) (payload : DefectUpdate) :
    (DefectService.update c s defectId payload).1.LockStep := by
  rcases DefectService.update_cases c s defectId payload with
    hsame | ⟨old, hget, hopen, -, haudited⟩
  · rw [hsame]
    exact h
  · refine h.audited_defects haudited fun project hmem harchived defect hdefect hproject => ?_
    rcases Table.mem_put hdefect with rfl | ⟨hold, -⟩
    · exact absurd ((h.quiet project hmem harchived).defects old (Table.mem_of_get? hget) hproject)
        hopen
    · exact .inl hold

theorem transitionDefect (h : s.LockStep) (defectId : Uuid) (payload : DefectTransition) :
    (DefectService.transition c s defectId payload).1.LockStep := by
  rcases DefectService.transition_cases c s defectId payload with
    hsame | ⟨old, saved, fields, -, -, hactive, hmoved, haudited⟩
  · rw [hsame]
    exact h
  · refine h.audited_defects haudited fun project hmem harchived defect hdefect hproject => ?_
    rcases Table.mem_put hdefect with rfl | ⟨hold, -⟩
    · rw [← (DefectService.moved_ok hmoved).1.projectId] at hactive
      exact absurd hproject.symm (not_archived hactive hmem harchived)
    · exact .inl hold

/-- Every call keeps plans and executions in step. -/
theorem perform (h : s.LockStep) (call : QaCall) : (s.perform c call).LockStep := by
  cases call with
  | createProject payload => exact h.createProject payload
  | updateProject projectId payload => exact h.updateProject projectId payload
  | transitionProject projectId target => exact h.transitionProject projectId target
  | deleteProject projectId => exact h.deleteProject projectId
  | createSuite payload =>
    rcases TestSuiteService.create_cases c s payload with hsame | ⟨_, _, _, -, -, haudited⟩
    · show (TestSuiteService.create c s payload).1.LockStep
      rw [hsame]
      exact h
    · exact h.audited_suites haudited
  | updateSuite suiteId payload =>
    rcases TestSuiteService.update_cases c s suiteId payload with
      hsame | ⟨_, _, -, -, -, -, -, haudited⟩
    · show (TestSuiteService.update c s suiteId payload).1.LockStep
      rw [hsame]
      exact h
    · exact h.audited_suites haudited
  | transitionSuite suiteId target =>
    rcases TestSuiteService.transition_cases c s suiteId target with hsame | ⟨_, -, haudited⟩
    · show (TestSuiteService.transition c s suiteId target).1.LockStep
      rw [hsame]
      exact h
    · exact h.audited_suites haudited
  | deleteSuite suiteId =>
    rcases TestSuiteService.delete_cases c s suiteId with hsame | ⟨_, -, -, -, haudited⟩
    · show (TestSuiteService.delete c s suiteId).1.LockStep
      rw [hsame]
      exact h
    · exact h.audited_suites haudited
  | createCase payload =>
    refine kept_cases h fun s' testCase hcreate => ?_
    obtain ⟨_, _, -, rfl⟩ := TestCaseService.create_ok hcreate
    exact h.frame rfl rfl rfl rfl
  | updateCase caseId payload =>
    refine kept_cases h fun s' testCase hupdate => ?_
    obtain ⟨_, -, -, -, -, -, -, rfl⟩ := TestCaseService.update_ok hupdate
    exact h.frame rfl rfl rfl rfl
  | transitionCase caseId target =>
    refine kept_cases h fun s' testCase htransition => ?_
    rcases TestCaseService.transition_ok htransition with rfl | ⟨_, -, -, -, rfl⟩
    · exact h
    · exact h.frame rfl rfl rfl rfl
  | deleteCase caseId =>
    refine kept_cases h fun s' id hdelete => ?_
    obtain ⟨_, -, rfl⟩ := TestCaseService.delete_ok hdelete
    exact h.frame rfl rfl rfl rfl
  | createSnapshot projectId => exact h.frame rfl rfl rfl rfl
  | createPlan payload => exact h.createPlan payload
  | updatePlan planId payload => exact h.updatePlan planId payload
  | transitionPlan planId target => exact h.transitionPlan planId target
  | deletePlan planId => exact h.deletePlan planId
  | createExecution planId => exact h.createExecution planId
  | transitionExecution executionId target => exact h.transitionExecution executionId target
  | updateCaseResult executionId caseId status actualResult comment =>
    exact h.updateCaseResult executionId caseId status actualResult comment
  | deleteExecution executionId => exact h.deleteExecution executionId
  | createDefect payload => exact h.createDefect payload
  | updateDefect defectId payload => exact h.updateDefect defectId payload
  | transitionDefect defectId payload => exact h.transitionDefect defectId payload

end LockStep

end

/-- Plans and executions go together and archived projects are quiet, after any calls. -/
theorem lock_step (casing : Casing) (texts : Texts) (es : List QaEvent) :
    let s := Transition.run (step casing texts) empty es
    (∀ execution ∈ s.executions.rows, ∀ other ∈ s.executions.rows,
        execution.planId = other.planId → execution = other)
    ∧ (∀ execution ∈ s.executions.rows, ∃ plan, s.testPlans.get? execution.planId = some plan
        ∧ (execution.status = .created ↔ plan.status = .ready)
        ∧ (execution.status = .running ↔ plan.status = .running)
        ∧ (execution.status = .completed ↔ plan.status = .completed)
        ∧ (execution.status = .cancelled ↔ plan.status = .cancelled)
        ∧ execution.results.map (·.caseId) = plan.caseIds ∧ plan.caseIds.Nodup)
    ∧ (∀ execution ∈ s.executions.rows, execution.status = .completed →
        ∀ result ∈ execution.results, result.status ≠ .notRun)
    ∧ ∀ project ∈ s.projects.rows, project.status = .archived →
        (∀ plan ∈ s.testPlans.rows, plan.projectId = project.id →
          plan.status ≠ .draft ∧ plan.status ≠ .ready ∧ plan.status ≠ .running)
        ∧ (∀ execution ∈ s.executions.rows, execution.projectId = project.id →
          execution.status ≠ .created ∧ execution.status ≠ .running)
        ∧ ∀ defect ∈ s.defects.rows, defect.projectId = project.id → defect.status = .closed := by
  intro s
  have h : s.LockStep :=
    Transition.invariant_run (fun _ e h => h.perform e.call) lockStep_empty es
  refine ⟨h.one, fun execution hmem => ?_, h.complete, fun project hmem harchived => ?_⟩
  · obtain ⟨plan, hget, hbacks⟩ := h.backed execution hmem
    have hiff : ∀ status, execution.status = status ↔ plan.status = planStatus status := by
      intro status
      rw [hbacks.status]
      exact ⟨congrArg planStatus, ExecutionService.planStatus_injective⟩
    exact ⟨plan, hget, hiff .created, hiff .running, hiff .completed, hiff .cancelled, hbacks.cases,
      h.nodup plan (Table.mem_of_get? hget)⟩
  · have hquiet := h.quiet project hmem harchived
    refine ⟨fun plan hplan hproject => ?_, fun execution hexecution hproject => ?_, hquiet.defects⟩
    · have hinactive := hquiet.plans plan hplan hproject
      exact ⟨fun h => hinactive (.inl h), fun h => hinactive (.inr (.inl h)),
        fun h => hinactive (.inr (.inr h))⟩
    · have hinactive := hquiet.executions execution hexecution hproject
      exact ⟨fun h => hinactive (.inl h), fun h => hinactive (.inr h)⟩

end QaStore

end QaPlatform.Services
