import QaPlatform.Base.ForeignKeys
import QaPlatform.Services.LockStep

/-!
# References

The rows of the services name each other by identifiers. No call leaves one that names a row that
is not there, or one of another project: a row is looked up before it is named, and it is not
deleted as long as it is.

`References` names all the columns by which rows refer to others, and `ForeignKeys` gives the
rules for writes on either side. A call looks a row up under the business lock before it names
it, and asks before it deletes one whether a row still names it.
-/

namespace QaPlatform.Services

/-- A call that does not stand for a snapshot. -/
def QaCall.Plain : QaCall → Prop
  | .createSnapshot _ => False
  | _ => True

namespace QaStore

/-- The project is there. -/
def HasProject (s : QaStore) (projectId : Uuid) : Prop :=
  ∃ project, s.projects.get? projectId = some project

/-- The case is there, in the project. -/
def HasCase (s : QaStore) (projectId caseId : Uuid) : Prop :=
  ∃ testCase, s.testCases.get? caseId = some testCase ∧ testCase.projectId = projectId

/-- An execution to which a defect may belong. -/
def Concerns (defect : Defect) (execution : TestExecution) : Prop :=
  execution.projectId = defect.projectId ∧ execution.status ≠ .created
    ∧ ∀ caseId, defect.caseId = some caseId → ∃ result ∈ execution.results, result.caseId = caseId

/-! ## What a call writes -/

/-- The store after a call, with what the call has found before it wrote. -/
inductive Wrote (s : QaStore) : QaStore → Prop where
  | nothing : Wrote s s
  | addProject {project : Uuid → Project} (hkey : ∀ id, Keyed.key (project id) = id)
      (hunique : ∀ other ∈ s.projects.rows, other.key ≠ (project s.projects.next).key) :
      Wrote s { s with projects := s.projects.add project hkey }
  | putProject {k : Uuid} {old new : Project} (hget : s.projects.get? k = some old)
      (hid : new.id = old.id) (hkey : new.key = old.key) :
      Wrote s { s with projects := s.projects.put new }
  | eraseProject {id : Uuid} (hcases : ∀ testCase ∈ s.testCases.rows, testCase.projectId ≠ id)
      (hplans : ∀ plan ∈ s.testPlans.rows, plan.projectId ≠ id)
      (hdefects : ∀ defect ∈ s.defects.rows, defect.projectId ≠ id)
      (hsuites : ∀ suite ∈ s.testSuites.rows, suite.projectId ≠ id)
      (hsnapshots : id ∉ s.snapshots) : Wrote s { s with projects := s.projects.erase id }
  | addSuite {suite : Uuid → TestSuite} (hkey : ∀ id, Keyed.key (suite id) = id)
      {auditEvents : List AuditEvent}
      (hproject : s.HasProject (suite s.testSuites.next).projectId) :
      Wrote s { s with testSuites := s.testSuites.add suite hkey, auditEvents }
  | putSuite {k : Uuid} {old new : TestSuite} {auditEvents : List AuditEvent}
      (hget : s.testSuites.get? k = some old) (hproject : new.projectId = old.projectId) :
      Wrote s { s with testSuites := s.testSuites.put new, auditEvents }
  | eraseSuite {id : Uuid} {auditEvents : List AuditEvent} :
      Wrote s { s with testSuites := s.testSuites.erase id, auditEvents }
  | addCase {testCase : Uuid → TestCase} (hkey : ∀ id, Keyed.key (testCase id) = id)
      (hproject : s.HasProject (testCase s.testCases.next).projectId) :
      Wrote s { s with testCases := s.testCases.add testCase hkey }
  | putCase {k : Uuid} {old new : TestCase} (hget : s.testCases.get? k = some old)
      (hid : new.id = old.id) (hproject : new.projectId = old.projectId) :
      Wrote s { s with testCases := s.testCases.put new }
  | eraseCase {id : Uuid} (hplans : ∀ plan ∈ s.testPlans.rows, id ∉ plan.caseIds)
      (hdefects : ∀ defect ∈ s.defects.rows, defect.caseId ≠ some id) :
      Wrote s { s with testCases := s.testCases.erase id }
  | addPlan {plan : Uuid → TestPlan} (hkey : ∀ id, Keyed.key (plan id) = id)
      (hproject : s.HasProject (plan s.testPlans.next).projectId)
      (hcases : ∀ caseId ∈ (plan s.testPlans.next).caseIds,
        s.HasCase (plan s.testPlans.next).projectId caseId) :
      Wrote s { s with testPlans := s.testPlans.add plan hkey }
  | putPlan {k : Uuid} {old new : TestPlan} (hget : s.testPlans.get? k = some old)
      (hproject : new.projectId = old.projectId)
      (hcases : new.caseIds = old.caseIds
        ∨ ∀ caseId ∈ new.caseIds, s.HasCase new.projectId caseId) :
      Wrote s { s with testPlans := s.testPlans.put new }
  | erasePlan {id : Uuid} : Wrote s { s with testPlans := s.testPlans.erase id }
  | addExecution {execution : Uuid → TestExecution} (hkey : ∀ id, Keyed.key (execution id) = id) :
      Wrote s { s with executions := s.executions.add execution hkey }
  | putExecution {k : Uuid} {old new : TestExecution} {testPlans : Table TestPlan}
      (hget : s.executions.get? k = some old) (hid : new.id = old.id)
      (hproject : new.projectId = old.projectId) (hstatus : new.status ≠ .created)
      (hresults : new.results.map (·.caseId) = old.results.map (·.caseId))
      (hplans : ∀ plan ∈ testPlans.rows, plan ∈ s.testPlans.rows ∨ ∃ other ∈ s.testPlans.rows,
        plan.projectId = other.projectId ∧ plan.caseIds = other.caseIds) :
      Wrote s { s with executions := s.executions.put new, testPlans }
  | eraseExecution {id : Uuid}
      (hdefects : ∀ defect ∈ s.defects.rows, defect.executionId ≠ some id) :
      Wrote s { s with executions := s.executions.erase id }
  | addDefect {defect : Uuid → Defect} (hkey : ∀ id, Keyed.key (defect id) = id)
      {auditEvents : List AuditEvent} (hproject : s.HasProject (defect s.defects.next).projectId)
      (hcase : ∀ caseId, (defect s.defects.next).caseId = some caseId →
        s.HasCase (defect s.defects.next).projectId caseId)
      (hexecution : ∀ executionId, (defect s.defects.next).executionId = some executionId →
        ∃ execution, s.executions.get? executionId = some execution
          ∧ Concerns (defect s.defects.next) execution) :
      Wrote s { s with defects := s.defects.add defect hkey, auditEvents }
  | putDefect {k : Uuid} {old new : Defect} {auditEvents : List AuditEvent}
      (hget : s.defects.get? k = some old) (hproject : new.projectId = old.projectId)
      (hcase : new.caseId = old.caseId) (hexecution : new.executionId = old.executionId) :
      Wrote s { s with defects := s.defects.put new, auditEvents }

/-! ## Each call writes so -/

section
variable {c : Context} {s : QaStore}

theorem hasProject_of_ok {message : String} {projectId : Uuid} {project : Project}
    (h : s.requireActiveProject message projectId = .ok project) : s.HasProject projectId :=
  ⟨project, (requireActiveProject_ok h).1⟩

/-- Recording writes nothing but events. -/
theorem Wrote.recorded {α : Type} {casing : Casing} {currentActor : Option ActorIdentity}
    {now : Instant} {record : AuditRecord} {value : α} {written : QaStore}
    (h : ∀ auditEvents, Wrote s { written with auditEvents }) :
    Wrote s (written.recordUnlocked casing currentActor now record value).1 := by
  unfold recordUnlocked
  cases auditEvent casing currentActor now record with
  | error e => exact h written.auditEvents
  | ok event => exact h (written.auditEvents ++ [event])

theorem createProject_wrote (c : Context) (s : QaStore) (payload : ProjectCreate) :
    Wrote s (s.kept (ProjectService.create c s payload)) := by
  refine kept_cases .nothing fun s' project h => ?_
  obtain ⟨_, hunique, h⟩ := bind_eq_ok.mp h
  rw [← (Prod.mk.inj (pure_eq_ok.mp h)).1]
  apply Wrote.addProject (fun _ => rfl)
  intro other hother hsame
  exact refuse_eq_ok.mp hunique ⟨other, hother, Option.some_ne_none _, hsame⟩

theorem updateProject_wrote (c : Context) (s : QaStore) (projectId : Uuid)
    (payload : ProjectUpdate) : Wrote s (s.kept (ProjectService.update c s projectId payload)) := by
  refine kept_cases .nothing fun s' project h => ?_
  obtain ⟨old, hget, h⟩ := bind_eq_ok.mp h
  obtain ⟨-, -, h⟩ := bind_eq_ok.mp h
  rw [← (Prod.mk.inj (pure_eq_ok.mp h)).1]
  exact .putProject (ProjectService.getUnlocked_ok hget) rfl rfl

theorem transitionProject_wrote (c : Context) (s : QaStore) (projectId : Uuid)
    (target : ProjectStatus) :
    Wrote s (s.kept (ProjectService.transition c s projectId target)) := by
  refine kept_cases .nothing fun s' project h => ?_
  obtain ⟨old, hget, h⟩ := bind_eq_ok.mp h
  split at h
  · rw [← (Prod.mk.inj (pure_eq_ok.mp h)).1]
    exact .nothing
  · dsimp only at h
    split at h
    · obtain ⟨-, -, h⟩ := bind_eq_ok.mp h
      obtain ⟨-, -, h⟩ := bind_eq_ok.mp h
      rw [← (Prod.mk.inj (pure_eq_ok.mp h)).1]
      exact .putProject (ProjectService.getUnlocked_ok hget) rfl rfl
    · obtain ⟨-, -, h⟩ := bind_eq_ok.mp h
      rw [← (Prod.mk.inj (pure_eq_ok.mp h)).1]
      exact .putProject (ProjectService.getUnlocked_ok hget) rfl rfl

/-- A project is deleted when nothing is in it. -/
theorem deleteProject_wrote (s : QaStore) (projectId : Uuid) :
    Wrote s (s.kept (ProjectService.delete s projectId)) := by
  refine kept_cases .nothing fun s' id h => ?_
  obtain ⟨old, -, h⟩ := bind_eq_ok.mp h
  obtain ⟨hcases, h⟩ := refuse_bind_eq_ok.mp h
  obtain ⟨hplans, h⟩ := refuse_bind_eq_ok.mp h
  obtain ⟨hdefects, h⟩ := refuse_bind_eq_ok.mp h
  obtain ⟨hsuites, h⟩ := refuse_bind_eq_ok.mp h
  obtain ⟨hsnapshots, h⟩ := refuse_bind_eq_ok.mp h
  rw [← (Prod.mk.inj (pure_eq_ok.mp h)).1]
  exact .eraseProject (fun testCase hmem hin => hcases ⟨testCase, hmem, hin⟩)
    (fun plan hmem hin => hplans ⟨plan, hmem, hin⟩)
    (fun defect hmem hin => hdefects ⟨defect, hmem, hin⟩)
    (fun suite hmem hin => hsuites ⟨suite, hmem, hin⟩) hsnapshots

theorem createSuite_wrote (c : Context) (s : QaStore) (payload : TestSuiteCreate) :
    Wrote s (TestSuiteService.create c s payload).1 := by
  unfold TestSuiteService.create
  cases hcheck : TestSuiteService.checkCreate c s payload with
  | error e => exact .nothing
  | ok result =>
    obtain ⟨projectId, parentId⟩ := result
    obtain ⟨_, -, h⟩ := bind_eq_ok.mp hcheck
    obtain ⟨_, hactive, h⟩ := bind_eq_ok.mp h
    obtain ⟨_, -, h⟩ := bind_eq_ok.mp h
    obtain ⟨_, -, h⟩ := bind_eq_ok.mp h
    obtain ⟨_, -, h⟩ := bind_eq_ok.mp h
    obtain ⟨rfl, rfl⟩ := Prod.mk.inj (pure_eq_ok.mp h)
    exact .recorded fun _ => .addSuite (fun _ => rfl) (hasProject_of_ok hactive)

theorem updateSuite_wrote (c : Context) (s : QaStore) (suiteId : Uuid) (payload : TestSuiteUpdate) :
    Wrote s (TestSuiteService.update c s suiteId payload).1 := by
  rcases TestSuiteService.update_cases c s suiteId payload with
    hsame | ⟨suite, edited, hget, -, hproject, -, -, event, -, hwritten⟩
  · rw [hsame]
    exact .nothing
  · rw [hwritten]
    exact .putSuite hget hproject

theorem transitionSuite_wrote (c : Context) (s : QaStore) (suiteId : Uuid)
    (target : TestSuiteStatus) : Wrote s (TestSuiteService.transition c s suiteId target).1 := by
  rcases TestSuiteService.transition_cases c s suiteId target with
    hsame | ⟨suite, hget, event, -, hwritten⟩
  · rw [hsame]
    exact .nothing
  · rw [hwritten]
    exact .putSuite hget rfl

theorem deleteSuite_wrote (c : Context) (s : QaStore) (suiteId : Uuid) :
    Wrote s (TestSuiteService.delete c s suiteId).1 := by
  rcases TestSuiteService.delete_cases c s suiteId with hsame | ⟨suite, -, -, -, event, -, hwritten⟩
  · rw [hsame]
    exact .nothing
  · rw [hwritten]
    exact .eraseSuite

theorem createCase_wrote (c : Context) (s : QaStore) (payload : TestCaseCreate) :
    Wrote s (s.kept (TestCaseService.create c s payload)) := by
  refine kept_cases .nothing fun s' testCase h => ?_
  obtain ⟨projectId, -, h⟩ := bind_eq_ok.mp h
  obtain ⟨_, hactive, h⟩ := bind_eq_ok.mp h
  obtain ⟨suiteId, -, h⟩ := bind_eq_ok.mp h
  rw [← (Prod.mk.inj (pure_eq_ok.mp h)).1]
  exact .addCase (fun _ => rfl) (hasProject_of_ok hactive)

theorem updateCase_wrote (c : Context) (s : QaStore) (caseId : Uuid) (payload : TestCaseUpdate) :
    Wrote s (s.kept (TestCaseService.update c s caseId payload)) := by
  refine kept_cases .nothing fun s' testCase h => ?_
  obtain ⟨old, hget, hid, hproject, -, -, -, rfl⟩ := TestCaseService.update_ok h
  exact .putCase hget hid hproject

theorem transitionCase_wrote (c : Context) (s : QaStore) (caseId : Uuid) (target : TestCaseStatus) :
    Wrote s (s.kept (TestCaseService.transition c s caseId target)) := by
  refine kept_cases .nothing fun s' testCase h => ?_
  rcases TestCaseService.transition_ok h with rfl | ⟨old, hget, rfl, -, rfl⟩
  · exact .nothing
  · exact .putCase hget rfl rfl

/-- A case is deleted when no plan and no defect names it. -/
theorem deleteCase_wrote (s : QaStore) (caseId : Uuid) :
    Wrote s (s.kept (TestCaseService.delete s caseId)) := by
  refine kept_cases .nothing fun s' id h => ?_
  obtain ⟨old, -, h⟩ := bind_eq_ok.mp h
  obtain ⟨hplans, h⟩ := refuse_bind_eq_ok.mp h
  obtain ⟨hdefects, h⟩ := refuse_bind_eq_ok.mp h
  rw [← (Prod.mk.inj (pure_eq_ok.mp h)).1]
  exact .eraseCase (fun plan hmem hin => hplans ⟨plan, hmem, hin⟩)
    fun defect hmem hin => hdefects ⟨defect, hmem, hin⟩

theorem validateCases_ok {texts : Texts} {projectId : Uuid} {caseIds : List Uuid}
    {requireActive : Bool} {u : Unit}
    (h : TestPlanService.validateCases texts s projectId caseIds requireActive = .ok u) :
    ∀ caseId ∈ caseIds, s.HasCase projectId caseId := by
  obtain ⟨-, h⟩ := refuse_bind_eq_ok.mp h
  intro caseId hmem
  obtain ⟨testCase, hget, h⟩ := bind_eq_ok.mp (forM_eq_ok.mp h caseId hmem)
  obtain ⟨hproject, -⟩ := refuse_bind_eq_ok.mp h
  exact ⟨testCase, demand_eq_ok.mp hget, not_not.mp hproject⟩

theorem createPlan_wrote (c : Context) (s : QaStore) (payload : TestPlanCreate) :
    Wrote s (s.kept (TestPlanService.create c s payload)) := by
  refine kept_cases .nothing fun s' plan h => ?_
  obtain ⟨projectId, -, h⟩ := bind_eq_ok.mp h
  obtain ⟨_, hactive, h⟩ := bind_eq_ok.mp h
  obtain ⟨caseIds, -, h⟩ := bind_eq_ok.mp h
  obtain ⟨_, hcases, h⟩ := bind_eq_ok.mp h
  rw [← (Prod.mk.inj (pure_eq_ok.mp h)).1]
  exact .addPlan (fun _ => rfl) (hasProject_of_ok hactive) (validateCases_ok hcases)

theorem updatePlan_wrote (c : Context) (s : QaStore) (planId : Uuid) (payload : TestPlanUpdate) :
    Wrote s (s.kept (TestPlanService.update c s planId payload)) := by
  refine kept_cases .nothing fun s' plan h => ?_
  obtain ⟨old, hget, h⟩ := bind_eq_ok.mp h
  obtain ⟨-, h⟩ := refuse_bind_eq_ok.mp h
  obtain ⟨caseIds, hcases, h⟩ := bind_eq_ok.mp h
  rw [← (Prod.mk.inj (pure_eq_ok.mp h)).1]
  refine .putPlan (demand_eq_ok.mp hget) rfl ?_
  unfold TestPlanService.newCaseIds at hcases
  split at hcases
  · exact .inl (pure_eq_ok.mp hcases).symm
  · obtain ⟨_, -, hcases⟩ := bind_eq_ok.mp hcases
    obtain ⟨_, hvalid, hcases⟩ := bind_eq_ok.mp hcases
    obtain rfl := pure_eq_ok.mp hcases
    exact .inr (validateCases_ok hvalid)

theorem transitionPlan_wrote (c : Context) (s : QaStore) (planId : Uuid) (target : TestPlanStatus) :
    Wrote s (s.kept (TestPlanService.transition c s planId target)) := by
  refine kept_cases .nothing fun s' plan h => ?_
  rcases TestPlanService.transition_ok h with rfl | ⟨old, _, hget, -, rfl⟩
  · exact .nothing
  · exact .putPlan hget rfl (.inl rfl)

theorem deletePlan_wrote (s : QaStore) (planId : Uuid) :
    Wrote s (s.kept (TestPlanService.delete s planId)) := by
  refine kept_cases .nothing fun s' id h => ?_
  obtain ⟨old, -, -, rfl⟩ := TestPlanService.delete_ok h
  exact .erasePlan

theorem createExecution_wrote (c : Context) (s : QaStore) (planId : UuidText) :
    Wrote s (s.kept (ExecutionService.create c s planId)) := by
  refine kept_cases .nothing fun s' execution h => ?_
  obtain ⟨plan, results, -, -, -, -, -, rfl⟩ := ExecutionService.create_ok h
  exact .addExecution fun _ => rfl

theorem transitionExecution_wrote (c : Context) (s : QaStore) (executionId : Uuid)
    (target : ExecutionStatus) :
    Wrote s (ExecutionService.transition c s executionId target .done .done).1 := by
  rcases ExecutionService.transition_cases c s executionId target with
    hsame | ⟨execution, plan, hprepared, hmoved⟩
  · rw [hsame]
    exact .nothing
  · obtain ⟨hget, -, hplan, _, hcheck⟩ := ExecutionService.prepareTransition_ok hprepared
    have htarget : target ≠ .created := by
      rintro rfl
      cases hcheck
    rw [hmoved]
    refine .putExecution hget ?_ ?_ ?_ ?_ ?_
    · cases target <;> rfl
    · cases target <;> rfl
    · cases target with
      | created => exact absurd rfl htarget
      | running => exact ExecutionStatus.noConfusion
      | completed => exact ExecutionStatus.noConfusion
      | cancelled => exact ExecutionStatus.noConfusion
    · cases target <;> rfl
    · intro p hp
      rcases Table.mem_put hp with rfl | ⟨hold, -⟩
      · exact .inr ⟨plan, Table.mem_of_get? hplan, rfl, rfl⟩
      · exact .inl hold

theorem updateCaseResult_wrote (c : Context) (s : QaStore) (executionId caseId : Uuid)
    (status : CaseResultStatus) (actualResult comment : String) :
    Wrote s (s.kept (ExecutionService.updateCaseResult c s executionId caseId status actualResult
      comment)) := by
  refine kept_cases .nothing fun s' execution h => ?_
  obtain ⟨old, hget, -, hid, -, hproject, hrunning, hresults, rfl⟩ :=
    ExecutionService.updateCaseResult_ok h
  refine .putExecution hget hid hproject ?_ hresults fun plan hplan => .inl hplan
  rw [hrunning]
  exact ExecutionStatus.noConfusion

/-- An execution is deleted when no defect names it. -/
theorem deleteExecution_wrote (s : QaStore) (executionId : Uuid) :
    Wrote s (s.kept (ExecutionService.delete s executionId)) := by
  refine kept_cases .nothing fun s' id h => ?_
  obtain ⟨old, -, h⟩ := bind_eq_ok.mp h
  obtain ⟨-, h⟩ := refuse_bind_eq_ok.mp h
  obtain ⟨hdefects, h⟩ := refuse_bind_eq_ok.mp h
  rw [← (Prod.mk.inj (pure_eq_ok.mp h)).1]
  exact .eraseExecution fun defect hmem hin => hdefects ⟨defect, hmem, hin⟩

theorem associatedCase_ok {projectId : Uuid} {caseId : Option Uuid} {testCase : Option TestCase}
    (h : DefectService.associatedCase s projectId caseId = .ok testCase) :
    ∀ id, caseId = some id →
      ∃ found, testCase = some found ∧ s.testCases.get? id = some found
        ∧ found.projectId = projectId := by
  rintro id rfl
  obtain ⟨found, hget, h⟩ := bind_eq_ok.mp h
  obtain ⟨hproject, h⟩ := refuse_bind_eq_ok.mp h
  exact ⟨found, (pure_eq_ok.mp h).symm, demand_eq_ok.mp hget, not_not.mp hproject⟩

theorem associatedExecution_ok {projectId : Uuid} {executionId : Option Uuid}
    {execution : Option TestExecution}
    (h : DefectService.associatedExecution s projectId executionId = .ok execution) :
    ∀ id, executionId = some id →
      ∃ found, execution = some found ∧ s.executions.get? id = some found
        ∧ found.projectId = projectId ∧ found.status ≠ .created := by
  rintro id rfl
  obtain ⟨found, hget, h⟩ := bind_eq_ok.mp h
  obtain ⟨hproject, h⟩ := refuse_bind_eq_ok.mp h
  obtain ⟨hstatus, h⟩ := refuse_bind_eq_ok.mp h
  exact ⟨found, (pure_eq_ok.mp h).symm, demand_eq_ok.mp hget, not_not.mp hproject, hstatus⟩

theorem createDefect_wrote (c : Context) (s : QaStore) (payload : DefectCreate) :
    Wrote s (DefectService.create c s payload).1 := by
  unfold DefectService.create
  cases hcheck : DefectService.checkCreate s payload with
  | error e => exact .nothing
  | ok result =>
    obtain ⟨projectId, caseId, executionId⟩ := result
    obtain ⟨_, -, h⟩ := bind_eq_ok.mp hcheck
    obtain ⟨_, hactive, h⟩ := bind_eq_ok.mp h
    obtain ⟨_, -, h⟩ := bind_eq_ok.mp h
    obtain ⟨_, -, h⟩ := bind_eq_ok.mp h
    obtain ⟨_, hvalid, h⟩ := bind_eq_ok.mp h
    obtain ⟨rfl, hpair⟩ := Prod.mk.inj (pure_eq_ok.mp h)
    obtain ⟨rfl, rfl⟩ := Prod.mk.inj hpair
    obtain ⟨testCase, hcase, hvalid⟩ := bind_eq_ok.mp hvalid
    obtain ⟨execution, hexecution, hvalid⟩ := bind_eq_ok.mp hvalid
    refine .recorded fun _ => .addDefect (fun _ => rfl) (hasProject_of_ok hactive) ?_ ?_
    · intro id hid
      obtain ⟨found, -, hget, hproject⟩ := associatedCase_ok hcase id hid
      exact ⟨found, hget, hproject⟩
    · intro id hid
      obtain ⟨found, rfl, hget, hproject, hstatus⟩ := associatedExecution_ok hexecution id hid
      refine ⟨found, hget, hproject, hstatus, fun caseId hcaseId => ?_⟩
      obtain ⟨foundCase, rfl, hcaseGet, -⟩ := associatedCase_ok hcase caseId hcaseId
      have hresult := not_not.mp (refuse_eq_ok.mp hvalid)
      rwa [show foundCase.id = caseId from Table.key_of_get? hcaseGet] at hresult

theorem updateDefect_wrote (c : Context) (s : QaStore) (defectId : Uuid) (payload : DefectUpdate) :
    Wrote s (DefectService.update c s defectId payload).1 := by
  rcases DefectService.update_cases c s defectId payload with
    hsame | ⟨defect, hget, -, -, event, -, -, -, hwritten⟩
  · rw [hsame]
    exact .nothing
  · rw [hwritten]
    exact .putDefect hget rfl rfl rfl

/-- A transition does not touch what a defect refers to. -/
theorem moved_refers {now : Instant} {payload : DefectTransition} {defect saved : Defect}
    {fields : List DefectField} (h : DefectService.moved now payload defect = .ok (saved, fields)) :
    saved.projectId = defect.projectId ∧ saved.caseId = defect.caseId
      ∧ saved.executionId = defect.executionId := by
  obtain ⟨-, h⟩ := refuse_bind_eq_ok.mp h
  dsimp only at h
  split at h
  · obtain ⟨-, h⟩ := refuse_bind_eq_ok.mp h
    rw [← (Prod.mk.inj (pure_eq_ok.mp h)).1]
    exact ⟨rfl, rfl, rfl⟩
  · rw [← (Prod.mk.inj (pure_eq_ok.mp h)).1]
    exact ⟨rfl, rfl, rfl⟩
  · obtain ⟨-, h⟩ := refuse_bind_eq_ok.mp h
    rw [← (Prod.mk.inj (pure_eq_ok.mp h)).1]
    exact ⟨rfl, rfl, rfl⟩
  all_goals
    rw [← (Prod.mk.inj (pure_eq_ok.mp h)).1]
    exact ⟨rfl, rfl, rfl⟩

theorem transitionDefect_wrote (c : Context) (s : QaStore) (defectId : Uuid)
    (payload : DefectTransition) : Wrote s (DefectService.transition c s defectId payload).1 := by
  rcases DefectService.transition_cases c s defectId payload with
    hsame | ⟨defect, saved, fields, hget, -, -, hmoved, event, -, -, -, hwritten⟩
  · rw [hsame]
    exact .nothing
  · obtain ⟨hproject, hcase, hexecution⟩ := moved_refers hmoved
    rw [hwritten]
    exact .putDefect hget hproject hcase hexecution

theorem perform_wrote (c : Context) (s : QaStore) {call : QaCall} (h : call.Plain) :
    Wrote s (s.perform c call) := by
  cases call with
  | createProject payload => exact createProject_wrote c s payload
  | updateProject projectId payload => exact updateProject_wrote c s projectId payload
  | transitionProject projectId target => exact transitionProject_wrote c s projectId target
  | deleteProject projectId => exact deleteProject_wrote s projectId
  | createSuite payload => exact createSuite_wrote c s payload
  | updateSuite suiteId payload => exact updateSuite_wrote c s suiteId payload
  | transitionSuite suiteId target => exact transitionSuite_wrote c s suiteId target
  | deleteSuite suiteId => exact deleteSuite_wrote c s suiteId
  | createCase payload => exact createCase_wrote c s payload
  | updateCase caseId payload => exact updateCase_wrote c s caseId payload
  | transitionCase caseId target => exact transitionCase_wrote c s caseId target
  | deleteCase caseId => exact deleteCase_wrote s caseId
  | createSnapshot projectId => exact absurd h id
  | createPlan payload => exact createPlan_wrote c s payload
  | updatePlan planId payload => exact updatePlan_wrote c s planId payload
  | transitionPlan planId target => exact transitionPlan_wrote c s planId target
  | deletePlan planId => exact deletePlan_wrote s planId
  | createExecution planId => exact createExecution_wrote c s planId
  | transitionExecution executionId target => exact transitionExecution_wrote c s executionId target
  | updateCaseResult executionId caseId status actualResult comment =>
    exact updateCaseResult_wrote c s executionId caseId status actualResult comment
  | deleteExecution executionId => exact deleteExecution_wrote s executionId
  | createDefect payload => exact createDefect_wrote c s payload
  | updateDefect defectId payload => exact updateDefect_wrote c s defectId payload
  | transitionDefect defectId payload => exact transitionDefect_wrote c s defectId payload

end

theorem Wrote.snapshots {s s' : QaStore} (h : Wrote s s') : s'.snapshots = s.snapshots := by
  cases h <;> rfl

/-! ## What rows refer to -/

/-- The rows are of projects that are there. -/
abbrev Owned {ρ : Type} [Keyed ρ] (rows : Table ρ) (projects : Table Project)
    (projectOf : ρ → Uuid) : Prop :=
  Refers rows projects (fun r => [projectOf r]) fun _ _ => True

/-- Every row names rows that are there, and no two projects have one key. -/
structure References (s : QaStore) : Prop where
  keys : ∀ project ∈ s.projects.rows, ∀ other ∈ s.projects.rows, project.key = other.key →
    project = other
  suites : Owned s.testSuites s.projects TestSuite.projectId
  cases : Owned s.testCases s.projects TestCase.projectId
  plans : Owned s.testPlans s.projects TestPlan.projectId
  planCases : Refers s.testPlans s.testCases TestPlan.caseIds
    fun plan testCase => testCase.projectId = plan.projectId
  defects : Owned s.defects s.projects Defect.projectId
  defectCases : Refers s.defects s.testCases (fun defect => defect.caseId.toList)
    fun defect testCase => testCase.projectId = defect.projectId
  defectExecutions : Refers s.defects s.executions (fun defect => defect.executionId.toList)
    Concerns
  snapshots : ∀ projectId ∈ s.snapshots, s.HasProject projectId

theorem references_empty : empty.References where
  keys := fun _ h => absurd h List.not_mem_nil
  suites := .empty
  cases := .empty
  plans := .empty
  planCases := .empty
  defects := .empty
  defectCases := .empty
  defectExecutions := .empty
  snapshots := fun _ h => absurd h List.not_mem_nil

section
variable {s : QaStore}

theorem HasProject.owned {projectId : Uuid} (h : s.HasProject projectId) :
    ∀ k ∈ [projectId], ∃ project, s.projects.get? k = some project ∧ True := by
  intro k hk
  obtain rfl := List.mem_singleton.mp hk
  obtain ⟨project, hget⟩ := h
  exact ⟨project, hget, trivial⟩

namespace References

theorem hasProject {ρ : Type} [Keyed ρ] {rows : Table ρ} {projectOf : ρ → Uuid}
    (h : Owned rows s.projects projectOf) {r : ρ} (hr : r ∈ rows.rows) :
    s.HasProject (projectOf r) := by
  obtain ⟨project, hget, -⟩ := h r hr (projectOf r) (List.mem_singleton_self _)
  exact ⟨project, hget⟩

/-- A row is replaced by one of the same project. -/
theorem put_owned {ρ : Type} [Keyed ρ] {rows : Table ρ} {projectOf : ρ → Uuid}
    (h : Owned rows s.projects projectOf) {k : Nat} {old new : ρ} (hget : rows.get? k = some old)
    (hproject : projectOf new = projectOf old) : Owned (rows.put new) s.projects projectOf := by
  apply h.put
  rw [hproject]
  exact (hasProject h (Table.mem_of_get? hget)).owned

/-- What is found under the key of the row that takes its place. -/
theorem get?_key_new {ρ : Type} [Keyed ρ] {rows : Table ρ} {k : Nat} {old new : ρ}
    (hget : rows.get? k = some old) (hkey : Keyed.key new = Keyed.key old) :
    rows.get? (Keyed.key new) = some old := by
  rw [hkey, Table.key_of_get? hget]
  exact hget

theorem addProject (h : s.References) {project : Uuid → Project}
    (hkey : ∀ id, Keyed.key (project id) = id)
    (hunique : ∀ other ∈ s.projects.rows, other.key ≠ (project s.projects.next).key) :
    { s with projects := s.projects.add project hkey }.References where
  keys := by
    intro p hp q hq hsame
    rcases @Table.mem_add _ _ _ _ hkey _ hp with hold | rfl
    · rcases @Table.mem_add _ _ _ _ hkey _ hq with hold' | rfl
      · exact h.keys p hold q hold' hsame
      · exact absurd hsame (hunique p hold)
    · rcases @Table.mem_add _ _ _ _ hkey _ hq with hold' | rfl
      · exact absurd hsame.symm (hunique q hold')
      · rfl
  suites := h.suites.addTarget hkey
  cases := h.cases.addTarget hkey
  plans := h.plans.addTarget hkey
  planCases := h.planCases
  defects := h.defects.addTarget hkey
  defectCases := h.defectCases
  defectExecutions := h.defectExecutions
  snapshots := by
    intro projectId hid
    obtain ⟨found, hget⟩ := h.snapshots projectId hid
    exact ⟨found, @Table.get?_add_old _ _ _ _ hkey _ _ hget⟩

theorem putProject (h : s.References) {k : Uuid} {old new : Project}
    (hget : s.projects.get? k = some old) (hid : new.id = old.id) (hkey : new.key = old.key) :
    { s with projects := s.projects.put new }.References := by
  have hself : s.projects.get? (Keyed.key new) = some old := get?_key_new hget hid
  have hold : old ∈ s.projects.rows := Table.mem_of_get? hget
  refine ⟨?_, h.suites.putTarget hself fun _ _ _ => trivial,
    h.cases.putTarget hself fun _ _ _ => trivial, h.plans.putTarget hself fun _ _ _ => trivial,
    h.planCases, h.defects.putTarget hself fun _ _ _ => trivial, h.defectCases,
    h.defectExecutions, ?_⟩
  · intro p hp q hq hsame
    rcases Table.mem_put hp with rfl | ⟨hpold, hne⟩
    · rcases Table.mem_put hq with rfl | ⟨hqold, hne'⟩
      · rfl
      · have heq := h.keys old hold q hqold (hkey.symm.trans hsame)
        exact absurd (heq ▸ hid.symm) hne'
    · rcases Table.mem_put hq with rfl | ⟨hqold, -⟩
      · have heq := h.keys p hpold old hold (hsame.trans hkey)
        exact absurd (heq ▸ hid.symm) hne
      · exact h.keys p hpold q hqold hsame
  · intro projectId hin
    obtain ⟨found, hfound⟩ := h.snapshots projectId hin
    by_cases hsame : Keyed.key new = projectId
    · exact ⟨new, Table.get?_put_self hfound hsame⟩
    · exact ⟨found, by rw [Table.get?_put_of_ne hsame, hfound]⟩

theorem eraseProject (h : s.References) {id : Uuid}
    (hcases : ∀ testCase ∈ s.testCases.rows, testCase.projectId ≠ id)
    (hplans : ∀ plan ∈ s.testPlans.rows, plan.projectId ≠ id)
    (hdefects : ∀ defect ∈ s.defects.rows, defect.projectId ≠ id)
    (hsuites : ∀ suite ∈ s.testSuites.rows, suite.projectId ≠ id) (hsnapshots : id ∉ s.snapshots) :
    { s with projects := s.projects.erase id }.References := by
  have hunused : ∀ {ρ : Type} {rows : List ρ} {projectOf : ρ → Uuid},
      (∀ r ∈ rows, projectOf r ≠ id) → ∀ r ∈ rows, id ∉ [projectOf r] :=
    fun hne r hr hid => hne r hr (List.mem_singleton.mp hid).symm
  refine ⟨fun p hp q hq => h.keys p (List.mem_of_mem_filter hp) q (List.mem_of_mem_filter hq),
    h.suites.eraseTarget (hunused hsuites), h.cases.eraseTarget (hunused hcases),
    h.plans.eraseTarget (hunused hplans), h.planCases, h.defects.eraseTarget (hunused hdefects),
    h.defectCases, h.defectExecutions, ?_⟩
  intro projectId hid
  obtain ⟨found, hget⟩ := h.snapshots projectId hid
  have hne : id ≠ projectId := fun hsame => hsnapshots (hsame ▸ hid)
  exact ⟨found, by rw [Table.get?_erase, if_neg hne, hget]⟩

theorem wrote (h : s.References) {s' : QaStore} (hwrote : Wrote s s') : s'.References := by
  cases hwrote with
  | nothing => exact h
  | addProject hkey hunique => exact h.addProject hkey hunique
  | putProject hget hid hkey => exact h.putProject hget hid hkey
  | eraseProject hcases hplans hdefects hsuites hsnapshots =>
    exact h.eraseProject hcases hplans hdefects hsuites hsnapshots
  | addSuite hkey hproject => exact { h with suites := h.suites.add hkey hproject.owned }
  | putSuite hget hproject => exact { h with suites := put_owned h.suites hget hproject }
  | eraseSuite => exact { h with suites := h.suites.erase _ }
  -- a row that is added is a target as well as a source
  | addCase hkey hproject =>
    exact { h with
      cases := h.cases.add hkey hproject.owned
      planCases := h.planCases.addTarget hkey
      defectCases := h.defectCases.addTarget hkey }
  | putCase hget hid hproject =>
    have hself := get?_key_new hget hid
    exact { h with
      cases := put_owned h.cases hget hproject
      planCases := h.planCases.putTarget hself fun _ _ hsame => hproject.trans hsame
      defectCases := h.defectCases.putTarget hself fun _ _ hsame => hproject.trans hsame }
  | eraseCase hplans hdefects =>
    have hunused : ∀ defect ∈ s.defects.rows, _ ∉ defect.caseId.toList :=
      fun defect hmem hin => hdefects defect hmem (Option.mem_toList.mp hin)
    exact { h with
      cases := h.cases.erase _
      planCases := h.planCases.eraseTarget hplans
      defectCases := h.defectCases.eraseTarget hunused }
  | addPlan hkey hproject hcases =>
    exact { h with
      plans := h.plans.add hkey hproject.owned
      planCases := h.planCases.add hkey hcases }
  | putPlan hget hproject hcases =>
    refine { h with plans := put_owned h.plans hget hproject, planCases := h.planCases.put ?_ }
    -- the cases are those of before, or they have been looked up
    rcases hcases with hsame | hvalid
    · rw [hsame, hproject]
      exact h.planCases _ (Table.mem_of_get? hget)
    · exact hvalid
  | erasePlan => exact { h with plans := h.plans.erase _, planCases := h.planCases.erase _ }
  | addExecution hkey => exact { h with defectExecutions := h.defectExecutions.addTarget hkey }
  | putExecution hget hid hproject hstatus hresults hplans =>
    refine { h with
      plans := h.plans.write fun plan hplan => (hplans plan hplan).imp_right ?_
      planCases := h.planCases.write fun plan hplan => (hplans plan hplan).imp_right ?_
      defectExecutions := h.defectExecutions.putTarget (get?_key_new hget hid) ?_ }
    -- the plan that goes with an execution keeps its project
    · rintro ⟨other, hother, hsame, -⟩
      rw [hsame]
      exact (hasProject h.plans hother).owned
    · rintro ⟨other, hother, hsame, hcases⟩
      rw [hsame, hcases]
      exact h.planCases other hother
    · rintro defect - ⟨hsame, -, hconcerned⟩
      refine ⟨hproject.trans hsame, hstatus, fun caseId hcase => ?_⟩
      obtain ⟨result, hresult, rfl⟩ := hconcerned caseId hcase
      have hmem := List.mem_map_of_mem (f := fun r : CaseExecutionResult => r.caseId) hresult
      rw [← hresults] at hmem
      exact List.mem_map.mp hmem
  | eraseExecution hdefects =>
    have hunused : ∀ defect ∈ s.defects.rows, _ ∉ defect.executionId.toList :=
      fun defect hmem hin => hdefects defect hmem (Option.mem_toList.mp hin)
    exact { h with defectExecutions := h.defectExecutions.eraseTarget hunused }
  | addDefect hkey hproject hcase hexecution =>
    exact { h with
      defects := h.defects.add hkey hproject.owned
      defectCases := h.defectCases.add hkey fun k hk => hcase k (Option.mem_toList.mp hk)
      defectExecutions := h.defectExecutions.add hkey fun k hk =>
        hexecution k (Option.mem_toList.mp hk) }
  | putDefect hget hproject hcase hexecution =>
    have hold := Table.mem_of_get? hget
    refine { h with
      defects := put_owned h.defects hget hproject
      defectCases := h.defectCases.put ?_
      defectExecutions := h.defectExecutions.put ?_ }
    · rw [hcase, hproject]
      exact h.defectCases _ hold
    · unfold Concerns
      rw [hcase, hproject, hexecution]
      exact h.defectExecutions _ hold

end References

end

end QaStore

end QaPlatform.Services
