import QaPlatform.Services.Suites

/-!
# Projects, plans and executions

`ProjectService`, `TestPlanService` and `ExecutionService` (`app/services`). A
transition of an execution writes the plan first and the execution second, through
two repositories that commit on their own: each write may raise, with its row
written or not.
-/

namespace QaPlatform.Services

/-! ## Projects -/

/-- `ProjectCreate`. -/
structure ProjectCreate where
  key : String
  name : String
  description : String

/-- `ProjectUpdate`. -/
structure ProjectUpdate where
  name : Option String
  description : Option String

/-- The statuses of a plan that hold a project back. -/
def TestPlanStatus.IsActive (status : TestPlanStatus) : Prop :=
  status = .draft ∨ status = .ready ∨ status = .running

instance (status : TestPlanStatus) : Decidable status.IsActive := by
  unfold TestPlanStatus.IsActive
  infer_instance

/-- The statuses of an execution that hold a project back. -/
def ExecutionStatus.IsActive (status : ExecutionStatus) : Prop :=
  status = .created ∨ status = .running

instance (status : ExecutionStatus) : Decidable status.IsActive := by
  unfold ExecutionStatus.IsActive
  infer_instance

namespace ProjectService

/-- `_get_unlocked` of projects. -/
def getUnlocked (s : QaStore) (projectId : Uuid) : Except DomainError Project :=
  demand (.notFound "项目" projectId) (s.projects.get? projectId)

/-- `_ensure_unique` of the repository, for `key`. -/
def ensureUnique (s : QaStore) (project : Project) (excludeId : Option Uuid) :
    Except DomainError Unit :=
  refuse (∃ existing ∈ s.projects.rows, some existing.id ≠ excludeId ∧ existing.key = project.key)
    (.conflict ("字段 key 的值已存在: " ++ project.key))

/-- The project that `create` builds. -/
def createdProject (c : Context) (payload : ProjectCreate) (id : Uuid) : Project :=
  { id, key := c.casing.upper payload.key, name := payload.name, description := payload.description
    status := .active, createdAt := c.now, updatedAt := c.now }

/-- `create` of projects. -/
def create (c : Context) (s : QaStore) (payload : ProjectCreate) :
    Except DomainError (QaStore × Project) := do
  let project := createdProject c payload s.projects.next
  ensureUnique s project none
  return ({ s with projects := s.projects.add (createdProject c payload) }, project)

/-- `update` of projects. -/
def update (c : Context) (s : QaStore) (projectId : Uuid) (payload : ProjectUpdate) :
    Except DomainError (QaStore × Project) := do
  let project ← getUnlocked s projectId
  let updated := { project with
    name := payload.name.getD project.name
    description := payload.description.getD project.description
    updatedAt := c.now }
  ensureUnique s updated (some projectId)
  return ({ s with projects := s.projects.put updated }, updated)

/-- `_ensure_project_has_no_active_work`. -/
def ensureProjectHasNoActiveWork (s : QaStore) (projectId : Uuid) : Except DomainError Unit := do
  refuse (∃ plan ∈ s.testPlans.rows, plan.projectId = projectId ∧ plan.status.IsActive)
    (.conflict "项目仍有未结束的测试计划，不能归档")
  refuse (∃ execution ∈ s.executions.rows,
      execution.projectId = projectId ∧ execution.status.IsActive)
    (.conflict "项目仍有未结束的测试执行，不能归档")
  refuse (∃ defect ∈ s.defects.rows, defect.projectId = projectId ∧ defect.status ≠ .closed)
    (.conflict "项目仍有未关闭缺陷，不能归档")

/-- `transition` of projects. -/
def transition (c : Context) (s : QaStore) (projectId : Uuid) (target : ProjectStatus) :
    Except DomainError (QaStore × Project) := do
  let project ← getUnlocked s projectId
  if project.status = target then return (s, project)
  else do
    if target = .archived then ensureProjectHasNoActiveWork s project.id
    let updated := { project with status := target, updatedAt := c.now }
    ensureUnique s updated (some projectId)
    return ({ s with projects := s.projects.put updated }, updated)

/-- `delete` of projects. -/
def delete (s : QaStore) (projectId : Uuid) : Except DomainError (QaStore × Uuid) := do
  let project ← getUnlocked s projectId
  refuse (∃ testCase ∈ s.testCases.rows, testCase.projectId = project.id)
    (.conflict "项目仍有关联测试用例，不能删除")
  refuse (∃ plan ∈ s.testPlans.rows, plan.projectId = project.id)
    (.conflict "项目仍有关联测试计划，不能删除")
  refuse (∃ defect ∈ s.defects.rows, defect.projectId = project.id)
    (.conflict "项目仍有关联缺陷，不能删除")
  refuse (∃ suite ∈ s.testSuites.rows, suite.projectId = project.id)
    (.conflict "项目仍有关联测试套件，不能删除")
  refuse (project.id ∈ s.snapshots) (.conflict "项目仍有测试用例快照，不能删除")
  return ({ s with projects := s.projects.erase project.id }, project.id)

end ProjectService

/-! ## Plans -/

/-- `TestPlanCreate`. -/
structure TestPlanCreate where
  projectId : UuidText
  name : String
  description : String
  caseIds : List UuidText

/-- `TestPlanUpdate`. -/
structure TestPlanUpdate where
  name : Option String
  description : Option String
  caseIds : Option (List UuidText)

/-- The values of `TestPlanStatus`. -/
def TestPlanStatus.value : TestPlanStatus → String
  | .draft => "draft"
  | .ready => "ready"
  | .running => "running"
  | .completed => "completed"
  | .cancelled => "cancelled"

namespace TestPlanService

/-- `_USER_TRANSITIONS`. -/
def userTransitions : TestPlanStatus → List TestPlanStatus
  | .draft => [.ready]
  | .ready => [.draft]
  | .running | .completed | .cancelled => []

/-- `_get_unlocked` of test plans. -/
def getUnlocked (s : QaStore) (planId : Uuid) : Except DomainError TestPlan :=
  demand (.notFound "测试计划" planId) (s.testPlans.get? planId)

/-- `_require_active_project` of test plans. -/
def requireActiveProject (s : QaStore) (projectId : Uuid) : Except DomainError Project :=
  s.requireActiveProject "已归档项目不能创建或执行测试计划" projectId

/-- The check of one case. -/
def validateCase (texts : Texts) (s : QaStore) (projectId : Uuid) (requireActive : Bool)
    (caseId : Uuid) : Except DomainError Unit := do
  let testCase ← demand (.notFound "测试用例" caseId) (s.testCases.get? caseId)
  refuse (testCase.projectId ≠ projectId) (.conflict "测试计划只能引用同一项目中的测试用例")
  refuse (requireActive = true ∧ testCase.status ≠ .active)
    (.invalidState ("测试用例未启用: " ++ texts.uuid caseId))

/-- `_validate_cases`. -/
def validateCases (texts : Texts) (s : QaStore) (projectId : Uuid) (caseIds : List Uuid)
    (requireActive : Bool) : Except DomainError Unit := do
  refuse (¬ caseIds.Nodup) (.conflict "测试计划不能包含重复用例")
  caseIds.forM (validateCase texts s projectId requireActive)

/-- The cases of a payload. -/
def parseCaseIds (caseIds : List UuidText) : Except DomainError (List Uuid) :=
  caseIds.mapM (parseUuid · "case_id")

/-- The plan that `create` builds. -/
def createdPlan (c : Context) (payload : TestPlanCreate) (projectId : Uuid) (caseIds : List Uuid)
    (id : Uuid) : TestPlan :=
  { id, projectId, name := payload.name, description := payload.description, caseIds
    status := .draft, createdAt := c.now, updatedAt := c.now }

/-- `create` of test plans. -/
def create (c : Context) (s : QaStore) (payload : TestPlanCreate) :
    Except DomainError (QaStore × TestPlan) := do
  let projectId ← parseUuid payload.projectId "project_id"
  let _ ← requireActiveProject s projectId
  let caseIds ← parseCaseIds payload.caseIds
  validateCases c.texts s projectId caseIds false
  return ({ s with testPlans := s.testPlans.add (createdPlan c payload projectId caseIds) },
    createdPlan c payload projectId caseIds s.testPlans.next)

/-- The cases that a payload asks for, validated. -/
def newCaseIds (c : Context) (s : QaStore) (payload : TestPlanUpdate) (plan : TestPlan) :
    Except DomainError (List Uuid) :=
  match payload.caseIds with
  | none => return plan.caseIds
  | some caseIds => do
    let caseIds ← parseCaseIds caseIds
    validateCases c.texts s plan.projectId caseIds false
    return caseIds

/-- `update` of test plans. -/
def update (c : Context) (s : QaStore) (planId : Uuid) (payload : TestPlanUpdate) :
    Except DomainError (QaStore × TestPlan) := do
  let plan ← getUnlocked s planId
  refuse (plan.status ≠ .draft) (.invalidState "只有草稿测试计划可以编辑")
  let caseIds ← newCaseIds c s payload plan
  let updated := { plan with
    name := payload.name.getD plan.name
    description := payload.description.getD plan.description
    caseIds
    updatedAt := c.now }
  return ({ s with testPlans := s.testPlans.put updated }, updated)

/-- `_set_status_unlocked`: the row it writes. -/
def withStatus (now : Instant) (target : TestPlanStatus) (plan : TestPlan) : TestPlan :=
  { plan with status := target, updatedAt := now }

/-- What a user may not do to a plan. -/
def checkTransition (c : Context) (s : QaStore) (plan : TestPlan) (target : TestPlanStatus) :
    Except DomainError Unit := do
  refuse (target ∉ userTransitions plan.status)
    (.invalidState ("测试计划不能从 " ++ plan.status.value ++ " 变为 " ++ target.value))
  if target = .ready then do
    let _ ← requireActiveProject s plan.projectId
    refuse (plan.caseIds = []) (.invalidState "空测试计划不能进入就绪状态")
    validateCases c.texts s plan.projectId plan.caseIds true
  if target = .draft then
    refuse (∃ execution ∈ s.executions.rows, execution.planId = plan.id)
      (.invalidState "已有执行记录的测试计划不能退回草稿")

/-- `transition` of test plans. -/
def transition (c : Context) (s : QaStore) (planId : Uuid) (target : TestPlanStatus) :
    Except DomainError (QaStore × TestPlan) := do
  let plan ← getUnlocked s planId
  if plan.status = target then return (s, plan)
  else do
    checkTransition c s plan target
    let plan ← getUnlocked s plan.id
    return ({ s with testPlans := s.testPlans.put (withStatus c.now target plan) },
      withStatus c.now target plan)

/-- `delete` of test plans. -/
def delete (s : QaStore) (planId : Uuid) : Except DomainError (QaStore × Uuid) := do
  let plan ← getUnlocked s planId
  refuse (plan.status ≠ .draft ∧ plan.status ≠ .ready) (.invalidState "运行过的测试计划不能删除")
  refuse (∃ execution ∈ s.executions.rows, execution.planId = plan.id)
    (.conflict "测试计划已有执行记录，不能删除")
  return ({ s with testPlans := s.testPlans.erase plan.id }, plan.id)

end TestPlanService

/-! ## Executions -/

/-- The values of `ExecutionStatus`. -/
def ExecutionStatus.value : ExecutionStatus → String
  | .created => "created"
  | .running => "running"
  | .completed => "completed"
  | .cancelled => "cancelled"

/-- A service raises its own errors, and those of the storage. -/
inductive ServiceError where
  | domain (error : DomainError)
  | storage
deriving DecidableEq, Repr

namespace ExecutionService

/-- `_get_unlocked` of executions. -/
def getUnlocked (s : QaStore) (executionId : Uuid) : Except DomainError TestExecution :=
  demand (.notFound "测试执行" executionId) (s.executions.get? executionId)

/-- `_require_active_project` of executions. -/
def requireActiveProject (s : QaStore) (projectId : Uuid) : Except DomainError Project :=
  s.requireActiveProject "已归档项目不能创建或开始测试执行" projectId

/-- The result of one case before it has run. -/
def newResult (s : QaStore) (caseId : Uuid) : Except DomainError CaseExecutionResult := do
  let testCase ← demand (.notFound "测试用例" caseId) (s.testCases.get? caseId)
  return { caseId := testCase.id, caseTitle := testCase.title, status := .notRun
           actualResult := "", comment := "", executedAt := none }

/-- The execution that `create` builds. -/
def createdExecution (c : Context) (plan : TestPlan) (results : List CaseExecutionResult)
    (id : Uuid) : TestExecution :=
  { id, planId := plan.id, projectId := plan.projectId, status := .created, results
    createdAt := c.now, updatedAt := c.now, startedAt := none, completedAt := none }

/-- `create` of executions. -/
def create (c : Context) (s : QaStore) (planId : UuidText) :
    Except DomainError (QaStore × TestExecution) := do
  let planId ← parseUuid planId "plan_id"
  let plan ← TestPlanService.getUnlocked s planId
  let _ ← requireActiveProject s plan.projectId
  refuse (plan.status ≠ .ready) (.invalidState "只有就绪测试计划可以创建执行")
  refuse (∃ execution ∈ s.executions.rows, execution.planId = plan.id)
    (.conflict "该测试计划已经存在执行记录")
  let results ← plan.caseIds.mapM (newResult s)
  return ({ s with executions := s.executions.add (createdExecution c plan results) },
    createdExecution c plan results s.executions.next)

/-- The status that the plan gets. -/
def planStatus : ExecutionStatus → TestPlanStatus
  | .created => .ready
  | .running => .running
  | .completed => .completed
  | .cancelled => .cancelled

/-- The execution with a new status. -/
def withStatus (now : Instant) (target : ExecutionStatus) (execution : TestExecution) :
    TestExecution :=
  match target with
  | .created => execution
  | .running =>
    { execution with status := .running, startedAt := some now, updatedAt := now }
  | .completed =>
    { execution with status := .completed, completedAt := some now, updatedAt := now }
  | .cancelled =>
    { execution with status := .cancelled, completedAt := some now, updatedAt := now }

/-- What stands in the way of a transition. -/
def checkTransition (s : QaStore) (execution : TestExecution) :
    ExecutionStatus → Except DomainError Unit
  | .running => do
    refuse (execution.status ≠ .created) (.invalidState "只有新建执行可以开始")
    let _ ← requireActiveProject s execution.projectId
    let plan ← TestPlanService.getUnlocked s execution.planId
    refuse (plan.status ≠ .ready) (.invalidState "关联测试计划已不在就绪状态")
  | .completed => do
    refuse (execution.status ≠ .running) (.invalidState "只有运行中的执行可以完成")
    refuse (∃ result ∈ execution.results, result.status = .notRun)
      (.invalidState "仍有未执行用例，不能完成测试执行")
  | .cancelled =>
    refuse (execution.status ≠ .created ∧ execution.status ≠ .running)
      (.invalidState "当前测试执行不能取消")
  | .created => .error (.invalidState "不支持转换到状态: created")

/-- The execution and the plan of a transition that may be made; nothing when the execution
has the status. -/
def prepareTransition (s : QaStore) (executionId : Uuid) (target : ExecutionStatus) :
    Except DomainError (TestExecution × Option TestPlan) := do
  let execution ← getUnlocked s executionId
  if execution.status = target then return (execution, none)
  else do
    checkTransition s execution target
    let plan ← TestPlanService.getUnlocked s execution.planId
    return (execution, some plan)

/-- `transition`, with the outcomes of its two writes. -/
def transition (c : Context) (s : QaStore) (executionId : Uuid) (target : ExecutionStatus)
    (planWrite executionWrite : WriteOutcome) : QaStore × Except ServiceError TestExecution :=
  match prepareTransition s executionId target with
  | .error error => (s, .error (.domain error))
  | .ok (execution, none) => (s, .ok execution)
  | .ok (execution, some plan) =>
    let planned := { s with
      testPlans := s.testPlans.put (TestPlanService.withStatus c.now (planStatus target) plan) }
    let updated := withStatus c.now target execution
    let moved := { planned with executions := s.executions.put updated }
    match planWrite, executionWrite with
    | .raisedBefore, _ => (s, .error .storage)
    | .raisedAfter, _ => (planned, .error .storage)
    | .done, .raisedBefore => (planned, .error .storage)
    | .done, .raisedAfter => (moved, .error .storage)
    | .done, .done => (moved, .ok updated)

/-- The result of a case that has run. -/
def recorded (now : Instant) (status : CaseResultStatus) (actualResult comment : String)
    (result : CaseExecutionResult) : CaseExecutionResult :=
  { result with status, actualResult, comment, executedAt := some now }

/-- `update_case_result`. -/
def updateCaseResult (c : Context) (s : QaStore) (executionId caseId : Uuid)
    (status : CaseResultStatus) (actualResult comment : String) :
    Except DomainError (QaStore × TestExecution) := do
  let execution ← getUnlocked s executionId
  refuse (execution.status ≠ .running) (.invalidState "只有运行中的执行可以记录用例结果")
  refuse (status = .notRun) (.invalidState "不能把执行结果更新为 not_run")
  let results := execution.results.map fun result =>
    if result.caseId = caseId then recorded c.now status actualResult comment result else result
  refuse (¬ ∃ result ∈ execution.results, result.caseId = caseId)
    (.notFound "执行中的测试用例" caseId)
  let updated := { execution with results, updatedAt := c.now }
  return ({ s with executions := s.executions.put updated }, updated)

/-- `delete` of executions. -/
def delete (s : QaStore) (executionId : Uuid) : Except DomainError (QaStore × Uuid) := do
  let execution ← getUnlocked s executionId
  refuse (execution.status ≠ .created) (.invalidState "只有尚未开始的测试执行可以删除")
  refuse (∃ defect ∈ s.defects.rows, defect.executionId = some execution.id)
    (.conflict "测试执行已被缺陷引用，不能删除")
  return ({ s with executions := s.executions.erase execution.id }, execution.id)

end ExecutionService

end QaPlatform.Services
