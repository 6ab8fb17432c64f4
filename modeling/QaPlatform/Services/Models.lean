import QaPlatform.Base.Guard
import QaPlatform.Base.Table
import QaPlatform.Core

/-!
# Test management

The entities of `app/domain/models.py` and the repositories that keep them. An
operation of a service runs under one business lock and reads the clock once;
identifiers in payloads are texts until a service parses them.
-/

namespace QaPlatform.Services

/-- How a write of a repository ends, which is one transaction: it raises before it takes
effect or, when the caller is cancelled or the answer is lost, after. -/
inductive WriteOutcome where
  | done
  | raisedBefore
  | raisedAfter
deriving DecidableEq, Repr

/-- `ProjectStatus`. -/
inductive ProjectStatus where
  | active
  | archived
deriving DecidableEq, Repr

/-- `TestCaseStatus`. -/
inductive TestCaseStatus where
  | draft
  | active
  | disabled
deriving DecidableEq, Repr

/-- `TestCasePriority`. -/
inductive TestCasePriority where
  | p0
  | p1
  | p2
  | p3
deriving DecidableEq, Repr

/-- `TestCaseType`. -/
inductive TestCaseType where
  | manual
  | automated
deriving DecidableEq, Repr

/-- `TestSuiteStatus`. -/
inductive TestSuiteStatus where
  | active
  | archived
deriving DecidableEq, Repr

/-- `TestPlanStatus`. -/
inductive TestPlanStatus where
  | draft
  | ready
  | running
  | completed
  | cancelled
deriving DecidableEq, Repr

/-- `ExecutionStatus`. -/
inductive ExecutionStatus where
  | created
  | running
  | completed
  | cancelled
deriving DecidableEq, Repr

/-- `CaseResultStatus`. -/
inductive CaseResultStatus where
  | notRun
  | passed
  | failed
  | blocked
  | skipped
deriving DecidableEq, Repr

/-- `DefectStatus`. -/
inductive DefectStatus where
  /-- `OPEN`. -/
  | opened
  | inProgress
  | resolved
  | verified
  | closed
  | reopened
deriving DecidableEq, Repr

/-- `DefectSeverity`. -/
inductive DefectSeverity where
  | blocker
  | critical
  | major
  | minor
  | trivial
deriving DecidableEq, Repr

/-- `DefectPriority`. -/
inductive DefectPriority where
  | p0
  | p1
  | p2
  | p3
deriving DecidableEq, Repr

/-- `AuditAction`. -/
inductive AuditAction where
  | created
  | updated
  | statusChanged
  | deleted
  | snapshotCreated
deriving DecidableEq, Repr

/-! ## Entities -/

/-- A step of a test case. -/
structure TestStep where
  action : String
  expectedResult : String
deriving DecidableEq

/-- The row of a project. -/
structure Project where
  id : Uuid
  key : String
  name : String
  description : String
  status : ProjectStatus
  createdAt : Instant
  updatedAt : Instant
deriving DecidableEq

/-- The row of a test case. -/
structure TestCase where
  id : Uuid
  projectId : Uuid
  suiteId : Option Uuid
  title : String
  preconditions : String
  steps : List TestStep
  priority : TestCasePriority
  caseType : TestCaseType
  status : TestCaseStatus
  tags : List String
  createdAt : Instant
  updatedAt : Instant
deriving DecidableEq

/-- The row of a suite. -/
structure TestSuite where
  id : Uuid
  projectId : Uuid
  parentId : Option Uuid
  name : String
  description : String
  status : TestSuiteStatus
  position : Int
  createdAt : Instant
  updatedAt : Instant
deriving DecidableEq

/-- The row of a test plan, with the cases it selects. -/
structure TestPlan where
  id : Uuid
  projectId : Uuid
  name : String
  description : String
  caseIds : List Uuid
  status : TestPlanStatus
  createdAt : Instant
  updatedAt : Instant
deriving DecidableEq

/-- The result of one case of an execution. -/
structure CaseExecutionResult where
  caseId : Uuid
  caseTitle : String
  status : CaseResultStatus
  actualResult : String
  comment : String
  executedAt : Option Instant
deriving DecidableEq

/-- The row of an execution, with the results of its cases. -/
structure TestExecution where
  id : Uuid
  planId : Uuid
  projectId : Uuid
  status : ExecutionStatus
  results : List CaseExecutionResult
  createdAt : Instant
  updatedAt : Instant
  startedAt : Option Instant
  completedAt : Option Instant
deriving DecidableEq

/-- The row of a defect. -/
structure Defect where
  id : Uuid
  projectId : Uuid
  caseId : Option Uuid
  executionId : Option Uuid
  title : String
  description : String
  severity : DefectSeverity
  priority : DefectPriority
  status : DefectStatus
  reporter : String
  assignee : String
  environment : String
  reproductionSteps : List String
  expectedResult : String
  actualResult : String
  resolution : String
  createdAt : Instant
  updatedAt : Instant
  resolvedAt : Option Instant
  closedAt : Option Instant
deriving DecidableEq

/-- A value of an audit change. -/
inductive AuditValue where
  | null
  | text (value : String)
  | number (value : Int)
  | list (values : List String)
deriving DecidableEq

/-- A field before and after. -/
structure AuditChange where
  before : AuditValue
  after : AuditValue
deriving DecidableEq

/-- The row of an audit event. -/
structure AuditEvent where
  projectId : Option Uuid
  entityType : String
  /-- The text of a UUID is kept as the UUID. -/
  entityId : Uuid
  action : AuditAction
  actor : String
  actorUserId : Option Uuid
  /-- A dictionary: no name comes twice. -/
  changes : List (String × AuditChange)
  comment : String
  createdAt : Instant

instance : Keyed Project := ⟨Project.id⟩
instance : Keyed TestCase := ⟨TestCase.id⟩
instance : Keyed TestSuite := ⟨TestSuite.id⟩
instance : Keyed TestPlan := ⟨TestPlan.id⟩
instance : Keyed TestExecution := ⟨TestExecution.id⟩
instance : Keyed Defect := ⟨Defect.id⟩

@[simp] theorem Project.key_eq (r : Project) : Keyed.key r = r.id := rfl

@[simp] theorem TestCase.key_eq (r : TestCase) : Keyed.key r = r.id := rfl

@[simp] theorem TestSuite.key_eq (r : TestSuite) : Keyed.key r = r.id := rfl

@[simp] theorem TestPlan.key_eq (r : TestPlan) : Keyed.key r = r.id := rfl

@[simp] theorem TestExecution.key_eq (r : TestExecution) : Keyed.key r = r.id := rfl

@[simp] theorem Defect.key_eq (r : Defect) : Keyed.key r = r.id := rfl

/-- What the repositories hold. -/
structure QaStore where
  projects : Table Project
  testCases : Table TestCase
  testSuites : Table TestSuite
  testPlans : Table TestPlan
  executions : Table TestExecution
  defects : Table Defect
  /-- The projects that have snapshots of their cases. -/
  snapshots : List Uuid
  /-- Oldest first. -/
  auditEvents : List AuditEvent

/-- Nothing is stored. -/
def QaStore.empty : QaStore := ⟨.empty, .empty, .empty, .empty, .empty, .empty, [], []⟩

/-! ## What the services share -/

/-- A text, and the UUID it is one of, if it is one. -/
structure UuidText where
  text : String
  uuid : Option Uuid

/-- `parse_uuid`. -/
def parseUuid (value : UuidText) (fieldName : String) : Except DomainError Uuid :=
  demand (.businessValidation (fieldName ++ " 不是有效 UUID: " ++ value.text)) value.uuid

/-- The same for a field that may be `None`. -/
def parseUuid? (value : Option UuidText) (fieldName : String) : Except DomainError (Option Uuid) :=
  match value with
  | none => return none
  | some value => (parseUuid value fieldName).map some

/-- What Python's strings know of upper and lower case. -/
structure Casing where
  upper : String → String
  lower : String → String
  casefold : String → String
  lower_lower : ∀ value, value.toList.all (fun c => c.isLower ∨ c = '_') = true →
    lower value = value

/-- `_require_active_project`, with the message of the service. -/
def QaStore.requireActiveProject (s : QaStore) (message : String) (projectId : Uuid) :
    Except DomainError Project := do
  let project ← demand (.notFound "项目" projectId) (s.projects.get? projectId)
  refuse (project.status ≠ .active) (.invalidState message)
  return project

/-- The project is there and not archived. -/
def QaStore.ActiveProject (s : QaStore) (projectId : Uuid) : Prop :=
  ∃ project, s.projects.get? projectId = some project ∧ project.status = .active

theorem QaStore.requireActiveProject_ok {s : QaStore} {message : String} {projectId : Uuid}
    {project : Project} (h : s.requireActiveProject message projectId = .ok project) :
    s.projects.get? projectId = some project ∧ project.status = .active := by
  obtain ⟨project', hget, h⟩ := bind_eq_ok.mp h
  obtain ⟨hactive, h⟩ := refuse_bind_eq_ok.mp h
  obtain rfl := pure_eq_ok.mp h
  exact ⟨demand_eq_ok.mp hget, not_not.mp hactive⟩

end QaPlatform.Services
