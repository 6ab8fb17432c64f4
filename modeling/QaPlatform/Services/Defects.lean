import QaPlatform.Services.Plans

/-!
# Defects

`DefectService` (`app/services/defects.py`). Every operation that writes a defect
records what it changed, field by field, with the values written as they are in JSON.
-/

namespace QaPlatform.Services

/-- `DefectCreate`. -/
structure DefectCreate where
  projectId : UuidText
  caseId : Option UuidText
  executionId : Option UuidText
  title : String
  description : String
  severity : DefectSeverity
  priority : DefectPriority
  reporter : String
  assignee : String
  environment : String
  reproductionSteps : List String
  expectedResult : String
  actualResult : String

/-- A field that is `None` is left alone. -/
structure DefectUpdate where
  title : Option String
  description : Option String
  severity : Option DefectSeverity
  priority : Option DefectPriority
  assignee : Option String
  environment : Option String
  reproductionSteps : Option (List String)
  expectedResult : Option String
  actualResult : Option String

/-- The schema bounds the comment and strips it. -/
structure DefectTransition where
  status : DefectStatus
  resolution : Option String
  comment : String
  comment_short : comment.length ≤ 1000

/-- The text of a status. -/
def DefectStatus.value : DefectStatus → String
  | .opened => "open"
  | .inProgress => "in_progress"
  | .resolved => "resolved"
  | .verified => "verified"
  | .closed => "closed"
  | .reopened => "reopened"

/-- The text of a severity. -/
def DefectSeverity.value : DefectSeverity → String
  | .blocker => "blocker"
  | .critical => "critical"
  | .major => "major"
  | .minor => "minor"
  | .trivial => "trivial"

/-- The text of a priority. -/
def DefectPriority.value : DefectPriority → String
  | .p0 => "P0"
  | .p1 => "P1"
  | .p2 => "P2"
  | .p3 => "P3"

/-- The fields that are audited. -/
inductive DefectField where
  | projectId
  | caseId
  | executionId
  | title
  | description
  | severity
  | priority
  | status
  | reporter
  | assignee
  | environment
  | reproductionSteps
  | expectedResult
  | actualResult
  | resolution
  | resolvedAt
  | closedAt
deriving DecidableEq, Repr

namespace DefectField

/-- `_AUDITED_FIELDS`. -/
def all : List DefectField :=
  [.projectId, .caseId, .executionId, .title, .description, .severity, .priority,
    .status, .reporter,
    .assignee, .environment, .reproductionSteps, .expectedResult, .actualResult, .resolution,
    .resolvedAt, .closedAt]

/-- The name of a field, as the audit trail has it. -/
def name : DefectField → String
  | .projectId => "project_id"
  | .caseId => "case_id"
  | .executionId => "execution_id"
  | .title => "title"
  | .description => "description"
  | .severity => "severity"
  | .priority => "priority"
  | .status => "status"
  | .reporter => "reporter"
  | .assignee => "assignee"
  | .environment => "environment"
  | .reproductionSteps => "reproduction_steps"
  | .expectedResult => "expected_result"
  | .actualResult => "actual_result"
  | .resolution => "resolution"
  | .resolvedAt => "resolved_at"
  | .closedAt => "closed_at"

theorem mem_all (field : DefectField) : field ∈ all := by
  cases field <;> decide

theorem name_injective {a b : DefectField} (h : a.name = b.name) : a = b := by
  revert h
  cases a <;> cases b <;> decide

end DefectField

namespace DefectService

/-- `_TRANSITIONS`. -/
def transitions : DefectStatus → List DefectStatus
  | .opened => [.inProgress, .resolved]
  | .inProgress => [.opened, .resolved]
  | .resolved => [.verified, .reopened]
  | .verified => [.closed, .reopened]
  | .closed => [.reopened]
  | .reopened => [.inProgress, .resolved]

/-- `_audit_value` of a field. -/
def auditValue (texts : Texts) (defect : Defect) : DefectField → AuditValue
  | .projectId => .text (texts.uuid defect.projectId)
  | .caseId => defect.caseId.elim .null fun id => .text (texts.uuid id)
  | .executionId => defect.executionId.elim .null fun id => .text (texts.uuid id)
  | .title => .text defect.title
  | .description => .text defect.description
  | .severity => .text defect.severity.value
  | .priority => .text defect.priority.value
  | .status => .text defect.status.value
  | .reporter => .text defect.reporter
  | .assignee => .text defect.assignee
  | .environment => .text defect.environment
  | .reproductionSteps => .list defect.reproductionSteps
  | .expectedResult => .text defect.expectedResult
  | .actualResult => .text defect.actualResult
  | .resolution => .text defect.resolution
  | .resolvedAt => defect.resolvedAt.elim .null fun t => .text (texts.isoformat t)
  | .closedAt => defect.closedAt.elim .null fun t => .text (texts.isoformat t)

/-- `getattr(before, field) == getattr(after, field)`. -/
def SameField (before after : Defect) : DefectField → Prop
  | .projectId => before.projectId = after.projectId
  | .caseId => before.caseId = after.caseId
  | .executionId => before.executionId = after.executionId
  | .title => before.title = after.title
  | .description => before.description = after.description
  | .severity => before.severity = after.severity
  | .priority => before.priority = after.priority
  | .status => before.status = after.status
  | .reporter => before.reporter = after.reporter
  | .assignee => before.assignee = after.assignee
  | .environment => before.environment = after.environment
  | .reproductionSteps => before.reproductionSteps = after.reproductionSteps
  | .expectedResult => before.expectedResult = after.expectedResult
  | .actualResult => before.actualResult = after.actualResult
  | .resolution => before.resolution = after.resolution
  | .resolvedAt => before.resolvedAt = after.resolvedAt
  | .closedAt => before.closedAt = after.closedAt

instance (before after : Defect) (field : DefectField) :
    Decidable (SameField before after field) := by
  cases field <;> unfold SameField <;> infer_instance

/-- `_creation_changes`. -/
def creationChanges (texts : Texts) (defect : Defect) : List (String × AuditChange) :=
  DefectField.all.map fun field => (field.name, ⟨.null, auditValue texts defect field⟩)

/-- `_changes_between`. -/
def changesBetween (texts : Texts) (before after : Defect) (fields : List DefectField) :
    List (String × AuditChange) :=
  (fields.filter fun field => ¬ SameField before after field).map fun field =>
    (field.name, ⟨auditValue texts before field, auditValue texts after field⟩)

/-- An event about a defect. -/
def audit (defect : Defect) (action : AuditAction) (changes : List (String × AuditChange))
    (comment : String) : AuditRecord where
  projectId := defect.projectId
  entityType := "defect"
  entityId := defect.id
  action := action
  changes := changes
  comment := comment

/-- `_get_unlocked`. -/
def getUnlocked (s : QaStore) (defectId : Uuid) : Except DomainError Defect :=
  demand (.notFound "缺陷" defectId) (s.defects.get? defectId)

/-- `_require_active_project`. -/
def requireActiveProject (s : QaStore) (projectId : Uuid) : Except DomainError Project :=
  s.requireActiveProject "已归档项目不能新增或变更缺陷" projectId

/-- The case of a defect, which has to be of the same project. -/
def associatedCase (s : QaStore) (projectId : Uuid) :
    Option Uuid → Except DomainError (Option TestCase)
  | none => return none
  | some caseId => do
    let testCase ← demand (.notFound "测试用例" caseId) (s.testCases.get? caseId)
    refuse (testCase.projectId ≠ projectId) (.conflict "缺陷只能关联同一项目中的测试用例")
    return some testCase

/-- The execution of a defect, which has to be of the same project. -/
def associatedExecution (s : QaStore) (projectId : Uuid) :
    Option Uuid → Except DomainError (Option TestExecution)
  | none => return none
  | some executionId => do
    let execution ← demand (.notFound "测试执行" executionId) (s.executions.get? executionId)
    refuse (execution.projectId ≠ projectId) (.conflict "缺陷只能关联同一项目中的测试执行")
    refuse (execution.status = .created) (.invalidState "尚未开始的测试执行不能关联缺陷")
    return some execution

/-- `_validate_associations`. -/
def validateAssociations (s : QaStore) (projectId : Uuid) (caseId executionId : Option Uuid) :
    Except DomainError Unit := do
  let testCase ← associatedCase s projectId caseId
  let execution ← associatedExecution s projectId executionId
  match testCase, execution with
  | some testCase, some execution =>
    refuse (¬ ∃ result ∈ execution.results, result.caseId = testCase.id)
      (.conflict "关联测试用例不属于指定测试执行")
  | _, _ => return ()

/-- The row of a new defect. -/
def createdDefect (c : Context) (payload : DefectCreate) (projectId : Uuid)
    (caseId executionId : Option Uuid) (id : Uuid) : Defect :=
  { id, projectId, caseId, executionId, title := payload.title, description := payload.description
    severity := payload.severity, priority := payload.priority, status := .opened
    reporter := c.currentActor.elim payload.reporter (·.username), assignee := payload.assignee
    environment := payload.environment, reproductionSteps := payload.reproductionSteps
    expectedResult := payload.expectedResult, actualResult := payload.actualResult, resolution := ""
    createdAt := c.now, updatedAt := c.now, resolvedAt := none, closedAt := none }

/-- `create` up to the row. -/
def checkCreate (s : QaStore) (payload : DefectCreate) :
    Except DomainError (Uuid × Option Uuid × Option Uuid) := do
  let projectId ← parseUuid payload.projectId "project_id"
  let _ ← requireActiveProject s projectId
  let caseId ← parseUuid? payload.caseId "case_id"
  let executionId ← parseUuid? payload.executionId "execution_id"
  validateAssociations s projectId caseId executionId
  return (projectId, caseId, executionId)

/-- `create`. -/
def create (c : Context) (s : QaStore) (payload : DefectCreate) :
    QaStore × Except DomainError Defect :=
  andThen (s, checkCreate s payload) fun s (projectId, caseId, executionId) =>
  let defect := createdDefect c payload projectId caseId executionId s.defects.next
  { s with
    defects := s.defects.add (createdDefect c payload projectId caseId executionId) }.recordUnlocked
    c.casing c.currentActor c.now
    (audit defect .created (creationChanges c.texts defect) "") defect

/-- The fields that a payload sets. -/
def setFields (payload : DefectUpdate) : List DefectField :=
  (if payload.title.isSome then [.title] else [])
  ++ (if payload.description.isSome then [.description] else [])
  ++ (if payload.severity.isSome then [.severity] else [])
  ++ (if payload.priority.isSome then [.priority] else [])
  ++ (if payload.assignee.isSome then [.assignee] else [])
  ++ (if payload.environment.isSome then [.environment] else [])
  ++ (if payload.reproductionSteps.isSome then [.reproductionSteps] else [])
  ++ (if payload.expectedResult.isSome then [.expectedResult] else [])
  ++ (if payload.actualResult.isSome then [.actualResult] else [])

/-- The defect with the fields of a payload. -/
def editedDefect (payload : DefectUpdate) (defect : Defect) : Defect :=
  { defect with
    title := payload.title.getD defect.title
    description := payload.description.getD defect.description
    severity := payload.severity.getD defect.severity
    priority := payload.priority.getD defect.priority
    assignee := payload.assignee.getD defect.assignee
    environment := payload.environment.getD defect.environment
    reproductionSteps := payload.reproductionSteps.getD defect.reproductionSteps
    expectedResult := payload.expectedResult.getD defect.expectedResult
    actualResult := payload.actualResult.getD defect.actualResult }

/-- The set fields whose value is another one. -/
def changedFields (payload : DefectUpdate) (defect : Defect) : List DefectField :=
  (setFields payload).filter fun field => ¬ SameField defect (editedDefect payload defect) field

/-- `update` up to the row; nothing to write when no field changes. -/
def checkUpdate (s : QaStore) (defectId : Uuid) (payload : DefectUpdate) :
    Except DomainError (Defect × Bool) := do
  let defect ← getUnlocked s defectId
  refuse (defect.status = .closed) (.invalidState "已关闭缺陷只能重新打开，不能编辑")
  if changedFields payload defect = [] then return (defect, false)
  else do
    refuse (defect.status = .inProgress ∧ strip (editedDefect payload defect).assignee = "")
      (.invalidState "处理中缺陷必须保留负责人")
    return (defect, true)

/-- `update`; when nothing changes, nothing is written. -/
def update (c : Context) (s : QaStore) (defectId : Uuid) (payload : DefectUpdate) :
    QaStore × Except DomainError Defect :=
  andThen (s, checkUpdate s defectId payload) fun s (defect, writes) =>
  if writes then
    let saved := { editedDefect payload defect with updatedAt := c.now }
    { s with defects := s.defects.put saved }.recordUnlocked c.casing c.currentActor c.now
      (audit saved .updated (changesBetween c.texts defect saved (changedFields payload defect)) "")
      saved
  else (s, .ok defect)

/-- The defect after a transition, and the fields that the transition audits. -/
def moved (now : Instant) (payload : DefectTransition) (defect : Defect) :
    Except DomainError (Defect × List DefectField) := do
  refuse (payload.status = .inProgress ∧ strip defect.assignee = "")
    (.invalidState "缺陷进入处理中状态前必须指定负责人")
  let updated := { defect with status := payload.status, updatedAt := now }
  match payload.status with
  | .resolved => do
    let resolution := payload.resolution.getD ""
    refuse (resolution = "") (.invalidState "解决缺陷时必须填写解决说明")
    return ({ updated with resolution, resolvedAt := some now, closedAt := none },
      [.status, .resolution, .resolvedAt, .closedAt])
  | .closed => return ({ updated with closedAt := some now }, [.status, .closedAt])
  | .reopened => do
    refuse (payload.comment = "") (.invalidState "重新打开缺陷时必须填写原因")
    return ({ updated with resolution := "", resolvedAt := none, closedAt := none },
      [.status, .resolution, .resolvedAt, .closedAt])
  | .opened | .inProgress | .verified => return (updated, [.status])

/-- `transition` up to the row; nothing to write when the defect has the status. -/
def checkTransition (now : Instant) (s : QaStore) (defectId : Uuid) (payload : DefectTransition) :
    Except DomainError (Defect × Option (Defect × List DefectField)) := do
  let defect ← getUnlocked s defectId
  if defect.status = payload.status then return (defect, none)
  else do
    refuse (payload.status ∉ transitions defect.status)
      (.invalidState ("缺陷不能从 " ++ defect.status.value ++ " 变为 " ++ payload.status.value))
    let _ ← requireActiveProject s defect.projectId
    let result ← moved now payload defect
    return (defect, some result)

/-- `transition`. -/
def transition (c : Context) (s : QaStore) (defectId : Uuid) (payload : DefectTransition) :
    QaStore × Except DomainError Defect :=
  andThen (s, checkTransition c.now s defectId payload) fun s (defect, result) =>
  match result with
  | none => (s, .ok defect)
  | some (saved, fields) =>
    { s with defects := s.defects.put saved }.recordUnlocked c.casing c.currentActor c.now
      (audit saved .statusChanged (changesBetween c.texts defect saved fields) payload.comment)
      saved

end DefectService

end QaPlatform.Services
