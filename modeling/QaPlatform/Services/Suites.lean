import Mathlib.Data.List.Dedup
import Mathlib.Data.List.Sort
import QaPlatform.Services.Audit

/-!
# Suites and cases

`TestSuiteService` and `TestCaseService` (`app/services/test_suites.py`,
`app/services/test_cases.py`). Suites form a forest: a parent is looked up and its
ancestors are walked before a suite or a case is put under it.
-/

namespace QaPlatform.Services

/-! ## Walking up -/

namespace QaStore

/-- The suites that a walk has not come by. -/
def unvisited (s : QaStore) (visited : List Uuid) : List TestSuite :=
  s.testSuites.rows.filter (·.id ∉ visited)

theorem unvisited_lt {s : QaStore} {visited : List Uuid} {id : Uuid} {suite : TestSuite}
    (hget : s.testSuites.get? id = some suite) (hnew : id ∉ visited) :
    (s.unvisited (id :: visited)).length < (s.unvisited visited).length := by
  have hfewer : s.unvisited (id :: visited) = (s.unvisited visited).filter (·.id ≠ id) := by
    unfold unvisited
    rw [List.filter_filter]
    refine List.filter_congr fun r _ => ?_
    simp [not_or]
  have hid : suite.id = id := Table.key_of_get? hget
  rw [hfewer, List.length_filter_lt_length_iff_exists]
  refine ⟨suite, List.mem_filter.mpr ⟨Table.mem_of_get? hget, ?_⟩, by simp [hid]⟩
  simpa [hid] using hnew

/-- `_validate_parent`, from `current_id` on. -/
def validateParent (s : QaStore) (projectId : Uuid) (suiteId : Option Uuid) (visited : List Uuid) :
    Option Uuid → Except DomainError Unit
  | none => .ok ()
  | some currentId =>
    if _hcycle : currentId ∈ visited ∨ some currentId = suiteId then
      .error (.conflict "测试套件层级不能形成循环")
    else
      match _hget : s.testSuites.get? currentId with
      | none => .error (.notFound "父测试套件" currentId)
      | some current =>
        if current.projectId ≠ projectId then .error (.conflict "父测试套件必须属于同一项目")
        else if current.status ≠ .active then .error (.invalidState "不能放入已归档的测试套件")
        else s.validateParent projectId suiteId (currentId :: visited) current.parentId
termination_by (s.unvisited visited).length
decreasing_by exact unvisited_lt _hget (not_or.mp _hcycle).1

/-- The walk of `_require_active_suite`; the first suite has been found already. -/
def activeUpwards (s : QaStore) (visited : List Uuid) (currentId : Uuid) :
    Except DomainError Unit :=
  match _hget : s.testSuites.get? currentId with
  | none => .error (.notFound "父测试套件" currentId)
  | some current =>
    if _hcycle : currentId ∈ visited then .error (.conflict "测试套件层级存在循环")
    else if current.status ≠ .active then .error (.invalidState "已归档套件不能接收测试用例")
    else
      match current.parentId with
      | none => .ok ()
      | some parentId => s.activeUpwards (currentId :: visited) parentId
termination_by (s.unvisited visited).length
decreasing_by exact unvisited_lt _hget _hcycle

end QaStore

/-! ## Suites -/

/-- `TestSuiteCreate`. -/
structure TestSuiteCreate where
  projectId : UuidText
  parentId : Option UuidText
  name : String
  description : String
  position : Int

/-- `parent_id` may be set to `None`; the other fields are left alone by `None`. -/
structure TestSuiteUpdate where
  parentId : Option (Option UuidText)
  name : Option String
  description : Option String
  position : Option Int

/-- The values of `TestSuiteStatus`. -/
def TestSuiteStatus.value : TestSuiteStatus → String
  | .active => "active"
  | .archived => "archived"

/-- What an operation of a service is run with. -/
structure Context where
  casing : Casing
  texts : Texts
  currentActor : Option ActorIdentity
  now : Instant

namespace TestSuiteService

/-- `_uuid_value` of an optional identifier. -/
def uuidValue (c : Context) (id : Option Uuid) : AuditValue :=
  id.elim .null fun id => .text (c.texts.uuid id)

/-- `_get_unlocked` of suites. -/
def getUnlocked (s : QaStore) (suiteId : Uuid) : Except DomainError TestSuite :=
  demand (.notFound "测试套件" suiteId) (s.testSuites.get? suiteId)

/-- `_require_active_project` of suites. -/
def requireActiveProject (s : QaStore) (projectId : Uuid) : Except DomainError Project :=
  s.requireActiveProject "已归档项目不能修改测试套件" projectId

/-- A sibling has the name. -/
def NameTaken (casing : Casing) (s : QaStore) (projectId : Uuid) (parentId : Option Uuid)
    (name : String) (excludeId : Option Uuid) : Prop :=
  ∃ existing ∈ s.testSuites.rows, some existing.id ≠ excludeId ∧ existing.projectId = projectId
    ∧ existing.parentId = parentId ∧ casing.casefold existing.name = casing.casefold name

instance (casing : Casing) (s : QaStore) (projectId : Uuid) (parentId : Option Uuid)
    (name : String) (excludeId : Option Uuid) :
    Decidable (NameTaken casing s projectId parentId name excludeId) := by
  unfold NameTaken
  infer_instance

/-- `_ensure_unique_name`. -/
def ensureUniqueName (casing : Casing) (s : QaStore) (projectId : Uuid) (parentId : Option Uuid)
    (name : String) (excludeId : Option Uuid) : Except DomainError Unit :=
  refuse (NameTaken casing s projectId parentId name excludeId)
    (.conflict ("同级测试套件名称已存在: " ++ name))

/-- An event about a suite. -/
def audit (suite : TestSuite) (action : AuditAction) (changes : List (String × AuditChange))
    (comment : String) : AuditRecord where
  projectId := suite.projectId
  entityType := "test_suite"
  entityId := suite.id
  action := action
  changes := changes
  comment := comment

/-- The suite that `create` builds. -/
def createdSuite (c : Context) (payload : TestSuiteCreate) (projectId : Uuid)
    (parentId : Option Uuid) (id : Uuid) : TestSuite :=
  { id, projectId, parentId, name := payload.name, description := payload.description
    status := .active, position := payload.position, createdAt := c.now, updatedAt := c.now }

/-- `create` up to the row. -/
def checkCreate (c : Context) (s : QaStore) (payload : TestSuiteCreate) :
    Except DomainError (Uuid × Option Uuid) := do
  let projectId ← parseUuid payload.projectId "project_id"
  let _ ← requireActiveProject s projectId
  let parentId ← parseUuid? payload.parentId "parent_id"
  s.validateParent projectId none [] parentId
  ensureUniqueName c.casing s projectId parentId payload.name none
  return (projectId, parentId)

/-- `create` of suites, with its audit event. -/
def create (c : Context) (s : QaStore) (payload : TestSuiteCreate) :
    QaStore × Except DomainError TestSuite :=
  andThen (s, checkCreate c s payload) fun s (projectId, parentId) =>
  let suite := createdSuite c payload projectId parentId s.testSuites.next
  { s with
    testSuites := s.testSuites.add (createdSuite c payload projectId parentId) }.recordUnlocked
    c.casing c.currentActor c.now
    (audit suite .created
      [("name", ⟨.null, .text suite.name⟩), ("parent_id", ⟨.null, uuidValue c suite.parentId⟩),
        ("status", ⟨.null, .text suite.status.value⟩)]
      "创建测试套件")
    suite

/-- The suite with the fields of a payload. -/
def candidate (payload : TestSuiteUpdate) (parentId : Option Uuid)
    (suite : TestSuite) : TestSuite :=
  { suite with
    parentId
    name := payload.name.getD suite.name
    description := payload.description.getD suite.description
    position := payload.position.getD suite.position }

/-- `_suite_changes`. -/
def suiteChanges (c : Context) (before after : TestSuite) : List (String × AuditChange) :=
  (if before.parentId = after.parentId then []
    else [("parent_id", ⟨uuidValue c before.parentId, uuidValue c after.parentId⟩)])
  ++ (if before.name = after.name then []
    else [("name", ⟨.text before.name, .text after.name⟩)])
  ++ (if before.description = after.description then []
    else [("description", ⟨.text before.description, .text after.description⟩)])
  ++ (if before.position = after.position then []
    else [("position", ⟨.number before.position, .number after.position⟩)])

/-- The parent that a payload asks for, validated. -/
def newParent (s : QaStore) (payload : TestSuiteUpdate) (suite : TestSuite) :
    Except DomainError (Option Uuid) :=
  match payload.parentId with
  | none => return suite.parentId
  | some parentId => do
    let parentId ← parseUuid? parentId "parent_id"
    s.validateParent suite.projectId (some suite.id) [] parentId
    return parentId

/-- `update` up to the row: the suite as it is and as it is to be. -/
def checkUpdate (c : Context) (s : QaStore) (suiteId : Uuid) (payload : TestSuiteUpdate) :
    Except DomainError (TestSuite × TestSuite) := do
  let suite ← getUnlocked s suiteId
  let _ ← requireActiveProject s suite.projectId
  refuse (suite.status ≠ .active) (.invalidState "已归档测试套件不能编辑")
  let parentId ← newParent s payload suite
  let edited := candidate payload parentId suite
  ensureUniqueName c.casing s suite.projectId edited.parentId edited.name (some suite.id)
  return (suite, edited)

/-- `update` of suites, with its audit event. -/
def update (c : Context) (s : QaStore) (suiteId : Uuid) (payload : TestSuiteUpdate) :
    QaStore × Except DomainError TestSuite :=
  andThen (s, checkUpdate c s suiteId payload) fun s (suite, edited) =>
  if suiteChanges c suite edited = [] then (s, .ok suite)
  else
    let edited := { edited with updatedAt := c.now }
    { s with testSuites := s.testSuites.put edited }.recordUnlocked c.casing c.currentActor
      c.now (audit suite .updated (suiteChanges c suite edited) "更新测试套件") edited

/-- `transition` up to the row; nothing when the suite has the status. -/
def checkTransition (s : QaStore) (suiteId : Uuid) (target : TestSuiteStatus) :
    Except DomainError (TestSuite × Bool) := do
  let suite ← getUnlocked s suiteId
  if suite.status = target then return (suite, false)
  else do
    let _ ← requireActiveProject s suite.projectId
    if target = .active then s.validateParent suite.projectId (some suite.id) [] suite.parentId
    return (suite, true)

/-- `transition` of suites, with its audit event. -/
def transition (c : Context) (s : QaStore) (suiteId : Uuid) (target : TestSuiteStatus) :
    QaStore × Except DomainError TestSuite :=
  andThen (s, checkTransition s suiteId target) fun s (suite, moves) =>
  if moves then
    let updated := { suite with status := target, updatedAt := c.now }
    { s with testSuites := s.testSuites.put updated }.recordUnlocked c.casing c.currentActor
      c.now
      (audit suite .statusChanged
        [("status", ⟨.text suite.status.value, .text target.value⟩)] "变更测试套件状态")
      updated
  else (s, .ok suite)

/-- The checks of `delete`. -/
def checkDelete (s : QaStore) (suiteId : Uuid) : Except DomainError TestSuite := do
  let suite ← getUnlocked s suiteId
  let _ ← requireActiveProject s suite.projectId
  refuse (∃ item ∈ s.testSuites.rows, item.parentId = some suite.id)
    (.conflict "测试套件仍有子套件，不能删除")
  refuse (∃ testCase ∈ s.testCases.rows, testCase.suiteId = some suite.id)
    (.conflict "测试套件仍有关联测试用例，不能删除")
  return suite

/-- `delete` of suites, with its audit event. -/
def delete (c : Context) (s : QaStore) (suiteId : Uuid) : QaStore × Except DomainError Uuid :=
  andThen (s, checkDelete s suiteId) fun s suite =>
  { s with testSuites := s.testSuites.erase suite.id }.recordUnlocked c.casing
    c.currentActor c.now
    (audit suite .deleted
      [("name", ⟨.text suite.name, .null⟩), ("parent_id", ⟨uuidValue c suite.parentId, .null⟩)]
      "删除测试套件")
    suite.id

end TestSuiteService

/-! ## Cases -/

/-- `TestCaseCreate`. -/
structure TestCaseCreate where
  projectId : UuidText
  suiteId : Option UuidText
  title : String
  preconditions : String
  steps : List TestStep
  priority : TestCasePriority
  caseType : TestCaseType
  tags : List String

/-- `suite_id` may be set to `None`; the other fields are left alone by `None`. -/
structure TestCaseUpdate where
  suiteId : Option (Option UuidText)
  title : Option String
  preconditions : Option String
  steps : Option (List TestStep)
  priority : Option TestCasePriority
  caseType : Option TestCaseType
  tags : Option (List String)

/-- The values of `TestCaseStatus`. -/
def TestCaseStatus.value : TestCaseStatus → String
  | .draft => "draft"
  | .active => "active"
  | .disabled => "disabled"

namespace TestCaseService

/-- `_TRANSITIONS`. -/
def transitions : TestCaseStatus → List TestCaseStatus
  | .draft => [.active]
  | .active => [.disabled]
  | .disabled => [.active]

/-- `_normalize_tags`. -/
def normalizeTags (casing : Casing) (tags : List String) : List String :=
  (((tags.filter (strip · ≠ "")).map fun tag => casing.lower (strip tag)).dedup).insertionSort
    (· ≤ ·)

/-- `_get_unlocked` of test cases. -/
def getUnlocked (s : QaStore) (caseId : Uuid) : Except DomainError TestCase :=
  demand (.notFound "测试用例" caseId) (s.testCases.get? caseId)

/-- `_require_active_project` of test cases. -/
def requireActiveProject (s : QaStore) (projectId : Uuid) : Except DomainError Project :=
  s.requireActiveProject "已归档项目不能新增或启用测试用例" projectId

/-- `_require_active_suite`. -/
def requireActiveSuite (s : QaStore) (projectId suiteId : Uuid) : Except DomainError TestSuite := do
  let suite ← demand (.notFound "测试套件" suiteId) (s.testSuites.get? suiteId)
  refuse (suite.projectId ≠ projectId) (.conflict "测试用例只能归入同一项目的套件")
  s.activeUpwards [] suiteId
  return suite

/-- A suite for a case, if one is asked for. -/
def requireSuite? (s : QaStore) (projectId : Uuid) (suiteId : Option UuidText) :
    Except DomainError (Option Uuid) := do
  let suiteId ← parseUuid? suiteId "suite_id"
  match suiteId with
  | none => return none
  | some suiteId => do
    let _ ← requireActiveSuite s projectId suiteId
    return some suiteId

/-- The test case that `create` builds. -/
def createdCase (c : Context) (payload : TestCaseCreate) (projectId : Uuid) (suiteId : Option Uuid)
    (id : Uuid) : TestCase :=
  { id, projectId, suiteId, title := payload.title, preconditions := payload.preconditions
    steps := payload.steps, priority := payload.priority, caseType := payload.caseType
    status := .draft, tags := normalizeTags c.casing payload.tags, createdAt := c.now
    updatedAt := c.now }

/-- `create` of test cases. -/
def create (c : Context) (s : QaStore) (payload : TestCaseCreate) :
    Except DomainError (QaStore × TestCase) := do
  let projectId ← parseUuid payload.projectId "project_id"
  let _ ← requireActiveProject s projectId
  let suiteId ← requireSuite? s projectId payload.suiteId
  return ({ s with testCases := s.testCases.add (createdCase c payload projectId suiteId) },
    createdCase c payload projectId suiteId s.testCases.next)

/-- The case with the fields of a payload. -/
def editedCase (c : Context) (payload : TestCaseUpdate) (suiteId : Option Uuid)
    (testCase : TestCase) : TestCase :=
  { testCase with
    suiteId
    title := payload.title.getD testCase.title
    preconditions := payload.preconditions.getD testCase.preconditions
    steps := payload.steps.getD testCase.steps
    priority := payload.priority.getD testCase.priority
    caseType := payload.caseType.getD testCase.caseType
    tags := (payload.tags.map (normalizeTags c.casing)).getD testCase.tags
    updatedAt := c.now }

/-- The suite that a payload asks for, checked. -/
def newSuite (s : QaStore) (payload : TestCaseUpdate) (testCase : TestCase) :
    Except DomainError (Option Uuid) :=
  match payload.suiteId with
  | none => return testCase.suiteId
  | some suiteId => requireSuite? s testCase.projectId suiteId

/-- `update` of test cases. -/
def update (c : Context) (s : QaStore) (caseId : Uuid) (payload : TestCaseUpdate) :
    Except DomainError (QaStore × TestCase) := do
  let testCase ← getUnlocked s caseId
  let suiteId ← newSuite s payload testCase
  let updated := editedCase c payload suiteId testCase
  refuse (updated.status = .active ∧ updated.steps = [])
    (.invalidState "启用状态的测试用例必须至少包含一个步骤")
  return ({ s with testCases := s.testCases.put updated }, updated)

/-- `transition` of test cases. -/
def transition (c : Context) (s : QaStore) (caseId : Uuid) (target : TestCaseStatus) :
    Except DomainError (QaStore × TestCase) := do
  let testCase ← getUnlocked s caseId
  if testCase.status = target then return (s, testCase)
  else do
    refuse (target ∉ transitions testCase.status)
      (.invalidState ("测试用例不能从 " ++ testCase.status.value ++ " 变为 " ++ target.value))
    if target = .active then do
      let _ ← requireActiveProject s testCase.projectId
      refuse (testCase.steps = []) (.invalidState "没有步骤的测试用例不能启用")
    let updated := { testCase with status := target, updatedAt := c.now }
    return ({ s with testCases := s.testCases.put updated }, updated)

/-- `delete` of test cases. -/
def delete (s : QaStore) (caseId : Uuid) : Except DomainError (QaStore × Uuid) := do
  let testCase ← getUnlocked s caseId
  refuse (∃ plan ∈ s.testPlans.rows, testCase.id ∈ plan.caseIds)
    (.conflict "测试用例已被测试计划引用，不能删除")
  refuse (∃ defect ∈ s.defects.rows, defect.caseId = some testCase.id)
    (.conflict "测试用例已被缺陷引用，不能删除")
  return ({ s with testCases := s.testCases.erase testCase.id }, testCase.id)

end TestCaseService

end QaPlatform.Services
