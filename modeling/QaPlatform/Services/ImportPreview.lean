import QaPlatform.Services.ImportChildren
import QaPlatform.Services.SuitePaths

/-!
# The preview of an import

Each main row is checked for itself, with what has been reported of its step rows; step rows of no
main row and keys of several main rows are reported at the end (`_prepare_test_case_rows`,
`_prepare_defect_rows`, `_apply_duplicate_row_key_issues`, `_build_preview`).
-/

namespace QaPlatform.Services.DataTransferService

/-- The payload of a row. -/
inductive ImportPayload where
  | testCase (payload : TestCaseImportPayload)
  | defect (payload : DefectImportPayload)
deriving DecidableEq

/-- `_PreparedRow`. -/
structure PreparedRow where
  source : RawImportRow
  payload : Option ImportPayload
  issues : List ImportIssue

/-- What of the project a row may refer to. -/
structure ProjectData where
  suites : List TestSuite
  cases : List TestCase
  executions : List TestExecution

/-! ## Cells -/

/-- `_json_list`. -/
def jsonList (i : Interpreter) (value field : String) : Except RowFailure (List JsonObject) :=
  if value = "" then .ok []
  else
    match i.loads value with
    | .value (.array values) =>
      demand (.data ⟨field, "invalid_steps", "必须是对象组成的 JSON 数组", .text value⟩)
        (values.mapM fun item => match item with | .object entries => some entries | _ => none)
    | .value _ => .error (.data ⟨field, "invalid_steps", "必须是对象组成的 JSON 数组", .text value⟩)
    | .decodeError => .error (.data ⟨field, "invalid_json", "必须是有效 JSON 数组", .text value⟩)
    | .recursionError => .error (.escape .recursionError)
    | .valueError => .error (.escape .valueError)

/-- `_json_string_list`. -/
def jsonStringList (i : Interpreter) (value field : String) : Except RowFailure (List String) :=
  if value = "" then .ok []
  else
    match i.loads value with
    | .value (.array values) => do
      let texts ← demand (.data ⟨field, "invalid_string_list", "必须是字符串组成的 JSON 数组", .text value⟩)
        (values.mapM fun item => match item with | .text item => some item | _ => none)
      return (texts.map strip).filter (· ≠ "")
    | .value _ => .error (.data ⟨field, "invalid_string_list", "必须是字符串组成的 JSON 数组", .text value⟩)
    | .decodeError => .error (.data ⟨field, "invalid_json", "必须是有效 JSON 数组", .text value⟩)
    | .recursionError => .error (.escape .recursionError)
    | .valueError => .error (.escape .valueError)

/-- `values.get(column, "") or default`. -/
def RawImportRow.cellOr (source : RawImportRow) (column default : String) : String :=
  if source.cell column = "" then default else source.cell column

/-- The tags of a row, sorted, each of them once. -/
def rowTags (i : Interpreter) (source : RawImportRow) : List String :=
  let parts := ((source.cell "tags").toList.splitOn ';').map fun part => strip (String.ofList part)
  ((parts.filter (· ≠ "")).map i.casefold).dedup.insertionSort (· ≤ ·)

/-- `_validate_defect_associations`. -/
def validateDefectAssociations (i : Interpreter) (data : ProjectData)
    (caseId executionId : Option Uuid) :
    Except RowFailure Unit := do
  refuse (caseId.any fun caseId => ¬ data.cases.any (·.id = caseId))
    (.data ⟨"case_id", "case_not_in_project", "测试用例不存在或不属于目标项目",
      .text ((caseId.map i.uuidText).getD "")⟩)
  let execution := executionId.bind fun id => data.executions.find? (·.id = id)
  let executionText := JsonValue.text ((executionId.map i.uuidText).getD "")
  refuse (executionId.isSome ∧ execution.isNone)
    (.data ⟨"execution_id", "execution_not_in_project", "测试执行不存在或不属于目标项目", executionText⟩)
  refuse (execution.any (·.status = .created))
    (.data ⟨"execution_id", "execution_not_started", "尚未开始的执行不能关联缺陷", executionText⟩)
  refuse (caseId.any fun caseId => execution.any fun execution =>
      ¬ execution.results.any (·.caseId = caseId))
    (.data ⟨"case_id", "case_not_in_execution", "测试用例不属于指定执行",
      .text ((caseId.map i.uuidText).getD "")⟩)

/-! ## Main rows -/

/-- The steps of a case: of the cell in a CSV file, of the step rows in a workbook. -/
def rowSteps (i : Interpreter) (transferFormat : TransferFormat)
    (steps : List (String × List JsonObject))
    (source : RawImportRow) : Except RowFailure (List JsonObject) :=
  match transferFormat with
  | .csv => jsonList i (source.cell "steps_json") "steps_json"
  | .xlsx => .ok (stepsOf steps (rowKey source))

/-- The steps of a defect: a cell of a CSV file, or the child rows of a workbook. -/
def rowReproductionSteps (i : Interpreter) (transferFormat : TransferFormat)
    (steps : List (String × List String)) (source : RawImportRow) :
    Except RowFailure (List String) :=
  match transferFormat with
  | .csv => jsonStringList i (source.cell "reproduction_steps_json") "reproduction_steps_json"
  | .xlsx => .ok (stepsOf steps (rowKey source))

/-- The cells of a row of test cases, by field. -/
def testCaseFields (i : Interpreter) (source : RawImportRow) (steps : List JsonObject)
    (suiteId : Option Uuid) : TestCaseFields where
  rowKey := rowKey source
  suiteId := suiteId
  title := strip (source.cell "title")
  preconditions := strip (source.cell "preconditions")
  steps := steps
  priority := strip (source.cellOr "priority" "P2")
  caseType := strip (source.cellOr "case_type" "manual")
  tags := rowTags i source

/-- The cells of a row of defects, by field. -/
def defectFields (source : RawImportRow) (reproductionSteps : List String)
    (caseId executionId : Option Uuid) : DefectFields where
  rowKey := rowKey source
  caseId := caseId
  executionId := executionId
  title := strip (source.cell "title")
  description := strip (source.cell "description")
  severity := strip (source.cellOr "severity" "major")
  priority := strip (source.cellOr "priority" "P2")
  reporter := strip (source.cellOr "reporter" "local-user")
  assignee := strip (source.cell "assignee")
  environment := strip (source.cell "environment")
  reproductionSteps := reproductionSteps
  expectedResult := strip (source.cell "expected_result")
  actualResult := strip (source.cell "actual_result")

/-- The payload of a row of test cases. -/
def testCasePayload (i : Interpreter) (data : ProjectData) (transferFormat : TransferFormat)
    (steps : List (String × List JsonObject)) (source : RawImportRow) :
    Except RowFailure ImportPayload := do
  let steps ← rowSteps i transferFormat steps source
  let suiteId ← resolveRow i data.suites source
  let payload ← (TestCaseImportPayload.modelValidate
    (testCaseFields i source steps suiteId)).mapError
    .validation
  return .testCase payload

/-- The payload of a row of defects. -/
def defectPayload (i : Interpreter) (data : ProjectData) (transferFormat : TransferFormat)
    (steps : List (String × List String)) (source : RawImportRow) :
    Except RowFailure ImportPayload := do
  let reproductionSteps ← rowReproductionSteps i transferFormat steps source
  let caseId ← optionalUuid i (source.cell "case_id") "case_id"
  let executionId ← optionalUuid i (source.cell "execution_id") "execution_id"
  validateDefectAssociations i data caseId executionId
  let payload ← (DefectImportPayload.modelValidate
    (defectFields source reproductionSteps caseId executionId)).mapError .validation
  return .defect payload

/-- The issues of the two exceptions that are caught. -/
def failureIssues (i : Interpreter) (source : RawImportRow) :
    RowFailure → Except Escape (List ImportIssue)
  | .data error => .ok [issue i source error.field error.code error.message error.value]
  | .validation errors => .ok (errors.list.map fun error =>
      issue i source (String.intercalate "." error.loc) error.type error.msg error.input)
  | .escape exception => .error exception

/-- The `try` around a row: its errors become issues. -/
def prepareRow (i : Interpreter) (source : RawImportRow) (issues : List ImportIssue)
    (payload : Except RowFailure ImportPayload) : Except Escape PreparedRow :=
  match payload with
  | .ok payload => .ok ⟨source, some payload, issues⟩
  | .error failure => do
    let found ← failureIssues i source failure
    return ⟨source, none, issues ++ found⟩

section
variable (i : Interpreter) (payloadOf : RawImportRow → Except RowFailure ImportPayload)

/-- The rows, and the issues of step rows that no row has taken. -/
def prepareMainRows : List RawImportRow → Grouped String ImportIssue →
    Except Escape (List PreparedRow × Grouped String ImportIssue)
  | [], issues => .ok ([], issues)
  | source :: sources, issues => do
    let row ← prepareRow i source (issues.get (rowKey source)) (payloadOf source)
    let (rows, left) ← prepareMainRows sources (issues.pop (rowKey source))
    return (row :: rows, left)

/-- The issues of keys that no main row has. -/
def orphanIssues (childRows : List RawImportRow) (message : String) (keys : List String) :
    Grouped String ImportIssue :=
  keys.filterMap fun key => (childRows.find? (rowKey · = key)).map fun source =>
    (key, issue i source "row_key" "orphan_child_row" message (.text key))

/-- The main rows and the global issues, with the keys of the step rows. -/
def prepareRows (parsed : ParsedImport) (childKeys : List String)
    (childIssues : Grouped String ImportIssue) (orphanMessage : String) :
    Except Escape (List PreparedRow × List ImportIssue) := do
  let (rows, left) ← prepareMainRows i payloadOf parsed.mainRows childIssues
  let orphans := i.arrange (childKeys.filter (· ∉ rows.map (rowKey ·.source)))
  return (rows, Grouped.values (left ++ orphanIssues i parsed.childRows orphanMessage orphans))

end

/-- `_prepare_test_case_rows`. -/
def prepareTestCaseRows (i : Interpreter) (data : ProjectData) (parsed : ParsedImport) :
    Except Escape (List PreparedRow × List ImportIssue) :=
  let (steps, issues) := testStepMap i parsed.childRows
  prepareRows i (testCasePayload i data parsed.transferFormat steps) parsed (steps.map (·.1)) issues
    "步骤 row_key 在主表中不存在"

/-- `_prepare_defect_rows`. -/
def prepareDefectRows (i : Interpreter) (data : ProjectData) (parsed : ParsedImport) :
    Except Escape (List PreparedRow × List ImportIssue) :=
  let (steps, issues) := reproductionStepMap i parsed.childRows
  prepareRows i (defectPayload i data parsed.transferFormat steps) parsed (steps.map (·.1)) issues
    "复现步骤 row_key 在主表中不存在"

/-- `_apply_duplicate_row_key_issues`. -/
def applyDuplicateRowKeyIssues (i : Interpreter) (rows : List PreparedRow) : List PreparedRow :=
  rows.map fun row =>
    let key := rowKey row.source
    if key ≠ "" ∧ 1 < rows.countP (rowKey ·.source = key) then
      { row with
        issues := row.issues ++ [issue i row.source "row_key" "duplicate_row_key"
          "主表 row_key 在文件内必须唯一" (.text key)]
        payload := none }
    else row

/-! ## The preview -/

/-- `ImportRowStatus`. -/
inductive ImportRowStatus where
  | valid
  | invalid
  | created
  | failed
  | skipped
deriving DecidableEq, Repr

/-- `ImportRowPreview`. -/
structure ImportRowPreview where
  sheet : String
  row : Nat
  rowKey : String
  status : ImportRowStatus
  issues : List ImportIssue

/-- `ImportPreview`. -/
structure ImportPreview where
  entity : TransferEntity
  filename : String
  sha256 : String
  templateVersion : String
  totalRows : Nat
  validRows : Nat
  invalidRows : Nat
  errorCount : Nat
  warningCount : Nat
  canCommitClean : Bool
  canCommitPartial : Bool
  atomicCommit : Bool
  rows : List ImportRowPreview
  issues : List ImportIssue
  omittedIssueCount : Nat

/-- `MAX_INLINE_ISSUES`. -/
def maxInlineIssues : Nat := 200

/-- The preview of a row. -/
def rowPreview (row : PreparedRow) : ImportRowPreview where
  sheet := row.source.sheet
  row := row.source.row
  rowKey := DataTransferService.rowKey row.source
  status := if hasErrors row.issues then .invalid else .valid
  issues := row.issues

/-- `_build_preview`. -/
def buildPreview (parsed : ParsedImport) (rows : List PreparedRow)
    (globalIssues : List ImportIssue) :
    ImportPreview :=
  let rowPreviews := rows.map rowPreview
  let allIssues := globalIssues ++ rows.flatMap (·.issues)
  let errorCount := allIssues.countP (·.severity = .error)
  let invalidRows := rowPreviews.countP (·.status = .invalid)
  let validRows := rowPreviews.length - invalidRows
  { entity := parsed.entity, filename := parsed.filename, sha256 := parsed.sha256
    templateVersion := parsed.templateVersion, totalRows := rowPreviews.length,
    validRows, invalidRows
    errorCount, warningCount := allIssues.length - errorCount
    canCommitClean := errorCount = 0 ∧ 0 < validRows, canCommitPartial := 0 < validRows
    atomicCommit := false, rows := rowPreviews, issues := allIssues.take maxInlineIssues
    omittedIssueCount := allIssues.length - maxInlineIssues }

/-- `_PreparedImport`. -/
structure PreparedImport where
  parsed : ParsedImport
  rows : List PreparedRow
  globalIssues : List ImportIssue
  preview : ImportPreview

/-- The rows of the entity that the file is for. -/
def prepareEntityRows (i : Interpreter) (data : ProjectData) (parsed : ParsedImport) :
    Except Escape (List PreparedRow × List ImportIssue) :=
  match parsed.entity with
  | .testCases => prepareTestCaseRows i data parsed
  | .defects => prepareDefectRows i data parsed

/-- `_prepare`, from the parsed file on. -/
def prepareParsed (i : Interpreter) (data : ProjectData) (parsed : ParsedImport) :
    Except Escape PreparedImport := do
  let (rows, globalIssues) ← prepareEntityRows i data parsed
  let rows := applyDuplicateRowKeyIssues i rows
  return ⟨parsed, rows, globalIssues, buildPreview parsed rows globalIssues⟩

/-! ## What is known of the rows -/

section
variable {i : Interpreter} {payloadOf : RawImportRow → Except RowFailure ImportPayload}

theorem hasErrors_of_mem {issues : List ImportIssue} {found : ImportIssue} (h : found ∈ issues)
    (herror : found.severity = .error) : hasErrors issues = true :=
  List.any_eq_true.mpr ⟨found, h, decide_eq_true herror⟩

/-- A row has the payload that it has been checked for, or an error. -/
structure PreparedRow.Prepared (payloadOf : RawImportRow → Except RowFailure ImportPayload)
    (row : PreparedRow) : Prop where
  checked : ∀ payload, row.payload = some payload → payloadOf row.source = .ok payload
  failed : row.payload = none → hasErrors row.issues = true

theorem failureIssues_errors {source : RawImportRow} {failure : RowFailure}
    {found : List ImportIssue}
    (h : failureIssues i source failure = .ok found) : hasErrors found = true := by
  cases failure with
  | data error =>
    obtain rfl := Except.ok.inj h
    exact hasErrors_of_mem (List.mem_singleton_self _) rfl
  | validation errors =>
    obtain rfl := Except.ok.inj h
    obtain ⟨error, herror⟩ := List.exists_mem_of_ne_nil _ errors.nonempty
    exact hasErrors_of_mem (List.mem_map_of_mem herror) rfl
  | escape exception => cases h

theorem prepareRow_ok {source : RawImportRow} {issues : List ImportIssue} {row : PreparedRow}
    (h : prepareRow i source issues (payloadOf source) = .ok row) :
    row.source = source ∧ row.Prepared payloadOf ∧ ∀ found ∈ issues, found ∈ row.issues := by
  unfold prepareRow at h
  split at h
  · next payload hpayload =>
    obtain rfl := Except.ok.inj h
    refine ⟨rfl, ⟨fun other hother => ?_, fun hnone => ?_⟩, fun _ hfound => hfound⟩
    · rw [hpayload, Option.some.inj hother]
    · cases hnone
  · next failure hfailure =>
    obtain ⟨found, hfound, hrow⟩ := bind_eq_ok.mp h
    obtain rfl := Except.ok.inj hrow
    refine ⟨rfl, ⟨fun other hother => ?_, fun _ => ?_⟩, fun _ hold => List.mem_append_left _ hold⟩
    · cases hother
    · unfold hasErrors
      rw [List.any_append]
      exact Bool.or_eq_true_iff.mpr (.inr (failureIssues_errors hfound))

/-- An issue of a step row is on a main row with its key, or there is no such row. -/
def Attached (rows : List PreparedRow) (left : ImportIssue → Prop)
    (entry : String × ImportIssue) : Prop :=
  (left entry.2 ∧ ∀ row ∈ rows, rowKey row.source ≠ entry.1)
    ∨ ∃ row ∈ rows, rowKey row.source = entry.1 ∧ entry.2 ∈ row.issues

theorem prepareMainRows_ok {sources : List RawImportRow} {issues left : Grouped String ImportIssue}
    {rows : List PreparedRow} (h : prepareMainRows i payloadOf sources issues = .ok (rows, left)) :
    rows.map (·.source) = sources ∧ (∀ row ∈ rows, row.Prepared payloadOf)
      ∧ ∀ entry ∈ issues, Attached rows (fun found => (entry.1, found) ∈ left) entry := by
  induction sources generalizing issues left rows with
  | nil =>
    obtain ⟨rfl, rfl⟩ := Prod.mk.inj (Except.ok.inj h)
    exact ⟨rfl, fun _ h => absurd h List.not_mem_nil,
      fun entry hentry => .inl ⟨hentry, fun _ h => absurd h List.not_mem_nil⟩⟩
  | cons source sources ih =>
    simp only [prepareMainRows, bind_eq_ok] at h
    obtain ⟨row, hrow, ⟨rest, left'⟩, hrest, hlast⟩ := h
    obtain ⟨rfl, rfl⟩ := Prod.mk.inj (Except.ok.inj hlast)
    obtain ⟨hsource, hprepared, hissues⟩ := prepareRow_ok hrow
    obtain ⟨hsources, hothers, hattached⟩ := ih hrest
    refine ⟨?_, fun other hother => ?_, fun entry hentry => ?_⟩
    · rw [List.map_cons, hsource, hsources]
    · rcases List.mem_cons.mp hother with rfl | hother
      · exact hprepared
      · exact hothers other hother
    · by_cases hkey : rowKey source = entry.1
      · refine .inr ⟨row, List.mem_cons_self, hsource ▸ hkey, hissues _ ?_⟩
        rw [hkey, Grouped.mem_get]
        exact hentry
      · have hpop : entry ∈ issues.pop (rowKey source) := Grouped.mem_pop.mpr ⟨hentry, Ne.symm hkey⟩
        rcases hattached entry hpop with ⟨hleft, hnone⟩ | ⟨other, hother, hfound⟩
        · refine .inl ⟨hleft, fun other hother => ?_⟩
          rcases List.mem_cons.mp hother with rfl | hother
          · rw [hsource]
            exact hkey
          · exact hnone other hother
        · exact .inr ⟨other, List.mem_cons_of_mem _ hother, hfound⟩

theorem prepareRows_ok {parsed : ParsedImport} {childKeys : List String}
    {childIssues : Grouped String ImportIssue} {message : String} {rows : List PreparedRow}
    {globalIssues : List ImportIssue}
    (h : prepareRows i payloadOf parsed childKeys childIssues message = .ok (rows, globalIssues)) :
    rows.map (·.source) = parsed.mainRows ∧ (∀ row ∈ rows, row.Prepared payloadOf)
      ∧ (∀ entry ∈ childIssues, Attached rows (· ∈ globalIssues) entry)
      ∧ ∀ key ∈ childKeys, (∀ row ∈ rows, rowKey row.source ≠ key) →
        (∃ child ∈ parsed.childRows, rowKey child = key) →
          ∃ found ∈ globalIssues, found.severity = .error ∧ found.rowKey = key := by
  obtain ⟨⟨rows', left⟩, hmain, hlast⟩ := bind_eq_ok.mp h
  obtain ⟨rfl, rfl⟩ := Prod.mk.inj (Except.ok.inj hlast)
  obtain ⟨hsources, hprepared, hattached⟩ := prepareMainRows_ok hmain
  refine ⟨hsources, hprepared, fun entry hentry => ?_,
    fun key hkey hnone ⟨child, hchild, hsame⟩ => ?_⟩
  · refine (hattached entry hentry).imp_left fun ⟨hleft, hnone⟩ => ⟨?_, hnone⟩
    exact Grouped.mem_values.mpr ⟨_, List.mem_append_left _ hleft⟩
  · have horphan : key ∈ i.arrange (childKeys.filter (· ∉ rows'.map (rowKey ·.source))) := by
      rw [(i.arrange_perm _).mem_iff, List.mem_filter]
      refine ⟨hkey, decide_eq_true fun hmem => ?_⟩
      obtain ⟨row, hrow, hkey⟩ := List.mem_map.mp hmem
      exact hnone row hrow hkey
    cases hfind : parsed.childRows.find? (rowKey · = key) with
    | none => exact absurd (decide_eq_true hsame) (List.find?_eq_none.mp hfind child hchild)
    | some source =>
      have hrowKey : rowKey source = key := by simpa using List.find?_some hfind
      refine ⟨issue i source "row_key" "orphan_child_row" message (.text key), ?_, rfl, hrowKey⟩
      refine Grouped.mem_values.mpr ⟨key, List.mem_append_right _ ?_⟩
      exact List.mem_filterMap.mpr ⟨key, horphan, by rw [hfind]; rfl⟩

/-! ## Keys that come twice -/

/-- What becomes of a row: it stays as it is, and no other row has its key, or it gets an error. -/
theorem applyDuplicateRowKeyIssues_row {rows : List PreparedRow} {row' : PreparedRow}
    (h : row' ∈ applyDuplicateRowKeyIssues i rows) :
    (row' ∈ rows
      ∧ (rowKey row'.source = "" ∨ rows.countP (rowKey ·.source = rowKey row'.source) ≤ 1))
      ∨ row'.payload = none ∧ hasErrors row'.issues = true := by
  obtain ⟨row, hrow, rfl⟩ := List.mem_map.mp h
  by_cases htwice : rowKey row.source ≠ "" ∧ 1 < rows.countP (rowKey ·.source = rowKey row.source)
  · rw [if_pos htwice]
    exact .inr ⟨rfl, hasErrors_of_mem (List.mem_append_right _ (List.mem_singleton_self _)) rfl⟩
  · rw [if_neg htwice]
    refine .inl ⟨hrow, ?_⟩
    by_cases hblank : rowKey row.source = ""
    · exact .inl hblank
    · exact .inr (Nat.le_of_not_lt fun hmany => htwice ⟨hblank, hmany⟩)

/-- Every row is still there, with all its issues. -/
theorem exists_applyDuplicateRowKeyIssues {rows : List PreparedRow} {row : PreparedRow}
    (h : row ∈ rows) :
    ∃ row' ∈ applyDuplicateRowKeyIssues i rows, row'.source = row.source
      ∧ ∀ found ∈ row.issues, found ∈ row'.issues := by
  refine ⟨_, List.mem_map_of_mem h, ?_⟩
  dsimp only
  split
  · exact ⟨rfl, fun _ hfound => List.mem_append_left _ hfound⟩
  · exact ⟨rfl, fun _ hfound => hfound⟩

theorem applyDuplicateRowKeyIssues_sources (i : Interpreter) (rows : List PreparedRow) :
    (applyDuplicateRowKeyIssues i rows).map (·.source) = rows.map (·.source) := by
  unfold applyDuplicateRowKeyIssues
  rw [List.map_map]
  apply List.map_congr_left
  intro row _
  dsimp only [Function.comp_apply]
  split
  · rfl
  · rfl

end

end QaPlatform.Services.DataTransferService
