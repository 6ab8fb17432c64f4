import QaPlatform.Base.Csv
import QaPlatform.Base.JsonText
import QaPlatform.Services.Audit
import QaPlatform.Services.Defects
import QaPlatform.Services.ImportFiles
import QaPlatform.Services.SuitePaths

/-!
# Exported files

`app/data_transfer/exporters.py` and the exports of `app/services/data_transfer.py`. A spreadsheet
must not take a cell of an export for a formula, and a reader of CSV files has to find what was
exported: a header and a record for each case or defect, oldest first.

An artifact is `none` where the writer or the workbook raises. A CSV file is found again by the
reader as it was written, as long as no cell has a NUL, which the writer refuses, or is over the
limit of the reader's fields (`Readable`); this is the general result on `Base.Csv` with the
dialect that Python calls `excel`. No cell of either format is taken for a formula, as
`neutralize_spreadsheet_text` puts an apostrophe before those that would be.
-/

namespace QaPlatform.Services.DataTransferService

/-! ## CSV files -/

/-- The dialect `excel`, with the default limit of a field. -/
def excel : Csv.Dialect where
  delimiter := ','
  quotechar := '"'
  fieldSizeLimit := 131072
  delimiter_ne_quotechar := by decide
  delimiter_newline := by decide
  quotechar_newline := by decide
  delimiter_ne_nul := by decide
  quotechar_ne_nul := by decide

/-- `encode("utf-8")`. -/
def encodeUtf8 (text : String) : List UInt8 := text.toByteArray.data.toList

/-- The text behind a byte order mark. -/
def withoutMark : List Char → List Char
  | [] => []
  | c :: text => if c = '\ufeff' then text else c :: text

/-- `decode("utf-8-sig", errors="strict")`. -/
def decodeUtf8Sig (content : List UInt8) : Option String :=
  (String.fromUTF8? ⟨content.toArray⟩).map fun text => String.ofList (withoutMark text.toList)

/-- `csv.reader` over `StringIO(text, newline="")`. -/
def csvReader (text : String) : Reader (List String) :=
  let records := Csv.read excel text.toList
  ⟨records.rows.map fun row => row.map String.ofList, records.failed⟩

/-- What a writer leaves in a file that begins with a byte order mark; `none` is its `csv.Error`. -/
def csvFile (rows : List (List String)) : Option String :=
  (Csv.write excel (rows.map fun row => row.map String.toList)).map fun text =>
    String.ofList ('\ufeff' :: text)

/-- The cells of a record are within the limit of a field. -/
def CellsFit (record : List String) : Prop := ∀ cell ∈ record, cell.length ≤ excel.fieldSizeLimit

instance (record : List String) : Decidable (CellsFit record) := List.decidableBAll _ record

/-- The mark at the beginning of a file is not part of its text. -/
theorem decode_encode (text : List Char) :
    decodeUtf8Sig (encodeUtf8 (String.ofList ('\ufeff' :: text))) = some (String.ofList text) := by
  unfold decodeUtf8Sig encodeUtf8
  generalize hmarked : String.ofList ('\ufeff' :: text) = marked
  have hbytes : (⟨marked.toByteArray.data.toList.toArray⟩ : ByteArray) = marked.toByteArray := rfl
  have hdecoded : String.fromUTF8? marked.toByteArray = some marked := by
    unfold String.fromUTF8?
    rw [dif_pos marked.isValidUTF8]
    rfl
  rw [hbytes, hdecoded, Option.map_some, ← hmarked, String.toList_ofList, withoutMark, if_pos rfl]

/-- A writer fails at a NUL only. -/
theorem csvFile_of_clean {rows : List (List String)}
    (h : ∀ row ∈ rows, ∀ cell ∈ row, '\x00' ∉ cell.toList) : ∃ file, csvFile rows = some file := by
  have hclean : ¬ ∃ row ∈ rows.map (fun row => row.map String.toList), ∃ field ∈ row,
      '\x00' ∈ field := by
    rintro ⟨row, hrow, field, hfield, hnul⟩
    obtain ⟨cells, hcells, rfl⟩ := List.mem_map.mp hrow
    obtain ⟨cell, hcell, rfl⟩ := List.mem_map.mp hfield
    exact h cells hcells cell hcell hnul
  unfold csvFile Csv.write
  rw [if_neg hclean]
  exact ⟨_, rfl⟩

/-- What a writer has written is what a reader finds, as far as the first record with a cell over
the limit. -/
theorem csvReader_csvFile {rows : List (List String)} {file : String}
    (h : csvFile rows = some file) : ∃ text, decodeUtf8Sig (encodeUtf8 file) = some text
      ∧ csvReader text
        = ⟨rows.takeWhile fun row => CellsFit row, !rows.all fun row => CellsFit row⟩ := by
  obtain ⟨content, hwritten, rfl⟩ := Option.map_eq_some_iff.mp h
  refine ⟨_, decode_encode _, ?_⟩
  have hfits : ∀ row : List String, Csv.Fits excel (row.map String.toList) ↔ CellsFit row := by
    intro row
    unfold Csv.Fits CellsFit
    rw [List.forall_mem_map]
    simp only [String.length_toList]
  unfold csvReader
  rw [String.toList_ofList, Csv.read_write hwritten, List.takeWhile_map, List.all_map]
  simp only [Function.comp_def, hfits, List.map_map, String.ofList_toList, List.map_id']

/-- The records whose cells all fit are all found. -/
theorem csvReader_of_fit {rows : List (List String)} {file : String} (h : csvFile rows = some file)
    (hfit : ∀ row ∈ rows, CellsFit row) :
    ∃ text, decodeUtf8Sig (encodeUtf8 file) = some text ∧ csvReader text = ⟨rows, false⟩ := by
  obtain ⟨text, hdecoded, hread⟩ := csvReader_csvFile h
  have hall : (rows.all fun row => CellsFit row) = true := by simpa using hfit
  have hwhole : (rows.takeWhile fun row => CellsFit row) = rows :=
    List.takeWhile_eq_self_iff.mpr (by simpa using hfit)
  rw [hall, hwhole] at hread
  exact ⟨text, hdecoded, hread⟩

/-! ## Exporters -/

/-- A cell of an export. -/
inductive ExportValue where
  | text (value : String)
  | number (value : Nat)
deriving DecidableEq

/-- How identifiers, times and workbooks are written. -/
structure ExportTools where
  texts : Texts
  /-- `f"{…:%Y%m%d-%H%M%S}"` of a time in UTC. -/
  stamp : Instant → String
  /-- `Workbook(write_only=True)`: the sheets with their rows, saved; `none` is an exception. -/
  saveWorkbook : List (String × List (List ExportValue)) → Option (List UInt8)

/-- `TransferArtifact`. -/
structure TransferArtifact where
  filename : String
  mediaType : String
  content : List UInt8
  rowCount : Nat

/-- The characters of `_SAFE_FILENAME`. -/
def isSafeFilename (c : Char) : Bool :=
  c.isDigit ∨ c.isAlpha ∨ c = '.' ∨ c = '_' ∨ c = '-' ∨ 0x4e00 ≤ c.toNat ∧ c.toNat ≤ 0x9fff

/-- `_SAFE_FILENAME.sub("-", …)`: one dash for a run of other characters. -/
def substituteUnsafe : Bool → List Char → List Char
  | _, [] => []
  | inRun, c :: rest =>
    if isSafeFilename c then c :: substituteUnsafe false rest
    else if inRun then substituteUnsafe true rest
    else '-' :: substituteUnsafe true rest

/-- `safe_download_name`. -/
def safeDownloadName (value : String) : String :=
  let substituted := substituteUnsafe false (strip value).toList
  let normalized := trimBy (fun c => c = '.' ∨ c = '-') substituted
  if normalized.take 120 = [] then "qa-export" else String.ofList (normalized.take 120)

/-- A row of an export: a dictionary from the headers. -/
abbrev ExportRow := List (String × ExportValue)

/-- `neutralize_spreadsheet_text` on the texts, not on the numbers. -/
def ExportValue.neutralize : ExportValue → ExportValue
  | .text value => .text (neutralizeSpreadsheetText value)
  | .number value => .number value

/-- `str` of a cell. -/
def ExportValue.written : ExportValue → String
  | .text value => value
  | .number value => toString value

/-- `row.get(header, "")`. -/
def rowValue (row : ExportRow) (header : String) : ExportValue :=
  (row.lookup header).getD (.text "")

/-- `_csv_bytes`. -/
def csvBytes (headers : List String) (rows : List ExportRow) : Option (List UInt8) :=
  (csvFile (headers :: rows.map fun row =>
    headers.map fun header => (rowValue row header).neutralize.written)).map encodeUtf8

/-- The rows of a sheet of `_xlsx_bytes`. -/
def sheetOf (headers : List String) (rows : List ExportRow) : List (List ExportValue) :=
  headers.map .text :: rows.map fun row =>
    headers.map fun header => (rowValue row header).neutralize

/-- A sheet of an export. -/
structure ExportSheet where
  title : String
  headers : List String
  rows : List ExportRow

/-- What `_xlsx_bytes` saves. -/
def workbookOf (main child : ExportSheet) : List (String × List (List ExportValue)) :=
  [(main.title, sheetOf main.headers main.rows), (child.title, sheetOf child.headers child.rows)]

/-- `_export`; `none` is an exception, of the writer or of the workbook. -/
def exportSheets (x : ExportTools) (generatedAt : Instant) (name : String)
    (transferFormat : TransferFormat) (main child : ExportSheet) : Option TransferArtifact :=
  let stem := safeDownloadName (name ++ "-" ++ x.stamp generatedAt ++ "Z")
  match transferFormat with
  | .csv => (csvBytes main.headers main.rows).map fun content => {
      filename := stem ++ ".csv", mediaType := "text/csv; charset=utf-8"
      content, rowCount := main.rows.length }
  | .xlsx => (x.saveWorkbook (workbookOf main child)).map fun content => {
      filename := stem ++ ".xlsx"
      mediaType := "application/vnd.openxmlformats-officedocument.spreadsheetml.sheet"
      content, rowCount := main.rows.length }

/-- `json.dumps` of a list whose items are given, without ASCII escapes and blanks. -/
def dumpList (items : List (List Char)) : String :=
  String.ofList ('[' :: (List.intercalate [','] items ++ [']']))

/-- `step.model_dump()`. -/
def dumpStep (step : TestStep) : JsonText.Doc :=
  .object [("action".toList, .text step.action.toList),
    ("expected_result".toList, .text step.expectedResult.toList)]

/-- `enumerate(steps, start=1)` of every item, in turn. -/
def numberedSteps {α β : Type} (steps : α → List β) (items : List α) : List (α × Nat × β) :=
  items.flatMap fun item => (steps item).zipIdx.map fun e => (item, e.2 + 1, e.1)

/-- The columns of exported cases. -/
def testCaseHeaders : List String :=
  ["id", "project_id", "suite_id", "suite_path", "title", "preconditions", "priority", "case_type",
    "status", "tags", "steps_json", "created_at", "updated_at"]

/-- The row of an exported case. -/
def testCaseRow (x : ExportTools) (suitePaths : Uuid → Option String) (item : TestCase) :
    ExportRow :=
  [("id", .text (x.texts.uuid item.id)), ("project_id", .text (x.texts.uuid item.projectId)),
    ("suite_id", .text (item.suiteId.elim "" x.texts.uuid)),
    ("suite_path", .text (item.suiteId.elim "" fun id => (suitePaths id).getD "")),
    ("title", .text item.title), ("preconditions", .text item.preconditions),
    ("priority", .text item.priority.value), ("case_type", .text item.caseType.value),
    ("status", .text item.status.value), ("tags", .text (";".intercalate item.tags)),
    ("steps_json", .text (dumpList (item.steps.map fun step => JsonText.render (dumpStep step)))),
    ("created_at", .text (x.texts.isoformat item.createdAt)),
    ("updated_at", .text (x.texts.isoformat item.updatedAt))]

/-- The sheet of the steps. -/
def stepSheet (x : ExportTools) (cases : List TestCase) : ExportSheet where
  title := "steps"
  headers := ["case_id", "position", "action", "expected_result"]
  rows := (numberedSteps TestCase.steps cases).map fun e =>
    [("case_id", .text (x.texts.uuid e.1.id)), ("position", .number e.2.1),
      ("action", .text e.2.2.action), ("expected_result", .text e.2.2.expectedResult)]

/-- `export_test_cases`. -/
def exportTestCases (x : ExportTools) (generatedAt : Instant) (transferFormat : TransferFormat)
    (suitePaths : Uuid → Option String) (items : List TestCase) :
    Option TransferArtifact :=
  let cases := items.mergeSort (createdBefore x.texts TestCase.createdAt TestCase.id)
  exportSheets x generatedAt "test-cases" transferFormat
    ⟨"test_cases", testCaseHeaders, cases.map (testCaseRow x suitePaths)⟩
    (stepSheet x cases)

/-- The columns of exported defects. -/
def defectHeaders : List String :=
  ["id", "project_id", "case_id", "execution_id", "title", "description", "severity", "priority",
    "status", "reporter", "assignee", "environment", "expected_result", "actual_result",
    "resolution", "reproduction_steps_json", "created_at", "updated_at", "resolved_at", "closed_at"]

/-- The row of an exported defect. -/
def defectRow (x : ExportTools) (item : Defect) : ExportRow :=
  [("id", .text (x.texts.uuid item.id)), ("project_id", .text (x.texts.uuid item.projectId)),
    ("case_id", .text (item.caseId.elim "" x.texts.uuid)),
    ("execution_id", .text (item.executionId.elim "" x.texts.uuid)),
    ("title", .text item.title), ("description", .text item.description),
    ("severity", .text item.severity.value), ("priority", .text item.priority.value),
    ("status", .text item.status.value), ("reporter", .text item.reporter),
    ("assignee", .text item.assignee), ("environment", .text item.environment),
    ("expected_result", .text item.expectedResult), ("actual_result", .text item.actualResult),
    ("resolution", .text item.resolution),
    ("reproduction_steps_json", .text (dumpList (item.reproductionSteps.map fun step =>
      JsonText.renderText step.toList))),
    ("created_at", .text (x.texts.isoformat item.createdAt)),
    ("updated_at", .text (x.texts.isoformat item.updatedAt)),
    ("resolved_at", .text (item.resolvedAt.elim "" x.texts.isoformat)),
    ("closed_at", .text (item.closedAt.elim "" x.texts.isoformat))]

/-- The sheet of the reproduction steps. -/
def reproductionStepSheet (x : ExportTools) (defects : List Defect) : ExportSheet where
  title := "reproduction_steps"
  headers := ["defect_id", "position", "step"]
  rows := (numberedSteps Defect.reproductionSteps defects).map fun e =>
    [("defect_id", .text (x.texts.uuid e.1.id)), ("position", .number e.2.1),
      ("step", .text e.2.2)]

/-- `export_defects`. -/
def exportDefects (x : ExportTools) (generatedAt : Instant) (transferFormat : TransferFormat)
    (items : List Defect) : Option TransferArtifact :=
  let defects := items.mergeSort (createdBefore x.texts Defect.createdAt Defect.id)
  exportSheets x generatedAt "defects" transferFormat
    ⟨"defects", defectHeaders, defects.map (defectRow x)⟩
    (reproductionStepSheet x defects)

/-- `path_by_id`. -/
def pathById (suites : List TestSuite) (suiteId : Uuid) : Option String :=
  (pathsById (suiteEntries suites) suiteId).head?

/-- `export_test_cases` of the service; the suites are listed beside the cases. -/
def exportProjectTestCases (x : ExportTools) (s : QaStore) (suites : List TestSuite)
    (now : Instant) (transferFormat : TransferFormat) (projectId : UuidText) :
    Except DomainError (Option TransferArtifact) := do
  let projectId ← parseUuid projectId "project_id"
  let _ ← demand (.notFound "项目" projectId) (s.projects.get? projectId)
  return exportTestCases x now transferFormat (pathById (suites.filter (·.projectId = projectId)))
    (s.testCases.rows.filter (·.projectId = projectId))

/-- `export_defects` of the service. -/
def exportProjectDefects (x : ExportTools) (s : QaStore) (now : Instant)
    (transferFormat : TransferFormat) (projectId : UuidText) :
    Except DomainError (Option TransferArtifact) := do
  let projectId ← parseUuid projectId "project_id"
  let _ ← demand (.notFound "项目" projectId) (s.projects.get? projectId)
  return exportDefects x now transferFormat (s.defects.rows.filter (·.projectId = projectId))

/-! ## Cells that are no formulas -/

/-- What a spreadsheet takes for a formula. -/
def IsFormula (text : String) : Prop := text.toList.head?.any (· ∈ dangerousPrefixes) = true

instance (text : String) : Decidable (IsFormula text) := by
  unfold IsFormula
  infer_instance

theorem not_isFormula_neutralize (text : String) :
    ¬ IsFormula (neutralizeSpreadsheetText text) := by
  unfold neutralizeSpreadsheetText
  split
  · have hquoted : ("'" ++ text).toList.head? = some '\'' := by simp
    unfold IsFormula
    rw [hquoted]
    decide
  · next hplain => exact hplain

/-- A cell of a workbook that is no formula: a text, or a number. -/
def ExportValue.Inert : ExportValue → Prop
  | .text value => ¬ IsFormula value
  | .number _ => True

theorem inert_neutralize (value : ExportValue) : value.neutralize.Inert := by
  cases value with
  | text value => exact not_isFormula_neutralize value
  | number value => trivial

/-- No cell of a workbook is taken for a formula, as long as no header is. -/
theorem workbook_inert {main child : ExportSheet}
    (hmain : ∀ header ∈ main.headers, ¬ IsFormula header)
    (hchild : ∀ header ∈ child.headers, ¬ IsFormula header) :
    ∀ sheet ∈ workbookOf main child, ∀ row ∈ sheet.2, ∀ value ∈ row, value.Inert := by
  have hsheet : ∀ (headers : List String) (rows : List ExportRow),
      (∀ header ∈ headers, ¬ IsFormula header) →
      ∀ row ∈ sheetOf headers rows, ∀ value ∈ row, value.Inert := by
    intro headers rows hheaders row hrow value hvalue
    rcases List.mem_cons.mp hrow with rfl | hrow
    · obtain ⟨header, hheader, rfl⟩ := List.mem_map.mp hvalue
      exact hheaders header hheader
    · obtain ⟨item, -, rfl⟩ := List.mem_map.mp hrow
      obtain ⟨header, -, rfl⟩ := List.mem_map.mp hvalue
      exact inert_neutralize _
  intro sheet hmem
  rcases List.mem_cons.mp hmem with rfl | hmem
  · exact hsheet _ _ hmain
  · obtain rfl := List.mem_singleton.mp hmem
    exact hsheet _ _ hchild

/-! ## Rows in their order -/

/-- A row has one value for each header, in their order. -/
theorem values_of_keys {row : ExportRow} {headers : List String}
    (hkeys : row.map Prod.fst = headers)
    (hnodup : headers.Nodup) : headers.map (rowValue row) = row.map Prod.snd := by
  subst hkeys
  induction row with
  | nil => rfl
  | cons entry row ih =>
    obtain ⟨header, value⟩ := entry
    rw [List.map_cons, List.nodup_cons] at hnodup
    have hrest : (row.map Prod.fst).map (rowValue ((header, value) :: row))
        = (row.map Prod.fst).map (rowValue row) := by
      apply List.map_congr_left
      intro other hother
      have hne : (other == header) = false := by
        rw [beq_eq_false_iff_ne]
        exact fun h => hnodup.1 (h ▸ hother)
      simp only [rowValue, List.lookup_cons, hne]
    rw [List.map_cons, List.map_cons, List.map_cons, hrest, ih hnodup.2]
    simp [rowValue]

/-! ## What was exported is found -/

/-- Every cell of a row can be written, as it has no NUL, and fits into a field that can be read. -/
def Readable (row : ExportRow) : Prop :=
  ∀ entry ∈ row, entry.2.neutralize.written.length ≤ excel.fieldSizeLimit
    ∧ '\x00' ∉ entry.2.neutralize.written.toList

instance (row : ExportRow) : Decidable (Readable row) := List.decidableBAll _ row

/-- The record of a row. -/
def recordOf (row : ExportRow) : List String := row.map fun entry => entry.2.neutralize.written

/-- A file has a record for each item, in the order in which they were created; no cell of it is
taken for a formula. -/
def Exported {α : Type} (x : ExportTools) (createdAt : α → Instant) (id : α → Uuid)
    (headers : List String) (row : α → ExportRow) (items : List α) (artifact : TransferArtifact) :
    Prop :=
  artifact.rowCount = items.length ∧ ∃ (text : String) (ordered : List α),
    decodeUtf8Sig artifact.content = some text ∧ ordered.Perm items
    ∧ ordered.Pairwise (fun a b => createdBefore x.texts createdAt id a b = true)
    ∧ csvReader text = ⟨headers :: ordered.map fun item => recordOf (row item), false⟩
    ∧ ∀ record ∈ (csvReader text).rows, ∀ cell ∈ record, ¬ IsFormula cell

/-- The texts of a row. -/
def Textual (row : ExportRow) : Prop := ∀ entry ∈ row, ∃ text, entry.2 = .text text

theorem not_isFormula_recordOf {row : ExportRow} (h : Textual row) :
    ∀ cell ∈ recordOf row, ¬ IsFormula cell := by
  intro cell hcell
  obtain ⟨entry, hentry, rfl⟩ := List.mem_map.mp hcell
  obtain ⟨text, htext⟩ := h entry hentry
  rw [htext]
  exact not_isFormula_neutralize text

theorem exported_csv {α : Type} (x : ExportTools) (createdAt : α → Instant) (id : α → Uuid)
    {headers : List String} {row : α → ExportRow} {items : List α} {generatedAt : Instant}
    {name title : String} (child : ExportSheet) (hkeys : ∀ item, (row item).map Prod.fst = headers)
    (hnodup : headers.Nodup) (htextual : ∀ item, Textual (row item))
    (hheaders : ∀ header ∈ headers, (header.length ≤ excel.fieldSizeLimit
      ∧ '\x00' ∉ header.toList) ∧ ¬ IsFormula header)
    (hreadable : ∀ item ∈ items, Readable (row item)) :
    ∃ artifact, exportSheets x generatedAt name .csv
        ⟨title, headers, (items.mergeSort (createdBefore x.texts createdAt id)).map row⟩ child
          = some artifact
      ∧ Exported x createdAt id headers row items artifact := by
  generalize hordered : items.mergeSort (createdBefore x.texts createdAt id) = ordered
  have hperm : ordered.Perm items := hordered ▸ List.mergeSort_perm _ _
  have hsorted : ordered.Pairwise (fun a b => createdBefore x.texts createdAt id a b = true) :=
    hordered ▸ List.pairwise_mergeSort createdBefore_trans createdBefore_total items
  have hrecords : (ordered.map row).map (fun r =>
      headers.map fun header => (rowValue r header).neutralize.written)
      = ordered.map fun item => recordOf (row item) := by
    rw [List.map_map]
    apply List.map_congr_left
    intro item _
    have hvalues : (headers.map (rowValue (row item))).map (fun value => value.neutralize.written)
        = recordOf (row item) := by
      rw [values_of_keys (hkeys item) hnodup, List.map_map]
      rfl
    rw [← hvalues, List.map_map]
    rfl
  have hlimit : ∀ record ∈ headers :: ordered.map (fun item => recordOf (row item)),
      ∀ cell ∈ record, (cell.length ≤ excel.fieldSizeLimit ∧ '\x00' ∉ cell.toList)
        ∧ ¬ IsFormula cell := by
    intro record hrecord cell hcell
    rcases List.mem_cons.mp hrecord with rfl | hrecord
    · exact hheaders cell hcell
    · obtain ⟨item, hitem, rfl⟩ := List.mem_map.mp hrecord
      refine ⟨?_, not_isFormula_recordOf (htextual item) cell hcell⟩
      obtain ⟨entry, hentry, rfl⟩ := List.mem_map.mp hcell
      exact hreadable item (hperm.mem_iff.mp hitem) entry hentry
  obtain ⟨file, hfile⟩ := csvFile_of_clean
    fun record hrecord cell hcell => (hlimit record hrecord cell hcell).1.2
  obtain ⟨text, hdecoded, hread⟩ := csvReader_of_fit hfile
    fun record hrecord cell hcell => (hlimit record hrecord cell hcell).1.1
  have hcontent : csvBytes headers (ordered.map row) = some (encodeUtf8 file) := by
    unfold csvBytes
    rw [hrecords, hfile]
    rfl
  refine ⟨_, congrArg (Option.map _) hcontent, ?_, text, ordered, hdecoded, hperm, hsorted, hread,
    ?_⟩
  · show (ordered.map row).length = items.length
    rw [List.length_map, hperm.length_eq]
  · rw [hread]
    exact fun record hrecord cell hcell => (hlimit record hrecord cell hcell).2

theorem headers_readable : ∀ header ∈ testCaseHeaders ++ defectHeaders,
    (header.length ≤ excel.fieldSizeLimit ∧ '\x00' ∉ header.toList) ∧ ¬ IsFormula header := by
  decide

theorem stepSheet_headers (x : ExportTools) (cases : List TestCase) :
    ∀ header ∈ (stepSheet x cases).headers, ¬ IsFormula header := by
  show ∀ header ∈ ["case_id", "position", "action", "expected_result"], ¬ IsFormula header
  decide

theorem reproductionStepSheet_headers (x : ExportTools) (defects : List Defect) :
    ∀ header ∈ (reproductionStepSheet x defects).headers, ¬ IsFormula header := by
  show ∀ header ∈ ["defect_id", "position", "step"], ¬ IsFormula header
  decide

/-- What is saved as a workbook has no cell that is taken for a formula. -/
theorem exported_xlsx {x : ExportTools} {generatedAt : Instant} {name : String}
    {main child : ExportSheet} {artifact : TransferArtifact}
    (hmain : ∀ header ∈ main.headers, ¬ IsFormula header)
    (hchild : ∀ header ∈ child.headers, ¬ IsFormula header)
    (h : exportSheets x generatedAt name .xlsx main child = some artifact) :
    ∃ sheets, x.saveWorkbook sheets = some artifact.content
      ∧ ∀ sheet ∈ sheets, ∀ row ∈ sheet.2, ∀ value ∈ row, value.Inert := by
  obtain ⟨content, hsaved, rfl⟩ := Option.map_eq_some_iff.mp h
  exact ⟨workbookOf main child, hsaved, workbook_inert hmain hchild⟩

theorem testCaseRow_keys (x : ExportTools) (paths : Uuid → Option String) (item : TestCase) :
    (testCaseRow x paths item).map Prod.fst = testCaseHeaders := rfl

theorem defectRow_keys (x : ExportTools) (item : Defect) :
    (defectRow x item).map Prod.fst = defectHeaders := rfl

theorem testCaseRow_textual (x : ExportTools) (paths : Uuid → Option String) (item : TestCase) :
    Textual (testCaseRow x paths item) := by
  simp [Textual, testCaseRow]

theorem defectRow_textual (x : ExportTools) (item : Defect) : Textual (defectRow x item) := by
  simp [Textual, defectRow]

section
variable {x : ExportTools} {paths : Uuid → Option String}

theorem exportTestCases_csv (now : Instant) {items : List TestCase}
    (h : ∀ item ∈ items, Readable (testCaseRow x paths item)) :
    ∃ artifact, exportTestCases x now .csv paths items = some artifact
      ∧ Exported x TestCase.createdAt TestCase.id testCaseHeaders (testCaseRow x paths) items
        artifact :=
  exported_csv x TestCase.createdAt TestCase.id
    (stepSheet x (items.mergeSort (createdBefore x.texts TestCase.createdAt TestCase.id)))
    (testCaseRow_keys x paths) (by decide) (testCaseRow_textual x paths)
    (fun header hheader => headers_readable header (List.mem_append_left _ hheader)) h

theorem exportDefects_csv (now : Instant) {items : List Defect}
    (h : ∀ item ∈ items, Readable (defectRow x item)) :
    ∃ artifact, exportDefects x now .csv items = some artifact
      ∧ Exported x Defect.createdAt Defect.id defectHeaders (defectRow x) items artifact :=
  exported_csv x Defect.createdAt Defect.id
    (reproductionStepSheet x (items.mergeSort (createdBefore x.texts Defect.createdAt Defect.id)))
    (defectRow_keys x) (by decide) (defectRow_textual x)
    (fun header hheader => headers_readable header (List.mem_append_right _ hheader)) h

variable {now : Instant} {artifact : TransferArtifact}

theorem exportTestCases_xlsx {items : List TestCase}
    (h : exportTestCases x now .xlsx paths items = some artifact) :
    ∃ sheets, x.saveWorkbook sheets = some artifact.content
      ∧ ∀ sheet ∈ sheets, ∀ row ∈ sheet.2, ∀ value ∈ row, value.Inert :=
  exported_xlsx
    (fun header hheader => (headers_readable header (List.mem_append_left _ hheader)).2)
    (stepSheet_headers x _) h

theorem exportDefects_xlsx {items : List Defect}
    (h : exportDefects x now .xlsx items = some artifact) :
    ∃ sheets, x.saveWorkbook sheets = some artifact.content
      ∧ ∀ sheet ∈ sheets, ∀ row ∈ sheet.2, ∀ value ∈ row, value.Inert :=
  exported_xlsx
    (fun header hheader => (headers_readable header (List.mem_append_right _ hheader)).2)
    (reproductionStepSheet_headers x _) h

end

/-- The exports of a project have its cases and its defects, oldest first, and nothing in them is
taken for a formula. -/
theorem project_exports (x : ExportTools) (s : QaStore) (suites : List TestSuite) (now : Instant)
    (projectId : UuidText) (id : Uuid) (hid : projectId.uuid = some id)
    (hproject : ∃ project, s.projects.get? id = some project)
    (hcases : ∀ item ∈ s.testCases.rows, item.projectId = id →
      Readable (testCaseRow x (pathById (suites.filter (·.projectId = id))) item))
    (hdefects : ∀ item ∈ s.defects.rows, item.projectId = id → Readable (defectRow x item)) :
    (∃ artifact, exportProjectTestCases x s suites now .csv projectId = .ok (some artifact)
      ∧ Exported x TestCase.createdAt TestCase.id testCaseHeaders
        (testCaseRow x (pathById (suites.filter (·.projectId = id))))
        (s.testCases.rows.filter (·.projectId = id)) artifact)
    ∧ (∃ artifact, exportProjectDefects x s now .csv projectId = .ok (some artifact)
      ∧ Exported x Defect.createdAt Defect.id defectHeaders (defectRow x)
        (s.defects.rows.filter (·.projectId = id)) artifact)
    ∧ ∀ artifact, exportProjectTestCases x s suites now .xlsx projectId = .ok (some artifact)
        ∨ exportProjectDefects x s now .xlsx projectId = .ok (some artifact) →
      ∃ sheets, x.saveWorkbook sheets = some artifact.content
        ∧ ∀ sheet ∈ sheets, ∀ row ∈ sheet.2, ∀ value ∈ row, value.Inert := by
  obtain ⟨project, hproject⟩ := hproject
  have hparsed : parseUuid projectId "project_id" = .ok id := demand_eq_ok.mpr hid
  have hfound : demand (.notFound "项目" id) (s.projects.get? id)
      = (.ok project : Except DomainError Project) := demand_eq_ok.mpr hproject
  have hexportCases : ∀ transferFormat,
      exportProjectTestCases x s suites now transferFormat projectId
        = .ok (exportTestCases x now transferFormat (pathById (suites.filter (·.projectId = id)))
          (s.testCases.rows.filter (·.projectId = id))) := by
    intro transferFormat
    unfold exportProjectTestCases
    rw [hparsed, ok_bind, hfound]
    rfl
  have hexportDefects : ∀ transferFormat, exportProjectDefects x s now transferFormat projectId
      = .ok (exportDefects x now transferFormat (s.defects.rows.filter (·.projectId = id))) := by
    intro transferFormat
    unfold exportProjectDefects
    rw [hparsed, ok_bind, hfound]
    rfl
  have hof : ∀ {α : Type} (projectOf : α → Uuid) {rows : List α} {item : α},
      item ∈ rows.filter (fun r => projectOf r = id) → item ∈ rows ∧ projectOf item = id := by
    intro α projectOf rows item hitem
    exact ⟨List.mem_of_mem_filter hitem, by simpa using List.of_mem_filter hitem⟩
  refine ⟨?_, ?_, ?_⟩
  · obtain ⟨artifact, hartifact, hexported⟩ := exportTestCases_csv now
      fun item (hitem : item ∈ s.testCases.rows.filter (·.projectId = id)) =>
        hcases item (hof TestCase.projectId hitem).1 (hof TestCase.projectId hitem).2
    exact ⟨artifact, by rw [hexportCases, hartifact], hexported⟩
  · obtain ⟨artifact, hartifact, hexported⟩ := exportDefects_csv now
      fun item (hitem : item ∈ s.defects.rows.filter (·.projectId = id)) =>
        hdefects item (hof Defect.projectId hitem).1 (hof Defect.projectId hitem).2
    exact ⟨artifact, by rw [hexportDefects, hartifact], hexported⟩
  · rintro artifact (h | h)
    · rw [hexportCases] at h
      exact exportTestCases_xlsx (Except.ok.inj h)
    · rw [hexportDefects] at h
      exact exportDefects_xlsx (Except.ok.inj h)

/-! A case whose title a spreadsheet would take for a formula, and a defect with a quote. -/

/-- A case whose texts look like formulas. -/
def formulaCase : TestCase where
  id := 0
  projectId := 0
  suiteId := none
  title := "=1+1"
  preconditions := "a,b"
  steps := []
  priority := .p2
  caseType := .manual
  status := .draft
  tags := ["smoke", "login"]
  createdAt := 0
  updatedAt := 0

/-- A defect with quotes, commas and line ends in its texts. -/
def quotedDefect : Defect where
  id := 0
  projectId := 0
  caseId := some 0
  executionId := none
  title := "says \"no\""
  description := ""
  severity := .major
  priority := .p2
  status := .opened
  reporter := "-"
  assignee := ""
  environment := ""
  reproductionSteps := []
  expectedResult := ""
  actualResult := ""
  resolution := ""
  createdAt := 0
  updatedAt := 0
  resolvedAt := none
  closedAt := none

/-- A project with the two. -/
def exportedStore : QaStore :=
  { QaStore.empty with
    projects := ⟨[⟨0, "QA", "QA", "", .active, 0, 0⟩], 1, by decide, by decide⟩
    testCases := ⟨[formulaCase], 1, by decide, by decide⟩
    defects := ⟨[quotedDefect], 1, by decide, by decide⟩ }

/-- Fixed texts for numbers and times. -/
def exportTools : ExportTools := ⟨⟨fun _ => "id", fun _ => "time"⟩, fun _ => "stamp", fun _ => none⟩

theorem exportedStore_exports :
    ∃ artifact, exportProjectTestCases exportTools exportedStore [] 0 .csv ⟨"0", some 0⟩
        = .ok (some artifact)
      ∧ Exported exportTools TestCase.createdAt TestCase.id testCaseHeaders
        (testCaseRow exportTools (pathById [])) [formulaCase] artifact :=
  (project_exports exportTools exportedStore [] 0 ⟨"0", some 0⟩ 0 rfl ⟨_, rfl⟩
    (fun item hitem _ => by
      obtain rfl : item = formulaCase := List.mem_singleton.mp hitem
      decide)
    (fun item hitem _ => by
      obtain rfl : item = quotedDefect := List.mem_singleton.mp hitem
      decide)).1

end QaPlatform.Services.DataTransferService
