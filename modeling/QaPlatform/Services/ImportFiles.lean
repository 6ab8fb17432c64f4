import QaPlatform.Services.ImportPreview

/-!
# Files of an import

From the bytes of an upload to the rows (`app/data_transfer/security.py`,
`app/data_transfer/parsers.py`). What other packages make of the bytes is given; a reader of rows
gives the rows up to the one where it raises, if it raises.
-/

namespace QaPlatform.Services.DataTransferService

/-- A `DataTransferFileError`, a `DomainError`, or an exception that nothing catches. -/
inductive ImportFailure where
  | file (code message : String)
  | domain (error : DomainError)
  | escape (exception : Escape)

/-! ## What is given -/

/-- How a call of `zipfile` ends. -/
inductive ZipOutcome (α : Type) where
  | value (value : α)
  | badZipFile
  | raised (exception : Escape)

/-- What the archive says about a member. -/
structure ZipInfo where
  filename : String
  fileSize : Nat
  compressSize : Nat

/-- Rows that are read one after the other; at the end there may be an exception. -/
structure Reader (α : Type) where
  rows : List α
  failed : Bool

/-- The value of a cell. -/
inductive CellValue where
  | none
  | boolean (value : Bool)
  /-- A date or a time, in ISO format. -/
  | datetime (isoformat : String)
  /-- Another value, as its text. -/
  | other (rendered : String)
deriving DecidableEq

/-- A cell of a sheet. -/
structure Cell where
  /-- `data_type == "f"`. -/
  formula : Bool
  value : CellValue
deriving DecidableEq

/-- A sheet, with the dimensions that it claims. -/
structure Worksheet where
  title : String
  maxRow : Option Nat
  maxColumn : Option Nat
  rows : Reader (List Cell)

/-- A sheet of charts has no rows. -/
inductive Sheet where
  | worksheet (sheet : Worksheet)
  | chartsheet

/-- The sheets, by their names. -/
abbrev Workbook := List (String × Sheet)

/-- What the imports take from elsewhere: hashes, decoding, archives and workbooks. -/
structure Libraries where
  sha256Hex : List UInt8 → String
  /-- `decode("utf-8-sig", errors="strict")`. -/
  decode : List UInt8 → Option String
  /-- `csv.reader`. -/
  csvReader : String → Reader (List String)
  /-- `ZipFile(...).infolist()`. -/
  infolist : List UInt8 → ZipOutcome (List ZipInfo)
  testzip : List UInt8 → ZipOutcome (Option String)
  /-- `load_workbook`; an exception is `none`. -/
  loadWorkbook : List UInt8 → Option Workbook

/-! ## Uploads -/

/-- `MAX_UPLOAD_BYTES`. -/
def maxUploadBytes : Nat := 5 * 1024 * 1024
/-- `MAX_PRIMARY_ROWS`. -/
def maxPrimaryRows : Nat := 5000
/-- `MAX_TOTAL_ROWS`. -/
def maxTotalRows : Nat := 100000
/-- `MAX_XLSX_UNCOMPRESSED_BYTES`. -/
def maxXlsxUncompressedBytes : Nat := 50 * 1024 * 1024
/-- `MAX_XLSX_COMPRESSION_RATIO`. -/
def maxXlsxCompressionRatio : Nat := 250
/-- `MAX_XLSX_ARCHIVE_MEMBERS`. -/
def maxXlsxArchiveMembers : Nat := 256
/-- `MAX_XLSX_COLUMNS`. -/
def maxXlsxColumns : Nat := 128
/-- `MAX_XLSX_METADATA_ROWS`. -/
def maxXlsxMetadataRows : Nat := 100

/-- `PurePosixPath(path).suffix`. -/
def posixSuffix (path : List Char) : String :=
  let parts := (path.splitOn '/').filter fun part => part ≠ [] ∧ part ≠ ['.']
  let name := (parts.getLast?.getD []).reverse
  let extension := name.takeWhile (· ≠ '.')
  let stem := (name.dropWhile (· ≠ '.')).drop 1
  if extension = [] ∨ stem = [] then "" else String.ofList ('.' :: extension.reverse)

/-- `detect_format`. -/
def detectFormat (i : Interpreter) (filename : String) : Except ImportFailure TransferFormat :=
  let path := filename.toList.map fun c => if c = '\\' then '/' else c
  let suffix := i.casefold (posixSuffix path)
  if suffix = ".csv" then .ok .csv
  else if suffix = ".xlsx" then .ok .xlsx
  else .error (.file "unsupported_file_type" "只支持 .csv 与 .xlsx 文件；不接受 .xls、.xlsm 或其他格式")

/-- `except zipfile.BadZipFile`. -/
def caughtZip {α : Type} : ZipOutcome α → Except ImportFailure α
  | .value a => .ok a
  | .badZipFile => .error (.file "invalid_xlsx_archive" "XLSX 不是有效的 ZIP 文档")
  | .raised exception => .error (.escape exception)

/-- A member of the archive; `total` is what the ones before it come to. The ratio of the sizes is
above the limit exactly when the quotient of the floats is. -/
def checkMember (i : Interpreter) (total : Nat) (info : ZipInfo) : Except ImportFailure Nat := do
  let path := info.filename.toList
  refuse (path.head? = some '/' ∨ (path.splitOn '/').contains ['.', '.'])
    (.file "unsafe_xlsx_path" "XLSX 包含不安全的内部路径")
  let lowered := (i.casefold info.filename).toList
  refuse ("vbaproject.bin".toList <:+: lowered ∨ "xl/externallinks/".toList <+: lowered
      ∨ "xl/embeddings/".toList <+: lowered ∨ "xl/oleobjects/".toList <+: lowered)
    (.file "unsafe_xlsx_content" "XLSX 不能包含宏、外部链接或嵌入对象")
  refuse (maxXlsxUncompressedBytes < total + info.fileSize)
    (.file "xlsx_uncompressed_too_large" "XLSX 解压后内容过大")
  refuse (info.compressSize ≠ 0 ∧ maxXlsxCompressionRatio * info.compressSize < info.fileSize)
    (.file "xlsx_suspicious_compression" "XLSX 压缩比异常")
  return total + info.fileSize

/-- The loop over the members, with the bytes so far. -/
def checkMembers (i : Interpreter) : Nat → List ZipInfo → Except ImportFailure Unit
  | _, [] => .ok ()
  | total, info :: infos => do
    let total ← checkMember i total info
    checkMembers i total infos

/-- The checks of `_validate_xlsx_archive` on the list of members. -/
def checkInfos (i : Interpreter) (infos : List ZipInfo) : Except ImportFailure Unit := do
  refuse (infos = []) (.file "empty_xlsx" "XLSX 压缩包为空")
  refuse (maxXlsxArchiveMembers < infos.length)
    (.file "xlsx_too_many_members" "XLSX 内部文件不能超过 256 个")
  checkMembers i 0 infos

/-- `_validate_xlsx_archive`. -/
def validateXlsxArchive (l : Libraries) (i : Interpreter) (content : List UInt8) :
    Except ImportFailure Unit := do
  refuse (¬ [0x50, 0x4b] <+: content) (.file "invalid_xlsx_signature" "XLSX 文件签名无效")
  let infos ← caughtZip (l.infolist content)
  checkInfos i infos
  let badMember ← caughtZip (l.testzip content)
  refuse (badMember ≠ none) (.file "corrupt_xlsx" ("XLSX 内部文件损坏: " ++ badMember.getD ""))

/-- The end of `validate_upload`, which depends on the format. -/
def validateContent (l : Libraries) (i : Interpreter) (content : List UInt8) :
    TransferFormat → Except ImportFailure Unit
  | .csv => refuse (0 ∈ content) (.file "invalid_csv_bytes" "CSV 不能包含 NUL 字节")
  | .xlsx => validateXlsxArchive l i content

/-- `validate_upload`. -/
def validateUpload (l : Libraries) (i : Interpreter) (filename : String) (content : List UInt8) :
    Except ImportFailure TransferFormat := do
  let transferFormat ← detectFormat i filename
  refuse (content = []) (.file "empty_file" "上传文件不能为空")
  refuse (maxUploadBytes < content.length) (.file "file_too_large" "上传文件不能超过 5 MiB")
  validateContent l i content transferFormat
  return transferFormat

/-! ## CSV -/

/-- The values of `TransferEntity`. -/
def TransferEntity.value : TransferEntity → String
  | .testCases => "test-cases"
  | .defects => "defects"

/-- `MAIN_SHEETS`. -/
def mainSheets : TransferEntity → String
  | .testCases => "test_cases"
  | .defects => "defects"

/-- `CHILD_SHEETS`. -/
def childSheets : TransferEntity → String
  | .testCases => "steps"
  | .defects => "reproduction_steps"

/-- `_validate_headers`. -/
def validateHeaders (headers : List String) (sheet : String) : Except ImportFailure Unit := do
  refuse (headers = []) (.file "missing_header" (sheet ++ " 缺少表头"))
  refuse ("" ∈ headers) (.file "blank_header" (sheet ++ " 包含空表头"))
  refuse (¬ headers.Nodup) (.file "duplicate_header" (sheet ++ " 包含重复表头"))

/-- A dictionary with one more entry. -/
def put (d : List (String × String)) (key value : String) : List (String × String) :=
  if key ∈ d.map (·.1) then d.map fun entry => if entry.1 = key then (key, value) else entry
  else d ++ [(key, value)]

/-- The values of a record by its headers; a value that is missing is the empty text. -/
def csvValues (headers record : List String) : List (String × String) :=
  (headers.zipIdx.map fun (header, index) => (strip header, record.getD index "")).foldl
    (fun d entry => put d entry.1 entry.2) []

/-- A record has values of its own. -/
def IsBlank (values : List (String × String)) : Prop := ∀ entry ∈ values, entry.2 = ""

instance (values : List (String × String)) : Decidable (IsBlank values) := by
  unfold IsBlank
  infer_instance

/-- The records of a file behind the header: `number` is the row that comes next, and `count` rows
have been taken. `DictReader` passes over an empty record. -/
def csvRows (entity : TransferEntity) (headers : List String) (failed : Bool) :
    Nat → Nat → List (List String) → Except ImportFailure (List RawImportRow)
  | _, _, [] => if failed then .error (.escape .csvError) else .ok []
  | number, count, record :: records =>
    if record = [] then csvRows entity headers failed number count records
    else if headers.length < record.length then
      .error (.file "csv_extra_columns" ("CSV 第 " ++ toString number ++ " 行包含表头之外的列"))
    else if IsBlank (csvValues headers record) then
      csvRows entity headers failed (number + 1) count records
    else if maxPrimaryRows < count + 1 then
      .error (.file "too_many_rows" "主数据最多允许 5000 行")
    else do
      let rows ← csvRows entity headers failed (number + 1) (count + 1) records
      return ⟨mainSheets entity, number, csvValues headers record⟩ :: rows

/-- `TEMPLATE_VERSION`. -/
def templateVersion : String := "1"

/-- The header of a file; without a record there is none. -/
def csvHeader (reader : Reader (List String)) : Except ImportFailure (List String) :=
  match reader.rows with
  | [] => if reader.failed then .error (.escape .csvError) else .ok []
  | header :: _ => .ok header

/-- `_parse_csv`. -/
def parseCsv (l : Libraries) (entity : TransferEntity) (filename : String) (content : List UInt8)
    (digest : String) : Except ImportFailure ParsedImport := do
  let text ← demand (.file "invalid_csv_encoding" "CSV 必须使用 UTF-8 编码（允许 BOM）") (l.decode content)
  let reader := l.csvReader text
  let headers ← csvHeader reader
  validateHeaders headers (mainSheets entity)
  let rows ← csvRows entity headers reader.failed 2 0 (reader.rows.drop 1)
  refuse (∃ row ∈ rows, strip (row.cell "template_version") ≠ templateVersion)
    (.file "unsupported_template_version" "CSV template_version 必须全部为 1")
  return { entity, filename, transferFormat := .csv, sha256 := digest, templateVersion
           mainSheet := mainSheets entity, mainHeaders := headers, mainRows := rows
           childSheet := none, childHeaders := [], childRows := [] }

/-! ## Workbooks -/

/-- `_normalize_cell`. -/
def normalizeCell : CellValue → String
  | .none => ""
  | .boolean value => if value then "true" else "false"
  | .datetime isoformat => isoformat
  | .other rendered => rendered

/-- `_validate_sheet_dimensions`. -/
def validateSheetDimensions (sheet : Worksheet) (maxRows maxColumns : Nat) :
    Except ImportFailure Unit := do
  refuse (maxRows < sheet.maxRow.getD 0) (.file "xlsx_logical_rows_too_large"
    ("工作表 " ++ sheet.title ++ " 逻辑行数不能超过 " ++ toString maxRows))
  refuse (maxColumns < sheet.maxColumn.getD 0) (.file "xlsx_logical_columns_too_large"
    ("工作表 " ++ sheet.title ++ " 逻辑列数不能超过 " ++ toString maxColumns))

/-- `_reject_formulas`. -/
def rejectFormulas (cells : List Cell) (sheet : String) (row : Nat) : Except ImportFailure Unit :=
  refuse (∃ cell ∈ cells, cell.formula = true) (.file "formula_not_allowed"
    ("工作表 " ++ sheet ++ " 第 " ++ toString row ++ " 行包含公式；导入文件只允许静态值"))

/-- An entry of the metadata. -/
def metadataRow (index : Nat) (metadata : List (String × String)) (cells : List Cell) :
    List (String × String) :=
  match cells.map fun cell => normalizeCell cell.value with
  | key :: value :: _ =>
    if index = 1 ∧ key = "key" ∧ value = "value" then metadata
    else if key = "" then metadata else put metadata key value
  | _ => metadata

/-- The loop of `_read_metadata`. -/
def metadataRows (title : String) (failed : Bool) : Nat → List (String × String) →
    List (List Cell) → Except ImportFailure (List (String × String))
  | _, metadata, [] => if failed then .error (.escape .workbookError) else .ok metadata
  | index, metadata, cells :: rows => do
    refuse (maxXlsxMetadataRows < index)
      (.file "xlsx_metadata_too_large" ("工作表 " ++ title ++ " 最多允许 100 行"))
    rejectFormulas cells title index
    metadataRows title failed (index + 1) (metadataRow index metadata cells) rows

/-- `_read_metadata`. A sheet of charts has no `max_row`. -/
def readMetadata : Sheet → Except ImportFailure (List (String × String))
  | .chartsheet => .error (.escape .attributeError)
  | .worksheet sheet => do
    validateSheetDimensions sheet maxXlsxMetadataRows 16
    metadataRows sheet.title sheet.rows.failed 1 [] sheet.rows.rows

/-- Values behind the last header. -/
def HasExtra (headers values : List String) : Prop :=
  ∃ value ∈ values.drop headers.length, value ≠ ""

instance (headers values : List String) : Decidable (HasExtra headers values) := by
  unfold HasExtra
  infer_instance

/-- The loop of `_read_sheet`. -/
def sheetRows (title : String) (headers : List String) (maxDataRows : Nat) (failed : Bool) :
    Nat → List (List Cell) → Except ImportFailure (List RawImportRow)
  | _, [] => if failed then .error (.escape .workbookError) else .ok []
  | number, cells :: rows => do
    refuse (maxDataRows + 1 < number) (.file "xlsx_logical_rows_too_large"
      ("工作表 " ++ title ++ " 逻辑行数超过允许上限"))
    rejectFormulas cells title number
    let values := cells.map fun cell => normalizeCell cell.value
    refuse (HasExtra headers values) (.file "xlsx_extra_columns"
      ("工作表 " ++ title ++ " 第 " ++ toString number ++ " 行包含表头之外的列"))
    let rest ← sheetRows title headers maxDataRows failed (number + 1) rows
    let mapped := headers.zipIdx.map fun (header, index) => (header, values.getD index "")
    return if values.all (· = "") then rest else ⟨title, number, mapped⟩ :: rest

/-- The first row of a sheet. -/
def sheetHeader (sheet : Worksheet) : Except ImportFailure (List Cell) :=
  match sheet.rows.rows with
  | [] =>
    if sheet.rows.failed then .error (.escape .workbookError)
    else .error (.file "missing_header" ("工作表 " ++ sheet.title ++ " 缺少表头"))
  | cells :: _ => .ok cells

/-- `headers` of a sheet. -/
def headersOf (cells : List Cell) : List String :=
  cells.map fun cell => strip (normalizeCell cell.value)

/-- `_read_sheet`. -/
def readSheet (maxDataRows : Nat) : Sheet → Except ImportFailure (List String × List RawImportRow)
  | .chartsheet => .error (.escape .attributeError)
  | .worksheet sheet => do
    validateSheetDimensions sheet (maxDataRows + 1) maxXlsxColumns
    let headerCells ← sheetHeader sheet
    rejectFormulas headerCells sheet.title 1
    validateHeaders (headersOf headerCells) sheet.title
    let rows ← sheetRows sheet.title (headersOf headerCells) maxDataRows sheet.rows.failed 2
      (sheet.rows.rows.drop 1)
    return (headersOf headerCells, rows)

/-- Sheets that must be there. -/
def requiredSheets (entity : TransferEntity) : List String :=
  ["_meta", mainSheets entity, childSheets entity]

/-- The checks on the names of the sheets. -/
def checkSheetNames (entity : TransferEntity) (names : List String) :
    Except ImportFailure Unit := do
  let missing := ((requiredSheets entity).filter (· ∉ names)).insertionSort (· ≤ ·)
  refuse (missing ≠ [])
    (.file "missing_xlsx_sheet" ("XLSX 缺少工作表: " ++ String.intercalate ", " missing))
  let allowed := requiredSheets entity ++ ["_lists", "说明"]
  let unexpected := (names.dedup.filter (· ∉ allowed)).insertionSort (· ≤ ·)
  refuse (unexpected ≠ [])
    (.file "unexpected_xlsx_sheet" ("XLSX 包含未知工作表: " ++ String.intercalate ", " unexpected))

/-- The checks on the metadata. -/
def checkMetadata (entity : TransferEntity) (metadata : List (String × String)) :
    Except ImportFailure Unit := do
  refuse (metadata.lookup "entity" ≠ some entity.value)
    (.file "template_entity_mismatch" "模板实体类型与导入入口不匹配")
  refuse ((metadata.lookup "template_version").getD "" ≠ templateVersion)
    (.file "unsupported_template_version" "XLSX template_version 必须为 1")

/-- `workbook[name]`, of a name that is there. -/
def Workbook.sheet (workbook : Workbook) (name : String) : Sheet :=
  (workbook.lookup name).getD .chartsheet

/-- The checks on the numbers of rows. -/
def checkRowCounts (mainRows childRows : Nat) : Except ImportFailure Unit := do
  refuse (maxPrimaryRows < mainRows) (.file "too_many_rows" "主数据最多允许 5000 行")
  refuse (maxTotalRows < mainRows + childRows)
    (.file "too_many_total_rows" "工作簿总数据最多允许 100000 行")

/-- `_parse_xlsx`. -/
def parseXlsx (l : Libraries) (entity : TransferEntity) (filename : String) (content : List UInt8)
    (digest : String) : Except ImportFailure ParsedImport := do
  let workbook ← demand (.file "invalid_xlsx_workbook" "无法读取 XLSX 工作簿") (l.loadWorkbook content)
  checkSheetNames entity (workbook.map (·.1))
  let metadata ← readMetadata (Workbook.sheet workbook "_meta")
  checkMetadata entity metadata
  let main ← readSheet maxPrimaryRows (Workbook.sheet workbook (mainSheets entity))
  let child ← readSheet maxTotalRows (Workbook.sheet workbook (childSheets entity))
  checkRowCounts main.2.length child.2.length
  return { entity, filename, transferFormat := .xlsx, sha256 := digest, templateVersion
           mainSheet := mainSheets entity, mainHeaders := main.1, mainRows := main.2
           childSheet := some (childSheets entity), childHeaders := child.1, childRows := child.2 }

/-- The parser of a format. -/
def parseContent (l : Libraries) (entity : TransferEntity) (filename : String)
    (content : List UInt8) :
    TransferFormat → Except ImportFailure ParsedImport
  | .csv => parseCsv l entity filename content (l.sha256Hex content)
  | .xlsx => parseXlsx l entity filename content (l.sha256Hex content)

/-- `parse_import_file`. -/
def parseImportFile (l : Libraries) (i : Interpreter) (entity : TransferEntity) (filename : String)
    (content : List UInt8) : Except ImportFailure ParsedImport := do
  let transferFormat ← validateUpload l i filename content
  parseContent l entity filename content transferFormat

/-! ## The preview of a file -/

/-- `CSV_HEADERS`. -/
def csvHeaders : TransferEntity → List String
  | .testCases =>
    ["template_version", "row_key", "suite_id", "suite_path", "title", "preconditions",
      "priority", "case_type", "tags", "steps_json"]
  | .defects => ["template_version", "row_key", "title", "description", "severity", "priority",
      "reporter", "assignee", "environment", "case_id", "execution_id", "expected_result",
      "actual_result", "reproduction_steps_json"]

/-- `XLSX_MAIN_HEADERS`. -/
def xlsxMainHeaders : TransferEntity → List String
  | .testCases => ["row_key", "suite_id", "suite_path", "title", "preconditions", "priority",
      "case_type", "tags"]
  | .defects => ["row_key", "title", "description", "severity", "priority", "reporter", "assignee",
      "environment", "case_id", "execution_id", "expected_result", "actual_result"]

/-- `XLSX_CHILD_HEADERS`. -/
def xlsxChildHeaders : TransferEntity → List String
  | .testCases => ["row_key", "position", "action", "expected_result"]
  | .defects => ["row_key", "position", "step"]

/-- `_require_expected_headers`. -/
def requireExpectedHeaders (parsed : ParsedImport) : Except DomainError Unit := do
  let (expectedMain, expectedChild) := match parsed.transferFormat with
    | .csv => (csvHeaders parsed.entity, [])
    | .xlsx => (xlsxMainHeaders parsed.entity, xlsxChildHeaders parsed.entity)
  refuse (parsed.mainHeaders ≠ expectedMain) (.conflict "主表表头必须与模板完全一致；请下载最新模板后重试")
  refuse (expectedChild ≠ [] ∧ parsed.childHeaders ≠ expectedChild)
    (.conflict "步骤表表头必须与模板完全一致；请下载最新模板后重试")

/-- What of the store is listed for a project. -/
def projectData (s : QaStore) (projectId : Uuid) : ProjectData where
  suites := s.testSuites.rows.filter (·.projectId = projectId)
  cases := s.testCases.rows.filter (·.projectId = projectId)
  executions := s.executions.rows.filter (·.projectId = projectId)

/-- `_prepare`. -/
def prepare (l : Libraries) (i : Interpreter) (s : QaStore) (entity : TransferEntity)
    (projectId : UuidText) (filename : String) (content : List UInt8) :
    Except ImportFailure PreparedImport := do
  let projectId ← (parseUuid projectId "project_id").mapError .domain
  let _ ← (s.requireActiveProject "已归档项目不能导入业务数据" projectId).mapError .domain
  let parsed ← parseImportFile l i entity filename content
  (requireExpectedHeaders parsed).mapError .domain
  (prepareParsed i (projectData s projectId) parsed).mapError .escape

/-- `preview`. -/
def preview (l : Libraries) (i : Interpreter) (s : QaStore) (entity : TransferEntity)
    (projectId : UuidText) (filename : String) (content : List UInt8) :
    Except ImportFailure ImportPreview := do
  let prepared ← prepare l i s entity projectId filename content
  return prepared.preview

end QaPlatform.Services.DataTransferService
