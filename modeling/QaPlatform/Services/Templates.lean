import Mathlib.Data.List.GetD
import QaPlatform.Services.Exports
import QaPlatform.Services.ImportEscapes

/-!
# Templates

`app/data_transfer/templates.py`: a file for an import that has only a header. Whoever fills it in
and uploads it gets a row for each record that is not blank, under its number in the file.

`build_import_template` never raises, for its header is known. `filled_template` says when an
upload of a filled template is accepted, as an equivalence: every condition on the right is one
that a stage of the import checks, the limit of a cell among them, which is the reader's own.
-/

namespace QaPlatform.Services.DataTransferService

/-! ## The file and the rows -/

/-- `build_import_template`, for CSV; `none` is a `csv.Error`. -/
def buildImportTemplate (entity : TransferEntity) : Option TransferArtifact :=
  (csvFile [csvHeaders entity]).map fun file => {
    filename := safeDownloadName (entity.value ++ "-import-template-v" ++ templateVersion) ++ ".csv"
    mediaType := "text/csv; charset=utf-8"
    content := encodeUtf8 file
    rowCount := 0 }

/-- The libraries, with the codec and the reader of CSV files that Python has. -/
def standardLibraries (l : Libraries) : Libraries :=
  { l with decode := decodeUtf8Sig, csvReader := csvReader }

/-- The template with records behind its header, as a writer leaves it. -/
def filledTemplate (entity : TransferEntity) (records : List (List String)) : Option (List UInt8) :=
  (csvFile (csvHeaders entity :: records)).map encodeUtf8

/-- The template is always built, and it is the one without records. -/
theorem buildImportTemplate_content (entity : TransferEntity) :
    ∃ artifact, buildImportTemplate entity = some artifact
      ∧ filledTemplate entity [] = some artifact.content := by
  have hclean : ∀ row ∈ [csvHeaders entity], ∀ cell ∈ row, '\x00' ∉ cell.toList := by
    cases entity <;> decide
  obtain ⟨file, hfile⟩ := csvFile_of_clean hclean
  unfold buildImportTemplate filledTemplate
  rw [hfile]
  exact ⟨_, rfl, rfl⟩

/-- The records that are not blank, with their numbers; an empty line has no number. -/
def filledRecords (number : Nat) (records : List (List String)) : List (List String × Nat) :=
  ((records.filter (· ≠ [])).zipIdx number).filter fun e => ∃ cell ∈ e.1, cell ≠ ""

/-- The row of a record. -/
def filledRow (entity : TransferEntity) (e : List String × Nat) : RawImportRow :=
  ⟨mainSheets entity, e.2, (csvHeaders entity).zipIdx.map fun h => (h.1, e.1.getD h.2 "")⟩

/-- What can be filled in. -/
structure Fillable (entity : TransferEntity) (records : List (List String)) : Prop where
  columns : ∀ record ∈ records, record.length ≤ (csvHeaders entity).length
  rows : (filledRecords 2 records).length ≤ maxPrimaryRows
  versions : ∀ e ∈ filledRecords 2 records, strip (e.1.getD 0 "") = templateVersion

/-- What is parsed. -/
def parsedTemplate (l : Libraries) (entity : TransferEntity) (filename : String)
    (content : List UInt8) (records : List (List String)) : ParsedImport where
  entity := entity
  filename := filename
  transferFormat := .csv
  sha256 := l.sha256Hex content
  templateVersion := templateVersion
  mainSheet := mainSheets entity
  mainHeaders := csvHeaders entity
  mainRows := (filledRecords 2 records).map (filledRow entity)
  childSheet := none
  childHeaders := []
  childRows := []

/-! ## Records by their headers -/

/-- Entries under keys of their own stay as they are. -/
theorem foldl_put {entries d : List (String × String)} (h : ((d ++ entries).map Prod.fst).Nodup) :
    entries.foldl (fun d entry => put d entry.1 entry.2) d = d ++ entries := by
  induction entries generalizing d with
  | nil => simp
  | cons entry entries ih =>
    have hfresh : entry.1 ∉ d.map (·.1) := by
      intro hmem
      rw [List.map_append, List.nodup_append] at h
      exact h.2.2 entry.1 hmem entry.1 (by simp) rfl
    have hput : put d entry.1 entry.2 = d ++ [entry] := by
      unfold put
      rw [if_neg hfresh]
    rw [List.foldl_cons, hput, ih (by simpa using h), List.append_assoc, List.singleton_append]

theorem csvValues_csvHeaders (entity : TransferEntity) (record : List String) :
    csvValues (csvHeaders entity) record
      = (csvHeaders entity).zipIdx.map fun h => (h.1, record.getD h.2 "") := by
  have hstrip : ∀ header ∈ csvHeaders entity, strip header = header := by cases entity <;> decide
  have hnodup : (csvHeaders entity).Nodup := by cases entity <;> decide
  have hentries : ((csvHeaders entity).zipIdx.map fun h => (strip h.1, record.getD h.2 ""))
      = (csvHeaders entity).zipIdx.map fun h => (h.1, record.getD h.2 "") := by
    apply List.map_congr_left
    intro h hmem
    rw [hstrip h.1 (List.fst_mem_of_mem_zipIdx hmem)]
  have hkeys : ((csvHeaders entity).zipIdx.map fun h => (h.1, record.getD h.2 "")).map Prod.fst
      = csvHeaders entity := by
    rw [List.map_map]
    exact List.zipIdx_map_fst 0 (csvHeaders entity)
  unfold csvValues
  show ((csvHeaders entity).zipIdx.map fun h => (strip h.1, record.getD h.2 "")).foldl _ [] = _
  rw [hentries, foldl_put (by rw [List.nil_append, hkeys]; exact hnodup), List.nil_append]

/-- The values of a record are blank when all its cells are. -/
theorem isBlank_csvValues {entity : TransferEntity} {record : List String}
    (hlength : record.length ≤ (csvHeaders entity).length) :
    IsBlank (csvValues (csvHeaders entity) record) ↔ ¬ ∃ cell ∈ record, cell ≠ "" := by
  rw [csvValues_csvHeaders]
  unfold IsBlank
  simp only [List.forall_mem_map, ne_eq, not_exists, not_and, not_not]
  constructor
  · intro h cell hcell
    obtain ⟨index, hindex, rfl⟩ := List.mem_iff_getElem.mp hcell
    have hheader : index < (csvHeaders entity).length := by omega
    have hmem : ((csvHeaders entity)[index], index) ∈ (csvHeaders entity).zipIdx :=
      List.mk_mem_zipIdx_iff_getElem?.mpr (List.getElem?_eq_getElem hheader)
    have hvalue := h _ hmem
    rwa [List.getD_eq_getElem _ _ hindex] at hvalue
  · intro h e _
    rcases Nat.lt_or_ge e.2 record.length with hindex | hindex
    · rw [List.getD_eq_getElem _ _ hindex]
      exact h _ (List.getElem_mem hindex)
    · exact List.getD_eq_default _ _ hindex

/-! ## Records in turn -/

section
variable {entity : TransferEntity} {number count : Nat} {record : List String}
  {records : List (List String)}

theorem filledRecords_nil :
    filledRecords number ([] :: records) = filledRecords number records := by
  simp [filledRecords]

theorem filledRecords_blank (hne : record ≠ []) (hblank : ¬ ∃ cell ∈ record, cell ≠ "") :
    filledRecords number (record :: records) = filledRecords (number + 1) records := by
  unfold filledRecords
  rw [List.filter_cons_of_pos (by simpa using hne), List.zipIdx_cons,
    List.filter_cons_of_neg (by simpa using hblank)]

theorem filledRecords_cons (hne : record ≠ []) (hfilled : ∃ cell ∈ record, cell ≠ "") :
    filledRecords number (record :: records)
      = (record, number) :: filledRecords (number + 1) records := by
  unfold filledRecords
  rw [List.filter_cons_of_pos (by simpa using hne), List.zipIdx_cons,
    List.filter_cons_of_pos (by simpa using hfilled)]

theorem csvRows_eq_ok {rows : List RawImportRow} (hcount : count ≤ maxPrimaryRows) :
    csvRows entity (csvHeaders entity) false number count records = .ok rows
      ↔ (∀ record ∈ records, record.length ≤ (csvHeaders entity).length)
        ∧ count + (filledRecords number records).length ≤ maxPrimaryRows
        ∧ rows = (filledRecords number records).map (filledRow entity) := by
  induction records generalizing number count rows with
  | nil => simp [csvRows, filledRecords, hcount, eq_comm]
  | cons record records ih =>
    rw [List.forall_mem_cons]
    unfold csvRows
    split
    · next hempty =>
      rw [ih hcount, hempty, filledRecords_nil]
      simp only [List.length_nil, Nat.zero_le, true_and]
    · next hne =>
      split
      · next hlong =>
        refine iff_of_false (by simp) fun h => ?_
        have hshort := h.1.1
        omega
      · next hlength =>
        have hshort : record.length ≤ (csvHeaders entity).length := by omega
        rw [and_iff_right hshort]
        split
        · next hblank =>
          rw [ih hcount, filledRecords_blank hne ((isBlank_csvValues hshort).mp hblank)]
        · next hvalues =>
          have hfilled : ∃ cell ∈ record, cell ≠ "" := by
            rw [isBlank_csvValues hshort, not_not] at hvalues
            exact hvalues
          rw [filledRecords_cons hne hfilled, List.length_cons, List.map_cons]
          split
          · next hmany =>
            refine iff_of_false (by simp) fun h => ?_
            have hfew := h.2.1
            omega
          · next hfew =>
            have hrow : (⟨mainSheets entity, number, csvValues (csvHeaders entity) record⟩
                : RawImportRow) = filledRow entity (record, number) := by
              unfold filledRow
              rw [csvValues_csvHeaders]
            rw [bind_eq_ok, hrow]
            constructor
            · intro ⟨rest, hrest, hrows⟩
              obtain ⟨hlengths, hcounts, rfl⟩ := (ih (by omega)).mp hrest
              exact ⟨hlengths, by omega, (Except.ok.inj hrows).symm⟩
            · intro ⟨hlengths, hcounts, hrows⟩
              exact ⟨_, (ih (by omega)).mpr ⟨hlengths, by omega, rfl⟩, by rw [hrows]; rfl⟩

end

/-! ## Uploads of a template -/

theorem cell_filledRow (entity : TransferEntity) (e : List String × Nat) :
    (filledRow entity e).cell "template_version" = e.1.getD 0 "" := by
  cases entity <;> rfl

/-- The header of a template is the one that an import expects. -/
theorem validateHeaders_csvHeaders (entity : TransferEntity) :
    validateHeaders (csvHeaders entity) (mainSheets entity) = .ok () := by
  cases entity <;> rfl

/-- The header is within the limit. -/
theorem cellsFit_csvHeaders (entity : TransferEntity) : CellsFit (csvHeaders entity) := by
  cases entity <;> decide

section
variable {l : Libraries} {entity : TransferEntity} {filename : String}
  {content : List UInt8} {records : List (List String)} {parsed : ParsedImport}

theorem read_filledTemplate (h : filledTemplate entity records = some content) :
    ∃ text, decodeUtf8Sig content = some text
      ∧ csvReader text = ⟨csvHeaders entity :: records.takeWhile fun record => CellsFit record,
        !records.all fun record => CellsFit record⟩ := by
  obtain ⟨file, hfile, rfl⟩ := Option.map_eq_some_iff.mp h
  obtain ⟨text, hdecoded, hread⟩ := csvReader_csvFile hfile
  have hheader : decide (CellsFit (csvHeaders entity)) = true :=
    decide_eq_true (cellsFit_csvHeaders entity)
  have hrows : ((csvHeaders entity :: records).takeWhile fun record => CellsFit record)
      = csvHeaders entity :: records.takeWhile fun record => CellsFit record :=
    List.takeWhile_cons_of_pos hheader
  rw [hrows, List.all_cons, hheader, Bool.true_and] at hread
  exact ⟨text, hdecoded, hread⟩

/-- The rows of a file at which the reader fails are not taken. -/
theorem csvRows_failed {headers : List String} {number count : Nat} (rows : List RawImportRow) :
    csvRows entity headers true number count records ≠ .ok rows := by
  induction records generalizing number count rows with
  | nil =>
    intro h
    cases h
  | cons record records ih =>
    unfold csvRows
    split
    · exact ih rows
    · split
      · intro h
        cases h
      · split
        · exact ih rows
        · split
          · intro h
            cases h
          · intro h
            obtain ⟨rest, hrest, -⟩ := bind_eq_ok.mp h
            exact ih rest hrest

theorem parseCsv_filledTemplate (h : filledTemplate entity records = some content) :
    parseCsv (standardLibraries l) entity filename content (l.sha256Hex content) = .ok parsed
      ↔ (∀ record ∈ records, CellsFit record) ∧ Fillable entity records
        ∧ parsed = parsedTemplate l entity filename content records := by
  obtain ⟨text, hdecoded, hread⟩ := read_filledTemplate h
  have hdemand : demand (.file "invalid_csv_encoding" "CSV 必须使用 UTF-8 编码（允许 BOM）")
      ((standardLibraries l).decode content)
      = (.ok text : Except ImportFailure String) := demand_eq_ok.mpr hdecoded
  have hreader : (standardLibraries l).csvReader text
      = ⟨csvHeaders entity :: records.takeWhile fun record => CellsFit record,
        !records.all fun record => CellsFit record⟩ := hread
  have hheader : ∀ rows failed, csvHeader ⟨csvHeaders entity :: rows, failed⟩
      = .ok (csvHeaders entity) := fun _ _ => rfl
  unfold parseCsv
  rw [hdemand, ok_bind]
  dsimp only
  rw [hreader, hheader, ok_bind, validateHeaders_csvHeaders, ok_bind, bind_eq_ok, List.drop_one,
    List.tail_cons]
  -- with cells that fit, the reader gives every record and only the columns and versions decide
  by_cases hfit : ∀ record ∈ records, CellsFit record
  · have hall : (records.all fun record => CellsFit record) = true := by simpa using hfit
    have hwhole : (records.takeWhile fun record => CellsFit record) = records :=
      List.takeWhile_eq_self_iff.mpr (by simpa using hfit)
    rw [hall, hwhole, and_iff_right hfit]
    constructor
    · intro ⟨rows, hrows, hrest⟩
      obtain ⟨hcolumns, hcount, rfl⟩ := (csvRows_eq_ok (Nat.zero_le _)).mp hrows
      obtain ⟨hversions, hparsed⟩ := refuse_bind_eq_ok.mp hrest
      refine ⟨⟨hcolumns, by rwa [Nat.zero_add] at hcount, ?_⟩, (Except.ok.inj hparsed).symm⟩
      intro e he
      by_contra hother
      refine hversions ⟨filledRow entity e, List.mem_map_of_mem he, ?_⟩
      rwa [cell_filledRow]
    · intro ⟨hfillable, hparsed⟩
      have hcount := hfillable.rows
      have hversions : ¬ ∃ row ∈ (filledRecords 2 records).map (filledRow entity),
          strip (row.cell "template_version") ≠ templateVersion := by
        rintro ⟨row, hrow, hother⟩
        obtain ⟨e, he, rfl⟩ := List.mem_map.mp hrow
        rw [cell_filledRow] at hother
        exact hother (hfillable.versions e he)
      exact ⟨_, (csvRows_eq_ok (Nat.zero_le _)).mpr ⟨hfillable.columns, by omega, rfl⟩,
        refuse_bind_eq_ok.mpr ⟨hversions, by rw [hparsed]; rfl⟩⟩
  · -- the reader fails at a cell that is too long, whatever the records before it are
    have hall : (records.all fun record => CellsFit record) = false :=
      Bool.eq_false_iff.mpr fun h => hfit (by simpa using h)
    rw [hall]
    refine iff_of_false ?_ fun h => hfit h.1
    rintro ⟨rows, hrows, -⟩
    exact csvRows_failed rows hrows

theorem filledTemplate_ne_nil (h : filledTemplate entity records = some content) :
    content ≠ [] := by
  obtain ⟨file, hfile, rfl⟩ := Option.map_eq_some_iff.mp h
  obtain ⟨text, -, rfl⟩ := Option.map_eq_some_iff.mp hfile
  intro hempty
  have hbytes : (String.ofList ('\ufeff' :: text)).toByteArray = ByteArray.empty :=
    ByteArray.ext (Array.toList_inj.mp hempty)
  rw [String.toByteArray_eq_empty_iff, String.ofList_eq_empty_iff] at hbytes
  exact List.cons_ne_nil _ _ hbytes

end

/-- A template that has been filled in by a writer and is uploaded as a CSV file is accepted exactly
when the file is neither too large nor has a zero byte, no cell is over the limit of the reader, no
record has more cells than the header, at most 5000 records are not blank, and all of these are of
the template's version; the rows are then these records, in their order and under the template's
headers. -/
theorem filled_template (l : Libraries) (i : Interpreter) (entity : TransferEntity)
    (filename : String) (records : List (List String)) (content : List UInt8)
    (parsed : ParsedImport) (hcsv : detectFormat i filename = .ok .csv)
    (hwritten : filledTemplate entity records = some content) :
    (parseImportFile (standardLibraries l) i entity filename content = .ok parsed
      ↔ content.length ≤ maxUploadBytes ∧ 0 ∉ content ∧ (∀ record ∈ records, CellsFit record)
        ∧ Fillable entity records ∧ parsed = parsedTemplate l entity filename content records)
    ∧ requireExpectedHeaders (parsedTemplate l entity filename content records) = .ok () := by
  have hne := filledTemplate_ne_nil hwritten
  constructor
  · unfold parseImportFile validateUpload
    rw [hcsv, ok_bind, bind_eq_ok]
    constructor
    · intro ⟨transferFormat, hvalidated, hparsed⟩
      obtain ⟨-, hsize⟩ := refuse_bind_eq_ok.mp hvalidated
      obtain ⟨hsmall, hcontent⟩ := refuse_bind_eq_ok.mp hsize
      obtain ⟨hzero, hformat⟩ := refuse_bind_eq_ok.mp hcontent
      obtain rfl := Except.ok.inj hformat
      exact ⟨by omega, hzero, (parseCsv_filledTemplate hwritten).mp hparsed⟩
    · intro ⟨hsmall, hzero, hparsed⟩
      refine ⟨.csv, ?_, (parseCsv_filledTemplate hwritten).mpr hparsed⟩
      exact refuse_bind_eq_ok.mpr ⟨hne, refuse_bind_eq_ok.mpr ⟨by omega,
        refuse_bind_eq_ok.mpr ⟨hzero, rfl⟩⟩⟩
  · cases entity <;> rfl

/-! A template with an empty line and a defect. -/

/-- Two records: one without cells, and one with quotes and a comma. -/
def paddedRecords : List (List String) := [[], ["1", "row", "the \"title\", quoted"]]

/-- The template with these records. -/
def paddedContent : List UInt8 := (filledTemplate .defects paddedRecords).getD []

set_option maxRecDepth 8000 in
theorem filled_template_padded :
    parseImportFile (standardLibraries encryptedLibraries) plainInterpreter .defects "defects.csv"
        paddedContent
      = .ok (parsedTemplate encryptedLibraries .defects "defects.csv" paddedContent
        paddedRecords) :=
  (filled_template encryptedLibraries plainInterpreter .defects "defects.csv" paddedRecords
    paddedContent _ (by rfl) (by rfl)).1.mpr
    ⟨by decide, by decide, by decide, ⟨by decide, by decide, by decide⟩, rfl⟩

end QaPlatform.Services.DataTransferService
