import QaPlatform.Base.Failures
import QaPlatform.Services.ExecutionTransitions
import QaPlatform.Services.ImportCommit
import QaPlatform.Services.ImportFiles

/-!
# What escapes from a preview

The preview of an import handles the exceptions that it expects of the packages it uses. The others
escape exactly when they are raised at a place that the file comes to: in the listing or the test
of the archive, behind rows that have been taken, in a sheet without rows, or in a JSON cell.

For every stage there is a predicate that says when an exception of a package reaches it: the
archive, the records or the sheets, the identifiers and JSON cells of the rows. A stage is come
to when the ones before it have accepted the file, so the predicates speak of accepted headers
and of rows that have been taken. The equivalence of `preview_handled` is put together from
those of the stages.
-/

namespace QaPlatform.Services.DataTransferService

/-- No handler of the routes catches it. -/
def ImportFailure.Uncaught : ImportFailure → Prop
  | .escape _ => True
  | .file .. => False
  | .domain _ => False

/-- Nothing escapes of a check that refuses the file. -/
theorem file_caught (code message : String) : ¬ (ImportFailure.file code message).Uncaught := id

/-- An exception escapes. -/
abbrev Escapes {α : Type} (x : Except ImportFailure α) : Prop := FailsWith ImportFailure.Uncaught x

theorem not_escapes_refuse {c : Prop} [Decidable c] {e : ImportFailure} (he : ¬ e.Uncaught) :
    ¬ Escapes (refuse c e : Except ImportFailure Unit) := by
  unfold refuse
  split
  · rwa [Escapes, failsWith_error]
  · exact failsWith_ok

/-! ## Archives -/

/-- A call of `zipfile` raises something else than `BadZipFile`. -/
def ZipOutcome.Raised {α : Type} (outcome : ZipOutcome α) : Prop := ∃ e, outcome = .raised e

theorem escapes_caughtZip {α : Type} {outcome : ZipOutcome α} :
    Escapes (caughtZip outcome) ↔ outcome.Raised := by
  cases outcome with
  | value a => simp [caughtZip, ZipOutcome.Raised]
  | badZipFile => simp [caughtZip, ZipOutcome.Raised, ImportFailure.Uncaught]
  | raised e => simp [caughtZip, ZipOutcome.Raised, ImportFailure.Uncaught]

theorem caughtZip_eq_ok {α : Type} {outcome : ZipOutcome α} {a : α} :
    caughtZip outcome = .ok a ↔ outcome = .value a := by
  cases outcome with
  | value b => simp [caughtZip]
  | badZipFile => simp [caughtZip]
  | raised e => simp [caughtZip]

theorem not_escapes_checkMember (i : Interpreter) (total : Nat) (info : ZipInfo) :
    ¬ Escapes (checkMember i total info) := by
  unfold checkMember
  simp only [Escapes, failsWith_refuse_bind (file_caught _ _)]
  exact fun h => failsWith_ok h.2.2.2.2

theorem not_escapes_checkMembers (i : Interpreter) (total : Nat) (infos : List ZipInfo) :
    ¬ Escapes (checkMembers i total infos) := by
  induction infos generalizing total with
  | nil => exact failsWith_ok
  | cons info infos ih =>
    unfold checkMembers
    rw [Escapes, failsWith_bind_of_not (not_escapes_checkMember i total info)]
    exact fun ⟨total', _, hrest⟩ => ih total' hrest

theorem not_escapes_checkInfos (i : Interpreter) (infos : List ZipInfo) :
    ¬ Escapes (checkInfos i infos) := by
  unfold checkInfos
  simp only [Escapes, failsWith_refuse_bind (file_caught _ _)]
  exact fun h => not_escapes_checkMembers i 0 infos h.2.2

/-- The listing of the archive raises, or the test of its members does and they have been
accepted. -/
def ArchiveUncaught (l : Libraries) (i : Interpreter) (content : List UInt8) : Prop :=
  [0x50, 0x4b] <+: content ∧ ((l.infolist content).Raised
    ∨ (∃ infos, l.infolist content = .value infos ∧ checkInfos i infos = .ok ())
      ∧ (l.testzip content).Raised)

theorem escapes_validateXlsxArchive {l : Libraries} {i : Interpreter} {content : List UInt8} :
    Escapes (validateXlsxArchive l i content) ↔ ArchiveUncaught l i content := by
  unfold validateXlsxArchive ArchiveUncaught
  rw [Escapes, failsWith_refuse_bind (file_caught _ _), not_not, failsWith_bind, ← Escapes,
    escapes_caughtZip]
  refine and_congr_right fun _ => or_congr_right ?_
  constructor
  · intro ⟨infos, hinfos, hrest⟩
    rw [failsWith_bind_of_not (not_escapes_checkInfos i infos)] at hrest
    obtain ⟨⟨⟩, hchecked, htest⟩ := hrest
    refine ⟨⟨infos, caughtZip_eq_ok.mp hinfos, hchecked⟩, escapes_caughtZip.mp ?_⟩
    rcases failsWith_bind.mp htest with hraised | ⟨_, _, hlast⟩
    · exact hraised
    · exact absurd hlast (not_escapes_refuse (file_caught _ _))
  · intro ⟨⟨infos, hinfos, hchecked⟩, hraised⟩
    refine ⟨infos, caughtZip_eq_ok.mpr hinfos, ?_⟩
    rw [hchecked, ok_bind]
    exact failsWith_bind.mpr (.inl (escapes_caughtZip.mpr hraised))

/-! ## CSV -/

theorem not_escapes_validateHeaders (headers : List String) (sheet : String) :
    ¬ Escapes (validateHeaders headers sheet) := by
  unfold validateHeaders
  simp only [Escapes, failsWith_refuse_bind (file_caught _ _)]
  exact fun h => not_escapes_refuse (file_caught _ _) h.2.2

/-- Records that are taken as rows. -/
def takenRecords (headers : List String) (records : List (List String)) : List (List String) :=
  records.filter fun record => record ≠ [] ∧ ¬ IsBlank (csvValues headers record)

/-- The reader raises behind records that are all taken or passed over. -/
def RecordsUncaught (headers : List String) (failed : Bool) (records : List (List String))
    (count : Nat) : Prop :=
  failed = true ∧ (∀ record ∈ records, record.length ≤ headers.length)
    ∧ count + (takenRecords headers records).length ≤ maxPrimaryRows

theorem escapes_csvRows {entity : TransferEntity} {headers : List String} {failed : Bool}
    {number count : Nat} {records : List (List String)} (hcount : count ≤ maxPrimaryRows) :
    Escapes (csvRows entity headers failed number count records)
      ↔ RecordsUncaught headers failed records count := by
  induction records generalizing number count with
  | nil =>
    unfold csvRows RecordsUncaught
    cases failed with
    | false => simp
    | true => simpa [ImportFailure.Uncaught, takenRecords] using hcount
  | cons record records ih =>
    -- a record that is passed over is not counted
    have hskip : record = [] ∨ IsBlank (csvValues headers record) →
        takenRecords headers (record :: records) = takenRecords headers records := by
      intro h
      refine List.filter_cons_of_neg ?_
      simp only [decide_eq_true_eq, not_and, not_not]
      exact fun hne => h.resolve_left hne
    have hrecords : record.length ≤ headers.length →
        takenRecords headers (record :: records) = takenRecords headers records →
        (RecordsUncaught headers failed (record :: records) count
          ↔ RecordsUncaught headers failed records count) := by
      intro hlength hsame
      unfold RecordsUncaught
      rw [hsame, List.forall_mem_cons, and_iff_right hlength]
    unfold csvRows
    split
    -- the reader gives an empty record for an empty line
    · next hempty =>
      rw [ih hcount, hrecords (by simp [hempty]) (hskip (.inl hempty))]
    · next hne =>
      split
      · next hlong =>
        refine iff_of_false (by simp [ImportFailure.Uncaught]) fun h => ?_
        have hshort := h.2.1 record List.mem_cons_self
        omega
      · next hlength =>
        split
        · next hblank =>
          rw [ih hcount, hrecords (by omega) (hskip (.inr hblank))]
        · next hvalues =>
          have htaken : takenRecords headers (record :: records)
              = record :: takenRecords headers records := by
            refine List.filter_cons_of_pos ?_
            simpa using ⟨hne, hvalues⟩
          split
          · next hmany =>
            refine iff_of_false (by simp [ImportFailure.Uncaught]) fun h => ?_
            have hfew := h.2.2
            rw [htaken, List.length_cons] at hfew
            omega
          · next hfew =>
            -- a row that is taken raises nothing itself
            have hlast : ∀ rows : List RawImportRow, ¬ Escapes (do
                let rest ← (.ok rows : Except ImportFailure (List RawImportRow))
                return ⟨mainSheets entity, number, csvValues headers record⟩ :: rest) :=
              fun _ => failsWith_ok
            rw [Escapes, failsWith_bind, or_iff_left (fun ⟨rows, _, h⟩ => hlast rows h), ← Escapes,
              ih (by omega)]
            unfold RecordsUncaught
            rw [htaken, List.length_cons, List.forall_mem_cons]
            constructor
            · exact fun ⟨hfailed, hlengths, hcount⟩ => ⟨hfailed, ⟨by omega, hlengths⟩, by omega⟩
            · exact fun ⟨hfailed, ⟨_, hlengths⟩, hcount⟩ => ⟨hfailed, hlengths, by omega⟩

/-- The reader of a CSV file raises at the header, or behind an accepted header and records that are
taken or passed over. -/
def CsvUncaught (l : Libraries) (entity : TransferEntity) (content : List UInt8) : Prop :=
  ∃ text, l.decode content = some text ∧ (l.csvReader text).failed = true
    ∧ ∀ header records, (l.csvReader text).rows = header :: records →
      validateHeaders header (mainSheets entity) = .ok ()
        ∧ RecordsUncaught header true records 0

theorem escapes_parseCsv {l : Libraries} {entity : TransferEntity} {filename : String}
    {content : List UInt8} {digest : String} :
    Escapes (parseCsv l entity filename content digest) ↔ CsvUncaught l entity content := by
  unfold parseCsv CsvUncaught
  rw [Escapes, failsWith_demand_bind (file_caught _ _)]
  refine exists_congr fun text => and_congr_right fun _ => ?_
  rcases hreader : l.csvReader text with ⟨rows, failed⟩
  cases rows with
  | nil =>
    cases failed with
    | true => simp [csvHeader, failsWith_bind, ImportFailure.Uncaught]
    | false =>
      simp [csvHeader, validateHeaders, refuse, failsWith_bind, ImportFailure.Uncaught]
  | cons header records =>
    have hheader : csvHeader ⟨header :: records, failed⟩ = .ok header := rfl
    dsimp only
    rw [hheader, ok_bind, failsWith_bind_of_not (not_escapes_validateHeaders _ _)]
    constructor
    · rintro ⟨⟨⟩, hheaders, hrest⟩
      rcases failsWith_bind.mp hrest with hrows | ⟨rows, -, hlast⟩
      · obtain ⟨rfl, hlengths, hcount⟩ := (escapes_csvRows (Nat.zero_le _)).mp hrows
        refine ⟨rfl, fun header' records' hsame => ?_⟩
        obtain ⟨rfl, rfl⟩ := List.cons.inj hsame
        exact ⟨hheaders, rfl, hlengths, hcount⟩
      · rw [failsWith_refuse_bind (file_caught _ _)] at hlast
        exact absurd hlast.2 failsWith_ok
    · rintro ⟨hfailed, hrecords⟩
      obtain ⟨hheaders, hraised⟩ := hrecords header records rfl
      subst hfailed
      exact ⟨⟨⟩, hheaders, failsWith_bind.mpr
        (.inl ((escapes_csvRows (Nat.zero_le _)).mpr hraised))⟩

/-! ## Workbooks -/

/-- No cell has a formula. -/
def NoFormulas (rows : List (List Cell)) : Prop :=
  ∀ cells ∈ rows, ∀ cell ∈ cells, cell.formula = false

theorem noFormulas_cons {cells : List Cell} {rows : List (List Cell)} :
    NoFormulas (cells :: rows) ↔ (¬ ∃ cell ∈ cells, cell.formula = true) ∧ NoFormulas rows := by
  unfold NoFormulas
  rw [List.forall_mem_cons]
  simp

/-- The size that a sheet says it has. -/
def DimensionsOk (sheet : Worksheet) (maxRows maxColumns : Nat) : Prop :=
  sheet.maxRow.getD 0 ≤ maxRows ∧ sheet.maxColumn.getD 0 ≤ maxColumns

theorem escapes_dimensions_bind {α : Type} {sheet : Worksheet} {maxRows maxColumns : Nat}
    {f : Unit → Except ImportFailure α} :
    Escapes (validateSheetDimensions sheet maxRows maxColumns >>= f)
      ↔ DimensionsOk sheet maxRows maxColumns ∧ Escapes (f ()) := by
  have hchecked : validateSheetDimensions sheet maxRows maxColumns = .ok ()
      ↔ DimensionsOk sheet maxRows maxColumns := by
    simp [validateSheetDimensions, refuse_bind_eq_ok, DimensionsOk]
  have hcaught : ¬ Escapes (validateSheetDimensions sheet maxRows maxColumns) := by
    unfold validateSheetDimensions
    rw [Escapes, failsWith_refuse_bind (file_caught _ _)]
    exact fun h => not_escapes_refuse (file_caught _ _) h.2
  rw [Escapes, failsWith_bind_of_not hcaught, ← hchecked]
  constructor
  · rintro ⟨⟨⟩, hok, hrest⟩
    exact ⟨hok, hrest⟩
  · rintro ⟨hok, hrest⟩
    exact ⟨⟨⟩, hok, hrest⟩

theorem escapes_metadataRows {title : String} {failed : Bool} {index : Nat}
    {metadata : List (String × String)} {rows : List (List Cell)} :
    Escapes (metadataRows title failed index metadata rows) ↔ failed = true ∧ NoFormulas rows
      ∧ (rows = [] ∨ index + rows.length ≤ maxXlsxMetadataRows + 1) := by
  induction rows generalizing index metadata with
  | nil =>
    unfold metadataRows
    cases failed with
    | false => simp
    | true => simp [ImportFailure.Uncaught, NoFormulas]
  | cons cells rows ih =>
    unfold metadataRows rejectFormulas
    rw [Escapes, failsWith_refuse_bind (file_caught _ _), failsWith_refuse_bind (file_caught _ _),
      ← Escapes, ih, noFormulas_cons, List.length_cons]
    simp only [reduceCtorEq, false_or]
    constructor
    · rintro ⟨hindex, hcells, hfailed, hrows, hlength⟩
      refine ⟨hfailed, ⟨hcells, hrows⟩, ?_⟩
      rcases hlength with rfl | hlength
      · simp only [List.length_nil]
        omega
      · omega
    · rintro ⟨hfailed, ⟨hcells, hrows⟩, hlength⟩
      exact ⟨by omega, hcells, hfailed, hrows, .inr (by omega)⟩

/-- The rows of a sheet of metadata raise behind rows that are taken. -/
def MetadataUncaught : Sheet → Prop
  | .chartsheet => True
  | .worksheet sheet => DimensionsOk sheet maxXlsxMetadataRows 16 ∧ sheet.rows.failed = true
    ∧ NoFormulas sheet.rows.rows ∧ sheet.rows.rows.length ≤ maxXlsxMetadataRows

theorem escapes_readMetadata {sheet : Sheet} :
    Escapes (readMetadata sheet) ↔ MetadataUncaught sheet := by
  cases sheet with
  | chartsheet => simp [readMetadata, MetadataUncaught, ImportFailure.Uncaught]
  | worksheet sheet =>
    unfold readMetadata MetadataUncaught
    rw [escapes_dimensions_bind, escapes_metadataRows]
    refine and_congr_right fun _ => and_congr_right fun _ => and_congr_right fun _ => ?_
    constructor
    · rintro (hnil | hlength)
      · rw [hnil]
        exact Nat.zero_le _
      · omega
    · exact fun hlength => .inr (by omega)

/-- The rows behind the header are taken. -/
def RowsTaken (headers : List String) (rows : List (List Cell)) : Prop :=
  ∀ cells ∈ rows, (∀ cell ∈ cells, cell.formula = false)
    ∧ ¬ HasExtra headers (cells.map fun cell => normalizeCell cell.value)

theorem escapes_sheetRows {title : String} {headers : List String} {maxDataRows : Nat}
    {failed : Bool}
    {number : Nat} {rows : List (List Cell)} :
    Escapes (sheetRows title headers maxDataRows failed number rows) ↔ failed = true
      ∧ RowsTaken headers rows ∧ (rows = [] ∨ number + rows.length ≤ maxDataRows + 2) := by
  induction rows generalizing number with
  | nil =>
    unfold sheetRows
    cases failed with
    | false => simp
    | true => simp [ImportFailure.Uncaught, RowsTaken]
  | cons cells rows ih =>
    unfold sheetRows rejectFormulas
    rw [Escapes, failsWith_refuse_bind (file_caught _ _), failsWith_refuse_bind (file_caught _ _),
      failsWith_refuse_bind (file_caught _ _), failsWith_bind_left, ← Escapes, ih]
    swap
    · exact fun _ => failsWith_ok
    unfold RowsTaken
    rw [List.forall_mem_cons, List.length_cons]
    simp only [reduceCtorEq, false_or, not_exists, not_and, Bool.not_eq_true]
    constructor
    · rintro ⟨hnumber, hcells, hextra, hfailed, hrows, hlength⟩
      refine ⟨hfailed, ⟨⟨hcells, hextra⟩, hrows⟩, ?_⟩
      rcases hlength with rfl | hlength
      · simp only [List.length_nil]
        omega
      · omega
    · rintro ⟨hfailed, ⟨⟨hcells, hextra⟩, hrows⟩, hlength⟩
      exact ⟨by omega, hcells, hextra, hfailed, hrows, .inr (by omega)⟩

/-- A sheet raises at its header, or behind an accepted header and rows that are taken. -/
def SheetUncaught (maxDataRows : Nat) : Sheet → Prop
  | .chartsheet => True
  | .worksheet sheet => DimensionsOk sheet (maxDataRows + 1) maxXlsxColumns
      ∧ sheet.rows.failed = true
    ∧ ∀ header rows, sheet.rows.rows = header :: rows → (∀ cell ∈ header, cell.formula = false)
      ∧ validateHeaders (headersOf header) sheet.title = .ok ()
      ∧ RowsTaken (headersOf header) rows ∧ rows.length ≤ maxDataRows

theorem escapes_readSheet {maxDataRows : Nat} {sheet : Sheet} :
    Escapes (readSheet maxDataRows sheet) ↔ SheetUncaught maxDataRows sheet := by
  cases sheet with
  | chartsheet => simp [readSheet, SheetUncaught, ImportFailure.Uncaught]
  | worksheet sheet =>
    unfold readSheet SheetUncaught
    rw [escapes_dimensions_bind]
    refine and_congr_right fun _ => ?_
    rcases sheet with ⟨title, maxRow, maxColumn, rows, failed⟩
    cases rows with
    | nil =>
      cases failed with
      | true => simp [sheetHeader, failsWith_bind, ImportFailure.Uncaught]
      | false => simp [sheetHeader, failsWith_bind, ImportFailure.Uncaught]
    | cons header rows =>
      have hheader : sheetHeader ⟨title, maxRow, maxColumn, header :: rows, failed⟩
        = .ok header := rfl
      rw [hheader, ok_bind, rejectFormulas, Escapes, failsWith_refuse_bind (file_caught _ _),
        failsWith_bind_of_not (not_escapes_validateHeaders _ _)]
      constructor
      · rintro ⟨hcells, ⟨⟩, hheaders, hrest⟩
        rw [failsWith_bind_left, ← Escapes, escapes_sheetRows] at hrest
        swap
        · exact fun _ => failsWith_ok
        obtain ⟨hfailed, htaken, hlength⟩ := hrest
        refine ⟨hfailed, fun header' rows' hsame => ?_⟩
        obtain ⟨rfl, rfl⟩ := List.cons.inj hsame
        refine ⟨by simpa using hcells, hheaders, htaken, ?_⟩
        rw [List.drop_succ_cons, List.drop_zero] at hlength
        rcases hlength with rfl | hlength
        · exact Nat.zero_le _
        · omega
      · rintro ⟨hfailed, hrows⟩
        obtain ⟨hcells, hheaders, htaken, hlength⟩ := hrows header rows rfl
        refine ⟨by simpa using hcells, ⟨⟩, hheaders, ?_⟩
        rw [failsWith_bind_left, ← Escapes, escapes_sheetRows]
        swap
        · exact fun _ => failsWith_ok
        rw [List.drop_succ_cons, List.drop_zero]
        exact ⟨hfailed, htaken, .inr (by omega)⟩

/-- A workbook with the sheets of the entity raises at its metadata, or at one of the two sheets of
rows when what comes before it has been accepted. -/
def WorkbookUncaught (l : Libraries) (entity : TransferEntity) (content : List UInt8) : Prop :=
  ∃ workbook, l.loadWorkbook content = some workbook
    ∧ checkSheetNames entity (workbook.map (·.1)) = .ok ()
    ∧ (MetadataUncaught (Workbook.sheet workbook "_meta")
      ∨ (∃ metadata, readMetadata (Workbook.sheet workbook "_meta") = .ok metadata
          ∧ checkMetadata entity metadata = .ok ())
        ∧ (SheetUncaught maxPrimaryRows (Workbook.sheet workbook (mainSheets entity))
          ∨ (∃ main, readSheet maxPrimaryRows
            (Workbook.sheet workbook (mainSheets entity)) = .ok main)
            ∧ SheetUncaught maxTotalRows (Workbook.sheet workbook (childSheets entity))))

theorem not_escapes_checkSheetNames (entity : TransferEntity) (names : List String) :
    ¬ Escapes (checkSheetNames entity names) := by
  unfold checkSheetNames
  dsimp only
  rw [Escapes, failsWith_refuse_bind (file_caught _ _)]
  exact fun h => not_escapes_refuse (file_caught _ _) h.2

theorem not_escapes_checkMetadata (entity : TransferEntity) (metadata : List (String × String)) :
    ¬ Escapes (checkMetadata entity metadata) := by
  unfold checkMetadata
  rw [Escapes, failsWith_refuse_bind (file_caught _ _)]
  exact fun h => not_escapes_refuse (file_caught _ _) h.2

theorem not_escapes_checkRowCounts (mainRows childRows : Nat) :
    ¬ Escapes (checkRowCounts mainRows childRows) := by
  unfold checkRowCounts
  rw [Escapes, failsWith_refuse_bind (file_caught _ _)]
  exact fun h => not_escapes_refuse (file_caught _ _) h.2

/-- A check that refuses the file, and what comes behind it. -/
theorem escapes_check_bind {α : Type} {check : Except ImportFailure Unit}
    (hcaught : ¬ Escapes check) {f : Unit → Except ImportFailure α} :
    Escapes (check >>= f) ↔ check = .ok () ∧ Escapes (f ()) := by
  rw [Escapes, failsWith_bind_of_not hcaught]
  exact ⟨fun ⟨⟨⟩, hok, hrest⟩ => ⟨hok, hrest⟩, fun ⟨hok, hrest⟩ => ⟨⟨⟩, hok, hrest⟩⟩

theorem escapes_parseXlsx {l : Libraries} {entity : TransferEntity} {filename : String}
    {content : List UInt8} {digest : String} :
    Escapes (parseXlsx l entity filename content digest) ↔ WorkbookUncaught l entity content := by
  unfold parseXlsx WorkbookUncaught
  rw [Escapes, failsWith_demand_bind (file_caught _ _)]
  refine exists_congr fun workbook => and_congr_right fun _ => ?_
  rw [← Escapes, escapes_check_bind (not_escapes_checkSheetNames _ _)]
  refine and_congr_right fun _ => ?_
  rw [Escapes, failsWith_bind, ← Escapes, escapes_readMetadata]
  refine or_congr_right ?_
  rw [← exists_and_right]
  refine exists_congr fun metadata => ?_
  rw [and_assoc, ← Escapes, escapes_check_bind (not_escapes_checkMetadata _ _)]
  refine and_congr_right fun _ => and_congr_right fun _ => ?_
  rw [Escapes, failsWith_bind, ← Escapes, escapes_readSheet, ← exists_and_right]
  refine or_congr_right (exists_congr fun main => and_congr_right fun _ => ?_)
  rw [failsWith_bind, ← Escapes, escapes_readSheet]
  refine or_iff_left fun ⟨child, _, h⟩ => ?_
  rw [← Escapes, escapes_check_bind (not_escapes_checkRowCounts _ _)] at h
  exact failsWith_ok h.2

/-! ## Files -/

theorem not_escapes_detectFormat (i : Interpreter) (filename : String) :
    ¬ Escapes (detectFormat i filename) := by
  unfold detectFormat
  dsimp only
  split
  · exact failsWith_ok
  · split
    · exact failsWith_ok
    · rw [Escapes, failsWith_error]
      exact file_caught _ _

/-- The content of a file of a format raises at its archive, or when it is parsed. -/
def ContentUncaught (l : Libraries) (i : Interpreter) (entity : TransferEntity)
    (content : List UInt8) :
    TransferFormat → Prop
  | .csv => 0 ∉ content ∧ CsvUncaught l entity content
  | .xlsx => ArchiveUncaught l i content
    ∨ validateXlsxArchive l i content = .ok () ∧ WorkbookUncaught l entity content

/-- A file of a known format and of an accepted size raises. -/
def FileUncaught (l : Libraries) (i : Interpreter) (entity : TransferEntity) (filename : String)
    (content : List UInt8) : Prop :=
  ∃ transferFormat, detectFormat i filename = .ok transferFormat ∧ content ≠ []
    ∧ content.length ≤ maxUploadBytes ∧ ContentUncaught l i entity content transferFormat

theorem escapes_content {l : Libraries} {i : Interpreter} {entity : TransferEntity}
    {filename : String}
    {content : List UInt8} {transferFormat : TransferFormat} :
    Escapes (do
        validateContent l i content transferFormat
        parseContent l entity filename content transferFormat)
      ↔ ContentUncaught l i entity content transferFormat := by
  cases transferFormat with
  | csv =>
    unfold validateContent parseContent ContentUncaught
    rw [Escapes, failsWith_refuse_bind (file_caught _ _), ← Escapes, escapes_parseCsv]
  | xlsx =>
    unfold validateContent parseContent ContentUncaught
    rw [Escapes, failsWith_bind, ← Escapes, escapes_validateXlsxArchive]
    refine or_congr_right ?_
    constructor
    · exact fun ⟨⟨⟩, hok, hrest⟩ => ⟨hok, escapes_parseXlsx.mp hrest⟩
    · exact fun ⟨hok, hrest⟩ => ⟨⟨⟩, hok, escapes_parseXlsx.mpr hrest⟩

theorem escapes_parseImportFile {l : Libraries} {i : Interpreter} {entity : TransferEntity}
    {filename : String} {content : List UInt8} :
    Escapes (parseImportFile l i entity filename content)
      ↔ FileUncaught l i entity filename content := by
  have hassoc : parseImportFile l i entity filename content = (do
      let transferFormat ← detectFormat i filename
      refuse (content = []) (.file "empty_file" "上传文件不能为空")
      refuse (maxUploadBytes < content.length) (.file "file_too_large" "上传文件不能超过 5 MiB")
      validateContent l i content transferFormat
      parseContent l entity filename content transferFormat) := by
    unfold parseImportFile validateUpload
    cases detectFormat i filename with
    | error e => rfl
    | ok transferFormat =>
      simp only [ok_bind]
      unfold refuse
      split
      · rfl
      · split
        · rfl
        · simp only [ok_bind]
          cases validateContent l i content transferFormat with
          | error e => rfl
          | ok u => rfl
  rw [hassoc, Escapes, failsWith_bind_of_not (not_escapes_detectFormat i filename)]
  refine exists_congr fun transferFormat => and_congr_right fun _ => ?_
  rw [failsWith_refuse_bind (file_caught _ _), failsWith_refuse_bind (file_caught _ _), ← Escapes,
    escapes_content, Nat.not_lt]

/-! ## Rows -/

/-- The loop over the rows does not catch it. -/
def RowFailure.Uncaught : RowFailure → Prop
  | .escape _ => True
  | .data _ => False
  | .validation _ => False

/-- `json.loads` raises something else than `JSONDecodeError` on a cell. -/
def JsonRaises (i : Interpreter) (value : String) : Prop :=
  value ≠ "" ∧ (i.loads value = .recursionError ∨ i.loads value = .valueError)

section
variable {i : Interpreter}

theorem data_caught (error : RowDataError) : ¬ (RowFailure.data error).Uncaught := id

theorem failsWith_jsonList {value column : String} :
    FailsWith RowFailure.Uncaught (jsonList i value column) ↔ JsonRaises i value := by
  unfold jsonList JsonRaises
  split
  · next hempty => simp [hempty]
  · next hvalue =>
    split
    · next hloads =>
      rw [hloads]
      refine iff_of_false ?_ (by simp)
      unfold demand
      split
      · exact data_caught _ ∘ failsWith_error.mp
      · exact failsWith_ok
    all_goals
      next hloads => simp [hloads, hvalue, RowFailure.Uncaught]

theorem failsWith_jsonStringList {value column : String} :
    FailsWith RowFailure.Uncaught (jsonStringList i value column) ↔ JsonRaises i value := by
  unfold jsonStringList JsonRaises
  split
  · next hempty => simp [hempty]
  · next hvalue =>
    split
    · next hloads =>
      rw [hloads, failsWith_demand_bind (data_caught _)]
      exact iff_of_false (fun ⟨_, _, h⟩ => failsWith_ok h) (by simp)
    all_goals
      next hloads => simp [hloads, hvalue, RowFailure.Uncaught]

theorem optionalUuid_caught (i : Interpreter) (value column : String) :
    ¬ FailsWith RowFailure.Uncaught (optionalUuid i value column) := by
  unfold optionalUuid
  split
  · exact failsWith_ok
  · split
    · exact failsWith_ok
    · rw [failsWith_error]
      exact data_caught _

/-- A cell that is not blank is an identifier, or it is refused. -/
theorem optionalUuid_ne_none {value column : String} (h : strip value ≠ "") :
    optionalUuid i value column ≠ .ok none := by
  unfold optionalUuid
  rw [if_neg h]
  split
  · simp
  · simp

theorem suiteFromId_caught (i : Interpreter) (suites : List TestSuite) {rawId : String}
    (htrimmed : strip rawId = rawId) :
    ¬ FailsWith RowFailure.Uncaught (suiteFromId i suites rawId) := by
  unfold suiteFromId
  split
  · exact failsWith_ok
  · next hblank =>
    rw [failsWith_bind_of_not (optionalUuid_caught i rawId "suite_id")]
    rintro ⟨found, hfound, hrest⟩
    cases found with
    | none =>
      refine optionalUuid_ne_none ?_ hfound
      rw [htrimmed]
      exact hblank
    | some id =>
      have hdemand : demand (.escape .assertionError : RowFailure) (some id) = .ok id := rfl
      rw [hdemand, ok_bind, failsWith_demand_bind (data_caught _)] at hrest
      obtain ⟨_, -, hlast⟩ := hrest
      exact failsWith_ok hlast

theorem suiteFromPath_caught (entries : List (TestSuite × String)) (path : String) :
    ¬ FailsWith RowFailure.Uncaught (suiteFromPath entries path) := by
  unfold suiteFromPath
  split
  · exact failsWith_ok
  · split
    · exact data_caught _ ∘ failsWith_error.mp
    · exact failsWith_ok
    · exact data_caught _ ∘ failsWith_error.mp

theorem selectSuite_caught (i : Interpreter) (suites : List TestSuite)
    (entries : List (TestSuite × String)) (source : RawImportRow) :
    ¬ FailsWith RowFailure.Uncaught (selectSuite i suites entries source) := by
  unfold selectSuite
  rw [failsWith_bind_of_not (suiteFromId_caught i suites (strip_strip _))]
  rintro ⟨_, -, hpath⟩
  rw [failsWith_bind_of_not (suiteFromPath_caught entries _)] at hpath
  obtain ⟨_, -, hrest⟩ := hpath
  rw [failsWith_refuse_bind (data_caught _)] at hrest
  exact failsWith_ok hrest.2

theorem activeStep_caught {suites : List TestSuite} {selected : TestSuite} {w : ActiveWalk}
    {walked : Except RowFailure Unit} (h : activeStep i suites selected w = .inr walked) :
    ¬ FailsWith RowFailure.Uncaught walked := by
  unfold activeStep at h
  split at h
  · rw [← Sum.inr.inj h]
    exact data_caught _ ∘ failsWith_error.mp
  · split at h
    · rw [← Sum.inr.inj h]
      exact data_caught _ ∘ failsWith_error.mp
    · split at h
      · rw [← Sum.inr.inj h]
        exact failsWith_ok
      · split at h
        · rw [← Sum.inr.inj h]
          exact data_caught _ ∘ failsWith_error.mp
        · cases h

theorem resolveSuite_caught {suites : List TestSuite} {entries : List (TestSuite × String)}
    {fuel : Nat} {source : RawImportRow} {resolved : Except RowFailure (Option Uuid)}
    (h : resolveSuite i suites entries fuel source = some resolved) :
    ¬ FailsWith RowFailure.Uncaught resolved := by
  unfold resolveSuite at h
  split at h
  · next failure hselect =>
    rw [← Option.some.inj h]
    intro hfails
    have hselected : FailsWith RowFailure.Uncaught (selectSuite i suites entries source) := by
      rw [hselect]
      exact failsWith_error.mpr (failsWith_error.mp hfails)
    exact selectSuite_caught i suites entries source hselected
  · rw [← Option.some.inj h]
    exact failsWith_ok
  · obtain ⟨walked, hwalked, hlast⟩ := Option.bind_eq_some_iff.mp h
    have hcaught : ¬ FailsWith RowFailure.Uncaught walked :=
      Loop.eval_post (fun _ => True) (fun walked => ¬ FailsWith RowFailure.Uncaught walked)
        (fun _ _ _ _ => trivial) (fun _ _ _ hdone => activeStep_caught hdone) trivial hwalked
    rw [← Option.some.inj hlast, failsWith_bind_of_not hcaught]
    rintro ⟨_, -, hrest⟩
    rw [failsWith_refuse_bind (data_caught _)] at hrest
    exact failsWith_ok hrest.2

theorem resolveRow_caught (i : Interpreter) (suites : List TestSuite) (source : RawImportRow) :
    ¬ FailsWith RowFailure.Uncaught (resolveRow i suites source) :=
  resolveSuite_caught (resolveSuite_eq i suites source (Nat.lt_succ_self _))

theorem validateDefectAssociations_caught (i : Interpreter) (data : ProjectData)
    (caseId executionId : Option Uuid) :
    ¬ FailsWith RowFailure.Uncaught (validateDefectAssociations i data caseId executionId) := by
  have hlast : ∀ (c : Prop) [Decidable c] (error : RowDataError),
      ¬ FailsWith RowFailure.Uncaught (refuse c (.data error) : Except RowFailure Unit) := by
    intro c _ error
    unfold refuse
    split
    · exact data_caught _ ∘ failsWith_error.mp
    · exact failsWith_ok
  unfold validateDefectAssociations
  dsimp only
  simp only [failsWith_refuse_bind (data_caught _)]
  exact fun h => hlast _ _ h.2.2.2

/-- What a model is checked for is caught. -/
theorem validation_caught {α : Type} (x : Checked α) :
    ¬ FailsWith RowFailure.Uncaught (x.mapError .validation) := by
  rw [failsWith_mapError]
  exact fun ⟨_, _, h⟩ => h

theorem failsWith_testCasePayload {data : ProjectData} {transferFormat : TransferFormat}
    {steps : List (String × List JsonObject)} {source : RawImportRow} :
    FailsWith RowFailure.Uncaught (testCasePayload i data transferFormat steps source)
      ↔ transferFormat = .csv ∧ JsonRaises i (source.cell "steps_json") := by
  unfold testCasePayload
  rw [failsWith_bind, or_iff_left]
  · cases transferFormat with
    | csv => simp [rowSteps, failsWith_jsonList]
    | xlsx => simp [rowSteps]
  · rintro ⟨_, -, hrest⟩
    rw [failsWith_bind_of_not (resolveRow_caught i data.suites source)] at hrest
    obtain ⟨_, -, hlast⟩ := hrest
    rw [failsWith_bind_of_not (validation_caught _)] at hlast
    obtain ⟨_, -, hpayload⟩ := hlast
    exact failsWith_ok hpayload

theorem failsWith_defectPayload {data : ProjectData} {transferFormat : TransferFormat}
    {steps : List (String × List String)} {source : RawImportRow} :
    FailsWith RowFailure.Uncaught (defectPayload i data transferFormat steps source)
      ↔ transferFormat = .csv ∧ JsonRaises i (source.cell "reproduction_steps_json") := by
  unfold defectPayload
  rw [failsWith_bind, or_iff_left]
  · cases transferFormat with
    | csv => simp [rowReproductionSteps, failsWith_jsonStringList]
    | xlsx => simp [rowReproductionSteps]
  · rintro ⟨_, -, hrest⟩
    rw [failsWith_bind_of_not (optionalUuid_caught i _ _)] at hrest
    obtain ⟨_, -, hrest⟩ := hrest
    rw [failsWith_bind_of_not (optionalUuid_caught i _ _)] at hrest
    obtain ⟨_, -, hrest⟩ := hrest
    rw [failsWith_bind_of_not (validateDefectAssociations_caught i data _ _)] at hrest
    obtain ⟨_, -, hlast⟩ := hrest
    rw [failsWith_bind_of_not (validation_caught _)] at hlast
    obtain ⟨_, -, hpayload⟩ := hlast
    exact failsWith_ok hpayload

/-! ## Prepared rows -/

/-- An exception of a row that is not caught ends the whole preview. -/
abbrev Ends {α : Type} (x : Except Escape α) : Prop := FailsWith (fun _ => True) x

variable {payloadOf : RawImportRow → Except RowFailure ImportPayload}

theorem ends_prepareRow {source : RawImportRow} {issues : List ImportIssue}
    {payload : Except RowFailure ImportPayload} :
    Ends (prepareRow i source issues payload) ↔ FailsWith RowFailure.Uncaught payload := by
  unfold prepareRow
  cases payload with
  | ok payload => exact iff_of_false failsWith_ok failsWith_ok
  | error failure =>
    cases failure with
    | data error => exact iff_of_false failsWith_ok (data_caught _ ∘ failsWith_error.mp)
    | validation errors => exact iff_of_false failsWith_ok fun h => failsWith_error.mp h
    | escape exception => exact iff_of_true ⟨exception, rfl, trivial⟩ ⟨_, rfl, trivial⟩

theorem ends_prepareMainRows {sources : List RawImportRow} {issues : Grouped String ImportIssue} :
    Ends (prepareMainRows i payloadOf sources issues)
      ↔ ∃ source ∈ sources, FailsWith RowFailure.Uncaught (payloadOf source) := by
  induction sources generalizing issues with
  | nil => exact iff_of_false failsWith_ok fun ⟨_, h, _⟩ => absurd h List.not_mem_nil
  | cons source sources ih =>
    unfold prepareMainRows
    have hcons : (∃ other ∈ source :: sources, FailsWith RowFailure.Uncaught (payloadOf other))
        ↔ FailsWith RowFailure.Uncaught (payloadOf source)
          ∨ ∃ other ∈ sources, FailsWith RowFailure.Uncaught (payloadOf other) := by simp
    rw [Ends, failsWith_bind, ← Ends, ends_prepareRow, hcons]
    by_cases hfirst : FailsWith RowFailure.Uncaught (payloadOf source)
    · exact iff_of_true (.inl hfirst) (.inl hfirst)
    · rw [or_iff_right hfirst, or_iff_right hfirst, ← @ih (issues.pop (rowKey source))]
      have hrow : ∃ row, prepareRow i source (issues.get (rowKey source)) (payloadOf source)
        = .ok row := by
        cases hrow : prepareRow i source (issues.get (rowKey source)) (payloadOf source) with
        | ok row => exact ⟨row, rfl⟩
        | error e => exact absurd (ends_prepareRow.mp ⟨e, hrow, trivial⟩) hfirst
      obtain ⟨row, hrow⟩ := hrow
      rw [hrow]
      constructor
      · rintro ⟨_, -, hrest⟩
        rcases failsWith_bind.mp hrest with hends | ⟨_, -, hlast⟩
        · exact hends
        · exact absurd hlast failsWith_ok
      · exact fun hends => ⟨row, rfl, failsWith_bind.mpr (.inl hends)⟩

theorem ends_prepareRows {parsed : ParsedImport} {keys : List String}
    {issues : Grouped String ImportIssue} {message : String} :
    Ends (prepareRows i payloadOf parsed keys issues message)
      ↔ ∃ source ∈ parsed.mainRows, FailsWith RowFailure.Uncaught (payloadOf source) := by
  unfold prepareRows
  rw [Ends, failsWith_bind_left, ← Ends, ends_prepareMainRows]
  exact fun _ => failsWith_ok

/-- The column of a file with a JSON array. -/
def jsonColumn : TransferEntity → String
  | .testCases => "steps_json"
  | .defects => "reproduction_steps_json"

/-- A row of a CSV file has a cell that the handlers of `_json_list` do not expect. -/
def JsonUncaught (i : Interpreter) (parsed : ParsedImport) : Prop :=
  parsed.transferFormat = .csv
    ∧ ∃ source ∈ parsed.mainRows, JsonRaises i (source.cell (jsonColumn parsed.entity))

theorem ends_prepareParsed {data : ProjectData} {parsed : ParsedImport} :
    Ends (prepareParsed i data parsed) ↔ JsonUncaught i parsed := by
  unfold prepareParsed JsonUncaught
  rw [Ends, failsWith_bind, or_iff_left (fun ⟨_, _, h⟩ => failsWith_ok h), ← Ends]
  unfold prepareEntityRows
  cases parsed.entity with
  | testCases =>
    refine ends_prepareRows.trans ?_
    simp only [failsWith_testCasePayload, jsonColumn]
    exact ⟨fun ⟨source, hsource, hcsv, hjson⟩ => ⟨hcsv, source, hsource, hjson⟩,
      fun ⟨hcsv, source, hsource, hjson⟩ => ⟨source, hsource, hcsv, hjson⟩⟩
  | defects =>
    refine ends_prepareRows.trans ?_
    simp only [failsWith_defectPayload, jsonColumn]
    exact ⟨fun ⟨source, hsource, hcsv, hjson⟩ => ⟨hcsv, source, hsource, hjson⟩,
      fun ⟨hcsv, source, hsource, hjson⟩ => ⟨source, hsource, hcsv, hjson⟩⟩

end

/-! ## The preview -/

/-- The file is parsed and raises, or it is accepted and one of its JSON cells raises. -/
def PreviewUncaught (l : Libraries) (i : Interpreter) (s : QaStore) (entity : TransferEntity)
    (projectId : UuidText) (filename : String) (content : List UInt8) : Prop :=
  ∃ id, projectId.uuid = some id ∧ s.ActiveProject id
    ∧ (FileUncaught l i entity filename content
      ∨ ∃ parsed, parseImportFile l i entity filename content = .ok parsed
        ∧ requireExpectedHeaders parsed = .ok () ∧ JsonUncaught i parsed)

/-- There is a preview, or an error that the caller expects. -/
def Handled {α : Type} (x : Except ImportFailure α) : Prop :=
  (∃ a, x = .ok a) ∨ (∃ code message, x = .error (.file code message))
    ∨ ∃ error, x = .error (.domain error)

theorem handled_iff {α : Type} {x : Except ImportFailure α} : Handled x ↔ ¬ Escapes x := by
  unfold Handled
  cases x with
  | ok a => exact iff_of_true (.inl ⟨a, rfl⟩) failsWith_ok
  | error failure =>
    cases failure with
    | file code message =>
      exact iff_of_true (.inr (.inl ⟨code, message, rfl⟩)) (file_caught _ _ ∘ failsWith_error.mp)
    | domain error => exact iff_of_true (.inr (.inr ⟨error, rfl⟩)) fun h => failsWith_error.mp h
    | escape exception =>
      refine iff_of_false ?_ fun h => h ⟨_, rfl, trivial⟩
      rintro (⟨_, h⟩ | ⟨_, _, h⟩ | ⟨_, h⟩)
      all_goals cases h

/-- A check of the services is caught. -/
theorem domain_caught {α : Type} (x : Except DomainError α) :
    ¬ Escapes (x.mapError ImportFailure.domain) := by
  rw [Escapes, failsWith_mapError]
  exact fun ⟨_, _, h⟩ => h

theorem escapes_preview {l : Libraries} {i : Interpreter} {s : QaStore} {entity : TransferEntity}
    {projectId : UuidText} {filename : String} {content : List UInt8} :
    Escapes (preview l i s entity projectId filename content)
      ↔ PreviewUncaught l i s entity projectId filename content := by
  unfold preview prepare PreviewUncaught
  rw [Escapes, failsWith_bind, or_iff_left (fun ⟨_, _, h⟩ => failsWith_ok h),
    failsWith_bind_of_not (domain_caught _)]
  refine exists_congr fun id => ?_
  rw [mapError_eq_ok, parseUuid, demand_eq_ok, failsWith_bind_of_not (domain_caught _)]
  refine and_congr_right fun _ => ?_
  have hproject : (∃ project, (s.requireActiveProject "已归档项目不能导入业务数据" id).mapError
      ImportFailure.domain = .ok project) ↔ s.ActiveProject id := by
    simp only [mapError_eq_ok, QaStore.ActiveProject]
    refine exists_congr fun project => ⟨QaStore.requireActiveProject_ok, fun ⟨hget, hactive⟩ => ?_⟩
    unfold QaStore.requireActiveProject
    rw [hget]
    refine bind_eq_ok.mpr ⟨project, rfl, ?_⟩
    rw [refuse_bind_of_not (not_not.mpr hactive)]
    rfl
  rw [← hproject, exists_and_right]
  refine and_congr_right fun _ => ?_
  rw [failsWith_bind, ← Escapes, escapes_parseImportFile]
  refine or_congr_right (exists_congr fun parsed => and_congr_right fun _ => ?_)
  rw [← Escapes, escapes_check_bind (domain_caught _), mapError_eq_ok, Escapes, failsWith_mapError]
  exact and_congr_right fun _ => ends_prepareParsed

/-- A preview raises what the caller expects, unless the file comes to a place where one of the
packages raises an exception that is not handled. -/
theorem preview_handled (l : Libraries) (i : Interpreter) (s : QaStore) (entity : TransferEntity)
    (projectId : UuidText) (filename : String) (content : List UInt8) :
    Handled (preview l i s entity projectId filename content)
      ↔ ¬ PreviewUncaught l i s entity projectId filename content := by
  rw [handled_iff, escapes_preview]

/-- An archive of one member, which is encrypted. -/
def encryptedArchive : List UInt8 :=
  [80, 75, 3, 4, 20, 0, 1, 0, 0, 0, 0, 0, 33, 0, 131, 22, 220, 140, 1, 0, 0, 0, 1, 0, 0, 0, 1,
    0, 0, 0, 97, 120, 80, 75, 1, 2, 20, 0, 20, 0, 1, 0, 0, 0, 0, 0, 33, 0, 131, 22, 220, 140, 1,
    0, 0, 0, 1, 0, 0, 0, 1, 0, 0, 0, 0, 0, 0, 0, 0, 0, 0, 0, 128, 1, 0, 0, 0, 0, 97, 80, 75, 5, 6,
    0, 0, 0, 0, 1, 0, 1, 0, 47, 0, 0, 0, 32, 0, 0, 0, 0, 0]

/-- What the packages make of it: the member is listed, and its test asks for a password. -/
def encryptedLibraries : Libraries where
  sha256Hex := fun _ => ""
  decode := fun _ => none
  csvReader := fun _ => ⟨[], false⟩
  infolist := fun _ => .value [⟨"a", 1, 1⟩]
  testzip := fun _ => .raised .runtimeError
  loadWorkbook := fun _ => none

/-- A store with one project. -/
def demoStore : QaStore :=
  Transition.run (QaStore.step ExecutionService.plainCasing ExecutionService.plainTexts) .empty
    [⟨none, 0, .createProject ⟨"DEMO", "demo", ""⟩⟩]

/-- The exception of the test is not handled. -/
theorem preview_encrypted : ¬ ∀ (l : Libraries) (i : Interpreter) (s : QaStore)
    (entity : TransferEntity) (projectId : UuidText) (filename : String) (content : List UInt8),
    content.length ≤ maxUploadBytes →
      Handled (preview l i s entity projectId filename content) := by
  intro h
  have hraised : preview encryptedLibraries plainInterpreter demoStore .testCases ⟨"0", some 0⟩
      "cases.xlsx" encryptedArchive = .error (.escape .runtimeError) := by rfl
  have hhandled := h encryptedLibraries plainInterpreter demoStore .testCases ⟨"0", some 0⟩
    "cases.xlsx" encryptedArchive (by decide)
  rw [hraised] at hhandled
  rcases hhandled with ⟨_, hok⟩ | ⟨_, _, hfile⟩ | ⟨_, hdomain⟩
  · cases hok
  · cases hfile
  · cases hdomain

end QaPlatform.Services.DataTransferService
