import QaPlatform.Services.ImportPreview

/-!
# Committing an import

The rows that are valid are given to a writer one after the other (`commit_partial_create_only` of
`app/services/data_transfer.py`). The writer may refuse a row, which stops nothing; it is asked
for a model that is always built, because what a row has been checked for is within its limits.

`HonoursPreview` says what is asked of a commit: with an error in the preview nothing is written
when a clean preview is required; otherwise the writer is called for the valid rows, each once
and in their order, and the results and their counts tell of every row. The writer is any
function of a state. Its own exceptions, other than a refusal, end the loop, and they are the
only ones that do.
-/

namespace QaPlatform.Services.DataTransferService

/-- `create` of one of the two writers. -/
inductive WriterCall where
  | testCase (payload : TestCaseCreate)
  | defect (payload : DefectCreate)

/-- How a writer's `create` ends. -/
inductive WriterAnswer where
  | created (id : Uuid)
  /-- A `DomainError`. -/
  | refused (message : String)
  /-- Another exception. -/
  | raised

/-- How a commit fails as a whole. -/
inductive CommitFailure where
  | domain (error : DomainError)
  | escape (exception : Escape)
  | writer

/-- The fields of a commit beside the file. -/
structure CommitRequest where
  projectId : Uuid
  expectedSha256 : String
  requireCleanPreview : Bool

/-- `ImportRowResult`. -/
structure ImportRowResult where
  sheet : String
  row : Nat
  rowKey : String
  status : ImportRowStatus
  entityId : Option Uuid
  issues : List ImportIssue

/-- `ImportCommitResult`. -/
structure ImportCommitResult where
  entity : TransferEntity
  filename : String
  sha256 : String
  cleanPreviewRequired : Bool
  committed : Bool
  totalRows : Nat
  createdRows : Nat
  failedRows : Nat
  skippedRows : Nat
  rows : List ImportRowResult

/-- The result of a row, with its source's place. -/
def rowResult (row : PreparedRow) (status : ImportRowStatus) (entityId : Option Uuid)
    (issues : List ImportIssue) : ImportRowResult where
  sheet := row.source.sheet
  row := row.source.row
  rowKey := DataTransferService.rowKey row.source
  status := status
  entityId := entityId
  issues := issues

/-- The model that the writer is given for a payload. -/
def rowCall (i : Interpreter) (entity : TransferEntity) (projectId : Uuid) :
    ImportPayload → Except Escape WriterCall
  | .testCase payload => do
    refuse (entity ≠ .testCases) .assertionError
    let payload ← (testCaseCreate i projectId payload).mapError fun _ => .validationError
    return .testCase payload
  | .defect payload => do
    refuse (entity ≠ .defects) .assertionError
    let payload ← (defectCreate i projectId payload).mapError fun _ => .validationError
    return .defect payload

/-- What the writer has become, and what it has been given. -/
structure Progress (σ : Type) where
  store : σ
  calls : List WriterCall

section
variable {σ : Type} (write : σ → WriterCall → σ × WriterAnswer) (i : Interpreter)
  (entity : TransferEntity) (projectId : Uuid)

/-- One row of the loop: a row without a payload is skipped, any other is written. -/
def commitRow (p : Progress σ) (row : PreparedRow) :
    Progress σ × Except CommitFailure ImportRowResult :=
  match row.payload with
  | none => (p, .ok (rowResult row .skipped none row.issues))
  | some payload =>
    if hasErrors row.issues then (p, .ok (rowResult row .skipped none row.issues))
    else
      match rowCall i entity projectId payload with
      | .error exception => (p, .error (.escape exception))
      | .ok call =>
        let (store, answer) := write p.store call
        let p := ⟨store, p.calls ++ [call]⟩
        match answer with
        | .created id => (p, .ok (rowResult row .created (some id) row.issues))
        | .refused message => (p, .ok (rowResult row .failed none
            (row.issues ++ [issue i row.source "" "commit_business_error" message .null])))
        | .raised => (p, .error .writer)

/-- The loop over the rows; it ends at the first exception that is no `DomainError`. -/
def commitRows (p : Progress σ) :
    List PreparedRow → Progress σ × Except CommitFailure (List ImportRowResult)
  | [] => (p, .ok [])
  | row :: rows =>
    match commitRow write i entity projectId p row with
    | (p, .error failure) => (p, .error failure)
    | (p, .ok result) =>
      match commitRows p rows with
      | (p, .error failure) => (p, .error failure)
      | (p, .ok results) => (p, .ok (result :: results))

end

/-- The rows of a batch that is refused as a whole. -/
def skippedRow (i : Interpreter) (row : PreparedRow) : ImportRowResult :=
  rowResult row .skipped none (if row.issues = [] then
    [issue i row.source "" "batch_validation_failed" "整批预检存在错误，clean gate 未写入任何行" .null]
    else row.issues)

/-- The result of the commit, with its counts. -/
def commitResult (parsed : ParsedImport) (cleanPreviewRequired : Bool)
    (results : List ImportRowResult) :
    ImportCommitResult :=
  let created := results.countP (·.status = .created)
  { entity := parsed.entity, filename := parsed.filename, sha256 := parsed.sha256,
    cleanPreviewRequired
    committed := 0 < created, totalRows := results.length, createdRows := created
    failedRows := results.countP (·.status = .failed)
    skippedRows := results.countP (·.status = .skipped), rows := results }

/-- `commit_partial_create_only`, when the import has been prepared. -/
def commitPartialCreateOnly {σ : Type} (write : σ → WriterCall → σ × WriterAnswer) (i : Interpreter)
    (request : CommitRequest) (prepared : PreparedImport) (store : σ) :
    Progress σ × Except CommitFailure ImportCommitResult :=
  let parsed := prepared.parsed
  let start : Progress σ := ⟨store, []⟩
  if parsed.sha256 ≠ i.casefold request.expectedSha256 then
    (start, .error (.domain (.conflict "文件内容与预检 SHA-256 不一致，请重新预检")))
  else if request.requireCleanPreview ∧ 0 < prepared.preview.errorCount then
    let skipped := prepared.rows.map (skippedRow i)
    (start, .ok
      { entity := parsed.entity, filename := parsed.filename, sha256 := parsed.sha256
        cleanPreviewRequired := true, committed := false, totalRows := prepared.rows.length
        createdRows := 0, failedRows := 0, skippedRows := skipped.length, rows := skipped })
  else
    match commitRows write i parsed.entity request.projectId start prepared.rows with
    | (p, .error failure) => (p, .error failure)
    | (p, .ok results) => (p, .ok (commitResult parsed request.requireCleanPreview results))

/-! ## What has been prepared can be built -/

/-- A payload of the entity, within its limits. -/
def ImportPayload.Fits (entity : TransferEntity) : ImportPayload → Prop
  | .testCase payload => entity = .testCases ∧ payload.Valid
  | .defect payload => entity = .defects ∧ payload.Valid

theorem mapError_eq_ok {ε ε' α : Type} {f : ε → ε'} {x : Except ε α} {a : α} :
    x.mapError f = .ok a ↔ x = .ok a := by
  cases x with
  | error e =>
    have herror : (Except.error e : Except ε α).mapError f = .error (f e) := rfl
    simp [herror]
  | ok b =>
    have hok : (Except.ok b : Except ε α).mapError f = .ok b := rfl
    rw [hok, Except.ok.injEq, Except.ok.injEq]

theorem rowCall_ok (i : Interpreter) {entity : TransferEntity} (projectId : Uuid)
    {payload : ImportPayload} (h : payload.Fits entity) :
    ∃ call, rowCall i entity projectId payload = .ok call := by
  cases payload with
  | testCase payload =>
    obtain ⟨rfl, hvalid⟩ := h
    exact ⟨_, by rw [rowCall, testCaseCreate_ok i projectId hvalid]; rfl⟩
  | defect payload =>
    obtain ⟨rfl, hvalid⟩ := h
    exact ⟨_, by rw [rowCall, defectCreate_ok i projectId hvalid]; rfl⟩

theorem testCasePayload_ok {i : Interpreter} {data : ProjectData} {transferFormat : TransferFormat}
    {steps : List (String × List JsonObject)} {source : RawImportRow} {payload : ImportPayload}
    (h : testCasePayload i data transferFormat steps source = .ok payload) :
    ∃ found rowFound, payload = .testCase found ∧ found.Valid ∧ found.rowKey = rowKey source
      ∧ rowSteps i transferFormat steps source = .ok rowFound
      ∧ List.Forall₂ IsStep rowFound found.steps := by
  simp only [testCasePayload, bind_eq_ok, mapError_eq_ok] at h
  obtain ⟨rowFound, hsteps, suiteId, -, found, hfound, hpayload⟩ := h
  obtain ⟨hvalid, hkey, hfoundSteps⟩ := TestCaseImportPayload.modelValidate_ok hfound
  exact ⟨found, rowFound, (Except.ok.inj hpayload).symm, hvalid, hkey, hsteps, hfoundSteps⟩

/-- The texts of a cell with a JSON array are trimmed. -/
theorem jsonStringList_trimmed {i : Interpreter} {value column : String} {texts : List String}
    (h : jsonStringList i value column = .ok texts) : ∀ text ∈ texts, strip text = text := by
  intro text htext
  unfold jsonStringList at h
  split at h
  · obtain rfl := Except.ok.inj h
    cases htext
  · split at h
    · obtain ⟨items, -, hitems⟩ := bind_eq_ok.mp h
      obtain rfl := Except.ok.inj hitems
      obtain ⟨item, -, rfl⟩ := List.mem_map.mp (List.mem_of_mem_filter htext)
      exact strip_strip item
    all_goals cases h

theorem readReproductionStep_eq_ok {i : Interpreter} {source : RawImportRow} {step : String} :
    readReproductionStep i source = .ok step ↔ strip (source.cell "step") ≠ ""
      ∧ strip (source.cell "step") = step := by
  unfold readReproductionStep
  dsimp only
  split
  · next hblank => simp [hblank]
  · next hblank => simp [hblank]

theorem defectFields_trimmed (source : RawImportRow) {steps : List String}
    (h : ∀ step ∈ steps, strip step = step) (caseId executionId : Option Uuid) :
    (defectFields source steps caseId executionId).Trimmed where
  title := strip_strip (source.cell "title")
  description := strip_strip (source.cell "description")
  reporter := strip_strip (source.cellOr "reporter" "local-user")
  assignee := strip_strip (source.cell "assignee")
  environment := strip_strip (source.cell "environment")
  reproductionSteps := h
  expectedResult := strip_strip (source.cell "expected_result")
  actualResult := strip_strip (source.cell "actual_result")

theorem defectPayload_ok {i : Interpreter} {data : ProjectData} {transferFormat : TransferFormat}
    {steps : List (String × List String)} {source : RawImportRow} {payload : ImportPayload}
    (hread : ∀ key, ∀ step ∈ stepsOf steps key, ∃ child, readReproductionStep i child = .ok step)
    (h : defectPayload i data transferFormat steps source = .ok payload) :
    ∃ found, payload = .defect found ∧ found.Valid ∧ found.rowKey = rowKey source
      ∧ rowReproductionSteps i transferFormat steps source = .ok found.reproductionSteps := by
  simp only [defectPayload, bind_eq_ok, mapError_eq_ok] at h
  obtain ⟨rowFound, hsteps, caseId, -, executionId, -, -, -, found, hfound, hpayload⟩ := h
  have htrimmed : ∀ step ∈ rowFound, strip step = step := by
    cases transferFormat with
    | csv => exact jsonStringList_trimmed hsteps
    | xlsx =>
      obtain rfl := Except.ok.inj hsteps
      intro step hstep
      obtain ⟨child, hchild⟩ := hread _ step hstep
      rw [← (readReproductionStep_eq_ok.mp hchild).2]
      exact strip_strip _
  obtain ⟨hvalid, hkey, hfoundSteps⟩ := DefectImportPayload.modelValidate_ok
    (defectFields_trimmed source htrimmed caseId executionId) hfound
  refine ⟨found, (Except.ok.inj hpayload).symm, hvalid, hkey, ?_⟩
  rw [hfoundSteps]
  exact hsteps

/-! ## What has been prepared -/

/-- A row has a payload that a model can be built of, or an error. -/
structure PreparedRow.Sound (entity : TransferEntity) (row : PreparedRow) : Prop where
  fits : ∀ payload, row.payload = some payload → payload.Fits entity
  failed : row.payload = none → hasErrors row.issues = true

theorem sound_applyDuplicateRowKeyIssues {i : Interpreter} {entity : TransferEntity}
    {rows : List PreparedRow} (h : ∀ row ∈ rows, row.Sound entity) :
    ∀ row ∈ applyDuplicateRowKeyIssues i rows, row.Sound entity := by
  intro row hrow
  rcases applyDuplicateRowKeyIssues_row hrow with ⟨hold, -⟩ | ⟨hnone, herror⟩
  · exact h row hold
  · refine ⟨fun payload hpayload => ?_, fun _ => herror⟩
    rw [hnone] at hpayload
    cases hpayload

theorem PreparedRow.Prepared.sound {payloadOf : RawImportRow → Except RowFailure ImportPayload}
    {entity : TransferEntity} {row : PreparedRow} (h : row.Prepared payloadOf)
    (hfits : ∀ source payload, payloadOf source = .ok payload → payload.Fits entity) :
    row.Sound entity :=
  ⟨fun payload hpayload => hfits _ _ (h.checked payload hpayload), h.failed⟩

theorem readTestStep_error {i : Interpreter} {source : RawImportRow} {found : ImportIssue}
    (h : readTestStep i source = .error found) : found.severity = .error := by
  unfold readTestStep at h
  dsimp only at h
  split at h
  · rw [← Except.error.inj h]
    rfl
  · cases h

theorem readReproductionStep_error {i : Interpreter} {source : RawImportRow} {found : ImportIssue}
    (h : readReproductionStep i source = .error found) : found.severity = .error := by
  unfold readReproductionStep at h
  dsimp only at h
  split at h
  · rw [← Except.error.inj h]
    rfl
  · cases h

theorem testStepMap_mapped (i : Interpreter) (rows : List RawImportRow) :
    Mapped i (readTestStep i) rows (testStepMap i rows).1 (testStepMap i rows).2 :=
  childMap_mapped (fun _ _ => readTestStep_error) rows

theorem reproductionStepMap_mapped (i : Interpreter) (rows : List RawImportRow) :
    Mapped i (readReproductionStep i) rows (reproductionStepMap i rows).1
      (reproductionStepMap i rows).2 :=
  childMap_mapped (fun _ _ => readReproductionStep_error) rows

/-- What has been prepared of a parsed file. -/
theorem prepareParsed_ok {i : Interpreter} {data : ProjectData} {parsed : ParsedImport}
    {prepared : PreparedImport} (h : prepareParsed i data parsed = .ok prepared) :
    prepared.parsed = parsed
      ∧ prepared.preview = buildPreview parsed prepared.rows prepared.globalIssues
      ∧ prepared.rows.map (·.source) = parsed.mainRows
      ∧ ∀ row ∈ prepared.rows, row.Sound parsed.entity := by
  obtain ⟨⟨rows, globalIssues⟩, hrows, hprepared⟩ := bind_eq_ok.mp h
  obtain rfl := Except.ok.inj hprepared
  refine ⟨rfl, rfl, ?_⟩
  rw [applyDuplicateRowKeyIssues_sources]
  unfold prepareEntityRows at hrows
  cases hentity : parsed.entity with
  | testCases =>
    rw [hentity] at hrows
    obtain ⟨hsources, hchecked, -⟩ := prepareRows_ok hrows
    refine ⟨hsources, sound_applyDuplicateRowKeyIssues fun row hrow => ?_⟩
    refine (hchecked row hrow).sound fun source payload hpayload => ?_
    obtain ⟨found, _, rfl, hvalid, -⟩ := testCasePayload_ok hpayload
    exact ⟨rfl, hvalid⟩
  | defects =>
    rw [hentity] at hrows
    obtain ⟨hsources, hchecked, -⟩ := prepareRows_ok hrows
    refine ⟨hsources, sound_applyDuplicateRowKeyIssues fun row hrow => ?_⟩
    refine (hchecked row hrow).sound fun source payload hpayload => ?_
    obtain ⟨found, rfl, hvalid, -⟩ :=
      defectPayload_ok (reproductionStepMap_mapped i parsed.childRows).reads hpayload
    exact ⟨rfl, hvalid⟩

/-! ## What the writer is given -/

/-- The call that a row comes to. -/
def callFor (i : Interpreter) (entity : TransferEntity) (projectId : Uuid) (row : PreparedRow) :
    Option WriterCall :=
  if hasErrors row.issues then none
  else row.payload.bind fun payload => (rowCall i entity projectId payload).toOption

/-- A row is skipped, or the writer has created something for it or refused. -/
structure Answered (i : Interpreter) (entity : TransferEntity) (projectId : Uuid)
    (row : PreparedRow)
    (result : ImportRowResult) : Prop where
  place : result.sheet = row.source.sheet ∧ result.row = row.source.row
    ∧ result.rowKey = rowKey row.source
  skipped : result.status = .skipped ↔ callFor i entity projectId row = none
  answered : result.status = .skipped ∨ result.status = .created ∨ result.status = .failed

section
variable {σ : Type} {write : σ → WriterCall → σ × WriterAnswer} {i : Interpreter}
  {entity : TransferEntity} {projectId : Uuid}

theorem callFor_eq_some {row : PreparedRow} {call : WriterCall} :
    callFor i entity projectId row = some call ↔ ¬ hasErrors row.issues = true
      ∧ ∃ payload, row.payload = some payload ∧ rowCall i entity projectId payload = .ok call := by
  unfold callFor
  split
  · next herror => simp [herror]
  · next hclean =>
    rw [Option.bind_eq_some_iff]
    refine Iff.trans (exists_congr fun payload => and_congr_right fun _ => ?_)
      (and_iff_right hclean).symm
    cases rowCall i entity projectId payload with
    | error e => simp [Except.toOption]
    | ok found => simp [Except.toOption]

variable (i projectId) in
/-- A row of the preview that is valid is one that the writer is called for. -/
theorem callFor_eq_none {row : PreparedRow} (h : row.Sound entity) :
    callFor i entity projectId row = none ↔ hasErrors row.issues = true := by
  unfold callFor
  split
  · next herror => exact iff_of_true rfl herror
  · next hclean =>
    refine iff_of_false ?_ hclean
    cases hpayload : row.payload with
    | none => exact absurd (h.failed hpayload) hclean
    | some payload =>
      obtain ⟨call, hcall⟩ := rowCall_ok i projectId (h.fits payload hpayload)
      rw [Option.bind_some, hcall]
      exact Option.some_ne_none call

variable (write i projectId) in
/-- One row: nothing is called when it is skipped; else the writer is, once, and only its own
exception is let through. -/
theorem commitRow_spec (p : Progress σ) {row : PreparedRow} (h : row.Sound entity) :
    let r := commitRow write i entity projectId p row
    r.1.calls = p.calls ++ (callFor i entity projectId row).toList
      ∧ (∀ result, r.2 = .ok result → Answered i entity projectId row result)
      ∧ ∀ failure, r.2 = .error failure → failure = .writer
        ∧ ∃ call, callFor i entity projectId row = some call
        ∧ (write p.store call).2 = .raised := by
  intro r
  cases hcall : callFor i entity projectId row with
  | none =>
    have hr : r = (p, .ok (rowResult row .skipped none row.issues)) := by
      -- a row without a payload has an error, and one with a payload and an error is skipped too
      have herror := (callFor_eq_none i projectId h).mp hcall
      dsimp only [r, commitRow]
      split
      · rfl
      · rw [if_pos herror]
    rw [hr]
    refine ⟨(List.append_nil _).symm, fun result hresult => ?_, fun _ hfailed => ?_⟩
    · obtain rfl := Except.ok.inj hresult
      exact ⟨⟨rfl, rfl, rfl⟩, iff_of_true rfl hcall, .inl rfl⟩
    · cases hfailed
  | some call =>
    have hclean : ¬ hasErrors row.issues = true := by
      rw [← callFor_eq_none i projectId h, hcall]
      exact Option.some_ne_none call
    obtain ⟨payload, hpayload, hrow⟩ := callFor_eq_some.mp hcall |>.2
    have hne : ¬ callFor i entity projectId row = none := by
      rw [hcall]
      exact Option.some_ne_none call
    rcases hwrite : write p.store call with ⟨store, answer⟩
    cases answer with
    | created id =>
      have hr : r = (⟨store, p.calls ++ [call]⟩,
          .ok (rowResult row .created (some id) row.issues)) := by
        simp only [r, commitRow, hpayload, if_neg hclean, hrow, hwrite]
      rw [hr]
      refine ⟨rfl, fun result hresult => ?_, fun _ hfailed => ?_⟩
      · obtain rfl := Except.ok.inj hresult
        exact ⟨⟨rfl, rfl, rfl⟩, iff_of_false (by simp [rowResult]) hne, .inr (.inl rfl)⟩
      · cases hfailed
    | refused message =>
      have hr : r = (⟨store, p.calls ++ [call]⟩, .ok (rowResult row .failed none
          (row.issues ++ [issue i row.source "" "commit_business_error" message .null]))) := by
        simp only [r, commitRow, hpayload, if_neg hclean, hrow, hwrite]
      rw [hr]
      refine ⟨rfl, fun result hresult => ?_, fun _ hfailed => ?_⟩
      · obtain rfl := Except.ok.inj hresult
        exact ⟨⟨rfl, rfl, rfl⟩, iff_of_false (by simp [rowResult]) hne, .inr (.inr rfl)⟩
      · cases hfailed
    | raised =>
      have hr : r = (⟨store, p.calls ++ [call]⟩, .error .writer) := by
        simp only [r, commitRow, hpayload, if_neg hclean, hrow, hwrite]
      rw [hr]
      refine ⟨rfl, fun result hresult => ?_, fun failure hfailed => ?_⟩
      · cases hresult
      · exact ⟨(Except.error.inj hfailed).symm, call, rfl, by rw [hwrite]⟩

variable (write i projectId) in
/-- The batch stops at an exception of the writer only; what it has been called for up to there is
what the first rows come to, and when it returns that is all of them. -/
theorem commitRows_spec {rows : List PreparedRow} (p : Progress σ)
    (h : ∀ row ∈ rows, row.Sound entity) :
    let r := commitRows write i entity projectId p rows
    ∃ calls, r.1.calls = p.calls ++ calls
      ∧ calls <+: rows.filterMap (callFor i entity projectId)
      ∧ (∀ results, r.2 = .ok results → calls = rows.filterMap (callFor i entity projectId)
        ∧ List.Forall₂ (Answered i entity projectId) rows results)
      ∧ ∀ failure, r.2 = .error failure → failure = .writer
        ∧ ∃ store, ∃ call ∈ calls.getLast?, (write store call).2 = .raised := by
  induction rows generalizing p with
  | nil =>
    refine ⟨[], (List.append_nil _).symm, List.prefix_rfl, fun results hresults => ?_,
      fun _ hfailed => ?_⟩
    · obtain rfl := Except.ok.inj hresults
      exact ⟨rfl, .nil⟩
    · cases hfailed
  | cons row rows ih =>
    intro r
    -- a row that comes to no call adds nothing to the calls that are due
    have hcons : (row :: rows).filterMap (callFor i entity projectId)
        = (callFor i entity projectId row).toList
        ++ rows.filterMap (callFor i entity projectId) := by
      rw [List.filterMap_cons]
      cases callFor i entity projectId row with
      | none => rfl
      | some call => rfl
    obtain ⟨hcalls, hanswered, hfailure⟩ :=
      commitRow_spec write i projectId p (h row List.mem_cons_self)
    rcases hrow : commitRow write i entity projectId p row with ⟨p', outcome⟩
    rw [hrow] at hcalls hanswered hfailure
    cases outcome with
    -- the writer has raised at this row, and the loop ends
    | error failure =>
      have hr : r = (p', .error failure) := by simp only [r, commitRows, hrow]
      obtain ⟨rfl, call, hcall, hraised⟩ := hfailure failure rfl
      rw [hr, hcons, hcall]
      refine ⟨[call], by rw [hcalls, hcall]; rfl, List.prefix_append _ _, fun _ hok => ?_,
        fun failure hfailed => ?_⟩
      · cases hok
      · exact ⟨(Except.error.inj hfailed).symm, p.store, call, rfl, hraised⟩
    | ok result =>
      obtain ⟨calls, hrest, hprefix, hok, herror⟩ :=
        ih p' fun other hother => h other (List.mem_cons_of_mem _ hother)
      rcases htail : commitRows write i entity projectId p' rows with ⟨p'', outcome⟩
      rw [htail] at hrest hok herror
      have happend : p''.calls = p.calls ++ ((callFor i entity projectId row).toList ++ calls) := by
        rw [← List.append_assoc, ← hcalls]
        exact hrest
      cases outcome with
      -- it has raised at a later one, and what was called before stays called
      | error failure =>
        have hr : r = (p'', .error failure) := by simp only [r, commitRows, hrow, htail]
        obtain ⟨rfl, store, call, hcall, hraised⟩ := herror failure rfl
        rw [hr, hcons]
        refine ⟨_, happend, List.prefix_append_right_inj _ |>.mpr hprefix, fun _ hok => ?_,
          fun failure hfailed => ?_⟩
        · cases hok
        · refine ⟨(Except.error.inj hfailed).symm, store, call, ?_, hraised⟩
          rw [List.getLast?_append, hcall]
          rfl
      | ok results =>
        have hr : r = (p'', .ok (result :: results)) := by simp only [r, commitRows, hrow, htail]
        obtain ⟨rfl, hanswers⟩ := hok results rfl
        rw [hr, hcons]
        refine ⟨_, happend, List.prefix_rfl, fun results' hresults => ?_, fun _ hfailed => ?_⟩
        · obtain rfl := Except.ok.inj hresults
          exact ⟨rfl, .cons (hanswered result rfl) hanswers⟩
        · cases hfailed

/-! ## The batch -/

theorem length_eq_counts {results : List ImportRowResult}
    (h : ∀ result ∈ results, result.status = .skipped ∨ result.status = .created
      ∨ result.status = .failed) :
    results.length = results.countP (·.status = .created) + results.countP (·.status = .failed)
      + results.countP (·.status = .skipped) := by
  induction results with
  | nil => rfl
  | cons result results ih =>
    have hrest := ih fun other hother => h other (List.mem_cons_of_mem _ hother)
    rw [List.length_cons, List.countP_cons, List.countP_cons, List.countP_cons]
    rcases h result List.mem_cons_self with hstatus | hstatus | hstatus
    all_goals
      simp only [hstatus]
      simp
      omega

theorem forall_answered {rows : List PreparedRow} {results : List ImportRowResult}
    (h : List.Forall₂ (Answered i entity projectId) rows results) : ∀ result ∈ results,
      result.status = .skipped ∨ result.status = .created ∨ result.status = .failed := by
  induction h with
  | nil => exact fun _ hresult => absurd hresult List.not_mem_nil
  | cons hanswer _ ih =>
    intro result hresult
    rcases List.mem_cons.mp hresult with rfl | hlater
    · exact hanswer.answered
    · exact ih result hlater

/-- An issue that is an error. -/
def HasError (prepared : PreparedImport) : Prop :=
  ∃ found ∈ prepared.globalIssues ++ prepared.rows.flatMap (·.issues), found.severity = .error

theorem errorCount_pos {parsed : ParsedImport} {prepared : PreparedImport}
    (h : prepared.preview = buildPreview parsed prepared.rows prepared.globalIssues) :
    0 < prepared.preview.errorCount ↔ HasError prepared := by
  rw [h]
  unfold buildPreview HasError
  simp only [List.countP_pos_iff, decide_eq_true_eq]

/-- A row of the preview is valid, or it has an error. -/
theorem rowPreview_valid {row : PreparedRow} :
    (rowPreview row).status = .valid ↔ ¬ hasErrors row.issues = true := by
  unfold rowPreview
  dsimp only
  split
  · next herror => simp [herror]
  · next hclean => simp [hclean]

end

/-- What a commit does with a preview: with an error nothing is written when a clean preview is
required; else the writer is called for the valid rows, each once and in order, whatever it refuses;
the rows add up; and a model is built of every payload. -/
structure HonoursPreview {σ : Type} (write : σ → WriterCall → σ × WriterAnswer) (i : Interpreter)
    (request : CommitRequest) (prepared : PreparedImport) (store : σ)
    (r : Progress σ × Except CommitFailure ImportCommitResult) : Prop where
  previewed : prepared.preview.rows = prepared.rows.map rowPreview
  built : ∀ row ∈ prepared.rows, ∀ payload, row.payload = some payload →
    ∃ call, rowCall i prepared.parsed.entity request.projectId payload = .ok call
  valid : ∀ row ∈ prepared.rows,
    (∃ call, callFor i prepared.parsed.entity request.projectId row = some call)
      ↔ (rowPreview row).status = .valid
  gated : request.requireCleanPreview = true → HasError prepared → r.1 = ⟨store, []⟩
  inOrder : r.1.calls <+: prepared.rows.filterMap
    (callFor i prepared.parsed.entity request.projectId)
  returned : ∀ result, r.2 = .ok result →
    result.totalRows = result.createdRows + result.failedRows + result.skippedRows
    ∧ result.totalRows = prepared.rows.length
    ∧ (request.requireCleanPreview = true → HasError prepared →
      result.rows = prepared.rows.map (skippedRow i))
    ∧ (¬ (request.requireCleanPreview = true ∧ HasError prepared) →
      r.1.calls = prepared.rows.filterMap (callFor i prepared.parsed.entity request.projectId)
      ∧ List.Forall₂ (Answered i prepared.parsed.entity request.projectId)
        prepared.rows result.rows)
  failed : ∀ failure, r.2 = .error failure →
    r.1.calls = [] ∧ prepared.parsed.sha256 ≠ i.casefold request.expectedSha256
    ∨ failure = .writer ∧ ∃ s, ∃ call ∈ r.1.calls.getLast?, (write s call).2 = .raised

theorem honoursPreview_of_sound {σ : Type} (write : σ → WriterCall → σ × WriterAnswer)
    (i : Interpreter) (request : CommitRequest) (store : σ) {prepared : PreparedImport}
    (hpreview : prepared.preview
      = buildPreview prepared.parsed prepared.rows prepared.globalIssues)
    (hsound : ∀ row ∈ prepared.rows, row.Sound prepared.parsed.entity) :
    HonoursPreview write i request prepared store
      (commitPartialCreateOnly write i request prepared store) := by
  have hgated : request.requireCleanPreview = true ∧ 0 < prepared.preview.errorCount
      ↔ request.requireCleanPreview = true ∧ HasError prepared := by
    rw [errorCount_pos hpreview]
  have hbuilt : ∀ row ∈ prepared.rows, ∀ payload, row.payload = some payload →
      ∃ call, rowCall i prepared.parsed.entity request.projectId payload = .ok call :=
    fun row hrow payload hpayload => rowCall_ok i _ ((hsound row hrow).fits payload hpayload)
  -- the rows that the preview shows as valid are those that come to a call
  have hvalid : ∀ row ∈ prepared.rows,
      (∃ call, callFor i prepared.parsed.entity request.projectId row = some call)
        ↔ (rowPreview row).status = .valid := by
    intro row hrow
    rw [rowPreview_valid, ← callFor_eq_none i request.projectId (hsound row hrow), ← ne_eq,
      Option.ne_none_iff_exists']
  have hpreviewed : prepared.preview.rows = prepared.rows.map rowPreview := by
    rw [hpreview]
    rfl
  -- the file is another one than that of the preview
  by_cases hsha : prepared.parsed.sha256 ≠ i.casefold request.expectedSha256
  · have hr : commitPartialCreateOnly write i request prepared store = (⟨store, []⟩,
        .error (.domain (.conflict "文件内容与预检 SHA-256 不一致，请重新预检"))) := if_pos hsha
    rw [hr]
    refine ⟨hpreviewed, hbuilt, hvalid, fun _ _ => rfl, List.nil_prefix, fun _ hok => ?_,
      fun _ _ => .inl ⟨rfl, hsha⟩⟩
    cases hok
  -- a clean preview is required and there is an error
  by_cases hgate : request.requireCleanPreview = true ∧ HasError prepared
  · have hr : commitPartialCreateOnly write i request prepared store = (⟨store, []⟩, .ok
        { entity := prepared.parsed.entity, filename := prepared.parsed.filename
          sha256 := prepared.parsed.sha256, cleanPreviewRequired := true, committed := false
          totalRows := prepared.rows.length, createdRows := 0, failedRows := 0
          skippedRows := (prepared.rows.map (skippedRow i)).length
          rows := prepared.rows.map (skippedRow i) }) :=
      (if_neg hsha).trans (if_pos (hgated.mpr hgate))
    rw [hr]
    refine ⟨hpreviewed, hbuilt, hvalid, fun _ _ => rfl, List.nil_prefix, fun result hresult => ?_,
      fun _ hfailed => ?_⟩
    · obtain rfl := Except.ok.inj hresult
      exact ⟨by simp, rfl, fun _ _ => rfl, fun hopen => absurd hgate hopen⟩
    · cases hfailed
  · obtain ⟨calls, hcalls, hprefix, hok, herror⟩ :=
      commitRows_spec write i request.projectId ⟨store, []⟩ hsound
    rcases hrows : commitRows write i prepared.parsed.entity request.projectId ⟨store, []⟩
      prepared.rows with ⟨p, outcome⟩
    rw [hrows] at hcalls hok herror
    obtain rfl : p.calls = calls := hcalls
    have hr : commitPartialCreateOnly write i request prepared store
        = (p, outcome.map (commitResult prepared.parsed request.requireCleanPreview)) := by
      refine (if_neg hsha).trans ((if_neg fun h => hgate (hgated.mp h)).trans ?_)
      rw [hrows]
      cases outcome with
      | error failure => rfl
      | ok results => rfl
    rw [hr]
    refine ⟨hpreviewed, hbuilt, hvalid, fun hclean herror => absurd ⟨hclean, herror⟩ hgate, hprefix,
      fun result hresult => ?_, fun failure hfailed => ?_⟩
    · obtain ⟨results, hresults, rfl⟩ := map_eq_ok.mp hresult
      obtain ⟨hdue, hanswers⟩ := hok results hresults
      exact ⟨length_eq_counts (forall_answered hanswers), hanswers.length_eq.symm,
        fun hclean herror => absurd ⟨hclean, herror⟩ hgate, fun _ => ⟨hdue, hanswers⟩⟩
    · cases outcome with
      | error found =>
        rw [← Except.error.inj hfailed]
        exact .inr (herror found rfl)
      | ok results => cases hfailed

/-- Whatever has been parsed, a commit of it honours its preview. -/
theorem commit_honours_preview {σ : Type} (write : σ → WriterCall → σ × WriterAnswer)
    (i : Interpreter)
    (data : ProjectData) (parsed : ParsedImport) (request : CommitRequest) (store : σ)
    (prepared : PreparedImport) (h : prepareParsed i data parsed = .ok prepared) :
    prepared.parsed = parsed ∧ HonoursPreview write i request prepared store
      (commitPartialCreateOnly write i request prepared store) := by
  obtain ⟨rfl, hpreview, -, hsound⟩ := prepareParsed_ok h
  exact ⟨rfl, honoursPreview_of_sound write i request store hpreview hsound⟩

/-- The row of a case, with its title alone. -/
def caseRow (row : Nat) (rowKey title : String) : RawImportRow :=
  ⟨"test_cases", row, [("row_key", rowKey), ("title", title)]⟩

/-- A file of one case. -/
def loginImport : ParsedImport where
  entity := .testCases
  filename := "cases.csv"
  transferFormat := .csv
  sha256 := "00"
  templateVersion := "1"
  mainSheet := "test_cases"
  mainHeaders := ["row_key", "title"]
  mainRows := [caseRow 2 "login" "log in"]
  childSheet := none
  childHeaders := []
  childRows := []

/-- A file of three cases: one without a title, one that the writer refuses, one that it creates. -/
def mixedImport : ParsedImport :=
  { loginImport with
    mainRows := [caseRow 2 "untitled" "", caseRow 3 "taken" "taken", caseRow 4 "login" "log in"] }

/-- What is prepared of the rows above: the first is invalid. -/
def mixedPrepared : PreparedImport :=
  let untitled : ImportIssue := ⟨"test_cases", 2, "untitled", "title", "string_too_short",
    "String should have at least 1 character", .error, .text ""⟩
  let rows : List PreparedRow := [
    ⟨caseRow 2 "untitled" "", none, [untitled]⟩,
    ⟨caseRow 3 "taken" "taken",
      some (.testCase ⟨"taken", none, "taken", "", [], .p2, .manual, []⟩), []⟩,
    ⟨caseRow 4 "login" "log in",
      some (.testCase ⟨"login", none, "log in", "", [], .p2, .manual, []⟩), []⟩]
  ⟨mixedImport, rows, [], buildPreview mixedImport rows []⟩

/-- A writer that counts its calls and refuses the title `taken`. -/
def refusingWriter (n : Nat) : WriterCall → Nat × WriterAnswer
  | .testCase payload =>
    (n + 1, if payload.title = "taken" then .refused "the title is taken" else .created n)
  | .defect _ => (n + 1, .created n)

theorem commit_honours_preview_mixed :
    let request : CommitRequest := ⟨7, "00", false⟩
    let r := commitPartialCreateOnly refusingWriter plainInterpreter request mixedPrepared 0
    (mixedPrepared.parsed = mixedImport
      ∧ HonoursPreview refusingWriter plainInterpreter request mixedPrepared 0 r)
    ∧ r.1.calls.length = 2
    ∧ (r.2.toOption.map fun result => result.rows.map (·.status))
      = some [.skipped, .failed, .created] :=
  ⟨commit_honours_preview refusingWriter plainInterpreter ⟨[], [], []⟩ mixedImport ⟨7, "00", false⟩
    0 mixedPrepared rfl, rfl, rfl⟩

end QaPlatform.Services.DataTransferService
