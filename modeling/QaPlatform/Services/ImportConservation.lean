import QaPlatform.Services.ImportCommit

/-!
# Step rows are not lost

A step row of a workbook is among the steps of the one main row with its key, or an error tells of
it. What the writer is given for a main row has all the step rows of its key.

A step row passes through four stages: the grouping of `ImportChildren`, the reading of steps,
the payload of its main row and the call of the writer. `conserved_of_mapped` follows it through
the first three, `callFor_carries` through the last.

`Reported` asks for an issue on the row itself, by its sheet and number. Where the row has a key
the issue may be on a main row of that key instead, or be the one that is reported of a key
without a main row, since the source tells of such a key once.
-/

namespace QaPlatform.Services.DataTransferService

/-! ## Steps of a payload -/

/-- The `TestStep` of a step row. -/
def rowTestStep (child : RawImportRow) : TestStep :=
  ⟨strip (child.cell "action"), strip (child.cell "expected_result")⟩

/-- The reproduction step of a step row. -/
def rowStep (child : RawImportRow) : String := strip (child.cell "step")

/-- The steps of a payload are these rows. -/
def ImportPayload.Carries (children : List RawImportRow) : ImportPayload → Prop
  | .testCase payload => payload.steps = children.map rowTestStep
  | .defect payload => payload.reproductionSteps = children.map rowStep

/-- The steps that the writer is given are these rows. -/
def WriterCall.Carries (children : List RawImportRow) : WriterCall → Prop
  | .testCase payload => payload.steps = children.map rowTestStep
  | .defect payload => payload.reproductionSteps = children.map rowStep

theorem readTestStep_isStep {i : Interpreter} {child : RawImportRow} {step : JsonObject}
    {value : TestStep} (h : readTestStep i child = .ok step) (hvalue : IsStep step value) :
    value = rowTestStep child := by
  unfold readTestStep at h
  dsimp only at h
  split at h
  · cases h
  · obtain rfl := Except.ok.inj h
    obtain ⟨haction, hexpected⟩ := hvalue
    have haction' : strip (child.cell "action") = value.action := by simpa using haction
    have hexpected' : strip (child.cell "expected_result") = value.expectedResult :=
      JsonValue.text.inj (Option.some.inj hexpected)
    rw [rowTestStep, haction', hexpected']

theorem testSteps_eq {i : Interpreter} {children : List RawImportRow} {steps : List JsonObject}
    {values : List TestStep}
    (hread : List.Forall₂ (fun child step => readTestStep i child = .ok step) children steps)
    (hvalues : List.Forall₂ IsStep steps values) : values = children.map rowTestStep := by
  induction hread generalizing values with
  | nil =>
    cases hvalues
    rfl
  | cons hchild _ ih =>
    cases hvalues with
    | cons hvalue hrest =>
      rw [List.map_cons, readTestStep_isStep hchild hvalue, ih hrest]

theorem reproductionSteps_eq {i : Interpreter} {children : List RawImportRow} {steps : List String}
    (hread : List.Forall₂ (fun child step => readReproductionStep i child = .ok step)
      children steps) :
    steps = children.map rowStep := by
  induction hread with
  | nil => rfl
  | cons hchild _ ih =>
    rw [List.map_cons, ih, ← (readReproductionStep_eq_ok.mp hchild).2]
    rfl

/-- The writer is given the steps of the payload. -/
theorem rowCall_carries {i : Interpreter} {entity : TransferEntity} {projectId : Uuid}
    {payload : ImportPayload} {call : WriterCall} {children : List RawImportRow}
    (hfits : payload.Fits entity) (hcall : rowCall i entity projectId payload = .ok call)
    (h : payload.Carries children) : call.Carries children := by
  cases payload with
  | testCase payload =>
    obtain ⟨rfl, hvalid⟩ := hfits
    rw [rowCall, testCaseCreate_ok i projectId hvalid] at hcall
    rw [← Except.ok.inj hcall]
    exact h
  | defect payload =>
    obtain ⟨rfl, hvalid⟩ := hfits
    rw [rowCall, defectCreate_ok i projectId hvalid] at hcall
    rw [← Except.ok.inj hcall]
    exact h

/-! ## Through the stages -/

/-- An error tells of a step row: it is on this row, in its sheet and at its number; or, where
the row has a key, it is on a main row with the key, or it is the one that a key without a main
row gets. -/
def Reported (rows : List PreparedRow) (globalIssues : List ImportIssue) (child : RawImportRow) :
    Prop :=
  (∃ found ∈ globalIssues ++ rows.flatMap (·.issues), found.severity = .error
    ∧ found.sheet = child.sheet ∧ found.row = child.row ∧ found.rowKey = rowKey child)
  ∨ rowKey child ≠ ""
    ∧ ((∃ row ∈ rows, rowKey row.source = rowKey child ∧ hasErrors row.issues = true)
      ∨ (∀ row ∈ rows, rowKey row.source ≠ rowKey child)
        ∧ ∃ found ∈ globalIssues, found.severity = .error ∧ found.rowKey = rowKey child)

/-- A main row has all the step rows of its key, from the least position to the greatest. -/
def RowCarries (i : Interpreter) (childRows : List RawImportRow) (row : PreparedRow) : Prop :=
  ∃ payload children, row.payload = some payload ∧ InOrder i childRows (rowKey row.source) children
    ∧ payload.Carries children

/-- Only one of the rows has the key of a row. -/
def Alone (rows : List PreparedRow) (row : PreparedRow) : Prop :=
  ∃ before after, rows = before ++ row :: after
    ∧ ∀ other ∈ before ++ after, rowKey other.source ≠ rowKey row.source

/-- What is asked of the rows that are prepared of an upload, and of its child rows. -/
structure Conserved (i : Interpreter) (childRows : List RawImportRow) (rows : List PreparedRow)
    (globalIssues : List ImportIssue) : Prop where
  carried : ∀ row ∈ rows, ¬ hasErrors row.issues = true → RowCarries i childRows row
  kept : ∀ child ∈ childRows, Reported rows globalIssues child
    ∨ ∃ row, Alone rows row ∧ rowKey row.source = rowKey child ∧ ¬ hasErrors row.issues = true

section
variable {rows : List PreparedRow}

theorem Alone.mem {row : PreparedRow} (h : Alone rows row) : row ∈ rows := by
  obtain ⟨before, after, rfl, -⟩ := h
  exact List.mem_append_right _ List.mem_cons_self

/-- Two rows with a key that comes once are one. -/
theorem eq_of_countP_le_one {p : PreparedRow → Bool} (h : rows.countP p ≤ 1) {a b : PreparedRow}
    (ha : a ∈ rows) (hb : b ∈ rows) (hpa : p a = true) (hpb : p b = true) : a = b := by
  rw [List.countP_eq_length_filter] at h
  have ha' := List.mem_filter.mpr ⟨ha, hpa⟩
  have hb' := List.mem_filter.mpr ⟨hb, hpb⟩
  rcases hfound : rows.filter p with _ | ⟨c, _ | ⟨d, rest⟩⟩
  · rw [hfound] at ha'
    cases ha'
  · rw [hfound, List.mem_singleton] at ha' hb'
    rw [ha', hb']
  · rw [hfound, List.length_cons, List.length_cons] at h
    omega

theorem alone_of_countP {row : PreparedRow} (hrow : row ∈ rows)
    (h : rows.countP (rowKey ·.source = rowKey row.source) ≤ 1) : Alone rows row := by
  obtain ⟨before, after, rfl⟩ := List.append_of_mem hrow
  refine ⟨before, after, rfl, fun other hother hsame => ?_⟩
  have hself : (row :: after).countP (rowKey ·.source = rowKey row.source)
      = after.countP (rowKey ·.source = rowKey row.source) + 1 :=
    List.countP_cons_of_pos (decide_eq_true rfl)
  rw [List.countP_append, hself] at h
  have hpos : 0 < (before ++ after).countP (rowKey ·.source = rowKey row.source) :=
    List.countP_pos_iff.mpr ⟨other, hother, decide_eq_true hsame⟩
  rw [List.countP_append] at hpos
  omega

end

section
variable {α : Type} {i : Interpreter} {read : RawImportRow → Except ImportIssue α}
  {payloadOf : RawImportRow → Except RowFailure ImportPayload} {parsed : ParsedImport}
  {steps : List (String × List α)} {issues : Grouped String ImportIssue} {message : String}
  {rows : List PreparedRow} {globalIssues : List ImportIssue}

/-- An issue of a step row is found on the rows that are left or among the global ones. -/
theorem Attached.mem_issues {entry : String × ImportIssue}
    (h : Attached rows (· ∈ globalIssues) entry) :
    entry.2 ∈ globalIssues ++ (applyDuplicateRowKeyIssues i rows).flatMap (·.issues) := by
  rcases h with ⟨hglobal, -⟩ | ⟨row, hrow, -, hfound⟩
  · exact List.mem_append_left _ hglobal
  · obtain ⟨row', hrow', -, hissues⟩ := exists_applyDuplicateRowKeyIssues (i := i) hrow
    exact List.mem_append_right _ (List.mem_flatMap.mpr ⟨row', hrow', hissues _ hfound⟩)

theorem countP_applyDuplicateRowKeyIssues (i : Interpreter) (rows : List PreparedRow)
    (key : String) :
    (applyDuplicateRowKeyIssues i rows).countP (rowKey ·.source = key)
      = rows.countP (rowKey ·.source = key) := by
  have hmap : ∀ rows : List PreparedRow, rows.countP (rowKey ·.source = key)
      = (rows.map (·.source)).countP (rowKey · = key) := by
    intro rows
    rw [List.countP_map]
    rfl
  rw [hmap, hmap, applyDuplicateRowKeyIssues_sources]

/-- What is read of the step rows comes through to the payloads and the issues. -/
theorem conserved_of_mapped (hmapped : Mapped i read parsed.childRows steps issues)
    (hpayload : ∀ source payload, payloadOf source = .ok payload → rowKey source ≠ ""
      ∧ ∀ children, List.Forall₂ (fun child step => read child = .ok step) children
        (stepsOf steps (rowKey source)) → payload.Carries children)
    (h : prepareRows i payloadOf parsed (steps.map (·.1)) issues message
      = .ok (rows, globalIssues)) :
    Conserved i parsed.childRows (applyDuplicateRowKeyIssues i rows) globalIssues := by
  obtain ⟨-, hchecked, hattached, horphans⟩ := prepareRows_ok h
  refine ⟨fun row hrow hclean => ?_, fun child hchild => ?_⟩
  · rcases applyDuplicateRowKeyIssues_row hrow with ⟨hold, honce⟩ | ⟨-, herror⟩
    · cases hsome : row.payload with
      | none => exact absurd ((hchecked row hold).failed hsome) hclean
      | some payload =>
        obtain ⟨hkey, hcarries⟩ := hpayload _ _ ((hchecked row hold).checked payload hsome)
        have hnone : ∀ entry ∈ issues, entry.1 ≠ rowKey row.source := by
          intro entry hentry hsame
          rcases hattached entry hentry with ⟨-, hno⟩ | ⟨other, hother, hotherKey, hfound⟩
          · exact hno row hold hsame.symm
          · have heq := eq_of_countP_le_one (honce.resolve_left hkey) hother hold
              (decide_eq_true (hotherKey.trans hsame)) (decide_eq_true rfl)
            rw [heq] at hfound
            exact hclean (hasErrors_of_mem hfound (hmapped.errors entry hentry))
        obtain ⟨children, hordered, hread⟩ := hmapped.whole _ hkey hnone
        exact ⟨payload, children, hsome, hordered, hcarries children hread⟩
    · exact absurd herror hclean
  · rcases hmapped.kept child hchild with ⟨hkey, hlisted⟩ | ⟨entry, hentry, hon⟩
    · by_cases hmain : ∃ row ∈ rows, rowKey row.source = rowKey child
      · obtain ⟨old, hold, hsame⟩ := hmain
        obtain ⟨row, hrow, hsource, -⟩ := exists_applyDuplicateRowKeyIssues (i := i) hold
        have hrowKey : rowKey row.source = rowKey child := by rw [hsource, hsame]
        by_cases herror : hasErrors row.issues = true
        · exact .inl (.inr ⟨hkey, .inl ⟨row, hrow, hrowKey, herror⟩⟩)
        · refine .inr ⟨row, alone_of_countP hrow ?_, hrowKey, herror⟩
          rw [countP_applyDuplicateRowKeyIssues]
          rcases applyDuplicateRowKeyIssues_row hrow with ⟨-, honce⟩ | ⟨-, herror'⟩
          · exact honce.resolve_left fun hblank => hkey (hrowKey.symm.trans hblank)
          · exact absurd herror' herror
      · push Not at hmain
        obtain ⟨found, hfound, herror, hrowKey⟩ := horphans _ hlisted hmain ⟨child, hchild, rfl⟩
        have hnone : ∀ row ∈ applyDuplicateRowKeyIssues i rows,
          rowKey row.source ≠ rowKey child := by
          intro row hrow
          have hsource : row.source ∈ (applyDuplicateRowKeyIssues i rows).map (·.source) :=
            List.mem_map_of_mem hrow
          rw [applyDuplicateRowKeyIssues_sources] at hsource
          obtain ⟨old, hold, hsame⟩ := List.mem_map.mp hsource
          rw [← hsame]
          exact hmain old hold
        exact .inl (.inr ⟨hkey, .inr ⟨hnone, found, hfound, herror, hrowKey⟩⟩)
    · exact .inl (.inl ⟨entry.2, (hattached entry hentry).mem_issues, hmapped.errors entry hentry,
        hon⟩)

end

/-- What has been prepared of a workbook has its step rows. -/
theorem prepareParsed_conserved {i : Interpreter} {data : ProjectData} {parsed : ParsedImport}
    {prepared : PreparedImport} (hformat : parsed.transferFormat = .xlsx)
    (h : prepareParsed i data parsed = .ok prepared) :
    Conserved i parsed.childRows prepared.rows prepared.globalIssues := by
  obtain ⟨⟨rows, globalIssues⟩, hrows, hprepared⟩ := bind_eq_ok.mp h
  obtain rfl := Except.ok.inj hprepared
  have hblank : ∀ {source : RawImportRow} {key : String}, key = rowKey source → 1 ≤ key.length →
      rowKey source ≠ "" := by
    rintro source _ rfl hlength hempty
    rw [hempty] at hlength
    exact absurd hlength (by decide)
  unfold prepareEntityRows at hrows
  split at hrows
  · refine conserved_of_mapped (testStepMap_mapped i parsed.childRows)
      (fun source payload hpayload => ?_)
      hrows
    obtain ⟨found, rowFound, rfl, hvalid, hkey, hsteps, hfound⟩ := testCasePayload_ok hpayload
    rw [hformat] at hsteps
    obtain rfl := Except.ok.inj hsteps
    exact ⟨hblank hkey hvalid.rowKey, fun children hread => testSteps_eq hread hfound⟩
  · have hmapped := reproductionStepMap_mapped i parsed.childRows
    refine conserved_of_mapped hmapped (fun source payload hpayload => ?_) hrows
    obtain ⟨found, rfl, hvalid, hkey, hsteps⟩ := defectPayload_ok hmapped.reads hpayload
    rw [hformat] at hsteps
    refine ⟨hblank hkey hvalid.rowKey, fun children hread => ?_⟩
    rw [ImportPayload.Carries, ← Except.ok.inj hsteps]
    exact reproductionSteps_eq hread

/-- The call for a row has the step rows of its key. -/
theorem callFor_carries {i : Interpreter} {entity : TransferEntity} {projectId : Uuid}
    {childRows : List RawImportRow} {row : PreparedRow} {call : WriterCall}
    (hsound : row.Sound entity)
    (hcarried : ¬ hasErrors row.issues = true → RowCarries i childRows row)
    (hcall : callFor i entity projectId row = some call) :
    ∃ children, InOrder i childRows (rowKey row.source) children ∧ call.Carries children := by
  obtain ⟨hclean, payload, hpayload, hrow⟩ := callFor_eq_some.mp hcall
  obtain ⟨other, children, hother, hordered, hcarries⟩ := hcarried hclean
  rw [hpayload] at hother
  obtain rfl := Option.some.inj hother
  exact ⟨children, hordered, rowCall_carries (hsound.fits payload hpayload) hrow hcarries⟩

/-- A result of the batch tells of a call that has been made. -/
def CreatedBy (i : Interpreter) (parsed : ParsedImport) (projectId : Uuid) (calls : List WriterCall)
    (row : PreparedRow) (result : ImportRowResult) : Prop :=
  result.status = .created → ∃ call ∈ calls, callFor i parsed.entity projectId row = some call
    ∧ ∃ children, InOrder i parsed.childRows (rowKey row.source) children ∧ call.Carries children

theorem forall₂_imp_mem {α β : Type} {R S : α → β → Prop} {as : List α} {bs : List β}
    (h : List.Forall₂ R as bs) (himp : ∀ a ∈ as, ∀ b, R a b → S a b) : List.Forall₂ S as bs := by
  induction h with
  | nil => exact .nil
  | cons hab _ ih =>
    exact .cons (himp _ List.mem_cons_self _ hab)
      (ih fun a ha => himp a (List.mem_cons_of_mem _ ha))

/-- A step row of a workbook is one of the steps of the only main row with its key, which has all
of them in the order of their positions, or an error tells of it; and what is created has been
given to the writer with all of its step rows. -/
theorem child_rows_conserved (i : Interpreter) (data : ProjectData) (parsed : ParsedImport)
    (prepared : PreparedImport) (hformat : parsed.transferFormat = .xlsx)
    (h : prepareParsed i data parsed = .ok prepared) :
    (∀ child ∈ parsed.childRows, Reported prepared.rows prepared.globalIssues child
      ∨ ∃ row, Alone prepared.rows row ∧ rowKey row.source = rowKey child
        ∧ RowCarries i parsed.childRows row)
    ∧ ∀ (σ : Type) (write : σ → WriterCall → σ × WriterAnswer)
      (request : CommitRequest) (store : σ),
      let r := commitPartialCreateOnly write i request prepared store
      (∀ call ∈ r.1.calls, ∃ row ∈ prepared.rows,
        callFor i parsed.entity request.projectId row = some call
        ∧ ∃ children, InOrder i parsed.childRows (rowKey row.source) children
        ∧ call.Carries children)
      ∧ ∀ result, r.2 = .ok result →
        List.Forall₂ (CreatedBy i parsed request.projectId r.1.calls) prepared.rows
          result.rows := by
  have hconserved := prepareParsed_conserved hformat h
  obtain ⟨rfl, hpreview, -, hsound⟩ := prepareParsed_ok h
  refine ⟨fun child hchild => ?_, fun σ write request store => ?_⟩
  · refine (hconserved.kept child hchild).imp_right fun ⟨row, halone, hkey, hclean⟩ => ?_
    exact ⟨row, halone, hkey, hconserved.carried row halone.mem hclean⟩
  · intro r
    have hhonoured := honoursPreview_of_sound write i request store hpreview hsound
    have hcarries : ∀ row ∈ prepared.rows, ∀ call,
        callFor i prepared.parsed.entity request.projectId row = some call → ∃ children,
          InOrder i prepared.parsed.childRows (rowKey row.source) children
          ∧ call.Carries children :=
      fun row hrow call => callFor_carries (hsound row hrow) (hconserved.carried row hrow)
    refine ⟨fun call hcall => ?_, fun result hresult => ?_⟩
    · obtain ⟨row, hrow, hdue⟩ := List.mem_filterMap.mp (hhonoured.inOrder.subset hcall)
      exact ⟨row, hrow, hdue, hcarries row hrow call hdue⟩
    · obtain ⟨-, -, hgated, hopen⟩ := hhonoured.returned result hresult
      by_cases hgate : request.requireCleanPreview = true ∧ HasError prepared
      · rw [hgated hgate.1 hgate.2, List.forall₂_map_right_iff]
        exact List.forall₂_same.mpr fun row _ hcreated => by cases hcreated
      · obtain ⟨hcalls, hanswers⟩ := hopen hgate
        refine forall₂_imp_mem hanswers fun row hrow rowResult hanswer hcreated => ?_
        cases hcall : callFor i prepared.parsed.entity request.projectId row with
        | none =>
          rw [hanswer.skipped.mpr hcall] at hcreated
          cases hcreated
        | some call =>
          refine ⟨call, ?_, rfl, hcarries row hrow call hcall⟩
          rw [hcalls]
          exact List.mem_filterMap.mpr ⟨row, hrow, hcall⟩

/-- `int` of the texts `1` and `2`. -/
def countingInterpreter : Interpreter :=
  { plainInterpreter with
    int := fun value => if value = "1" then some 1 else if value = "2" then some 2 else none }

/-- A row of the sheet of steps. -/
def stepRow (row : Nat) (position action expected : String) : RawImportRow :=
  ⟨"steps", row, [("row_key", "login"), ("position", position), ("action", action),
    ("expected_result", expected)]⟩

/-- A workbook of one case, whose steps are in the wrong order. -/
def loginWorkbook : ParsedImport :=
  { loginImport with
    filename := "cases.xlsx"
    transferFormat := .xlsx
    childSheet := some "steps"
    childHeaders := ["row_key", "position", "action", "expected_result"]
    childRows := [stepRow 2 "2" "submit" "logged in", stepRow 3 "1" "open" "shown"] }

/-- What is prepared of the workbook: its steps are in the order of their positions. -/
def loginSteps : PreparedImport :=
  let steps : List TestStep := [⟨"open", "shown"⟩, ⟨"submit", "logged in"⟩]
  let row : PreparedRow :=
    ⟨caseRow 2 "login" "log in",
      some (.testCase ⟨"login", none, "log in", "", steps, .p2, .manual, []⟩), []⟩
  ⟨loginWorkbook, [row], [], buildPreview loginWorkbook [row] []⟩

theorem child_rows_conserved_login :
    (∀ child ∈ loginWorkbook.childRows, Reported loginSteps.rows [] child
      ∨ ∃ row, Alone loginSteps.rows row ∧ rowKey row.source = rowKey child
        ∧ RowCarries countingInterpreter loginWorkbook.childRows row)
    ∧ ∀ (σ : Type) (write : σ → WriterCall → σ × WriterAnswer)
      (request : CommitRequest) (store : σ),
      let r := commitPartialCreateOnly write countingInterpreter request loginSteps store
      (∀ call ∈ r.1.calls, ∃ row ∈ loginSteps.rows,
        callFor countingInterpreter .testCases request.projectId row = some call
        ∧ ∃ children, InOrder countingInterpreter loginWorkbook.childRows
          (rowKey row.source) children
          ∧ call.Carries children)
      ∧ ∀ result, r.2 = .ok result →
        List.Forall₂ (CreatedBy countingInterpreter loginWorkbook request.projectId r.1.calls)
          loginSteps.rows result.rows :=
  child_rows_conserved countingInterpreter ⟨[], [], []⟩ loginWorkbook loginSteps rfl rfl

end QaPlatform.Services.DataTransferService
