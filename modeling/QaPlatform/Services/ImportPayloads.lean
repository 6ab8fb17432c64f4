import QaPlatform.Services.ImportRows

/-!
# Payloads of an import

What a row of an import is checked against, and what the models are checked against that the
services take (`TestCaseImportPayload`, `DefectImportPayload`, `TestCaseCreate`, `DefectCreate`).
A model that is built checks all its fields and collects what it finds.
-/

namespace QaPlatform.Services

open Collect

namespace DataTransferService

/-- What a model checks: a value, or every error of its fields. -/
abbrev Checked (α : Type) := Collect.Checked SchemaError α

/-- The members of an object. -/
abbrev JsonObject := List (String × JsonValue)

/-- A count of things, for a message. -/
def counted (n : Nat) (thing : String) : String :=
  toString n ++ " " ++ thing ++ if n = 1 then "" else "s"

/-- `str` with `min_length` and `max_length`. -/
def text (loc : List String) (minLength maxLength : Nat) (value : String) : Checked String :=
  if value.length < minLength then
    .error (.one ⟨loc, "string_too_short",
      "String should have at least " ++ counted minLength "character", .text value⟩)
  else if maxLength < value.length then
    .error (.one ⟨loc, "string_too_long",
      "String should have at most " ++ counted maxLength "character", .text value⟩)
  else .ok value

/-- `'a', 'b' or 'c'`. -/
def alternatives : List String → String
  | [] => ""
  | [last] => "'" ++ last ++ "'"
  | [value, last] => "'" ++ value ++ "' or '" ++ last ++ "'"
  | value :: rest => "'" ++ value ++ "', " ++ alternatives rest

/-- A `str` enumeration. -/
def choice {α : Type} (loc : List String) (members : List (String × α))
    (value : String) : Checked α :=
  match members.lookup value with
  | some a => .ok a
  | none => .error (.one ⟨loc, "enum", "Input should be " ++ alternatives (members.map (·.1)),
      .text value⟩)

/-- `list` with `max_length`; a list that is too long is not looked into. -/
def bounded {α β : Type} (loc : List String) (maxLength : Nat) (toJson : α → JsonValue)
    (check : Nat → α → Checked β) (values : List α) : Checked (List β) :=
  if maxLength < values.length then
    .error (.one ⟨loc, "too_long", "List should have at most " ++ counted maxLength "item"
      ++ " after validation, not " ++ toString values.length, .array (values.map toJson)⟩)
  else items check 0 values

/-- A field of a `TestStep`. -/
def stepField (index : Nat) (step : JsonObject) (field : String) : Checked String :=
  let loc := ["steps", toString index, field]
  match step.lookup field with
  | none => .error (.one ⟨loc, "missing", "Field required", .object step⟩)
  | some (.text value) => .ok value
  | some value => .error (.one ⟨loc, "string_type", "Input should be a valid string", value⟩)

/-- A `TestStep` out of the object of a row. -/
def testStep (index : Nat) (step : JsonObject) : Checked TestStep :=
  field (field (.ok TestStep.mk) (stepField index step "action"))
    (stepField index step "expected_result")

/-- Whitespace of Rust, in which the checks are written. -/
def isWhitespace (c : Char) : Bool := isSpace c ∧ ¬ (28 ≤ c.toNat ∧ c.toNat ≤ 31)

/-- `strip_whitespace`. -/
def stripWhitespace (value : String) : String := String.ofList (trimBy isWhitespace value.toList)

/-- `ReproductionStep`. -/
def reproductionStep (index : Nat) (value : String) : Checked String :=
  text ["reproduction_steps", toString index] 1 500 (stripWhitespace value)

/-- The values of `TestCasePriority`. -/
def priorities : List (String × TestCasePriority) :=
  [TestCasePriority.p0, .p1, .p2, .p3].map fun priority => (priority.value, priority)

/-- The values of `TestCaseType`. -/
def caseTypes : List (String × TestCaseType) :=
  [TestCaseType.manual, .automated].map fun caseType => (caseType.value, caseType)

/-- The values of `DefectSeverity`. -/
def defectSeverities : List (String × DefectSeverity) :=
  [DefectSeverity.blocker, .critical, .major, .minor, .trivial].map fun severity =>
    (severity.value, severity)

/-- The values of `DefectPriority`. -/
def defectPriorities : List (String × DefectPriority) :=
  [DefectPriority.p0, .p1, .p2, .p3].map fun priority => (priority.value, priority)

/-! ## Rows of an import -/

/-- What a row of test cases has been checked to be. -/
structure TestCaseImportPayload where
  rowKey : String
  suiteId : Option Uuid
  title : String
  preconditions : String
  steps : List TestStep
  priority : TestCasePriority
  caseType : TestCaseType
  tags : List String
deriving DecidableEq

/-- What a row of defects has been checked to be. -/
structure DefectImportPayload where
  rowKey : String
  caseId : Option Uuid
  executionId : Option Uuid
  title : String
  description : String
  severity : DefectSeverity
  priority : DefectPriority
  reporter : String
  assignee : String
  environment : String
  reproductionSteps : List String
  expectedResult : String
  actualResult : String
deriving DecidableEq

/-- What `TestCaseImportPayload` is given of a row. -/
structure TestCaseFields where
  rowKey : String
  suiteId : Option Uuid
  title : String
  preconditions : String
  steps : List JsonObject
  priority : String
  caseType : String
  tags : List String

/-- What `DefectImportPayload` is given of a row. -/
structure DefectFields where
  rowKey : String
  caseId : Option Uuid
  executionId : Option Uuid
  title : String
  description : String
  severity : String
  priority : String
  reporter : String
  assignee : String
  environment : String
  reproductionSteps : List String
  expectedResult : String
  actualResult : String

/-- `TestCaseImportPayload.model_validate`. -/
def TestCaseImportPayload.modelValidate (row : TestCaseFields) : Checked TestCaseImportPayload :=
  let payload : Checked _ := .ok TestCaseImportPayload.mk
  let payload := field payload (text ["row_key"] 1 100 row.rowKey)
  let payload := field payload (.ok row.suiteId)
  let payload := field payload (text ["title"] 1 200 row.title)
  let payload := field payload (text ["preconditions"] 0 1000 row.preconditions)
  let payload := field payload (bounded ["steps"] 100 .object testStep row.steps)
  let payload := field payload (choice ["priority"] priorities row.priority)
  let payload := field payload (choice ["case_type"] caseTypes row.caseType)
  field payload (bounded ["tags"] 20 .text (fun _ => .ok) row.tags)

/-- `DefectImportPayload.model_validate`. -/
def DefectImportPayload.modelValidate (row : DefectFields) : Checked DefectImportPayload :=
  let payload : Checked _ := .ok DefectImportPayload.mk
  let payload := field payload (text ["row_key"] 1 100 row.rowKey)
  let payload := field payload (.ok row.caseId)
  let payload := field payload (.ok row.executionId)
  let payload := field payload (text ["title"] 1 200 row.title)
  let payload := field payload (text ["description"] 0 2000 row.description)
  let payload := field payload (choice ["severity"] defectSeverities row.severity)
  let payload := field payload (choice ["priority"] defectPriorities row.priority)
  let payload := field payload (text ["reporter"] 1 100 row.reporter)
  let payload := field payload (text ["assignee"] 0 100 row.assignee)
  let payload := field payload (text ["environment"] 0 200 row.environment)
  let payload := field payload
    (bounded ["reproduction_steps"] 50 .text reproductionStep row.reproductionSteps)
  let payload := field payload (text ["expected_result"] 0 2000 row.expectedResult)
  field payload (text ["actual_result"] 0 2000 row.actualResult)

/-! ## Models of the services -/

/-- A text that `strip_required_text` trims. -/
def requiredText (loc : List String) (maxLength : Nat) (value : String) : Checked String := do
  let value ← text loc 1 maxLength value
  if strip value = "" then
    throw (.one ⟨loc, "value_error", "Value error, 字段不能为空白字符串", .text value⟩)
  else return strip value

/-- A text that `strip_optional_text` trims. -/
def optionalText (loc : List String) (maxLength : Nat) (value : String) : Checked String := do
  let value ← text loc 0 maxLength value
  return strip value

/-- `str(id) if id else None`. -/
def uuidArgument (i : Interpreter) (id : Option Uuid) : Option UuidText :=
  id.map fun id => ⟨i.uuidText id, some id⟩

/-- The `TestCaseCreate` that a row is committed as. -/
def testCaseCreate (i : Interpreter) (projectId : Uuid) (row : TestCaseImportPayload) :
    Checked TestCaseCreate :=
  let payload : Checked _ := .ok TestCaseCreate.mk
  let payload := field payload (.ok ⟨i.uuidText projectId, some projectId⟩)
  let payload := field payload (.ok (uuidArgument i row.suiteId))
  let payload := field payload (text ["title"] 1 200 row.title)
  let payload := field payload (text ["preconditions"] 0 1000 row.preconditions)
  let payload := field payload (bounded ["steps"] 100
    (fun step =>
      .object [("action", .text step.action), ("expected_result", .text step.expectedResult)])
    (fun _ => .ok) row.steps)
  let payload := field payload (.ok row.priority)
  let payload := field payload (.ok row.caseType)
  field payload (bounded ["tags"] 20 .text (fun _ => .ok) row.tags)

/-- The `DefectCreate` that a row is committed as. -/
def defectCreate (i : Interpreter) (projectId : Uuid) (row : DefectImportPayload) :
    Checked DefectCreate :=
  let payload : Checked _ := .ok DefectCreate.mk
  let payload := field payload (.ok ⟨i.uuidText projectId, some projectId⟩)
  let payload := field payload (.ok (uuidArgument i row.caseId))
  let payload := field payload (.ok (uuidArgument i row.executionId))
  let payload := field payload (requiredText ["title"] 200 row.title)
  let payload := field payload (optionalText ["description"] 2000 row.description)
  let payload := field payload (.ok row.severity)
  let payload := field payload (.ok row.priority)
  let payload := field payload (requiredText ["reporter"] 100 row.reporter)
  let payload := field payload (optionalText ["assignee"] 100 row.assignee)
  let payload := field payload (optionalText ["environment"] 200 row.environment)
  let payload := field payload
    (bounded ["reproduction_steps"] 50 .text reproductionStep row.reproductionSteps)
  let payload := field payload (optionalText ["expected_result"] 2000 row.expectedResult)
  field payload (optionalText ["actual_result"] 2000 row.actualResult)

/-! ## What the checks accept -/

theorem text_eq_ok {loc : List String} {minLength maxLength : Nat} {value a : String} :
    text loc minLength maxLength value = .ok a
      ↔ minLength ≤ value.length ∧ value.length ≤ maxLength ∧ value = a := by
  unfold text
  split
  · simp
    omega
  · split
    · simp
      omega
    · rw [Except.ok.injEq]
      exact ⟨fun h => ⟨by omega, by omega, h⟩, fun h => h.2.2⟩

theorem bounded_eq_ok {α β : Type} {loc : List String} {maxLength : Nat} {toJson : α → JsonValue}
    {check : Nat → α → Checked β} {Accepts : α → β → Prop}
    (hcheck : ∀ index a b, check index a = .ok b ↔ Accepts a b) {values : List α} {bs : List β} :
    bounded loc maxLength toJson check values = .ok bs
      ↔ values.length ≤ maxLength ∧ List.Forall₂ Accepts values bs := by
  unfold bounded
  split
  · simp
    omega
  · next hlength =>
    rw [items_eq_ok hcheck]
    exact (and_iff_right (Nat.le_of_not_lt hlength)).symm

/-- A list whose items are taken as they are. -/
theorem bounded_plain_eq_ok {α : Type} {loc : List String} {maxLength : Nat}
    {toJson : α → JsonValue}
    {values bs : List α} : bounded loc maxLength toJson (fun _ => .ok) values = .ok bs
      ↔ values.length ≤ maxLength ∧ values = bs := by
  have hplain : ∀ (_ : Nat) (a b : α), (.ok a : Checked α) = .ok b ↔ a = b := by simp
  rw [bounded_eq_ok hplain, List.forall₂_eq_eq_eq]

theorem stepField_eq_ok {index : Nat} {step : JsonObject} {name value : String} :
    stepField index step name = .ok value ↔ step.lookup name = some (.text value) := by
  unfold stepField
  split
  · next hmissing => simp [hmissing]
  · next found hfound => simp [hfound]
  · next other hother hfound =>
    rw [hfound]
    simpa using fun hsame => hother value hsame

/-- What the texts of a step are; other entries are ignored. -/
def IsStep (step : JsonObject) (value : TestStep) : Prop :=
  step.lookup "action" = some (.text value.action)
    ∧ step.lookup "expected_result" = some (.text value.expectedResult)

theorem testStep_eq_ok (index : Nat) (step : JsonObject) (value : TestStep) :
    testStep index step = .ok value ↔ IsStep step value := by
  unfold testStep IsStep
  simp only [field_eq_ok, Except.ok.injEq, stepField_eq_ok]
  constructor
  · rintro ⟨_, expected, ⟨_, action, rfl, haction, rfl⟩, hexpected, rfl⟩
    exact ⟨haction, hexpected⟩
  · intro ⟨haction, hexpected⟩
    exact ⟨_, _, ⟨_, _, rfl, haction, rfl⟩, hexpected, rfl⟩

theorem stripWhitespace_strip (value : String) : stripWhitespace (strip value) = strip value := by
  have hblank : ∀ c, isWhitespace c = true → isSpace c = true := by
    intro c hc
    exact (of_decide_eq_true hc).1
  rw [stripWhitespace, strip_eq, String.toList_ofList, trimBy_trimBy hblank]

theorem reproductionStep_eq_ok (index : Nat) (value a : String) :
    reproductionStep index value = .ok a
      ↔ 1 ≤ (stripWhitespace value).length ∧ (stripWhitespace value).length ≤ 500
        ∧ stripWhitespace value = a := text_eq_ok

/-- A text that is trimmed already and not too long. -/
theorem requiredText_strip {loc : List String} {maxLength : Nat} {value : String}
    (htrimmed : strip value = value) (hmin : 1 ≤ value.length) (hmax : value.length ≤ maxLength) :
    requiredText loc maxLength value = .ok value := by
  have hblank : value ≠ "" := by
    rintro rfl
    exact absurd hmin (by decide)
  unfold requiredText
  rw [text_eq_ok.mpr ⟨hmin, hmax, rfl⟩, ok_bind, htrimmed, if_neg hblank]
  rfl

theorem optionalText_strip {loc : List String} {maxLength : Nat} {value : String}
    (htrimmed : strip value = value) (hmax : value.length ≤ maxLength) :
    optionalText loc maxLength value = .ok value := by
  unfold optionalText
  rw [text_eq_ok.mpr ⟨Nat.zero_le _, hmax, rfl⟩, ok_bind, htrimmed]
  rfl

/-! ## A payload becomes a model -/

/-- Within the limits of `TestCaseImportPayload`. -/
structure TestCaseImportPayload.Valid (payload : TestCaseImportPayload) : Prop where
  rowKey : 1 ≤ payload.rowKey.length
  title : 1 ≤ payload.title.length ∧ payload.title.length ≤ 200
  preconditions : payload.preconditions.length ≤ 1000
  steps : payload.steps.length ≤ 100
  tags : payload.tags.length ≤ 20

theorem TestCaseImportPayload.modelValidate_ok {row : TestCaseFields}
    {payload : TestCaseImportPayload}
    (h : modelValidate row = .ok payload) :
    payload.Valid ∧ payload.rowKey = row.rowKey ∧ List.Forall₂ IsStep row.steps payload.steps := by
  unfold modelValidate at h
  simp only [field_eq_ok, Except.ok.injEq, text_eq_ok, bounded_eq_ok testStep_eq_ok,
    bounded_plain_eq_ok] at h
  obtain ⟨_, tags, ⟨_, _, ⟨_, _, ⟨_, steps, ⟨_, preconditions, ⟨_, title, ⟨_, _, ⟨_, rowKey, rfl,
    ⟨hlong, -, rfl⟩, rfl⟩, rfl, rfl⟩, ⟨hmin, hmax, rfl⟩, rfl⟩, ⟨-, hpre, rfl⟩, rfl⟩,
    ⟨hsteps, hstep⟩, rfl⟩, -, rfl⟩, -, rfl⟩, ⟨htags, rfl⟩, rfl⟩ := h
  refine ⟨⟨hlong, ⟨hmin, hmax⟩, hpre, ?_, htags⟩, rfl, hstep⟩
  rw [← hstep.length_eq]
  exact hsteps

/-- The limits of `TestCaseCreate` are those of the import. -/
theorem testCaseCreate_ok (i : Interpreter) (projectId : Uuid) {payload : TestCaseImportPayload}
    (h : payload.Valid) : testCaseCreate i projectId payload
      = .ok ⟨⟨i.uuidText projectId, some projectId⟩, uuidArgument i payload.suiteId, payload.title,
        payload.preconditions, payload.steps, payload.priority, payload.caseType,
        payload.tags⟩ := by
  unfold testCaseCreate
  rw [text_eq_ok.mpr ⟨h.title.1, h.title.2, rfl⟩,
    text_eq_ok.mpr ⟨Nat.zero_le _, h.preconditions, rfl⟩,
    bounded_plain_eq_ok.mpr ⟨h.steps, rfl⟩, bounded_plain_eq_ok.mpr ⟨h.tags, rfl⟩]
  rfl

/-- A trimmed text within its limits. -/
def Fits (minLength maxLength : Nat) (value : String) : Prop :=
  strip value = value ∧ minLength ≤ value.length ∧ value.length ≤ maxLength

/-- Every text of the row has been trimmed. -/
structure DefectFields.Trimmed (row : DefectFields) : Prop where
  title : strip row.title = row.title
  description : strip row.description = row.description
  reporter : strip row.reporter = row.reporter
  assignee : strip row.assignee = row.assignee
  environment : strip row.environment = row.environment
  reproductionSteps : ∀ step ∈ row.reproductionSteps, strip step = step
  expectedResult : strip row.expectedResult = row.expectedResult
  actualResult : strip row.actualResult = row.actualResult

/-- Within the limits of `DefectImportPayload`, and trimmed. -/
structure DefectImportPayload.Valid (payload : DefectImportPayload) : Prop where
  rowKey : 1 ≤ payload.rowKey.length
  title : Fits 1 200 payload.title
  description : Fits 0 2000 payload.description
  reporter : Fits 1 100 payload.reporter
  assignee : Fits 0 100 payload.assignee
  environment : Fits 0 200 payload.environment
  reproductionSteps : payload.reproductionSteps.length ≤ 50
    ∧ ∀ step ∈ payload.reproductionSteps, Fits 1 500 step
  expectedResult : Fits 0 2000 payload.expectedResult
  actualResult : Fits 0 2000 payload.actualResult

/-- Steps that have been trimmed are taken as they are. -/
theorem reproductionSteps_eq_ok {steps taken : List String}
    (htrimmed : ∀ step ∈ steps, strip step = step) :
    bounded ["reproduction_steps"] 50 .text reproductionStep steps = .ok taken
      ↔ steps.length ≤ 50 ∧ (∀ step ∈ steps, Fits 1 500 step) ∧ steps = taken := by
  rw [bounded_eq_ok reproductionStep_eq_ok]
  refine and_congr_right fun hlength => ?_
  clear hlength
  induction steps generalizing taken with
  | nil => simp [eq_comm]
  | cons step steps ih =>
    have hstep := htrimmed step List.mem_cons_self
    have hwhite : stripWhitespace step = step := by rw [← hstep, stripWhitespace_strip, hstep]
    rw [List.forall₂_cons_left_iff, List.forall_mem_cons]
    constructor
    · rintro ⟨first, rest, ⟨hmin, hmax, rfl⟩, hrest, rfl⟩
      obtain ⟨hfits, rfl⟩ := (ih fun s hs => htrimmed s (List.mem_cons_of_mem _ hs)).mp hrest
      rw [hwhite] at hmin hmax ⊢
      exact ⟨⟨⟨hstep, hmin, hmax⟩, hfits⟩, rfl⟩
    · rintro ⟨⟨⟨-, hmin, hmax⟩, hfits⟩, rfl⟩
      refine ⟨step, steps, ?_, (ih fun s hs => htrimmed s (List.mem_cons_of_mem _ hs)).mpr
        ⟨hfits, rfl⟩, rfl⟩
      rw [hwhite]
      exact ⟨hmin, hmax, rfl⟩

theorem DefectImportPayload.modelValidate_ok {row : DefectFields} {payload : DefectImportPayload}
    (htrimmed : row.Trimmed) (h : modelValidate row = .ok payload) :
    payload.Valid ∧ payload.rowKey = row.rowKey
      ∧ payload.reproductionSteps = row.reproductionSteps := by
  unfold modelValidate at h
  simp only [field_eq_ok, Except.ok.injEq, text_eq_ok,
    reproductionSteps_eq_ok htrimmed.reproductionSteps] at h
  obtain ⟨_, actual, ⟨_, expected, ⟨_, steps, ⟨_, environment, ⟨_, assignee, ⟨_, reporter,
    ⟨_, _, ⟨_, _, ⟨_, description, ⟨_, title, ⟨_, _, ⟨_, _, ⟨_, rowKey, rfl, ⟨hlong, -, rfl⟩,
    rfl⟩, rfl, rfl⟩, rfl, rfl⟩, ⟨htitle, htitle', rfl⟩, rfl⟩, ⟨hdesc, hdesc', rfl⟩, rfl⟩,
    -, rfl⟩, -, rfl⟩, ⟨hrep, hrep', rfl⟩, rfl⟩, ⟨hassign, hassign', rfl⟩, rfl⟩,
    ⟨henv, henv', rfl⟩, rfl⟩,
    ⟨hlength, hsteps, rfl⟩, rfl⟩, ⟨hexp, hexp', rfl⟩, rfl⟩, ⟨hact, hact', rfl⟩, rfl⟩ := h
  exact ⟨⟨hlong, ⟨htrimmed.title, htitle, htitle'⟩, ⟨htrimmed.description, hdesc, hdesc'⟩,
    ⟨htrimmed.reporter, hrep, hrep'⟩, ⟨htrimmed.assignee, hassign, hassign'⟩,
    ⟨htrimmed.environment, henv, henv'⟩, ⟨hlength, hsteps⟩, ⟨htrimmed.expectedResult, hexp, hexp'⟩,
    ⟨htrimmed.actualResult, hact, hact'⟩⟩, rfl, rfl⟩

/-- The limits of `DefectCreate` are those of the import, and trimming takes nothing more off. -/
theorem defectCreate_ok (i : Interpreter) (projectId : Uuid) {payload : DefectImportPayload}
    (h : payload.Valid) : defectCreate i projectId payload
      = .ok ⟨⟨i.uuidText projectId, some projectId⟩, uuidArgument i payload.caseId,
        uuidArgument i payload.executionId, payload.title, payload.description, payload.severity,
        payload.priority, payload.reporter, payload.assignee, payload.environment,
        payload.reproductionSteps, payload.expectedResult, payload.actualResult⟩ := by
  have hsteps :=
    (reproductionSteps_eq_ok fun step hstep => (h.reproductionSteps.2 step hstep).1).mpr
    ⟨h.reproductionSteps.1, h.reproductionSteps.2, rfl⟩
  unfold defectCreate
  rw [requiredText_strip h.title.1 h.title.2.1 h.title.2.2,
    requiredText_strip h.reporter.1 h.reporter.2.1 h.reporter.2.2,
    optionalText_strip h.description.1 h.description.2.2,
      optionalText_strip h.assignee.1 h.assignee.2.2,
    optionalText_strip h.environment.1 h.environment.2.2,
    optionalText_strip h.expectedResult.1 h.expectedResult.2.2,
    optionalText_strip h.actualResult.1 h.actualResult.2.2, hsteps]
  rfl

end DataTransferService

end QaPlatform.Services
