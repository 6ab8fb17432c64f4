import Mathlib.Data.List.DropRight
import QaPlatform.Base.Collect
import QaPlatform.Services.Defects

/-!
# Rows of an import

What a file has been parsed to (`app/data_transfer/models.py`), and the issues that are found with
its rows (`app/schemas/data_transfer.py`, `app/services/data_transfer.py`). A cell is a text; a
column that a row does not have is read as the empty text.
-/

namespace QaPlatform.Services

/-- The values of `TestCasePriority`. -/
def TestCasePriority.value : TestCasePriority → String
  | .p0 => "P0"
  | .p1 => "P1"
  | .p2 => "P2"
  | .p3 => "P3"

/-- The values of `TestCaseType`. -/
def TestCaseType.value : TestCaseType → String
  | .manual => "manual"
  | .automated => "automated"

/-! ## Trimmed texts -/

/-- What ends in a character that is kept loses only from its front. -/
theorem dropWhile_append_kept {p : Char → Bool} {c : Char} (hc : p c = false) (l : List Char) :
    (l ++ [c]).dropWhile p = l.dropWhile p ++ [c] := by
  induction l with
  | nil => simp [hc]
  | cons a l ih =>
    by_cases ha : p a = true
    · simp only [List.cons_append, List.dropWhile_cons, ha, if_true, ih]
    · simp [ha]

/-- `str.strip`, and `str::trim` of Rust, with the characters that they take for blank. -/
def trimBy (p : Char → Bool) (text : List Char) : List Char :=
  ((text.dropWhile p).reverse.dropWhile p).reverse

/-- Neither end of a trimmed text is blank to whom fewer characters are. -/
theorem trimBy_trimBy {p q : Char → Bool} (hpq : ∀ c, p c = true → q c = true) (text : List Char) :
    trimBy p (trimBy q text) = trimBy q text := by
  have hdrop : ∀ l : List Char, (l.dropWhile q).dropWhile p = l.dropWhile q := by
    intro l
    cases hkept : l.dropWhile q with
    | nil => rfl
    | cons first rest =>
      have hfirst : q first = false := by
        have hhead := List.head_dropWhile_not q (by rw [hkept]; simp)
        simpa [hkept] using hhead
      apply List.dropWhile_cons_of_neg
      intro hp
      rw [hpq first hp] at hfirst
      cases hfirst
  have hfront : (trimBy q text).dropWhile p = trimBy q text := by
    unfold trimBy
    cases hkept : text.dropWhile q with
    | nil => rfl
    | cons first rest =>
      have hfirst : q first = false := by
        have hhead := List.head_dropWhile_not q (by rw [hkept]; simp)
        simpa [hkept] using hhead
      have hnot : ¬ p first = true := by
        intro hp
        rw [hpq first hp] at hfirst
        cases hfirst
      rw [List.reverse_cons, dropWhile_append_kept hfirst, List.reverse_append,
        List.reverse_singleton, List.singleton_append, List.dropWhile_cons_of_neg hnot]
  rw [trimBy, hfront]
  unfold trimBy
  rw [List.reverse_reverse, hdrop]

theorem strip_eq (value : String) : strip value = String.ofList (trimBy isSpace value.toList) := rfl

theorem strip_strip (value : String) : strip (strip value) = strip value := by
  rw [strip_eq, strip_eq, String.toList_ofList, trimBy_trimBy fun _ h => h]

namespace DataTransferService

/-- `TransferEntity`. -/
inductive TransferEntity where
  | testCases
  | defects
deriving DecidableEq, Repr

/-- `TransferFormat`. -/
inductive TransferFormat where
  | csv
  | xlsx
deriving DecidableEq, Repr

/-- A value that `json.loads` returns. -/
inductive JsonValue where
  | null
  | boolean (value : Bool)
  | integer (value : Int)
  /-- A float, as its text. -/
  | real (text : String)
  | text (value : String)
  | array (items : List JsonValue)
  | object (entries : List (String × JsonValue))

/-- How `json.loads` ends. -/
inductive JsonOutcome where
  | value (value : JsonValue)
  /-- `json.JSONDecodeError`. -/
  | decodeError
  /-- `RecursionError`: the text is nested too deep. -/
  | recursionError
  /-- `ValueError`: an integer has too many digits. -/
  | valueError

/-- What the import asks of Python. -/
structure Interpreter where
  /-- `int` of a text; `ValueError` is `none`. -/
  int : String → Option Int
  /-- `UUID` of a text; `ValueError` is `none`. -/
  uuid : String → Option Uuid
  /-- `str` of a UUID. -/
  uuidText : Uuid → String
  casefold : String → String
  /-- `json.loads`. -/
  loads : String → JsonOutcome
  /-- `str` of a list or a dictionary. -/
  render : JsonValue → String
  /-- The order in which a set of texts is gone through. -/
  arrange : List String → List String
  arrange_perm : ∀ texts, (arrange texts).Perm texts

/-- An interpreter that reads no text as something else. -/
def plainInterpreter : Interpreter :=
  ⟨fun _ => none, fun _ => none, fun _ => "", id, fun _ => .decodeError, fun _ => "", id, .refl⟩

/-- `RawImportRow`. -/
structure RawImportRow where
  sheet : String
  row : Nat
  values : List (String × String)
deriving DecidableEq

/-- `str(values.get(column, ""))`. -/
def RawImportRow.cell (source : RawImportRow) (column : String) : String :=
  (source.values.lookup column).getD ""

/-- `_row_key`. -/
def rowKey (source : RawImportRow) : String := strip (source.cell "row_key")

/-- `ParsedImport`. -/
structure ParsedImport where
  entity : TransferEntity
  filename : String
  transferFormat : TransferFormat
  sha256 : String
  templateVersion : String
  mainSheet : String
  mainHeaders : List String
  mainRows : List RawImportRow
  childSheet : Option String
  childHeaders : List String
  childRows : List RawImportRow

/-- `ImportIssueSeverity`. -/
inductive ImportIssueSeverity where
  | error
  | warning
deriving DecidableEq, Repr

/-- `ImportIssue`. -/
structure ImportIssue where
  sheet : String
  row : Nat
  rowKey : String
  field : String
  code : String
  message : String
  severity : ImportIssueSeverity
  value : JsonValue

/-- `MAX_EXPOSED_VALUE_CHARS`. -/
def maxExposedValueChars : Nat := 160

/-- What `exposed_value` makes of a text. -/
def exposedText (rendered : String) : String :=
  if rendered.length ≤ maxExposedValueChars then rendered
  else String.ofList (rendered.toList.take maxExposedValueChars) ++ "…"

/-- `exposed_value`. -/
def exposedValue (i : Interpreter) : JsonValue → JsonValue
  | .null => .null
  | .boolean value => .boolean value
  | .integer value => .integer value
  | .real text => .real text
  | .text value => .text (exposedText value)
  | .array items => .text (exposedText (i.render (.array items)))
  | .object entries => .text (exposedText (i.render (.object entries)))

/-- `_issue`. -/
def issue (i : Interpreter) (source : RawImportRow) (field code message : String)
    (value : JsonValue) :
    ImportIssue :=
  ⟨source.sheet, source.row, rowKey source, field, code, message, .error, exposedValue i value⟩

/-- `_has_errors`. -/
def hasErrors (issues : List ImportIssue) : Bool := issues.any (·.severity = .error)

/-- `_RowDataError`. -/
structure RowDataError where
  field : String
  code : String
  message : String
  value : JsonValue

/-- One of the `errors()` of a `ValidationError`. -/
structure SchemaError where
  loc : List String
  type : String
  msg : String
  input : JsonValue

/-- An exception that no handler of the import catches. -/
inductive Escape where
  /-- `csv.Error`. -/
  | csvError
  | recursionError
  | valueError
  | runtimeError
  | notImplementedError
  /-- `zlib.error`. -/
  | zlibError
  /-- An exception of `openpyxl`, while the rows of a sheet are read. -/
  | workbookError
  | attributeError
  /-- `ValidationError`, where a model is built. -/
  | validationError
  | assertionError
deriving DecidableEq, Repr

/-- What a row ends with when it is prepared: what is caught, and what is not. -/
inductive RowFailure where
  | data (error : RowDataError)
  | validation (errors : Collect.Errors SchemaError)
  | escape (exception : Escape)

/-- `_optional_uuid`. -/
def optionalUuid (i : Interpreter) (value field : String) : Except RowFailure (Option Uuid) :=
  if strip value = "" then .ok none
  else
    match i.uuid (strip value) with
    | some id => .ok (some id)
    | none => .error (.data ⟨field, "invalid_uuid", "必须是有效 UUID", .text value⟩)

end DataTransferService

end QaPlatform.Services
