import QaPlatform.Services.ImportRows
import QaPlatform.Services.SuiteCoverage
import QaPlatform.Services.SuiteForest

/-!
# Suites by their paths

An export writes a suite as the names above it, joined by slashes; an import splits the text at
the slashes, trims the parts and looks the path up (`_suite_indexes` and `_resolve_suite` of
`app/services/data_transfer.py`). A name may itself have slashes, and a text that a spreadsheet
would take for a formula is written behind an apostrophe.
-/

namespace QaPlatform.Services.DataTransferService

open Relation
open QualityService
  (byId byId_some byId_none byId_id Distinct Under under_iff walk_ends projectSuites)

/-! ## Writing and reading -/

/-- The walk of `_suite_indexes`; the last name comes first. -/
structure IndexWalk where
  current : TestSuite
  visited : Finset Uuid
  names : List String

/-- One turn of the loop that writes the path of a suite, for the index of paths. -/
def indexStep (suites : List TestSuite) (w : IndexWalk) : IndexWalk ⊕ Option (List String) :=
  if w.current.id ∈ w.visited then .inr none
  else
    match w.current.parentId with
    | none => .inr (some (strip w.current.name :: w.names))
    | some parentId =>
      match byId suites parentId with
      | none => .inr none
      | some parent =>
        .inl ⟨parent, insert w.current.id w.visited, strip w.current.name :: w.names⟩

/-- `_suite_indexes`: the suites that have a path, in their order and with it. -/
def suiteIndexes (suites : List TestSuite) (fuel : Nat) :
    List TestSuite → Option (List (TestSuite × String))
  | [] => some []
  | suite :: rest => do
    let names ← Loop.eval (indexStep suites) fuel ⟨suite, ∅, []⟩
    let entries ← suiteIndexes suites fuel rest
    return (names.map fun names => (suite, String.intercalate "/" names)).toList ++ entries

/-- `paths_by_id`. -/
def pathsById (entries : List (TestSuite × String)) (id : Uuid) : List String :=
  (entries.filter (·.1.id = id)).map (·.2)

/-- `by_path`. -/
def suitesByPath (entries : List (TestSuite × String)) (path : String) : List TestSuite :=
  (entries.filter (·.2 = path)).map (·.1)

/-- `_DANGEROUS_SPREADSHEET_PREFIXES`. -/
def dangerousPrefixes : List Char := ['=', '+', '-', '@', '\t', '\r']

/-- `neutralize_spreadsheet_text`. -/
def neutralizeSpreadsheetText (value : String) : String :=
  if value.toList.head?.any (· ∈ dangerousPrefixes) then "'" ++ value else value

/-- The suite path that `export_test_cases` writes for a case of a suite. -/
def exportedPath (entries : List (TestSuite × String)) (suiteId : Uuid) : String :=
  neutralizeSpreadsheetText ((pathsById entries suiteId).head?.getD "")

/-- `raw_path`: the parts between the slashes, trimmed, without the blank ones. -/
def rawPath (text : String) : String :=
  String.intercalate "/"
    (((text.toList.splitOn '/').map fun part => strip (String.ofList part)).filter
    (· ≠ ""))

/-- `suite_from_id`. -/
def suiteFromId (i : Interpreter) (suites : List TestSuite) (rawId : String) :
    Except RowFailure (Option TestSuite) :=
  if rawId = "" then return none
  else do
    let suiteId ← optionalUuid i rawId "suite_id"
    let suiteId ← demand (.escape .assertionError) suiteId
    let suite ← demand
      (.data ⟨"suite_id", "suite_not_in_project", "套件不存在或不属于目标项目", .text rawId⟩)
      (byId suites suiteId)
    return some suite

/-- `suite_from_path`. -/
def suiteFromPath (entries : List (TestSuite × String)) (rawPath : String) :
    Except RowFailure (Option TestSuite) :=
  if rawPath = "" then return none
  else
    match suitesByPath entries rawPath with
    | [] => throw (.data ⟨"suite_path", "suite_path_not_found", "目标项目中不存在该套件路径", .text rawPath⟩)
    | [suite] => return some suite
    | _ => throw
        (.data ⟨"suite_path", "ambiguous_suite_path", "套件路径不唯一，请改用 suite_id", .text rawPath⟩)

/-- The suite that a row is for, by its identifier and by its path. -/
def selectSuite (i : Interpreter) (suites : List TestSuite) (entries : List (TestSuite × String))
    (source : RawImportRow) : Except RowFailure (Option TestSuite) := do
  let fromId ← suiteFromId i suites (strip (source.cell "suite_id"))
  let fromPath ← suiteFromPath entries (rawPath (source.cell "suite_path"))
  refuse (fromId.any fun a => fromPath.any fun b => a.id ≠ b.id)
    (.data ⟨"suite_id", "suite_reference_mismatch", "suite_id 与 suite_path 指向不同套件", .null⟩)
  return fromId.or fromPath

/-- The walk of `_resolve_suite`. -/
structure ActiveWalk where
  current : TestSuite
  visited : Finset Uuid

/-- One turn of the loop that checks a suite and its parents. -/
def activeStep (i : Interpreter) (suites : List TestSuite) (selected : TestSuite) (w : ActiveWalk) :
    ActiveWalk ⊕ Except RowFailure Unit :=
  if w.current.id ∈ w.visited then
    .inr (.error (.data ⟨"suite_id", "suite_cycle", "套件层级存在循环", .text (i.uuidText selected.id)⟩))
  else if w.current.status ≠ .active then
    .inr (.error (.data ⟨"suite_id", "suite_archived", "归档套件或其归档祖先不能接收用例",
      .text (i.uuidText selected.id)⟩))
  else
    match w.current.parentId with
    | none => .inr (.ok ())
    | some parentId =>
      match byId suites parentId with
      | none => .inr (.error (.data ⟨"suite_id", "suite_parent_missing", "套件父节点不存在",
          .text (i.uuidText parentId)⟩))
      | some parent => .inl ⟨parent, insert w.current.id w.visited⟩

/-- `_resolve_suite`. -/
def resolveSuite (i : Interpreter) (suites : List TestSuite) (entries : List (TestSuite × String))
    (fuel : Nat) (source : RawImportRow) : Option (Except RowFailure (Option Uuid)) :=
  match selectSuite i suites entries source with
  | .error failure => some (.error failure)
  | .ok none => some (.ok none)
  | .ok (some selected) => do
    let walked ← Loop.eval (activeStep i suites selected) fuel ⟨selected, ∅⟩
    return do
      walked
      refuse (pathsById entries selected.id = [])
        (.data ⟨"suite_id", "suite_path_invalid", "无法解析套件路径", .text (i.uuidText selected.id)⟩)
      return some selected.id

/-! ## The walks end -/

section
variable {suites : List TestSuite} {i : Interpreter} {selected : TestSuite}

/-- A step of a walk that goes on comes to the parent. -/
theorem indexStep_again {w next : IndexWalk} (h : indexStep suites w = .inl next) :
    w.current.id ∉ w.visited ∧ next.current ∈ suites ∧ w.current.parentId = some next.current.id
      ∧ next.visited = insert w.current.id w.visited
      ∧ next.names = strip w.current.name :: w.names := by
  unfold indexStep at h
  split at h
  · cases h
  · next hnew =>
    split at h
    · cases h
    · next parentId hparent =>
      split at h
      · cases h
      · next parent hfound =>
        obtain ⟨hmem, rfl⟩ := byId_some hfound
        obtain rfl := Sum.inl.inj h
        exact ⟨hnew, hmem, hparent, rfl, rfl⟩

theorem indexStep_ends (suites : List TestSuite) {suite : TestSuite} (h : suite ∈ suites) :
    ∃ names, ∀ fuel, suites.length < fuel →
      Loop.eval (indexStep suites) fuel ⟨suite, ∅, []⟩ = some names := by
  apply walk_ends (fun w => w.current ∈ suites) (·.visited) _ h
  intro w next hcurrent hagain
  obtain ⟨hnew, hmem, -, hvisited, -⟩ := indexStep_again hagain
  exact ⟨hmem, _, List.mem_map_of_mem hcurrent, hnew, hvisited⟩

theorem activeStep_again {w next : ActiveWalk} (h : activeStep i suites selected w = .inl next) :
    w.current.id ∉ w.visited ∧ w.current.status = .active ∧ next.current ∈ suites
      ∧ w.current.parentId = some next.current.id
      ∧ next.visited = insert w.current.id w.visited := by
  unfold activeStep at h
  split at h
  · cases h
  · next hnew =>
    split at h
    · cases h
    · next hactive =>
      split at h
      · cases h
      · next parentId hparent =>
        split at h
        · cases h
        · next parent hfound =>
          obtain ⟨hmem, rfl⟩ := byId_some hfound
          obtain rfl := Sum.inl.inj h
          exact ⟨hnew, not_not.mp hactive, hmem, hparent, rfl⟩

theorem activeStep_ends (i : Interpreter) (selected : TestSuite) {suite : TestSuite}
    (h : suite ∈ suites) : ∃ walked, ∀ fuel, suites.length < fuel →
      Loop.eval (activeStep i suites selected) fuel ⟨suite, ∅⟩ = some walked := by
  apply walk_ends (fun w => w.current ∈ suites) (·.visited) _ h
  intro w next hcurrent hagain
  obtain ⟨hnew, -, hmem, -, hvisited⟩ := activeStep_again hagain
  exact ⟨hmem, _, List.mem_map_of_mem hcurrent, hnew, hvisited⟩

theorem suiteIndexes_ends (suites : List TestSuite) {listed : List TestSuite}
    (h : ∀ suite ∈ listed, suite ∈ suites) :
    ∃ entries, ∀ fuel, suites.length < fuel → suiteIndexes suites fuel listed = some entries := by
  induction listed with
  | nil => exact ⟨[], fun _ _ => rfl⟩
  | cons suite listed ih =>
    obtain ⟨names, hnames⟩ := indexStep_ends suites (h suite List.mem_cons_self)
    obtain ⟨entries, hentries⟩ := ih fun other hother => h other (List.mem_cons_of_mem _ hother)
    refine ⟨(names.map fun names => (suite, String.intercalate "/" names)).toList ++ entries,
      fun fuel hfuel => ?_⟩
    rw [suiteIndexes, hnames fuel hfuel, hentries fuel hfuel]
    rfl

theorem mem_of_suiteIndexes {fuel : Nat} {listed : List TestSuite}
    {entries : List (TestSuite × String)} (h : suiteIndexes suites fuel listed = some entries)
    {entry : TestSuite × String} (hentry : entry ∈ entries) : entry.1 ∈ listed := by
  induction listed generalizing entries with
  | nil =>
    obtain rfl := Option.some.inj h
    cases hentry
  | cons suite listed ih =>
    simp only [suiteIndexes, Option.bind_eq_bind, Option.bind_eq_some_iff] at h
    obtain ⟨names, -, rest, hrest, hentries⟩ := h
    obtain rfl := Option.some.inj hentries
    rcases List.mem_append.mp hentry with hfirst | hlater
    · cases names with
      | none => cases hfirst
      | some names =>
        rw [List.mem_singleton.mp hfirst]
        exact List.mem_cons_self
    · exact List.mem_cons_of_mem _ (ih hrest hlater)

variable {entries : List (TestSuite × String)} {source : RawImportRow}

/-- A row selects a suite of the project. -/
theorem selectSuite_mem (hentries : ∀ entry ∈ entries, entry.1 ∈ suites)
    (h : selectSuite i suites entries source = .ok (some selected)) : selected ∈ suites := by
  simp only [selectSuite, bind_eq_ok] at h
  obtain ⟨fromId, hid, fromPath, hpath, _, -, hselected⟩ := h
  have hor := Except.ok.inj hselected
  rcases Option.or_eq_some_iff.mp hor with rfl | ⟨-, rfl⟩
  · unfold suiteFromId at hid
    split at hid
    · cases hid
    · simp only [bind_eq_ok, demand_eq_ok] at hid
      obtain ⟨_, -, suiteId, -, found, hfound, hsame⟩ := hid
      rw [← Option.some.inj (Except.ok.inj hsame)]
      exact (byId_some hfound).1
  · unfold suiteFromPath at hpath
    split at hpath
    · cases hpath
    · split at hpath
      · cases hpath
      · next found hfound =>
        rw [← Option.some.inj (Except.ok.inj hpath)]
        have hmem : found ∈ suitesByPath entries (rawPath (source.cell "suite_path")) := by
          rw [hfound]
          exact List.mem_singleton_self found
        obtain ⟨entry, hentry, rfl⟩ := List.mem_map.mp hmem
        exact hentries entry (List.mem_of_mem_filter hentry)
      · cases hpath

theorem resolveSuite_ends (i : Interpreter) (hentries : ∀ entry ∈ entries, entry.1 ∈ suites)
    (source : RawImportRow) : ∃ resolved, ∀ fuel, suites.length < fuel →
      resolveSuite i suites entries fuel source = some resolved := by
  cases hselect : selectSuite i suites entries source with
  | error failure => exact ⟨.error failure, fun fuel _ => by rw [resolveSuite, hselect]⟩
  | ok found =>
    cases found with
    | none => exact ⟨.ok none, fun fuel _ => by rw [resolveSuite, hselect]⟩
    | some selected =>
      obtain ⟨walked, hends⟩ := activeStep_ends i selected (selectSuite_mem hentries hselect)
      refine ⟨do
        walked
        refuse (pathsById entries selected.id = [])
          (.data ⟨"suite_id", "suite_path_invalid", "无法解析套件路径", .text (i.uuidText selected.id)⟩)
        return some selected.id, fun fuel hfuel => ?_⟩
      rw [resolveSuite, hselect]
      simp only [hends fuel hfuel]
      rfl

end

/-! ## The suites of a project -/

theorem suiteIndexes_isSome (suites : List TestSuite) :
    (suiteIndexes suites (suites.length + 1) suites).isSome = true := by
  obtain ⟨entries, hends⟩ := suiteIndexes_ends suites fun _ h => h
  rw [hends _ (Nat.lt_succ_self _)]
  rfl

/-- The entries of all suites: the walks have ended when the fuel is used up. -/
def suiteEntries (suites : List TestSuite) : List (TestSuite × String) :=
  (suiteIndexes suites (suites.length + 1) suites).get (suiteIndexes_isSome suites)

theorem mem_of_suiteEntries {suites : List TestSuite} :
    ∀ entry ∈ suiteEntries suites, entry.1 ∈ suites :=
  fun _ hentry => mem_of_suiteIndexes (Option.some_get _).symm hentry

theorem resolveSuite_isSome (i : Interpreter) (suites : List TestSuite) (source : RawImportRow) :
    (resolveSuite i suites (suiteEntries suites) (suites.length + 1) source).isSome = true := by
  obtain ⟨resolved, hends⟩ := resolveSuite_ends i mem_of_suiteEntries source
  rw [hends _ (Nat.lt_succ_self _)]
  rfl

/-- `_resolve_suite` of a row. -/
def resolveRow (i : Interpreter) (suites : List TestSuite) (source : RawImportRow) :
    Except RowFailure (Option Uuid) :=
  (resolveSuite i suites (suiteEntries suites) (suites.length + 1) source).get
    (resolveSuite_isSome i suites source)

/-- More fuel makes no difference to it. -/
theorem resolveSuite_eq (i : Interpreter) (suites : List TestSuite)
    (source : RawImportRow) {fuel : Nat}
    (h : suites.length < fuel) :
    resolveSuite i suites (suiteEntries suites) fuel source
      = some (resolveRow i suites source) := by
  obtain ⟨resolved, hends⟩ := resolveSuite_ends i mem_of_suiteEntries source
  unfold resolveRow
  rw [Option.some_get, hends fuel h, hends _ (Nat.lt_succ_self _)]

end QaPlatform.Services.DataTransferService
