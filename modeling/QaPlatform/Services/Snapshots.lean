import QaPlatform.Services.Calls
import QaPlatform.Services.SuiteRoundTrip

/-!
# Snapshots of cases

`TestCaseSnapshotService` (`app/services/test_case_snapshots.py`). A snapshot is a numbered copy of
the cases of a project or of a suite, in the order of their suites' paths; it is stored beside the
other tables, and no call writes it again.

The walks are loops with fuel, as elsewhere; in a forest they end, at a root. What raises is a
walk that meets a cycle or a parent that is not listed. `Copies` relates the items to the cases.
-/

namespace QaPlatform.Services

/-- `SnapshotScopeType`. -/
inductive SnapshotScopeType where
  | project
  | suite
deriving DecidableEq, Repr

/-- The values of `SnapshotScopeType`. -/
def SnapshotScopeType.value : SnapshotScopeType → String
  | .project => "project"
  | .suite => "suite"

/-- A test case as a snapshot keeps it. -/
structure TestCaseSnapshotItem where
  sourceCaseId : Uuid
  sourceSuiteId : Option Uuid
  suitePath : List String
  position : Nat
  title : String
  preconditions : String
  steps : List TestStep
  priority : TestCasePriority
  caseType : TestCaseType
  status : TestCaseStatus
  tags : List String
  sourceCreatedAt : Instant
  sourceUpdatedAt : Instant
deriving DecidableEq

/-- The row of a snapshot, with its items. -/
structure TestCaseSnapshot where
  id : Uuid
  projectId : Uuid
  scopeType : SnapshotScopeType
  scopeId : Uuid
  scopeName : String
  version : Nat
  label : String
  description : String
  caseCount : Nat
  items : List TestCaseSnapshotItem
  createdAt : Instant
deriving DecidableEq

instance : Keyed TestCaseSnapshot := ⟨TestCaseSnapshot.id⟩

@[simp] theorem TestCaseSnapshot.key_eq (r : TestCaseSnapshot) : Keyed.key r = r.id := rfl

/-- `TestCaseSnapshotCreate`. -/
structure TestCaseSnapshotCreate where
  projectId : UuidText
  suiteId : Option UuidText
  includeDescendants : Bool
  label : String
  description : String

/-- The repositories with that of the snapshots. -/
structure SnapshotStore where
  store : QaStore
  snapshots : Table TestCaseSnapshot

/-- Nothing is stored. -/
def SnapshotStore.empty : SnapshotStore := ⟨.empty, .empty⟩

namespace TestCaseSnapshotService

open Relation
open QualityService (byId byId_some byId_none byId_id Distinct Under walk_ends projectSuites
  projectCases suiteScopeIds_total)
open DataTransferService (IsForest)

/-! ## Paths of suites -/

/-- The walk of `_suite_path`; the last name comes first. -/
structure PathWalk where
  currentId : Option Uuid
  visited : Finset Uuid
  names : List String

/-- One turn of the loop over the parents. -/
def pathStep (suites : List TestSuite) (w : PathWalk) :
    PathWalk ⊕ Except DomainError (List String) :=
  match w.currentId with
  | none => .inr (.ok w.names)
  | some currentId =>
    if currentId ∈ w.visited then .inr (.error (.conflict "测试套件层级存在循环，无法创建快照"))
    else
      match byId suites currentId with
      | none => .inr (.error (.notFound "测试套件" currentId))
      | some suite =>
        .inl ⟨suite.parentId, insert currentId w.visited, suite.name :: w.names⟩

section
variable {suites : List TestSuite}

/-- A step that goes on comes by a listed suite. -/
theorem pathStep_again {w next : PathWalk} (h : pathStep suites w = .inl next) :
    ∃ suite ∈ suites, w.currentId = some suite.id ∧ suite.id ∉ w.visited
      ∧ next = ⟨suite.parentId, insert suite.id w.visited, suite.name :: w.names⟩ := by
  unfold pathStep at h
  split at h
  · cases h
  · next currentId hcurrent =>
    split at h
    · cases h
    · next hnew =>
      split at h
      · cases h
      · next suite hfound =>
        obtain ⟨hmem, rfl⟩ := byId_some hfound
        exact ⟨suite, hmem, hcurrent, hnew, (Sum.inl.inj h).symm⟩

theorem pathStep_ends (suites : List TestSuite) (w : PathWalk) :
    ∃ names, ∀ fuel, suites.length < fuel →
      Loop.eval (pathStep suites) fuel w = some names := by
  apply walk_ends (fun _ => True) PathWalk.visited _ trivial
  intro w next _ hagain
  obtain ⟨suite, hsuite, -, hnew, rfl⟩ := pathStep_again hagain
  exact ⟨trivial, suite.id, List.mem_map_of_mem hsuite, hnew, rfl⟩

theorem path_isSome (suites : List TestSuite) (w : PathWalk) :
    (Loop.eval (pathStep suites) (suites.length + 1) w).isSome = true := by
  obtain ⟨names, hends⟩ := pathStep_ends suites w
  rw [hends _ (Nat.lt_succ_self _)]
  rfl

theorem scope_isSome (rootId : Uuid) (suites : List TestSuite) (includeDescendants : Bool) :
    (suiteScopeIds rootId suites includeDescendants (suites.length + 1)).isSome = true := by
  cases includeDescendants with
  | false => rfl
  | true =>
    obtain ⟨scope, -, hends⟩ := suiteScopeIds_total suites rootId
    rw [hends _ (Nat.lt_succ_self _)]
    rfl

end

/-- `_suite_path`: the walk has ended when the fuel is used up. -/
def suitePath (suites : List TestSuite) (suiteId : Option Uuid) :
    Except DomainError (List String) :=
  (Loop.eval (pathStep suites) (suites.length + 1) ⟨suiteId, ∅, []⟩).get (path_isSome suites _)

/-- `_suite_scope_ids`, with fuel to its end. -/
def scopeIds (rootId : Uuid) (suites : List TestSuite) (includeDescendants : Bool) : Finset Uuid :=
  (suiteScopeIds rootId suites includeDescendants (suites.length + 1)).get
    (scope_isSome rootId suites includeDescendants)

/-! ## Creating a snapshot -/

/-- What a snapshot is of; without a set of suites it is of all cases. -/
structure SnapshotScope where
  scopeType : SnapshotScopeType
  scopeId : Uuid
  scopeName : String
  allowedSuiteIds : Option (Finset Uuid)

/-- The suite that a payload names. -/
def scopeSuite (s : QaStore) (suites : List TestSuite) (suiteId : Uuid) :
    Except DomainError TestSuite :=
  match byId suites suiteId with
  | some suite => .ok suite
  | none =>
    match s.testSuites.get? suiteId with
    | none => .error (.notFound "测试套件" suiteId)
    | some _ => .error (.conflict "测试套件必须属于快照项目")

/-- What the snapshot is of: the project, or one of its suites. -/
def snapshotScope (s : QaStore) (project : Project) (payload : TestCaseSnapshotCreate) :
    Except DomainError SnapshotScope :=
  match payload.suiteId with
  | none => return ⟨.project, project.id, project.name, none⟩
  | some suiteId => do
    let suiteId ← parseUuid suiteId "suite_id"
    let suite ← scopeSuite s (projectSuites s project.id) suiteId
    return ⟨.suite, suite.id, suite.name,
      some (scopeIds suite.id (projectSuites s project.id) payload.includeDescendants)⟩

/-- A case of the project is in the scope. -/
def inScope (scope : SnapshotScope) (testCase : TestCase) : Bool :=
  scope.allowedSuiteIds.all fun allowed => testCase.suiteId.any (· ∈ allowed)

/-- The key of `sorted` beside the case. -/
abbrev KeyedCase := List String × TestCase

/-- The order of the keys `(path, created_at, str(id))`. -/
def keyedBefore (texts : Texts) (a b : KeyedCase) : Bool :=
  a.1 < b.1 ∨ a.1 = b.1 ∧ createdBefore texts TestCase.createdAt TestCase.id a.2 b.2

/-- The key by which the cases are sorted. -/
def caseKey (c : Context) (suites : List TestSuite) (testCase : TestCase) :
    Except DomainError KeyedCase := do
  let path ← suitePath suites testCase.suiteId
  return (path.map c.casing.casefold, testCase)

/-- The item of a case under its path. -/
def copyOf (testCase : TestCase) (path : List String) (position : Nat) : TestCaseSnapshotItem :=
  { sourceCaseId := testCase.id, sourceSuiteId := testCase.suiteId, suitePath := path, position
    title := testCase.title, preconditions := testCase.preconditions, steps := testCase.steps
    priority := testCase.priority, caseType := testCase.caseType, status := testCase.status
    tags := testCase.tags, sourceCreatedAt := testCase.createdAt
    sourceUpdatedAt := testCase.updatedAt }

/-- `_snapshot_item`. -/
def snapshotItem (suites : List TestSuite) (testCase : TestCase) (position : Nat) :
    Except DomainError TestCaseSnapshotItem := do
  let path ← suitePath suites testCase.suiteId
  return copyOf testCase path position

/-- The items of a scope. -/
def snapshotItems (c : Context) (s : QaStore) (projectId : Uuid) (scope : SnapshotScope) :
    Except DomainError (List TestCaseSnapshotItem) := do
  let suites := projectSuites s projectId
  let cases := (projectCases s projectId).filter (inScope scope)
  refuse (cases = []) (.invalidState "当前范围没有可归档的测试用例")
  let keyed ← cases.mapM (caseKey c suites)
  let ordered := (keyed.mergeSort (keyedBefore c.texts)).map (·.2)
  ordered.zipIdx.mapM fun e => snapshotItem suites e.1 e.2

/-- The snapshots of a scope, oldest first. -/
def ofScope (snapshots : Table TestCaseSnapshot) (scopeType : SnapshotScopeType) (scopeId : Uuid) :
    List TestCaseSnapshot :=
  snapshots.rows.filter fun snapshot => snapshot.scopeType = scopeType ∧ snapshot.scopeId = scopeId

/-- The version after the last one of the scope. -/
def nextVersion (snapshots : Table TestCaseSnapshot) (scope : SnapshotScope) : Nat :=
  1 + ((ofScope snapshots scope.scopeType scope.scopeId).map (·.version)).max?.getD 0

/-- The snapshot that `create` builds. -/
def createdSnapshot (c : Context) (payload : TestCaseSnapshotCreate) (projectId : Uuid)
    (scope : SnapshotScope) (version : Nat) (items : List TestCaseSnapshotItem) (id : Uuid) :
    TestCaseSnapshot :=
  { id, projectId, scopeType := scope.scopeType, scopeId := scope.scopeId
    scopeName := scope.scopeName, version, label := payload.label
    description := payload.description, caseCount := items.length, items, createdAt := c.now }

/-- The event of a snapshot. -/
def audit (texts : Texts) (snapshot : TestCaseSnapshot) : AuditRecord where
  projectId := snapshot.projectId
  entityType := "test_case_snapshot"
  entityId := snapshot.id
  action := .snapshotCreated
  changes := [("scope_type", ⟨.null, .text snapshot.scopeType.value⟩),
    ("scope_id", ⟨.null, .text (texts.uuid snapshot.scopeId)⟩),
    ("version", ⟨.null, .number snapshot.version⟩),
    ("case_count", ⟨.null, .number snapshot.caseCount⟩)]
  comment := "创建测试用例归档快照"

/-- `create` up to the row. -/
def checkCreate (c : Context) (s : QaStore) (payload : TestCaseSnapshotCreate) :
    Except DomainError (Uuid × SnapshotScope × List TestCaseSnapshotItem) := do
  let projectId ← parseUuid payload.projectId "project_id"
  let project ← s.requireActiveProject "已归档项目不能创建新的测试用例快照" projectId
  let scope ← snapshotScope s project payload
  let items ← snapshotItems c s projectId scope
  return (projectId, scope, items)

/-- `create`. -/
def create (c : Context) (s : SnapshotStore) (payload : TestCaseSnapshotCreate) :
    SnapshotStore × Except DomainError TestCaseSnapshot :=
  match checkCreate c s.store payload with
  | .error error => (s, .error error)
  | .ok (projectId, scope, items) =>
    let row := createdSnapshot c payload projectId scope (nextVersion s.snapshots scope) items
    let created := row s.snapshots.next
    let stored := { s.store with snapshots := projectId :: s.store.snapshots }
    let record := audit c.texts created
    let recorded := stored.recordUnlocked c.casing c.currentActor c.now record created
    (⟨recorded.1, s.snapshots.add row⟩, recorded.2)

/-! ## Names from the root down -/

/-- The names above a suite and its own. -/
inductive SuiteNames (suites : List TestSuite) : Option Uuid → List String → Prop where
  | none : SuiteNames suites none []
  | under {suite : TestSuite} {above : List String} (hsuite : suite ∈ suites)
      (habove : SuiteNames suites suite.parentId above) :
      SuiteNames suites (some suite.id) (above ++ [suite.name])

/-- A suite that is listed, or none. -/
def Listed (suites : List TestSuite) (suiteId : Option Uuid) : Prop :=
  ∀ id, suiteId = some id → id ∈ suites.map (·.id)

section
variable {suites : List TestSuite} {suiteId : Option Uuid}

/-- Where the walk is that began at a suite. -/
structure PathWalk.Standing (suites : List TestSuite) (suiteId : Option Uuid) (w : PathWalk) :
    Prop where
  current : Listed suites w.currentId
  visited : ∀ id ∈ w.visited, ∀ current, w.currentId = some current →
    TransGen (Under suites) id current
  names : ∀ above, SuiteNames suites w.currentId above →
    SuiteNames suites suiteId (above ++ w.names)

theorem PathWalk.Standing.again (hforest : IsForest suites) {w next : PathWalk}
    (h : w.Standing suites suiteId) (hagain : pathStep suites w = .inl next) :
    next.Standing suites suiteId := by
  obtain ⟨suite, hsuite, hcurrent, -, rfl⟩ := pathStep_again hagain
  have hunder : ∀ parentId, suite.parentId = some parentId → Under suites suite.id parentId :=
    fun parentId hparent => ⟨suite, hsuite, rfl, hparent⟩
  refine ⟨fun parentId hparent => hforest.parents suite hsuite parentId hparent, ?_, ?_⟩
  · intro id hid parentId hparent
    rcases Finset.mem_insert.mp hid with rfl | hid
    · exact .single (hunder parentId hparent)
    · exact (h.visited id hid suite.id hcurrent).tail (hunder parentId hparent)
  · intro above habove
    have hnames := h.names (above ++ [suite.name]) (hcurrent ▸ .under hsuite habove)
    rwa [List.append_assoc, List.singleton_append] at hnames

/-- The walk ends above a root: it has no cycle, and every parent is listed. -/
theorem PathWalk.Standing.done (hforest : IsForest suites) {w : PathWalk}
    (h : w.Standing suites suiteId) {answer : Except DomainError (List String)}
    (hdone : pathStep suites w = .inr answer) :
    ∃ names, answer = .ok names ∧ SuiteNames suites suiteId names := by
  unfold pathStep at hdone
  split at hdone
  · next hcurrent =>
    obtain rfl := Sum.inr.inj hdone
    exact ⟨w.names, rfl, h.names [] (hcurrent ▸ .none)⟩
  · next currentId hcurrent =>
    split at hdone
    · next hcycle =>
      exact absurd (h.visited currentId hcycle currentId hcurrent) (hforest.acyclic _)
    · split at hdone
      · next hmissing => exact absurd (h.current currentId hcurrent) (byId_none hmissing)
      · cases hdone

/-- In a forest `_suite_path` does not raise. -/
theorem suitePath_ok (hforest : IsForest suites) (hlisted : Listed suites suiteId) :
    ∃ names, suitePath suites suiteId = .ok names ∧ SuiteNames suites suiteId names := by
  have hstart : (⟨suiteId, ∅, []⟩ : PathWalk).Standing suites suiteId := by
    refine ⟨hlisted, fun id hid => absurd hid (Finset.notMem_empty id), fun above habove => ?_⟩
    rwa [List.append_nil]
  obtain ⟨answer, hends⟩ := pathStep_ends suites ⟨suiteId, ∅, []⟩
  obtain ⟨names, rfl, hnames⟩ := Loop.eval_post (PathWalk.Standing suites suiteId)
    (fun answer => ∃ names, answer = .ok names ∧ SuiteNames suites suiteId names)
    (fun _ _ hw hagain => hw.again hforest hagain) (fun _ _ hw hdone => hw.done hforest hdone)
    hstart (hends _ (Nat.lt_succ_self _))
  refine ⟨names, ?_, hnames⟩
  unfold suitePath
  simp only [hends _ (Nat.lt_succ_self _), Option.get_some]

/-- The suites of a scope. -/
theorem mem_scopeIds {rootId id : Uuid} {includeDescendants : Bool} :
    id ∈ scopeIds rootId suites includeDescendants
      ↔ id = rootId ∨ includeDescendants = true ∧ TransGen (Under suites) id rootId := by
  unfold scopeIds
  cases includeDescendants with
  | false => simp [suiteScopeIds]
  | true =>
    obtain ⟨scope, hscope, hends⟩ := suiteScopeIds_total suites rootId
    simp only [hends _ (Nat.lt_succ_self _), Option.get_some]
    rw [hscope, reflTransGen_iff_eq_or_transGen, eq_comm]
    simp

end

/-! ## The order of a snapshot -/

section
variable {texts : Texts}

theorem keyedBefore_total (a b : KeyedCase) :
    (keyedBefore texts a b || keyedBefore texts b a) = true := by
  simp only [keyedBefore, Bool.or_eq_true, decide_eq_true_eq]
  have hcases := Bool.or_eq_true_iff.mp
    (@createdBefore_total _ texts TestCase.createdAt TestCase.id a.2 b.2)
  rcases List.le_total a.1 b.1 with hle | hle
  · rcases List.le_iff_lt_or_eq.mp hle with hlt | heq
    · exact .inl (.inl hlt)
    · exact hcases.imp (fun h => .inr ⟨heq, h⟩) (fun h => .inr ⟨heq.symm, h⟩)
  · rcases List.le_iff_lt_or_eq.mp hle with hlt | heq
    · exact .inr (.inl hlt)
    · exact hcases.imp (fun h => .inr ⟨heq.symm, h⟩) (fun h => .inr ⟨heq, h⟩)

theorem keyedBefore_trans (a b c : KeyedCase) (h : keyedBefore texts a b = true)
    (h' : keyedBefore texts b c = true) : keyedBefore texts a c = true := by
  simp only [keyedBefore, decide_eq_true_eq] at h h' ⊢
  rcases h with hlt | ⟨heq, hcase⟩
  · rcases h' with hlt' | ⟨heq', -⟩
    · exact .inl (List.lt_trans hlt hlt')
    · exact .inl (heq' ▸ hlt)
  · rcases h' with hlt' | ⟨heq', hcase'⟩
    · exact .inl (heq ▸ hlt')
    · exact .inr ⟨heq.trans heq', createdBefore_trans _ _ _ hcase hcase'⟩

end

/-! ## What a snapshot copies -/

/-- The items are copies of the cases, numbered in the order of paths, times and identifiers, under
the names of their suites. -/
def Copies (c : Context) (suites : List TestSuite) (cases : List TestCase)
    (items : List TestCaseSnapshotItem) : Prop :=
  ∃ entries : List KeyedCase, (entries.map (·.2)).Perm cases
    ∧ (∀ entry ∈ entries, SuiteNames suites entry.2.suiteId entry.1)
    ∧ entries.Pairwise (fun a b =>
      keyedBefore c.texts (a.1.map c.casing.casefold, a.2) (b.1.map c.casing.casefold, b.2) = true)
    ∧ items = entries.zipIdx.map fun e => copyOf e.1.2 e.1.1 e.2

section
variable {c : Context} {suites : List TestSuite}

/-- In a forest every case has names. -/
theorem exists_names (hforest : IsForest suites) {cases : List TestCase}
    (hlisted : ∀ testCase ∈ cases, Listed suites testCase.suiteId) :
    ∃ names : TestCase → List String, ∀ testCase ∈ cases,
      suitePath suites testCase.suiteId = .ok (names testCase)
        ∧ SuiteNames suites testCase.suiteId (names testCase) := by
  choose! names hpath hnames using fun testCase (hcase : testCase ∈ cases) =>
    suitePath_ok hforest (hlisted testCase hcase)
  exact ⟨names, fun testCase hcase => ⟨hpath testCase hcase, hnames testCase hcase⟩⟩

section
variable {names : TestCase → List String} {cases : List TestCase}

theorem mapM_caseKey
    (hpath : ∀ testCase ∈ cases, suitePath suites testCase.suiteId = .ok (names testCase)) :
    cases.mapM (caseKey c suites)
      = .ok (cases.map fun testCase => ((names testCase).map c.casing.casefold, testCase)) := by
  apply mapM_eq_map
  intro testCase hcase
  unfold caseKey
  rw [hpath testCase hcase, ok_bind]
  rfl

theorem mapM_snapshotItem
    (hpath : ∀ testCase ∈ cases, suitePath suites testCase.suiteId = .ok (names testCase)) :
    cases.zipIdx.mapM (fun e => snapshotItem suites e.1 e.2)
      = .ok ((cases.map fun testCase => (names testCase, testCase)).zipIdx.map
          fun e => copyOf e.1.2 e.1.1 e.2) := by
  have hitems : cases.zipIdx.mapM (fun e => snapshotItem suites e.1 e.2)
      = .ok (cases.zipIdx.map fun e => copyOf e.1 (names e.1) e.2) := by
    apply mapM_eq_map
    intro e he
    unfold snapshotItem
    rw [hpath e.1 (List.fst_mem_of_mem_zipIdx he), ok_bind]
    rfl
  rw [hitems, List.zipIdx_map, List.map_map]
  rfl

/-- The cases in the order of their keys. -/
theorem exists_ordered (texts : Texts) (cases : List TestCase) {keyOf : TestCase → KeyedCase}
    (hkey : ∀ testCase, (keyOf testCase).2 = testCase) :
    ∃ ordered, ((cases.map keyOf).mergeSort (keyedBefore texts)).map (·.2) = ordered
      ∧ ordered.Perm cases
      ∧ ordered.Pairwise fun a b => keyedBefore texts (keyOf a) (keyOf b) = true := by
  have hperm := List.mergeSort_perm (cases.map keyOf) (keyedBefore texts)
  have horder := List.pairwise_mergeSort (@keyedBefore_trans texts) keyedBefore_total
    (cases.map keyOf)
  refine ⟨_, rfl, ?_, ?_⟩
  · have hback : (cases.map keyOf).map (·.2) = cases := by
      rw [List.map_map]
      exact List.map_id'' hkey cases
    have hmapped := hperm.map fun entry : KeyedCase => entry.2
    rwa [hback] at hmapped
  · rw [List.pairwise_map]
    apply horder.imp_of_mem
    intro a b ha hb hbefore
    obtain ⟨first, -, rfl⟩ := List.mem_map.mp (hperm.mem_iff.mp ha)
    obtain ⟨second, -, rfl⟩ := List.mem_map.mp (hperm.mem_iff.mp hb)
    rw [hkey, hkey]
    exact hbefore

end

theorem snapshotItems_ok (hforest : IsForest suites) {cases : List TestCase}
    (hlisted : ∀ testCase ∈ cases, Listed suites testCase.suiteId) :
    ∃ keyed items, cases.mapM (caseKey c suites) = .ok keyed
      ∧ ((keyed.mergeSort (keyedBefore c.texts)).map (·.2)).zipIdx.mapM
          (fun e => snapshotItem suites e.1 e.2) = .ok items
      ∧ Copies c suites cases items := by
  obtain ⟨names, hnames⟩ := exists_names hforest hlisted
  -- the cases are sorted by the names under which their items are filed
  have hkey : ∀ testCase : TestCase,
      ((names testCase).map c.casing.casefold, testCase).2 = testCase := fun _ => rfl
  obtain ⟨ordered, hordered, hperm, hsorted⟩ := exists_ordered c.texts cases hkey
  have hpath : ∀ testCase ∈ ordered, suitePath suites testCase.suiteId = .ok (names testCase)
      ∧ SuiteNames suites testCase.suiteId (names testCase) :=
    fun testCase hcase => hnames testCase (hperm.mem_iff.mp hcase)
  have hitems := mapM_snapshotItem fun testCase hcase => (hpath testCase hcase).1
  rw [← hordered] at hitems
  refine ⟨_, _, mapM_caseKey fun testCase hcase => (hnames testCase hcase).1, hitems,
    ordered.map fun testCase => (names testCase, testCase), ?_, ?_, ?_, by rw [hordered]⟩
  · have hback : (ordered.map fun testCase => (names testCase, testCase)).map (·.2) = ordered := by
      rw [List.map_map]
      exact List.map_id'' (fun _ => rfl) ordered
    rwa [hback]
  · intro entry hentry
    obtain ⟨testCase, hcase, rfl⟩ := List.mem_map.mp hentry
    exact (hpath testCase hcase).2
  · rw [List.pairwise_map]
    exact hsorted

end

end TestCaseSnapshotService

end QaPlatform.Services
