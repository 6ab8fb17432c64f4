import QaPlatform.Services.References
import QaPlatform.Services.Snapshots

/-!
# Histories of snapshots

The calls of the services with those that create snapshots, in any order. The versions of a scope
count from one, and no call changes or drops a snapshot; when one is created it has the cases that
are then in its scope.

`create` reads the tables of the other services and writes its own and the audit trail; the
other calls do not write the snapshots. So a snapshot stays as it was taken, and the references
of the other tables are not touched by it. `create_captures` compares a new snapshot with the
store that it was taken of: it has every case of its scope once, in the order of paths, times
and identifiers, under the names of the suites above.
-/

namespace QaPlatform.Services

open Relation
open QualityService (Under byId byId_some byId_none byId_id projectSuites projectCases)
open DataTransferService (isForest_projectSuites)

/-- A call of another service, or one that creates a snapshot. -/
inductive SnapshotCall where
  | other (call : QaCall)
  | create (payload : TestCaseSnapshotCreate)

/-- A call, who makes it and when. -/
structure SnapshotEvent where
  currentActor : Option ActorIdentity
  now : Instant
  call : SnapshotCall

namespace SnapshotStore

/-- One call on the store of snapshots. -/
def perform (c : Context) (s : SnapshotStore) : SnapshotCall → SnapshotStore
  -- this call of the other machine stands for `create`
  | .other (.createSnapshot _) => s
  | .other call => { s with store := s.store.perform c call }
  | .create payload => (TestCaseSnapshotService.create c s payload).1

/-- One event: who calls, when, and what. -/
def step (casing : Casing) (texts : Texts) (s : SnapshotStore) (e : SnapshotEvent) :
    SnapshotStore :=
  s.perform ⟨casing, texts, e.currentActor, e.now⟩ e.call

end SnapshotStore

namespace TestCaseSnapshotService

/-! ## What is asked for -/

/-- A scope as the payload names it. -/
def HasScope (s : QaStore) (project : Project) (payload : TestCaseSnapshotCreate)
    (scopeType : SnapshotScopeType) (scopeId : Uuid) (scopeName : String) : Prop :=
  payload.suiteId = none ∧ scopeType = .project ∧ scopeId = project.id ∧ scopeName = project.name
  ∨ ∃ value, payload.suiteId = some value ∧ ∃ suite ∈ projectSuites s project.id,
      value.uuid = some suite.id ∧ scopeType = .suite ∧ scopeId = suite.id ∧ scopeName = suite.name

/-- A case that a snapshot is asked for: one of the project, and when a suite is named one of that
suite or of those under it. -/
def Within (s : QaStore) (projectId : Uuid) (payload : TestCaseSnapshotCreate)
    (testCase : TestCase) : Prop :=
  testCase.projectId = projectId ∧ ∀ value, payload.suiteId = some value →
    ∃ root id, value.uuid = some root ∧ testCase.suiteId = some id
      ∧ (id = root ∨ payload.includeDescendants = true
        ∧ TransGen (Under (projectSuites s projectId)) id root)

section
variable {c : Context} {s : QaStore} {project : Project} {payload : TestCaseSnapshotCreate}
  {scope : SnapshotScope}

theorem scopeSuite_eq_ok {suites : List TestSuite} {suiteId : Uuid} {suite : TestSuite} :
    scopeSuite s suites suiteId = .ok suite ↔ byId suites suiteId = some suite := by
  unfold scopeSuite
  cases byId suites suiteId with
  | some found => simp
  | none =>
    cases s.testSuites.get? suiteId with
    | none => simp
    | some other => simp

theorem distinct_projectSuites (s : QaStore) (projectId : Uuid) :
    QualityService.Distinct (projectSuites s projectId) :=
  s.testSuites.nodup.sublist (List.filter_sublist.map _)

/-- The scope that is found is the one that is named, with the cases that are asked for. -/
theorem snapshotScope_ok (h : snapshotScope s project payload = .ok scope) :
    HasScope s project payload scope.scopeType scope.scopeId scope.scopeName
      ∧ ∀ testCase, testCase.projectId = project.id →
        (inScope scope testCase = true ↔ Within s project.id payload testCase) := by
  unfold snapshotScope at h
  cases hsuite : payload.suiteId with
  | none =>
    rw [hsuite] at h
    obtain rfl := pure_eq_ok.mp h
    refine ⟨.inl ⟨hsuite, rfl, rfl, rfl⟩, fun testCase hproject => ?_⟩
    refine iff_of_true rfl ⟨hproject, fun value hvalue => ?_⟩
    rw [hsuite] at hvalue
    cases hvalue
  | some value =>
    rw [hsuite] at h
    obtain ⟨suiteId, hparsed, h⟩ := bind_eq_ok.mp h
    obtain ⟨suite, hfound, h⟩ := bind_eq_ok.mp h
    obtain rfl := pure_eq_ok.mp h
    obtain ⟨hmem, rfl⟩ := byId_some (scopeSuite_eq_ok.mp hfound)
    have huuid : value.uuid = some suite.id := demand_eq_ok.mp hparsed
    refine ⟨.inr ⟨value, hsuite, suite, hmem, huuid, rfl, rfl, rfl⟩, fun testCase hproject => ?_⟩
    simp only [inScope, Option.all_some, Option.any_eq_true, decide_eq_true_eq, mem_scopeIds]
    constructor
    · intro ⟨id, hid, hin⟩
      refine ⟨hproject, fun other hother => ?_⟩
      obtain rfl := Option.some.inj (hsuite.symm.trans hother)
      exact ⟨suite.id, id, huuid, hid, hin⟩
    · intro ⟨_, hwithin⟩
      obtain ⟨root, id, hroot, hid, hin⟩ := hwithin value hsuite
      obtain rfl := Option.some.inj (huuid.symm.trans hroot)
      exact ⟨id, hid, hin⟩

theorem snapshotScope_of_hasScope {scopeType : SnapshotScopeType} {scopeId : Uuid}
    {scopeName : String} (h : HasScope s project payload scopeType scopeId scopeName) :
    ∃ scope, snapshotScope s project payload = .ok scope := by
  unfold snapshotScope
  rcases h with ⟨hsuite, -⟩ | ⟨value, hsuite, suite, hmem, huuid, -⟩
  · rw [hsuite]
    exact ⟨_, rfl⟩
  · have hfound : scopeSuite s (projectSuites s project.id) suite.id = .ok suite :=
      scopeSuite_eq_ok.mpr (byId_id (distinct_projectSuites s project.id) hmem)
    have hparsed : parseUuid value "suite_id" = .ok suite.id := demand_eq_ok.mpr huuid
    rw [hsuite]
    simp only [hparsed, ok_bind, hfound]
    exact ⟨_, rfl⟩

end

/-! ## The call that creates -/

section
variable {c : Context} {s : SnapshotStore} {payload : TestCaseSnapshotCreate}

/-- A snapshot that is not created leaves everything as it is; one that is created is the last row,
and an event tells of it. -/
theorem create_cases (c : Context) (s : SnapshotStore) (payload : TestCaseSnapshotCreate) :
    (∃ error, checkCreate c s.store payload = .error error
        ∧ create c s payload = (s, .error error))
      ∨ ∃ projectId scope items event,
        checkCreate c s.store payload = .ok (projectId, scope, items)
        ∧ create c s payload
          = (⟨{ s.store with
                snapshots := projectId :: s.store.snapshots
                auditEvents := s.store.auditEvents ++ [event] },
              s.snapshots.add (createdSnapshot c payload projectId scope
                (nextVersion s.snapshots scope) items)⟩,
            .ok (createdSnapshot c payload projectId scope (nextVersion s.snapshots scope) items
              s.snapshots.next)) := by
  unfold create
  cases hcheck : checkCreate c s.store payload with
  | error error => exact .inl ⟨error, rfl, rfl⟩
  | ok result =>
    obtain ⟨projectId, scope, items⟩ := result
    have hkind : IsEntityType (audit c.texts (createdSnapshot c payload projectId scope
        (nextVersion s.snapshots scope) items s.snapshots.next)).entityType :=
      show IsEntityType "test_case_snapshot" by decide
    obtain ⟨event, hrecorded, -⟩ := QaStore.recordUnlocked_ok c.casing c.currentActor c.now hkind
      (show "创建测试用例归档快照".length ≤ 1000 by decide)
      { s.store with snapshots := projectId :: s.store.snapshots }
      (createdSnapshot c payload projectId scope (nextVersion s.snapshots scope) items
        s.snapshots.next)
    refine .inr ⟨projectId, scope, items, event, rfl, ?_⟩
    dsimp only
    rw [hrecorded]

theorem requireActiveProject_eq_ok {q : QaStore} {message : String} {projectId : Uuid}
    {project : Project} (hget : q.projects.get? projectId = some project)
    (hactive : project.status = .active) :
    q.requireActiveProject message projectId = .ok project := by
  unfold QaStore.requireActiveProject
  rw [hget]
  exact refuse_bind_eq_ok.mpr ⟨not_not.mpr hactive, rfl⟩

/-- The project that a payload names takes snapshots. -/
structure Takes (q : QaStore) (payload : TestCaseSnapshotCreate) (project : Project) : Prop where
  parsed : payload.projectId.uuid = some project.id
  stored : q.projects.get? project.id = some project
  active : project.status = .active

/-- What the checks of a call have found. -/
structure Found (q : QaStore) (payload : TestCaseSnapshotCreate) (projectId : Uuid)
    (scope : SnapshotScope) (project : Project) : Prop extends Takes q payload project where
  same : projectId = project.id
  scope_ok : snapshotScope q project payload = .ok scope

theorem checkCreate_ok {q : QaStore} {projectId : Uuid} {scope : SnapshotScope}
    {items : List TestCaseSnapshotItem}
    (h : checkCreate c q payload = .ok (projectId, scope, items)) :
    ∃ project, Found q payload projectId scope project
      ∧ snapshotItems c q project.id scope = .ok items := by
  obtain ⟨found, hparsed, h⟩ := bind_eq_ok.mp h
  obtain ⟨project, hproject, h⟩ := bind_eq_ok.mp h
  obtain ⟨scope', hscope, h⟩ := bind_eq_ok.mp h
  obtain ⟨items', hitems, h⟩ := bind_eq_ok.mp h
  obtain ⟨rfl, hpair⟩ := Prod.mk.inj (pure_eq_ok.mp h)
  obtain ⟨rfl, rfl⟩ := Prod.mk.inj hpair
  obtain ⟨hget, hactive⟩ := QaStore.requireActiveProject_ok hproject
  obtain rfl : project.id = found := Table.key_of_get? hget
  exact ⟨project, ⟨⟨demand_eq_ok.mp hparsed, hget, hactive⟩, rfl, hscope⟩, hitems⟩

/-- The suites of the cases of a project are listed. -/
theorem listed_projectCases {casing : Casing} {q : QaStore} (h : q.Forest casing) {projectId : Uuid}
    {testCase : TestCase} (hcase : testCase ∈ projectCases q projectId) :
    Listed (projectSuites q projectId) testCase.suiteId := by
  intro id hid
  obtain ⟨hmem, hproject⟩ := List.mem_filter.mp hcase
  obtain ⟨suite, hget, hsame⟩ := h.suites testCase hmem id hid
  refine List.mem_map.mpr ⟨suite, List.mem_filter.mpr ⟨Table.mem_of_get? hget, ?_⟩,
    Table.key_of_get? hget⟩
  rw [hsame]
  exact hproject

/-- In a forest the cases of a scope are copied whenever there are some. -/
theorem snapshotItems_cases {casing : Casing} {q : QaStore} (h : q.Forest casing) (c : Context)
    (projectId : Uuid) (scope : SnapshotScope) :
    (∃ items, snapshotItems c q projectId scope = .ok items
        ∧ (projectCases q projectId).filter (inScope scope) ≠ []
        ∧ Copies c (projectSuites q projectId) ((projectCases q projectId).filter (inScope scope))
          items)
      ∨ (projectCases q projectId).filter (inScope scope) = []
        ∧ ∃ error, snapshotItems c q projectId scope = .error error := by
  unfold snapshotItems
  dsimp only
  by_cases hempty : (projectCases q projectId).filter (inScope scope) = []
  · exact .inr ⟨hempty, _, refuse_bind_of hempty _ _⟩
  · obtain ⟨keyed, items, hkeyed, hitems, hcopies⟩ :=
      snapshotItems_ok (c := c) (isForest_projectSuites h projectId)
        (fun testCase (hcase : testCase ∈ (projectCases q projectId).filter (inScope scope)) =>
          listed_projectCases h (List.mem_of_mem_filter hcase))
    refine .inl ⟨items, ?_, hempty, hcopies⟩
    rw [refuse_bind_of_not hempty, hkeyed, ok_bind]
    exact hitems

end

end TestCaseSnapshotService

/-! ## Versions and contents -/

/-- A snapshot with numbered items, of which no two are of one case. -/
structure TestCaseSnapshot.Filled (snapshot : TestCaseSnapshot) : Prop where
  count : snapshot.caseCount = snapshot.items.length
  nonempty : snapshot.items ≠ []
  positions : snapshot.items.map (·.position) = List.range snapshot.items.length
  distinct : (snapshot.items.map (·.sourceCaseId)).Nodup

namespace TestCaseSnapshotService

theorem range'_max (n : Nat) : (List.range' 1 n).max?.getD 0 = n := by
  cases n with
  | zero => rfl
  | succ n =>
    have hmax : (List.range' 1 (n + 1)).max? = some (n + 1) := by
      rw [List.max?_eq_some_iff]
      refine ⟨List.mem_range'_1.mpr ⟨by omega, by omega⟩, fun b hb => ?_⟩
      have hbound := List.mem_range'_1.mp hb
      omega
    rw [hmax, Option.getD_some]

/-- Items that copy cases are numbered, and no two are of one case. -/
theorem Copies.items {c : Context} {suites : List TestSuite} {cases : List TestCase}
    {items : List TestCaseSnapshotItem} (h : Copies c suites cases items)
    (hnodup : (cases.map (·.id)).Nodup) :
    items.length = cases.length ∧ items.map (·.position) = List.range items.length
      ∧ (items.map (·.sourceCaseId)).Nodup := by
  obtain ⟨entries, hperm, -, -, rfl⟩ := h
  have hlength : entries.length = cases.length := by
    rw [← hperm.length_eq, List.length_map]
  refine ⟨by rw [List.length_map, List.length_zipIdx, hlength], ?_, ?_⟩
  · rw [List.map_map, List.length_map, List.length_zipIdx, List.range_eq_range']
    exact List.zipIdx_map_snd 0 entries
  · have hids : (entries.zipIdx.map fun e => copyOf e.1.2 e.1.1 e.2).map (·.sourceCaseId)
        = (entries.map (·.2)).map (·.id) := by
      have hfirsts : entries.map (fun entry => entry.2.id)
          = (entries.zipIdx.map Prod.fst).map fun entry => entry.2.id := by
        rw [List.zipIdx_map_fst]
      rw [List.map_map, List.map_map]
      refine Eq.trans ?_ hfirsts.symm
      rw [List.map_map]
      rfl
    rw [hids]
    exact (hperm.map _).nodup_iff.mpr hnodup

end TestCaseSnapshotService

namespace SnapshotStore

open TestCaseSnapshotService

/-- What every run keeps. -/
structure Kept (casing : Casing) (s : SnapshotStore) : Prop where
  lockStep : s.store.LockStep
  forest : s.store.Forest casing
  references : s.store.References
  owners : ∀ snapshot ∈ s.snapshots.rows, snapshot.projectId ∈ s.store.snapshots
  versions : ∀ scopeType scopeId, (ofScope s.snapshots scopeType scopeId).map (·.version)
    = List.range' 1 (ofScope s.snapshots scopeType scopeId).length
  filled : ∀ snapshot ∈ s.snapshots.rows, snapshot.Filled

theorem kept_empty (casing : Casing) : empty.Kept casing where
  lockStep := QaStore.lockStep_empty
  forest := QaStore.forest_empty casing
  references := QaStore.references_empty
  owners := fun _ h => absurd h List.not_mem_nil
  versions := fun _ _ => rfl
  filled := fun _ h => absurd h List.not_mem_nil

section
variable {casing : Casing} {c : Context} {s : SnapshotStore}

/-- A call of another service leaves the snapshots. -/
theorem Kept.other (h : s.Kept c.casing) {call : QaCall} (hplain : call.Plain) :
    ({ s with store := s.store.perform c call } : SnapshotStore).Kept c.casing where
  lockStep := h.lockStep.perform call
  forest := h.forest.perform call
  references := h.references.wrote (QaStore.perform_wrote c s.store hplain)
  owners := by
    intro snapshot hmem
    show snapshot.projectId ∈ (s.store.perform c call).snapshots
    rw [(QaStore.perform_wrote c s.store hplain).snapshots]
    exact h.owners snapshot hmem
  versions := h.versions
  filled := h.filled

theorem nextVersion_eq (h : s.Kept casing) (scope : SnapshotScope) :
    nextVersion s.snapshots scope
      = (ofScope s.snapshots scope.scopeType scope.scopeId).length + 1 := by
  unfold nextVersion
  rw [h.versions, range'_max, Nat.add_comm]

/-- The versions of a scope after one more snapshot. -/
theorem versions_add (h : s.Kept casing) {snapshot : Uuid → TestCaseSnapshot}
    (hkey : ∀ id, Keyed.key (snapshot id) = id)
    (hversion : (snapshot s.snapshots.next).version
      = (ofScope s.snapshots (snapshot s.snapshots.next).scopeType
          (snapshot s.snapshots.next).scopeId).length + 1) (scopeType : SnapshotScopeType)
    (scopeId : Uuid) :
    (ofScope (s.snapshots.add snapshot hkey) scopeType scopeId).map (·.version)
      = List.range' 1 (ofScope (s.snapshots.add snapshot hkey) scopeType scopeId).length := by
  have hrows : (s.snapshots.add snapshot hkey).rows
      = s.snapshots.rows ++ [snapshot s.snapshots.next] := rfl
  have hold := h.versions scopeType scopeId
  unfold ofScope at hold hversion ⊢
  rw [hrows, List.filter_append]
  by_cases hscope : (snapshot s.snapshots.next).scopeType = scopeType
      ∧ (snapshot s.snapshots.next).scopeId = scopeId
  · obtain ⟨rfl, rfl⟩ := hscope
    rw [List.filter_cons_of_pos (by simp), List.filter_nil, List.map_append, hold,
      List.length_append, List.length_singleton, List.map_singleton, hversion, List.range'_concat,
      Nat.one_mul, Nat.add_comm 1]
  · rw [List.filter_cons_of_neg (by simpa using hscope), List.filter_nil, List.append_nil]
    exact hold

theorem Kept.create (h : s.Kept c.casing) (payload : TestCaseSnapshotCreate) :
    (TestCaseSnapshotService.create c s payload).1.Kept c.casing := by
  rcases create_cases c s payload with ⟨_, -, hsame⟩ | ⟨projectId, scope, items, event, hok, hmade⟩
  · rw [hsame]
    exact h
  rw [hmade]
  obtain ⟨project, hfound, hitems⟩ := checkCreate_ok hok
  obtain rfl := hfound.same
  rcases snapshotItems_cases h.forest c project.id scope with
    ⟨copied, hcopied, hne, hcopies⟩ | ⟨-, _, hfailed⟩
  case inr =>
    rw [hitems] at hfailed
    cases hfailed
  rw [hitems] at hcopied
  obtain rfl := Except.ok.inj hcopied
  have hnodup : (((QualityService.projectCases s.store project.id).filter (inScope scope)).map
      (·.id)).Nodup :=
    s.store.testCases.nodup.sublist ((List.filter_sublist.trans List.filter_sublist).map _)
  obtain ⟨hlength, hpositions, hdistinct⟩ := hcopies.items hnodup
  refine ⟨h.lockStep.frame rfl rfl rfl rfl, h.forest.frame rfl rfl, ?_, ?_, ?_, ?_⟩
  · refine { h.references with snapshots := fun id hid => ?_ }
    rcases List.mem_cons.mp hid with rfl | hold
    · exact ⟨project, hfound.stored⟩
    · exact h.references.snapshots id hold
  · intro snapshot hmem
    rcases @Table.mem_add _ _ _ _ (fun _ => rfl) _ hmem with hold | rfl
    · exact List.mem_cons_of_mem _ (h.owners snapshot hold)
    · exact List.mem_cons_self
  · exact versions_add h (fun _ => rfl) (nextVersion_eq h scope)
  · intro snapshot hmem
    rcases @Table.mem_add _ _ _ _ (fun _ => rfl) _ hmem with hold | rfl
    · exact h.filled snapshot hold
    · refine ⟨rfl, ?_, hpositions, hdistinct⟩
      intro hempty
      rw [show items = [] from hempty, List.length_nil] at hlength
      exact hne (List.length_eq_zero_iff.mp hlength.symm)

theorem Kept.perform (h : s.Kept c.casing) (call : SnapshotCall) :
    (s.perform c call).Kept c.casing := by
  cases call with
  | create payload => exact h.create payload
  | other call =>
    cases call with
    | createSnapshot projectId => exact h
    | _ => exact h.other (by trivial)

theorem kept_run (casing : Casing) (texts : Texts) (es : List SnapshotEvent) :
    (Transition.run (step casing texts) empty es).Kept casing :=
  Transition.invariant_run
    (fun _ e h => h.perform (c := ⟨casing, texts, e.currentActor, e.now⟩) e.call)
    (kept_empty casing) es

/-- No call takes a snapshot away or changes one. -/
theorem perform_rows (c : Context) (s : SnapshotStore) (call : SnapshotCall) :
    s.snapshots.rows <+: (s.perform c call).snapshots.rows := by
  cases call with
  | create payload =>
    show s.snapshots.rows <+: (TestCaseSnapshotService.create c s payload).1.snapshots.rows
    rcases create_cases c s payload with ⟨_, -, hsame⟩ | ⟨_, _, _, _, -, hmade⟩
    · rw [hsame]
    · rw [hmade]
      exact List.prefix_append _ _
  | other call =>
    cases call <;> exact List.prefix_rfl

theorem run_rows (casing : Casing) (texts : Texts) (s : SnapshotStore) (es : List SnapshotEvent) :
    s.snapshots.rows <+: (Transition.run (step casing texts) s es).snapshots.rows :=
  Transition.invariant_run
    (I := fun reached : SnapshotStore => s.snapshots.rows <+: reached.snapshots.rows)
    (fun _ e h => h.trans (perform_rows _ _ e.call)) List.prefix_rfl es

/-- A snapshot that has what is in the store of what is asked for. -/
structure Captures (c : Context) (s : SnapshotStore) (payload : TestCaseSnapshotCreate)
    (project : Project) (cases : List TestCase) (snapshot : TestCaseSnapshot) : Prop where
  takes : Takes s.store payload project
  projectId : snapshot.projectId = project.id
  scope : HasScope s.store project payload snapshot.scopeType snapshot.scopeId snapshot.scopeName
  version : snapshot.version
    = (ofScope s.snapshots snapshot.scopeType snapshot.scopeId).length + 1
  label : snapshot.label = payload.label
  description : snapshot.description = payload.description
  nodup : cases.Nodup
  mem : ∀ testCase, testCase ∈ cases
    ↔ testCase ∈ s.store.testCases.rows ∧ Within s.store project.id payload testCase
  items : Copies c (projectSuites s.store project.id) cases snapshot.items

/-- There is something to take a snapshot of. -/
def Asked (q : QaStore) (payload : TestCaseSnapshotCreate) : Prop :=
  ∃ project, Takes q payload project
    ∧ (∃ scopeType scopeId scopeName, HasScope q project payload scopeType scopeId scopeName)
    ∧ ∃ testCase ∈ q.testCases.rows, Within q project.id payload testCase

theorem mem_inScope {q : QaStore} {project : Project} {payload : TestCaseSnapshotCreate}
    {scope : SnapshotScope} (h : snapshotScope q project payload = .ok scope)
    (testCase : TestCase) :
    testCase ∈ (projectCases q project.id).filter (inScope scope)
      ↔ testCase ∈ q.testCases.rows ∧ Within q project.id payload testCase := by
  unfold projectCases
  rw [List.mem_filter, List.mem_filter, decide_eq_true_eq, and_assoc]
  refine and_congr_right fun _ => ⟨fun ⟨hproject, hin⟩ => ?_, fun hwithin => ?_⟩
  · exact ((snapshotScope_ok h).2 testCase hproject).mp hin
  · exact ⟨hwithin.1, ((snapshotScope_ok h).2 testCase hwithin.1).mpr hwithin⟩

/-- The checks pass when there is something to take a snapshot of. -/
theorem checkCreate_of_asked {q : QaStore} (h : q.Forest c.casing)
    {payload : TestCaseSnapshotCreate} (hasked : Asked q payload) :
    ∃ result, checkCreate c q payload = .ok result := by
  obtain ⟨project, htakes, ⟨_, _, _, hscope⟩, testCase, hmem, hwithin⟩ := hasked
  have hparsed : parseUuid payload.projectId "project_id" = .ok project.id :=
    demand_eq_ok.mpr htakes.parsed
  have hactive : ∀ message, q.requireActiveProject message project.id = .ok project :=
    fun _ => requireActiveProject_eq_ok htakes.stored htakes.active
  obtain ⟨scope, hscope⟩ := snapshotScope_of_hasScope hscope
  rcases snapshotItems_cases h c project.id scope with ⟨items, hitems, -, -⟩ | ⟨hempty, -⟩
  · refine ⟨(project.id, scope, items), ?_⟩
    unfold checkCreate
    simp only [hparsed, ok_bind, hactive, hscope, hitems]
    rfl
  · have hin := (mem_inScope hscope testCase).mpr ⟨hmem, hwithin⟩
    rw [hempty] at hin
    exact absurd hin List.not_mem_nil

/-- A snapshot that is created captures what is asked for. -/
theorem Kept.captures (h : s.Kept c.casing) {payload : TestCaseSnapshotCreate} {projectId : Uuid}
    {scope : SnapshotScope} {items : List TestCaseSnapshotItem}
    (hok : checkCreate c s.store payload = .ok (projectId, scope, items)) (id : Uuid) :
    Asked s.store payload ∧ ∃ project cases, Captures c s payload project cases
      (createdSnapshot c payload projectId scope (nextVersion s.snapshots scope) items id) := by
  obtain ⟨project, hfound, hitems⟩ := checkCreate_ok hok
  have hscope := (snapshotScope_ok hfound.scope_ok).1
  have hmem := mem_inScope hfound.scope_ok
  rcases snapshotItems_cases h.forest c project.id scope with
    ⟨copied, hcopied, hne, hcopies⟩ | ⟨-, _, hfailed⟩
  · rw [hitems] at hcopied
    obtain rfl := Except.ok.inj hcopied
    obtain ⟨testCase, hcase⟩ := List.exists_mem_of_ne_nil _ hne
    have hnodup : s.store.testCases.rows.Nodup := s.store.testCases.nodup.of_map _
    refine ⟨⟨project, hfound.toTakes, ⟨_, _, _, hscope⟩, testCase, (hmem testCase).mp hcase⟩,
      project, (projectCases s.store project.id).filter (inScope scope), ?_⟩
    exact
      { takes := hfound.toTakes
        projectId := hfound.same
        scope := hscope
        version := nextVersion_eq h scope
        label := rfl
        description := rfl
        nodup := (hnodup.filter _).filter _
        mem := hmem
        items := hcopies }
  · rw [hitems] at hfailed
    cases hfailed

/-! ## Main results -/

/-- In every state that calls lead to, what a row names is there, in its project. -/
theorem references_kept (casing : Casing) (texts : Texts) (es : List SnapshotEvent) :
    let s := Transition.run (step casing texts) empty es
    s.store.References
      ∧ (∀ execution ∈ s.store.executions.rows,
        (∃ plan, s.store.testPlans.get? execution.planId = some plan
          ∧ plan.projectId = execution.projectId)
        ∧ s.store.HasProject execution.projectId
        ∧ ∀ result ∈ execution.results, s.store.HasCase execution.projectId result.caseId)
      ∧ ∀ snapshot ∈ s.snapshots.rows, s.store.HasProject snapshot.projectId := by
  intro s
  have h : s.Kept casing := kept_run casing texts es
  refine ⟨h.references, fun execution hmem => ?_, fun snapshot hmem => ?_⟩
  · obtain ⟨plan, hget, hbacks⟩ := h.lockStep.backed execution hmem
    have hplan : plan ∈ s.store.testPlans.rows := Table.mem_of_get? hget
    refine ⟨⟨plan, hget, hbacks.project⟩, ?_, fun result hresult => ?_⟩
    · rw [← hbacks.project]
      exact QaStore.References.hasProject h.references.plans hplan
    · have hcase : result.caseId ∈ plan.caseIds := by
        rw [← hbacks.cases]
        exact List.mem_map_of_mem hresult
      obtain ⟨testCase, hfound, hproject⟩ := h.references.planCases plan hplan _ hcase
      exact ⟨testCase, hfound, hproject.trans hbacks.project⟩
  · exact h.references.snapshots _ (h.owners snapshot hmem)

/-- The versions of a scope count from one, a snapshot has numbered items of distinct cases, and
further calls leave it as it is. -/
theorem snapshots_kept (casing : Casing) (texts : Texts) (es : List SnapshotEvent) :
    let s := Transition.run (step casing texts) empty es
    (∀ scopeType scopeId, (ofScope s.snapshots scopeType scopeId).map (·.version)
      = List.range' 1 (ofScope s.snapshots scopeType scopeId).length)
    ∧ (∀ snapshot ∈ s.snapshots.rows, snapshot.Filled)
    ∧ ∀ later, s.snapshots.rows <+:
        (Transition.run (step casing texts) empty (es ++ later)).snapshots.rows := by
  intro s
  have h : s.Kept casing := kept_run casing texts es
  refine ⟨h.versions, h.filled, fun later => ?_⟩
  rw [Transition.run_append]
  exact run_rows casing texts s later

/-- In every state that calls lead to, a snapshot is created exactly if there is something to take
it of. It is then added to the rows, with all of what is asked for and nothing else; otherwise
nothing is written. -/
theorem create_captures (casing : Casing) (texts : Texts) (es : List SnapshotEvent)
    (currentActor : Option ActorIdentity) (now : Instant) (payload : TestCaseSnapshotCreate) :
    let s := Transition.run (step casing texts) empty es
    let c : Context := ⟨casing, texts, currentActor, now⟩
    let created := TestCaseSnapshotService.create c s payload
    ((∃ snapshot, created.2 = .ok snapshot) ↔ Asked s.store payload)
      ∧ (∀ snapshot, created.2 = .ok snapshot →
        (∃ project cases, Captures c s payload project cases snapshot)
        ∧ created.1.snapshots.rows = s.snapshots.rows ++ [snapshot]
        ∧ ∃ event, created.1.store = { s.store with
            snapshots := snapshot.projectId :: s.store.snapshots
            auditEvents := s.store.auditEvents ++ [event] })
      ∧ ∀ error, created.2 = .error error → created.1 = s := by
  intro s c created
  have h : s.Kept c.casing := kept_run casing texts es
  rcases create_cases c s payload with
    ⟨error, hfailed, hsame⟩ | ⟨projectId, scope, items, event, hok, hmade⟩
  · have hcreated : created = (s, .error error) := hsame
    rw [hcreated]
    refine ⟨iff_of_false ?_ ?_, fun _ hok => ?_, fun _ _ => rfl⟩
    · intro ⟨_, hok⟩
      cases hok
    · intro hasked
      obtain ⟨_, hok⟩ := checkCreate_of_asked h.forest hasked
      rw [hfailed] at hok
      cases hok
    · cases hok
  · obtain ⟨hasked, hcaptures⟩ := h.captures hok s.snapshots.next
    have hcreated : created = _ := hmade
    rw [hcreated]
    refine ⟨iff_of_true ⟨_, rfl⟩ hasked, fun snapshot hsame => ?_, fun _ hfailed => ?_⟩
    · obtain rfl := Except.ok.inj hsame
      exact ⟨hcaptures, rfl, event, rfl⟩
    · cases hfailed

end

end SnapshotStore

end QaPlatform.Services
