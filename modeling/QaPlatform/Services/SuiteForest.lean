import QaPlatform.Base.Acyclic
import QaPlatform.Services.Calls

/-!
# The suite forest

Suites are a forest inside each project, siblings have different names, and cases sit in
suites of their project. A parent is taken after its ancestors have been walked, so it is
not below the suite that moves.

`Base.Acyclic` has the general fact: an edge may be put between two points when the second does
not lead to the first, and the walk of `_validate_parent` finds that out. Names of siblings are
compared as `casefold` has them.
-/

namespace QaPlatform.Services

namespace QaStore

/-- A suite under its parent. -/
def Under (s : QaStore) (id parentId : Uuid) : Prop :=
  ∃ suite ∈ s.testSuites.rows, suite.id = id ∧ suite.parentId = some parentId

/-- The suite is there, and in the project. -/
def InProject (s : QaStore) (id projectId : Uuid) : Prop :=
  ∃ suite, s.testSuites.get? id = some suite ∧ suite.projectId = projectId

/-- The invariant of suites and of the cases in them. -/
structure Forest (casing : Casing) (s : QaStore) : Prop where
  acyclic : Acyclic s.Under
  parents : ∀ suite ∈ s.testSuites.rows, ∀ parentId, suite.parentId = some parentId →
    s.InProject parentId suite.projectId
  names : ∀ suite ∈ s.testSuites.rows, ∀ other ∈ s.testSuites.rows,
    suite.projectId = other.projectId → suite.parentId = other.parentId →
      casing.casefold suite.name = casing.casefold other.name → suite = other
  suites : ∀ testCase ∈ s.testCases.rows, ∀ suiteId, testCase.suiteId = some suiteId →
    s.InProject suiteId testCase.projectId
  steps : ∀ testCase ∈ s.testCases.rows, testCase.status = .active → testCase.steps ≠ []

theorem forest_empty (casing : Casing) : empty.Forest casing where
  acyclic := fun a hcycle => by
    obtain ⟨_, ⟨_, hmem, -⟩, -⟩ := Relation.TransGen.head'_iff.mp hcycle
    exact absurd hmem List.not_mem_nil
  parents := fun _ h => absurd h List.not_mem_nil
  names := fun _ h => absurd h List.not_mem_nil
  suites := fun _ h => absurd h List.not_mem_nil
  steps := fun _ h => absurd h List.not_mem_nil

section
variable {casing : Casing} {c : Context} {s s' : QaStore} {projectId : Uuid} {suiteId : Option Uuid}

theorem under_get? {id parentId : Uuid} {suite : TestSuite}
    (hget : s.testSuites.get? id = some suite) (h : s.Under id parentId) :
    suite.parentId = some parentId := by
  obtain ⟨found, hmem, hid, hparent⟩ := h
  have hsame : some found = some suite := by
    rw [← hget, ← hid]
    exact (Table.get?_key hmem).symm
  rw [← Option.some.inj hsame]
  exact hparent

/-! ## Walks -/

/-- What a walk has come by: the parent is there in the project, and neither it nor an ancestor
of it is the suite. -/
theorem validateParent_ok (visited : List Uuid) (parentId : Option Uuid) {u : Unit}
    (h : s.validateParent projectId suiteId visited parentId = .ok u) :
    ∀ id, parentId = some id →
      s.InProject id projectId
      ∧ ∀ ancestor, Relation.ReflTransGen s.Under id ancestor → some ancestor ≠ suiteId := by
  fun_induction s.validateParent projectId suiteId visited parentId with
  | case1 visited =>
    intro id hid
    cases hid
  | case6 visited currentId hcycle current hget hproject hactive ih =>
    intro id hid
    obtain rfl := Option.some.inj hid
    refine ⟨⟨current, hget, not_not.mp hproject⟩, fun ancestor hreach => ?_⟩
    rcases hreach.cases_head with rfl | ⟨next, hunder, hrest⟩
    · exact fun hsame => hcycle (.inr hsame)
    · exact (ih h next (under_get? hget hunder)).2 ancestor hrest
  | _ => cases h

/-! ## Writes -/

namespace Forest

theorem frame (h : s.Forest casing) (hsuites : s'.testSuites = s.testSuites)
    (hcases : s'.testCases = s.testCases) : s'.Forest casing := by
  have hunder : s'.Under = s.Under := by
    unfold Under
    rw [hsuites]
  have hin : s'.InProject = s.InProject := by
    unfold InProject
    rw [hsuites]
  refine ⟨?_, ?_, ?_, ?_, ?_⟩
  · rw [hunder]
    exact h.acyclic
  · rw [hsuites, hin]
    exact h.parents
  · rw [hsuites]
    exact h.names
  · rw [hcases, hin]
    exact h.suites
  · rw [hcases]
    exact h.steps

theorem same (h : s.Forest casing) (hsame : SameRest s s') : s'.Forest casing :=
  h.frame hsame.1 hsame.2.1

/-- Ancestors are there. -/
theorem reached (h : s.Forest casing) {id ancestor : Uuid} {suite : TestSuite}
    (hget : s.testSuites.get? id = some suite)
    (hreach : Relation.ReflTransGen s.Under id ancestor) :
    ∃ found, s.testSuites.get? ancestor = some found := by
  induction hreach with
  | refl => exact ⟨suite, hget⟩
  | tail _ hunder _ =>
    obtain ⟨child, hmem, -, hparent⟩ := hunder
    obtain ⟨parent, hfound, -⟩ := h.parents child hmem _ hparent
    exact ⟨parent, hfound⟩

theorem add_suite (h : s.Forest casing) (f : Uuid → TestSuite)
    (hf : ∀ id, Keyed.key (f id) = id)
    (hparent : ∀ parentId, (f s.testSuites.next).parentId = some parentId →
      s.InProject parentId (f s.testSuites.next).projectId)
    (hname : ∀ other ∈ s.testSuites.rows, other.projectId = (f s.testSuites.next).projectId →
      other.parentId = (f s.testSuites.next).parentId →
        casing.casefold other.name ≠ casing.casefold (f s.testSuites.next).name) :
    ({ s with testSuites := s.testSuites.add f hf } : QaStore).Forest casing := by
  have hin : ∀ id projectId, s.InProject id projectId →
      ({ s with testSuites := s.testSuites.add f hf } : QaStore).InProject id projectId :=
    fun id projectId ⟨suite, hget, hproject⟩ =>
      ⟨suite, @Table.get?_add_old _ _ _ _ hf _ _ hget, hproject⟩
  refine ⟨?_, fun suite hmem parentId hp => ?_, fun a ha b hb hproject hp hsame => ?_,
    fun testCase hmem suiteId hsuite => hin _ _ (h.suites testCase hmem suiteId hsuite), h.steps⟩
  · cases hnew : (f s.testSuites.next).parentId with
    | none =>
      refine h.acyclic.mono fun a b hab => ?_
      obtain ⟨suite, hmem, hid, hp⟩ := hab
      rcases @Table.mem_add _ _ _ _ hf _ hmem with hold | rfl
      · exact ⟨suite, hold, hid, hp⟩
      · rw [hnew] at hp
        cases hp
    | some parentId =>
      refine Acyclic.insert (x := s.testSuites.next) (p := parentId) h.acyclic
        (fun a b hab => ?_) fun hreach => ?_
      · obtain ⟨suite, hmem, hid, hp⟩ := hab
        rcases @Table.mem_add _ _ _ _ hf _ hmem with hold | rfl
        · exact .inl ⟨suite, hold, hid, hp⟩
        · exact .inr ⟨hid.symm.trans (hf _), Option.some.inj (hp.symm.trans hnew)⟩
      · obtain ⟨parent, hget, -⟩ := hparent parentId hnew
        obtain ⟨found, hfound⟩ := h.reached hget hreach
        rw [Table.get?_next] at hfound
        cases hfound
  · rcases @Table.mem_add _ _ _ _ hf _ hmem with hold | rfl
    · exact hin _ _ (h.parents suite hold parentId hp)
    · exact hin _ _ (hparent parentId hp)
  · rcases @Table.mem_add _ _ _ _ hf _ ha with holdA | rfl
    · rcases @Table.mem_add _ _ _ _ hf _ hb with holdB | rfl
      · exact h.names a holdA b holdB hproject hp hsame
      · exact absurd hsame (hname a holdA hproject hp)
    · rcases @Table.mem_add _ _ _ _ hf _ hb with holdB | rfl
      · exact absurd hsame.symm (hname b holdB hproject.symm hp.symm)
      · rfl

theorem put_suite (h : s.Forest casing) {suite edited : TestSuite}
    (hget : s.testSuites.get? suite.id = some suite) (hid : edited.id = suite.id)
    (hproject : edited.projectId = suite.projectId)
    (hparent : ∀ parentId, edited.parentId = some parentId →
      s.InProject parentId suite.projectId
      ∧ (suite.parentId = some parentId
        ∨ ¬ Relation.ReflTransGen s.Under parentId suite.id))
    (hname : ∀ other ∈ s.testSuites.rows, other.id ≠ suite.id →
      other.projectId = suite.projectId → other.parentId = edited.parentId →
        casing.casefold other.name ≠ casing.casefold edited.name) :
    ({ s with testSuites := s.testSuites.put edited } : QaStore).Forest casing := by
  -- an edit leaves every suite in its project
  have hin : ∀ id projectId, s.InProject id projectId →
      ({ s with testSuites := s.testSuites.put edited } : QaStore).InProject id projectId := by
    rintro id projectId ⟨found, hfound, hsame⟩
    by_cases hkey : edited.id = id
    · have hold : some found = some suite := by
        rw [← hfound, ← hkey, hid, hget]
      refine ⟨edited, Table.get?_put_self hfound hkey, ?_⟩
      rw [hproject, ← Option.some.inj hold, hsame]
    · exact ⟨found, (Table.get?_put_of_ne hkey).trans hfound, hsame⟩
  refine ⟨?_, fun x hmem parentId hp => ?_, fun a ha b hb hproj hp hsame => ?_,
    fun testCase hmem suiteId hsuite => hin _ _ (h.suites testCase hmem suiteId hsuite), h.steps⟩
  -- the edit adds at most the edge from the suite to its new parent
  · have hedges : ∀ a b, ({ s with testSuites := s.testSuites.put edited } : QaStore).Under a b →
        s.Under a b ∨ a = suite.id ∧ edited.parentId = some b := by
      rintro a b ⟨x, hmem, hx, hp⟩
      rcases Table.mem_put hmem with rfl | ⟨hold, -⟩
      · exact .inr ⟨hx.symm.trans hid, hp⟩
      · exact .inl ⟨x, hold, hx, hp⟩
    cases hnew : edited.parentId with
    | none =>
      refine h.acyclic.mono fun a b hab => ?_
      rcases hedges a b hab with hold | ⟨-, hp⟩
      · exact hold
      · rw [hnew] at hp
        cases hp
    | some parentId =>
      rcases (hparent parentId hnew).2 with hkept | hreach
      · -- the edge is an old one
        refine h.acyclic.mono fun a b hab => ?_
        rcases hedges a b hab with hold | ⟨rfl, hp⟩
        · exact hold
        · rw [hnew] at hp
          exact ⟨suite, Table.mem_of_get? hget, rfl, hkept.trans hp⟩
      -- the new parent is no descendant, so the added edge closes no cycle
      · refine h.acyclic.insert (fun a b hab => ?_) hreach
        exact (hedges a b hab).imp_right fun ⟨ha, hp⟩ =>
          ⟨ha, Option.some.inj (hp.symm.trans hnew)⟩
  · rcases Table.mem_put hmem with rfl | ⟨hold, -⟩
    · rw [hproject]
      exact hin _ _ (hparent parentId hp).1
    · exact hin _ _ (h.parents x hold parentId hp)
  · rcases Table.mem_put ha with rfl | ⟨holdA, hneA⟩
    · rcases Table.mem_put hb with rfl | ⟨holdB, hneB⟩
      · rfl
      · exact absurd hsame.symm (hname b holdB (fun hb => hneB (hb.trans hid.symm))
          (hproj.symm.trans hproject) hp.symm)
    · rcases Table.mem_put hb with rfl | ⟨holdB, -⟩
      · exact absurd hsame (hname a holdA (fun ha => hneA (ha.trans hid.symm))
          (hproj.trans hproject) hp)
      · exact h.names a holdA b holdB hproj hp hsame

theorem erase_suite (h : s.Forest casing) (id : Uuid)
    (hchildren : ∀ item ∈ s.testSuites.rows, item.parentId ≠ some id)
    (hcases : ∀ testCase ∈ s.testCases.rows, testCase.suiteId ≠ some id) :
    ({ s with testSuites := s.testSuites.erase id } : QaStore).Forest casing := by
  have hold : ∀ suite ∈ (s.testSuites.erase id).rows, suite ∈ s.testSuites.rows :=
    fun suite hmem => List.mem_of_mem_filter hmem
  have hin : ∀ other projectId, other ≠ id → s.InProject other projectId →
      ({ s with testSuites := s.testSuites.erase id } : QaStore).InProject other projectId := by
    rintro other projectId hne ⟨found, hfound, hsame⟩
    exact ⟨found, by rw [Table.get?_erase, if_neg (Ne.symm hne), hfound], hsame⟩
  refine ⟨h.acyclic.mono fun a b hab => ?_, fun suite hmem parentId hp => ?_,
    fun a ha b hb => h.names a (hold a ha) b (hold b hb),
    fun testCase hmem suiteId hsuite => ?_, h.steps⟩
  · obtain ⟨suite, hmem, hab⟩ := hab
    exact ⟨suite, hold suite hmem, hab⟩
  · refine hin _ _ (fun hsame => ?_) (h.parents suite (hold suite hmem) parentId hp)
    exact hchildren suite (hold suite hmem) (hp.trans (congrArg some hsame))
  · refine hin _ _ (fun hsame => ?_) (h.suites testCase hmem suiteId hsuite)
    exact hcases testCase hmem (hsuite.trans (congrArg some hsame))

/-- Cases are written when they are in a suite of their project. -/
theorem write_cases (h : s.Forest casing) {testCases : Table TestCase}
    (hcases : ∀ testCase ∈ testCases.rows, testCase ∈ s.testCases.rows
      ∨ (∀ suiteId, testCase.suiteId = some suiteId → s.InProject suiteId testCase.projectId)
        ∧ (testCase.status = .active → testCase.steps ≠ [])) :
    ({ s with testCases } : QaStore).Forest casing := by
  refine ⟨h.acyclic, h.parents, h.names, fun testCase hmem suiteId hsuite => ?_,
    fun testCase hmem hactive => ?_⟩
  · rcases hcases testCase hmem with hold | ⟨hnew, -⟩
    · exact h.suites testCase hold suiteId hsuite
    · exact hnew suiteId hsuite
  · rcases hcases testCase hmem with hold | ⟨-, hnew⟩
    · exact h.steps testCase hold hactive
    · exact hnew hactive

/-! ## Calls -/

theorem audited_suites {testSuites : Table TestSuite}
    (haudited : TestSuiteService.Audited s s' testSuites)
    (h : ({ s with testSuites } : QaStore).Forest casing) : s'.Forest casing := by
  obtain ⟨event, -, rfl⟩ := haudited
  exact h.frame rfl rfl

theorem createSuite (h : s.Forest c.casing) (payload : TestSuiteCreate) :
    (TestSuiteService.create c s payload).1.Forest c.casing := by
  rcases TestSuiteService.create_cases c s payload with
    hsame | ⟨projectId, parentId, u, hparent, hname, haudited⟩
  · rw [hsame]
    exact h
  · refine audited_suites haudited
      (h.add_suite _ _ (fun id hid => ?_) fun other hmem hproject hp hsame => ?_)
    · exact (validateParent_ok [] parentId hparent id hid).1
    · exact hname ⟨other, hmem, by simp, hproject, hp, hsame⟩

theorem updateSuite (h : s.Forest c.casing) (suiteId : Uuid) (payload : TestSuiteUpdate) :
    (TestSuiteService.update c s suiteId payload).1.Forest c.casing := by
  rcases TestSuiteService.update_cases c s suiteId payload with
    hsame | ⟨suite, edited, hget, hid, hproject, hparent, hname, haudited⟩
  · rw [hsame]
    exact h
  · have hmem := Table.mem_of_get? hget
    refine audited_suites haudited (h.put_suite (Table.get?_key hmem) hid hproject
      (fun parentId hp => ?_) fun other hother hne hproj hp hsame => ?_)
    · rcases hparent with hkept | ⟨u, hvalid⟩
      · have hold := hkept.symm.trans hp
        exact ⟨h.parents suite hmem parentId hold, .inl hold⟩
      · obtain ⟨hin, hreach⟩ := validateParent_ok [] edited.parentId hvalid parentId hp
        exact ⟨hin, .inr fun hwalk => hreach suite.id hwalk rfl⟩
    · exact hname ⟨other, hother, fun h => hne (Option.some.inj h), hproj, hp, hsame⟩

theorem transitionSuite (h : s.Forest c.casing) (suiteId : Uuid) (target : TestSuiteStatus) :
    (TestSuiteService.transition c s suiteId target).1.Forest c.casing := by
  rcases TestSuiteService.transition_cases c s suiteId target with
    hsame | ⟨suite, hget, haudited⟩
  · rw [hsame]
    exact h
  · have hmem := Table.mem_of_get? hget
    refine audited_suites haudited (h.put_suite (Table.get?_key hmem) rfl rfl
      (fun parentId hp => ⟨h.parents suite hmem parentId hp, .inl hp⟩)
      fun other hother hne hproj hp hsame => ?_)
    exact hne (congrArg TestSuite.id (h.names other hother suite hmem hproj hp hsame))

theorem deleteSuite (h : s.Forest c.casing) (suiteId : Uuid) :
    (TestSuiteService.delete c s suiteId).1.Forest c.casing := by
  rcases TestSuiteService.delete_cases c s suiteId with
    hsame | ⟨suite, -, hchildren, hcases, haudited⟩
  · rw [hsame]
    exact h
  · exact audited_suites haudited (h.erase_suite suite.id hchildren hcases)

theorem createCase (h : s.Forest c.casing) (payload : TestCaseCreate) :
    (s.kept (TestCaseService.create c s payload)).Forest c.casing := by
  refine kept_cases h fun s' testCase hcreate => ?_
  obtain ⟨projectId, suiteId, hsuite, rfl⟩ := TestCaseService.create_ok hcreate
  refine h.write_cases fun x hmem => ?_
  rcases Table.mem_add hmem with hold | rfl
  · exact .inl hold
  · exact .inr ⟨TestCaseService.requireSuite?_ok hsuite, fun hactive => nomatch hactive⟩

theorem updateCase (h : s.Forest c.casing) (caseId : Uuid) (payload : TestCaseUpdate) :
    (s.kept (TestCaseService.update c s caseId payload)).Forest c.casing := by
  refine kept_cases h fun s' testCase hupdate => ?_
  obtain ⟨old, hget, -, hproject, -, hsuite, hsteps, rfl⟩ := TestCaseService.update_ok hupdate
  refine h.write_cases fun x hmem => ?_
  rcases Table.mem_put hmem with rfl | ⟨hold, -⟩
  · refine .inr ⟨?_, hsteps⟩
    rw [hproject]
    rcases TestCaseService.newSuite_ok hsuite with hkept | ⟨value, hchecked⟩
    · rw [hkept]
      exact h.suites old (Table.mem_of_get? hget)
    · exact TestCaseService.requireSuite?_ok hchecked
  · exact .inl hold

theorem transitionCase (h : s.Forest c.casing) (caseId : Uuid) (target : TestCaseStatus) :
    (s.kept (TestCaseService.transition c s caseId target)).Forest c.casing := by
  refine kept_cases h fun s' testCase htransition => ?_
  rcases TestCaseService.transition_ok htransition with rfl | ⟨old, hget, rfl, hsteps, rfl⟩
  · exact h
  · refine h.write_cases fun x hmem => ?_
    rcases Table.mem_put hmem with rfl | ⟨hold, -⟩
    · exact .inr ⟨h.suites old (Table.mem_of_get? hget), hsteps⟩
    · exact .inl hold

theorem deleteCase (h : s.Forest c.casing) (caseId : Uuid) :
    (s.kept (TestCaseService.delete s caseId)).Forest c.casing := by
  refine kept_cases h fun s' id hdelete => ?_
  obtain ⟨old, -, rfl⟩ := TestCaseService.delete_ok hdelete
  exact h.write_cases fun x hmem => .inl (List.mem_of_mem_filter hmem)

/-- Every call leaves a forest. -/
theorem perform (h : s.Forest c.casing) (call : QaCall) : (s.perform c call).Forest c.casing := by
  cases call with
  | createSuite payload => exact h.createSuite payload
  | updateSuite suiteId payload => exact h.updateSuite suiteId payload
  | transitionSuite suiteId target => exact h.transitionSuite suiteId target
  | deleteSuite suiteId => exact h.deleteSuite suiteId
  | createCase payload => exact h.createCase payload
  | updateCase caseId payload => exact h.updateCase caseId payload
  | transitionCase caseId target => exact h.transitionCase caseId target
  | deleteCase caseId => exact h.deleteCase caseId
  | createDefect payload =>
    show (DefectService.create c s payload).1.Forest c.casing
    rcases DefectService.create_cases c s payload with hsame | ⟨_, _, _, -, _, -, -, -, hwritten⟩
    · rw [hsame]
      exact h
    · rw [hwritten]
      exact h.frame rfl rfl
  | updateDefect defectId payload =>
    show (DefectService.update c s defectId payload).1.Forest c.casing
    rcases DefectService.update_cases c s defectId payload with
      hsame | ⟨_, -, -, -, _, -, -, -, hwritten⟩
    · rw [hsame]
      exact h
    · rw [hwritten]
      exact h.frame rfl rfl
  | transitionDefect defectId payload =>
    show (DefectService.transition c s defectId payload).1.Forest c.casing
    rcases DefectService.transition_cases c s defectId payload with
      hsame | ⟨_, _, _, -, -, -, -, _, -, -, -, hwritten⟩
    · rw [hsame]
      exact h
    · rw [hwritten]
      exact h.frame rfl rfl
  -- the other calls write neither suites nor cases
  | _ => exact h.same (perform_plans c s (by exact trivial))

end Forest

end

/-- Suites are a forest and cases sit in it, after any calls. -/
theorem suite_forest (casing : Casing) (texts : Texts) (es : List QaEvent) :
    let s := Transition.run (step casing texts) empty es
    (∀ id, ¬ Relation.TransGen s.Under id id)
    ∧ (∀ suite ∈ s.testSuites.rows, ∀ parentId, suite.parentId = some parentId →
        ∃ parent, s.testSuites.get? parentId = some parent ∧ parent.projectId = suite.projectId)
    ∧ (∀ suite ∈ s.testSuites.rows, ∀ other ∈ s.testSuites.rows, suite ≠ other →
        suite.projectId = other.projectId → suite.parentId = other.parentId →
          casing.casefold suite.name ≠ casing.casefold other.name)
    ∧ (∀ testCase ∈ s.testCases.rows, ∀ suiteId, testCase.suiteId = some suiteId →
        ∃ suite, s.testSuites.get? suiteId = some suite ∧ suite.projectId = testCase.projectId)
    ∧ ∀ testCase ∈ s.testCases.rows, testCase.status = .active → 1 ≤ testCase.steps.length := by
  intro s
  have h : s.Forest casing :=
    Transition.invariant_run
      (fun _ e h => Forest.perform (c := ⟨casing, texts, e.currentActor, e.now⟩) h e.call)
      (forest_empty casing) es
  refine ⟨h.acyclic, h.parents, fun suite hsuite other hother hne hproject hparent hsame => ?_,
    h.suites, fun testCase hmem hactive => ?_⟩
  · exact hne (h.names suite hsuite other hother hproject hparent hsame)
  · exact List.length_pos_iff.mpr (h.steps testCase hmem hactive)

end QaStore

end QaPlatform.Services
