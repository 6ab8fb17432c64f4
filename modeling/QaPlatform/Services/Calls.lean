import QaPlatform.Base.Transition
import QaPlatform.Services.Defects

/-!
# What the services write

The calls of the services as the events of one machine; the business lock makes each
of them one step. After that one lemma for each call: what it found, and the store it
leaves when it does not raise.
-/

namespace QaPlatform.Services

/-- A call of one of the services. -/
inductive QaCall where
  | createProject (payload : ProjectCreate)
  | updateProject (projectId : Uuid) (payload : ProjectUpdate)
  | transitionProject (projectId : Uuid) (target : ProjectStatus)
  | deleteProject (projectId : Uuid)
  | createSuite (payload : TestSuiteCreate)
  | updateSuite (suiteId : Uuid) (payload : TestSuiteUpdate)
  | transitionSuite (suiteId : Uuid) (target : TestSuiteStatus)
  | deleteSuite (suiteId : Uuid)
  | createCase (payload : TestCaseCreate)
  | updateCase (caseId : Uuid) (payload : TestCaseUpdate)
  | transitionCase (caseId : Uuid) (target : TestCaseStatus)
  | deleteCase (caseId : Uuid)
  /-- A snapshot of the project's cases is stored. -/
  | createSnapshot (projectId : Uuid)
  | createPlan (payload : TestPlanCreate)
  | updatePlan (planId : Uuid) (payload : TestPlanUpdate)
  | transitionPlan (planId : Uuid) (target : TestPlanStatus)
  | deletePlan (planId : Uuid)
  | createExecution (planId : UuidText)
  | transitionExecution (executionId : Uuid) (target : ExecutionStatus)
  | updateCaseResult (executionId caseId : Uuid) (status : CaseResultStatus)
      (actualResult comment : String)
  | deleteExecution (executionId : Uuid)
  | createDefect (payload : DefectCreate)
  | updateDefect (defectId : Uuid) (payload : DefectUpdate)
  | transitionDefect (defectId : Uuid) (payload : DefectTransition)

/-- A call, who makes it and when. -/
structure QaEvent where
  currentActor : Option ActorIdentity
  now : Instant
  call : QaCall

namespace QaStore

/-- The store after a call that may have raised. -/
def kept (s : QaStore) (x : Except DomainError (QaStore × α)) : QaStore :=
  match x with
  | .ok (s, _) => s
  | .error _ => s

/-- A call; when it raises, what it has stored before stays stored. -/
def perform (c : Context) (s : QaStore) : QaCall → QaStore
  | .createProject payload => s.kept (ProjectService.create c s payload)
  | .updateProject projectId payload => s.kept (ProjectService.update c s projectId payload)
  | .transitionProject projectId target => s.kept (ProjectService.transition c s projectId target)
  | .deleteProject projectId => s.kept (ProjectService.delete s projectId)
  | .createSuite payload => (TestSuiteService.create c s payload).1
  | .updateSuite suiteId payload => (TestSuiteService.update c s suiteId payload).1
  | .transitionSuite suiteId target => (TestSuiteService.transition c s suiteId target).1
  | .deleteSuite suiteId => (TestSuiteService.delete c s suiteId).1
  | .createCase payload => s.kept (TestCaseService.create c s payload)
  | .updateCase caseId payload => s.kept (TestCaseService.update c s caseId payload)
  | .transitionCase caseId target => s.kept (TestCaseService.transition c s caseId target)
  | .deleteCase caseId => s.kept (TestCaseService.delete s caseId)
  | .createSnapshot projectId => { s with snapshots := projectId :: s.snapshots }
  | .createPlan payload => s.kept (TestPlanService.create c s payload)
  | .updatePlan planId payload => s.kept (TestPlanService.update c s planId payload)
  | .transitionPlan planId target => s.kept (TestPlanService.transition c s planId target)
  | .deletePlan planId => s.kept (TestPlanService.delete s planId)
  | .createExecution planId => s.kept (ExecutionService.create c s planId)
  | .transitionExecution executionId target =>
    (ExecutionService.transition c s executionId target .done .done).1
  | .updateCaseResult executionId caseId status actualResult comment =>
    s.kept (ExecutionService.updateCaseResult c s executionId caseId status actualResult comment)
  | .deleteExecution executionId => s.kept (ExecutionService.delete s executionId)
  | .createDefect payload => (DefectService.create c s payload).1
  | .updateDefect defectId payload => (DefectService.update c s defectId payload).1
  | .transitionDefect defectId payload => (DefectService.transition c s defectId payload).1

/-- One call, by the actor and at the time of the event. -/
def step (casing : Casing) (texts : Texts) (s : QaStore) (e : QaEvent) : QaStore :=
  s.perform ⟨casing, texts, e.currentActor, e.now⟩ e.call

theorem kept_cases {s : QaStore} {x : Except DomainError (QaStore × α)} {P : QaStore → Prop}
    (hs : P s) (hx : ∀ s' a, x = .ok (s', a) → P s') : P (s.kept x) := by
  unfold kept
  cases x with
  | error e => exact hs
  | ok result => exact hx _ _ rfl

end QaStore

/-! ## Projects -/

section
variable {c : Context} {s s' : QaStore} {project : Project} {projectId : Uuid}

namespace ProjectService

theorem getUnlocked_ok (h : getUnlocked s projectId = .ok project) :
    s.projects.get? projectId = some project :=
  demand_eq_ok.mp h

theorem create_ok {payload : ProjectCreate} (h : create c s payload = .ok (s', project)) :
    s' = { s with projects := s.projects.add (createdProject c payload) } := by
  obtain ⟨-, -, h⟩ := bind_eq_ok.mp h
  exact (Prod.mk.inj (pure_eq_ok.mp h)).1.symm

/-- An edit leaves the status. -/
theorem update_ok {payload : ProjectUpdate} (h : update c s projectId payload = .ok (s', project)) :
    ∃ old, s.projects.get? projectId = some old ∧ project.id = old.id
      ∧ project.status = old.status ∧ s' = { s with projects := s.projects.put project } := by
  obtain ⟨old, hget, h⟩ := bind_eq_ok.mp h
  obtain ⟨-, -, h⟩ := bind_eq_ok.mp h
  obtain ⟨hs, rfl⟩ := Prod.mk.inj (pure_eq_ok.mp h)
  exact ⟨old, getUnlocked_ok hget, rfl, rfl, hs.symm⟩

theorem ensureProjectHasNoActiveWork_ok {u : Unit}
    (h : ensureProjectHasNoActiveWork s projectId = .ok u) :
    (∀ plan ∈ s.testPlans.rows, plan.projectId = projectId → ¬ plan.status.IsActive)
    ∧ (∀ execution ∈ s.executions.rows,
        execution.projectId = projectId → ¬ execution.status.IsActive)
    ∧ ∀ defect ∈ s.defects.rows, defect.projectId = projectId → defect.status = .closed := by
  obtain ⟨hplans, h⟩ := refuse_bind_eq_ok.mp h
  obtain ⟨hexecutions, h⟩ := refuse_bind_eq_ok.mp h
  have hdefects := refuse_eq_ok.mp h
  refine ⟨fun plan hplan hproject hactive => hplans ⟨plan, hplan, hproject, hactive⟩,
    fun execution hexecution hproject hactive =>
      hexecutions ⟨execution, hexecution, hproject, hactive⟩,
    fun defect hdefect hproject => ?_⟩
  by_contra hopen
  exact hdefects ⟨defect, hdefect, hproject, hopen⟩

/-- A project is archived when nothing in it is active. -/
theorem transition_ok {target : ProjectStatus}
    (h : transition c s projectId target = .ok (s', project)) :
    s' = s ∨ ∃ old, s.projects.get? projectId = some old ∧ project.id = old.id
      ∧ project.status = target ∧ s' = { s with projects := s.projects.put project }
      ∧ (target = .archived → ∃ u, ensureProjectHasNoActiveWork s old.id = .ok u) := by
  obtain ⟨old, hget, h⟩ := bind_eq_ok.mp h
  split at h
  · exact .inl (Prod.mk.inj (pure_eq_ok.mp h)).1.symm
  · split at h
    · next harchived =>
      obtain ⟨u, hquiet, h⟩ := bind_eq_ok.mp h
      obtain ⟨-, -, h⟩ := bind_eq_ok.mp h
      obtain ⟨hs, rfl⟩ := Prod.mk.inj (pure_eq_ok.mp h)
      exact .inr ⟨old, getUnlocked_ok hget, rfl, rfl, hs.symm, fun _ => ⟨u, hquiet⟩⟩
    · next hactive =>
      obtain ⟨-, -, h⟩ := bind_eq_ok.mp h
      obtain ⟨hs, rfl⟩ := Prod.mk.inj (pure_eq_ok.mp h)
      exact .inr ⟨old, getUnlocked_ok hget, rfl, rfl, hs.symm, fun h => absurd h hactive⟩

theorem delete_ok {id : Uuid} (h : delete s projectId = .ok (s', id)) :
    ∃ old, s.projects.get? projectId = some old
      ∧ s' = { s with projects := s.projects.erase old.id } := by
  obtain ⟨old, hget, h⟩ := bind_eq_ok.mp h
  obtain ⟨-, h⟩ := refuse_bind_eq_ok.mp h
  obtain ⟨-, h⟩ := refuse_bind_eq_ok.mp h
  obtain ⟨-, h⟩ := refuse_bind_eq_ok.mp h
  obtain ⟨-, h⟩ := refuse_bind_eq_ok.mp h
  obtain ⟨-, h⟩ := refuse_bind_eq_ok.mp h
  exact ⟨old, getUnlocked_ok hget, (Prod.mk.inj (pure_eq_ok.mp h)).1.symm⟩

end ProjectService

end

/-! ## Suites -/

section
variable {c : Context} {s : QaStore} {suiteId : Uuid}

namespace TestSuiteService

/-- The store with a suite event, and the suites as they are given. -/
def Audited (s s' : QaStore) (testSuites : Table TestSuite) : Prop :=
  ∃ event : AuditEvent, event.entityType = "test_suite"
    ∧ s' = { s with testSuites, auditEvents := s.auditEvents ++ [event] }

/-- What is recorded of a suite is recorded. -/
theorem recorded {α : Type} {testSuites : Table TestSuite} {record : AuditRecord} {value : α}
    (comment : String) (htype : record.entityType = "test_suite")
    (hcomment : record.comment = comment) (hshort : comment.length ≤ 1000) :
    Audited s ((({ s with testSuites } : QaStore).recordUnlocked c.casing c.currentActor
      c.now record value).1) testSuites := by
  have hentity : IsEntityType record.entityType := by
    rw [htype]
    decide
  obtain ⟨event, hrecord, heventType, -⟩ := QaStore.recordUnlocked_ok c.casing
    c.currentActor c.now hentity (hcomment ▸ hshort) { s with testSuites } value
  rw [hrecord]
  exact ⟨event, heventType.trans htype, rfl⟩

theorem ensureUniqueName_ok {projectId : Uuid} {parentId : Option Uuid} {name : String}
    {excludeId : Option Uuid} {u : Unit}
    (h : ensureUniqueName c.casing s projectId parentId name excludeId = .ok u) :
    ¬ NameTaken c.casing s projectId parentId name excludeId :=
  refuse_eq_ok.mp h

theorem create_cases (c : Context) (s : QaStore) (payload : TestSuiteCreate) :
    (create c s payload).1 = s ∨ ∃ projectId parentId u,
      s.validateParent projectId none [] parentId = .ok u
        ∧ ¬ NameTaken c.casing s projectId parentId payload.name none
        ∧ Audited s (create c s payload).1
          (s.testSuites.add (createdSuite c payload projectId parentId)) := by
  unfold create
  cases hcheck : checkCreate c s payload with
  | error e => exact .inl rfl
  | ok result =>
  obtain ⟨projectId, parentId⟩ := result
  obtain ⟨_, -, h⟩ := bind_eq_ok.mp hcheck
  obtain ⟨-, -, h⟩ := bind_eq_ok.mp h
  obtain ⟨_, -, h⟩ := bind_eq_ok.mp h
  obtain ⟨u, hparent, h⟩ := bind_eq_ok.mp h
  obtain ⟨_, hname, h⟩ := bind_eq_ok.mp h
  obtain ⟨rfl, rfl⟩ := Prod.mk.inj (pure_eq_ok.mp h)
  exact .inr ⟨_, _, u, hparent, ensureUniqueName_ok hname, recorded "创建测试套件" rfl rfl
      (by decide)⟩

/-- The parent stays, or it is a validated one. -/
theorem newParent_ok {payload : TestSuiteUpdate} {suite : TestSuite} {parentId : Option Uuid}
    (h : newParent s payload suite = .ok parentId) :
    parentId = suite.parentId
      ∨ ∃ u, s.validateParent suite.projectId (some suite.id) [] parentId = .ok u := by
  unfold newParent at h
  split at h
  · exact .inl (pure_eq_ok.mp h).symm
  · obtain ⟨_, -, h⟩ := bind_eq_ok.mp h
    obtain ⟨u, hparent, h⟩ := bind_eq_ok.mp h
    obtain rfl := pure_eq_ok.mp h
    exact .inr ⟨u, hparent⟩

theorem update_cases (c : Context) (s : QaStore) (suiteId : Uuid) (payload : TestSuiteUpdate) :
    (update c s suiteId payload).1 = s ∨ ∃ suite edited, s.testSuites.get? suiteId = some suite
      ∧ edited.id = suite.id ∧ edited.projectId = suite.projectId
      ∧ (edited.parentId = suite.parentId
        ∨ ∃ u, s.validateParent suite.projectId (some suite.id) [] edited.parentId = .ok u)
      ∧ ¬ NameTaken c.casing s suite.projectId edited.parentId edited.name (some suite.id)
      ∧ Audited s (update c s suiteId payload).1 (s.testSuites.put edited) := by
  unfold update
  cases hcheck : checkUpdate c s suiteId payload with
  | error e => exact .inl rfl
  | ok result =>
  obtain ⟨suite, edited⟩ := result
  obtain ⟨_, hget, h⟩ := bind_eq_ok.mp hcheck
  obtain ⟨-, -, h⟩ := bind_eq_ok.mp h
  obtain ⟨-, h⟩ := refuse_bind_eq_ok.mp h
  obtain ⟨parentId, hparent, h⟩ := bind_eq_ok.mp h
  obtain ⟨_, hname, h⟩ := bind_eq_ok.mp h
  obtain ⟨rfl, rfl⟩ := Prod.mk.inj (pure_eq_ok.mp h)
  unfold andThen
  dsimp only
  split
  · exact .inl rfl
  · exact .inr ⟨_, { candidate payload parentId _ with updatedAt := c.now },
      demand_eq_ok.mp hget, rfl,
      rfl, newParent_ok hparent, ensureUniqueName_ok hname, recorded "更新测试套件" rfl rfl
      (by decide)⟩

theorem transition_cases (c : Context) (s : QaStore) (suiteId : Uuid) (target : TestSuiteStatus) :
    (transition c s suiteId target).1 = s ∨ ∃ suite, s.testSuites.get? suiteId = some suite
      ∧ Audited s (transition c s suiteId target).1
        (s.testSuites.put { suite with status := target, updatedAt := c.now }) := by
  unfold transition
  cases hcheck : checkTransition s suiteId target with
  | error e => exact .inl rfl
  | ok result =>
  obtain ⟨suite, moves⟩ := result
  unfold andThen
  dsimp only
  split
  · next hmoves =>
    obtain ⟨old, hget, h⟩ := bind_eq_ok.mp hcheck
    have hsame : old = suite := by
      split at h
      · exact (Prod.mk.inj (pure_eq_ok.mp h)).1
      · obtain ⟨-, -, h⟩ := bind_eq_ok.mp h
        dsimp only at h
        split at h
        · obtain ⟨-, -, h⟩ := bind_eq_ok.mp h
          exact (Prod.mk.inj (pure_eq_ok.mp h)).1
        · exact (Prod.mk.inj (pure_eq_ok.mp h)).1
    subst hsame
    exact .inr ⟨old, demand_eq_ok.mp hget, recorded "变更测试套件状态" rfl rfl
      (by decide)⟩
  · exact .inl rfl

/-- A suite is deleted when no suite and no case is under it. -/
theorem delete_cases (c : Context) (s : QaStore) (suiteId : Uuid) :
    (delete c s suiteId).1 = s ∨ ∃ suite, s.testSuites.get? suiteId = some suite
      ∧ (∀ item ∈ s.testSuites.rows, item.parentId ≠ some suite.id)
      ∧ (∀ testCase ∈ s.testCases.rows, testCase.suiteId ≠ some suite.id)
      ∧ Audited s (delete c s suiteId).1 (s.testSuites.erase suite.id) := by
  unfold delete
  cases hcheck : checkDelete s suiteId with
  | error e => exact .inl rfl
  | ok suite =>
  obtain ⟨_, hget, h⟩ := bind_eq_ok.mp hcheck
  obtain ⟨-, -, h⟩ := bind_eq_ok.mp h
  obtain ⟨hchildren, h⟩ := refuse_bind_eq_ok.mp h
  obtain ⟨hcases, h⟩ := refuse_bind_eq_ok.mp h
  obtain rfl := pure_eq_ok.mp h
  refine .inr ⟨_, demand_eq_ok.mp hget, fun item hitem hparent => hchildren ⟨item, hitem, hparent⟩,
    fun testCase hcase hsuite => hcases ⟨testCase, hcase, hsuite⟩, recorded "删除测试套件" rfl rfl
      (by decide)⟩

end TestSuiteService

end

/-! ## Cases -/

section
variable {c : Context} {s s' : QaStore} {caseId : Uuid} {testCase : TestCase}

namespace TestCaseService

/-- The suite of a case is one of its project. -/
theorem requireSuite?_ok {projectId : Uuid} {value : Option UuidText} {suiteId : Option Uuid}
    (h : requireSuite? s projectId value = .ok suiteId) :
    ∀ id, suiteId = some id →
      ∃ suite, s.testSuites.get? id = some suite ∧ suite.projectId = projectId := by
  intro id hid
  obtain ⟨parsed, -, h⟩ := bind_eq_ok.mp h
  cases parsed with
  | none =>
    rw [hid] at h
    cases pure_eq_ok.mp h
  | some parsed =>
    obtain ⟨suite, hsuite, h⟩ := bind_eq_ok.mp h
    have hsame : some parsed = suiteId := pure_eq_ok.mp h
    obtain rfl := Option.some.inj (hsame.trans hid)
    obtain ⟨found, hget, h⟩ := bind_eq_ok.mp hsuite
    obtain ⟨hproject, -⟩ := refuse_bind_eq_ok.mp h
    exact ⟨found, demand_eq_ok.mp hget, not_not.mp hproject⟩

theorem create_ok {payload : TestCaseCreate} (h : create c s payload = .ok (s', testCase)) :
    ∃ projectId suiteId, requireSuite? s projectId payload.suiteId = .ok suiteId
      ∧ s' = { s with testCases := s.testCases.add (createdCase c payload projectId suiteId) } := by
  obtain ⟨projectId, -, h⟩ := bind_eq_ok.mp h
  obtain ⟨-, -, h⟩ := bind_eq_ok.mp h
  obtain ⟨suiteId, hsuite, h⟩ := bind_eq_ok.mp h
  exact ⟨projectId, suiteId, hsuite, (Prod.mk.inj (pure_eq_ok.mp h)).1.symm⟩

/-- The suite stays, or it is one that was checked. -/
theorem newSuite_ok {payload : TestCaseUpdate} {suiteId : Option Uuid}
    (h : newSuite s payload testCase = .ok suiteId) :
    suiteId = testCase.suiteId
      ∨ ∃ value, requireSuite? s testCase.projectId value = .ok suiteId := by
  unfold newSuite at h
  split at h
  · exact .inl (pure_eq_ok.mp h).symm
  · exact .inr ⟨_, h⟩

theorem update_ok {payload : TestCaseUpdate} (h : update c s caseId payload = .ok (s', testCase)) :
    ∃ old, s.testCases.get? caseId = some old ∧ testCase.id = old.id
      ∧ testCase.projectId = old.projectId ∧ testCase.status = old.status
      ∧ newSuite s payload old = .ok testCase.suiteId
      ∧ (testCase.status = .active → testCase.steps ≠ [])
      ∧ s' = { s with testCases := s.testCases.put testCase } := by
  obtain ⟨old, hget, h⟩ := bind_eq_ok.mp h
  obtain ⟨suiteId, hsuite, h⟩ := bind_eq_ok.mp h
  obtain ⟨hsteps, h⟩ := refuse_bind_eq_ok.mp h
  obtain ⟨hs, rfl⟩ := Prod.mk.inj (pure_eq_ok.mp h)
  exact ⟨old, demand_eq_ok.mp hget, rfl, rfl, rfl, hsuite,
    fun hactive hnone => hsteps ⟨hactive, hnone⟩,
    hs.symm⟩

theorem transition_ok {target : TestCaseStatus}
    (h : transition c s caseId target = .ok (s', testCase)) :
    s' = s ∨ ∃ old, s.testCases.get? caseId = some old
      ∧ testCase = { old with status := target, updatedAt := c.now }
      ∧ (target = .active → testCase.steps ≠ [])
      ∧ s' = { s with testCases := s.testCases.put testCase } := by
  obtain ⟨old, hget, h⟩ := bind_eq_ok.mp h
  split at h
  · exact .inl (Prod.mk.inj (pure_eq_ok.mp h)).1.symm
  · obtain ⟨-, h⟩ := refuse_bind_eq_ok.mp h
    split at h
    · obtain ⟨-, -, h⟩ := bind_eq_ok.mp h
      obtain ⟨hsteps, h⟩ := refuse_bind_eq_ok.mp h
      obtain ⟨hs, rfl⟩ := Prod.mk.inj (pure_eq_ok.mp h)
      exact .inr ⟨old, demand_eq_ok.mp hget, rfl, fun _ => hsteps, hs.symm⟩
    · next hother =>
      obtain ⟨hs, rfl⟩ := Prod.mk.inj (pure_eq_ok.mp h)
      exact .inr ⟨old, demand_eq_ok.mp hget, rfl, fun h => absurd h hother, hs.symm⟩

theorem delete_ok {id : Uuid} (h : delete s caseId = .ok (s', id)) :
    ∃ old, s.testCases.get? caseId = some old
      ∧ s' = { s with testCases := s.testCases.erase old.id } := by
  obtain ⟨old, hget, h⟩ := bind_eq_ok.mp h
  obtain ⟨-, h⟩ := refuse_bind_eq_ok.mp h
  obtain ⟨-, h⟩ := refuse_bind_eq_ok.mp h
  exact ⟨old, demand_eq_ok.mp hget, (Prod.mk.inj (pure_eq_ok.mp h)).1.symm⟩

end TestCaseService

end

/-! ## Plans -/

section
variable {c : Context} {s s' : QaStore} {planId : Uuid} {plan : TestPlan}

theorem QaStore.activeProject_of_ok {message : String} {projectId : Uuid} {project : Project}
    (h : s.requireActiveProject message projectId = .ok project) : s.ActiveProject projectId :=
  ⟨project, QaStore.requireActiveProject_ok h⟩

namespace TestPlanService

theorem validateCases_ok {texts : Texts} {projectId : Uuid} {caseIds : List Uuid}
    {requireActive : Bool} {u : Unit}
    (h : validateCases texts s projectId caseIds requireActive = .ok u) : caseIds.Nodup :=
  not_not.mp (refuse_bind_eq_ok.mp h).1

theorem create_ok {payload : TestPlanCreate} (h : create c s payload = .ok (s', plan)) :
    ∃ projectId caseIds, s.ActiveProject projectId ∧ caseIds.Nodup
      ∧ s' = { s with testPlans := s.testPlans.add (createdPlan c payload projectId caseIds) } := by
  obtain ⟨projectId, -, h⟩ := bind_eq_ok.mp h
  obtain ⟨_, hactive, h⟩ := bind_eq_ok.mp h
  obtain ⟨caseIds, -, h⟩ := bind_eq_ok.mp h
  obtain ⟨_, hcases, h⟩ := bind_eq_ok.mp h
  exact ⟨projectId, caseIds, QaStore.activeProject_of_ok hactive, validateCases_ok hcases,
    (Prod.mk.inj (pure_eq_ok.mp h)).1.symm⟩

theorem newCaseIds_ok {payload : TestPlanUpdate} {caseIds : List Uuid}
    (h : newCaseIds c s payload plan = .ok caseIds) (hnodup : plan.caseIds.Nodup) :
    caseIds.Nodup := by
  unfold newCaseIds at h
  split at h
  · obtain rfl := pure_eq_ok.mp h
    exact hnodup
  · obtain ⟨_, -, h⟩ := bind_eq_ok.mp h
    obtain ⟨_, hcases, h⟩ := bind_eq_ok.mp h
    obtain rfl := pure_eq_ok.mp h
    exact validateCases_ok hcases

/-- Only drafts are edited, and they stay drafts. -/
theorem update_ok {payload : TestPlanUpdate} (h : update c s planId payload = .ok (s', plan)) :
    ∃ old, s.testPlans.get? planId = some old ∧ old.status = .draft ∧ plan.id = old.id
      ∧ plan.projectId = old.projectId ∧ plan.status = .draft
      ∧ (old.caseIds.Nodup → plan.caseIds.Nodup)
      ∧ s' = { s with testPlans := s.testPlans.put plan } := by
  obtain ⟨old, hget, h⟩ := bind_eq_ok.mp h
  obtain ⟨hdraft, h⟩ := refuse_bind_eq_ok.mp h
  obtain ⟨caseIds, hcases, h⟩ := bind_eq_ok.mp h
  obtain ⟨hs, rfl⟩ := Prod.mk.inj (pure_eq_ok.mp h)
  have hstatus : old.status = .draft := not_not.mp hdraft
  exact ⟨old, demand_eq_ok.mp hget, hstatus, rfl, rfl, hstatus, newCaseIds_ok hcases, hs.symm⟩

/-- A plan goes to ready in an active project, and back when it has no execution. -/
theorem checkTransition_ok {target : TestPlanStatus} {u : Unit}
    (h : checkTransition c s plan target = .ok u) :
    plan.status = .draft ∧ target = .ready ∧ s.ActiveProject plan.projectId
      ∨ plan.status = .ready ∧ target = .draft
        ∧ ∀ execution ∈ s.executions.rows, execution.planId ≠ plan.id := by
  obtain ⟨hallowed, h⟩ := refuse_bind_eq_ok.mp h
  dsimp only at h
  have hmove : plan.status = .draft ∧ target = .ready ∨ plan.status = .ready ∧ target = .draft := by
    rw [not_not] at hallowed
    unfold userTransitions at hallowed
    split at hallowed
    · next hdraft => exact .inl ⟨hdraft, List.mem_singleton.mp hallowed⟩
    · next hready => exact .inr ⟨hready, List.mem_singleton.mp hallowed⟩
    all_goals exact absurd hallowed (List.not_mem_nil)
  rcases hmove with ⟨hstatus, rfl⟩ | ⟨hstatus, rfl⟩
  · rw [if_pos rfl] at h
    obtain ⟨_, hactive, h⟩ := bind_eq_ok.mp h
    exact .inl ⟨hstatus, rfl, QaStore.activeProject_of_ok hactive⟩
  · rw [if_neg (by decide), if_pos rfl] at h
    have hnone := refuse_eq_ok.mp h
    exact .inr ⟨hstatus, rfl, fun execution hexecution hplan =>
      hnone ⟨execution, hexecution, hplan⟩⟩

theorem transition_ok {target : TestPlanStatus}
    (h : transition c s planId target = .ok (s', plan)) :
    s' = s ∨ ∃ old u, s.testPlans.get? planId = some old
      ∧ checkTransition c s old target = .ok u
      ∧ s' = { s with testPlans := s.testPlans.put (withStatus c.now target old) } := by
  obtain ⟨old, hget, h⟩ := bind_eq_ok.mp h
  split at h
  · exact .inl (Prod.mk.inj (pure_eq_ok.mp h)).1.symm
  · obtain ⟨u, hcheck, h⟩ := bind_eq_ok.mp h
    obtain ⟨again, hagain, hwritten⟩ := bind_eq_ok.mp h
    have hold := demand_eq_ok.mp hget
    have hid : old.id = planId := Table.key_of_get? hold
    have hsame : some again = some old := by
      rw [← demand_eq_ok.mp hagain, hid, hold]
    obtain rfl := Option.some.inj hsame
    exact .inr ⟨again, u, hold, hcheck, (Prod.mk.inj (pure_eq_ok.mp hwritten)).1.symm⟩

theorem delete_ok {id : Uuid} (h : delete s planId = .ok (s', id)) :
    ∃ old, s.testPlans.get? planId = some old
      ∧ (∀ execution ∈ s.executions.rows, execution.planId ≠ old.id)
      ∧ s' = { s with testPlans := s.testPlans.erase old.id } := by
  obtain ⟨old, hget, h⟩ := bind_eq_ok.mp h
  obtain ⟨-, h⟩ := refuse_bind_eq_ok.mp h
  obtain ⟨hnone, h⟩ := refuse_bind_eq_ok.mp h
  exact ⟨old, demand_eq_ok.mp hget,
    fun execution hexecution hplan => hnone ⟨execution, hexecution, hplan⟩,
    (Prod.mk.inj (pure_eq_ok.mp h)).1.symm⟩

end TestPlanService

end

/-! ## Executions -/

section
variable {c : Context} {s s' : QaStore} {executionId : Uuid} {execution : TestExecution}

namespace ExecutionService

theorem mapM_newResult_ok {caseIds : List Uuid} {results : List CaseExecutionResult}
    (h : caseIds.mapM (newResult s) = .ok results) : results.map (·.caseId) = caseIds := by
  induction caseIds generalizing results with
  | nil =>
    obtain rfl := pure_eq_ok.mp h
    rfl
  | cons caseId caseIds ih =>
    rw [List.mapM_cons] at h
    obtain ⟨result, hresult, h⟩ := bind_eq_ok.mp h
    obtain ⟨rest, hrest, h⟩ := bind_eq_ok.mp h
    obtain rfl := pure_eq_ok.mp h
    obtain ⟨testCase, hget, h⟩ := bind_eq_ok.mp hresult
    obtain rfl := pure_eq_ok.mp h
    have hid : testCase.id = caseId := Table.key_of_get? (demand_eq_ok.mp hget)
    rw [List.map_cons, ih hrest]
    exact congrArg (· :: caseIds) hid

theorem create_ok {planId : UuidText} (h : create c s planId = .ok (s', execution)) :
    ∃ plan results, s.testPlans.get? plan.id = some plan ∧ s.ActiveProject plan.projectId
      ∧ plan.status = .ready ∧ (∀ other ∈ s.executions.rows, other.planId ≠ plan.id)
      ∧ results.map (·.caseId) = plan.caseIds
      ∧ s' = { s with executions := s.executions.add (createdExecution c plan results) } := by
  obtain ⟨planId, -, h⟩ := bind_eq_ok.mp h
  obtain ⟨plan, hget, h⟩ := bind_eq_ok.mp h
  obtain ⟨_, hactive, h⟩ := bind_eq_ok.mp h
  obtain ⟨hready, h⟩ := refuse_bind_eq_ok.mp h
  obtain ⟨hnone, h⟩ := refuse_bind_eq_ok.mp h
  obtain ⟨results, hresults, h⟩ := bind_eq_ok.mp h
  have hplan := demand_eq_ok.mp hget
  have hid : plan.id = planId := Table.key_of_get? hplan
  exact ⟨plan, results, hid ▸ hplan, QaStore.activeProject_of_ok hactive, not_not.mp hready,
    fun other hother hsame => hnone ⟨other, hother, hsame⟩, mapM_newResult_ok hresults,
    (Prod.mk.inj (pure_eq_ok.mp h)).1.symm⟩

/-- Which transitions are made. -/
theorem checkTransition_ok {target : ExecutionStatus} {u : Unit}
    (h : checkTransition s execution target = .ok u) :
    target = .running ∧ execution.status = .created
      ∨ target = .completed ∧ execution.status = .running
        ∧ (∀ result ∈ execution.results, result.status ≠ .notRun)
      ∨ target = .cancelled ∧ execution.status.IsActive := by
  cases target with
  | created => cases h
  | running =>
    obtain ⟨hcreated, -⟩ := refuse_bind_eq_ok.mp h
    exact .inl ⟨rfl, not_not.mp hcreated⟩
  | completed =>
    obtain ⟨hrunning, h⟩ := refuse_bind_eq_ok.mp h
    have hrun := refuse_eq_ok.mp h
    exact .inr (.inl ⟨rfl, not_not.mp hrunning,
      fun result hresult hnot => hrun ⟨result, hresult, hnot⟩⟩)
  | cancelled =>
    have hactive := refuse_eq_ok.mp h
    refine .inr (.inr ⟨rfl, ?_⟩)
    unfold ExecutionStatus.IsActive
    by_contra hneither
    exact hactive (not_or.mp hneither)

/-- What a transition finds when it goes on to its writes. -/
theorem prepareTransition_ok {target : ExecutionStatus} {plan : TestPlan}
    (h : prepareTransition s executionId target = .ok (execution, some plan)) :
    s.executions.get? executionId = some execution ∧ execution.status ≠ target
      ∧ s.testPlans.get? execution.planId = some plan
      ∧ ∃ u, checkTransition s execution target = .ok u := by
  obtain ⟨found, hget, h⟩ := bind_eq_ok.mp h
  split at h
  · cases (Prod.mk.inj (pure_eq_ok.mp h)).2
  · next hother =>
    obtain ⟨u, hcheck, h⟩ := bind_eq_ok.mp h
    obtain ⟨planned, hplan, h⟩ := bind_eq_ok.mp h
    obtain ⟨rfl, hsome⟩ := Prod.mk.inj (pure_eq_ok.mp h)
    obtain rfl := Option.some.inj hsome
    exact ⟨demand_eq_ok.mp hget, hother, demand_eq_ok.mp hplan, u, hcheck⟩

/-- Without a failure both rows are written, or none. -/
theorem transition_cases (c : Context) (s : QaStore) (executionId : Uuid)
    (target : ExecutionStatus) :
    (transition c s executionId target .done .done).1 = s
      ∨ ∃ execution plan, prepareTransition s executionId target = .ok (execution, some plan)
        ∧ (transition c s executionId target .done .done).1 = { s with
            testPlans := s.testPlans.put (TestPlanService.withStatus c.now (planStatus target) plan)
            executions := s.executions.put (withStatus c.now target execution) } := by
  unfold transition
  cases hprepare : prepareTransition s executionId target with
  | error e => exact .inl rfl
  | ok result =>
    obtain ⟨execution, plan⟩ := result
    cases plan with
    | none => exact .inl rfl
    | some plan => exact .inr ⟨execution, plan, rfl, rfl⟩

theorem updateCaseResult_ok {caseId : Uuid} {status : CaseResultStatus}
    {actualResult comment : String}
    (h : updateCaseResult c s executionId caseId status actualResult comment
      = .ok (s', execution)) :
    ∃ old, s.executions.get? executionId = some old ∧ old.status = .running
      ∧ execution.id = old.id ∧ execution.planId = old.planId
      ∧ execution.projectId = old.projectId ∧ execution.status = .running
      ∧ execution.results.map (·.caseId) = old.results.map (·.caseId)
      ∧ s' = { s with executions := s.executions.put execution } := by
  obtain ⟨old, hget, h⟩ := bind_eq_ok.mp h
  obtain ⟨hrunning, h⟩ := refuse_bind_eq_ok.mp h
  obtain ⟨-, h⟩ := refuse_bind_eq_ok.mp h
  dsimp only at h
  obtain ⟨-, h⟩ := refuse_bind_eq_ok.mp h
  obtain ⟨hs, rfl⟩ := Prod.mk.inj (pure_eq_ok.mp h)
  have hstatus : old.status = .running := not_not.mp hrunning
  refine ⟨old, demand_eq_ok.mp hget, hstatus, rfl, rfl, rfl, hstatus, ?_, hs.symm⟩
  show (old.results.map _).map _ = _
  rw [List.map_map]
  refine List.map_congr_left fun result _ => ?_
  by_cases hcase : result.caseId = caseId
  · simp [hcase, recorded]
  · simp [hcase]

theorem delete_ok {id : Uuid} (h : delete s executionId = .ok (s', id)) :
    ∃ old, s.executions.get? executionId = some old
      ∧ s' = { s with executions := s.executions.erase old.id } := by
  obtain ⟨old, hget, h⟩ := bind_eq_ok.mp h
  obtain ⟨-, h⟩ := refuse_bind_eq_ok.mp h
  obtain ⟨-, h⟩ := refuse_bind_eq_ok.mp h
  exact ⟨old, demand_eq_ok.mp hget, (Prod.mk.inj (pure_eq_ok.mp h)).1.symm⟩

end ExecutionService

end

/-! ## Defects -/

section
variable {c : Context} {s : QaStore}

namespace DefectService

/-- The store with an event about a defect, and the defects as they are given. -/
def Audited (s s' : QaStore) (defects : Table Defect) (defectId : Uuid)
    (changes : List (String × AuditChange)) : Prop :=
  ∃ event : AuditEvent, event.entityType = "defect" ∧ event.entityId = defectId
    ∧ event.changes = changes
    ∧ s' = { s with defects, auditEvents := s.auditEvents ++ [event] }

theorem recorded {α : Type} {defects : Table Defect} {defect : Defect} {action : AuditAction}
    {changes : List (String × AuditChange)} {comment : String} {value : α}
    (hcomment : comment.length ≤ 1000) :
    Audited s ((({ s with defects } : QaStore).recordUnlocked c.casing
      c.currentActor c.now (audit defect action changes comment) value).1) defects defect.id
      changes := by
  have hentity : IsEntityType (audit defect action changes comment).entityType := by
    show IsEntityType "defect"
    decide
  obtain ⟨event, hrecord, htype, hid, hchanges⟩ := QaStore.recordUnlocked_ok c.casing
    c.currentActor c.now hentity hcomment { s with defects } value
  rw [hrecord]
  exact ⟨event, htype, hid, hchanges, rfl⟩

/-- What a transition leaves alone, and what it makes of the timestamps. -/
structure Moves (now : Instant) (payload : DefectTransition) (defect saved : Defect) : Prop where
  id : saved.id = defect.id
  projectId : saved.projectId = defect.projectId
  status : saved.status = payload.status
  assignee : saved.assignee = defect.assignee
  assigned : payload.status = .inProgress → strip defect.assignee ≠ ""
  resolvedAt : saved.resolvedAt = match payload.status with
    | .resolved => some now
    | .reopened => none
    | _ => defect.resolvedAt
  closedAt : saved.closedAt = match payload.status with
    | .closed => some now
    | .resolved | .reopened => none
    | _ => defect.closedAt

/-- A transition touches no field but those it audits. -/
theorem moved_ok {now : Instant} {payload : DefectTransition} {defect saved : Defect}
    {fields : List DefectField} (h : moved now payload defect = .ok (saved, fields)) :
    Moves now payload defect saved ∧ ∀ field, field ∉ fields → SameField defect saved field := by
  obtain ⟨hassigned, h⟩ := refuse_bind_eq_ok.mp h
  have hassignee : payload.status = .inProgress → strip defect.assignee ≠ "" :=
    fun hprogress hblank => hassigned ⟨hprogress, hblank⟩
  dsimp only at h
  split at h
  · next hstatus =>
    obtain ⟨-, h⟩ := refuse_bind_eq_ok.mp h
    obtain ⟨rfl, rfl⟩ := Prod.mk.inj (pure_eq_ok.mp h)
    refine ⟨⟨rfl, rfl, rfl, rfl, hassignee, by rw [hstatus], by rw [hstatus]⟩,
      fun field hfield => ?_⟩
    cases field <;> first | rfl | exact absurd (by decide) hfield
  · next hstatus =>
    obtain ⟨rfl, rfl⟩ := Prod.mk.inj (pure_eq_ok.mp h)
    refine ⟨⟨rfl, rfl, rfl, rfl, hassignee, by rw [hstatus], by rw [hstatus]⟩,
      fun field hfield => ?_⟩
    cases field <;> first | rfl | exact absurd (by decide) hfield
  · next hstatus =>
    obtain ⟨-, h⟩ := refuse_bind_eq_ok.mp h
    obtain ⟨rfl, rfl⟩ := Prod.mk.inj (pure_eq_ok.mp h)
    refine ⟨⟨rfl, rfl, rfl, rfl, hassignee, by rw [hstatus], by rw [hstatus]⟩,
      fun field hfield => ?_⟩
    cases field <;> first | rfl | exact absurd (by decide) hfield
  all_goals
    next hstatus =>
    obtain ⟨rfl, rfl⟩ := Prod.mk.inj (pure_eq_ok.mp h)
    refine ⟨⟨rfl, rfl, rfl, rfl, hassignee, by rw [hstatus], by rw [hstatus]⟩,
      fun field hfield => ?_⟩
    cases field <;> first | rfl | exact absurd (by decide) hfield

theorem create_cases (c : Context) (s : QaStore) (payload : DefectCreate) :
    (create c s payload).1 = s ∨ ∃ projectId caseId executionId, s.ActiveProject projectId
      ∧ Audited s (create c s payload).1
        (s.defects.add (createdDefect c payload projectId caseId executionId)) s.defects.next
        (creationChanges c.texts
          (createdDefect c payload projectId caseId executionId s.defects.next)) := by
  unfold create
  cases hcheck : checkCreate s payload with
  | error e => exact .inl rfl
  | ok result =>
    obtain ⟨projectId, caseId, executionId⟩ := result
    obtain ⟨_, -, h⟩ := bind_eq_ok.mp hcheck
    obtain ⟨_, hactive, h⟩ := bind_eq_ok.mp h
    obtain ⟨_, -, h⟩ := bind_eq_ok.mp h
    obtain ⟨_, -, h⟩ := bind_eq_ok.mp h
    obtain ⟨_, -, h⟩ := bind_eq_ok.mp h
    obtain ⟨rfl, hpair⟩ := Prod.mk.inj (pure_eq_ok.mp h)
    obtain ⟨rfl, rfl⟩ := Prod.mk.inj hpair
    exact .inr ⟨_, _, _, QaStore.activeProject_of_ok hactive, recorded (by decide)⟩

/-- A defect that is not closed is edited; one that is being worked on keeps an assignee. -/
theorem update_cases (c : Context) (s : QaStore) (defectId : Uuid) (payload : DefectUpdate) :
    (update c s defectId payload).1 = s ∨ ∃ defect, s.defects.get? defectId = some defect
      ∧ defect.status ≠ .closed
      ∧ (defect.status = .inProgress → strip (editedDefect payload defect).assignee ≠ "")
      ∧ Audited s (update c s defectId payload).1
        (s.defects.put { editedDefect payload defect with updatedAt := c.now }) defect.id
        (changesBetween c.texts defect { editedDefect payload defect with updatedAt := c.now }
          (changedFields payload defect)) := by
  unfold update
  cases hcheck : checkUpdate s defectId payload with
  | error e => exact .inl rfl
  | ok result =>
    obtain ⟨defect, writes⟩ := result
    unfold andThen
    dsimp only
    split
    · next hwrites =>
      obtain ⟨_, hget, h⟩ := bind_eq_ok.mp hcheck
      obtain ⟨hopen, h⟩ := refuse_bind_eq_ok.mp h
      split at h
      · obtain ⟨-, hfalse⟩ := Prod.mk.inj (pure_eq_ok.mp h)
        rw [← hfalse] at hwrites
        cases hwrites
      · obtain ⟨hassignee, h⟩ := refuse_bind_eq_ok.mp h
        obtain ⟨rfl, -⟩ := Prod.mk.inj (pure_eq_ok.mp h)
        exact .inr ⟨_, demand_eq_ok.mp hget, hopen,
          fun hprogress hblank => hassignee ⟨hprogress, hblank⟩, recorded (by decide)⟩
    · exact .inl rfl

theorem transition_cases (c : Context) (s : QaStore) (defectId : Uuid)
    (payload : DefectTransition) :
    (transition c s defectId payload).1 = s ∨ ∃ defect saved fields,
      s.defects.get? defectId = some defect ∧ payload.status ∈ transitions defect.status
        ∧ s.ActiveProject defect.projectId ∧ moved c.now payload defect = .ok (saved, fields)
        ∧ Audited s (transition c s defectId payload).1 (s.defects.put saved) saved.id
          (changesBetween c.texts defect saved fields) := by
  unfold transition
  cases hcheck : checkTransition c.now s defectId payload with
  | error e => exact .inl rfl
  | ok result =>
    obtain ⟨defect, result⟩ := result
    cases result with
    | none => exact .inl rfl
    | some result =>
      obtain ⟨saved, fields⟩ := result
      obtain ⟨_, hget, h⟩ := bind_eq_ok.mp hcheck
      split at h
      · cases (Prod.mk.inj (pure_eq_ok.mp h)).2
      · obtain ⟨hallowed, h⟩ := refuse_bind_eq_ok.mp h
        obtain ⟨_, hactive, h⟩ := bind_eq_ok.mp h
        obtain ⟨_, hmoved, h⟩ := bind_eq_ok.mp h
        obtain ⟨rfl, hsome⟩ := Prod.mk.inj (pure_eq_ok.mp h)
        obtain rfl := Option.some.inj hsome
        exact .inr ⟨_, _, _, demand_eq_ok.mp hget, not_not.mp hallowed,
          QaStore.activeProject_of_ok hactive, hmoved, recorded payload.comment_short⟩

end DefectService

end

/-! ## Calls that write projects, plans or executions -/

/-- The calls that leave suites, cases and defects as they are. -/
def QaCall.OfPlans : QaCall → Prop
  | .createProject .. | .updateProject .. | .transitionProject .. | .deleteProject ..
  | .createSnapshot .. | .createPlan .. | .updatePlan .. | .transitionPlan .. | .deletePlan ..
  | .createExecution .. | .transitionExecution .. | .updateCaseResult ..
  | .deleteExecution .. => True
  | .createSuite .. | .updateSuite .. | .transitionSuite .. | .deleteSuite .. | .createCase ..
  | .updateCase .. | .transitionCase .. | .deleteCase .. | .createDefect .. | .updateDefect ..
  | .transitionDefect .. => False

namespace QaStore

/-- Suites, cases, defects and events are as they were. -/
def SameRest (s s' : QaStore) : Prop :=
  s'.testSuites = s.testSuites ∧ s'.testCases = s.testCases ∧ s'.defects = s.defects
    ∧ s'.auditEvents = s.auditEvents

theorem same_refl (s : QaStore) : SameRest s s := ⟨rfl, rfl, rfl, rfl⟩

theorem perform_plans (c : Context) (s : QaStore) {call : QaCall} (h : call.OfPlans) :
    SameRest s (s.perform c call) := by
  cases call with
  | createProject payload =>
    refine kept_cases (same_refl s) fun s' project hcreate => ?_
    obtain rfl := ProjectService.create_ok hcreate
    exact ⟨rfl, rfl, rfl, rfl⟩
  | updateProject projectId payload =>
    refine kept_cases (same_refl s) fun s' project hupdate => ?_
    obtain ⟨_, -, -, -, rfl⟩ := ProjectService.update_ok hupdate
    exact ⟨rfl, rfl, rfl, rfl⟩
  | transitionProject projectId target =>
    refine kept_cases (same_refl s) fun s' project htransition => ?_
    rcases ProjectService.transition_ok htransition with rfl | ⟨_, -, -, -, rfl, -⟩
    · exact ⟨rfl, rfl, rfl, rfl⟩
    · exact ⟨rfl, rfl, rfl, rfl⟩
  | deleteProject projectId =>
    refine kept_cases (same_refl s) fun s' id hdelete => ?_
    obtain ⟨_, -, rfl⟩ := ProjectService.delete_ok hdelete
    exact ⟨rfl, rfl, rfl, rfl⟩
  | createSnapshot projectId => exact ⟨rfl, rfl, rfl, rfl⟩
  | createPlan payload =>
    refine kept_cases (same_refl s) fun s' plan hcreate => ?_
    obtain ⟨_, _, -, -, rfl⟩ := TestPlanService.create_ok hcreate
    exact ⟨rfl, rfl, rfl, rfl⟩
  | updatePlan planId payload =>
    refine kept_cases (same_refl s) fun s' plan hupdate => ?_
    obtain ⟨_, -, -, -, -, -, -, rfl⟩ := TestPlanService.update_ok hupdate
    exact ⟨rfl, rfl, rfl, rfl⟩
  | transitionPlan planId target =>
    refine kept_cases (same_refl s) fun s' plan htransition => ?_
    rcases TestPlanService.transition_ok htransition with rfl | ⟨_, _, -, -, rfl⟩
    · exact ⟨rfl, rfl, rfl, rfl⟩
    · exact ⟨rfl, rfl, rfl, rfl⟩
  | deletePlan planId =>
    refine kept_cases (same_refl s) fun s' id hdelete => ?_
    obtain ⟨_, -, -, rfl⟩ := TestPlanService.delete_ok hdelete
    exact ⟨rfl, rfl, rfl, rfl⟩
  | createExecution planId =>
    refine kept_cases (same_refl s) fun s' execution hcreate => ?_
    obtain ⟨_, _, -, -, -, -, -, rfl⟩ := ExecutionService.create_ok hcreate
    exact ⟨rfl, rfl, rfl, rfl⟩
  | transitionExecution executionId target =>
    show SameRest s (ExecutionService.transition c s executionId target .done .done).1
    rcases ExecutionService.transition_cases c s executionId target with
      hsame | ⟨_, _, -, hmoved⟩
    · rw [hsame]
      exact ⟨rfl, rfl, rfl, rfl⟩
    · rw [hmoved]
      exact ⟨rfl, rfl, rfl, rfl⟩
  | updateCaseResult executionId caseId status actualResult comment =>
    refine kept_cases (same_refl s) fun s' execution hupdate => ?_
    obtain ⟨_, -, -, -, -, -, -, -, rfl⟩ := ExecutionService.updateCaseResult_ok hupdate
    exact ⟨rfl, rfl, rfl, rfl⟩
  | deleteExecution executionId =>
    refine kept_cases (same_refl s) fun s' id hdelete => ?_
    obtain ⟨_, -, rfl⟩ := ExecutionService.delete_ok hdelete
    exact ⟨rfl, rfl, rfl, rfl⟩
  | createSuite | updateSuite | transitionSuite | deleteSuite | createCase | updateCase
  | transitionCase | deleteCase | createDefect | updateDefect | transitionDefect =>
    exact absurd h id

end QaStore

end QaPlatform.Services
