import QaPlatform.Base.JsonText
import QaPlatform.Services.CachedProjects
import QaPlatform.Services.ExecutionTransitions

/-!
# Fresh reads

What a read of projects returns is what the database had not longer ago than the time to live, and
what it has now unless an invalidation has failed.

Both halves are read off `Base.CacheAside`. `Follows` makes an entry what the database had at
some moment within the time to live, whatever fails; `Exact` makes it what the database has,
until an invalidation fails. What is left to prove here is about the texts: a project that is
written is read back, and one entry of the list stands for the projects in their order.

JSON is a parameter with the law that what has been written is read; `plainJson` is an instance
of it, over which the witness fills the cache, writes, and reads again.
-/

namespace QaPlatform.Services

open CacheAside (Follows Exact)

variable {δ : Type} {queries : CachedProjectRepository δ} {s s' : QaStore} {projectId : Uuid}
  {project : Project} {key value : String}

/-! ## What the database has under a key -/

namespace CachedProjectRepository

/-- The key is that of the list or of a project, and the value is the text of what is stored. -/
def Shows (queries : CachedProjectRepository δ) (s : QaStore) (key value : String) : Prop :=
  key = listKey ∧ value = queries.listText s.projects.rows
    ∨ ∃ project ∈ s.projects.rows, key = queries.itemKey project.id
      ∧ value = queries.json.modelDumpJson project

theorem itemKey_inj {id id' : Uuid} : queries.itemKey id = queries.itemKey id' ↔ id = id' := by
  constructor
  · intro h
    exact queries.json.uuid_injective ((String.append_right_inj "qa:v1:projects:item:").mp h)
  · rintro rfl
    rfl

theorem listKey_ne_itemKey (queries : CachedProjectRepository δ) (id : Uuid) :
    listKey ≠ queries.itemKey id := by
  intro h
  have hlist : listKey = "qa:v1:projects:" ++ "all" := by decide
  have hitem : queries.itemKey id = "qa:v1:projects:" ++ ("item:" ++ queries.json.uuid id) := by
    rw [← String.append_assoc]
    rfl
  rw [hlist, hitem, String.append_right_inj] at h
  have htext := congrArg String.toList h
  simp [String.toList_append] at htext

theorem shows_listKey :
    queries.Shows s listKey value ↔ value = queries.listText s.projects.rows := by
  constructor
  · rintro (⟨-, h⟩ | ⟨project, -, hkey, -⟩)
    · exact h
    · exact absurd hkey (queries.listKey_ne_itemKey project.id)
  · exact fun h => .inl ⟨rfl, h⟩

theorem shows_itemKey : queries.Shows s (queries.itemKey projectId) value
    ↔ ∃ project, s.projects.get? projectId = some project
      ∧ value = queries.json.modelDumpJson project := by
  constructor
  · rintro (⟨hkey, -⟩ | ⟨project, hmem, hkey, hvalue⟩)
    · exact absurd hkey.symm (queries.listKey_ne_itemKey projectId)
    · obtain rfl := itemKey_inj.mp hkey
      exact ⟨project, Table.get?_key hmem, hvalue⟩
  · rintro ⟨project, hget, hvalue⟩
    have hid : project.id = projectId := Table.key_of_get? hget
    exact .inr ⟨project, Table.mem_of_get? hget, by rw [hid], hvalue⟩

/-- What is under other keys than those of a project does not depend on it. -/
theorem Shows.frame (h : queries.Shows s key value)
    (hsame : ∀ id, id ≠ projectId → s'.projects.get? id = s.projects.get? id)
    (hkey : key ∉ [listKey, queries.itemKey projectId]) : queries.Shows s' key value := by
  rw [List.mem_cons, List.mem_singleton, not_or] at hkey
  rcases h with ⟨hlist, -⟩ | ⟨project, hmem, rfl, hvalue⟩
  · exact absurd hlist hkey.1
  · have hne : project.id ≠ projectId := fun h => hkey.2 (by rw [h])
    have hget : s'.projects.get? project.id = some project :=
      (hsame project.id hne).trans (Table.get?_key hmem)
    exact .inr ⟨project, Table.mem_of_get? hget, rfl, hvalue⟩

/-- The same projects are shown alike. -/
theorem Shows.of_projects (h : queries.Shows s key value) (hsame : s'.projects = s.projects) :
    queries.Shows s' key value := by
  unfold Shows
  rw [hsame]
  exact h

theorem readList_listText (projects : List Project) :
    queries.readList (queries.listText projects) = some projects := by
  unfold readList listText
  rw [queries.json.loads_dumps]
  show (projects.map queries.json.modelDump).mapM queries.json.modelValidate = some projects
  induction projects with
  | nil => rfl
  | cons project projects ih =>
    rw [List.map_cons, List.mapM_cons, queries.json.validate_dump, ih]
    rfl

end CachedProjectRepository

/-! ## Moves -/

namespace CachedProjects

open CachedProjectRepository

/-- No invalidation is on record that has failed. -/
def DeletesSucceeded (cached : CachedProjects) : Prop :=
  .operation "invalidate" false ∉ cached.recorded

instance (cached : CachedProjects) : Decidable cached.DeletesSucceeded :=
  inferInstanceAs (Decidable (_ ∉ cached.recorded))

/-- What a part of a call does to the cache. -/
structure Moves (queries : CachedProjectRepository δ) (cached cached' : CachedProjects) : Prop where
  follows : Follows queries.Shows queries.ttl cached.toCacheAside cached'.toCacheAside
  recorded : cached'.DeletesSucceeded → cached.DeletesSucceeded
  exact : cached'.DeletesSucceeded → Exact queries.Shows cached.toCacheAside →
    Exact queries.Shows cached'.toCacheAside

variable {cached cached' cached'' : CachedProjects} {reply : CacheReply}

theorem Moves.refl (cached : CachedProjects) : Moves queries cached cached :=
  ⟨.refl _, fun h => h, fun _ h => h⟩

theorem Moves.trans (h : Moves queries cached cached') (h' : Moves queries cached' cached'')
    (hsource : cached''.source = cached'.source) : Moves queries cached cached'' where
  follows := h.follows.trans h'.follows hsource
  recorded hrecorded := h.recorded (h'.recorded hrecorded)
  exact hrecorded hexact := h'.exact hrecorded (h.exact (h'.recorded hrecorded) hexact)

theorem DeletesSucceeded.of_cons {record : CacheRecord} {records : List CacheRecord}
    {a : CacheAside QaStore String String} {a' : CacheAside QaStore String String}
    (h : DeletesSucceeded ⟨a, record :: records⟩) : DeletesSucceeded ⟨a', records⟩ :=
  fun hmem => h (List.mem_cons_of_mem record hmem)

theorem moves_recordLookup (lookup : CacheLookup) :
    Moves queries cached (recordLookup lookup cached) :=
  ⟨.refl _, .of_cons, fun _ h => h⟩

theorem moves_drop (keys : List String) : Moves queries cached (drop reply keys cached) :=
  ⟨CacheAside.follows_delete keys, .of_cons, fun _ h => h.delete keys⟩

theorem moves_store (h : queries.Shows cached.source key value) :
    Moves queries cached (queries.store reply key value cached) :=
  ⟨CacheAside.follows_set h, .of_cons, fun _ hexact => hexact.set _ h⟩

/-- A write that no key of the cache is about. -/
theorem moves_write (hsame : s'.projects = cached.source.projects) :
    Moves queries cached { cached with toCacheAside := cached.write s' } :=
  ⟨CacheAside.follows_write _ _, fun h => h,
    fun _ hexact => hexact.write fun _ _ hshows => hshows.of_projects hsame⟩

/-- A write, and the keys that it is about. -/
theorem moves_write_drop {keys : List String}
    (hsame : ∀ key value, key ∉ keys → queries.Shows cached.source key value →
      queries.Shows s' key value) :
    Moves queries cached (drop reply keys { cached with toCacheAside := cached.write s' }) where
  follows := (CacheAside.follows_write s' cached.toCacheAside).trans
    (CacheAside.follows_delete keys) CacheAside.source_delete
  recorded := .of_cons
  exact hrecorded hexact := by
    -- the record of this very invalidation
    have hsucceeded : reply.succeeded = true := by
      cases hreply : reply.succeeded with
      | true => rfl
      | false =>
        refine absurd ?_ hrecorded
        show _ ∈ CacheRecord.operation "invalidate" reply.succeeded :: cached.recorded
        rw [hreply]
        exact List.mem_cons_self
    exact hexact.write_delete (reply.honest hsucceeded) hsame

theorem moves_written {α : Type} {idOf : α → Uuid} {result : Except DomainError (QaStore × α)}
    (hframe : ∀ s' a, result = .ok (s', a) → ∀ id, id ≠ idOf a →
      s'.projects.get? id = cached.source.projects.get? id) :
    Moves queries cached (queries.written reply idOf result cached).1 := by
  cases result with
  | error e => exact .refl cached
  | ok result =>
    exact moves_write_drop fun key value hkey hshows =>
      hshows.frame (hframe result.1 result.2 rfl) hkey

/-! ## Reads -/

variable {behaviour : ReadBehaviour}

theorem moves_storeItem (hget : cached.source.projects.get? projectId = some project) :
    Moves queries cached (queries.storeItem reply project cached) := by
  apply moves_store
  have hid : project.id = projectId := Table.key_of_get? hget
  rw [hid]
  exact shows_itemKey.mpr ⟨project, hget, rfl⟩

/-- A part of a read leaves the database as it is. -/
structure Reads (queries : CachedProjectRepository δ) (cached cached' : CachedProjects) : Prop where
  moves : Moves queries cached cached'
  source : cached'.source = cached.source

theorem Reads.trans (h : Reads queries cached cached') (h' : Reads queries cached' cached'') :
    Reads queries cached cached'' :=
  ⟨h.moves.trans h'.moves h'.source, h'.source.trans h.source⟩

theorem reads_recordLookup (queries : CachedProjectRepository δ) (cached : CachedProjects)
    (lookup : CacheLookup) :
    Reads queries cached (recordLookup lookup cached) :=
  ⟨moves_recordLookup lookup, rfl⟩

theorem reads_drop (queries : CachedProjectRepository δ) (keys : List String) :
    Reads queries cached (drop reply keys cached) :=
  ⟨moves_drop keys, CacheAside.source_delete⟩

theorem reads_getStored :
    Reads queries cached (queries.getStored behaviour projectId cached).1 := by
  unfold getStored
  split
  · exact ⟨.refl cached, rfl⟩
  · next project hget => exact ⟨moves_storeItem hget, CacheAside.source_set⟩

theorem reads_get : Reads queries cached (queries.get behaviour projectId cached).1 := by
  unfold CachedProjectRepository.get
  have hlookup := reads_recordLookup queries cached
    (lookup behaviour.getFails (queries.itemKey projectId) cached)
  dsimp only
  split
  · exact hlookup.trans reads_getStored
  · split
    · exact hlookup
    · exact hlookup.trans ((reads_drop queries _).trans reads_getStored)

theorem reads_listStored : Reads queries cached (queries.listStored behaviour cached).1 :=
  ⟨moves_store (shows_listKey.mpr rfl), CacheAside.source_set⟩

theorem reads_list : Reads queries cached (queries.list behaviour cached).1 := by
  unfold CachedProjectRepository.list
  have hlookup := reads_recordLookup queries cached
    (lookup behaviour.getFails listKey cached)
  dsimp only
  split
  · exact hlookup.trans reads_listStored
  · split
    · exact hlookup
    · exact hlookup.trans ((reads_drop queries _).trans reads_listStored)

/-! ## Writes -/

section
variable {c : Context} {entity : Project} {uniqueKey : Bool} {id : Uuid}

/-- A project is written and the others stay. -/
theorem get?_put_other {projects : Table Project} (hne : id ≠ project.id) :
    (projects.put project).get? id = projects.get? id :=
  Table.get?_put_of_ne hne.symm

theorem createStored_frame (h : createStored s uniqueKey entity = .ok (s', project))
    (hne : id ≠ project.id) : s'.projects.get? id = s.projects.get? id := by
  obtain ⟨-, -, h⟩ := bind_eq_ok.mp h
  obtain ⟨projects, hinsert, h⟩ := bind_eq_ok.mp h
  obtain ⟨rfl, rfl⟩ := Prod.mk.inj (pure_eq_ok.mp h)
  exact (Table.get?_insert? (demand_eq_ok.mp hinsert) id).2.trans (if_neg hne.symm)

theorem updateStored_frame (h : updateStored s uniqueKey entity = .ok (s', project))
    (hne : id ≠ project.id) : s'.projects.get? id = s.projects.get? id := by
  obtain ⟨-, -, h⟩ := bind_eq_ok.mp h
  obtain ⟨-, -, h⟩ := bind_eq_ok.mp h
  obtain ⟨rfl, rfl⟩ := Prod.mk.inj (pure_eq_ok.mp h)
  exact get?_put_other hne

theorem get?_erase_other {projects : Table Project} (hne : id ≠ projectId) :
    (projects.erase projectId).get? id = projects.get? id :=
  (Table.get?_erase projects projectId id).trans (if_neg hne.symm)

theorem create_frame {payload : ProjectCreate}
    (h : ProjectService.create c s payload = .ok (s', project)) (hne : id ≠ project.id) :
    s'.projects.get? id = s.projects.get? id := by
  obtain ⟨-, -, h⟩ := bind_eq_ok.mp h
  obtain ⟨rfl, rfl⟩ := Prod.mk.inj (pure_eq_ok.mp h)
  exact (Table.get?_add s.projects _ (fun _ => rfl) id).trans (if_neg hne.symm)

theorem update_frame {payload : ProjectUpdate}
    (h : ProjectService.update c s projectId payload = .ok (s', project)) (hne : id ≠ project.id) :
    s'.projects.get? id = s.projects.get? id := by
  obtain ⟨_, -, -, -, rfl⟩ := ProjectService.update_ok h
  exact get?_put_other hne

theorem transition_frame {target : ProjectStatus}
    (h : ProjectService.transition c s projectId target = .ok (s', project))
    (hne : id ≠ project.id) : s'.projects.get? id = s.projects.get? id := by
  rcases ProjectService.transition_ok h with rfl | ⟨_, -, -, -, rfl, -⟩
  · rfl
  · exact get?_put_other hne

theorem delete_frame {deleted : Uuid} (h : ProjectService.delete s projectId = .ok (s', deleted))
    (hne : id ≠ deleted) : s'.projects.get? id = s.projects.get? id := by
  obtain ⟨old, -, h⟩ := bind_eq_ok.mp h
  obtain ⟨-, h⟩ := refuse_bind_eq_ok.mp h
  obtain ⟨-, h⟩ := refuse_bind_eq_ok.mp h
  obtain ⟨-, h⟩ := refuse_bind_eq_ok.mp h
  obtain ⟨-, h⟩ := refuse_bind_eq_ok.mp h
  obtain ⟨-, h⟩ := refuse_bind_eq_ok.mp h
  obtain ⟨rfl, rfl⟩ := Prod.mk.inj (pure_eq_ok.mp h)
  exact get?_erase_other hne

theorem moves_transition {target : ProjectStatus} :
    Moves queries cached
      (ProjectService.transitionCached queries c reply projectId target cached).1 := by
  unfold ProjectService.transitionCached
  split
  · exact .refl cached
  · split
    · exact .refl cached
    · exact moves_written fun s' project h id hne => transition_frame h hne

theorem moves_delete : Moves queries cached (queries.delete reply projectId cached).1 := by
  unfold CachedProjectRepository.delete
  split
  · exact moves_write_drop fun key value hkey hshows =>
      hshows.frame (fun id hne => get?_erase_other hne) hkey
  · exact .refl cached

/-- Every key that the cache may have is dropped. -/
theorem moves_clear : Moves queries cached (queries.clear reply cached) := by
  apply moves_write_drop
  intro key value hkey hshows
  rw [List.mem_cons, not_or] at hkey
  rcases hshows with ⟨hlist, -⟩ | ⟨project, hmem, hitem, -⟩
  · exact absurd hlist hkey.1
  · exact absurd (List.mem_map.mpr ⟨project, hmem, hitem.symm⟩) hkey.2

theorem moves_writeThrough (write : RepositoryWrite) :
    Moves queries cached (cached.writeThrough queries reply write) := by
  cases write with
  | create uniqueKey entity =>
    exact moves_written fun s' project h id hne => createStored_frame h hne
  | update uniqueKey entity =>
    exact moves_written fun s' project h id hne => updateStored_frame h hne
  | delete projectId => exact moves_delete
  | clear => exact moves_clear

end

end CachedProjects

/-! ## Calls of the services -/

/-- The calls that write projects. -/
def QaCall.OfProjects : QaCall → Prop
  | .createProject .. | .updateProject .. | .transitionProject .. | .deleteProject .. => True
  | _ => False

theorem TestSuiteService.Audited.projects {testSuites : Table TestSuite}
    (h : TestSuiteService.Audited s s' testSuites) : s'.projects = s.projects := by
  obtain ⟨event, -, rfl⟩ := h
  rfl

theorem DefectService.Audited.projects {defects : Table Defect} {defectId : Uuid}
    {changes : List (String × AuditChange)}
    (h : DefectService.Audited s s' defects defectId changes) : s'.projects = s.projects := by
  obtain ⟨event, -, -, -, rfl⟩ := h
  rfl

theorem QaStore.kept_projects {α : Type} {x : Except DomainError (QaStore × α)}
    (hx : ∀ s' a, x = .ok (s', a) → s'.projects = s.projects) :
    (s.kept x).projects = s.projects := by
  cases x with
  | error e => rfl
  | ok result => exact hx result.1 result.2 rfl

/-- The other calls leave the projects as they are. -/
theorem QaStore.perform_projects (c : Context) (s : QaStore) {call : QaCall}
    (h : ¬ call.OfProjects) : (s.perform c call).projects = s.projects := by
  cases call with
  | createProject | updateProject | transitionProject | deleteProject => exact absurd trivial h
  -- suites and defects write an audit row as well, the other calls their own table alone
  | createSuite payload =>
    rcases TestSuiteService.create_cases c s payload with hsame | ⟨_, _, _, -, -, haudited⟩
    · exact congrArg QaStore.projects hsame
    · exact haudited.projects
  | updateSuite suiteId payload =>
    rcases TestSuiteService.update_cases c s suiteId payload with
      hsame | ⟨_, _, -, -, -, -, -, haudited⟩
    · exact congrArg QaStore.projects hsame
    · exact haudited.projects
  | transitionSuite suiteId target =>
    rcases TestSuiteService.transition_cases c s suiteId target with hsame | ⟨_, -, haudited⟩
    · exact congrArg QaStore.projects hsame
    · exact haudited.projects
  | deleteSuite suiteId =>
    rcases TestSuiteService.delete_cases c s suiteId with hsame | ⟨_, -, -, -, haudited⟩
    · exact congrArg QaStore.projects hsame
    · exact haudited.projects
  | createCase payload =>
    refine kept_projects fun s' _ h => ?_
    obtain ⟨_, _, -, rfl⟩ := TestCaseService.create_ok h
    rfl
  | updateCase caseId payload =>
    refine kept_projects fun s' _ h => ?_
    obtain ⟨_, -, -, -, -, -, -, rfl⟩ := TestCaseService.update_ok h
    rfl
  | transitionCase caseId target =>
    refine kept_projects fun s' _ h => ?_
    rcases TestCaseService.transition_ok h with rfl | ⟨_, -, -, -, rfl⟩
    · rfl
    · rfl
  | deleteCase caseId =>
    refine kept_projects fun s' _ h => ?_
    obtain ⟨_, -, rfl⟩ := TestCaseService.delete_ok h
    rfl
  | createSnapshot projectId => rfl
  | createPlan payload =>
    refine kept_projects fun s' _ h => ?_
    obtain ⟨_, _, -, -, rfl⟩ := TestPlanService.create_ok h
    rfl
  | updatePlan planId payload =>
    refine kept_projects fun s' _ h => ?_
    obtain ⟨_, -, -, -, -, -, -, rfl⟩ := TestPlanService.update_ok h
    rfl
  | transitionPlan planId target =>
    refine kept_projects fun s' _ h => ?_
    rcases TestPlanService.transition_ok h with rfl | ⟨_, _, -, -, rfl⟩
    · rfl
    · rfl
  | deletePlan planId =>
    refine kept_projects fun s' _ h => ?_
    obtain ⟨_, -, -, rfl⟩ := TestPlanService.delete_ok h
    rfl
  | createExecution planId =>
    refine kept_projects fun s' _ h => ?_
    obtain ⟨_, _, -, -, -, -, -, rfl⟩ := ExecutionService.create_ok h
    rfl
  | transitionExecution executionId target =>
    rcases ExecutionService.transition_cases c s executionId target with
      hsame | ⟨_, _, -, hmoved⟩
    · exact congrArg QaStore.projects hsame
    · show (ExecutionService.transition c s executionId target .done .done).1.projects = s.projects
      rw [hmoved]
  | updateCaseResult executionId caseId status actualResult comment =>
    refine kept_projects fun s' _ h => ?_
    obtain ⟨_, -, -, -, -, -, -, -, rfl⟩ := ExecutionService.updateCaseResult_ok h
    rfl
  | deleteExecution executionId =>
    refine kept_projects fun s' _ h => ?_
    obtain ⟨_, -, rfl⟩ := ExecutionService.delete_ok h
    rfl
  | createDefect payload =>
    rcases DefectService.create_cases c s payload with hsame | ⟨_, _, _, -, haudited⟩
    · exact congrArg QaStore.projects hsame
    · exact haudited.projects
  | updateDefect defectId payload =>
    rcases DefectService.update_cases c s defectId payload with hsame | ⟨_, -, -, -, haudited⟩
    · exact congrArg QaStore.projects hsame
    · exact haudited.projects
  | transitionDefect defectId payload =>
    rcases DefectService.transition_cases c s defectId payload with
      hsame | ⟨_, _, _, -, -, -, -, haudited⟩
    · exact congrArg QaStore.projects hsame
    · exact haudited.projects

namespace CachedProjects

open CachedProjectRepository

variable {cached : CachedProjects} {reply : CacheReply} {c : Context}

theorem moves_perform (call : QaCall) :
    Moves queries cached (cached.perform queries c reply call) := by
  cases call with
  | createProject payload =>
    exact moves_written fun s' project h id hne => create_frame h hne
  | updateProject projectId payload =>
    exact moves_written fun s' project h id hne => update_frame h hne
  | transitionProject projectId target => exact moves_transition
  | deleteProject projectId => exact moves_written fun s' deleted h id hne => delete_frame h hne
  | _ => exact moves_write (QaStore.perform_projects c cached.source id)

theorem moves_step (queries : CachedProjectRepository δ) (casing : Casing) (texts : Texts)
    (cached : CachedProjects) (e : CacheEvent) :
    Moves queries cached (cached.step queries casing texts e) := by
  cases e with
  | pass duration => exact ⟨CacheAside.follows_wait _ _, fun h => h, fun _ h => h⟩
  | get behaviour projectId => exact reads_get.moves
  | list behaviour status => exact reads_list.moves
  | call event reply => exact moves_perform event.call
  | repositoryWrite write reply => exact moves_writeThrough write

/-! ## Answers -/

variable {behaviour : ReadBehaviour}

theorem get?_of_lookup {fails : Bool}
    (h : (CachedProjectRepository.lookup fails key cached).value = some value) :
    cached.get? key = some value := by
  unfold CachedProjectRepository.lookup at h
  split at h
  · cases h
  · exact h

theorem answer_getStored : (queries.getStored behaviour projectId cached).2
    = cached.source.projects.get? projectId := by
  unfold getStored
  split
  · next hget => exact hget.symm
  · next project hget => exact hget.symm

/-- A project comes from the database, or from its entry in no time. -/
theorem answer_get (queries : CachedProjectRepository δ) (behaviour : ReadBehaviour)
    (projectId : Uuid) (cached : CachedProjects) :
    (queries.get behaviour projectId cached).2 = cached.source.projects.get? projectId
      ∨ ∃ value, cached.get? (queries.itemKey projectId) = some value
        ∧ (queries.get behaviour projectId cached).2 = queries.json.modelValidateJson value
        ∧ (queries.get behaviour projectId cached).1.now = cached.now := by
  unfold CachedProjectRepository.get
  dsimp only
  split
  · exact .inl answer_getStored
  · next value hvalue =>
    split
    · next project hproject => exact .inr ⟨value, get?_of_lookup hvalue, hproject.symm, rfl⟩
    · refine .inl (answer_getStored.trans ?_)
      rw [(reads_drop queries _).source]
      rfl

/-- The list comes from the database, or from its entry in no time. -/
theorem answer_list (queries : CachedProjectRepository δ) (behaviour : ReadBehaviour)
    (cached : CachedProjects) :
    (queries.list behaviour cached).2 = cached.source.projects.rows
      ∨ ∃ value, cached.get? listKey = some value
        ∧ queries.readList value = some (queries.list behaviour cached).2
        ∧ (queries.list behaviour cached).1.now = cached.now := by
  unfold CachedProjectRepository.list
  dsimp only
  split
  · exact .inl rfl
  · next value hvalue =>
    split
    · next projects hprojects => exact .inr ⟨value, get?_of_lookup hvalue, hprojects, rfl⟩
    · refine .inl ?_
      show (drop _ _ _).source.projects.rows = _
      rw [(reads_drop queries _).source]
      rfl

/-! ## Runs -/

section
variable {casing : Casing} {texts : Texts} {start : CachedProjects} {es : List CacheEvent}
  {P : QaStore → Prop}

open Transition

/-- At a moment of the run, no longer ago than the time to live, the database was one of these. -/
def Lately (queries : CachedProjectRepository δ) (casing : Casing) (texts : Texts)
    (start : CachedProjects) (es : List CacheEvent) (P : QaStore → Prop) : Prop :=
  ∃ fs, fs <+: es
    ∧ (run (step queries casing texts) start fs).now
      ≤ (run (step queries casing texts) start es).now
    ∧ (run (step queries casing texts) start es).now
      ≤ (run (step queries casing texts) start fs).now + queries.ttl
    ∧ P (run (step queries casing texts) start fs).source

theorem lately_now (h : P (run (step queries casing texts) start es).source) :
    Lately queries casing texts start es P :=
  ⟨es, List.prefix_refl es, Nat.le_refl _, Nat.le_add_right _ _, h⟩

/-- What an entry says the database said lately. -/
theorem lately_of_get? {e : CacheEvent} (hempty : ∀ key, start.entries key = none)
    (hget : (run (step queries casing texts) start es).get? key = some value)
    (hnow : (step queries casing texts (run (step queries casing texts) start es) e).now
      = (run (step queries casing texts) start es).now)
    (hshows : ∀ s, queries.Shows s key value → P s) :
    Lately queries casing texts start (es ++ [e]) P := by
  obtain ⟨entry, hentry, hlast, rfl⟩ := CacheAside.get?_eq_some.mp hget
  obtain ⟨fs, hfs, hbefore, hlives, hs⟩ := CacheAside.entries_run
    (fun c e => (moves_step queries casing texts c e).follows) hempty es hentry
  unfold Lately
  rw [run_append, run_cons, run_nil, hnow]
  exact ⟨fs, hfs.trans (List.prefix_append es [e]), hbefore, Nat.le_trans hlast hlives, hshows _ hs⟩

theorem exact_run (hstart : Exact queries.Shows start.toCacheAside) (es : List CacheEvent)
    (h : (run (step queries casing texts) start es).DeletesSucceeded) :
    Exact queries.Shows (run (step queries casing texts) start es).toCacheAside := by
  have hrun : ∀ c : CachedProjects,
      (c.DeletesSucceeded → Exact queries.Shows c.toCacheAside) → ∀ e,
        (step queries casing texts c e).DeletesSucceeded →
          Exact queries.Shows (step queries casing texts c e).toCacheAside := by
    intro c hc e he
    have hmoves := moves_step queries casing texts c e
    exact hmoves.exact he (hc (hmoves.recorded he))
  exact @invariant_run _ _ (step queries casing texts)
    (fun c => c.DeletesSucceeded → Exact queries.Shows c.toCacheAside)
    (fun c e hc => hrun c hc e) start (fun _ => hstart) es h

end

end CachedProjects

/-! ## Every read -/

open CachedProjects CachedProjectRepository in
/-- What `get` and `list` return, and what they return while no invalidation has failed. -/
theorem project_reads_fresh (queries : CachedProjectRepository δ) (casing : Casing) (texts : Texts)
    (now : Nat) (source : QaStore) (es : List CacheEvent) (behaviour : ReadBehaviour)
    (projectId : Uuid) (status : Option ProjectStatus) :
    let start := CachedProjects.start now source
    let cached := Transition.run (CachedProjects.step queries casing texts) start es
    let got := ProjectService.get queries behaviour projectId cached
    let found := ProjectService.list queries behaviour status cached
    Lately queries casing texts start (es ++ [.get behaviour projectId])
        (fun s => got.2 = ProjectService.getStored s projectId)
      ∧ Lately queries casing texts start (es ++ [.list behaviour status])
        (fun s => found.2 = ProjectService.listStored s status)
      ∧ (got.1.DeletesSucceeded → got.2 = ProjectService.getStored cached.source projectId)
      ∧ (found.1.DeletesSucceeded → found.2 = ProjectService.listStored cached.source status) := by
  intro start cached got found
  have hempty : ∀ key, start.entries key = none := fun key => rfl
  have hexact (h : cached.DeletesSucceeded) : Exact queries.Shows cached.toCacheAside :=
    exact_run (CacheAside.exact_empty now source) es h
  -- an entry that shows the project gives the answer of the database
  have hitem : ∀ s value, queries.Shows s (queries.itemKey projectId) value →
      queries.json.modelValidateJson value = s.projects.get? projectId := by
    intro s value hshows
    obtain ⟨project, hget, rfl⟩ := shows_itemKey.mp hshows
    rw [queries.json.validateJson_dumpJson, hget]
  have hlist : ∀ s value, queries.Shows s listKey value →
      queries.readList value = some s.projects.rows := by
    intro s value hshows
    rw [shows_listKey.mp hshows, readList_listText]
  refine ⟨?_, ?_, fun hdeletes => ?_, fun hdeletes => ?_⟩
  · rcases answer_get queries behaviour projectId cached with hstored | ⟨value, hget, hanswer, hnow⟩
    · apply lately_now
      rw [Transition.run_append]
      show demand _ (queries.get behaviour projectId cached).2
        = demand _ ((queries.get behaviour projectId cached).1.source.projects.get? projectId)
      rw [hstored, reads_get.source]
    · refine lately_of_get? hempty hget hnow fun s hshows => ?_
      show demand _ (queries.get behaviour projectId cached).2
        = demand _ (s.projects.get? projectId)
      rw [hanswer, hitem s value hshows]
  · rcases answer_list queries behaviour cached with hstored | ⟨value, hget, hanswer, hnow⟩
    · apply lately_now
      rw [Transition.run_append]
      show ProjectService.listed status (queries.list behaviour cached).2
        = ProjectService.listed status (queries.list behaviour cached).1.source.projects.rows
      rw [hstored, reads_list.source]
    · refine lately_of_get? hempty hget hnow fun s hshows => ?_
      rw [hlist s value hshows, Option.some.injEq] at hanswer
      exact congrArg (ProjectService.listed status) hanswer.symm
  · apply congrArg (demand _)
    rcases answer_get queries behaviour projectId cached with hstored | ⟨value, hget, hanswer, -⟩
    · exact hstored
    · obtain ⟨entry, hentry, -, rfl⟩ := CacheAside.get?_eq_some.mp hget
      have hshows := hexact (reads_get.moves.recorded hdeletes) _ entry hentry
      exact hanswer.trans (hitem _ _ hshows)
  · refine congrArg (ProjectService.listed status) ?_
    rcases answer_list queries behaviour cached with hstored | ⟨value, hget, hanswer, -⟩
    · exact hstored
    · obtain ⟨entry, hentry, -, rfl⟩ := CacheAside.get?_eq_some.mp hget
      rw [hlist _ _ (hexact (reads_list.moves.recorded hdeletes) _ entry hentry),
        Option.some.injEq] at hanswer
      exact hanswer.symm

/-! ## A reading of texts -/

namespace PlainJson

open JsonText (Doc)

/-- The digits of a number. -/
def uuidText (id : Uuid) : List Char := Hex.digits (id + 1) id

theorem read_uuidText (id : Uuid) : Hex.read (uuidText id) = some id :=
  Hex.read_digits ((Nat.lt_pow_self (by decide)).trans (Nat.pow_lt_pow_succ (by decide)))

/-- The sign comes first. -/
def instantText (instant : Int) : List Char :=
  (if instant < 0 then '-' else '+') :: uuidText instant.natAbs

/-- A sign and digits. -/
def readInstant : List Char → Option Int
  | [] => none
  | sign :: digits =>
    (Hex.read digits).map fun (n : Nat) => if sign = '-' then -(n : Int) else (n : Int)

theorem read_instantText (instant : Int) : readInstant (instantText instant) = some instant := by
  unfold instantText readInstant
  simp only [read_uuidText, Option.map_some, Option.some.injEq]
  split
  · next hnegative =>
    show -(instant.natAbs : Int) = instant
    omega
  · next hnegative =>
    show (instant.natAbs : Int) = instant
    omega

/-- The text of a status. -/
def statusText : ProjectStatus → List Char
  | .active => ['a', 'c', 't', 'i', 'v', 'e']
  | .archived => ['a', 'r', 'c', 'h', 'i', 'v', 'e', 'd']

/-- The status of a text. -/
def readStatus (value : List Char) : Option ProjectStatus :=
  if value = statusText .active then some .active
  else if value = statusText .archived then some .archived
  else none

theorem read_statusText (status : ProjectStatus) :
    readStatus (statusText status) = some status := by
  cases status <;> rfl

/-- A project as an object. -/
def dump (project : Project) : Doc :=
  .object
    [("id".toList, .text (uuidText project.id)), ("key".toList, .text project.key.toList),
      ("name".toList, .text project.name.toList),
      ("description".toList, .text project.description.toList),
      ("status".toList, .text (statusText project.status)),
      ("created_at".toList, .text (instantText project.createdAt)),
      ("updated_at".toList, .text (instantText project.updatedAt))]

/-- A project from an object of the right form. -/
def validate : Doc → Option Project
  | .object [(_, .text id), (_, .text key), (_, .text name), (_, .text description),
      (_, .text status), (_, .text createdAt), (_, .text updatedAt)] => do
    let id ← Hex.read id
    let status ← readStatus status
    let createdAt ← readInstant createdAt
    let updatedAt ← readInstant updatedAt
    return { id, key := .ofList key, name := .ofList name, description := .ofList description
             status, createdAt, updatedAt }
  | _ => none

theorem validate_dump (project : Project) : validate (dump project) = some project := by
  simp [validate, dump, read_uuidText, read_statusText, read_instantText]

/-- The document of a text. -/
def read (value : String) : Option Doc := JsonText.parse value.toList

/-- The text of a document. -/
def write (doc : Doc) : String := .ofList (JsonText.render doc)

theorem read_write (doc : Doc) : read (write doc) = some doc := by
  unfold read write
  rw [String.toList_ofList, JsonText.parse_render]

/-- The values of an object, under empty names, stand for a list. -/
def loaded : Doc → LoadedJson Doc
  | .object members => .list (members.map Prod.snd)
  | _ => .other

/-- `json.loads`. -/
def loads (value : String) : Option (LoadedJson Doc) := (read value).map loaded

/-- `json.dumps` of a list. -/
def dumps (values : List Doc) : String := write (.object (values.map fun value => ([], value)))

theorem loads_dumps (values : List Doc) : loads (dumps values) = some (.list values) := by
  unfold loads dumps
  rw [read_write, Option.map_some]
  simp [loaded, Function.comp_def]

end PlainJson

/-- Projects as objects of texts. -/
def plainJson : ProjectJson JsonText.Doc where
  uuid id := .ofList (PlainJson.uuidText id)
  modelDumpJson project := PlainJson.write (PlainJson.dump project)
  modelValidateJson value := (PlainJson.read value).bind PlainJson.validate
  modelDump := PlainJson.dump
  modelValidate := PlainJson.validate
  dumps := PlainJson.dumps
  loads := PlainJson.loads
  uuid_injective := by
    intro id id' h
    have htext := congrArg (fun text => Hex.read text.toList) h
    simpa [PlainJson.read_uuidText] using htext
  validateJson_dumpJson project := by
    rw [PlainJson.read_write, Option.bind_some, PlainJson.validate_dump]
  validate_dump := PlainJson.validate_dump
  loads_dumps := PlainJson.loads_dumps

/-- A store with one project. -/
def demoStore : QaStore :=
  { QaStore.empty with projects := Table.empty.add fun id =>
      { id, key := "DEMO", name := "demo", description := "", status := .active, createdAt := 0
        updatedAt := 0 } }

/-- The cache answers at once. -/
def promptReads : ReadBehaviour :=
  ⟨false, ⟨0, true, true, fun h => h⟩, ⟨0, true, true, fun h => h⟩⟩

/-- The project and the list are read, which fills the cache; the project is renamed, which drops
them; and both are read again. -/
def demoEvents : List CacheEvent :=
  [.get promptReads 0, .list promptReads none,
    .call ⟨none, 5, .updateProject 0 ⟨some "renamed", none⟩⟩ ⟨0, true, true, fun h => h⟩,
    .get promptReads 0, .list promptReads none]

/-- The cache after these events. -/
def demoCached : CachedProjects :=
  Transition.run (CachedProjects.step ⟨plainJson, 60⟩ ExecutionService.plainCasing
    ExecutionService.plainTexts) (.start 0 demoStore) demoEvents

/-- What the filled cache answers is what is stored. -/
theorem demo_reads_fresh :
    let got := ProjectService.get ⟨plainJson, 60⟩ promptReads 0 demoCached
    let found := ProjectService.list ⟨plainJson, 60⟩ promptReads none demoCached
    got.2 = ProjectService.getStored demoCached.source 0
      ∧ found.2 = ProjectService.listStored demoCached.source none
      ∧ got.1.recorded.head? = some (.lookup "hit")
      ∧ found.1.recorded.head? = some (.lookup "hit") := by
  have h := project_reads_fresh ⟨plainJson, 60⟩ ExecutionService.plainCasing
    ExecutionService.plainTexts 0 demoStore demoEvents promptReads 0 none
  exact ⟨h.2.2.1 (by decide +kernel), h.2.2.2 (by decide +kernel), by decide +kernel,
    by decide +kernel⟩

end QaPlatform.Services
