import QaPlatform.Base.Replay
import QaPlatform.Services.Calls

/-!
# The life of a defect and its audit trail

What the timestamps and the assignee of a defect say about its status, and that the
events about a defect, replayed, give every audited field.

The two halves need the same step lemma for each call that writes a defect: which fields it
changes, and that its event names these with their values before and after. An edit touches no
field but those it audits (`same_of_not_changed`), so a replay of the events about a defect
gives every audited field (`Told`). Events about suites tell nothing of defects.
-/

namespace QaPlatform.Services

namespace DefectService

/-- What the status of a defect says. -/
structure WellTimed (defect : Defect) : Prop where
  resolvedAt : defect.resolvedAt.isSome = true ↔
    defect.status = .resolved ∨ defect.status = .verified ∨ defect.status = .closed
  closedAt : defect.closedAt.isSome = true ↔ defect.status = .closed
  assigned : defect.status = .inProgress → strip defect.assignee ≠ ""

theorem wellTimed_created (c : Context) (payload : DefectCreate) (projectId : Uuid)
    (caseId executionId : Option Uuid) (id : Uuid) :
    WellTimed (createdDefect c payload projectId caseId executionId id) where
  resolvedAt := ⟨fun h => (nomatch h), fun h => by rcases h with h | h | h <;> cases h⟩
  closedAt := ⟨fun h => (nomatch h), fun h => (nomatch h)⟩
  assigned := fun h => nomatch h

/-- An edit leaves the status and the timestamps. -/
theorem WellTimed.edited {defect : Defect} (h : WellTimed defect) (now : Instant)
    (payload : DefectUpdate)
    (hassigned : defect.status = .inProgress → strip (editedDefect payload defect).assignee ≠ "") :
    WellTimed { editedDefect payload defect with updatedAt := now } :=
  ⟨h.resolvedAt, h.closedAt, hassigned⟩

theorem WellTimed.moved {defect saved : Defect} {now : Instant} {payload : DefectTransition}
    (h : WellTimed defect) (hallowed : payload.status ∈ transitions defect.status)
    (hmoves : Moves now payload defect saved) : WellTimed saved := by
  have hassigned : saved.status = .inProgress → strip saved.assignee ≠ "" := by
    rw [hmoves.status, hmoves.assignee]
    exact hmoves.assigned
  suffices htimes : (saved.resolvedAt.isSome = true ↔
      payload.status = .resolved ∨ payload.status = .verified ∨ payload.status = .closed)
      ∧ (saved.closedAt.isSome = true ↔ payload.status = .closed) by
    rw [← hmoves.status] at htimes
    exact ⟨htimes.1, htimes.2, hassigned⟩
  rw [hmoves.resolvedAt, hmoves.closedAt]
  have hresolved := h.resolvedAt
  have hclosed := h.closedAt
  -- every edge of the transition table
  cases hfrom : defect.status <;> cases hto : payload.status <;>
    simp_all [transitions]

/-- Equal fields are written alike. -/
theorem auditValue_same (texts : Texts) {before after : Defect} {field : DefectField}
    (h : SameField before after field) :
    auditValue texts before field = auditValue texts after field := by
  cases field <;> simp only [SameField] at h <;> simp only [auditValue, h]

/-- An edit keeps the fields that its payload does not set. -/
theorem set_or_same (payload : DefectUpdate) (defect : Defect) (field : DefectField) :
    field ∈ setFields payload ∨ SameField defect (editedDefect payload defect) field := by
  cases field with
  | title => cases h : payload.title <;> simp [setFields, SameField, editedDefect, h]
  | description => cases h : payload.description <;> simp [setFields, SameField, editedDefect, h]
  | severity => cases h : payload.severity <;> simp [setFields, SameField, editedDefect, h]
  | priority => cases h : payload.priority <;> simp [setFields, SameField, editedDefect, h]
  | assignee => cases h : payload.assignee <;> simp [setFields, SameField, editedDefect, h]
  | environment => cases h : payload.environment <;> simp [setFields, SameField, editedDefect, h]
  | reproductionSteps =>
    cases h : payload.reproductionSteps <;> simp [setFields, SameField, editedDefect, h]
  | expectedResult =>
    cases h : payload.expectedResult <;> simp [setFields, SameField, editedDefect, h]
  | actualResult => cases h : payload.actualResult <;> simp [setFields, SameField, editedDefect, h]
  | projectId | caseId | executionId | status | reporter | resolution | resolvedAt | closedAt =>
    exact .inr rfl

/-- An edit changes no field but those it audits. -/
theorem same_of_not_changed {payload : DefectUpdate} {defect : Defect} {field : DefectField}
    (now : Instant) (h : field ∉ changedFields payload defect) :
    SameField defect { editedDefect payload defect with updatedAt := now } field := by
  suffices hsame : SameField defect (editedDefect payload defect) field by
    cases field <;> exact hsame
  rcases set_or_same payload defect field with hset | hsame
  · by_contra hdiffers
    exact h (List.mem_filter.mpr ⟨hset, by simpa using hdiffers⟩)
  · exact hsame

/-! ## Replays -/

/-- What the events about a defect set its fields to, oldest first. -/
def history (events : List AuditEvent) (defectId : Uuid) : List (List (String × AuditValue)) :=
  (events.filter fun event => event.entityType = "defect" ∧ event.entityId = defectId).map
    fun event => event.changes.map fun (name, change) => (name, change.after)

/-- The fields of a defect as its events tell them. -/
def replayed (events : List AuditEvent) (defectId : Uuid) : String → Option AuditValue :=
  Replay.replay (history events defectId)

/-- The events about a defect tell its fields. -/
def Told (texts : Texts) (s : QaStore) (defect : Defect) : Prop :=
  ∀ field : DefectField,
    replayed s.auditEvents defect.id field.name = some (auditValue texts defect field)

theorem replayed_about {events : List AuditEvent} {event : AuditEvent}
    (htype : event.entityType = "defect") :
    replayed (events ++ [event]) event.entityId
      = Replay.applyChanges (replayed events event.entityId)
        (event.changes.map fun (name, change) => (name, change.after)) := by
  unfold replayed history
  rw [List.filter_append, List.map_append]
  have hkept : [event].filter (fun e => e.entityType = "defect" ∧ e.entityId = event.entityId)
      = [event] := by
    simp [htype]
  rw [hkept]
  exact Replay.replay_append _ _

theorem replayed_other {events : List AuditEvent} {event : AuditEvent} {defectId : Uuid}
    (h : event.entityType = "defect" → event.entityId ≠ defectId) :
    replayed (events ++ [event]) defectId = replayed events defectId := by
  unfold replayed history
  rw [List.filter_append, List.filter_cons_of_neg (by simpa using h), List.filter_nil,
    List.append_nil]

/-- The creation of a defect tells every field. -/
theorem told_created {texts : Texts} {events : List AuditEvent} {event : AuditEvent}
    {defect : Defect} (htype : event.entityType = "defect") (hid : event.entityId = defect.id)
    (hchanges : event.changes = creationChanges texts defect) (field : DefectField) :
    replayed (events ++ [event]) defect.id field.name = some (auditValue texts defect field) := by
  rw [← hid, replayed_about htype, hchanges, creationChanges, List.map_map]
  exact Replay.applyChanges_named (fun _ _ => DefectField.name_injective) (auditValue texts defect)
    DefectField.all (fun field hfield => absurd field.mem_all hfield) field

/-- A change tells every field, when it touches no field but those it audits. -/
theorem told_changed {texts : Texts} {events : List AuditEvent} {event : AuditEvent}
    {before after : Defect} {fields : List DefectField}
    (hbefore : ∀ field : DefectField,
      replayed events after.id field.name = some (auditValue texts before field))
    (htype : event.entityType = "defect") (hid : event.entityId = after.id)
    (hchanges : event.changes = changesBetween texts before after fields)
    (hsame : ∀ field, field ∉ fields → SameField before after field) (field : DefectField) :
    replayed (events ++ [event]) after.id field.name = some (auditValue texts after field) := by
  rw [← hid, replayed_about htype, hid, hchanges, changesBetween, List.map_map]
  refine Replay.applyChanges_named (fun _ _ => DefectField.name_injective) (auditValue texts after)
    (fields.filter fun field => ¬ SameField before after field) (fun field hfield => ?_) field
  rw [hbefore field]
  have hkept : SameField before after field := by
    by_contra hdiffers
    by_cases hmem : field ∈ fields
    · exact hfield (List.mem_filter.mpr ⟨hmem, by simpa using hdiffers⟩)
    · exact hdiffers (hsame field hmem)
  exact congrArg some (auditValue_same texts hkept)

end DefectService

namespace QaStore

open DefectService

/-- Every defect is timed as its status says, and told by its events. -/
def Chronicled (texts : Texts) (s : QaStore) : Prop :=
  ∀ defect ∈ s.defects.rows, WellTimed defect ∧ Told texts s defect

section
variable {c : Context} {s s' : QaStore}

namespace Chronicled

theorem frame (h : s.Chronicled c.texts) (hdefects : s'.defects = s.defects)
    (hevents : s'.auditEvents = s.auditEvents) : s'.Chronicled c.texts := by
  unfold Chronicled Told
  rw [hdefects, hevents]
  exact h

theorem same (h : s.Chronicled c.texts) (hsame : SameRest s s') : s'.Chronicled c.texts :=
  h.frame hsame.2.2.1 hsame.2.2.2

/-- Events about suites tell nothing of defects. -/
theorem audited_suites {testSuites : Table TestSuite} (h : s.Chronicled c.texts)
    (haudited : TestSuiteService.Audited s s' testSuites) : s'.Chronicled c.texts := by
  obtain ⟨event, htype, rfl⟩ := haudited
  intro defect hmem
  obtain ⟨htimed, htold⟩ := h defect hmem
  refine ⟨htimed, fun field => ?_⟩
  have hother : event.entityType = "defect" → event.entityId ≠ defect.id := by
    intro hdefect
    rw [htype] at hdefect
    exact absurd hdefect (by decide)
  exact (congrFun (replayed_other hother) field.name).trans (htold field)

theorem createDefect (h : s.Chronicled c.texts) (payload : DefectCreate) :
    (DefectService.create c s payload).1.Chronicled c.texts := by
  rcases DefectService.create_cases c s payload with
    hsame | ⟨projectId, caseId, executionId, -, event, htype, hid, hchanges, hwritten⟩
  · rw [hsame]
    exact h
  rw [hwritten]
  intro defect hmem
  rcases @Table.mem_add _ _ _ _ (fun _ => rfl) _ hmem with hold | rfl
  · obtain ⟨htimed, htold⟩ := h defect hold
    have hlt : defect.id < s.defects.next := s.defects.bound defect hold
    refine ⟨htimed, fun field => ?_⟩
    have hother : event.entityType = "defect" → event.entityId ≠ defect.id := by
      intro _
      rw [hid]
      exact (Nat.ne_of_lt hlt).symm
    exact (congrFun (replayed_other hother) field.name).trans (htold field)
  · exact ⟨wellTimed_created c payload projectId caseId executionId _,
      told_created htype hid hchanges⟩

/-- A defect is replaced by one that its event tells. -/
theorem put_defect (h : s.Chronicled c.texts) {before after : Defect} {fields : List DefectField}
    (hmem : before ∈ s.defects.rows) (hid : after.id = before.id) (htimed : WellTimed after)
    (hsame : ∀ field, field ∉ fields → SameField before after field)
    (haudited : DefectService.Audited s s' (s.defects.put after) after.id
      (changesBetween c.texts before after fields)) : s'.Chronicled c.texts := by
  obtain ⟨event, htype, hevent, hchanges, rfl⟩ := haudited
  intro defect hdefect
  rcases Table.mem_put hdefect with rfl | ⟨hold, hne⟩
  · refine ⟨htimed, told_changed (fun field => ?_) htype hevent hchanges hsame⟩
    rw [hid]
    exact (h before hmem).2 field
  · obtain ⟨hwell, htold⟩ := h defect hold
    refine ⟨hwell, fun field => ?_⟩
    have hother : event.entityType = "defect" → event.entityId ≠ defect.id := by
      intro _ hsameId
      exact hne (hsameId.symm.trans hevent)
    exact (congrFun (replayed_other hother) field.name).trans (htold field)

theorem updateDefect (h : s.Chronicled c.texts) (defectId : Uuid) (payload : DefectUpdate) :
    (DefectService.update c s defectId payload).1.Chronicled c.texts := by
  rcases DefectService.update_cases c s defectId payload with
    hsame | ⟨defect, hget, -, hassigned, haudited⟩
  · rw [hsame]
    exact h
  · have hmem := Table.mem_of_get? hget
    refine h.put_defect hmem ?_ ?_ ?_ haudited
    · rfl
    · exact (h defect hmem).1.edited c.now payload hassigned
    · exact fun field hfield => same_of_not_changed c.now hfield

theorem transitionDefect (h : s.Chronicled c.texts) (defectId : Uuid) (payload : DefectTransition) :
    (DefectService.transition c s defectId payload).1.Chronicled c.texts := by
  rcases DefectService.transition_cases c s defectId payload with
    hsame | ⟨defect, saved, fields, hget, hallowed, -, hmoved, haudited⟩
  · rw [hsame]
    exact h
  · have hmem := Table.mem_of_get? hget
    obtain ⟨hmoves, hsame⟩ := moved_ok hmoved
    exact h.put_defect hmem hmoves.id ((h defect hmem).1.moved hallowed hmoves) hsame haudited

/-- Every call keeps the chronicle. -/
theorem perform (h : s.Chronicled c.texts) (call : QaCall) :
    (s.perform c call).Chronicled c.texts := by
  cases call with
  | createDefect payload => exact h.createDefect payload
  | updateDefect defectId payload => exact h.updateDefect defectId payload
  | transitionDefect defectId payload => exact h.transitionDefect defectId payload
  | createSuite payload =>
    show (TestSuiteService.create c s payload).1.Chronicled c.texts
    rcases TestSuiteService.create_cases c s payload with hsame | ⟨_, _, _, -, -, haudited⟩
    · rw [hsame]
      exact h
    · exact h.audited_suites haudited
  | updateSuite suiteId payload =>
    show (TestSuiteService.update c s suiteId payload).1.Chronicled c.texts
    rcases TestSuiteService.update_cases c s suiteId payload with
      hsame | ⟨_, _, -, -, -, -, -, haudited⟩
    · rw [hsame]
      exact h
    · exact h.audited_suites haudited
  | transitionSuite suiteId target =>
    show (TestSuiteService.transition c s suiteId target).1.Chronicled c.texts
    rcases TestSuiteService.transition_cases c s suiteId target with hsame | ⟨_, -, haudited⟩
    · rw [hsame]
      exact h
    · exact h.audited_suites haudited
  | deleteSuite suiteId =>
    show (TestSuiteService.delete c s suiteId).1.Chronicled c.texts
    rcases TestSuiteService.delete_cases c s suiteId with hsame | ⟨_, -, -, -, haudited⟩
    · rw [hsame]
      exact h
    · exact h.audited_suites haudited
  | createCase payload =>
    refine kept_cases h fun s' testCase hcreate => ?_
    obtain ⟨_, _, -, rfl⟩ := TestCaseService.create_ok hcreate
    exact h.frame rfl rfl
  | updateCase caseId payload =>
    refine kept_cases h fun s' testCase hupdate => ?_
    obtain ⟨_, -, -, -, -, -, -, rfl⟩ := TestCaseService.update_ok hupdate
    exact h.frame rfl rfl
  | transitionCase caseId target =>
    refine kept_cases h fun s' testCase htransition => ?_
    rcases TestCaseService.transition_ok htransition with rfl | ⟨_, -, -, -, rfl⟩
    · exact h
    · exact h.frame rfl rfl
  | deleteCase caseId =>
    refine kept_cases h fun s' id hdelete => ?_
    obtain ⟨_, -, rfl⟩ := TestCaseService.delete_ok hdelete
    exact h.frame rfl rfl
  | _ => exact h.same (perform_plans c s (by exact trivial))

end Chronicled

end

/-- Timestamps and assignees follow the status, and replays give every field, after any calls. -/
theorem defect_chronicle (casing : Casing) (texts : Texts) (es : List QaEvent) :
    let s := Transition.run (step casing texts) empty es
    ∀ defect ∈ s.defects.rows,
      (defect.resolvedAt.isSome = true ↔
        defect.status = .resolved ∨ defect.status = .verified ∨ defect.status = .closed)
      ∧ (defect.closedAt.isSome = true ↔ defect.status = .closed)
      ∧ (defect.status = .inProgress → strip defect.assignee ≠ "")
      ∧ ∀ field ∈ DefectField.all, replayed s.auditEvents defect.id field.name
        = some (auditValue texts defect field) := by
  intro s defect hmem
  have h : s.Chronicled texts :=
    Transition.invariant_run
      (fun _ e h => Chronicled.perform (c := ⟨casing, texts, e.currentActor, e.now⟩) h e.call)
      (fun _ hnone => absurd hnone List.not_mem_nil) es
  obtain ⟨htimed, htold⟩ := h defect hmem
  exact ⟨htimed.resolvedAt, htimed.closedAt, htimed.assigned, fun field _ => htold field⟩

end QaStore

end QaPlatform.Services
