import Mathlib.Data.List.TakeWhile
import QaPlatform.Base.Effects
import QaPlatform.Services.Models

/-!
# The audit trail

`AuditService` (`app/services/audit.py`). An event is recorded after the row it is
about has been written, in a transaction of its own: what raises here leaves the row
as it is. No caller in this project makes it raise.
-/

namespace QaPlatform.Services

/-- `USERNAME_PATTERN`. -/
def isUsername (value : String) : Bool :=
  match value.toList with
  | [] => false
  | first :: rest =>
    first.isAlpha ∧ 2 ≤ rest.length ∧ rest.length ≤ 49
      ∧ rest.all fun c => c.isAlphanum ∨ c = '_' ∨ c = '.' ∨ c = '-'

/-- Who a request is made by; only names that fit the pattern are ever stored. -/
structure ActorIdentity where
  userId : Uuid
  username : String
  username_valid : isUsername username = true

/-- How identifiers and instants are written. -/
structure Texts where
  uuid : Uuid → String
  isoformat : Instant → String

/-- The order `(created_at, str(id))`. -/
def createdBefore {α : Type} (texts : Texts) (createdAt : α → Instant) (id : α → Uuid)
    (a b : α) : Bool :=
  createdAt a < createdAt b ∨ createdAt a = createdAt b ∧ texts.uuid (id a) ≤ texts.uuid (id b)

/-- `_normalize_entity_type` of a type that is given. -/
def normalizeEntityType (casing : Casing) (value : String) : Except DomainError String := do
  let normalized := casing.lower (strip value)
  refuse (normalized = "") (.businessValidation "entity_type 不能为空")
  refuse (64 < normalized.length) (.businessValidation "entity_type 不能超过 64 个字符")
  return normalized

/-- What an audit event is recorded of. -/
structure AuditRecord where
  projectId : Uuid
  entityType : String
  entityId : Uuid
  action : AuditAction
  changes : List (String × AuditChange)
  comment : String

/-- The event of `_record_unlocked`. The 36 characters of a UUID pass the checks of
`entity_id`. -/
def auditEvent (casing : Casing) (currentActor : Option ActorIdentity) (now : Instant)
    (record : AuditRecord) : Except DomainError AuditEvent := do
  let entityType ← normalizeEntityType casing record.entityType
  let actor := strip (currentActor.elim "local-user" (·.username))
  refuse (actor = "") (.businessValidation "actor 不能为空")
  refuse (100 < actor.length) (.businessValidation "actor 不能超过 100 个字符")
  let comment := strip record.comment
  refuse (1000 < comment.length) (.businessValidation "comment 不能超过 1000 个字符")
  return { projectId := some record.projectId, entityType, entityId := record.entityId
           action := record.action, actor, actorUserId := currentActor.map (·.userId)
           changes := record.changes, comment, createdAt := now }

/-- `_record_unlocked`, at the end of an operation that returns `value`. -/
def QaStore.recordUnlocked (casing : Casing) (currentActor : Option ActorIdentity) (now : Instant)
    (record : AuditRecord) (s : QaStore) (value : α) : QaStore × Except DomainError α :=
  match auditEvent casing currentActor now record with
  | .error error => (s, .error error)
  | .ok event => ({ s with auditEvents := s.auditEvents ++ [event] }, .ok value)

/-! ## Recording -/

theorem strip_length_le (value : String) : (strip value).length ≤ value.length := by
  have hback : ∀ l : List Char, (l.dropWhile isSpace).length ≤ l.length := fun l =>
    (List.dropWhile_sublist _).length_le
  unfold strip
  rw [String.length_ofList, List.length_reverse]
  calc _ ≤ ((value.toList.dropWhile isSpace).reverse).length := hback _
    _ = (value.toList.dropWhile isSpace).length := List.length_reverse
    _ ≤ value.toList.length := hback _
    _ = value.length := String.length_toList

/-- A text with a character that is no blank is not blank. -/
theorem strip_ne_empty {value : String} {c : Char} (hmem : c ∈ value.toList)
    (hc : isSpace c = false) : strip value ≠ "" := by
  have hfront : ∀ l : List Char, c ∈ l → c ∈ l.dropWhile isSpace := by
    intro l hl
    have hsplit := List.takeWhile_append_dropWhile (p := isSpace) (l := l)
    rw [← hsplit] at hl
    rcases List.mem_append.mp hl with hblank | hrest
    · have hspace := List.mem_takeWhile_imp hblank
      rw [hc] at hspace
      cases hspace
    · exact hrest
  have hstripped : c ∈ (strip value).toList := by
    unfold strip
    rw [String.toList_ofList, List.mem_reverse]
    exact hfront _ (List.mem_reverse.mpr (hfront _ hmem))
  intro hempty
  rw [hempty] at hstripped
  cases hstripped

theorem isSpace_of_isAlpha {c : Char} (h : c.isAlpha = true) : isSpace c = false := by
  have hrange : 65 ≤ c.toNat ∧ c.toNat ≤ 90 ∨ 97 ≤ c.toNat ∧ c.toNat ≤ 122 := by
    have hletter : (c.isUpper || c.isLower) = true := h
    rcases Bool.or_eq_true_iff.mp hletter with hupper | hlower
    · have hupper : c.val ≥ 'A'.val ∧ c.val ≤ 'Z'.val := of_decide_eq_true hupper
      exact .inl hupper
    · have hlower : (decide (c.val ≥ 'a'.val) && decide (c.val ≤ 'z'.val)) = true := hlower
      obtain ⟨hlow, hhigh⟩ := Bool.and_eq_true_iff.mp hlower
      exact .inr ⟨of_decide_eq_true hlow, of_decide_eq_true hhigh⟩
  unfold isSpace
  simp only [decide_eq_false_iff_not]
  omega

/-- The name of an actor is neither blank nor too long. -/
theorem username_recorded {username : String} (h : isUsername username = true) :
    strip username ≠ "" ∧ (strip username).length ≤ 100 := by
  unfold isUsername at h
  cases hname : username.toList with
  | nil =>
    rw [hname] at h
    cases h
  | cons first rest =>
    simp only [hname, decide_eq_true_eq] at h
    obtain ⟨hfirst, -, hlength, -⟩ := h
    refine ⟨strip_ne_empty (hname ▸ List.mem_cons_self) (isSpace_of_isAlpha hfirst), ?_⟩
    have hle := strip_length_le username
    have hchars : username.length = rest.length + 1 := by
      rw [← String.length_toList, hname, List.length_cons]
    omega

/-- The types that events are recorded under. -/
def IsEntityType (value : String) : Prop :=
  value.toList.all (fun c => c.isLower ∨ c = '_') = true ∧ strip value = value ∧ value ≠ ""
    ∧ value.length ≤ 64

instance (value : String) : Decidable (IsEntityType value) := by
  unfold IsEntityType
  infer_instance

section
variable (casing : Casing) (currentActor : Option ActorIdentity) (now : Instant)
  {record : AuditRecord}

/-- An event is recorded as it is meant, when its type is one of those and its comment is short. -/
theorem auditEvent_ok (htype : IsEntityType record.entityType)
    (hcomment : record.comment.length ≤ 1000) :
    ∃ event, auditEvent casing currentActor now record = .ok event
      ∧ event.entityType = record.entityType ∧ event.entityId = record.entityId
      ∧ event.changes = record.changes := by
  obtain ⟨hlower, hstrip, hne, hlength⟩ := htype
  have hactor : strip (currentActor.elim "local-user" (·.username)) ≠ ""
      ∧ (strip (currentActor.elim "local-user" (·.username))).length ≤ 100 := by
    cases currentActor with
    | none => decide
    | some actor => exact username_recorded actor.username_valid
  have hcommentLength := strip_length_le record.comment
  have hentity : normalizeEntityType casing record.entityType = .ok record.entityType := by
    unfold normalizeEntityType
    simp only [hstrip, casing.lower_lower _ hlower]
    refine refuse_bind_eq_ok.mpr ⟨hne, ?_⟩
    exact refuse_bind_eq_ok.mpr ⟨by omega, rfl⟩
  refine ⟨{ projectId := some record.projectId, entityType := record.entityType
            entityId := record.entityId, action := record.action
            actor := strip (currentActor.elim "local-user" (·.username))
            actorUserId := currentActor.map (·.userId), changes := record.changes
            comment := strip record.comment, createdAt := now }, ?_, rfl, rfl, rfl⟩
  unfold auditEvent
  refine bind_eq_ok.mpr ⟨_, hentity, ?_⟩
  refine refuse_bind_eq_ok.mpr ⟨hactor.1, ?_⟩
  refine refuse_bind_eq_ok.mpr ⟨by omega, ?_⟩
  exact refuse_bind_eq_ok.mpr ⟨by omega, rfl⟩

/-- Recording does not raise and appends one event. -/
theorem QaStore.recordUnlocked_ok (htype : IsEntityType record.entityType)
    (hcomment : record.comment.length ≤ 1000) (s : QaStore) (value : α) :
    ∃ event : AuditEvent, s.recordUnlocked casing currentActor now record value
        = ({ s with auditEvents := s.auditEvents ++ [event] }, .ok value)
      ∧ event.entityType = record.entityType ∧ event.entityId = record.entityId
      ∧ event.changes = record.changes := by
  obtain ⟨event, hevent, hrest⟩ := auditEvent_ok casing currentActor now htype hcomment
  refine ⟨event, ?_, hrest⟩
  unfold QaStore.recordUnlocked
  rw [hevent]

end

/-! ## Orders -/

section
variable {α : Type} {texts : Texts} {createdAt : α → Instant} {id : α → Uuid}

theorem createdBefore_total (a b : α) :
    (createdBefore texts createdAt id a b || createdBefore texts createdAt id b a) = true := by
  have htexts := String.le_total (texts.uuid (id a)) (texts.uuid (id b))
  simp only [createdBefore, Bool.or_eq_true, decide_eq_true_eq]
  rcases Int.lt_trichotomy (createdAt a) (createdAt b) with hlt | heq | hgt
  · exact .inl (.inl hlt)
  · rcases htexts with hle | hle
    · exact .inl (.inr ⟨heq, hle⟩)
    · exact .inr (.inr ⟨heq.symm, hle⟩)
  · exact .inr (.inl hgt)

theorem createdBefore_trans (a b c : α) (h : createdBefore texts createdAt id a b = true)
    (h' : createdBefore texts createdAt id b c = true) :
    createdBefore texts createdAt id a c = true := by
  simp only [createdBefore, decide_eq_true_eq] at h h' ⊢
  rcases h with hlt | ⟨heq, hle⟩
  · rcases h' with hlt' | ⟨heq', -⟩
    · exact .inl (Int.lt_trans hlt hlt')
    · exact .inl (heq' ▸ hlt)
  · rcases h' with hlt' | ⟨heq', hle'⟩
    · exact .inl (heq ▸ hlt')
    · exact .inr ⟨heq.trans heq', String.le_trans hle hle'⟩

end

end QaPlatform.Services
