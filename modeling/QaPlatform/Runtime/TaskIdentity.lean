import QaPlatform.Runtime.TaskSteps

/-!
# Which task a row is

Nothing changes a task's type, idempotency key, source or fingerprint: a row stays
the row of the same task. So the lookup of `_enqueue_record` keeps the keys of a
task type unique over everything that happens to the queue.
-/

namespace QaPlatform.Runtime

/-- A row of the same task. -/
structure SameTask (t t' : AutomationTaskRecord) : Prop where
  id : t'.id = t.id
  taskType : t'.taskType = t.taskType
  idempotencyKey : t'.idempotencyKey = t.idempotencyKey
  sourceScheduleId : t'.sourceScheduleId = t.sourceScheduleId
  requestFingerprint : t'.requestFingerprint = t.requestFingerprint

namespace SameTask

theorem refl (t : AutomationTaskRecord) : SameTask t t := ⟨rfl, rfl, rfl, rfl, rfl⟩

theorem trans {a b c : AutomationTaskRecord} (h : SameTask a b) (h' : SameTask b c) :
    SameTask a c :=
  ⟨h'.id.trans h.id, h'.taskType.trans h.taskType, h'.idempotencyKey.trans h.idempotencyKey,
    h'.sourceScheduleId.trans h.sourceScheduleId,
    h'.requestFingerprint.trans h.requestFingerprint⟩

theorem of_rowStep {now : Instant} {t t' : AutomationTaskRecord}
    (h : TaskStore.RowStep now t t') : SameTask t t' := by
  rcases h with rfl | h | h
  · exact refl _
  · cases h <;> exact ⟨rfl, rfl, rfl, rfl, rfl⟩
  · cases h <;> exact ⟨rfl, rfl, rfl, rfl, rfl⟩

theorem claimed (t : AutomationTaskRecord) (workerId token : String) (leaseSeconds : Int)
    (now : Instant) : SameTask t (t.claimed workerId token leaseSeconds now) :=
  ⟨rfl, rfl, rfl, rfl, rfl⟩

end SameTask

namespace TaskStore

variable {now : Instant} {s s' : TaskStore}

/-- Every row is one from before. -/
def RowsFrom (s s' : TaskStore) : Prop :=
  ∀ t' ∈ s'.tasks.rows, ∃ t ∈ s.tasks.rows, SameTask t t'

/-- Every row lives on. -/
def RowsStay (s s' : TaskStore) : Prop :=
  ∀ k t, s.tasks.get? k = some t → ∃ t', s'.tasks.get? k = some t' ∧ SameTask t t'

theorem RowsStay.refl (s : TaskStore) : RowsStay s s := fun _ t ht => ⟨t, ht, .refl t⟩

theorem RowsStay.trans {a b c : TaskStore} (h : RowsStay a b) (h' : RowsStay b c) :
    RowsStay a c := by
  intro k t ht
  obtain ⟨t₁, ht₁, hsame₁⟩ := h k t ht
  obtain ⟨t₂, ht₂, hsame₂⟩ := h' k t₁ ht₁
  exact ⟨t₂, ht₂, hsame₁.trans hsame₂⟩

theorem Writes.rowsFrom (h : Writes (fun _ => False) now s s') : RowsFrom s s' :=
  h.forall_rows (P := fun t' => ∃ t ∈ s.tasks.rows, SameTask t t')
    (fun _ _ ⟨t, ht, hsame⟩ hrow => ⟨t, ht, hsame.trans (.of_rowStep hrow)⟩)
    (fun _ _ _ _ hfalse => hfalse.elim) fun t ht => ⟨t, ht, .refl t⟩

theorem Writes.rowsStay {ok : TaskEnqueue → Prop} (h : Writes ok now s s') : RowsStay s s' :=
  fun _ _ ht => h.get?_rel SameTask.refl SameTask.trans (fun _ _ => SameTask.of_rowStep) ht

/-- A lease is given out: the rows are the same tasks. -/
theorem Claims.rows {s₁ : TaskStore} {c : Call} (h : Claims now s s₁ s' c) :
    RowsFrom s₁ s' ∧ RowsStay s₁ s' := by
  cases h with
  | none _ _ _ _ _ _ hs =>
    subst hs
    exact ⟨fun t ht => ⟨t, ht, .refl t⟩, .refl _⟩
  | some workerId _ leaseSeconds token _ t _ ht _ hs =>
    subst hs
    refine ⟨fun t' ht' => ?_, fun k t' ht' => ?_⟩
    · rcases Table.mem_put ht' with rfl | ⟨hold, -⟩
      · exact ⟨t, Table.mem_of_get? ht, .claimed t workerId token leaseSeconds now⟩
      · exact ⟨t', hold, .refl t'⟩
    · by_cases hk : t.id = k
      · have hsame : t' = t := by
          rw [hk, ht'] at ht
          exact Option.some.inj ht
        subst hsame
        exact ⟨_, Table.get?_put_self ht' hk, .claimed t' workerId token leaseSeconds now⟩
      · exact ⟨t', by rw [← ht']; exact Table.get?_put_of_ne hk, .refl t'⟩

theorem RowsFrom.trans {a b c : TaskStore} (h : RowsFrom a b) (h' : RowsFrom b c) :
    RowsFrom a c := by
  intro t ht
  obtain ⟨t₁, ht₁, hsame₁⟩ := h' t ht
  obtain ⟨t₂, ht₂, hsame₂⟩ := h t₁ ht₁
  exact ⟨t₂, ht₂, hsame₂.trans hsame₁⟩

/-- One task for a type and an idempotency key. -/
def KeysUnique (s : TaskStore) : Prop :=
  ∀ t ∈ s.tasks.rows, ∀ t' ∈ s.tasks.rows, t.taskType = t'.taskType →
    ∀ k, t.idempotencyKey = some k → t'.idempotencyKey = some k → t.id = t'.id

theorem RowsFrom.keysUnique (h : RowsFrom s s') (hs : s.KeysUnique) : s'.KeysUnique := by
  intro t ht t' ht' htype k hk hk'
  obtain ⟨t₁, ht₁, hsame₁⟩ := h t ht
  obtain ⟨t₂, ht₂, hsame₂⟩ := h t' ht'
  rw [hsame₁.id, hsame₂.id]
  refine hs t₁ ht₁ t₂ ht₂ ?_ k (hsame₁.idempotencyKey ▸ hk) (hsame₂.idempotencyKey ▸ hk')
  rw [← hsame₁.taskType, htype, hsame₂.taskType]

variable {taskTypes : List String} {render : Rendering} {payload : TaskEnqueue}
  {source : Option Uuid} {t : AutomationTaskRecord} {replayed : Bool}

/-- Every row after an enqueue is one from before or the task of the request. -/
theorem enqueueRecord_mem
    (h : s.enqueueRecord taskTypes render payload source now = .ok (s', t, replayed))
    {t' : AutomationTaskRecord} (ht' : t' ∈ s'.tasks.rows) :
    t' ∈ s.tasks.rows
    ∨ t' = t ∧ t.taskType = payload.taskType ∧ t.idempotencyKey = payload.idempotencyKey
      ∧ t.sourceScheduleId = source ∧ t.id = s.tasks.next
      ∧ ∀ k, payload.idempotencyKey = some k → ∀ r ∈ s.tasks.rows,
        ¬ (r.taskType = payload.taskType ∧ r.idempotencyKey = some k) := by
  rcases enqueueRecord_ok h with ⟨-, rfl, -⟩ | ⟨-, fingerprint, rfl, hfresh, -, rfl⟩
  · exact .inl ht'
  · rcases mem_addTask ht' with hold | rfl
    · exact .inl hold
    · exact .inr ⟨rfl, rfl, rfl, rfl, rfl, hfresh⟩

theorem enqueueRecord_keysUnique
    (h : s.enqueueRecord taskTypes render payload source now = .ok (s', t, replayed))
    (hs : s.KeysUnique) : s'.KeysUnique := by
  intro t₁ ht₁ t₂ ht₂ htype k hk₁ hk₂
  rcases enqueueRecord_mem h ht₁ with hold₁ | ⟨rfl, htype₁, hkey₁, -, -, hfresh⟩
  · rcases enqueueRecord_mem h ht₂ with hold₂ | ⟨rfl, htype₂, hkey₂, -, -, hfresh⟩
    · exact hs t₁ hold₁ t₂ hold₂ htype k hk₁ hk₂
    · exact absurd ⟨htype.trans htype₂, hk₁⟩ (hfresh k (hkey₂ ▸ hk₂) t₁ hold₁)
  · rcases enqueueRecord_mem h ht₂ with hold₂ | ⟨rfl, -⟩
    · exact absurd ⟨htype.symm.trans htype₁, hk₂⟩ (hfresh k (hkey₁ ▸ hk₁) t₂ hold₂)
    · rfl

theorem enqueueRecord_rowsStay
    (h : s.enqueueRecord taskTypes render payload source now = .ok (s', t, replayed)) :
    RowsStay s s' := by
  have hwrites : Writes (fun _ => True) now s s' := enqueueRecord_writes trivial h
  exact hwrites.rowsStay

/-- A method either leaves the same tasks, or it is an enqueue. -/
theorem call_rows {c : Call} (h : s.call taskTypes render now c = .ok s') :
    RowsStay s s' ∧ (RowsFrom s s' ∨ ∃ payload t replayed,
      s.enqueueRecord taskTypes render payload none now = .ok (s', t, replayed)) := by
  have hstay : RowsStay s s' := by
    have hany : c.Enqueues fun _ => True := fun _ _ => trivial
    rcases call_cases hany h with ⟨hwrites, -⟩ | ⟨s₁, hwrites, hclaims⟩
    · exact hwrites.rowsStay
    · exact hwrites.rowsStay.trans hclaims.rows.2
  refine ⟨hstay, ?_⟩
  by_cases hc : ∃ payload, c = .enqueueTask payload
  · obtain ⟨payload, rfl⟩ := hc
    obtain ⟨⟨s₁, t, replayed⟩, hcall, rfl⟩ := map_eq_ok.mp h
    unfold enqueueTask at hcall
    obtain ⟨-, hcall⟩ := refuse_bind_eq_ok.mp hcall
    obtain ⟨-, hcall⟩ := refuse_bind_eq_ok.mp hcall
    exact .inr ⟨payload, t, replayed, hcall⟩
  · have hnone : c.Enqueues fun _ => False := fun payload hp => hc ⟨payload, hp⟩
    rcases call_cases hnone h with ⟨hwrites, -⟩ | ⟨s₁, hwrites, hclaims⟩
    · exact .inl hwrites.rowsFrom
    · exact .inl (hwrites.rowsFrom.trans hclaims.rows.1)

/-- The size limit is all that a document can fail on. -/
theorem jsonFingerprint_eq_ok {encoded : Json} {fingerprint : Digest Json} :
    jsonFingerprint encoded = .ok fingerprint
      ↔ ¬ 262144 < encoded.utf8ByteSize ∧ fingerprint = ⟨encoded⟩ := by
  unfold jsonFingerprint
  rw [refuse_bind_eq_ok, pure_eq_ok]
  exact and_congr_right fun _ => eq_comm

/-- What a request has to be to be enqueued, and the document that its task keeps. -/
theorem enqueueRecord_accepted
    (h : s.enqueueRecord taskTypes render payload source now = .ok (s', t, replayed)) :
    payload.taskType ∈ taskTypes ∧ ¬ 262144 < (payload.request render source).utf8ByteSize
      ∧ t.requestFingerprint = ⟨payload.request render source⟩ := by
  have hbody := h
  unfold enqueueRecord at hbody
  obtain ⟨htype, hbody⟩ := refuse_bind_eq_ok.mp hbody
  obtain ⟨fingerprint, hfingerprint, hbody⟩ := bind_eq_ok.mp hbody
  obtain ⟨hsize, rfl⟩ := jsonFingerprint_eq_ok.mp hfingerprint
  refine ⟨not_not.mp htype, hsize, ?_⟩
  split at hbody
  · obtain ⟨hsame, hbody⟩ := refuse_bind_eq_ok.mp hbody
    obtain ⟨-, hrest⟩ := Prod.mk.inj (pure_eq_ok.mp hbody)
    obtain ⟨rfl, -⟩ := Prod.mk.inj hrest
    exact not_not.mp hsame
  · obtain ⟨s₁, -, hbody⟩ := bind_eq_ok.mp hbody
    obtain ⟨-, hrest⟩ := Prod.mk.inj (pure_eq_ok.mp hbody)
    obtain ⟨rfl, -⟩ := Prod.mk.inj hrest
    rfl

/-- Wake-ups refer to tasks that are there. -/
def OutboxRefers (s : TaskStore) : Prop := ∀ r ∈ s.outbox.rows, r.taskId < s.tasks.next

theorem Write.outboxRefers {ok : TaskEnqueue → Prop} (h : Write ok now s s')
    (hs : s.OutboxRefers) : s'.OutboxRefers := by
  have hwakeup {task : AutomationTaskRecord} {r : AutomationTaskWakeupOutboxRecord} {next : Nat}
      (hnext : s.tasks.next ≤ next) (htask : task.id < next)
      (hr : r ∈ (s.addWakeup task now).rows) : r.taskId < next := by
    rcases Table.mem_add hr with hold | rfl
    · exact (hs r hold).trans_le hnext
    · exact htask
  cases h with
  | move => exact hs
  | wait ht hwait hnew =>
    intro r hr
    have hid := Table.lt_next_of_get? ht
    rw [← hwait.id_eq] at hid
    exact hwakeup le_rfl hid hr
  | insert payload fingerprint source hok hnew =>
    intro r hr
    exact hwakeup (Nat.le_succ _) (Nat.lt_succ_self _) hr

theorem Writes.outboxRefers {ok : TaskEnqueue → Prop} (h : Writes ok now s s')
    (hs : s.OutboxRefers) : s'.OutboxRefers := by
  induction h with
  | refl => exact hs
  | tail _ hwrite ih => exact hwrite.outboxRefers ih

theorem enqueueRecord_outboxRefers
    (h : s.enqueueRecord taskTypes render payload source now = .ok (s', t, replayed))
    (hs : s.OutboxRefers) : s'.OutboxRefers := by
  have hwrites : Writes (fun _ => True) now s s' := enqueueRecord_writes trivial h
  exact hwrites.outboxRefers hs

theorem call_outboxRefers {c : Call} (h : s.call taskTypes render now c = .ok s')
    (hs : s.OutboxRefers) : s'.OutboxRefers := by
  have hany : c.Enqueues fun _ => True := fun _ _ => trivial
  rcases call_cases hany h with ⟨hwrites, -⟩ | ⟨s₁, hwrites, hclaims⟩
  · exact hwrites.outboxRefers hs
  · have hs₁ := hwrites.outboxRefers hs
    cases hclaims with
    | none _ _ _ _ _ _ hsame =>
      subst hsame
      exact hs₁
    | some _ _ _ _ _ _ _ _ _ hput =>
      subst hput
      exact hs₁

/-- A request that fits and whose key is free is enqueued. -/
theorem enqueueRecord_new (hs : s.OutboxRefers) (htype : payload.taskType ∈ taskTypes)
    (hsize : ¬ 262144 < (payload.request render source).utf8ByteSize)
    (hfree : ∀ k, payload.idempotencyKey = some k → ∀ r ∈ s.tasks.rows,
      ¬ (r.taskType = payload.taskType ∧ r.idempotencyKey = some k)) :
    ∃ s' t, s.enqueueRecord taskTypes render payload source now = .ok (s', t, false) := by
  have hnone : (payload.idempotencyKey.bind fun idempotencyKey => s.tasks.rows.find? fun r =>
      r.taskType = payload.taskType ∧ r.idempotencyKey = some idempotencyKey) = none := by
    rw [Option.bind_eq_none_iff]
    intro k hk
    rw [List.find?_eq_none]
    intro r hr
    simpa using hfree k hk r hr
  have hnew : TaskStore.Unannounced
      { s with tasks := s.addTask payload ⟨payload.request render source⟩ source now }
      (enqueuedTask payload ⟨payload.request render source⟩ source now s.tasks.next) := by
    rintro r hr ⟨htask, -⟩
    exact absurd htask (Nat.ne_of_lt (hs r hr))
  unfold enqueueRecord
  rw [hnone]
  refine ⟨_, _, refuse_bind_eq_ok.mpr ⟨not_not.mpr htype, bind_eq_ok.mpr
    ⟨_, jsonFingerprint_eq_ok.mpr ⟨hsize, rfl⟩, bind_eq_ok.mpr
      ⟨_, addTaskWakeupOutbox_eq_ok.mpr ⟨hnew, rfl⟩, rfl⟩⟩⟩⟩

end TaskStore

end QaPlatform.Runtime
