import QaPlatform.Pipeline.Lasting

/-!
# The tables of pipeline snapshots

`SQLitePipelinePersistence` and `SQLAlchemyPipelinePersistence` of `app/pipeline/persistence.py`
over the tables of the first migration, whose columns take any text, as those of SQLite do. A
checkpoint replaces all rows in one transaction. Whatever state the service checkpoints, its rows
meet the constraints, and what is loaded from them is that state.

A SELECT gives its rows in any order, so two states are the same when their dictionaries are, in
whatever order (`Same`).

Two things are needed for the round trip. The state that is saved meets the constraints of the
tables (`Storable`), which is an invariant of the service; and loading groups the rows of the
events by their runs again. Runs are stored as JSON, of which all that is asked is that `parse`
reads back what `dump` has written for the runs of the state.
-/

namespace QaPlatform.Pipeline

/-- A row of `pipeline_runtime_runs`. -/
structure RunRow where
  id : String
  snapshotJson : String
  updatedAt : String
deriving DecidableEq

/-- A row of `pipeline_runtime_trigger_keys`. -/
structure TriggerKeyRow where
  idempotencyKey : String
  runId : String
  requestFingerprint : Digest Json
deriving DecidableEq

/-- A row of `pipeline_runtime_callback_events`. -/
structure CallbackEventRow where
  runId : String
  eventId : String
  eventFingerprint : Digest Json
deriving DecidableEq

/-- The three tables with their primary and foreign keys. -/
structure PipelineTables where
  runs : List RunRow
  triggerKeys : List TriggerKeyRow
  callbackEvents : List CallbackEventRow
  runsPk : (runs.map (·.id)).Nodup
  triggerKeysPk : (triggerKeys.map (·.idempotencyKey)).Nodup
  callbackEventsPk : (callbackEvents.map fun r => (r.runId, r.eventId)).Nodup
  triggerKeysFk : ∀ r ∈ triggerKeys, r.runId ∈ runs.map (·.id)
  callbackEventsFk : ∀ r ∈ callbackEvents, r.runId ∈ runs.map (·.id)

namespace PipelineTables

/-- The tables of a database that has just been migrated. -/
def migrated : PipelineTables where
  runs := []
  triggerKeys := []
  callbackEvents := []
  runsPk := List.nodup_nil
  triggerKeysPk := List.nodup_nil
  callbackEventsPk := List.nodup_nil
  triggerKeysFk := by simp
  callbackEventsFk := by simp

/-! ## Statements

`none` is an `IntegrityError`. -/

/-- `DELETE FROM pipeline_runtime_callback_events`. -/
def deleteCallbackEvents (t : PipelineTables) : PipelineTables :=
  { t with
    callbackEvents := []
    callbackEventsPk := List.nodup_nil
    callbackEventsFk := by simp }

/-- `DELETE FROM pipeline_runtime_trigger_keys`. -/
def deleteTriggerKeys (t : PipelineTables) : PipelineTables :=
  { t with
    triggerKeys := []
    triggerKeysPk := List.nodup_nil
    triggerKeysFk := by simp }

/-- `DELETE FROM pipeline_runtime_runs`, which cascades. -/
def deleteRuns (_ : PipelineTables) : PipelineTables := migrated

/-- `_delete_all`. -/
def deleteAll (t : PipelineTables) : PipelineTables :=
  t.deleteCallbackEvents.deleteTriggerKeys.deleteRuns

theorem nodup_concat {α β : Type} {f : α → β} {l : List α} {a : α} (h : (l.map f).Nodup)
    (ha : f a ∉ l.map f) : ((l ++ [a]).map f).Nodup := by
  rw [List.map_append, List.nodup_append]
  refine ⟨h, List.nodup_singleton _, ?_⟩
  intro b hb c hc heq
  obtain rfl : c = f a := List.mem_singleton.mp hc
  exact ha (heq ▸ hb)

/-- An INSERT into `pipeline_runtime_runs`. -/
def insertRun (t : PipelineTables) (r : RunRow) : Option PipelineTables :=
  if h : r.id ∈ t.runs.map (·.id) then none
  else
    some { t with
      runs := t.runs ++ [r]
      runsPk := nodup_concat t.runsPk h
      triggerKeysFk := by
        intro k hk
        rw [List.map_append]
        exact List.mem_append_left _ (t.triggerKeysFk k hk)
      callbackEventsFk := by
        intro k hk
        rw [List.map_append]
        exact List.mem_append_left _ (t.callbackEventsFk k hk) }

/-- An INSERT into `pipeline_runtime_trigger_keys`. -/
def insertTriggerKey (t : PipelineTables) (r : TriggerKeyRow) : Option PipelineTables :=
  if h : r.idempotencyKey ∉ t.triggerKeys.map (·.idempotencyKey) ∧ r.runId ∈ t.runs.map (·.id) then
    some { t with
      triggerKeys := t.triggerKeys ++ [r]
      triggerKeysPk := nodup_concat t.triggerKeysPk h.1
      triggerKeysFk := by
        intro k hk
        rcases List.mem_append.mp hk with hold | hnew
        · exact t.triggerKeysFk k hold
        · obtain rfl := List.mem_singleton.mp hnew
          exact h.2 }
  else none

/-- An INSERT into `pipeline_runtime_callback_events`. -/
def insertCallbackEvent (t : PipelineTables) (r : CallbackEventRow) : Option PipelineTables :=
  if h : (r.runId, r.eventId) ∉ t.callbackEvents.map (fun r => (r.runId, r.eventId))
      ∧ r.runId ∈ t.runs.map (·.id) then
    some { t with
      callbackEvents := t.callbackEvents ++ [r]
      callbackEventsPk := nodup_concat t.callbackEventsPk h.1
      callbackEventsFk := by
        intro k hk
        rcases List.mem_append.mp hk with hold | hnew
        · exact t.callbackEventsFk k hold
        · obtain rfl := List.mem_singleton.mp hnew
          exact h.2 }
  else none

/-! ## Checkpoints -/

/-- The rows of the runs; `dump` is `model_dump_json`. -/
def runRows (dump : PipelineRun → String) (checkpointedAt : String)
    (state : PipelinePersistenceState) : List RunRow :=
  state.runs.entries.map fun e => ⟨e.2.id, dump e.2, checkpointedAt⟩

/-- The rows of the trigger keys of a state. -/
def triggerRows (state : PipelinePersistenceState) : List TriggerKeyRow :=
  state.triggerKeys.entries.map fun e => ⟨e.1, e.2.1, e.2.2⟩

/-- The rows of the callback events of a state. -/
def callbackRows (state : PipelinePersistenceState) : List CallbackEventRow :=
  state.callbackEvents.entries.flatMap fun e => e.2.entries.map fun e' => ⟨e.1, e'.1, e'.2⟩

/-- `save`: one transaction, which leaves the tables as they are when it raises. -/
def save (dump : PipelineRun → String) (checkpointedAt : String)
    (state : PipelinePersistenceState) (t : PipelineTables) : Option PipelineTables := do
  let t ← (runRows dump checkpointedAt state).foldlM insertRun t.deleteAll
  let t ← (triggerRows state).foldlM insertTriggerKey t
  (callbackRows state).foldlM insertCallbackEvent t

/-- `{row["id"]: PipelineRun.model_validate_json(row["snapshot_json"]) for row in …}`. -/
def loadRuns (parse : String → Option PipelineRun) :
    List RunRow → Dict String PipelineRun → Option (Dict String PipelineRun)
  | [], runs => some runs
  | r :: rows, runs => do
    let run ← parse r.snapshotJson
    loadRuns parse rows (runs.set r.id run)

/-- `load`, from what the three queries answer. `none` is a `ValidationError`. -/
def load (parse : String → Option PipelineRun) (runRows : List RunRow)
    (triggerRows : List TriggerKeyRow) (callbackRows : List CallbackEventRow) :
    Option PipelinePersistenceState := do
  let runs ← loadRuns parse runRows .empty
  return {
    runs
    triggerKeys := Dict.empty.setAll
      (triggerRows.map fun r => (r.idempotencyKey, (r.runId, r.requestFingerprint)))
    callbackEvents := (runs.mapVals fun _ _ => Dict.empty).setAllIn
      (callbackRows.map fun r => ((r.runId, r.eventId), r.eventFingerprint)) }

end PipelineTables

namespace PipelinePersistenceState

/-- The same dictionaries, in whatever order. -/
structure Same (a b : PipelinePersistenceState) : Prop where
  runs : ∀ runId, a.runs.get? runId = b.runs.get? runId
  triggerKeys : ∀ key, a.triggerKeys.get? key = b.triggerKeys.get? key
  eventRuns : ∀ runId, runId ∈ a.callbackEvents.keys ↔ runId ∈ b.callbackEvents.keys
  events : ∀ runId eventId,
    a.callbackEvents.getIn? runId eventId = b.callbackEvents.getIn? runId eventId

/-- What the constraints of the tables ask of a state. -/
structure Storable (state : PipelinePersistenceState) : Prop where
  ids : ∀ runId run, state.runs.get? runId = some run → run.id = runId
  triggered : ∀ key runId fingerprint, state.triggerKeys.get? key = some (runId, fingerprint) →
    runId ∈ state.runs.keys
  eventRuns : ∀ runId, runId ∈ state.callbackEvents.keys ↔ runId ∈ state.runs.keys

end PipelinePersistenceState

variable {state : PipelinePersistenceState} {dump : PipelineRun → String}
  {parse : String → Option PipelineRun} {checkpointedAt : String}

/-! ## Saves succeed -/

/-- Rows with new keys are inserted one behind the other, and nothing else changes. -/
theorem foldlM_insert {σ ρ κ τ : Type} (insert : σ → ρ → Option σ) (rows : σ → List ρ) (key : ρ → κ)
    (rest : σ → τ) (ok : τ → ρ → Prop)
    (hinsert : ∀ t r, key r ∉ (rows t).map key → ok (rest t) r →
      ∃ t', insert t r = some t' ∧ rows t' = rows t ++ [r] ∧ rest t' = rest t)
    {t : σ} {l : List ρ} (hnodup : ((rows t ++ l).map key).Nodup) (hok : ∀ r ∈ l, ok (rest t) r) :
    ∃ t', l.foldlM insert t = some t' ∧ rows t' = rows t ++ l ∧ rest t' = rest t := by
  induction l generalizing t with
  | nil => exact ⟨t, rfl, (List.append_nil _).symm, rfl⟩
  | cons r l ih =>
    have hnew : key r ∉ (rows t).map key := by
      rw [List.map_append, List.map_cons] at hnodup
      intro hmem
      exact (List.nodup_append.mp hnodup).2.2 _ hmem _ List.mem_cons_self rfl
    obtain ⟨t₁, hinserted, hrows, hrest⟩ := hinsert t r hnew (hok r List.mem_cons_self)
    have happend : rows t₁ ++ l = rows t ++ r :: l := by
      rw [hrows, List.append_assoc, List.singleton_append]
    obtain ⟨t', hfold, hrows', hrest'⟩ := ih (by rw [happend]; exact hnodup)
      (fun r' hr' => by rw [hrest]; exact hok r' (List.mem_cons_of_mem _ hr'))
    refine ⟨t', ?_, hrows'.trans happend, hrest'.trans hrest⟩
    rw [List.foldlM_cons, hinserted]
    exact hfold

namespace PipelineTables

theorem insertRun_of_new (t : PipelineTables) (r : RunRow) (h : r.id ∉ t.runs.map (·.id)) :
    ∃ t', insertRun t r = some t' ∧ t'.runs = t.runs ++ [r]
      ∧ (t'.triggerKeys, t'.callbackEvents) = (t.triggerKeys, t.callbackEvents) := by
  unfold insertRun
  rw [dif_neg h]
  exact ⟨_, rfl, rfl, rfl⟩

theorem insertTriggerKey_of_new (t : PipelineTables) (r : TriggerKeyRow)
    (h : r.idempotencyKey ∉ t.triggerKeys.map (·.idempotencyKey))
    (hrun : r.runId ∈ t.runs.map (·.id)) :
    ∃ t', insertTriggerKey t r = some t' ∧ t'.triggerKeys = t.triggerKeys ++ [r]
      ∧ (t'.runs, t'.callbackEvents) = (t.runs, t.callbackEvents) := by
  unfold insertTriggerKey
  rw [dif_pos ⟨h, hrun⟩]
  exact ⟨_, rfl, rfl, rfl⟩

theorem insertCallbackEvent_of_new (t : PipelineTables) (r : CallbackEventRow)
    (h : (r.runId, r.eventId) ∉ t.callbackEvents.map (fun r => (r.runId, r.eventId)))
    (hrun : r.runId ∈ t.runs.map (·.id)) :
    ∃ t', insertCallbackEvent t r = some t' ∧ t'.callbackEvents = t.callbackEvents ++ [r]
      ∧ (t'.runs, t'.triggerKeys) = (t.runs, t.triggerKeys) := by
  unfold insertCallbackEvent
  rw [dif_pos ⟨h, hrun⟩]
  exact ⟨_, rfl, rfl, rfl⟩

end PipelineTables

namespace PipelinePersistenceState

open PipelineTables

/-- The rows of the runs have the names under which the runs are kept. -/
theorem Storable.runRows_ids (h : state.Storable) :
    (runRows dump checkpointedAt state).map (·.id) = state.runs.keys := by
  unfold runRows Dict.keys
  rw [List.map_map]
  apply List.map_congr_left
  intro e he
  exact h.ids e.1 e.2 (Dict.get?_eq_some.mpr he)

theorem triggerRows_keys (state : PipelinePersistenceState) :
    (triggerRows state).map (·.idempotencyKey) = state.triggerKeys.keys := by
  unfold triggerRows Dict.keys
  rw [List.map_map]
  rfl

theorem mem_triggerRows {r : TriggerKeyRow} : r ∈ triggerRows state
    ↔ state.triggerKeys.get? r.idempotencyKey = some (r.runId, r.requestFingerprint) := by
  rw [Dict.get?_eq_some]
  unfold triggerRows
  rw [List.mem_map]
  constructor
  · rintro ⟨e, he, rfl⟩
    exact he
  · intro h
    exact ⟨_, h, rfl⟩

theorem mem_callbackRows {r : CallbackEventRow} : r ∈ callbackRows state
    ↔ state.callbackEvents.getIn? r.runId r.eventId = some r.eventFingerprint := by
  simp only [callbackRows, List.mem_flatMap, List.mem_map, Dict.getIn?, Option.bind_eq_some_iff,
    Dict.get?_eq_some]
  constructor
  · rintro ⟨e, he, e', he', rfl⟩
    exact ⟨e.2, he, he'⟩
  · rintro ⟨events, hevents, hevent⟩
    exact ⟨_, hevents, _, hevent, rfl⟩

/-- No event of a run has two rows. -/
theorem callbackRows_nodup (state : PipelinePersistenceState) :
    ((callbackRows state).map fun r => (r.runId, r.eventId)).Nodup := by
  unfold callbackRows
  rw [List.map_flatMap, List.nodup_flatMap]
  constructor
  · intro e _
    have hevents : (e.2.entries.map fun e' => (⟨e.1, e'.1, e'.2⟩ : CallbackEventRow)).map
        (fun r => (r.runId, r.eventId)) = (e.2.entries.map Prod.fst).map (Prod.mk e.1) := by
      rw [List.map_map, List.map_map]
      rfl
    rw [hevents]
    exact e.2.nodup.map fun _ _ heq => (Prod.mk.inj heq).2
  · have hruns := state.callbackEvents.nodup
    rw [List.Nodup, List.pairwise_map] at hruns
    apply hruns.imp
    intro e e' hne
    -- the rows of two runs differ in the run
    show List.Disjoint _ _
    intro key hkey hkey'
    simp only [List.mem_map] at hkey hkey'
    obtain ⟨_, ⟨_, -, rfl⟩, rfl⟩ := hkey
    obtain ⟨_, ⟨_, -, rfl⟩, heq⟩ := hkey'
    exact hne (Prod.mk.inj heq).1.symm

/-- A state that meets the constraints is saved, whatever was stored before. -/
theorem Storable.save_ok (h : state.Storable) (dump : PipelineRun → String)
    (checkpointedAt : String) (t : PipelineTables) :
    ∃ t', save dump checkpointedAt state t = some t'
      ∧ t'.runs = runRows dump checkpointedAt state ∧ t'.triggerKeys = triggerRows state
      ∧ t'.callbackEvents = callbackRows state := by
  have hids : (runRows dump checkpointedAt state).map (·.id) = state.runs.keys := h.runRows_ids
  have hempty : t.deleteAll.runs = [] ∧ t.deleteAll.triggerKeys = []
      ∧ t.deleteAll.callbackEvents = [] := ⟨rfl, rfl, rfl⟩
  obtain ⟨t₁, hsaved₁, hruns, hrest₁⟩ := foldlM_insert insertRun (·.runs) (·.id)
    (fun t => (t.triggerKeys, t.callbackEvents)) (fun _ _ => True)
    (fun t r hnew _ => insertRun_of_new t r hnew) (t := t.deleteAll)
    (l := runRows dump checkpointedAt state)
    (by
      rw [hempty.1, List.nil_append, hids]
      exact state.runs.nodup)
    (fun _ _ => trivial)
  rw [hempty.1, List.nil_append] at hruns
  rw [hempty.2.1, hempty.2.2, Prod.mk.injEq] at hrest₁
  obtain ⟨t₂, hsaved₂, htriggers, hrest₂⟩ := foldlM_insert insertTriggerKey (·.triggerKeys)
    (·.idempotencyKey) (fun t => (t.runs, t.callbackEvents))
    (fun rest r => r.runId ∈ rest.1.map (·.id))
    (fun t r hnew hrun => insertTriggerKey_of_new t r hnew hrun) (t := t₁) (l := triggerRows state)
    (by
      rw [hrest₁.1, List.nil_append, triggerRows_keys]
      exact state.triggerKeys.nodup)
    (fun r hr => by
      show r.runId ∈ t₁.runs.map (·.id)
      rw [hruns, hids]
      exact h.triggered _ _ _ (mem_triggerRows.mp hr))
  rw [hrest₁.1, List.nil_append] at htriggers
  rw [Prod.mk.injEq, hruns, hrest₁.2] at hrest₂
  obtain ⟨t₃, hsaved₃, hevents, hrest₃⟩ := foldlM_insert insertCallbackEvent (·.callbackEvents)
    (fun r => (r.runId, r.eventId)) (fun t => (t.runs, t.triggerKeys))
    (fun rest r => r.runId ∈ rest.1.map (·.id))
    (fun t r hnew hrun => insertCallbackEvent_of_new t r hnew hrun) (t := t₂)
    (l := callbackRows state)
    (by
      rw [hrest₂.2, List.nil_append]
      exact callbackRows_nodup state)
    (fun r hr => by
      show r.runId ∈ t₂.runs.map (·.id)
      rw [hrest₂.1, hids, ← h.eventRuns]
      have hmem := mem_callbackRows.mp hr
      obtain ⟨events, hevents, -⟩ := Option.bind_eq_some_iff.mp hmem
      exact Dict.mem_keys.mpr ⟨events, hevents⟩)
  rw [hrest₂.2, List.nil_append] at hevents
  rw [Prod.mk.injEq, hrest₂.1, htriggers] at hrest₃
  refine ⟨t₃, ?_, hrest₃.1, hrest₃.2, hevents⟩
  unfold save
  rw [hsaved₁, Option.bind_eq_bind, Option.bind_some, hsaved₂, Option.bind_some]
  exact hsaved₃

end PipelinePersistenceState

/-! ## Loads give back what was saved -/

namespace PipelineTables

/-- Each run is parsed from its row. -/
theorem loadRuns_ok {rows : List RunRow} (runs : Dict String PipelineRun)
    (hparse : ∀ r ∈ rows, ∃ run, parse r.snapshotJson = some run)
    (hnodup : (rows.map (·.id)).Nodup) :
    ∃ loaded, loadRuns parse rows runs = some loaded
      ∧ ∀ runId run, loaded.get? runId = some run
        ↔ (∃ r ∈ rows, r.id = runId ∧ parse r.snapshotJson = some run)
          ∨ runId ∉ rows.map (·.id) ∧ runs.get? runId = some run := by
  induction rows generalizing runs with
  | nil => exact ⟨runs, rfl, fun runId run => by simp⟩
  | cons r rows ih =>
    rw [List.map_cons, List.nodup_cons] at hnodup
    obtain ⟨first, hfirst⟩ := hparse r List.mem_cons_self
    obtain ⟨loaded, hloaded, hget⟩ :=
      ih (runs.set r.id first) (fun r' hr' => hparse r' (List.mem_cons_of_mem _ hr')) hnodup.2
    refine ⟨loaded, ?_, fun runId run => ?_⟩
    · unfold loadRuns
      rw [hfirst]
      exact hloaded
    · rw [hget runId run, List.map_cons, List.mem_cons, not_or]
      simp only [List.mem_cons, exists_eq_or_imp]
      by_cases hid : runId = r.id
      · subst hid
        have hnone : ¬ ∃ r' ∈ rows, r'.id = r.id ∧ parse r'.snapshotJson = some run := by
          rintro ⟨r', hr', hsame, -⟩
          exact hnodup.1 (hsame ▸ List.mem_map_of_mem hr')
        simp [hnone, hnodup.1, hfirst]
      · have hne : r.id ≠ runId := fun h => hid h.symm
        rw [Dict.get?_set_ne hid]
        simp [hid, hne]

end PipelineTables

namespace PipelinePersistenceState

open PipelineTables

theorem loadTriggerKeys_ok {keys : List TriggerKeyRow} (h : keys.Perm (triggerRows state))
    (key : String) :
    (Dict.empty.setAll (keys.map fun r => (r.idempotencyKey, (r.runId, r.requestFingerprint)))).get?
      key = state.triggerKeys.get? key := by
  have hnodup : ((keys.map fun r => (r.idempotencyKey, (r.runId, r.requestFingerprint))).map
      Prod.fst).Nodup := by
    have hkeys : (keys.map (·.idempotencyKey)).Nodup := by
      rw [(h.map _).nodup_iff, triggerRows_keys]
      exact state.triggerKeys.nodup
    rwa [List.map_map]
  ext value
  rw [Dict.get?_setAll hnodup]
  constructor
  · rintro (hmem | ⟨-, hnone⟩)
    · obtain ⟨r, hr, heq⟩ := List.mem_map.mp hmem
      obtain ⟨rfl, rfl⟩ := Prod.mk.inj heq
      exact mem_triggerRows.mp (h.mem_iff.mp hr)
    · cases hnone
  · intro hvalue
    have hrow : (⟨key, value.1, value.2⟩ : TriggerKeyRow) ∈ triggerRows state :=
      mem_triggerRows.mpr hvalue
    exact .inl (List.mem_map.mpr ⟨_, h.mem_iff.mpr hrow, rfl⟩)

/-- The events that are loaded, for any runs that are. -/
theorem loadCallbackEvents_ok {events : List CallbackEventRow}
    (h : events.Perm (callbackRows state)) (runs : Dict String PipelineRun)
    (runId eventId : String) :
    ((runs.mapVals fun _ _ => Dict.empty).setAllIn
        (events.map fun r => ((r.runId, r.eventId), r.eventFingerprint))).getIn? runId eventId
      = state.callbackEvents.getIn? runId eventId := by
  have hnodup : ((events.map fun r => ((r.runId, r.eventId), r.eventFingerprint)).map
      Prod.fst).Nodup := by
    have hkeys : (events.map fun r => (r.runId, r.eventId)).Nodup := by
      rw [(h.map _).nodup_iff]
      exact callbackRows_nodup state
    rwa [List.map_map]
  have hbase : (runs.mapVals fun _ _ => (Dict.empty : Dict String (Digest Json))).getIn?
      runId eventId = none := by
    unfold Dict.getIn?
    rw [Dict.get?_mapVals]
    cases runs.get? runId with
    | none => rfl
    | some run => rfl
  ext fingerprint
  rw [Dict.getIn?_setAllIn hnodup, hbase]
  constructor
  · rintro (hmem | ⟨-, hnone⟩)
    · obtain ⟨r, hr, heq⟩ := List.mem_map.mp hmem
      obtain ⟨hkey, rfl⟩ := Prod.mk.inj heq
      obtain ⟨rfl, rfl⟩ := Prod.mk.inj hkey
      exact mem_callbackRows.mp (h.mem_iff.mp hr)
    · cases hnone
  · intro hvalue
    have hrow : (⟨runId, eventId, fingerprint⟩ : CallbackEventRow) ∈ callbackRows state :=
      mem_callbackRows.mpr hvalue
    exact .inl (List.mem_map.mpr ⟨_, h.mem_iff.mpr hrow, rfl⟩)

/-- In whatever order the rows of a state come, the same state is loaded from them. -/
theorem Storable.load_ok (h : state.Storable)
    (hcodec : ∀ runId run, state.runs.get? runId = some run → parse (dump run) = some run)
    {rows : List RunRow} {keys : List TriggerKeyRow} {events : List CallbackEventRow}
    (hrows : rows.Perm (runRows dump checkpointedAt state))
    (hkeys : keys.Perm (triggerRows state)) (hevents : events.Perm (callbackRows state)) :
    ∃ state', load parse rows keys events = some state' ∧ state'.Same state := by
  -- in whatever order they come, the rows are those of the runs
  have hmemRows : ∀ r, r ∈ rows ↔ ∃ runId run, state.runs.get? runId = some run
      ∧ r = ⟨runId, dump run, checkpointedAt⟩ := by
    intro r
    rw [hrows.mem_iff]
    unfold runRows
    simp only [List.mem_map, Prod.exists, ← Dict.get?_eq_some]
    constructor
    · rintro ⟨runId, run, hrun, rfl⟩
      exact ⟨runId, run, hrun, by rw [h.ids runId run hrun]⟩
    · rintro ⟨runId, run, hrun, rfl⟩
      exact ⟨runId, run, hrun, by rw [h.ids runId run hrun]⟩
  have hparse : ∀ r ∈ rows, ∃ run, parse r.snapshotJson = some run := by
    intro r hr
    obtain ⟨runId, run, hrun, rfl⟩ := (hmemRows r).mp hr
    exact ⟨run, hcodec runId run hrun⟩
  have hids : (rows.map (·.id)).Nodup := by
    rw [(hrows.map _).nodup_iff, h.runRows_ids]
    exact state.runs.nodup
  obtain ⟨loaded, hloaded, hget⟩ := loadRuns_ok .empty hparse hids
  have hruns : ∀ runId, loaded.get? runId = state.runs.get? runId := by
    intro runId
    ext run
    rw [hget runId run]
    constructor
    · rintro (⟨r, hr, hid, hrun⟩ | ⟨-, hnone⟩)
      · obtain ⟨runId', run', hrun', rfl⟩ := (hmemRows r).mp hr
        obtain rfl : runId' = runId := hid
        rw [hcodec runId' run' hrun'] at hrun
        rw [← hrun]
        exact hrun'
      · cases hnone
    · intro hrun
      exact .inl ⟨_, (hmemRows _).mpr ⟨runId, run, hrun, rfl⟩, rfl, hcodec runId run hrun⟩
  have hsameRuns : ∀ runId, runId ∈ loaded.keys ↔ runId ∈ state.runs.keys := by
    intro runId
    rw [Dict.mem_keys, Dict.mem_keys, hruns]
  have hload : load parse rows keys events = some {
      runs := loaded
      triggerKeys := Dict.empty.setAll
        (keys.map fun r => (r.idempotencyKey, (r.runId, r.requestFingerprint)))
      callbackEvents := (loaded.mapVals fun _ _ => Dict.empty).setAllIn
        (events.map fun r => ((r.runId, r.eventId), r.eventFingerprint)) } := by
    unfold load
    rw [hloaded]
    rfl
  -- each run that is loaded has its events, which may be none
  have heventRuns : ∀ runId, runId ∈ ((loaded.mapVals fun _ _ => Dict.empty).setAllIn
        (events.map fun r => ((r.runId, r.eventId), r.eventFingerprint))).keys
      ↔ runId ∈ state.callbackEvents.keys := by
    intro runId
    rw [Dict.mem_keys_setAllIn, Dict.keys_mapVals, hsameRuns, h.eventRuns]
    constructor
    · rintro (hrun | ⟨e, he, rfl⟩)
      · exact hrun
      · -- an event is one of a run that is there
        obtain ⟨r, hr, rfl⟩ := List.mem_map.mp he
        have hevent := mem_callbackRows.mp (hevents.mem_iff.mp hr)
        obtain ⟨_, hmem, -⟩ := Option.bind_eq_some_iff.mp hevent
        exact (h.eventRuns _).mp (Dict.mem_keys.mpr ⟨_, hmem⟩)
    · exact .inl
  exact ⟨_, hload, hruns, loadTriggerKeys_ok hkeys, heventRuns,
    loadCallbackEvents_ok hevents loaded⟩

end PipelinePersistenceState

/-! ## What the service checkpoints -/

namespace InMemoryPipelineService

open PipelinePersistenceState PipelineTables

/-- No section takes the constraints from a snapshot. -/
theorem storable_lasting : Lasting (fun _ => True) Storable where
  edits := by
    intro state state' hedits h
    refine ⟨?_, ?_, ?_⟩
    · intro runId run' hrun'
      obtain ⟨run, hrun, hbecomes⟩ := hedits.before hrun'
      exact hbecomes.advances.same.trans (h.ids runId run hrun)
    · intro key runId fingerprint hkey
      rw [hedits.triggerKeys] at hkey
      rw [hedits.runKeys]
      exact h.triggered key runId fingerprint hkey
    · intro runId
      rw [hedits.eventKeys, hedits.runKeys]
      exact h.eventRuns runId
  empty := by
    refine ⟨?_, ?_, fun runId => Iff.rfl⟩
    · intro runId run hrun
      cases hrun
    · intro key runId fingerprint hkey
      cases hkey
  added := by
    intro s now runId request _ h
    refine ⟨?_, ?_, ?_⟩
    · intro other run hrun
      rcases Dict.get?_set_eq_some hrun with ⟨rfl, rfl⟩ | ⟨-, hold⟩
      · rfl
      · exact h.ids other run hold
    · intro key other fingerprint hkey
      show other ∈ (s.runs.set runId (newRun now runId request)).keys
      rw [Dict.mem_keys_set]
      have hold : s.triggerKeys.get? key = some (other, fingerprint) → other ∈ s.runs.keys :=
        h.triggered key other fingerprint
      unfold withRun addRun at hkey
      split at hkey
      · exact .inr (hold hkey)
      · rcases Dict.get?_set_eq_some hkey with ⟨-, hnew⟩ | ⟨-, hsame⟩
        · exact .inl (Prod.mk.inj hnew).1
        · exact .inr (hold hsame)
    · intro other
      show other ∈ (s.callbackEvents.set runId Dict.empty).keys
        ↔ other ∈ (s.runs.set runId (newRun now runId request)).keys
      rw [Dict.mem_keys_set, Dict.mem_keys_set, h.eventRuns other]

/-- Whatever has happened, every state that a process has or that is stored is saved over whatever
rows there were, and what is loaded from its rows, in any order, is that state. -/
theorem checkpoint_round_trip (durable : Bool) (es : List Step) (dump : PipelineRun → String)
    (parse : String → Option PipelineRun) (checkpointedAt : String) (t : PipelineTables) :
    ∀ state ∈ (Transition.run step (initial durable) es).snapshots,
      (∀ runId run, state.runs.get? runId = some run → parse (dump run) = some run) →
      ∃ t', save dump checkpointedAt state t = some t'
        ∧ ∀ rows keys events, rows.Perm t'.runs → keys.Perm t'.triggerKeys →
          events.Perm t'.callbackEvents →
          ∃ state', load parse rows keys events = some state' ∧ state'.Same state := by
  intro state hstate hcodec
  have hinitial : Everywhere true Storable (initial durable) := by
    intro state hlive
    have hempty : state = .empty := by
      cases durable <;> simpa [initial, create, live] using hlive
    rw [hempty]
    exact storable_lasting.empty
  have hstorable : state.Storable :=
    hinitial.run storable_lasting (initial_sound durable) (fun h => by cases h)
      (fun _ _ _ _ _ => trivial) state hstate
  obtain ⟨t', hsaved, hruns, htriggers, hevents⟩ := hstorable.save_ok dump checkpointedAt t
  refine ⟨t', hsaved, fun rows keys events hrows hkeys hevs => ?_⟩
  rw [hruns] at hrows
  rw [htriggers] at hkeys
  rw [hevents] at hevs
  exact hstorable.load_ok hcodec hrows hkeys hevs

end InMemoryPipelineService

/-- `lesson` with a trigger key. -/
def keyedLesson : PipelineTriggerRequest := { lesson with idempotencyKey := some "lesson-1" }

/-- Its run, when its job has been reported to have succeeded. -/
def lessonRun : PipelineRun :=
  let ended : ResultState := ⟨.succeeded, some 0, some 0, none⟩
  ⟨ended, "run-1", "lesson", [⟨ended, "build", [⟨ended, "compile", 0, false⟩]⟩], [],
    some "lesson-1", 0⟩

/-- The snapshot of the run. -/
def lessonSnapshot : String :=
  let ended :=
    "\"started_at\":\"1970-01-01T00:00:00Z\",\"finished_at\":\"1970-01-01T00:00:00Z\"," ++
    "\"message\":null\x7d"
  "\x7b\"id\":\"run-1\",\"name\":\"lesson\",\"status\":\"succeeded\",\"stages\":[" ++
  "\x7b\"name\":\"build\",\"status\":\"succeeded\",\"jobs\":[" ++
  "\x7b\"name\":\"compile\",\"status\":\"succeeded\",\"duration_ms\":0,\"should_fail\":false," ++
  ended ++ "]," ++ ended ++ "],\"variables\":\x7b\x7d,\"idempotency_key\":\"lesson-1\"," ++
  "\"created_at\":\"1970-01-01T00:00:00Z\"," ++ ended

open InMemoryPipelineService PipelineTables in
/-- A run, its trigger key and an event that has been delivered to it. -/
theorem lesson_round_trip :
    let state := (Transition.run step (initial true) [⟨0, {}, .trigger "run-1" keyedLesson⟩,
      ⟨0, {}, .applyCallback "run-1" lessonCompiled⟩]).memory
    let dump := fun _ => lessonSnapshot
    let parse := fun text => if text = lessonSnapshot then some lessonRun else none
    state.triggerKeys.keys = ["lesson-1"]
      ∧ (state.callbackEvents.get? "run-1").map (·.keys) = some ["event-1"]
      ∧ ∃ t', save dump "2026-09-01T10:00:00+00:00" state .migrated = some t'
        ∧ ∀ rows keys events, rows.Perm t'.runs → keys.Perm t'.triggerKeys →
          events.Perm t'.callbackEvents →
          ∃ state', load parse rows keys events = some state' ∧ state'.Same state := by
  intro state dump parse
  refine ⟨by decide +kernel, by decide +kernel, ?_⟩
  apply checkpoint_round_trip true [⟨0, {}, .trigger "run-1" keyedLesson⟩,
    ⟨0, {}, .applyCallback "run-1" lessonCompiled⟩] dump parse "2026-09-01T10:00:00+00:00" .migrated
    state (mem_snapshots.mpr (.inl rfl))
  intro runId run hrun
  have hruns : state.runs.entries = [("run-1", lessonRun)] := by decide +kernel
  have hentry := Dict.get?_eq_some.mp hrun
  rw [hruns, List.mem_singleton, Prod.mk.injEq] at hentry
  rw [hentry.2]
  exact if_pos rfl

end QaPlatform.Pipeline
