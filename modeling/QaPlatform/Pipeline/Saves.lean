import QaPlatform.Pipeline.SoundRuns

/-!
# Saves

However a save of the service ends, the memory is one of the snapshots that there were: itself,
what is stored, or what was last known to be stored.

`snapshots` are the states that the memory can have after a save: itself, what is stored, and
what was last known to be stored. Whatever is kept of all snapshots by the edits of a section is
then kept by the section with its save, however that ends, and no proof about a section has to
look at the ends of a save.
-/

namespace QaPlatform.Pipeline

namespace PipelinePersistenceState

/-- Every run is sound, and the callback events are those of the runs. -/
structure Sound (state : PipelinePersistenceState) : Prop where
  runs : ∀ {runId run}, state.runs.get? runId = some run → run.Sound
  keys : state.callbackEvents.keys = state.runs.keys

/-- The stage of a run has begun, if both are there. -/
def Begun (state : PipelinePersistenceState) (runId : String) (i : Nat) : Prop :=
  ∀ run stage, state.runs.get? runId = some run → run.stages[i]? = some stage →
    stage.status ≠ .queued

/-- An event of a run has been recorded. -/
def Recorded (state : PipelinePersistenceState) (runId eventId : String)
    (fingerprint : Digest Json) : Prop :=
  ∃ events, state.callbackEvents.get? runId = some events
    ∧ events.get? eventId = some fingerprint

/-- The runs have been changed, and events recorded. -/
structure Edits (state state' : PipelinePersistenceState) : Prop where
  runKeys : state'.runs.keys = state.runs.keys
  runs : ∀ {runId run run'}, state.runs.get? runId = some run →
    state'.runs.get? runId = some run' → run.Becomes run'
  triggerKeys : state'.triggerKeys = state.triggerKeys
  eventKeys : state'.callbackEvents.keys = state.callbackEvents.keys
  recorded : ∀ {runId eventId fingerprint}, state.Recorded runId eventId fingerprint →
    state'.Recorded runId eventId fingerprint

/-- What a new process makes of what is stored: the same runs, those that had ended as they were,
and every one of them over. -/
structure Recovered (stored state : PipelinePersistenceState) : Prop where
  runKeys : state.runs.keys = stored.runs.keys
  ended : ∀ {runId run}, stored.runs.get? runId = some run → run.status.Terminal →
    state.runs.get? runId = some run
  allOver : ∀ {runId run}, state.runs.get? runId = some run → run.Over
  triggerKeys : state.triggerKeys = stored.triggerKeys
  callbackEvents : state.callbackEvents = stored.callbackEvents

variable {state state' : PipelinePersistenceState} {runId : String} {run run' : PipelineRun}
  {i : Nat}

theorem sound_empty : PipelinePersistenceState.empty.Sound where
  runs h := by cases h
  keys := rfl

/-- A run that is there has been there before. -/
theorem Edits.before (h : state.Edits state') (hrun : state'.runs.get? runId = some run') :
    ∃ run, state.runs.get? runId = some run ∧ run.Becomes run' := by
  have hmem : runId ∈ state.runs.keys := h.runKeys ▸ Dict.mem_keys.mpr ⟨run', hrun⟩
  obtain ⟨run, hold⟩ := Dict.mem_keys.mp hmem
  exact ⟨run, hold, h.runs hold hrun⟩

theorem Edits.sound (h : state.Edits state') (hstate : state.Sound) : state'.Sound where
  runs := by
    intro runId run' hrun'
    obtain ⟨run, -, hbecomes⟩ := h.before hrun'
    exact hbecomes.sound
  keys := by rw [h.eventKeys, hstate.keys, h.runKeys]

theorem Edits.begun (h : state.Edits state') (hbegun : state.Begun runId i) :
    state'.Begun runId i := by
  intro run' stage' hrun' hstage'
  obtain ⟨run, hrun, hbecomes⟩ := h.before hrun'
  obtain ⟨stage, hstage, hadvances⟩ :=
    Edit.getElem?_of_forall₂ hbecomes.advances.stages hstage'
  exact hadvances.state.begun (hbegun run stage hrun hstage)

/-- One run has been changed. -/
theorem Sound.edits_set (h : state.Sound) (hrun : state.runs.get? runId = some run)
    (hbecomes : run.Becomes run') :
    state.Edits { state with runs := state.runs.set runId run' } where
  runKeys := Dict.keys_set_of_mem (Dict.mem_keys.mpr ⟨run, hrun⟩) run'
  runs := by
    intro other old new hold hnew
    rcases Dict.get?_set_eq_some hnew with ⟨rfl, rfl⟩ | ⟨-, hsame⟩
    · rw [hrun, Option.some.injEq] at hold
      exact hold ▸ hbecomes
    · rw [hold, Option.some.injEq] at hsame
      exact hsame ▸ (h.runs hold).refl
  triggerKeys := rfl
  eventKeys := rfl
  recorded h := h

end PipelinePersistenceState

/-- What is stored can be loaded after the save. -/
def SaveOutcome.Reloads : SaveOutcome → Prop
  | .saved => True
  | .raised _ _ reloads => reloads = true

namespace InMemoryPipelineService

/-- What the service has in memory of the state that it stores. -/
abbrev memory (service : InMemoryPipelineService) : PipelinePersistenceState :=
  service.toPipelinePersistenceState

/-- What the memory can become: itself, what is stored, and what was last known to be stored, which
a save falls back on when what is stored cannot be loaded. -/
def live (fallback : Bool) (service : InMemoryPipelineService) : List PipelinePersistenceState :=
  service.memory :: (service.persistence.toList
    ++ if fallback then service.durableState.toList else [])

/-- The states that the memory can have after a save, whatever becomes of it. -/
def snapshots (service : InMemoryPipelineService) : List PipelinePersistenceState :=
  service.live true

variable {service : InMemoryPipelineService} {state stored : PipelinePersistenceState}
  {o : SaveOutcome} {fallback : Bool}

theorem mem_live : state ∈ service.live fallback ↔ state = service.memory
    ∨ service.persistence = some state ∨ fallback = true ∧ service.durableState = some state := by
  cases fallback <;> simp [live]

theorem mem_snapshots : state ∈ service.snapshots ↔ state = service.memory
    ∨ service.persistence = some state ∨ service.durableState = some state := by
  unfold snapshots
  simp [mem_live]

theorem mem_snapshots_of_live (h : state ∈ service.live fallback) : state ∈ service.snapshots := by
  rcases mem_live.mp h with hmemory | hstored | hdurable
  · exact mem_snapshots.mpr (.inl hmemory)
  · exact mem_snapshots.mpr (.inr (.inl hstored))
  · exact mem_snapshots.mpr (.inr (.inr hdurable.2))

/-! ## Saves -/

theorem restoreState_memory (service : InMemoryPipelineService)
    (h : state.callbackEvents.keys = state.runs.keys) :
    (service.restoreState state).memory = state := by
  have hevents : (state.runs.mapVals fun runId _ =>
      (state.callbackEvents.get? runId).getD Dict.empty) = state.callbackEvents := by
    apply Dict.ext_keys
    · rw [Dict.keys_mapVals, h]
    · intro k
      rw [Dict.get?_mapVals]
      cases hevents : state.callbackEvents.get? k with
      | none =>
        rw [(Dict.get?_eq_none_congr h).mp hevents]
        rfl
      | some events =>
        have hmem : k ∈ state.runs.keys := h ▸ Dict.mem_keys.mpr ⟨events, hevents⟩
        obtain ⟨run, hrun⟩ := Dict.mem_keys.mp hmem
        rw [hrun]
        rfl
  exact congrArg (PipelinePersistenceState.mk state.runs state.triggerKeys) hevents

theorem checkpointLocked_of_none (h : service.persistence = none) :
    checkpointLocked o service = (service.synchronizeTerminalEvents, .ok ()) := by
  unfold checkpointLocked
  rw [h]

theorem checkpointLocked_saved (h : service.persistence = some stored) :
    checkpointLocked .saved service = ({ service.synchronizeTerminalEvents with
      persistence := some service.memory, durableState := some service.memory }, .ok ()) := by
  unfold checkpointLocked
  rw [h]

theorem checkpointLocked_raised {message : String} {written reloads : Bool}
    (h : service.persistence = some stored) :
    checkpointLocked (.raised message written reloads) service
      = (service.reconcileMemory (if written then service.memory else stored) reloads,
        .error (.storage message)) := by
  unfold checkpointLocked
  rw [h]

theorem checkpointLocked_saved_ok (service : InMemoryPipelineService) :
    (checkpointLocked .saved service).2 = .ok () := by
  cases hp : service.persistence with
  | none => rw [checkpointLocked_of_none hp]
  | some stored => rw [checkpointLocked_saved hp]

/-- What is in memory after a save has raised. -/
theorem reconcileMemory_memory {reloads : Bool}
    (h : stored.callbackEvents.keys = stored.runs.keys)
    (hdurable : ∀ durable, service.durableState = some durable →
      durable.callbackEvents.keys = durable.runs.keys) :
    (service.reconcileMemory stored reloads).memory
      = if reloads then stored else service.durableState.getD service.memory := by
  unfold reconcileMemory
  cases reloads with
  | true => exact restoreState_memory service h
  | false =>
    cases hstate : service.durableState with
    | none => rfl
    | some durable => exact restoreState_memory service (hdurable durable hstate)

theorem reconcileMemory_rest (stored : PipelinePersistenceState) (reloads : Bool)
    (service : InMemoryPipelineService) :
    (service.reconcileMemory stored reloads).persistence = some stored
      ∧ (service.reconcileMemory stored reloads).durableState = service.durableState
      ∧ (service.reconcileMemory stored reloads).tasks = service.tasks
      ∧ (service.reconcileMemory stored reloads).initialized = service.initialized
      ∧ (service.reconcileMemory stored reloads).closed = service.closed := by
  unfold reconcileMemory
  split <;> exact ⟨rfl, rfl, rfl, rfl, rfl⟩

/-- A save leaves the executors and the service's own state as they are. -/
theorem checkpointLocked_rest (o : SaveOutcome) (service : InMemoryPipelineService) :
    (checkpointLocked o service).1.tasks = service.tasks
      ∧ (checkpointLocked o service).1.initialized = service.initialized
      ∧ (checkpointLocked o service).1.closed = service.closed := by
  cases h : service.persistence with
  | none =>
    rw [checkpointLocked_of_none h]
    exact ⟨rfl, rfl, rfl⟩
  | some stored =>
    cases o with
    | saved =>
      rw [checkpointLocked_saved h]
      exact ⟨rfl, rfl, rfl⟩
    | raised message written reloads =>
      rw [checkpointLocked_raised h]
      exact (reconcileMemory_rest _ reloads service).2.2

/-- A save that does not raise leaves the memory as it is, and it is what is stored then. -/
theorem checkpointLocked_ok (h : (checkpointLocked o service).2 = .ok ()) :
    (checkpointLocked o service).1.memory = service.memory
      ∧ (service.persistence = none ∧ (checkpointLocked o service).1.persistence = none
          ∧ (checkpointLocked o service).1.durableState = service.durableState
        ∨ (checkpointLocked o service).1.persistence = some service.memory
          ∧ (checkpointLocked o service).1.durableState = some service.memory) := by
  cases hpersistence : service.persistence with
  | none =>
    rw [checkpointLocked_of_none hpersistence]
    exact ⟨rfl, .inl ⟨rfl, hpersistence, rfl⟩⟩
  | some stored =>
    cases o with
    | saved =>
      rw [checkpointLocked_saved hpersistence]
      exact ⟨rfl, .inr ⟨rfl, rfl⟩⟩
    | raised message written reloads =>
      rw [checkpointLocked_raised hpersistence] at h
      cases h

theorem checkpointLocked_ok_saved (hp : service.persistence = some stored)
    (h : (checkpointLocked o service).2 = .ok ()) : o = .saved := by
  cases o with
  | saved => rfl
  | raised message written reloads =>
    rw [checkpointLocked_raised hp] at h
    cases h

/-- A save needs a persistence layer, and keeps one. -/
theorem checkpointLocked_kept (o : SaveOutcome) (service : InMemoryPipelineService) :
    service.persistence = none ∧ (checkpointLocked o service).1.persistence = none
        ∧ (checkpointLocked o service).1.durableState = service.durableState
      ∨ service.persistence.isSome ∧ (checkpointLocked o service).1.persistence.isSome
        ∧ (service.durableState.isSome → (checkpointLocked o service).1.durableState.isSome) := by
  cases h : service.persistence with
  | none =>
    rw [checkpointLocked_of_none h]
    exact .inl ⟨rfl, h, rfl⟩
  | some stored =>
    refine .inr ⟨rfl, ?_⟩
    cases o with
    | saved =>
      rw [checkpointLocked_saved h]
      exact ⟨rfl, fun _ => rfl⟩
    | raised message written reloads =>
      rw [checkpointLocked_raised h]
      obtain ⟨hsaved, hdurable, -⟩ := reconcileMemory_rest
        (if written then service.memory else stored) reloads service
      rw [hsaved, hdurable]
      exact ⟨rfl, fun hsome => hsome⟩

/-- However a save ends, it makes no snapshot that was not there. -/
theorem checkpointLocked_live (ho : fallback = false → o.Reloads)
    (h : ∀ state ∈ service.snapshots, state.callbackEvents.keys = state.runs.keys) :
    ∀ state ∈ (checkpointLocked o service).1.live fallback, state ∈ service.live fallback := by
  have hmemory : service.memory ∈ service.live fallback := mem_live.mpr (.inl rfl)
  intro state hstate
  cases hpersistence : service.persistence with
  | none =>
    rw [checkpointLocked_of_none hpersistence] at hstate
    exact hstate
  | some stored =>
    have hstored : stored ∈ service.live fallback := mem_live.mpr (.inr (.inl hpersistence))
    cases o with
    | saved =>
      rw [checkpointLocked_saved hpersistence, mem_live] at hstate
      rcases hstate with rfl | heq | ⟨-, heq⟩
      · exact hmemory
      · exact Option.some.inj heq ▸ hmemory
      · exact Option.some.inj heq ▸ hmemory
    | raised message written reloads =>
      rw [checkpointLocked_raised hpersistence, mem_live] at hstate
      have hcontent : (if written then service.memory else stored) ∈ service.live fallback := by
        split <;> assumption
      obtain ⟨hsaved, hdurable, -⟩ := reconcileMemory_rest
        (if written then service.memory else stored) reloads service
      rcases hstate with rfl | heq | ⟨hfallback, heq⟩
      · rw [reconcileMemory_memory (h _ (mem_snapshots_of_live hcontent))
          fun durable hd => h durable (mem_snapshots.mpr (.inr (.inr hd)))]
        split
        · exact hcontent
        · next hreloads =>
          have hfallback : fallback = true := by
            cases fallback with
            | true => rfl
            | false => exact absurd (ho rfl) hreloads
          cases hd : service.durableState with
          | none => exact hmemory
          | some durable => exact mem_live.mpr (.inr (.inr ⟨hfallback, hd⟩))
      · rw [hsaved, Option.some.injEq] at heq
        exact heq ▸ hcontent
      · rw [hdurable] at heq
        exact mem_live.mpr (.inr (.inr ⟨hfallback, heq⟩))

/-- The same for the runs, whatever the events are. -/
theorem checkpointLocked_runs (o : SaveOutcome) (service : InMemoryPipelineService) :
    ∀ state' ∈ (checkpointLocked o service).1.snapshots,
      ∃ state ∈ service.snapshots, state'.runs = state.runs := by
  have hmemory : service.memory ∈ service.snapshots := mem_snapshots.mpr (.inl rfl)
  intro state' hstate
  cases hpersistence : service.persistence with
  | none =>
    rw [checkpointLocked_of_none hpersistence] at hstate
    exact ⟨state', hstate, rfl⟩
  | some stored =>
    have hstored : stored ∈ service.snapshots := mem_snapshots.mpr (.inr (.inl hpersistence))
    cases o with
    | saved =>
      rw [checkpointLocked_saved hpersistence, mem_snapshots] at hstate
      rcases hstate with rfl | heq | heq
      · exact ⟨_, hmemory, rfl⟩
      · exact ⟨_, hmemory, congrArg (·.runs) (Option.some.inj heq).symm⟩
      · exact ⟨_, hmemory, congrArg (·.runs) (Option.some.inj heq).symm⟩
    | raised message written reloads =>
      rw [checkpointLocked_raised hpersistence, mem_snapshots] at hstate
      have hcontent : (if written then service.memory else stored) ∈ service.snapshots := by
        split <;> assumption
      obtain ⟨hsaved, hdurable, -⟩ := reconcileMemory_rest
        (if written then service.memory else stored) reloads service
      rcases hstate with rfl | heq | heq
      · unfold reconcileMemory
        cases reloads with
        | true => exact ⟨_, hcontent, rfl⟩
        | false =>
          cases hd : service.durableState with
          | none => exact ⟨_, hmemory, rfl⟩
          | some durable => exact ⟨durable, mem_snapshots.mpr (.inr (.inr hd)), rfl⟩
      · rw [hsaved, Option.some.injEq] at heq
        exact ⟨_, hcontent, congrArg (·.runs) heq.symm⟩
      · rw [hdurable] at heq
        exact ⟨_, mem_snapshots.mpr (.inr (.inr heq)), rfl⟩

theorem checkpointLocked_snapshots
    (h : ∀ state ∈ service.snapshots, state.callbackEvents.keys = state.runs.keys) :
    ∀ state ∈ (checkpointLocked o service).1.snapshots, state ∈ service.snapshots :=
  checkpointLocked_live (fun hnone => by cases hnone) h

end InMemoryPipelineService

end QaPlatform.Pipeline
