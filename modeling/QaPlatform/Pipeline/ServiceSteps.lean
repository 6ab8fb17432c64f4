import QaPlatform.Base.Transition
import QaPlatform.Pipeline.Sections

/-!
# Runs of the service

The steps of the service are its calls, the sections of its executors, the end of an executor that
has been cancelled, and a restart of the process over what is stored. Whatever the persistence
layer does, every tree of every snapshot stays sound.
-/

namespace QaPlatform.Pipeline

namespace InMemoryPipelineService

/-- Every state that the memory can have is sound, and a stage that an executor works on has
begun. -/
structure Sound (s : InMemoryPipelineService) : Prop where
  states : ∀ state ∈ s.snapshots, state.Sound
  begun : ∀ {runId executor i}, s.tasks runId = some executor → executor.working = some i →
    ∀ state ∈ s.snapshots, state.Begun runId i
  durable : s.persistence = none → s.durableState = none
  known : s.initialized = true → s.persistence.isSome → s.durableState.isSome
  idle : s.initialized = false → s.persistence.isSome ∧ s.tasks = fun _ => none

variable {s s₁ : InMemoryPipelineService} {o : SaveOutcome} {runId : String}
  {stored : PipelinePersistenceState} {now : Instant} {storage : Storage}
  {request : PipelineTriggerRequest} {α : Type} {Q : α → Option PipelinePersistenceState → Prop}

theorem Sound.memory (h : s.Sound) : s.memory.Sound := h.states _ (mem_snapshots.mpr (.inl rfl))

theorem Sound.persisted (h : s.Sound) (hp : s.persistence = some stored) : stored.Sound :=
  h.states _ (mem_snapshots.mpr (.inr (.inl hp)))

theorem Sound.checkpoint (h : s.Sound) (o : SaveOutcome) : (checkpointLocked o s).1.Sound := by
  have hsub := checkpointLocked_snapshots (o := o) fun state hstate => (h.states state hstate).keys
  obtain ⟨htasks, hinitialized, -⟩ := checkpointLocked_rest o s
  refine ⟨fun state hstate => h.states state (hsub state hstate), ?_, ?_, ?_, ?_⟩
  · intro runId executor i hexecutor hworking state hstate
    rw [htasks] at hexecutor
    exact h.begun hexecutor hworking state (hsub state hstate)
  · intro hnone
    rcases checkpointLocked_kept o s with ⟨hp, -, hdurable⟩ | ⟨-, hp, -⟩
    · rw [hdurable]
      exact h.durable hp
    · rw [hnone] at hp
      cases hp
  · intro hinit hsome
    rw [hinitialized] at hinit
    rcases checkpointLocked_kept o s with ⟨-, hp, -⟩ | ⟨hp, -, hdurable⟩
    · rw [hp] at hsome
      cases hsome
    · exact hdurable (h.known hinit hp)
  · intro hinit
    rw [hinitialized] at hinit
    rw [htasks]
    refine ⟨?_, (h.idle hinit).2⟩
    rcases checkpointLocked_kept o s with ⟨hp, -, -⟩ | ⟨-, hp, -⟩
    · have hsome := (h.idle hinit).1
      rw [hp] at hsome
      cases hsome
    · exact hp

theorem Worked.live (h : s.Worked s₁) {fallback : Bool} {state : PipelinePersistenceState}
    (hstate : state ∈ s₁.live fallback) : state = s₁.memory ∨ state ∈ s.live fallback := by
  rw [mem_live, h.persistence, h.durableState] at hstate
  rcases hstate with hmemory | hstored | hdurable
  · exact .inl hmemory
  · exact .inr (mem_live.mpr (.inr (.inl hstored)))
  · exact .inr (mem_live.mpr (.inr (.inr hdurable)))

theorem Sound.worked (h : s.Sound) (hw : s.Worked s₁) : s₁.Sound where
  states := by
    intro state hstate
    rcases hw.live hstate with rfl | hold
    · exact hw.edits.sound h.memory
    · exact h.states state hold
  begun := by
    intro runId executor i hexecutor hworking state hstate
    rw [hw.tasks] at hexecutor
    have hbegun := h.begun hexecutor hworking
    rcases hw.live hstate with rfl | hold
    · exact hw.edits.begun (hbegun _ (mem_snapshots.mpr (.inl rfl)))
    · exact hbegun state hold
  durable hnone := by
    rw [hw.persistence] at hnone
    rw [hw.durableState, h.durable hnone]
  known hinit hsome := by
    rw [hw.initialized] at hinit
    rw [hw.persistence] at hsome
    rw [hw.durableState]
    exact h.known hinit hsome
  idle hinit := by
    rw [hw.initialized] at hinit
    rw [hw.persistence, hw.tasks]
    exact h.idle hinit

theorem Ended.sound {r : InMemoryPipelineService × Except PipelineFailure α} (h : Ended o s Q r)
    (hs : s.Sound) : r.1.Sound := by
  cases h with
  | raised e => exact hs
  | unchanged a _ => exact hs
  | saved a hw _ => exact (hs.worked hw).checkpoint o

theorem Ended.tasks {r : InMemoryPipelineService × Except PipelineFailure α}
    (h : Ended o s Q r) : r.1.tasks = s.tasks := by
  cases h with
  | raised e => rfl
  | unchanged a _ => rfl
  | saved a hw _ => exact (checkpointLocked_rest o _).1.trans hw.tasks

/-- No section but the recovery touches it. -/
theorem Ended.initialized {r : InMemoryPipelineService × Except PipelineFailure α}
    (h : Ended o s Q r) : r.1.initialized = s.initialized := by
  cases h with
  | raised e => rfl
  | unchanged a _ => rfl
  | saved a hw _ => exact (checkpointLocked_rest o _).2.1.trans hw.initialized

/-! ## Initialization -/

theorem loaded_memory (h : stored.Sound) : (s.loaded stored).memory = stored :=
  restoreState_memory s h.keys

theorem loaded_snapshots (h : stored.Sound) (hp : s.persistence = some stored) :
    ∀ state ∈ (s.loaded stored).snapshots, state = stored := by
  intro state hstate
  rw [mem_snapshots, loaded_memory h] at hstate
  rcases hstate with hmemory | hstored | hdurable
  · exact hmemory
  · exact Option.some.inj (hstored.symm.trans hp)
  · exact (Option.some.inj hdurable).symm

theorem Sound.loaded (h : s.Sound) (hp : s.persistence = some stored) :
    (s.loaded stored).Sound where
  states state hstate := by
    rw [loaded_snapshots (h.persisted hp) hp state hstate]
    exact h.persisted hp
  begun hexecutor hworking state hstate := by
    rw [loaded_snapshots (h.persisted hp) hp state hstate]
    exact h.begun hexecutor hworking _ (mem_snapshots.mpr (.inr (.inl hp)))
  durable hnone := by
    have hsame : s.persistence = none := hnone
    rw [hp] at hsame
    cases hsame
  known _ _ := rfl
  idle hinit := by cases hinit

/-- What the recovery leaves: the state that has been loaded, or one with every run ended, which
it saves. -/
theorem restoreLoaded_cases (h : stored.Sound) :
    stored.Recovered stored ∧ restoreLoaded now storage stored s = (s.loaded stored, .ok ())
      ∨ ∃ s₁ : InMemoryPipelineService, (s.loaded stored).Worked s₁ ∧ stored.Recovered s₁.memory
        ∧ restoreLoaded now storage stored s = saveRecovery storage.recoverySave s₁ := by
  have hloaded : (s.loaded stored).memory = stored := loaded_memory h
  have hmemory : (s.loaded stored).memory.Sound := by
    rw [hloaded]
    exact h
  obtain ⟨runs, hruns, hedits, hended⟩ := overRuns_of_ok
    (P := fun run run' => run'.status.Terminal ∧ (run.status.Terminal → run' = run)) hmemory
    fun run hrun => PipelineRun.recover_becomes hrun
  have hkept : ∀ {runId run}, stored.runs.get? runId = some run → run.status.Terminal →
      runs.get? runId = some run := by
    intro runId run hrun hterminal
    have hmem : runId ∈ runs.keys := hedits.runKeys ▸ Dict.mem_keys.mpr ⟨run, hrun⟩
    obtain ⟨run', hrun'⟩ := Dict.mem_keys.mp hmem
    obtain ⟨old, hold, -, hsame⟩ := hended hrun'
    obtain rfl : run = old := Option.some.inj (hrun.symm.trans hold)
    rw [hrun', hsame hterminal]
  unfold restoreLoaded
  rw [Edit.update_bind, Edit.read_bind, Edit.bind_eq_of_ok hruns]
  split
  · have hworked : (s.loaded stored).Worked { s.loaded stored with runs } :=
      ⟨hedits, rfl, rfl, rfl, rfl⟩
    have hevents : (s.loaded stored).callbackEvents = stored.callbackEvents :=
      congrArg (·.callbackEvents) hloaded
    refine .inr ⟨_, hworked, ⟨hedits.runKeys, hkept, fun hrun => ?_, rfl, hevents⟩, rfl⟩
    obtain ⟨_, -, hterminal, -⟩ := hended hrun
    exact ((hedits.sound hmemory).runs hrun).isOver hterminal
  · next hnone =>
    have hall : ∀ runId run, stored.runs.get? runId = some run → run.status.Terminal := by
      intro runId run hrun
      refine Decidable.byContradiction fun hactive => hnone ?_
      exact List.any_eq_true.mpr ⟨_, Dict.get?_eq_some.mp hrun, by simpa using hactive⟩
    -- every run had ended, so that none has been changed
    have hsame : runs = stored.runs := by
      apply Dict.ext_keys hedits.runKeys
      intro runId
      cases hrun : runs.get? runId with
      | none => exact ((Dict.get?_eq_none_congr hedits.runKeys).mp hrun).symm
      | some run' =>
        obtain ⟨run, hold, -, heq⟩ := hended hrun
        rw [heq (hall runId run hold)]
        exact hold.symm
    rw [hsame]
    exact .inl ⟨⟨rfl, fun hrun _ => hrun,
      fun hrun => (h.runs hrun).isOver (hall _ _ hrun), rfl, rfl⟩,
      rfl⟩

theorem Sound.saveRecovery (h : s.Sound) (o : SaveOutcome) (hp : s.persistence.isSome)
    (htasks : s.tasks = fun _ => none) : (saveRecovery o s).1.Sound := by
  have hsaved := h.checkpoint o
  unfold InMemoryPipelineService.saveRecovery
  split
  · exact hsaved
  · refine ⟨hsaved.states, hsaved.begun, hsaved.durable, fun hinit => (by cases hinit), fun _ => ?_⟩
    refine ⟨?_, (checkpointLocked_rest o s).1.trans htasks⟩
    rcases checkpointLocked_kept o s with ⟨hnone, -, -⟩ | ⟨-, hsome, -⟩
    · rw [hnone] at hp
      cases hp
    · exact hsome

theorem initializeLocked_cases (now : Instant) (storage : Storage) (s : InMemoryPipelineService) :
    s.initialized = true ∧ initializeLocked now storage s = (s, .ok ())
      ∨ s.initialized = false ∧ ((∃ e, initializeLocked now storage s = (s, .error e))
        ∨ ∃ stored, s.persistence = some stored
          ∧ initializeLocked now storage s = restoreLoaded now storage stored s) := by
  unfold initializeLocked
  rw [Edit.read_bind]
  cases hinit : s.initialized with
  | true => exact .inl ⟨rfl, rfl⟩
  | false =>
    refine .inr ⟨rfl, ?_⟩
    cases hp : s.persistence with
    | none => exact .inl ⟨_, rfl⟩
    | some stored =>
      cases hload : storage.loadError with
      | some message => exact .inl ⟨_, rfl⟩
      | none => exact .inr ⟨stored, rfl, rfl⟩

theorem initializeLocked_of_initialized (h : s.initialized = true) :
    initializeLocked now storage s = (s, .ok ()) := by
  unfold initializeLocked
  rw [Edit.read_bind, if_pos h]
  rfl

theorem initializeLocked_of_stored (h : s.initialized = false) (hp : s.persistence = some stored)
    (hload : storage.loadError = none) :
    initializeLocked now storage s = restoreLoaded now storage stored s := by
  unfold initializeLocked
  rw [Edit.read_bind, if_neg (by simp [h]), hp, hload]
  rfl

theorem Sound.restoreLoaded (h : s.Sound) (hinit : s.initialized = false)
    (hp : s.persistence = some stored) : (restoreLoaded now storage stored s).1.Sound := by
  rcases restoreLoaded_cases (h.persisted hp) with ⟨-, hresult⟩ | ⟨s₁, hworked, -, hresult⟩
  · rw [hresult]
    exact h.loaded hp
  · rw [hresult]
    refine ((h.loaded hp).worked hworked).saveRecovery _ ?_ ?_
    · rw [hworked.persistence]
      exact (h.idle hinit).1
    · rw [hworked.tasks]
      exact (h.idle hinit).2

theorem Sound.initialization (h : s.Sound) : (initializeLocked now storage s).1.Sound := by
  rcases initializeLocked_cases now storage s with
    ⟨-, hresult⟩ | ⟨hinit, ⟨e, hresult⟩ | ⟨stored, hp, hresult⟩⟩
  · rw [hresult]
    exact h
  · rw [hresult]
    exact h
  · rw [hresult]
    exact h.restoreLoaded hinit hp

theorem saveRecovery_tasks (o : SaveOutcome) (s : InMemoryPipelineService) :
    (saveRecovery o s).1.tasks = s.tasks := by
  unfold saveRecovery
  split <;> exact (checkpointLocked_rest o s).1

theorem Sound.initialization_tasks (h : s.Sound) :
    (initializeLocked now storage s).1.tasks = s.tasks := by
  rcases initializeLocked_cases now storage s with
    ⟨-, hresult⟩ | ⟨-, ⟨e, hresult⟩ | ⟨stored, hp, hresult⟩⟩
  · rw [hresult]
  · rw [hresult]
  · rw [hresult]
    rcases restoreLoaded_cases (h.persisted hp) with ⟨-, hloaded⟩ | ⟨s₁, hworked, -, hloaded⟩
    · rw [hloaded]
      rfl
    · rw [hloaded, saveRecovery_tasks, hworked.tasks]
      rfl

/-- An initialization that does not raise. -/
theorem Sound.initialized_of_ok (h : s.Sound) (hok : (initializeLocked now storage s).2 = .ok ()) :
    (initializeLocked now storage s).1.initialized = true := by
  rcases initializeLocked_cases now storage s with
    ⟨hinit, hresult⟩ | ⟨-, ⟨e, hresult⟩ | ⟨stored, hp, hresult⟩⟩
  · rw [hresult]
    exact hinit
  · rw [hresult] at hok
    cases hok
  · rw [hresult] at hok ⊢
    rcases restoreLoaded_cases (h.persisted hp) with ⟨-, hloaded⟩ | ⟨s₁, hworked, -, hloaded⟩
    · rw [hloaded]
      rfl
    · rw [hloaded] at hok ⊢
      unfold InMemoryPipelineService.saveRecovery at hok ⊢
      cases hsave : (checkpointLocked storage.recoverySave s₁).2 with
      | error e =>
        rw [hsave] at hok
        cases hok
      | ok u =>
        show (checkpointLocked storage.recoverySave s₁).1.initialized = true
        rw [(checkpointLocked_rest _ s₁).2.1, hworked.initialized]
        rfl

/-- A section that initializes the service before. -/
theorem Sound.initialized_bind (h : s.Sound) {x : Section α}
    (hx : ∀ s₀ : InMemoryPipelineService, s₀.tasks = s.tasks → s₀.initialized = true → s₀.Sound →
      (x s₀).1.Sound) :
    ((initializeLocked now storage >>= fun _ => x) s).1.Sound := by
  cases hinit : (initializeLocked now storage s).2 with
  | error e =>
    rw [Edit.bind_of_error hinit]
    exact h.initialization
  | ok u =>
    rw [Edit.bind_of_ok hinit]
    exact hx _ h.initialization_tasks (h.initialized_of_ok hinit) h.initialization

/-! ## New runs -/

/-- Nothing has been called by this name before. -/
def Fresh (s : InMemoryPipelineService) (runId : String) : Prop :=
  s.tasks runId = none ∧ ∀ state ∈ s.snapshots, state.runs.get? runId = none

instance (s : InMemoryPipelineService) (runId : String) : Decidable (s.Fresh runId) := by
  unfold Fresh
  infer_instance

/-- The service with a new run in memory. -/
def withRun (now : Instant) (runId : String) (request : PipelineTriggerRequest)
    (s : InMemoryPipelineService) : InMemoryPipelineService :=
  addRun (newRun now runId request) request s

theorem Sound.withRun (h : s.Sound) (hfresh : s.tasks runId = none) :
    (s.withRun now runId request).Sound where
  states := by
    intro state hstate
    rcases mem_snapshots.mp hstate with rfl | hstored | hdurable
    · refine ⟨fun hrun => ?_, ?_⟩
      · rcases Dict.get?_set_eq_some hrun with ⟨-, rfl⟩ | ⟨-, hold⟩
        · exact PipelineRun.newRun_sound now runId request
        · exact h.memory.runs hold
      · exact Dict.keys_set_congr h.memory.keys _ _ _
    · exact h.states state (mem_snapshots.mpr (.inr (.inl hstored)))
    · exact h.states state (mem_snapshots.mpr (.inr (.inr hdurable)))
  begun := by
    intro other executor i hexecutor hworking state hstate
    have hne : other ≠ runId := by
      rintro rfl
      have hsome : s.tasks other = some executor := hexecutor
      rw [hfresh] at hsome
      cases hsome
    have hbegun := h.begun hexecutor hworking
    rcases mem_snapshots.mp hstate with rfl | hstored | hdurable
    · intro run stage hrun hstage
      have hold : s.runs.get? other = some run := by
        rwa [show (InMemoryPipelineService.withRun now runId request s).runs
          = s.runs.set runId (newRun now runId request) from rfl, Dict.get?_set_ne hne] at hrun
      exact hbegun _ (mem_snapshots.mpr (.inl rfl)) run stage hold hstage
    · exact hbegun state (mem_snapshots.mpr (.inr (.inl hstored)))
    · exact hbegun state (mem_snapshots.mpr (.inr (.inr hdurable)))
  durable := h.durable
  known := h.known
  idle := h.idle

/-- A run is created and saved; its executor is there once the save has succeeded. -/
theorem createRun_cases (now : Instant) (storage : Storage) (runId : String)
    (request : PipelineTriggerRequest) (s : InMemoryPipelineService) :
    (∃ e, (checkpointLocked storage.save (s.withRun now runId request)).2 = .error e
        ∧ createRun now storage runId request s
          = ((checkpointLocked storage.save (s.withRun now runId request)).1, .error e))
      ∨ (checkpointLocked storage.save (s.withRun now runId request)).2 = .ok ()
        ∧ createRun now storage runId request s
          = (spawn runId request (checkpointLocked storage.save (s.withRun now runId request)).1,
            .ok { pipeline := newRun now runId request, replayed := false }) := by
  unfold createRun withRun
  rw [Edit.update_bind]
  cases hsave : (checkpointLocked storage.save (addRun (newRun now runId request) request s)).2 with
  | error e => exact .inl ⟨e, rfl, Edit.bind_of_error hsave⟩
  | ok u =>
    refine .inr ⟨rfl, ?_⟩
    rw [Edit.bind_of_ok hsave]
    rfl

/-- An executor goes on. -/
theorem Sound.update_tasks (h : s.Sound) {next : Option Executor}
    (hinit : s.initialized = true ∨ next = none)
    (hnext : ∀ executor i, next = some executor → executor.working = some i →
      ∀ state ∈ s.snapshots, state.Begun runId i) :
    Sound { s with tasks := Function.update s.tasks runId next } where
  states := h.states
  begun := by
    intro other executor i hexecutor hworking
    replace hexecutor : Function.update s.tasks runId next other = some executor := hexecutor
    by_cases hother : other = runId
    · subst hother
      rw [Function.update_self] at hexecutor
      exact hnext executor i hexecutor hworking
    · rw [Function.update_of_ne hother] at hexecutor
      exact h.begun hexecutor hworking
  durable := h.durable
  known := h.known
  idle := by
    intro hfalse
    refine ⟨(h.idle hfalse).1, ?_⟩
    rcases hinit with htrue | rfl
    · rw [show s.initialized = false from hfalse] at htrue
      cases htrue
    · show Function.update s.tasks runId none = _
      rw [(h.idle hfalse).2, Function.update_eq_self_iff]

theorem Sound.spawn (h : s.Sound) (hinit : s.initialized = true) :
    (spawn runId request s).Sound := by
  unfold InMemoryPipelineService.spawn
  split
  · apply h.update_tasks (.inl hinit)
    intro executor i hnext hworking
    obtain rfl := Option.some.inj hnext
    cases hworking
  · exact h

theorem Sound.createRun (h : s.Sound) (hinit : s.initialized = true)
    (hfresh : s.tasks runId = none) :
    (createRun now storage runId request s).1.Sound := by
  have hadded : Sound (InMemoryPipelineService.withRun now runId request s) := h.withRun hfresh
  have hsaved := hadded.checkpoint storage.save
  rcases createRun_cases now storage runId request s with ⟨e, -, hresult⟩ | ⟨-, hresult⟩
  · rw [hresult]
    exact hsaved
  · rw [hresult]
    exact hsaved.spawn ((checkpointLocked_rest _ _).2.1.trans hinit)

/-- What a trigger does once the service is initialized. -/
theorem triggerSection_cases (now : Instant) (storage : Storage) (runId : String)
    (request : PipelineTriggerRequest) (s : InMemoryPipelineService) :
    (∃ r, triggerSection now storage runId request s = (s, r))
      ∨ triggerSection now storage runId request s = createRun now storage runId request s := by
  unfold triggerSection
  cases hclosed : s.closed with
  | true => exact .inl ⟨_, Edit.bind_eq_of_error (ensureOpen_of_closed hclosed)⟩
  | false =>
    rw [Edit.bind_eq_of_ok (ensureOpen_of_open hclosed), Edit.read_bind]
    cases request.idempotencyKey.bind s.triggerKeys.get? with
    | none => exact .inr rfl
    | some previous =>
      refine .inl ?_
      show ∃ r, replayTrigger request previous s = (s, r)
      unfold replayTrigger
      split
      · exact ⟨_, rfl⟩
      · rw [Edit.read_bind]
        cases s.runs.get? previous.1 with
        | none => exact ⟨_, rfl⟩
        | some run => exact ⟨_, rfl⟩

theorem Sound.triggerSection (h : s.Sound) (hinit : s.initialized = true)
    (hfresh : s.tasks runId = none) :
    (triggerSection now storage runId request s).1.Sound := by
  rcases triggerSection_cases now storage runId request s with ⟨r, hresult⟩ | hresult
  · rw [hresult]
    exact h
  · rw [hresult]
    exact h.createRun hinit hfresh

/-! ## Executors -/

/-- What is stored after a save that has not raised, and what is known of it, is the memory. -/
theorem checkpointLocked_ok_snapshots (h : s.Sound) (hsave : (checkpointLocked o s).2 = .ok ()) :
    ∀ state ∈ (checkpointLocked o s).1.snapshots, state = s.memory := by
  intro state hstate
  obtain ⟨hmemory, hrest⟩ := checkpointLocked_ok hsave
  rw [mem_snapshots, hmemory] at hstate
  rcases hstate with hsame | hstored | hdurable
  · exact hsame
  · rcases hrest with ⟨-, hnone, -⟩ | ⟨hsome, -⟩
    · rw [hnone] at hstored
      cases hstored
    · exact (Option.some.inj (hsome.symm.trans hstored)).symm
  · rcases hrest with ⟨hp, -, hnone⟩ | ⟨-, hsome⟩
    · rw [hnone, h.durable hp] at hdurable
      cases hdurable
    · exact (Option.some.inj (hsome.symm.trans hdurable)).symm

theorem working_failed {executor next : Executor} {e : PipelineFailure}
    (h : proceed executor (.error e) = some next) : next.working = none := by
  cases executor
  case failing => cases h
  all_goals
    obtain rfl := Option.some.inj h
    rfl

/-- There are executors only once the service is initialized. -/
theorem Sound.initialized_of_task (h : s.Sound) {executor : Executor}
    (hexecutor : s.tasks runId = some executor) : s.initialized = true := by
  cases hinit : s.initialized with
  | true => rfl
  | false =>
    rw [(h.idle hinit).2] at hexecutor
    cases hexecutor

theorem executeSection_ended (h : s.Sound) {executor : Executor} {stopped : Bool}
    (hexecutor : s.tasks runId = some executor) : Ended storage.save s (Placed runId executor)
      (executeSection now storage stopped runId executor s) := by
  cases executor with
  | entering =>
    show Ended _ _ _ (enter now storage runId s)
    unfold enter
    rw [Edit.bind_eq_of_ok (initializeLocked_of_initialized (h.initialized_of_task hexecutor))]
    exact enterRun_ended h.memory
  | stageEntry i n => exact enterStage_ended h.memory
  | jobEntry i n j m => exact enterJob_ended h.memory
  | waiting i n j m => exact awake_ended
  | jobExit i n j m =>
    exact exitJob_ended h.memory (h.begun hexecutor rfl _ (mem_snapshots.mpr (.inl rfl)))
  | stageExit i n => exact exitStage_ended h.memory
  | leaving => exact leave_ended h.memory
  | failing message => exact handle_ended h.memory

theorem Sound.execute (h : s.Sound) {stopped : Bool} :
    (execute now storage stopped runId s).Sound := by
  unfold InMemoryPipelineService.execute
  cases hexecutor : s.tasks runId with
  | none => exact h
  | some executor =>
    have hended : Ended storage.save s (Placed runId executor)
      (executeSection now storage stopped runId executor s) := executeSection_ended h hexecutor
    have hsound := hended.sound h
    have hinit := hended.initialized.trans (h.initialized_of_task hexecutor)
    apply hsound.update_tasks (.inl hinit)
    intro next i hnext hworking
    have hkept : executor.working = some i → ∀ state ∈ (executeSection now storage stopped runId
        executor s).1.snapshots, state.Begun runId i := fun hbefore =>
      hsound.begun (hended.tasks ▸ hexecutor) hbefore
    generalize executeSection now storage stopped runId executor s = r at *
    cases hended with
    | raised e =>
      rw [working_failed hnext] at hworking
      cases hworking
    | unchanged a hq =>
      rcases hq next i hnext hworking with hbefore | ⟨state, hnone, -⟩
      · exact hkept hbefore
      · cases hnone
    | @saved s₁ a hw hq =>
      cases hsave : (checkpointLocked storage.save s₁).2 with
      | error e =>
        rw [saving_error hsave] at hnext
        rw [working_failed hnext] at hworking
        cases hworking
      | ok u =>
        rw [saving_ok hsave] at hnext
        rcases hq next i hnext hworking with hbefore | ⟨state, hstate, hbegun⟩
        · exact hkept hbefore
        · intro other hother
          rw [checkpointLocked_ok_snapshots (h.worked hw) hsave other hother]
          exact Option.some.inj hstate ▸ hbegun

/-! ## Steps -/

/-- What happens to a service: a call, a section of an executor, or the end of the process. -/
inductive Event where
  /-- `initialize`, `get` or `list_runs`. -/
  | read
  | trigger (runId : String) (request : PipelineTriggerRequest)
  | cancel (runId : String)
  | applyCallback (runId : String) (callback : PipelineCallbackRequest)
  | shutdown
  | reset
  | execute (runId : String) (stopped : Bool)
  /-- An executor that a shutdown has cancelled ends. -/
  | endTask (runId : String)
  /-- The process ends, and a new one starts over what is stored. -/
  | restart

/-- An event, when it happens and how the persistence layer behaves. -/
structure Step where
  now : Instant
  storage : Storage
  event : Event

/-- One step; the name of a new run has not been used before. -/
def step (s : InMemoryPipelineService) (e : Step) : InMemoryPipelineService :=
  match e.event with
  | .read => (initializeLocked e.now e.storage s).1
  | .trigger runId request =>
    if s.Fresh runId then (trigger e.now e.storage runId request s).1 else s
  | .cancel runId => (cancel e.now e.storage runId s).1
  | .applyCallback runId callback => (applyCallback e.now e.storage runId callback s).1
  | .shutdown => (shutdown e.now e.storage s).1
  | .reset => (reset e.now e.storage s).1
  | .execute runId stopped => execute e.now e.storage stopped runId s
  | .endTask runId =>
    if s.closed then { s with tasks := Function.update s.tasks runId none } else s
  | .restart => create s.persistence

theorem Sound.create (h : s.Sound) : (create s.persistence).Sound where
  states state hstate := by
    rcases mem_snapshots.mp hstate with rfl | hstored | hdurable
    · exact PipelinePersistenceState.sound_empty
    · exact h.persisted hstored
    · cases hdurable
  begun hexecutor := by cases hexecutor
  durable _ := rfl
  known hinit hsome := by
    have hnone : s.persistence.isNone = true := hinit
    have hsome : s.persistence.isSome = true := hsome
    cases hp : s.persistence with
    | none =>
      rw [hp] at hsome
      cases hsome
    | some stored =>
      rw [hp] at hnone
      cases hnone
  idle hinit := by
    refine ⟨?_, rfl⟩
    have hnone : s.persistence.isNone = false := hinit
    show s.persistence.isSome = true
    cases hp : s.persistence with
    | none =>
      rw [hp] at hnone
      cases hnone
    | some stored => rfl

theorem cleared_snapshots (s : InMemoryPipelineService) :
    ∀ state ∈ s.cleared.snapshots, state = .empty := by
  intro state hstate
  rcases mem_snapshots.mp hstate with hsame | hstored | hdurable
  · exact hsame
  · obtain ⟨_, -, heq⟩ := Option.map_eq_some_iff.mp hstored
    exact heq.symm
  · obtain ⟨_, -, heq⟩ := Option.map_eq_some_iff.mp hdurable
    exact heq.symm

theorem cleared_sound (s : InMemoryPipelineService) : s.cleared.Sound := by
  refine ⟨?_, ?_, ?_, ?_, ?_⟩
  · intro state hstate
    rw [cleared_snapshots s state hstate]
    exact PipelinePersistenceState.sound_empty
  · intro _ _ _ hexecutor
    cases hexecutor
  · intro hnone
    exact hnone
  · intro _ hsome
    exact hsome
  · intro hinit
    cases hinit

theorem Sound.step (h : s.Sound) (e : Step) : (step s e).Sound := by
  obtain ⟨now, storage, event⟩ := e
  cases event with
  | read => exact h.initialization
  | trigger runId request =>
    show Sound (if s.Fresh runId then _ else s)
    split
    · next hfresh =>
      exact h.initialized_bind fun s₀ htasks hinit hs =>
        hs.triggerSection hinit (htasks ▸ hfresh.1)
    · exact h
  | cancel runId =>
    exact h.initialized_bind fun _ _ _ hs => (cancelSection_ended hs.memory).sound hs
  | applyCallback runId callback =>
    exact h.initialized_bind fun _ _ _ hs => (callbackSection_ended hs.memory).sound hs
  | shutdown =>
    exact h.initialized_bind fun _ _ _ hs => (shutdownSection_ended hs.memory).sound hs
  | reset => exact h.initialized_bind fun s₀ _ _ _ => cleared_sound s₀
  | execute runId stopped => exact h.execute
  | endTask runId =>
    show Sound (if s.closed then _ else s)
    split
    · exact h.update_tasks (.inr rfl) fun _ _ hnext => by cases hnext
    · exact h
  | restart => exact h.create

/-- A service over no persistence layer, or over one that is empty. -/
def initial (durable : Bool) : InMemoryPipelineService :=
  create (if durable then some .empty else none)

theorem initial_sound (durable : Bool) : (initial durable).Sound := by
  have hempty : ∀ state ∈ (initial durable).snapshots, state = .empty := by
    intro state hstate
    rcases mem_snapshots.mp hstate with hmemory | hstored | hdurable
    · exact hmemory
    · cases durable with
      | false => cases hstored
      | true => exact (Option.some.inj hstored).symm
    · cases hdurable
  refine ⟨?_, ?_, ?_, ?_, ?_⟩
  · intro state hstate
    rw [hempty state hstate]
    exact PipelinePersistenceState.sound_empty
  · intro _ _ _ hexecutor
    cases hexecutor
  · intro _
    rfl
  · cases durable <;> simp [initial, create]
  · cases durable <;> simp [initial, create]

/-- Whatever happens, every tree is sound, in memory and in what is stored. -/
theorem run_sound (durable : Bool) (es : List Step) :
    (Transition.run step (initial durable) es).Sound :=
  Transition.invariant_run (fun _ e h => h.step e) (initial_sound durable) es

end InMemoryPipelineService

end QaPlatform.Pipeline
