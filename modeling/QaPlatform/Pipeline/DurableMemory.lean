import QaPlatform.Pipeline.ServiceSteps

/-!
# The memory and what is stored

As long as what is stored can be loaded after a save that has raised, the memory of the service is
what its persistence layer holds after every operation, and the events are set for the runs that
have ended. A new process ends every run that it finds.

The last part is about a new process. When its storage works, it initializes itself; then it
holds exactly the runs that were stored, those that had ended as they were and the others
recovered, and it has stored what it holds. When it raises, nothing has been taken for loaded,
and the next operation initializes it again.
-/

namespace QaPlatform.Pipeline

/-- Nothing is raised in a section but by saves that end in one of the allowed ways. -/
structure Storage.Allows (A : SaveOutcome → Prop) (storage : Storage) : Prop where
  load : storage.loadError = none
  recoverySave : A storage.recoverySave
  save : A storage.save

namespace InMemoryPipelineService

variable {s s₁ : InMemoryPipelineService} {o : SaveOutcome} {runId : String}
  {stored : PipelinePersistenceState} {now : Instant} {storage : Storage}
  {request : PipelineTriggerRequest} {α : Type} {Q : α → Option PipelinePersistenceState → Prop}
  {A : SaveOutcome → Prop} {I : InMemoryPipelineService → Prop}

/-! ## What saves and loads establish -/

/-- `I` is established by every allowed save and by every load, whatever was before. -/
structure Settles (A : SaveOutcome → Prop) (I : InMemoryPipelineService → Prop) : Prop where
  saved : ∀ {o} {s : InMemoryPipelineService}, s.Sound → A o → I (checkpointLocked o s).1
  loaded : ∀ {s : InMemoryPipelineService} {stored}, s.Sound → s.persistence = some stored →
    I (s.loaded stored)
  cleared : ∀ s : InMemoryPipelineService, I s.cleared
  created : I (create none)
  rest : ∀ {s : InMemoryPipelineService} (tasks initialized closed), I s →
    I { s with tasks, initialized, closed }

theorem Ended.settled {r : InMemoryPipelineService × Except PipelineFailure α} (hI : Settles A I)
    (h : Ended o s Q r) (hs : s.Sound) (hi : I s) (ho : A o) : I r.1 := by
  cases h with
  | raised e => exact hi
  | unchanged a _ => exact hi
  | saved a hw _ => exact hI.saved (hs.worked hw) ho

theorem saveRecovery_cases (o : SaveOutcome) (s : InMemoryPipelineService) :
    (checkpointLocked o s).2 = .ok () ∧ saveRecovery o s = checkpointLocked o s
      ∨ ∃ e, saveRecovery o s
        = ({ (checkpointLocked o s).1 with initialized := false }, .error e) := by
  unfold saveRecovery
  cases hsave : (checkpointLocked o s).2 with
  | ok u => exact .inl ⟨rfl, rfl⟩
  | error e => exact .inr ⟨e, rfl⟩

theorem Settles.initialization (hI : Settles A I) (h : s.Sound)
    (hi : s.initialized = true → I s) (hr : storage.Allows A) :
    I (initializeLocked now storage s).1 := by
  cases hinit : s.initialized with
  | true =>
    rw [initializeLocked_of_initialized hinit]
    exact hi hinit
  | false =>
    obtain ⟨stored, hp⟩ := Option.isSome_iff_exists.mp (h.idle hinit).1
    rw [initializeLocked_of_stored hinit hp hr.load]
    rcases restoreLoaded_cases (h.persisted hp) with ⟨-, hloaded⟩ | ⟨s₁, hworked, -, hloaded⟩
    · rw [hloaded]
      exact hI.loaded h hp
    · rw [hloaded]
      have hsaved : I (checkpointLocked storage.recoverySave s₁).1 :=
        hI.saved ((h.loaded hp).worked hworked) hr.recoverySave
      rcases saveRecovery_cases storage.recoverySave s₁ with ⟨-, hsame⟩ | ⟨e, hfailed⟩
      · rw [hsame]
        exact hsaved
      · rw [hfailed]
        exact hI.rest _ _ _ hsaved

/-- An initialization that does not raise has loaded, and has saved what it has changed. -/
theorem Settles.initialization_of_ok (hI : Settles A I) (hA : A .saved) (h : s.Sound)
    (hi : s.initialized = true → I s) (hok : (initializeLocked now storage s).2 = .ok ()) :
    I (initializeLocked now storage s).1 := by
  rcases initializeLocked_cases now storage s with
    ⟨hinit, hresult⟩ | ⟨-, ⟨e, hresult⟩ | ⟨stored, hp, hresult⟩⟩
  · rw [hresult]
    exact hi hinit
  · rw [hresult] at hok
    cases hok
  · rw [hresult] at hok ⊢
    rcases restoreLoaded_cases (h.persisted hp) with ⟨-, hloaded⟩ | ⟨s₁, hworked, -, hloaded⟩
    · rw [hloaded]
      exact hI.loaded h hp
    · rw [hloaded] at hok ⊢
      rcases saveRecovery_cases storage.recoverySave s₁ with ⟨hsave, hsame⟩ | ⟨e, hfailed⟩
      · have hstored : s₁.persistence = some stored := hworked.persistence.trans hp
        have hsaved : storage.recoverySave = .saved := checkpointLocked_ok_saved hstored hsave
        rw [hsame]
        exact hI.saved ((h.loaded hp).worked hworked) (hsaved ▸ hA)
      · rw [hfailed] at hok
        cases hok

/-- A section that initializes the service before. -/
theorem Settles.initialized_bind (hI : Settles A I) (h : s.Sound)
    (hi : s.initialized = true → I s) (hr : storage.Allows A) {x : Section α}
    (hx : ∀ s₀ : InMemoryPipelineService, s₀.tasks = s.tasks → s₀.Sound → I s₀ → I (x s₀).1) :
    I ((initializeLocked now storage >>= fun _ => x) s).1 := by
  have hsettled : I (initializeLocked now storage s).1 := hI.initialization h hi hr
  cases hinit : (initializeLocked now storage s).2 with
  | error e =>
    rw [Edit.bind_of_error hinit]
    exact hsettled
  | ok u =>
    rw [Edit.bind_of_ok hinit]
    exact hx _ h.initialization_tasks h.initialization hsettled

theorem Settles.triggerSection (hI : Settles A I) (h : s.Sound) (hi : I s)
    (hfresh : s.tasks runId = none) (hr : storage.Allows A) :
    I (triggerSection now storage runId request s).1 := by
  rcases triggerSection_cases now storage runId request s with ⟨r, hresult⟩ | hresult
  · rw [hresult]
    exact hi
  · have hsaved : I (checkpointLocked storage.save (s.withRun now runId request)).1 :=
      hI.saved (h.withRun hfresh) hr.save
    rw [hresult]
    rcases createRun_cases now storage runId request s with ⟨e, -, hcreated⟩ | ⟨-, hcreated⟩
    · rw [hcreated]
      exact hsaved
    · rw [hcreated]
      unfold spawn
      split
      · exact hI.rest _ _ _ hsaved
      · exact hsaved

/-- An event that is an operation of the service. -/
def Operates (s : InMemoryPipelineService) : Event → Prop
  | .read | .cancel _ | .applyCallback _ _ | .shutdown | .reset => True
  | .trigger runId _ => s.Fresh runId
  | .execute runId _ => ∃ executor, s.tasks runId = some executor
  | .endTask _ | .restart => False

/-- What saves and loads establish is there after every operation. -/
theorem Settles.operation (hI : Settles A I) (h : s.Sound) (hi : s.initialized = true → I s)
    {e : Step} (hr : e.storage.Allows A) (he : s.Operates e.event) : I (step s e) := by
  obtain ⟨now, storage, event⟩ := e
  cases event with
  | read => exact hI.initialization h hi hr
  | trigger runId request =>
    have hfresh : s.Fresh runId := he
    show I (if s.Fresh runId then _ else s)
    rw [if_pos hfresh]
    exact hI.initialized_bind h hi hr fun _ htasks hs hin =>
      hI.triggerSection hs hin (htasks ▸ hfresh.1) hr
  | cancel runId =>
    exact hI.initialized_bind h hi hr fun _ _ hs hin =>
      (cancelSection_ended hs.memory).settled hI hs hin hr.save
  | applyCallback runId callback =>
    exact hI.initialized_bind h hi hr fun _ _ hs hin =>
      (callbackSection_ended hs.memory).settled hI hs hin hr.save
  | shutdown =>
    exact hI.initialized_bind h hi hr fun _ _ hs hin =>
      (shutdownSection_ended hs.memory).settled hI hs hin hr.save
  | reset => exact hI.initialized_bind h hi hr fun s₀ _ _ _ => hI.cleared s₀
  | execute runId stopped =>
    obtain ⟨executor, hexecutor⟩ := he
    have hended : Ended storage.save s (Placed runId executor)
        (executeSection now storage stopped runId executor s) := executeSection_ended h hexecutor
    have hsettled := hended.settled hI h (hi (h.initialized_of_task hexecutor)) hr.save
    show I (execute now storage stopped runId s)
    unfold execute
    rw [hexecutor]
    exact hI.rest _ _ _ hsettled
  | endTask runId => cases he
  | restart => cases he

/-- It is there between any two events once the service is initialized. -/
theorem Settles.step (hI : Settles A I) (h : s.Sound) (hi : s.initialized = true → I s)
    {e : Step} (hr : e.storage.Allows A) (hinit : (step s e).initialized = true) :
    I (step s e) := by
  by_cases he : s.Operates e.event
  · exact hI.operation h hi hr he
  obtain ⟨now, storage, event⟩ := e
  cases event with
  | read | cancel runId | applyCallback runId callback | shutdown | reset => exact absurd trivial he
  | trigger runId request =>
    have hsame : InMemoryPipelineService.step s ⟨now, storage, .trigger runId request⟩ = s :=
      if_neg he
    rw [hsame] at hinit ⊢
    exact hi hinit
  | execute runId stopped =>
    have hnone : s.tasks runId = none := by
      cases hexecutor : s.tasks runId with
      | none => rfl
      | some executor => exact absurd ⟨executor, hexecutor⟩ he
    have hsame : InMemoryPipelineService.step s ⟨now, storage, .execute runId stopped⟩ = s := by
      show execute now storage stopped runId s = s
      unfold execute
      rw [hnone]
    rw [hsame] at hinit ⊢
    exact hi hinit
  | endTask runId =>
    by_cases hclosed : s.closed = true
    · have hstopped : InMemoryPipelineService.step s ⟨now, storage, .endTask runId⟩
          = { s with tasks := Function.update s.tasks runId none } := if_pos hclosed
      rw [hstopped] at hinit ⊢
      exact hI.rest _ _ _ (hi hinit)
    · have hsame : InMemoryPipelineService.step s ⟨now, storage, .endTask runId⟩ = s :=
        if_neg hclosed
      rw [hsame] at hinit ⊢
      exact hi hinit
  | restart =>
    have hnone : s.persistence.isNone = true := hinit
    show I (create s.persistence)
    rw [Option.isNone_iff_eq_none.mp hnone]
    exact hI.created

theorem run_settled (hI : Settles A I) (durable : Bool) {es : List Step}
    (hes : ∀ e ∈ es, e.storage.Allows A) :
    (Transition.run step (initial durable) es).initialized = true →
      I (Transition.run step (initial durable) es) := by
  have hstep : ∀ (s : InMemoryPipelineService) (e : Step),
      (s.Sound ∧ (s.initialized = true → I s)) → e.storage.Allows A →
      (step s e).Sound ∧ ((step s e).initialized = true → I (step s e)) :=
    fun s e h hr => ⟨h.1.step e, hI.step h.1 h.2 hr⟩
  have hinitial : (initial durable).initialized = true → I (initial durable) := by
    intro hinit
    cases durable with
    | false => exact hI.created
    | true => cases hinit
  exact (Transition.invariant_along hstep ⟨initial_sound durable, hinitial⟩
    (Transition.Along.of_mem hes _)).2

/-! ## The memory is what is stored -/

/-- The events are set exactly for the runs that have ended. -/
def EventsSet (s : InMemoryPipelineService) : Prop :=
  s.cancelEvents = terminalEvents s.runs ∧ s.completionEvents = terminalEvents s.runs

/-- The memory is what is stored, and the events are set for the runs that are over. -/
structure InStep (s : InMemoryPipelineService) : Prop where
  stored : ∀ stored, s.persistence = some stored → s.memory = stored
  events : s.EventsSet

theorem restoreState_events (stored : PipelinePersistenceState) (s : InMemoryPipelineService) :
    (s.restoreState stored).EventsSet := ⟨rfl, rfl⟩

/-- After a save the memory is in step, however it has ended. -/
theorem Sound.checkpoint_inStep (h : s.Sound) (ho : o.Reloads) :
    (checkpointLocked o s).1.InStep := by
  cases hp : s.persistence with
  | none =>
    rw [checkpointLocked_of_none hp]
    refine ⟨fun stored hstored => ?_, rfl, rfl⟩
    rw [show s.synchronizeTerminalEvents.persistence = s.persistence from rfl, hp] at hstored
    cases hstored
  | some stored =>
    cases o with
    | saved =>
      rw [checkpointLocked_saved hp]
      exact ⟨fun _ hstored => Option.some.inj hstored, rfl, rfl⟩
    | raised message written reloads =>
      obtain rfl : reloads = true := ho
      rw [checkpointLocked_raised hp]
      have hcontent : (if written then s.memory else stored).Sound := by
        split
        · exact h.memory
        · exact h.persisted hp
      refine ⟨fun content hstored => ?_, restoreState_events _ s⟩
      rw [(reconcileMemory_rest _ true s).1, Option.some.injEq] at hstored
      rw [← hstored]
      exact restoreState_memory s hcontent.keys

theorem inStep_settles : Settles SaveOutcome.Reloads InStep where
  saved hs ho := hs.checkpoint_inStep ho
  loaded := by
    intro s stored hs hp
    refine ⟨fun content hcontent => ?_, restoreState_events stored s⟩
    rw [loaded_memory (hs.persisted hp)]
    exact Option.some.inj (hp.symm.trans hcontent)
  cleared s := by
    refine ⟨fun stored hstored => ?_, rfl, rfl⟩
    obtain ⟨_, -, hempty⟩ := Option.map_eq_some_iff.mp hstored
    exact hempty
  created := by
    refine ⟨fun _ hstored => ?_, rfl, rfl⟩
    cases hstored
  rest _ _ _ h := ⟨h.stored, h.events⟩

/-! ## Restarts -/

/-- A new process initializes itself whenever its storage works. -/
theorem Sound.initialization_ok (h : s.Sound) (hinit : s.initialized = false)
    (hload : storage.loadError = none) (hsave : storage.recoverySave = .saved) :
    (initializeLocked now storage s).2 = .ok () := by
  obtain ⟨stored, hp⟩ := Option.isSome_iff_exists.mp (h.idle hinit).1
  rw [initializeLocked_of_stored hinit hp hload]
  rcases restoreLoaded_cases (h.persisted hp) with ⟨-, hloaded⟩ | ⟨s₁, -, -, hloaded⟩
  · rw [hloaded]
  · rw [hloaded, hsave]
    have hok := checkpointLocked_saved_ok s₁
    unfold InMemoryPipelineService.saveRecovery
    rw [hok]
    exact hok

/-- A service that has initialized itself holds the runs that were stored, each of them over, and
what it holds is stored. -/
theorem Sound.initialization_recovers (h : s.Sound) (hinit : s.initialized = false)
    (hp : s.persistence = some stored) (hok : (initializeLocked now storage s).2 = .ok ()) :
    stored.Recovered (initializeLocked now storage s).1.memory
      ∧ (initializeLocked now storage s).1.persistence
        = some (initializeLocked now storage s).1.memory := by
  rcases initializeLocked_cases now storage s with
    ⟨htrue, -⟩ | ⟨-, ⟨e, hresult⟩ | ⟨content, hcontent, hresult⟩⟩
  · rw [hinit] at htrue
    cases htrue
  · rw [hresult] at hok
    cases hok
  · obtain rfl : stored = content := Option.some.inj (hp.symm.trans hcontent)
    rw [hresult] at hok ⊢
    rcases restoreLoaded_cases (h.persisted hp) with
      ⟨hrecovered, hloaded⟩ | ⟨s₁, hworked, hrecovered, hloaded⟩
    · rw [hloaded, loaded_memory (h.persisted hp)]
      exact ⟨hrecovered, hp⟩
    · rw [hloaded] at hok ⊢
      rcases saveRecovery_cases storage.recoverySave s₁ with ⟨hsave, hsaved⟩ | ⟨e, hfailed⟩
      · obtain ⟨hmemory, ⟨hnone, -⟩ | ⟨hstored, -⟩⟩ := checkpointLocked_ok hsave
        · have hsame : s₁.persistence = some stored := hworked.persistence.trans hp
          rw [hnone] at hsame
          cases hsame
        · rw [hsaved, hmemory]
          exact ⟨hrecovered, hstored⟩
      · rw [hfailed] at hok
        cases hok

/-- When it raises, it will do it again. -/
theorem Sound.initialization_raised (h : s.Sound) (hinit : s.initialized = false)
    (hraised : (initializeLocked now storage s).2 ≠ .ok ()) :
    (initializeLocked now storage s).1.initialized = false := by
  rcases initializeLocked_cases now storage s with
    ⟨htrue, -⟩ | ⟨-, ⟨e, hresult⟩ | ⟨stored, hp, hresult⟩⟩
  · rw [hinit] at htrue
    cases htrue
  · rw [hresult]
    exact hinit
  · rw [hresult] at hraised ⊢
    rcases restoreLoaded_cases (h.persisted hp) with ⟨-, hloaded⟩ | ⟨s₁, -, -, hloaded⟩
    · rw [hloaded] at hraised
      exact absurd rfl hraised
    · rw [hloaded] at hraised ⊢
      rcases saveRecovery_cases storage.recoverySave s₁ with ⟨hsave, hsaved⟩ | ⟨e, hfailed⟩
      · rw [hsaved] at hraised
        exact absurd hsave hraised
      · rw [hfailed]

/-- After an operation the memory is what is stored and the events are set for the runs that have
ended. A new process over what is stored initializes itself if its storage works; when it has done
so, it holds exactly the runs that were stored, each of them over, and has stored them so; when it
has raised, it will do it again. -/
theorem memory_is_durable (durable : Bool) (es : List Step) (e : Step)
    (hes : ∀ e' ∈ es, e'.storage.Allows SaveOutcome.Reloads)
    (he : e.storage.Allows SaveOutcome.Reloads)
    (hop : Operates (Transition.run step (initial durable) es) e.event) :
    let s := step (Transition.run step (initial durable) es) e
    (∀ stored, s.persistence = some stored → s.runs = stored.runs
        ∧ s.triggerKeys = stored.triggerKeys ∧ s.callbackEvents = stored.callbackEvents)
      ∧ (∀ runId, s.cancelEvents.get? runId
          = (s.runs.get? runId).map fun run => decide run.status.Terminal)
      ∧ (∀ runId, s.completionEvents.get? runId
          = (s.runs.get? runId).map fun run => decide run.status.Terminal)
      ∧ ∀ stored now storage, s.persistence = some stored →
        let r := initializeLocked now storage (create s.persistence)
        (storage.loadError = none → storage.recoverySave = .saved → r.2 = .ok ())
          ∧ (r.2 = .ok () → stored.Recovered r.1.memory ∧ r.1.persistence = some r.1.memory)
          ∧ (r.2 ≠ .ok () → r.1.initialized = false) := by
  intro s
  have hbefore := run_sound durable es
  have hsound : s.Sound := hbefore.step e
  have hin : s.InStep :=
    inStep_settles.operation hbefore (run_settled inStep_settles durable hes) he hop
  refine ⟨fun stored hstored => ?_, fun runId => ?_, fun runId => ?_,
    fun stored now storage hp => ?_⟩
  · have hsame := hin.stored stored hstored
    exact ⟨congrArg (·.runs) hsame, congrArg (·.triggerKeys) hsame,
      congrArg (·.callbackEvents) hsame⟩
  · rw [hin.events.1]
    exact Dict.get?_mapVals _ _ _
  · rw [hin.events.2]
    exact Dict.get?_mapVals _ _ _
  · have hnew : (create s.persistence).initialized = false := by
      show s.persistence.isNone = false
      rw [hp]
      rfl
    exact ⟨hsound.create.initialization_ok hnew, hsound.create.initialization_recovers hnew hp,
      hsound.create.initialization_raised hnew⟩

end InMemoryPipelineService

/-- A pipeline with one job. -/
def lesson : PipelineTriggerRequest where
  name := "lesson"
  stages := [⟨"build", [⟨"compile", 0, false⟩], by decide, by decide⟩]
  idempotencyKey := none
  autoStart := false
  triggerVariables := []
  stages_ne := by decide
  stageNamesAreUnique := by decide

/-- Its job has succeeded. -/
def lessonCompiled : PipelineCallbackRequest where
  eventId := "event-1"
  target := .job
  status := .succeeded
  stageName := some "build"
  jobName := some "compile"
  message := none
  names := by decide

/-- A callback whose save has taken effect before it has raised. -/
theorem InMemoryPipelineService.lesson_is_durable :
    let s := step (Transition.run step (initial true) [⟨0, {}, .trigger "run-1" lesson⟩])
      ⟨1, { save := .raised "connection lost" true true }, .applyCallback "run-1" lessonCompiled⟩
    ∀ stored, s.persistence = some stored → s.runs = stored.runs
      ∧ s.triggerKeys = stored.triggerKeys ∧ s.callbackEvents = stored.callbackEvents :=
  (memory_is_durable true [⟨0, {}, .trigger "run-1" lesson⟩]
    ⟨1, { save := .raised "connection lost" true true }, .applyCallback "run-1" lessonCompiled⟩
    (List.forall_mem_singleton.mpr ⟨rfl, trivial, trivial⟩) ⟨rfl, trivial, rfl⟩ trivial).1

end QaPlatform.Pipeline
