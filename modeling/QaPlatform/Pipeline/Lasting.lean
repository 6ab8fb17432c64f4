import QaPlatform.Pipeline.DurableMemory

/-!
# What lasts

What no section takes from a snapshot is in every snapshot for good, whatever the persistence layer
does and wherever the process is started again.
-/

namespace QaPlatform.Pipeline

/-- What is stored can be loaded after every save of the section. -/
def Storage.Reloads (storage : Storage) : Prop :=
  storage.recoverySave.Reloads ∧ storage.save.Reloads

namespace InMemoryPipelineService

variable {s s₁ : InMemoryPipelineService} {o : SaveOutcome} {runId : String}
  {now : Instant} {storage : Storage} {request : PipelineTriggerRequest}
  {α : Type} {Q : α → Option PipelinePersistenceState → Prop}
  {P : PipelinePersistenceState → Prop} {allowed : String → Prop} {fallback : Bool}

/-- What no section takes from a snapshot, as long as new runs are given allowed names. -/
structure Lasting (allowed : String → Prop) (P : PipelinePersistenceState → Prop) : Prop where
  edits : ∀ {state state'}, state.Edits state' → P state → P state'
  empty : P .empty
  added : ∀ {s : InMemoryPipelineService} {now runId request}, allowed runId → P s.memory →
    P (s.withRun now runId request).memory

/-- Whatever the memory can become has it. -/
def Everywhere (fallback : Bool) (P : PipelinePersistenceState → Prop)
    (s : InMemoryPipelineService) : Prop :=
  ∀ state ∈ s.live fallback, P state

theorem Everywhere.checkpoint (h : Everywhere fallback P s) (hs : s.Sound)
    (ho : fallback = false → o.Reloads) : Everywhere fallback P (checkpointLocked o s).1 := by
  have hkeys := fun state hstate => (hs.states state hstate).keys
  exact fun state hstate => h state (checkpointLocked_live ho hkeys state hstate)

theorem Everywhere.worked (hP : Lasting allowed P) (h : Everywhere fallback P s)
    (hw : s.Worked s₁) :
    Everywhere fallback P s₁ := by
  intro state hstate
  rcases hw.live hstate with rfl | hold
  · exact hP.edits hw.edits (h _ (mem_live.mpr (.inl rfl)))
  · exact h state hold

theorem Ended.everywhere {r : InMemoryPipelineService × Except PipelineFailure α}
    (hP : Lasting allowed P) (h : Ended o s Q r) (hs : s.Sound) (hall : Everywhere fallback P s)
    (ho : fallback = false → o.Reloads) : Everywhere fallback P r.1 := by
  cases h with
  | raised e => exact hall
  | unchanged a _ => exact hall
  | saved a hw _ => exact (hall.worked hP hw).checkpoint (hs.worked hw) ho

theorem Everywhere.initialization (hP : Lasting allowed P) (hs : s.Sound)
    (h : Everywhere fallback P s) (hr : fallback = false → storage.Reloads) :
    Everywhere fallback P (initializeLocked now storage s).1 := by
  rcases initializeLocked_cases now storage s with
    ⟨-, hresult⟩ | ⟨-, ⟨e, hresult⟩ | ⟨stored, hp, hresult⟩⟩
  · rw [hresult]
    exact h
  · rw [hresult]
    exact h
  · rw [hresult]
    have hloaded : Everywhere fallback P (s.loaded stored) := by
      intro state hstate
      rw [loaded_snapshots (hs.persisted hp) hp state (mem_snapshots_of_live hstate)]
      exact h stored (mem_live.mpr (.inr (.inl hp)))
    rcases restoreLoaded_cases (hs.persisted hp) with ⟨-, hsame⟩ | ⟨s₁, hworked, -, hsame⟩
    · rw [hsame]
      exact hloaded
    · rw [hsame]
      have hsaved : Everywhere fallback P (checkpointLocked storage.recoverySave s₁).1 :=
        (hloaded.worked hP hworked).checkpoint ((hs.loaded hp).worked hworked) fun hf => (hr hf).1
      rcases saveRecovery_cases storage.recoverySave s₁ with ⟨-, hkept⟩ | ⟨e, hfailed⟩
      · rw [hkept]
        exact hsaved
      · rw [hfailed]
        exact hsaved

theorem Everywhere.initialized_bind (hP : Lasting allowed P) (hs : s.Sound)
    (h : Everywhere fallback P s) (hr : fallback = false → storage.Reloads) {x : Section α}
    (hx : ∀ s₀ : InMemoryPipelineService, s₀.tasks = s.tasks → s₀.Sound →
      Everywhere fallback P s₀ → Everywhere fallback P (x s₀).1) :
    Everywhere fallback P ((initializeLocked now storage >>= fun _ => x) s).1 := by
  have hbefore : Everywhere fallback P (initializeLocked now storage s).1 :=
    h.initialization hP hs hr
  cases hinit : (initializeLocked now storage s).2 with
  | error e =>
    rw [Edit.bind_of_error hinit]
    exact hbefore
  | ok u =>
    rw [Edit.bind_of_ok hinit]
    exact hx _ hs.initialization_tasks hs.initialization hbefore

theorem Everywhere.triggerSection (hP : Lasting allowed P) (hs : s.Sound)
    (h : Everywhere fallback P s) (hfresh : s.tasks runId = none) (hallowed : allowed runId)
    (hr : fallback = false → storage.Reloads) :
    Everywhere fallback P (triggerSection now storage runId request s).1 := by
  rcases triggerSection_cases now storage runId request s with ⟨r, hresult⟩ | hresult
  · rw [hresult]
    exact h
  · have hadded : Everywhere fallback P (s.withRun now runId request) := by
      intro state hstate
      rcases mem_live.mp hstate with rfl | hstored | hdurable
      · exact hP.added hallowed (h _ (mem_live.mpr (.inl rfl)))
      · exact h state (mem_live.mpr (.inr (.inl hstored)))
      · exact h state (mem_live.mpr (.inr (.inr hdurable)))
    have hsaved :
      Everywhere fallback P (checkpointLocked storage.save (s.withRun now runId request)).1 :=
      hadded.checkpoint (hs.withRun hfresh) fun hf => (hr hf).2
    rw [hresult]
    rcases createRun_cases now storage runId request s with ⟨e, -, hcreated⟩ | ⟨-, hcreated⟩
    · rw [hcreated]
      exact hsaved
    · rw [hcreated]
      unfold spawn
      split
      · exact hsaved
      · exact hsaved

theorem Everywhere.step (hP : Lasting allowed P) (hs : s.Sound) (h : Everywhere fallback P s)
    {e : Step} (hr : fallback = false → e.storage.Reloads)
    (he : ∀ runId request, e.event = .trigger runId request → allowed runId) :
    Everywhere fallback P (step s e) := by
  obtain ⟨now, storage, event⟩ := e
  have hempty : ∀ state, state = PipelinePersistenceState.empty → P state := by
    rintro state rfl
    exact hP.empty
  cases event with
  | read => exact h.initialization hP hs hr
  | trigger runId request =>
    show Everywhere fallback P (if s.Fresh runId then _ else s)
    split
    · next hfresh =>
      exact h.initialized_bind hP hs hr fun _ htasks hs₀ hall =>
        hall.triggerSection hP hs₀ (htasks ▸ hfresh.1) (he runId request rfl) hr
    · exact h
  | cancel runId =>
    exact h.initialized_bind hP hs hr fun _ _ hs₀ hall =>
      (cancelSection_ended hs₀.memory).everywhere hP hs₀ hall fun hf => (hr hf).2
  | applyCallback runId callback =>
    exact h.initialized_bind hP hs hr fun _ _ hs₀ hall =>
      (callbackSection_ended hs₀.memory).everywhere hP hs₀ hall fun hf => (hr hf).2
  | shutdown =>
    exact h.initialized_bind hP hs hr fun _ _ hs₀ hall =>
      (shutdownSection_ended hs₀.memory).everywhere hP hs₀ hall fun hf => (hr hf).2
  | reset =>
    exact h.initialized_bind hP hs hr fun s₀ _ _ _ state hstate =>
      hempty state (cleared_snapshots s₀ state (mem_snapshots_of_live hstate))
  | execute runId stopped =>
    show Everywhere fallback P (execute now storage stopped runId s)
    unfold execute
    cases hexecutor : s.tasks runId with
    | none => exact h
    | some executor =>
      exact (executeSection_ended hs hexecutor).everywhere hP hs h fun hf => (hr hf).2
  | endTask runId =>
    show Everywhere fallback P (if s.closed then _ else s)
    split
    · exact h
    · exact h
  | restart =>
    intro state hstate
    rcases mem_live.mp hstate with rfl | hstored | hdurable
    · exact hP.empty
    · exact h state (mem_live.mpr (.inr (.inl hstored)))
    · cases hdurable.2

/-- What every snapshot has, every snapshot has after whatever happens. -/
theorem Everywhere.run (hP : Lasting allowed P) (hs : s.Sound) (h : Everywhere fallback P s)
    {es : List Step} (hr : fallback = false → ∀ e ∈ es, e.storage.Reloads)
    (hes : ∀ e ∈ es, ∀ runId request, e.event = .trigger runId request → allowed runId) :
    Everywhere fallback P (Transition.run InMemoryPipelineService.step s es) := by
  have hstep : ∀ (s : InMemoryPipelineService) (e : Step), (s.Sound ∧ Everywhere fallback P s) →
      ((fallback = false → e.storage.Reloads)
        ∧ ∀ runId request, e.event = .trigger runId request → allowed runId) →
      (InMemoryPipelineService.step s e).Sound
        ∧ Everywhere fallback P (InMemoryPipelineService.step s e) :=
    fun s e h he => ⟨h.1.step e, h.2.step hP h.1 he.1 he.2⟩
  have hall : ∀ e ∈ es, (fallback = false → e.storage.Reloads)
      ∧ ∀ runId request, e.event = .trigger runId request → allowed runId :=
    fun e he => ⟨fun hf => hr hf e he, hes e he⟩
  exact (Transition.invariant_along hstep ⟨hs, h⟩ (Transition.Along.of_mem hall _)).2

end InMemoryPipelineService

end QaPlatform.Pipeline
