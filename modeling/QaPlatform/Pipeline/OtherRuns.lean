import QaPlatform.Pipeline.ServiceSteps

/-!
# Other runs

A section that is about one run leaves every other run as it is, in memory and in whatever the
memory can become when a save raises. So the runs of one service do not disturb each other,
however the saves of one of them end.

`KeepsRun` is about snapshots: a run is, in every snapshot there is now, as it was in one that
there has been. A save that raises may bring an earlier snapshot back, so this is more than that
the memory keeps the run. `Aside` says in addition that the executors are left alone; it is
proved of every section that names another run, and of the trigger of a new one.
-/

namespace QaPlatform.Pipeline

namespace InMemoryPipelineService

variable {s : InMemoryPipelineService} {o : SaveOutcome} {runId : String}
  {now : Instant} {storage : Storage} {stopped : Bool}

/-- In every snapshot there is now, the run is as it was in one that there has been. -/
def KeepsRun (runId : String) (s s' : InMemoryPipelineService) : Prop :=
  ∀ state' ∈ s'.snapshots, ∃ state ∈ s.snapshots, state'.runs.get? runId = state.runs.get? runId

theorem KeepsRun.refl (s : InMemoryPipelineService) : KeepsRun runId s s :=
  fun state hstate => ⟨state, hstate, rfl⟩

theorem KeepsRun.trans {s s' s'' : InMemoryPipelineService} (h : KeepsRun runId s s')
    (h' : KeepsRun runId s' s'') : KeepsRun runId s s'' := by
  intro state'' hstate''
  obtain ⟨state', hstate', heq'⟩ := h' state'' hstate''
  obtain ⟨state, hstate, heq⟩ := h state' hstate'
  exact ⟨state, hstate, heq'.trans heq⟩

theorem keepsRun_checkpoint (o : SaveOutcome) (s : InMemoryPipelineService) :
    KeepsRun runId s (checkpointLocked o s).1 := by
  intro state' hstate'
  obtain ⟨state, hstate, heq⟩ := checkpointLocked_runs o s state' hstate'
  exact ⟨state, hstate, by rw [heq]⟩

/-- Only the memory is changed, and the run is not. -/
theorem keepsRun_of_memory {s s' : InMemoryPipelineService} (hp : s'.persistence = s.persistence)
    (hd : s'.durableState = s.durableState)
    (hrun : s'.runs.get? runId = s.runs.get? runId) : KeepsRun runId s s' := by
  intro state' hstate'
  rcases mem_snapshots.mp hstate' with rfl | hstored | hdurable
  · exact ⟨s.memory, mem_snapshots.mpr (.inl rfl), hrun⟩
  · rw [hp] at hstored
    exact ⟨state', mem_snapshots.mpr (.inr (.inl hstored)), rfl⟩
  · rw [hd] at hdurable
    exact ⟨state', mem_snapshots.mpr (.inr (.inr hdurable)), rfl⟩

/-- A section that has left a run and the executors alone. -/
structure Aside (runId : String) (s s' : InMemoryPipelineService) : Prop where
  run : KeepsRun runId s s'
  rest : s'.tasks = s.tasks ∧ s'.initialized = s.initialized ∧ s'.closed = s.closed

theorem Aside.refl (s : InMemoryPipelineService) : Aside runId s s := ⟨.refl s, rfl, rfl, rfl⟩

theorem Aside.trans {s s' s'' : InMemoryPipelineService} (h : Aside runId s s')
    (h' : Aside runId s' s'') : Aside runId s s'' :=
  ⟨h.run.trans h'.run, h'.rest.1.trans h.rest.1, h'.rest.2.1.trans h.rest.2.1,
    h'.rest.2.2.trans h.rest.2.2⟩

section
variable {other : String} {α : Type} {x : Change PipelineRun Unit}

theorem keeps_requireRun (other : String) : Edit.Keeps (Aside runId) (requireRun other) :=
  Edit.keeps_read fun s => .refl s

theorem keeps_ensureOpen : Edit.Keeps (Aside runId) ensureOpen := by
  refine Edit.keeps_read fun s => ?_
  split
  · exact .refl s
  · exact .refl s

theorem keeps_checkpointLocked (o : SaveOutcome) :
    Edit.Keeps (Aside runId) (checkpointLocked o) :=
  fun s => ⟨keepsRun_checkpoint o s, checkpointLocked_rest o s⟩

theorem keeps_overRun (hne : runId ≠ other) : Edit.Keeps (Aside runId) (overRun other x) := by
  intro s
  refine ⟨keepsRun_of_memory rfl rfl ?_, rfl, rfl, rfl⟩
  show (Dict.edit (.keyError other) x other s.runs).1.get? runId = s.runs.get? runId
  cases hother : s.runs.get? other with
  | none => rw [Dict.edit_of_none hother]
  | some run =>
    rw [Dict.edit_of_some hother]
    exact Dict.get?_set_ne hne _

/-- Another run is changed and saved. -/
theorem keeps_commit (hne : runId ≠ other) {f : Section α}
    (hf : Edit.Keeps (Aside runId) f) : Edit.Keeps (Aside runId) (do
      overRun other x
      checkpointLocked o
      f) :=
  (keeps_overRun hne).bind .trans fun _ => (keeps_checkpointLocked _).bind .trans fun _ => hf

theorem keeps_demand {e : PipelineFailure} {found : Option α} {β : Type} {f : α → Section β}
    (hf : ∀ a, Edit.Keeps (Aside runId) (f a)) :
    Edit.Keeps (Aside runId) (Edit.lift (demand e found) >>= f) :=
  (Edit.keeps_lift .refl _).bind .trans hf

theorem keeps_return (a : α) : Edit.Keeps (Aside runId) (pure a : Section α) :=
  Edit.keeps_pure .refl a

theorem keeps_cancelSection (hne : runId ≠ other) :
    Edit.Keeps (Aside runId) (cancelSection now storage other) := by
  refine keeps_ensureOpen.bind .trans fun _ => (keeps_requireRun other).bind .trans fun run => ?_
  split
  · exact keeps_return _
  · split
    · exact Edit.keeps_raise .refl _
    · exact keeps_commit hne ((keeps_requireRun other).bind .trans fun _ => keeps_return _)

theorem keeps_callbackSection (hne : runId ≠ other)
    (callback : PipelineCallbackRequest) :
    Edit.Keeps (Aside runId) (callbackSection now storage other callback) := by
  refine keeps_ensureOpen.bind .trans fun _ => (keeps_requireRun other).bind .trans fun run =>
    Edit.keeps_read fun s => ?_
  refine keeps_demand (fun deliveredEvents => ?_) s
  cases deliveredEvents.get? callback.eventId with
  | some previous =>
    show Edit.Keeps _ (replayCallback callback run previous)
    unfold replayCallback
    split
    · exact Edit.keeps_raise .refl _
    · exact keeps_return _
  | none =>
    have hrecord : Edit.Keeps (Aside runId)
        (Edit.update (recordEvent other callback deliveredEvents) : Section PUnit) :=
      fun s => ⟨keepsRun_of_memory rfl rfl rfl, rfl, rfl, rfl⟩
    exact (keeps_overRun hne).bind .trans fun _ => hrecord.bind .trans fun _ =>
      (keeps_checkpointLocked _).bind .trans fun _ =>
        (keeps_requireRun other).bind .trans fun _ => keeps_return _

theorem keeps_enterRun (hne : runId ≠ other) :
    Edit.Keeps (Aside runId) (enterRun now storage other) := by
  refine (keeps_requireRun other).bind .trans fun run => ?_
  split
  · exact keeps_return _
  · exact keeps_commit hne (keeps_return _)

theorem keeps_enterStage (hne : runId ≠ other) (i n : Nat) :
    Edit.Keeps (Aside runId) (enterStage now storage other i n) := by
  refine (keeps_requireRun other).bind .trans fun run => ?_
  split
  · exact keeps_return _
  · refine keeps_demand fun stage => ?_
    split
    · exact keeps_return _
    · exact keeps_commit hne (keeps_return _)

theorem keeps_enterJob (hne : runId ≠ other) (i n j m : Nat) :
    Edit.Keeps (Aside runId) (enterJob now storage other i n j m) := by
  refine (keeps_requireRun other).bind .trans fun run => ?_
  split
  · exact keeps_return _
  · refine keeps_demand fun stage => ?_
    split
    · exact keeps_return _
    · refine keeps_demand fun job => ?_
      split
      · exact keeps_commit hne (keeps_return _)
      · exact keeps_commit hne (keeps_return _)

theorem keeps_exitJob (hne : runId ≠ other) (i n j m : Nat) :
    Edit.Keeps (Aside runId) (exitJob now storage other i n j m) := by
  refine (keeps_requireRun other).bind .trans fun run => ?_
  split
  · exact keeps_return _
  · refine keeps_demand fun stage => keeps_demand fun job => ?_
    split
    · exact keeps_commit hne (keeps_return _)
    · exact keeps_commit hne (keeps_return _)

theorem keeps_exitStage (hne : runId ≠ other) (i n : Nat) :
    Edit.Keeps (Aside runId) (exitStage now storage other i n) := by
  refine (keeps_requireRun other).bind .trans fun run => ?_
  split
  · exact keeps_return _
  · exact keeps_demand fun stage => keeps_commit hne (keeps_return _)

theorem keeps_leave (hne : runId ≠ other) :
    Edit.Keeps (Aside runId) (leave now storage other) := by
  refine (keeps_requireRun other).bind .trans fun run => ?_
  split
  · exact keeps_commit hne (keeps_return _)
  · exact keeps_return _

theorem keeps_handle (hne : runId ≠ other) (message : String) :
    Edit.Keeps (Aside runId) (handle now storage other message) := by
  refine Edit.keeps_read fun s => ?_
  cases s.runs.get? other with
  | none => exact .refl s
  | some run =>
    show Aside runId s ((if run.status.Terminal then _ else _ : Section (Option Executor)) s).1
    split
    · exact .refl s
    · exact keeps_commit hne (keeps_return _) s

theorem execute_of_none (h : s.tasks runId = none) : execute now storage stopped runId s = s := by
  unfold execute
  rw [h]

theorem execute_of_some {executor : Executor} (h : s.tasks runId = some executor) :
    execute now storage stopped runId s
      = let r := executeSection now storage stopped runId executor s
        { r.1 with tasks := Function.update r.1.tasks runId (proceed executor r.2) } := by
  unfold execute
  rw [h]

/-- The executor of another run. -/
theorem keeps_executeSection (hne : runId ≠ other)
    (hinit : s.initialized = true) (executor : Executor) :
    Aside runId s (executeSection now storage stopped other executor s).1 := by
  cases executor with
  | entering =>
    show Aside runId s (enter now storage other s).1
    unfold enter
    rw [Edit.bind_eq_of_ok (initializeLocked_of_initialized hinit)]
    exact keeps_enterRun hne s
  | stageEntry i n => exact keeps_enterStage hne i n s
  | jobEntry i n j m => exact keeps_enterJob hne i n j m s
  | waiting i n j m => exact .refl s
  | jobExit i n j m => exact keeps_exitJob hne i n j m s
  | stageExit i n => exact keeps_exitStage hne i n s
  | leaving => exact keeps_leave hne s
  | failing message => exact keeps_handle hne message s

/-- A new run beside a run. -/
structure Beside (runId other : String) (s s' : InMemoryPipelineService) : Prop where
  run : KeepsRun runId s s'
  task : ∀ runId, runId ≠ other → s'.tasks runId = s.tasks runId
  rest : s'.initialized = s.initialized ∧ s'.closed = s.closed

theorem triggerSection_aside (hne : runId ≠ other)
    (request : PipelineTriggerRequest) (s : InMemoryPipelineService) :
    Beside runId other s (triggerSection now storage other request s).1 := by
  rcases triggerSection_cases now storage other request s with ⟨r, hresult⟩ | hresult
  · rw [hresult]
    exact ⟨.refl s, fun _ _ => rfl, rfl, rfl⟩
  · have hsaved : Aside runId (s.withRun now other request)
        (checkpointLocked storage.save (s.withRun now other request)).1 :=
      keeps_checkpointLocked _ _
    have hbeside : Beside runId other s
        (checkpointLocked storage.save (s.withRun now other request)).1 := by
      have hadded : KeepsRun runId s (s.withRun now other request) :=
        keepsRun_of_memory rfl rfl (Dict.get?_set_ne hne _)
      exact ⟨hadded.trans hsaved.run, fun runId _ => congrFun hsaved.rest.1 runId, hsaved.rest.2⟩
    rw [hresult]
    rcases createRun_cases now storage other request s with ⟨e, -, hcreated⟩ | ⟨-, hcreated⟩
    · rw [hcreated]
      exact hbeside
    · rw [hcreated]
      unfold spawn
      split
      · refine ⟨hbeside.run, fun runId hne => ?_, hbeside.rest⟩
        show Function.update _ other _ runId = _
        rw [Function.update_of_ne hne]
        exact hbeside.task runId hne
      · exact hbeside

end

end InMemoryPipelineService

end QaPlatform.Pipeline
