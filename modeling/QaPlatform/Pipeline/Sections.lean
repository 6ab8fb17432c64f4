import QaPlatform.Pipeline.Saves

/-!
# What a section does

A section ends as it has begun, or it has edited runs in memory and saved.
-/

namespace QaPlatform.Pipeline

/-- The stage that an executor is at work in. -/
def Executor.working : Executor → Option Nat
  | .waiting i _ _ _ | .jobExit i _ _ _ => some i
  | _ => none

namespace InMemoryPipelineService

open PipelineStatus

variable {s : InMemoryPipelineService} {o : SaveOutcome} {runId : String}
  {run run' : PipelineRun} {α β : Type} {Q : α → Option PipelinePersistenceState → Prop}

/-- What a section has done before it saves. -/
structure Worked (s s₁ : InMemoryPipelineService) : Prop where
  edits : s.memory.Edits s₁.memory
  persistence : s₁.persistence = s.persistence
  durableState : s₁.durableState = s.durableState
  tasks : s₁.tasks = s.tasks
  initialized : s₁.initialized = s.initialized

/-- A save, and then the result. -/
def saving (o : SaveOutcome) (a : α) (s : InMemoryPipelineService) :
    InMemoryPipelineService × Except PipelineFailure α :=
  ((checkpointLocked o s).1, (checkpointLocked o s).2.map fun _ => a)

/-- How a section ends; `Q` is about its result and what it saves, if it saves. -/
inductive Ended (o : SaveOutcome) (s : InMemoryPipelineService)
    (Q : α → Option PipelinePersistenceState → Prop) :
    InMemoryPipelineService × Except PipelineFailure α → Prop
  | raised (e : PipelineFailure) : Ended o s Q (s, .error e)
  | unchanged (a : α) (h : Q a none) : Ended o s Q (s, .ok a)
  | saved {s₁ : InMemoryPipelineService} (a : α) (h : s.Worked s₁) (hq : Q a (some s₁.memory)) :
    Ended o s Q (saving o a s₁)

theorem checkpointLocked_pure (a : α) :
    (checkpointLocked o >>= fun _ => (pure a : Section α)) s = saving o a s := by
  unfold saving
  cases h : (checkpointLocked o s).2 with
  | ok u =>
    rw [Edit.bind_of_ok h]
    rfl
  | error e =>
    rw [Edit.bind_of_error h]
    rfl

theorem saving_ok {a : α} (h : (checkpointLocked o s).2 = .ok ()) : (saving o a s).2 = .ok a := by
  unfold saving
  rw [h]
  rfl

theorem saving_error {a : α} {e : PipelineFailure} (h : (checkpointLocked o s).2 = .error e) :
    (saving o a s).2 = .error e := by
  unfold saving
  rw [h]
  rfl

theorem requireRun_of_some (h : s.runs.get? runId = some run) :
    requireRun runId s = (s, .ok run) := by
  show (s, QaPlatform.demand _ (s.runs.get? runId)) = _
  rw [h]
  rfl

theorem requireRun_of_none (h : s.runs.get? runId = none) :
    requireRun runId s = (s, .error (.notFound ("pipeline not found: " ++ runId))) := by
  show (s, QaPlatform.demand _ (s.runs.get? runId)) = _
  rw [h]
  rfl

/-- A run that is required is there, or nothing is done. -/
theorem Ended.requireRun {f : PipelineRun → Section α}
    (hf : ∀ run, s.runs.get? runId = some run → Ended o s Q (f run s)) :
    Ended o s Q ((requireRun runId >>= f) s) := by
  cases h : s.runs.get? runId with
  | none =>
    rw [Edit.bind_eq_of_error (requireRun_of_none h)]
    exact .raised _
  | some run =>
    rw [Edit.bind_eq_of_ok (requireRun_of_some h)]
    exact hf run h

theorem Ended.demand {e : PipelineFailure} {found : Option β} {f : β → Section α}
    (hf : ∀ b, found = some b → Ended o s Q (f b s)) :
    Ended o s Q ((Edit.lift (demand e found) >>= f) s) := by
  cases found with
  | none => exact .raised e
  | some b => exact hf b rfl

theorem overRun_of_ok {x : Change PipelineRun Unit} (h : s.runs.get? runId = some run)
    (hx : x run = (run', .ok ())) :
    overRun runId x s = ({ s with runs := s.runs.set runId run' }, .ok ()) := by
  unfold overRun Edit.zoom
  rw [Dict.edit_of_some h, hx]

theorem overRun_of_error {x : Change PipelineRun Unit} {e : PipelineFailure}
    (h : s.runs.get? runId = some run) (hx : x run = (run, .error e)) :
    overRun runId x s = (s, .error e) := by
  unfold overRun Edit.zoom
  rw [Dict.edit_of_some h, hx, Dict.set_of_get? h]

theorem worked_set (h : s.memory.Sound) (hrun : s.runs.get? runId = some run)
    (hbecomes : run.Becomes run') : s.Worked { s with runs := s.runs.set runId run' } :=
  ⟨h.edits_set hrun hbecomes, rfl, rfl, rfl, rfl⟩

/-- What is returned is read after the save. -/
theorem checkpointLocked_requireRun (h : s.runs.get? runId = some run) (f : PipelineRun → α) :
    (do
      checkpointLocked o
      let run ← requireRun runId
      return f run : Section α) s = saving o (f run) s := by
  unfold saving
  cases hsave : (checkpointLocked o s).2 with
  | ok u =>
    have hruns : (checkpointLocked o s).1.runs = s.runs :=
      congrArg PipelinePersistenceState.runs (checkpointLocked_ok hsave).1
    rw [Edit.bind_of_ok hsave, Edit.bind_eq_of_ok (requireRun_of_some (hruns ▸ h))]
    rfl
  | error e =>
    rw [Edit.bind_of_error hsave]
    rfl

/-- A run is changed and saved. -/
theorem Ended.commit {x : Change PipelineRun Unit} (h : s.memory.Sound)
    (hrun : s.runs.get? runId = some run)
    (hx : ∃ run', x run = (run', .ok ()) ∧ run.Becomes run') (a : α)
    (hq : ∀ run', run.Becomes run' →
      Q a (some { s.memory with runs := s.runs.set runId run' })) :
    Ended o s Q ((do
      overRun runId x
      checkpointLocked o
      return a : Section α) s) := by
  obtain ⟨run', hrun', hbecomes⟩ := hx
  rw [Edit.bind_eq_of_ok (overRun_of_ok hrun hrun'), checkpointLocked_pure]
  exact .saved a (worked_set h hrun hbecomes) (hq run' hbecomes)

/-! ## The executor -/

section
variable {now : Instant} {storage : Storage} {executor : Executor} {i n j m : Nat}

/-- An executor that is at work in a stage has been before, or has saved that it has begun. -/
def Placed (runId : String) (executor : Executor) (next : Option Executor)
    (saved : Option PipelinePersistenceState) : Prop :=
  ∀ executor' i, next = some executor' → executor'.working = some i →
    executor.working = some i ∨ ∃ state, saved = some state ∧ state.Begun runId i

theorem placed_none {saved : Option PipelinePersistenceState} : Placed runId executor none saved :=
  fun _ _ h => by cases h

theorem placed_idle {next : Executor} (h : next.working = none)
    {saved : Option PipelinePersistenceState} : Placed runId executor (some next) saved := by
  intro executor' i heq hworking
  obtain rfl := Option.some.inj heq
  rw [h] at hworking
  cases hworking

theorem working_atStage (i n : Nat) : (atStage i n).working = none := by
  unfold atStage
  split <;> rfl

theorem working_atJob (i n j m : Nat) : (atJob i n j m).working = none := by
  unfold atJob
  split <;> rfl

theorem enterStage_ended (h : s.memory.Sound) :
    Ended storage.save s (Placed runId executor) (enterStage now storage runId i n s) := by
  unfold enterStage
  apply Ended.requireRun
  intro run hrun
  split
  · exact .unchanged none placed_none
  · next hrunning =>
    apply Ended.demand
    intro stage hi
    split
    · exact .unchanged _ (placed_idle (working_atStage _ _))
    · next hstage =>
      apply Ended.commit h hrun
      · exact PipelineRun.startStage_becomes (h.runs hrun) (not_not.mp hrunning) hi hstage
      · exact fun _ _ => placed_idle (working_atJob _ _ _ _)

theorem counts_some {stage : PipelineStageResult} (hi : run.stages[i]? = some stage) :
    run.Counts (some i) := by
  intro i' hi'
  obtain rfl := Option.some.inj hi'
  exact ⟨stage, hi⟩

theorem enterJob_ended (h : s.memory.Sound) :
    Ended storage.save s (Placed runId executor) (enterJob now storage runId i n j m s) := by
  unfold enterJob
  apply Ended.requireRun
  intro run hrun
  split
  · exact .unchanged none placed_none
  · next hrunning =>
    have hrunning := not_not.mp hrunning
    apply Ended.demand
    intro stage hi
    split
    · exact .unchanged none placed_none
    · next hstage =>
      apply Ended.demand
      intro job hj
      split
      · next hjob =>
        apply Ended.commit h hrun
        · exact PipelineRun.aggregate_becomes (h.runs hrun) hrunning (counts_some hi)
        · exact fun _ _ => placed_idle (working_atJob _ _ _ _)
      · next hjob =>
        apply Ended.commit h hrun
        · exact PipelineRun.startJob_becomes (h.runs hrun) hrunning hi (not_not.mp hstage) hj hjob
        · -- the stage is running and stays begun
          intro run' hbecomes next i' hnext hworking
          obtain rfl := Option.some.inj hnext
          obtain rfl := Option.some.inj hworking
          have hbegun : s.memory.Begun runId i := by
            intro other stage' hother hstage'
            rw [hrun, Option.some.injEq] at hother
            subst hother
            rw [hi, Option.some.injEq] at hstage'
            subst hstage'
            rw [not_not.mp hstage]
            decide
          exact .inr ⟨_, rfl, (h.edits_set hrun hbecomes).begun hbegun⟩

/-- Whoever goes on after the sleep is still in its stage. -/
theorem awake_ended {stopped : Bool} : Ended storage.save s (Placed runId (.waiting i n j m))
    (awake runId stopped i n j m s) := by
  unfold awake
  rw [Edit.read_bind]
  split
  · exact .unchanged none placed_none
  · refine .unchanged _ fun next i' hnext hworking => .inl ?_
    obtain rfl := Option.some.inj hnext
    exact hworking

theorem exitJob_ended (h : s.memory.Sound) (hbegun : s.memory.Begun runId i) :
    Ended storage.save s (Placed runId executor) (exitJob now storage runId i n j m s) := by
  unfold exitJob
  apply Ended.requireRun
  intro run hrun
  split
  · exact .unchanged none placed_none
  · next hrunning =>
    have hrunning := not_not.mp hrunning
    apply Ended.demand
    intro stage hi
    apply Ended.demand
    intro job hj
    split
    · next hjob =>
      apply Ended.commit h hrun
      · exact PipelineRun.aggregate_becomes (h.runs hrun) hrunning (counts_some hi)
      · exact fun _ _ => placed_idle (working_atJob _ _ _ _)
    · next hjob =>
      have hstage : stage.status ≠ .queued := hbegun run stage hrun hi
      apply Ended.commit h hrun
      · exact PipelineRun.completeJob_becomes (h.runs hrun) hrunning hi hstage hj hjob
      · intro run' _
        split
        · exact placed_none
        · exact placed_idle (working_atJob _ _ _ _)

theorem exitStage_ended (h : s.memory.Sound) :
    Ended storage.save s (Placed runId executor) (exitStage now storage runId i n s) := by
  unfold exitStage
  apply Ended.requireRun
  intro run hrun
  split
  · exact .unchanged none placed_none
  · next hrunning =>
    apply Ended.demand
    intro stage hi
    apply Ended.commit h hrun
    · exact PipelineRun.aggregateChecked_becomes (h.runs hrun) (not_not.mp hrunning)
        (counts_some hi)
    · exact fun _ _ => placed_idle (working_atStage _ _)

theorem leave_ended (h : s.memory.Sound) :
    Ended storage.save s (Placed runId executor) (leave now storage runId s) := by
  unfold leave
  apply Ended.requireRun
  intro run hrun
  split
  · next hrunning =>
    apply Ended.commit h hrun
    · exact PipelineRun.aggregateChecked_becomes (h.runs hrun) hrunning (fun _ h => by cases h)
    · exact fun _ _ => placed_none
  · exact .unchanged none placed_none

theorem handle_ended {message : String} (h : s.memory.Sound) :
    Ended storage.save s (Placed runId executor) (handle now storage runId message s) := by
  unfold handle
  rw [Edit.read_bind]
  cases hrun : s.runs.get? runId with
  | none => exact .unchanged none placed_none
  | some run =>
    show Ended _ _ _ ((if run.status.Terminal then _ else _ : Section (Option Executor)) s)
    split
    · exact .unchanged none placed_none
    · next hactive =>
      apply Ended.commit h hrun
      · exact PipelineRun.failRun_becomes (h.runs hrun) (not_terminal_iff.mp hactive)
      · exact fun _ _ => placed_none

theorem enterRun_ended (h : s.memory.Sound) :
    Ended storage.save s (Placed runId executor) (enterRun now storage runId s) := by
  unfold enterRun
  apply Ended.requireRun
  intro run hrun
  split
  · exact .unchanged none placed_none
  · next hqueued =>
    apply Ended.commit h hrun
    · exact PipelineRun.start_becomes (h.runs hrun) (.inl (not_not.mp hqueued))
    · exact fun _ _ => placed_idle (working_atStage _ _)

end

/-! ## Calls -/

section
variable {now : Instant} {storage : Storage} {callback : PipelineCallbackRequest}

theorem ensureOpen_of_closed (h : s.closed = true) :
    ensureOpen s = (s, .error (.serviceClosed "pipeline service is shut down")) := by
  unfold ensureOpen
  rw [Edit.read_bind, if_pos h]
  rfl

theorem ensureOpen_of_open (h : s.closed = false) : ensureOpen s = (s, .ok ()) := by
  unfold ensureOpen
  rw [Edit.read_bind, if_neg (by simp [h])]
  rfl

/-- Nothing is done once the service is closed. -/
theorem Ended.ensureOpen {f : Unit → Section α} (hf : s.closed = false → Ended o s Q (f () s)) :
    Ended o s Q ((ensureOpen >>= f) s) := by
  cases h : s.closed with
  | true =>
    rw [Edit.bind_eq_of_error (ensureOpen_of_closed h)]
    exact .raised _
  | false =>
    rw [Edit.bind_eq_of_ok (ensureOpen_of_open h)]
    exact hf h

/-- An event is recorded beside those that have been. -/
theorem recorded_set {state : PipelinePersistenceState}
    {deliveredEvents : Dict String (Digest Json)}
    (hevents : state.callbackEvents.get? runId = some deliveredEvents)
    (hnew : deliveredEvents.get? callback.eventId = none) (fingerprint : Digest Json)
    {runs : Dict String PipelineRun} {other eventId : String} {old : Digest Json}
    (h : state.Recorded other eventId old) :
    PipelinePersistenceState.Recorded { state with
      runs, callbackEvents := state.callbackEvents.set runId
        (deliveredEvents.set callback.eventId fingerprint) } other eventId old := by
  obtain ⟨events, hget, hold⟩ := h
  by_cases hother : other = runId
  · subst hother
    rw [hevents, Option.some.injEq] at hget
    subst hget
    refine ⟨_, Dict.get?_set_self _ _ _, ?_⟩
    rwa [Dict.get?_set_ne]
    rintro rfl
    rw [hnew] at hold
    cases hold
  · exact ⟨events, (Dict.get?_set_ne hother _).trans hget, hold⟩

/-- No more than a run, changed, and an event of it, recorded. -/
theorem worked_record {deliveredEvents : Dict String (Digest Json)}
    (h : s.memory.Sound) (hevents : s.callbackEvents.get? runId = some deliveredEvents)
    (hnew : deliveredEvents.get? callback.eventId = none)
    (hrun : s.runs.get? runId = some run) (hbecomes : run.Becomes run') :
    s.Worked (recordEvent runId callback deliveredEvents
      { s with runs := s.runs.set runId run' }) := by
  have hedits := h.edits_set hrun hbecomes
  have hkeys : runId ∈ s.callbackEvents.keys := Dict.mem_keys.mpr ⟨_, hevents⟩
  exact ⟨⟨hedits.runKeys, hedits.runs, rfl, Dict.keys_set_of_mem hkeys _,
    recorded_set hevents hnew _⟩, rfl, rfl, rfl, rfl⟩

theorem deliverCallback_ended {deliveredEvents : Dict String (Digest Json)}
    (h : s.memory.Sound) (hrun : s.runs.get? runId = some run)
    (hevents : s.callbackEvents.get? runId = some deliveredEvents)
    (hnew : deliveredEvents.get? callback.eventId = none) :
    Ended storage.save s (fun _ _ => True)
      (deliverCallback now storage runId callback deliveredEvents s) := by
  unfold deliverCallback
  rcases PipelineRun.reconcile_becomes (h.runs hrun) with ⟨e, he⟩ | ⟨run', hrun', hbecomes⟩
  · rw [Edit.bind_eq_of_error (overRun_of_error hrun he)]
    exact .raised e
  · rw [Edit.bind_eq_of_ok (overRun_of_ok hrun hrun'), Edit.update_bind,
      checkpointLocked_requireRun (Dict.get?_set_self s.runs runId run')]
    exact .saved _ (worked_record h hevents hnew hrun hbecomes) trivial

theorem callbackSection_ended (h : s.memory.Sound) :
    Ended storage.save s (fun _ _ => True) (callbackSection now storage runId callback s) := by
  unfold callbackSection
  apply Ended.ensureOpen
  intro _
  apply Ended.requireRun
  intro run hrun
  rw [Edit.read_bind]
  apply Ended.demand
  intro deliveredEvents hevents
  cases hprevious : deliveredEvents.get? callback.eventId with
  | some previous =>
    show Ended _ _ _ (replayCallback callback run previous s)
    unfold replayCallback
    split
    · exact .raised _
    · exact .unchanged _ trivial
  | none => exact deliverCallback_ended h hrun hevents hprevious

theorem cancelSection_ended (h : s.memory.Sound) :
    Ended storage.save s (fun _ _ => True) (cancelSection now storage runId s) := by
  unfold cancelSection
  apply Ended.ensureOpen
  intro _
  apply Ended.requireRun
  intro run hrun
  split
  · exact .unchanged _ trivial
  · split
    · exact .raised _
    · next hactive =>
      obtain ⟨run', hrun', hbecomes, -⟩ := PipelineRun.cancel_becomes (h.runs hrun)
        (not_terminal_iff.mp hactive)
      rw [Edit.bind_eq_of_ok (overRun_of_ok hrun hrun'),
        checkpointLocked_requireRun (Dict.get?_set_self s.runs runId run')]
      exact .saved _ (worked_set h hrun hbecomes) trivial

/-- Every run is changed. -/
theorem overRuns_of_ok {x : Change PipelineRun Unit} {P : PipelineRun → PipelineRun → Prop}
    (h : s.memory.Sound) (hx : ∀ run : PipelineRun, run.Sound →
      ∃ run', x run = (run', .ok ()) ∧ run.Becomes run' ∧ P run run') :
    ∃ runs, overRuns x s = ({ s with runs }, .ok ()) ∧ s.memory.Edits { s.memory with runs }
      ∧ ∀ {runId run'}, runs.get? runId = some run' →
        ∃ run, s.runs.get? runId = some run ∧ P run run' := by
  obtain ⟨runs, hruns, hkeys, hrel⟩ := Dict.editAll_ok
    (R := fun run run' => run.Becomes run' ∧ P run run') hx (fun _ _ hrun => h.runs hrun)
  refine ⟨runs, ?_, ⟨hkeys, ?_, rfl, rfl, fun h => h⟩, ?_⟩
  · unfold overRuns Edit.zoom
    rw [hruns]
  · intro runId run run' hrun hrun'
    obtain ⟨other, hother, hbecomes, -⟩ := hrel runId run hrun
    rw [hrun', Option.some.injEq] at hother
    exact hother ▸ hbecomes
  · intro runId run' hrun'
    have hmem : runId ∈ s.runs.keys := hkeys ▸ Dict.mem_keys.mpr ⟨run', hrun'⟩
    obtain ⟨run, hrun⟩ := Dict.mem_keys.mp hmem
    obtain ⟨other, hother, -, hp⟩ := hrel runId run hrun
    rw [hrun', Option.some.injEq] at hother
    exact ⟨run, hrun, hother ▸ hp⟩

theorem saving_unit (o : SaveOutcome) (s : InMemoryPipelineService) :
    saving o () s = checkpointLocked o s := by
  rw [← checkpointLocked_pure]
  cases h : checkpointLocked o s with
  | mk s' r =>
    cases r with
    | ok u => rw [Edit.bind_eq_of_ok h]; rfl
    | error e => rw [Edit.bind_eq_of_error h]

/-- Every run has ended in what is saved. -/
theorem shutdownSection_ended (h : s.memory.Sound) :
    Ended storage.save s (fun _ saved => ∀ state ∈ saved, ∀ runId run,
      state.runs.get? runId = some run → run.status.Terminal) (shutdownSection now storage s) := by
  unfold shutdownSection
  rw [Edit.update_bind]
  obtain ⟨runs, hruns, hedits, hended⟩ := overRuns_of_ok (s := { s with closed := true })
    (P := fun _ run' => run'.status.Terminal) h fun run hrun => PipelineRun.shutDownRun_becomes hrun
  rw [Edit.bind_eq_of_ok hruns, ← saving_unit]
  refine .saved () ⟨hedits, rfl, rfl, rfl, rfl⟩ fun state hstate runId run hrun => ?_
  obtain rfl := Option.some.inj hstate
  obtain ⟨_, -, hterminal⟩ := hended hrun
  exact hterminal

end

end InMemoryPipelineService

end QaPlatform.Pipeline
