import QaPlatform.CiLab.AgreeingViews
import QaPlatform.Runtime.JsonTexts

/-!
# Histories of views

One CI Lab with its definitions, called at any clock readings. What its rows are keeps to their
definitions through every history whose calls meet `Meets`, and every view that is served on the
way agrees with itself.

`Meets` is about the state before a call and the clock: the definition is the one that the run
was made of, and a run that is stored as done is looked at from where it is done. `SoundRuns` is
what calls under this condition keep. The counterexample is a run that waits for approval when
the clock goes back: its view shows a job that is running again.
-/

namespace QaPlatform.CiLab

open QaPlatform.Runtime (jsonString jsonOption jsonString_append_inj)

/-! ## Fingerprints -/

/-- A trigger's fingerprint tells its definition. -/
theorem key_of_triggerFingerprint {setup : Setup} {definition definition' : PipelineDefinition}
    {request request' : TriggerRunRequest}
    (h : triggerFingerprint setup definition request
      = triggerFingerprint setup definition' request') : definition.key = definition'.key := by
  have hbrace : "\x7b".toList = ['\x7b'] := rfl
  have hdefinition : "\"definition\":".toList
      = ['"', 'd', 'e', 'f', 'i', 'n', 'i', 't', 'i', 'o', 'n', '"', ':'] := rfl
  have hcorrelation : "\x7b\"correlation_id\":".toList
      = ['\x7b', '"', 'c', 'o', 'r', 'r', 'e', 'l', 'a', 't', 'i', 'o', 'n', '_', 'i',
        'd', '"', ':'] :=
    rfl
  have hcomma : ",".toList = [','] := rfl
  have hpaired := request.paired
  have hpaired' := request'.paired
  have htext := congrArg (fun digest => String.toList digest.preimage) h
  cases hconnection : request.webhookConnectionId with
  | none =>
    cases hconnection' : request'.webhookConnectionId with
    | none =>
      simp only [triggerFingerprint, hconnection, hconnection', String.toList_append, hbrace,
        hdefinition, List.append_assoc, List.cons_append, List.nil_append, List.cons.injEq,
        true_and] at htext
      exact (jsonString_append_inj htext).1
    | some connectionId' =>
      simp [triggerFingerprint, hconnection, hconnection', hbrace, hdefinition,
        hcorrelation] at htext
  | some connectionId =>
    cases hconnection' : request'.webhookConnectionId with
    | none =>
      simp [triggerFingerprint, hconnection, hconnection', hbrace, hdefinition,
        hcorrelation] at htext
    | some connectionId' =>
      rw [hconnection] at hpaired
      rw [hconnection'] at hpaired'
      obtain ⟨correlationId, hid⟩ := Option.isSome_iff_exists.mp hpaired.symm
      obtain ⟨correlationId', hid'⟩ := Option.isSome_iff_exists.mp hpaired'.symm
      simp only [triggerFingerprint, hconnection, hconnection', hid, hid', jsonOption,
        String.toList_append, hcorrelation, hdefinition, hcomma, List.append_assoc,
        List.cons_append, List.nil_append, List.cons.injEq, true_and] at htext
      obtain ⟨-, hrest⟩ := jsonString_append_inj htext
      simp only [List.cons.injEq, true_and] at hrest
      exact (jsonString_append_inj hrest).1

namespace CiLabStore

variable {setup : Setup} {registry : DefinitionRegistry} {definitions : List CheckedDefinition}
  {isoformat : Instant → String} {uuid : Uuid → String} {s s' s₁ : CiLabStore} {now : Instant}
  {call : Call} {run record : RunRecord} {gate : Option QualityGateRecord}
  {definition : PipelineDefinition} {view : RunView}

/-! ## Calls and conditions -/

/-- The view that a call returns, if it does. -/
def servedView (setup : Setup) (registry : DefinitionRegistry) (s : CiLabStore) (now : Instant) :
    Call → Option RunView
  | .trigger definitionKey request idempotencyKey =>
    (s.trigger setup registry definitionKey request idempotencyKey now).toOption.map (·.2)
  | .get runId => (s.get setup registry runId now).toOption.map (·.2)
  | .cancel runId => (s.cancel setup registry runId now).toOption.map (·.2)
  | .decideGate runId request => (s.decideGate setup registry runId request now).toOption.map (·.2)
  | _ => none

/-- CI Lab with the definitions that it was built with, called at a clock reading. -/
def labStep (setup : Setup) (registry : DefinitionRegistry) (s : CiLabStore)
    (e : Instant × Call) : CiLabStore :=
  s.step setup ⟨registry, e.1, e.2⟩

/-- A run that is stored as done is looked at from where it is done: at the reading, or at the end
or the start in its row when that is later. -/
def FarEnough (registry : DefinitionRegistry) (run : RunRecord) (gate : Option QualityGateRecord)
    (now : Instant) : Prop :=
  Done run gate → ∀ definition, registry run.definition = some definition →
    definition.terminalPoint.ms ≤ elapsedMs (shownAt run now) run.createdAt

/-- What the clock and the definitions have to be for a view to agree with itself. -/
def Meets (registry : DefinitionRegistry) (s : CiLabStore) (now : Instant) : Call → Prop
  | .trigger definitionKey _ idempotencyKey =>
    (∀ previous, s.runs.rows.find? (·.idempotencyKey = idempotencyKey) = some previous →
        FarEnough registry previous (s.gates.get? previous.id) now)
      ∧ (s.runs.rows.find? (·.idempotencyKey = idempotencyKey) = none →
        ∀ definition, registry definitionKey = some definition → definition.Regular)
  | .get runId => ∀ run, s.runs.get? runId = some run →
      FarEnough registry run (s.gates.get? runId) now
  | .cancel runId => ∀ run, s.runs.get? runId = some run → run.status = .running →
      (∀ g, s.gates.get? runId = some g → g.status ≠ .waitingApproval) →
      ∀ start, run.startedAt = some start → start ≤ now
  | .decideGate runId request => ∀ run, s.runs.get? runId = some run →
      ((∃ previous ∈ s.approvalsOf runId, previous.eventId = request.eventId) →
        FarEnough registry run (s.gates.get? runId) now)
      ∧ (s.approvalsOf runId = [] →
        (∃ g, s.gates.get? runId = some g ∧ g.status = .waitingApproval) →
        ∀ definition, registry run.definition = some definition →
          definition.terminalPoint.ms
            ≤ elapsedMs (cancelInstant (s.gates.get? runId) now) run.createdAt)
  | _ => True

/-! ## SoundRuns stores -/

/-- A run was made of the definition under its key, and lives by it. -/
structure RunSound (setup : Setup) (registry : DefinitionRegistry) (run : RunRecord)
    (gate : Option QualityGateRecord) (definition : PipelineDefinition) : Prop where
  registered : registry run.definition = some definition
  regular : definition.Regular
  fingerprint : ∃ request, run.requestFingerprint = triggerFingerprint setup definition request
  life : Life definition run gate

/-- Every row is one that its definition can have led to, with the gate that belongs to it. -/
structure SoundRuns (setup : Setup) (registry : DefinitionRegistry) (s : CiLabStore) : Prop
    extends InPhase s where
  sound : ∀ k run, s.runs.get? k = some run →
    ∃ definition, RunSound setup registry run (s.gates.get? k) definition

theorem empty_soundRuns (setup : Setup) (registry : DefinitionRegistry) :
    SoundRuns setup registry empty where
  toInPhase := empty_inPhase
  sound k run h := by cases h

/-- Soundness is about runs, gates and approvals only. -/
theorem SoundRuns.of_runs (hs : SoundRuns setup registry s) (hruns : s'.runs = s.runs)
    (hgates : s'.gates = s.gates) (happrovals : s'.approvals = s.approvals) :
    SoundRuns setup registry s' := by
  refine ⟨hs.toInPhase.of_runs hruns hgates happrovals, fun k run hrun => ?_⟩
  rw [hruns] at hrun
  rw [hgates]
  exact hs.sound k run hrun

/-- A method that writes a sound run keeps the store sound. -/
theorem SoundRuns.written {emittedAt : Instant} (hs : SoundRuns setup registry s)
    (h : Written setup registry s now call s₁ run gate emittedAt)
    (hrun : RunSound setup registry run gate definition) : SoundRuns setup registry s₁ := by
  refine ⟨h.inPhase hs.toInPhase, fun k other hother => ?_⟩
  by_cases hk : k = run.id
  · subst hk
    obtain ⟨hrow, hgate⟩ := h.row hs.toKnown
    obtain rfl := Option.some.inj (hrow.symm.trans hother)
    rw [hgate]
    exact ⟨definition, hrun⟩
  · obtain ⟨hrow, hgate, -⟩ := h.others hk
    rw [hrow] at hother
    rw [hgate]
    exact hs.sound k other hother

/-- The definition of a stored run. -/
theorem SoundRuns.found (hs : SoundRuns setup registry s)
    (hrow : s.runs.get? record.id = some record)
    (hdefinition : definitionForRecord registry record = .ok definition) :
    RunSound setup registry record (s.gates.get? record.id) definition := by
  obtain ⟨sound, hsound⟩ := hs.sound record.id record hrow
  obtain ⟨found, hfound, hrest⟩ := bind_eq_ok.mp hdefinition
  obtain ⟨-, hrest⟩ := refuse_bind_eq_ok.mp hrest
  obtain rfl := pure_eq_ok.mp hrest
  have hsame := hsound.registered.symm.trans (demand_eq_ok.mp hfound)
  obtain rfl := Option.some.inj hsame
  exact hsound

theorem refreshed_createdAt (setup : Setup) (definition : PipelineDefinition) (now : Instant)
    (run : RunRecord) (gate : Option QualityGateRecord) :
    (refreshed setup definition now run gate).1.createdAt = run.createdAt := by
  unfold refreshed
  split
  · rfl
  split
  · exact (pausedRun_fields now run).1
  · exact observedRun_createdAt _ _ _

theorem refreshed_fields (setup : Setup) (definition : PipelineDefinition) (now : Instant)
    (run : RunRecord) (gate : Option QualityGateRecord) :
    (refreshed setup definition now run gate).1.definition = run.definition
      ∧ (refreshed setup definition now run gate).1.requestFingerprint
        = run.requestFingerprint := by
  unfold refreshed
  split
  · exact ⟨rfl, rfl⟩
  split
  · dsimp only
    unfold pausedRun
    split <;> exact ⟨rfl, rfl⟩
  · dsimp only
    unfold observedRun
    split <;> exact ⟨rfl, rfl⟩

/-- A run keeps its definition and its fingerprint. -/
theorem RunSound.of_life {run' : RunRecord} {gate' : Option QualityGateRecord}
    (h : RunSound setup registry run gate definition)
    (hdefinition : run'.definition = run.definition)
    (hfingerprint : run'.requestFingerprint = run.requestFingerprint)
    (hlife : Life definition run' gate') : RunSound setup registry run' gate' definition where
  registered := by rw [hdefinition, h.registered]
  regular := h.regular
  fingerprint := by rw [hfingerprint]; exact h.fingerprint
  life := hlife

theorem RunSound.current (h : RunSound setup registry record (s.gates.get? record.id) definition)
    (now : Instant) :
    RunSound setup registry (s.current setup definition now record).1
      (s.current setup definition now record).2 definition := by
  obtain ⟨hdefinition, hfingerprint⟩ := refreshed_fields setup definition now record
    (s.gates.get? record.id)
  exact h.of_life hdefinition hfingerprint (h.life.refreshed setup now)

/-- What a method answers when it has written a sound run that it has seen. -/
theorem SoundRuns.answer (call : Call) {emittedAt emittedAt' : Instant} {replayed : Bool}
    (hs : SoundRuns (clockSetup isoformat uuid) (definitionRegistry definitions) s)
    (hwritten : Written (clockSetup isoformat uuid) (definitionRegistry definitions) s now call s₁
      run gate emittedAt)
    (hrun : RunSound (clockSetup isoformat uuid)
      (definitionRegistry definitions) run gate definition)
    (hseen : Seen definition run gate now)
    (h : s₁.emitAndView (clockSetup isoformat uuid) run gate definition emittedAt' now replayed
      = .ok (s', view)) :
    SoundRuns (clockSetup isoformat uuid) (definitionRegistry definitions) s' ∧ view.Agrees := by
  obtain ⟨emitted, hemitted, rfl⟩ := emitAndView_ok h
  obtain ⟨hruns, hgates, happrovals, -⟩ := enqueue_runs hemitted
  refine ⟨(hs.written hwritten hrun).of_runs hruns hgates happrovals, ?_⟩
  obtain ⟨-, hkeys⟩ := definitionRegistry_eq_some hrun.registered
  exact hrun.life.agrees hrun.regular hkeys hseen s' replayed

/-- A stored run that is refreshed is seen from as far as it is. -/
theorem RunSound.seen
    (h : RunSound (clockSetup isoformat uuid) registry record (s.gates.get? record.id) definition)
    (hfar : FarEnough registry record (s.gates.get? record.id) now) :
    Seen definition (s.current (clockSetup isoformat uuid) definition now record).1
      (s.current (clockSetup isoformat uuid) definition now record).2 now :=
  h.life.seen h.regular fun hdone => hfar hdone definition h.registered

/-! ## Methods -/

/-- A fingerprint that a stored run has comes from its definition. -/
theorem definition_of_replay {definitionKey : String} {request : TriggerRunRequest}
    {recorded : PipelineDefinition}
    (hsound : RunSound (clockSetup isoformat uuid) (definitionRegistry definitions) record gate
      recorded)
    (hdefinition : definitionRegistry definitions definitionKey = some definition)
    (hfingerprint : record.requestFingerprint
      = triggerFingerprint (clockSetup isoformat uuid) definition request) :
    definition = recorded := by
  obtain ⟨request', hrecorded⟩ := hsound.fingerprint
  have hkey : recorded.key = definition.key :=
    key_of_triggerFingerprint (hrecorded.symm.trans hfingerprint)
  obtain ⟨hdefinitionKey, -⟩ := definitionRegistry_eq_some hdefinition
  obtain ⟨hrecordKey, -⟩ := definitionRegistry_eq_some hsound.registered
  have hsame : definitionKey = record.definition := by
    rw [← hdefinitionKey, ← hkey, hrecordKey]
  rw [hsame, hsound.registered] at hdefinition
  exact (Option.some.inj hdefinition).symm

theorem trigger_sound {definitionKey idempotencyKey : String} {request : TriggerRunRequest}
    (hs : SoundRuns (clockSetup isoformat uuid) (definitionRegistry definitions) s)
    (hmeets : Meets (definitionRegistry definitions) s now
      (.trigger definitionKey request idempotencyKey))
    (h : s.trigger (clockSetup isoformat uuid)
      (definitionRegistry definitions) definitionKey request
      idempotencyKey now = .ok (s', view)) :
    SoundRuns (clockSetup isoformat uuid) (definitionRegistry definitions) s' ∧ view.Agrees := by
  obtain ⟨hfar, hregular⟩ := hmeets
  obtain ⟨definition, hdefinition, hcase⟩ := trigger_ok h
  rcases hcase with ⟨previous, recorded, hprevious, hrow, hfingerprint, hrecorded, h⟩
    | ⟨hprevious, gates, subscriptions, hgates, hsubscriptions, h⟩
  · have hsound := hs.found hrow hrecorded
    obtain rfl := definition_of_replay hsound hdefinition hfingerprint
    exact hs.answer (.get previous.id) (.refreshed hrow hrecorded) (hsound.current now)
      (hsound.seen (hfar previous hprevious)) h
  · obtain ⟨hkey, -⟩ := definitionRegistry_eq_some hdefinition
    have hunused : ∀ r ∈ s.runs.rows, r.idempotencyKey ≠ idempotencyKey := by
      intro r hr
      simpa using List.find?_eq_none.mp hprevious r hr
    have hevaluating : ∀ g, newGate definition now s.runs.next = some g →
      g.status = .evaluating := by
      intro g hg
      obtain ⟨policyRevision, -, rfl⟩ := Option.map_eq_some_iff.mp hg
      rfl
    have hregular := hregular hprevious definition hdefinition
    refine hs.answer _ (.created hdefinition hunused hgates hsubscriptions)
      ⟨?_, hregular, ⟨request, rfl⟩, .queued rfl rfl rfl rfl hevaluating⟩
      ⟨fun _ => ?_, fun hdone => ?_⟩ h
    · show definitionRegistry definitions definition.key = some definition
      rw [hkey, hdefinition]
    · show elapsedMs now now < definition.queueDelayMs
      rw [elapsedMs_self]
      exact hregular.delayed
    · rcases hdone with hs | hs | ⟨g, hg, hwaiting⟩
      · cases hs
      · cases hs
      · simp [hevaluating g hg] at hwaiting

theorem get_sound {runId : Uuid}
    (hs : SoundRuns (clockSetup isoformat uuid) (definitionRegistry definitions) s)
    (hmeets : Meets (definitionRegistry definitions) s now (.get runId))
    (hcall : s.get (clockSetup isoformat uuid) (definitionRegistry definitions) runId now
      = .ok (s', view)) :
    SoundRuns (clockSetup isoformat uuid) (definitionRegistry definitions) s' ∧ view.Agrees := by
  obtain ⟨record, definition, ⟨rfl, hrow, hdefinition⟩, h⟩ := get_ok hcall
  have hsound := hs.found hrow hdefinition
  exact hs.answer (.get record.id) (.refreshed hrow hdefinition) (hsound.current now)
    (hsound.seen (hmeets record hrow)) h

/-- Of a cancelled run a view shows as much as it does, from wherever it is looked at. -/
theorem seen_cancelled (hstatus : run.status = .cancelled)
    (hgate : ∀ g, gate = some g → g.status ≠ .waitingApproval) : Seen definition run gate now where
  queued hqueued := by
    rw [hstatus] at hqueued
    cases hqueued
  done hdone := by
    rcases hdone with hs | hs | ⟨g, hg, hwaiting⟩
    · simp [hstatus] at hs
    · simp [hstatus] at hs
    · exact absurd hwaiting (hgate g hg)

theorem cancel_sound {runId : Uuid}
    (hs : SoundRuns (clockSetup isoformat uuid) (definitionRegistry definitions) s)
    (hmeets : Meets (definitionRegistry definitions) s now (.cancel runId))
    (hcall : s.cancel (clockSetup isoformat uuid) (definitionRegistry definitions) runId now
      = .ok (s', view)) :
    SoundRuns (clockSetup isoformat uuid) (definitionRegistry definitions) s' ∧ view.Agrees := by
  obtain ⟨record, definition, ⟨rfl, hrow, hdefinition⟩, hcase⟩ := cancel_ok hcall
  have hsound := hs.found hrow hdefinition
  have hcurrent := hsound.current now
  rcases hcase with ⟨hcancelled, h⟩ | ⟨hactive, cancelledAt, hinstant, h⟩
  · refine hs.answer (.get record.id) (.refreshed hrow hdefinition) hcurrent
      (seen_cancelled hcancelled fun g hg hwaiting => ?_) h
    obtain ⟨-, hrunning, -⟩ := hcurrent.life.of_waiting hg hwaiting
    simp [hcancelled] at hrunning
  · have hlife : Life definition
        (cancelledRun definition cancelledAt
          (s.current (clockSetup isoformat uuid) definition now record).1)
        ((s.current (clockSetup isoformat uuid) definition now record).2.map
          (cancelledGate cancelledAt)) := by
      refine hcurrent.life.cancel hactive fun hrunning => ?_
      subst hinstant
      have hle := hsound.life.started_le isoformat uuid hsound.regular
        (hmeets record hrow) hrunning
      have hcreatedAt : (s.current (clockSetup isoformat uuid) definition now record).1.createdAt
          = record.createdAt := refreshed_createdAt _ _ _ _ _
      unfold startsAt at hle ⊢
      rw [hcreatedAt]
      exact hle
    refine hs.answer _ (.cancelled hrow hdefinition hactive) (hcurrent.of_life rfl rfl hlife)
      (seen_cancelled rfl fun g' hg' => ?_) h
    obtain ⟨g, -, rfl⟩ := Option.map_eq_some_iff.mp hg'
    simp [cancelledGate]

theorem decideGate_sound {runId : Uuid} {request : GateDecisionRequest}
    (hs : SoundRuns (clockSetup isoformat uuid) (definitionRegistry definitions) s)
    (hmeets : Meets (definitionRegistry definitions) s now (.decideGate runId request))
    (hcall : s.decideGate (clockSetup isoformat uuid) (definitionRegistry definitions) runId request
      now = .ok (s', view)) :
    SoundRuns (clockSetup isoformat uuid) (definitionRegistry definitions) s' ∧ view.Agrees := by
  obtain ⟨record, definition, g, ⟨rfl, hrow, hdefinition⟩, hgate, hcase⟩ := decideGate_ok hcall
  have hsound := hs.found hrow hdefinition
  have hcurrent := hsound.current now
  obtain ⟨hreplay, hnew⟩ := hmeets record hrow
  rcases hcase with ⟨hprevious, h⟩ | ⟨hnone, hwaiting, decisionAt, hinstant, h⟩
  · rw [← hgate] at h
    exact hs.answer (.get record.id) (.refreshed hrow hdefinition) hcurrent
      (hsound.seen (hreplay hprevious)) h
  · have hlife := hcurrent.life.decide hgate hwaiting request.decision now
    have hlate := hsound.life.decide_seen isoformat uuid hsound.regular
      (fun hwaits => hnew hnone hwaits definition hsound.registered) hgate hwaiting
    have hcurrentGate : (refreshed (clockSetup isoformat uuid) definition now record
        (s.gates.get? record.id)).2 = some g := hgate
    rw [hgate, ← hinstant] at hlife
    rw [hcurrentGate, ← hinstant] at hlate
    refine hs.answer _ (.decided hrow hdefinition hgate hnone hwaiting)
      (hcurrent.of_life rfl rfl hlife) ⟨fun hqueued => ?_, fun _ => ?_⟩ h
    · have hended : (if request.decision = .approve then RunStatus.succeeded else .failed)
          = .queued := hqueued
      split at hended <;> cases hended
    · have hshown : shownAt (decidedRun request.decision decisionAt
          (s.current (clockSetup isoformat uuid) definition now record).1) now = decisionAt := by
        have hle : now ≤ decisionAt := by
          rw [hinstant]
          exact le_cancelInstant _ now
        exact max_eq_right hle
      rw [hshown]
      exact hlate

/-! ## Histories -/

/-- The calls that do nothing to a run but refresh it. -/
def Plain : Call → Prop
  | .trigger _ _ _ => False
  | .cancel _ => False
  | .decideGate _ _ => False
  | _ => True

/-- A refresh keeps the runs sound at every clock reading. -/
theorem SoundRuns.part (hs : SoundRuns setup registry s) (hplain : Plain call)
    (h : Step setup registry now call s s') : SoundRuns setup registry s' := by
  cases h with
  | round hround =>
    obtain ⟨s₁, run, gate, emittedAt, emitted, hwritten, hemitted⟩ := hround
    obtain ⟨hruns, hgates, happrovals, -⟩ := enqueue_runs hemitted
    have hwritten' := hwritten
    cases hwritten with
    | created => exact hplain.elim
    | cancelled => exact hplain.elim
    | decided => exact hplain.elim
    | refreshed hrow hdefinition =>
      have hsound := hs.found hrow hdefinition
      exact (hs.written hwritten' (hsound.current now)).of_runs hruns hgates happrovals
  | rewrites hrewrites =>
    exact hs.of_runs hrewrites.runs hrewrites.gates hrewrites.approvals

theorem SoundRuns.plain (hs : SoundRuns setup registry s) (hplain : Plain call) (now : Instant) :
    SoundRuns setup registry (labStep setup registry s (now, call)) :=
  step_invariant (fun ha h => ha.part hplain h) hs

/-- A call that meets the condition keeps the store sound, and the view that it returns agrees. -/
theorem sound_step (hs : SoundRuns (clockSetup isoformat uuid) (definitionRegistry definitions) s)
    (hmeets : Meets (definitionRegistry definitions) s now call) :
    SoundRuns (clockSetup isoformat uuid) (definitionRegistry definitions)
        (labStep (clockSetup isoformat uuid) (definitionRegistry definitions) s (now, call))
      ∧ ∀ view, servedView (clockSetup isoformat uuid) (definitionRegistry definitions) s now call
          = some view → view.Agrees := by
  have hserved : ∀ {x : Except CiLabError (CiLabStore × RunView)},
      s.call (clockSetup isoformat uuid) (definitionRegistry definitions) now call
          = x.map (·.1) →
      servedView (clockSetup isoformat uuid) (definitionRegistry definitions) s now call
          = x.toOption.map (·.2) →
      (∀ s' view, x = .ok (s', view) →
        SoundRuns (clockSetup isoformat uuid) (definitionRegistry definitions) s' ∧ view.Agrees) →
      SoundRuns (clockSetup isoformat uuid) (definitionRegistry definitions)
          (labStep (clockSetup isoformat uuid) (definitionRegistry definitions) s (now, call))
        ∧ ∀ view, servedView (clockSetup isoformat uuid) (definitionRegistry definitions) s now call
            = some view → view.Agrees := by
    intro x hcall hview hok
    unfold labStep CiLabStore.step
    rw [hcall, hview]
    cases x with
    | error error => exact ⟨hs, fun view hsome => by cases hsome⟩
    | ok answer =>
      obtain ⟨hsound, hagrees⟩ := hok answer.1 answer.2 rfl
      refine ⟨hsound, fun view hsome => ?_⟩
      obtain rfl := Option.some.inj hsome
      exact hagrees
  cases call with
  | trigger definitionKey request idempotencyKey =>
    exact hserved rfl rfl fun s' view h => trigger_sound hs hmeets h
  | get runId => exact hserved rfl rfl fun s' view h => get_sound hs hmeets h
  | cancel runId => exact hserved rfl rfl fun s' view h => cancel_sound hs hmeets h
  | decideGate runId request => exact hserved rfl rfl fun s' view h => decideGate_sound hs hmeets h
  | advanceWebhookRunsOnce | claimWebhookDelivery | completeWebhookDelivery | failWebhookDelivery
  | retryWebhookDelivery =>
    refine ⟨hs.plain ?_ now, fun view hsome => by cases hsome⟩
    trivial

/-- The views that a history serves, one call after the other. -/
def servedViews (setup : Setup) (registry : DefinitionRegistry) (s : CiLabStore)
    (es : List (Instant × Call)) : List RunView :=
  Transition.outputs (labStep setup registry)
    (fun s e => (servedView setup registry s e.1 e.2).toList) s es

/-- Over any definitions and any history, whatever the clock reads: when every call meets the
condition, every view that is served agrees with itself. -/
theorem views_agree (isoformat : Instant → String) (uuid : Uuid → String)
    (definitions : List CheckedDefinition) (es : List (Instant × Call))
    (hmeets : Transition.Along
      (fun s e => Meets (definitionRegistry definitions) s e.1 e.2)
      (labStep (clockSetup isoformat uuid) (definitionRegistry definitions)) empty es) :
    ∀ view ∈ servedViews (clockSetup isoformat uuid) (definitionRegistry definitions) empty es,
      view.Agrees := by
  have hempty := empty_soundRuns (clockSetup isoformat uuid) (definitionRegistry definitions)
  refine Transition.outputs_along (fun s e hs hcall => ?_) hempty hmeets
  obtain ⟨hnext, hagrees⟩ := sound_step hs hcall
  exact ⟨hnext, fun view hview => hagrees view (Option.mem_toList.mp hview)⟩

/-- A trigger of the quality gate at the epoch. -/
def lessonTrigger : Instant × Call :=
  (0, .trigger "local-quality-gate" ⟨none, [], none, none, rfl⟩ "lesson-1")

/-- It has passed its jobs after 600 milliseconds, and waits. -/
theorem lesson_agrees :
    (∀ view ∈ servedViews (clockSetup (fun _ => "") fun _ => "")
        (definitionRegistry defaultDefinitions) empty
        [lessonTrigger, (600000, .get 0)], view.Agrees)
      ∧ (servedViews (clockSetup (fun _ => "") fun _ => "") (definitionRegistry defaultDefinitions)
          empty [lessonTrigger, (600000, .get 0)]).map (·.status) = [.queued,
          .waitingApproval] := by
  refine ⟨views_agree (fun _ => "") (fun _ => "") defaultDefinitions _ ⟨⟨?_, ?_⟩, ?_, trivial⟩,
    by decide +kernel⟩
  · intro previous hprevious
    cases hprevious
  · intro _ definition hdefinition
    obtain rfl := Option.some.inj hdefinition
    refine ⟨by decide, fun failure hfailure => ?_, ?_⟩
    · cases hfailure
    · decide
  · -- the stored run is queued still
    intro run hrun hdone
    have hstatus : ((labStep (clockSetup (fun _ => "") fun _ => "")
        (definitionRegistry defaultDefinitions) empty lessonTrigger).runs.get? 0).map (·.status)
          = some .queued := by decide +kernel
    have hgate : ((labStep (clockSetup (fun _ => "") fun _ => "")
        (definitionRegistry defaultDefinitions) empty lessonTrigger).gates.get? 0).map (·.status)
          = some .evaluating := by decide +kernel
    rw [hrun] at hstatus
    have hqueued : run.status = .queued := Option.some.inj hstatus
    rcases hdone with hs | hs | ⟨g, hg, hwaiting⟩
    · simp [hqueued] at hs
    · simp [hqueued] at hs
    · rw [hg] at hgate
      have hevaluating : g.status = .evaluating := Option.some.inj hgate
      simp [hevaluating] at hwaiting

/-- It waits for approval, the clock goes back, and a job of it is running again. -/
theorem waiting_view_disagrees :
    ¬ ∀ (isoformat : Instant → String) (uuid : Uuid → String)
      (definitions : List CheckedDefinition) (es : List (Instant × Call)),
      ∀ view ∈ servedViews (clockSetup isoformat uuid) (definitionRegistry definitions) empty es,
        view.Agrees := by
  intro h
  have hviews := h (fun _ => "") (fun _ => "") defaultDefinitions
    [lessonTrigger, (600000, .get 0), (300000, .get 0)]
  have hback : ∃ view ∈ servedViews (clockSetup (fun _ => "") fun _ => "")
      (definitionRegistry defaultDefinitions) empty
      [lessonTrigger, (600000, .get 0), (300000, .get 0)],
      view.status = .waitingApproval ∧ ∃ job ∈ view.jobs, job.status = .running := by
    decide +kernel
  obtain ⟨view, hview, hwaiting, job, hjob, hrunning⟩ := hback
  have hsucceeded := (hviews view hview).passed (.inl hwaiting) job hjob
  rw [hrunning] at hsucceeded
  cases hsucceeded

end CiLabStore

end QaPlatform.CiLab
