import QaPlatform.Pipeline.Lasting

/-!
# Callbacks are applied as a whole and once

A callback that raises has changed nothing, unless the save has raised: what is in memory then is
what is stored. One that has been applied is recorded, and a second delivery of it changes nothing,
whatever has happened in between.

The end of the save decides. If it raises, what is in memory is loaded again, and the callback
has been applied as a whole and recorded, or not at all; a caller who has been told of an error
may find either (`raised_and_applied`). Two callbacks have the same fingerprint exactly if they
have the same content, so an event with another content is told apart from a second delivery.

That a second delivery changes nothing holds for good, unless a new run is given the name of the
run (`saved_answers`), since recorded events are lost with their run only.
-/

namespace QaPlatform.Pipeline

/-! ## Contents -/

/-- All but the name of the event. -/
def PipelineCallbackRequest.SameContent (callback callback' : PipelineCallbackRequest) : Prop :=
  callback.target = callback'.target ∧ callback.status = callback'.status
    ∧ callback.stageName = callback'.stageName ∧ callback.jobName = callback'.jobName
    ∧ callback.message = callback'.message

open LearningCi (optionalText text)

theorem text_injective : Function.Injective text := by
  intro a b h
  exact String.toList_injective (JsonText.Doc.text.inj h)

theorem optionalText_injective : Function.Injective optionalText := by
  rintro (_ | a) (_ | b) h
  · rfl
  · cases h
  · cases h
  · rw [text_injective h]

theorem status_value_injective : Function.Injective PipelineStatus.value := by
  intro a b h
  cases a <;> cases b <;> first | rfl | exact absurd h (by decide)

theorem target_value_injective : Function.Injective CallbackTarget.value := by
  intro a b h
  cases a <;> cases b <;> first | rfl | exact absurd h (by decide)

/-- Two callbacks have the same fingerprint exactly if they have the same content. -/
theorem callbackFingerprint_eq_iff {callback callback' : PipelineCallbackRequest} :
    callbackFingerprint callback = callbackFingerprint callback'
      ↔ callback.SameContent callback' := by
  constructor
  · intro h
    have hcontent : callbackContent callback = callbackContent callback' := by
      apply JsonText.render_injective
      exact String.ofList_injective (Digest.mk.inj h)
    simp only [callbackContent, JsonText.Doc.object.injEq, LearningCi.members, List.map_cons,
      List.map_nil, List.cons.injEq, Prod.mk.injEq, true_and, and_true] at hcontent
    obtain ⟨hjob, hmessage, hstage, hstatus, htarget⟩ := hcontent
    exact ⟨target_value_injective (text_injective htarget),
      status_value_injective (text_injective hstatus), optionalText_injective hstage,
      optionalText_injective hjob, optionalText_injective hmessage⟩
  · rintro ⟨htarget, hstatus, hstage, hjob, hmessage⟩
    unfold callbackFingerprint callbackContent
    rw [htarget, hstatus, hstage, hjob, hmessage]

namespace InMemoryPipelineService

variable {s s₁ : InMemoryPipelineService} {o : SaveOutcome} {runId : String} {run : PipelineRun}
  {stored : PipelinePersistenceState} {now : Instant} {storage : Storage}
  {callback callback' : PipelineCallbackRequest} {fingerprint : Digest Json}
  {A : SaveOutcome → Prop} {I : InMemoryPipelineService → Prop}

/-! ## One delivery -/

/-- The tree with the callback applied as a whole, and the event recorded. -/
def Applied (now : Instant) (runId : String) (callback : PipelineCallbackRequest)
    (before after : PipelinePersistenceState) : Prop :=
  ∃ run run' deliveredEvents, before.runs.get? runId = some run
    ∧ before.callbackEvents.get? runId = some deliveredEvents
    ∧ PipelineRun.reconcile now callback run = (run', .ok ())
    ∧ after = { before with
      runs := before.runs.set runId run'
      callbackEvents := before.callbackEvents.set runId
        (deliveredEvents.set callback.eventId (callbackFingerprint callback)) }

theorem Applied.recorded {before after : PipelinePersistenceState}
    (h : Applied now runId callback before after) :
    after.Recorded runId callback.eventId (callbackFingerprint callback) := by
  obtain ⟨run, run', deliveredEvents, -, -, -, rfl⟩ := h
  exact ⟨_, Dict.get?_set_self _ _ _, Dict.get?_set_self _ _ _⟩

theorem callbackSection_eq (hopen : s.closed = false) (hrun : s.runs.get? runId = some run)
    {deliveredEvents : Dict String (Digest Json)}
    (hevents : s.callbackEvents.get? runId = some deliveredEvents) :
    callbackSection now storage runId callback s
      = (match deliveredEvents.get? callback.eventId with
        | some previous => replayCallback callback run previous
        | none => deliverCallback now storage runId callback deliveredEvents) s := by
  unfold callbackSection
  rw [Edit.bind_eq_of_ok (ensureOpen_of_open hopen), Edit.bind_eq_of_ok (requireRun_of_some hrun),
    Edit.read_bind, hevents]
  rfl

/-- An event that has been recorded is answered and changes nothing. -/
theorem callbackSection_of_recorded (hopen : s.closed = false)
    (hrun : s.runs.get? runId = some run)
    (h : s.memory.Recorded runId callback.eventId fingerprint) :
    callbackSection now storage runId callback s = replayCallback callback run fingerprint s := by
  obtain ⟨deliveredEvents, hevents, hprevious⟩ := h
  rw [callbackSection_eq hopen hrun hevents, hprevious]

theorem replayCallback_of_same (h : fingerprint = callbackFingerprint callback) :
    replayCallback callback run fingerprint s = (s, .ok ⟨run, true⟩) := by
  unfold replayCallback
  rw [if_neg (not_not_intro h)]
  rfl

theorem replayCallback_of_ne (h : fingerprint ≠ callbackFingerprint callback) :
    replayCallback callback run fingerprint s = (s, .error (.idempotencyConflict
      "callback event_id was reused with different content")) := by
  unfold replayCallback
  rw [if_pos h]
  rfl

/-- A new event raises and changes nothing, or the callback is applied and saved. -/
theorem callbackSection_of_new (h : s.memory.Sound) (hopen : s.closed = false)
    (hrun : s.runs.get? runId = some run) {deliveredEvents : Dict String (Digest Json)}
    (hevents : s.callbackEvents.get? runId = some deliveredEvents)
    (hnew : deliveredEvents.get? callback.eventId = none) :
    (∃ e, callbackSection now storage runId callback s = (s, .error e))
      ∨ ∃ s₁ run', s.Worked s₁ ∧ s₁.closed = false
        ∧ Applied now runId callback s.memory s₁.memory ∧ s₁.runs.get? runId = some run'
        ∧ callbackSection now storage runId callback s = saving storage.save ⟨run', false⟩ s₁ := by
  have hdeliver : callbackSection now storage runId callback s
      = deliverCallback now storage runId callback deliveredEvents s := by
    rw [callbackSection_eq hopen hrun hevents, hnew]
  rw [hdeliver]
  unfold deliverCallback
  rcases PipelineRun.reconcile_becomes (h.runs hrun) with ⟨e, he⟩ | ⟨run', hrun', hbecomes⟩
  · exact .inl ⟨e, Edit.bind_eq_of_error (overRun_of_error hrun he)⟩
  · refine .inr ⟨_, run', worked_record h hevents hnew hrun hbecomes, hopen,
      ⟨run, run', deliveredEvents, hrun, hevents, hrun', rfl⟩, Dict.get?_set_self _ _ _, ?_⟩
    rw [Edit.bind_eq_of_ok (overRun_of_ok hrun hrun'), Edit.update_bind]
    exact checkpointLocked_requireRun (Dict.get?_set_self s.runs runId run') _

/-- A delivery raises and changes nothing, or finds the event recorded, or applies the callback
and saves. -/
theorem callbackSection_cases (now : Instant) (storage : Storage) (runId : String)
    (callback : PipelineCallbackRequest) (h : s.memory.Sound) :
    (∃ e, callbackSection now storage runId callback s = (s, .error e))
      ∨ s.closed = false
        ∧ ((∃ run, s.runs.get? runId = some run
            ∧ s.memory.Recorded runId callback.eventId (callbackFingerprint callback)
            ∧ callbackSection now storage runId callback s = (s, .ok ⟨run, true⟩))
          ∨ ∃ s₁ run', s.Worked s₁ ∧ s₁.closed = false
            ∧ Applied now runId callback s.memory s₁.memory ∧ s₁.runs.get? runId = some run'
            ∧ callbackSection now storage runId callback s
              = saving storage.save ⟨run', false⟩ s₁) := by
  cases hopen : s.closed with
  | true => exact .inl ⟨_, Edit.bind_eq_of_error (ensureOpen_of_closed hopen)⟩
  | false =>
    cases hrun : s.runs.get? runId with
    | none =>
      refine .inl ⟨.notFound ("pipeline not found: " ++ runId), ?_⟩
      unfold callbackSection
      rw [Edit.bind_eq_of_ok (ensureOpen_of_open hopen)]
      exact Edit.bind_eq_of_error (requireRun_of_none hrun)
    | some run =>
      have hmem : runId ∈ s.callbackEvents.keys := by
        rw [h.keys]
        exact Dict.mem_keys.mpr ⟨run, hrun⟩
      obtain ⟨deliveredEvents, hevents⟩ := Dict.mem_keys.mp hmem
      cases hprevious : deliveredEvents.get? callback.eventId with
      | none =>
        rcases callbackSection_of_new h hopen hrun hevents hprevious with hraised | happlied
        · exact .inl hraised
        · exact .inr ⟨rfl, .inr happlied⟩
      | some previous =>
        have hrecorded : s.memory.Recorded runId callback.eventId previous :=
          ⟨deliveredEvents, hevents, hprevious⟩
        rw [callbackSection_of_recorded hopen hrun hrecorded]
        by_cases hsame : previous = callbackFingerprint callback
        · exact .inr ⟨rfl, .inl ⟨run, rfl, hsame ▸ hrecorded, replayCallback_of_same hsame⟩⟩
        · exact .inl ⟨_, replayCallback_of_ne hsame⟩

/-! ## Later deliveries -/

/-- The event has been recorded of the run, if it is there. -/
def Remembers (runId eventId : String) (fingerprint : Digest Json)
    (state : PipelinePersistenceState) : Prop :=
  ∀ run, state.runs.get? runId = some run → state.Recorded runId eventId fingerprint

/-- Recorded events are lost with their run only. -/
theorem remembers_lasting (runId eventId : String) (fingerprint : Digest Json) :
    Lasting (· ≠ runId) (Remembers runId eventId fingerprint) where
  edits := by
    intro state state' hedits h run' hrun'
    obtain ⟨run, hrun, -⟩ := hedits.before hrun'
    exact hedits.recorded (h run hrun)
  empty := by
    intro run hrun
    cases hrun
  added := by
    intro s now other request hother h run hrun
    have hold : s.runs.get? runId = some run := by
      rwa [show (s.withRun now other request).runs
        = s.runs.set other (newRun now other request) from rfl,
        Dict.get?_set_ne hother.symm] at hrun
    obtain ⟨events, hevents, hrecorded⟩ := h run hold
    refine ⟨events, ?_, hrecorded⟩
    exact (Dict.get?_set_ne hother.symm _).trans hevents

/-- A second delivery of the event is answered from the record and changes nothing. -/
def Answered (now : Instant) (storage : Storage) (runId : String)
    (callback : PipelineCallbackRequest) (run : PipelineRun) (s s₀ : InMemoryPipelineService) :
    Prop :=
  ∀ callback', callback'.eventId = callback.eventId →
    (callback.SameContent callback' →
        applyCallback now storage runId callback' s = (s₀, .ok ⟨run, true⟩))
      ∧ (¬ callback.SameContent callback' →
        applyCallback now storage runId callback' s = (s₀, .error (.idempotencyConflict
          "callback event_id was reused with different content")))

theorem answered_of_recorded (hinit : (initializeLocked now storage s).2 = .ok ())
    (hopen : (initializeLocked now storage s).1.closed = false)
    (hrun : (initializeLocked now storage s).1.runs.get? runId = some run)
    (hrecorded : (initializeLocked now storage s).1.memory.Recorded runId callback.eventId
      (callbackFingerprint callback)) :
    Answered now storage runId callback run s (initializeLocked now storage s).1 := by
  intro callback' hevent
  have happly : applyCallback now storage runId callback' s = replayCallback callback' run
      (callbackFingerprint callback) (initializeLocked now storage s).1 := by
    unfold applyCallback
    rw [Edit.bind_of_ok hinit]
    exact callbackSection_of_recorded hopen hrun (hevent ▸ hrecorded)
  rw [happly]
  constructor
  · intro hsame
    exact replayCallback_of_same (callbackFingerprint_eq_iff.mpr hsame)
  · intro hne
    exact replayCallback_of_ne fun h => hne (callbackFingerprint_eq_iff.mp h)

/-- A delivery to a service that is initialized. -/
theorem answered_at_once (hinit : s.initialized = true) (hopen : s.closed = false)
    (hrun : s.runs.get? runId = some run)
    (hrecorded : s.memory.Recorded runId callback.eventId (callbackFingerprint callback)) :
    Answered now storage runId callback run s s := by
  have hsame : initializeLocked now storage s = (s, .ok ()) := initializeLocked_of_initialized hinit
  have hanswered : Answered now storage runId callback run s
      (initializeLocked now storage s).1 := by
    apply answered_of_recorded
    · rw [hsame]
    · rwa [hsame]
    · rwa [hsame]
    · rwa [hsame]
  rwa [hsame] at hanswered

/-! ## Failed saves -/

/-- What was last known to be stored is the memory. -/
def Known (s : InMemoryPipelineService) : Prop :=
  ∀ stored, s.persistence = some stored → s.durableState = some s.memory

/-- So it is as long as no save has raised. -/
theorem known_settles : Settles (· = SaveOutcome.saved) Known where
  saved := by
    rintro o s hs rfl stored hstored
    rcases checkpointLocked_kept .saved s with ⟨-, hnone, -⟩ | ⟨hsome, -, -⟩
    · rw [hnone] at hstored
      cases hstored
    · obtain ⟨before, hbefore⟩ := Option.isSome_iff_exists.mp hsome
      rw [checkpointLocked_saved hbefore]
      rfl
  loaded := by
    intro s stored hs hp _ _
    rw [loaded_memory (hs.persisted hp)]
    rfl
  cleared := by
    intro s stored hstored
    obtain ⟨_, hbefore, rfl⟩ := Option.map_eq_some_iff.mp hstored
    show s.persistence.map _ = _
    rw [hbefore]
    rfl
  created := by
    intro stored hstored
    cases hstored
  rest _ _ _ h := h

/-- What is in memory when a save has raised. -/
theorem saving_error_memory {e : PipelineFailure} {a : PipelineCallbackResult} (hs : s.Sound)
    (hw : s.Worked s₁) (he : (saving o a s₁).2 = .error e) :
    ∃ message written reloads stored, o = .raised message written reloads
      ∧ e = .storage message ∧ s.persistence = some stored
      ∧ (saving o a s₁).1.memory = if reloads then (if written then s₁.memory else stored)
        else s.durableState.getD s₁.memory := by
  have hworked := hs.worked hw
  cases hp : s₁.persistence with
  | none =>
    rw [saving_ok (by rw [checkpointLocked_of_none hp])] at he
    cases he
  | some stored =>
    cases o with
    | saved =>
      rw [saving_ok (by rw [checkpointLocked_saved hp])] at he
      cases he
    | raised message written reloads =>
      have hraised : checkpointLocked (.raised message written reloads) s₁
          = (s₁.reconcileMemory _ reloads, .error (.storage message)) := checkpointLocked_raised hp
      rw [saving_error (by rw [hraised]), Except.error.injEq] at he
      refine ⟨message, written, reloads, stored, rfl, he.symm, hw.persistence ▸ hp, ?_⟩
      have hcontent : (if written then s₁.memory else stored) ∈ s₁.snapshots := by
        split
        · exact mem_snapshots.mpr (.inl rfl)
        · exact mem_snapshots.mpr (.inr (.inl hp))
      unfold saving
      rw [hraised]
      show (s₁.reconcileMemory _ reloads).memory = _
      rw [reconcileMemory_memory (hworked.states _ hcontent).keys fun durable hd =>
        (hworked.states durable (mem_snapshots.mpr (.inr (.inr hd)))).keys, hw.durableState]

/-- A callback raises, although it has been applied as a whole and saved. -/
theorem raised_and_applied :
    let s := Transition.run step (initial true) [⟨0, {}, .trigger "run-1" lesson⟩]
    let r := applyCallback 1 { save := .raised "connection lost" true true } "run-1"
      lessonCompiled s
    r.2 = .error (.storage "connection lost")
      ∧ (s.runs.get? "run-1").map (·.status) = some .queued
      ∧ (r.1.runs.get? "run-1").map (·.status) = some .succeeded :=
  ⟨rfl, rfl, rfl⟩

/-- A callback that has been applied and saved is answered from the record, whatever happens after
it, unless a new run is given the name of its run. -/
theorem saved_answers (hs : s.Sound) (hinit : s.initialized = true) (hw : s.Worked s₁)
    (hopen : s₁.closed = false) (happlied : Applied now runId callback s.memory s₁.memory)
    (hrun : s₁.runs.get? runId = some run) (hsave : (checkpointLocked o s₁).2 = .ok ()) :
    Applied now runId callback s.memory (checkpointLocked o s₁).1.memory
      ∧ (∀ now' storage', Answered now' storage' runId callback run (checkpointLocked o s₁).1
        (checkpointLocked o s₁).1)
      ∧ ∀ later : List Step, (∀ e ∈ later, ∀ request, e.event ≠ .trigger runId request) →
        ∀ now' storage' run', let s' := Transition.run step (checkpointLocked o s₁).1 later
          (initializeLocked now' storage' s').2 = .ok () →
          (initializeLocked now' storage' s').1.closed = false →
          (initializeLocked now' storage' s').1.runs.get? runId = some run' →
          Answered now' storage' runId callback run' s' (initializeLocked now' storage' s').1 := by
  have hworked : s₁.Sound := hs.worked hw
  have hmemory : (checkpointLocked o s₁).1.memory = s₁.memory := (checkpointLocked_ok hsave).1
  obtain ⟨-, hinitialized, hclosed⟩ := checkpointLocked_rest o s₁
  refine ⟨hmemory ▸ happlied, fun now' storage' => ?_, fun later hlater now' storage' run' => ?_⟩
  · apply answered_at_once
    · rw [hinitialized, hw.initialized]
      exact hinit
    · rw [hclosed]
      exact hopen
    · rw [show (checkpointLocked o s₁).1.runs = s₁.runs from
        congrArg PipelinePersistenceState.runs hmemory]
      exact hrun
    · rw [hmemory]
      exact happlied.recorded
  · intro s' hok hopen' hrun'
    have hsound : (checkpointLocked o s₁).1.Sound := hworked.checkpoint o
    have hremembers : Everywhere true
        (Remembers runId callback.eventId (callbackFingerprint callback))
        (checkpointLocked o s₁).1 := by
      intro state hstate _ _
      rw [checkpointLocked_ok_snapshots hworked hsave state hstate]
      exact happlied.recorded
    have hlasting := remembers_lasting runId callback.eventId (callbackFingerprint callback)
    have hlast : Everywhere true
        (Remembers runId callback.eventId (callbackFingerprint callback)) s' := by
      apply hremembers.run hlasting hsound fun hf => by cases hf
      rintro e he other request hevent rfl
      exact hlater e he request hevent
    have hsound' : s'.Sound :=
      Transition.invariant_run (fun _ e h => h.step e) hsound later
    exact answered_of_recorded hok hopen' hrun'
      (hlast.initialization hlasting hsound' (fun hf => by cases hf) _
        (mem_snapshots.mpr (.inl rfl)) run' hrun')

/-- A callback that raises leaves the tree and the events as they were, or its save has raised and
the memory is what is stored: with the callback applied as a whole and recorded, or what was
stored before. One that has been applied is recorded, and a second delivery changes nothing. -/
theorem callback_atomic (durable : Bool) (es : List Step) (now : Instant) (storage : Storage)
    (runId : String) (callback : PipelineCallbackRequest) :
    let s := Transition.run step (initial durable) es
    let s₀ := (initializeLocked now storage s).1
    let r := applyCallback now storage runId callback s
    (∀ e, r.2 = .error e →
        r.1.memory = s₀.memory
          ∨ ∃ message written reloads stored applied,
            storage.save = .raised message written reloads ∧ e = .storage message
              ∧ s₀.persistence = some stored ∧ Applied now runId callback s₀.memory applied
              ∧ (reloads = true → r.1.memory = if written then applied else stored)
              ∧ ((∀ e ∈ es, e.storage.Allows SaveOutcome.Reloads) → s₀.memory = stored)
              ∧ (reloads = false → (∀ e ∈ es, e.storage.Allows (· = .saved)) →
                r.1.memory = s₀.memory))
      ∧ ∀ result, r.2 = .ok result →
        (result.duplicate = true → r.1 = s₀)
          ∧ (result.duplicate = false → Applied now runId callback s₀.memory r.1.memory)
          ∧ (∀ now' storage', Answered now' storage' runId callback result.pipeline r.1 r.1)
          ∧ (result.duplicate = false → ∀ later,
            (∀ e ∈ later, ∀ request, e.event ≠ .trigger runId request) →
            ∀ now' storage' run,
              let s' := Transition.run step r.1 later
              (initializeLocked now' storage' s').2 = .ok () →
              (initializeLocked now' storage' s').1.closed = false →
              (initializeLocked now' storage' s').1.runs.get? runId = some run →
              Answered now' storage' runId callback run s'
                (initializeLocked now' storage' s').1) := by
  intro s s₀ r
  have hs : s.Sound := run_sound durable es
  have hs₀ : s₀.Sound := hs.initialization
  cases hinit : (initializeLocked now storage s).2 with
  -- initialization raised: the callback never reached the memory
  | error e =>
    have hr : r = (s₀, .error e) := Edit.bind_of_error hinit
    rw [hr]
    refine ⟨fun _ _ => .inl rfl, fun result hresult => ?_⟩
    cases hresult
  | ok u =>
    have hr : r = callbackSection now storage runId callback s₀ := Edit.bind_of_ok hinit
    have hinitialized : s₀.initialized = true := hs.initialized_of_ok hinit
    rcases callbackSection_cases now storage runId callback hs₀.memory with
      ⟨e, hraised⟩ | ⟨hopen, ⟨run, hrun, hrecorded, hreplayed⟩ |
        ⟨s₁, run', hworked, hopen₁, happlied, hrun', hsaving⟩⟩
    · rw [hr, hraised]
      refine ⟨fun _ _ => .inl rfl, fun result hresult => ?_⟩
      cases hresult
    -- a replayed event answers with the stored run
    · rw [hr, hreplayed]
      refine ⟨fun e he => ?_, fun result hresult => ?_⟩
      · cases he
      obtain rfl := Except.ok.inj hresult
      have hold : (true = false) → False := fun h => by cases h
      exact ⟨fun _ => rfl, fun hnew => (hold hnew).elim,
        fun now' storage' => answered_at_once hinitialized hopen hrun hrecorded,
        fun hnew => (hold hnew).elim⟩
    · rw [hr, hsaving]
      cases hsave : (checkpointLocked storage.save s₁).2 with
      -- the save raised: the rollback decides what memory holds
      | error e =>
        refine ⟨fun e' he' => .inr ?_, fun result hresult => ?_⟩
        · obtain ⟨message, written, reloads, stored, hraised, heq, hp, hmemory⟩ :=
            saving_error_memory hs₀ hworked he'
          refine ⟨message, written, reloads, stored, s₁.memory, hraised, heq, hp, happlied, ?_, ?_,
            ?_⟩
          · intro hreloads
            rw [hmemory, if_pos hreloads]
          · intro hes
            exact (inStep_settles.initialization_of_ok trivial hs
              (run_settled inStep_settles durable hes) hinit).stored stored hp
          · intro hreloads hes
            have hknown : s₀.durableState = some s₀.memory :=
              known_settles.initialization_of_ok rfl hs (run_settled known_settles durable hes)
                hinit stored hp
            rw [hmemory, if_neg (by simp [hreloads]), hknown]
            rfl
        · rw [saving_error hsave] at hresult
          cases hresult
      | ok u =>
        obtain ⟨happliedSaved, hatOnce, hlater⟩ :=
          saved_answers hs₀ hinitialized hworked hopen₁ happlied hrun' hsave
        refine ⟨fun e he => ?_, fun result hresult => ?_⟩
        · rw [saving_ok hsave] at he
          cases he
        rw [saving_ok hsave] at hresult
        obtain rfl := Except.ok.inj hresult
        refine ⟨fun hdup => ?_, fun _ => happliedSaved, hatOnce, fun _ => hlater⟩
        cases hdup

end InMemoryPipelineService

end QaPlatform.Pipeline
