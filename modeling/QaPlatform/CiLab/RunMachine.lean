import QaPlatform.Base.Transition
import QaPlatform.CiLab.Steps

/-!
# The machine of a run and its gate

A run's status, its gate's status and its decisions go together in few ways, which
`Phase` lists. A refresh moves from phase to phase by what it observes, whatever the
clock says; only a decision and a cancellation leave the wait.

`InPhase` holds of every reachable store, and the transitions are read off it: `Goes` says how
runs go on between two states, and it is what one step does and what steps do one after another.
Attempts that fail are those of a decision where there is no deciding and of a cancellation
where there is no cancelling; a method that raises is rolled back, so they change nothing.
-/

namespace QaPlatform.CiLab

variable {setup : Setup} {definition : PipelineDefinition} {now : Instant} {run : RunRecord}
  {gate : Option QualityGateRecord}

/-- The ways in which a run, its gate and the decisions on it go together. -/
inductive Phase : RunStatus → Option QualityGateStatus → List GateDecision → Prop where
  | ungated {status : RunStatus} (h : status ≠ .waitingApproval) : Phase status none []
  | evaluating {status : RunStatus} (h : status = .queued ∨ status = .running) :
      Phase status (some .evaluating) []
  | waiting : Phase .running (some .waitingApproval) []
  | approved : Phase .succeeded (some .approved) [.approve]
  | rejected : Phase .failed (some .rejected) [.reject]
  | failed : Phase .failed (some .failed) []
  | cancelled : Phase .cancelled (some .cancelled) []

namespace Phase

variable {status : RunStatus} {gateStatus : QualityGateStatus} {decisions : List GateDecision}

theorem length_le {gateStatus : Option QualityGateStatus} (h : Phase status gateStatus decisions) :
    decisions.length ≤ 1 := by
  cases h
  all_goals decide

theorem nil_of_none (h : Phase status none decisions) : decisions = [] := by
  cases h
  rfl

/-- Waiting is not a status of the row. -/
theorem ne_waiting {gateStatus : Option QualityGateStatus} (h : Phase status gateStatus decisions) :
    status ≠ .waitingApproval := by
  cases h with
  | ungated hs => exact hs
  | evaluating hs => rcases hs with rfl | rfl <;> decide
  | waiting | approved | rejected | failed | cancelled => decide

theorem approved_of_succeeded (h : Phase .succeeded (some gateStatus) decisions) :
    gateStatus = .approved := by
  cases h with
  | evaluating hs => simp at hs
  | approved => rfl

theorem approved_iff (h : Phase status (some gateStatus) decisions) :
    gateStatus = .approved ↔ .approve ∈ decisions := by
  cases h
  all_goals decide

theorem rejected_iff (h : Phase status (some gateStatus) decisions) :
    gateStatus = .rejected ↔ .reject ∈ decisions := by
  cases h
  all_goals decide

theorem failed_of_rejected (h : Phase status (some .rejected) decisions) : status = .failed := by
  cases h
  rfl

/-- A gate that waits has a run that goes on, and no decision. -/
theorem running_of_waiting (h : Phase status (some .waitingApproval) decisions) :
    status = .running ∧ decisions = [] := by
  cases h
  exact ⟨rfl, rfl⟩

/-- A run that goes on with a gate that does not wait. -/
theorem evaluating_of_active (h : Phase status (some gateStatus) decisions)
    (hactive : ¬ status.isTerminal) (hgate : gateStatus ≠ .waitingApproval) :
    gateStatus = .evaluating ∧ decisions = [] := by
  cases h with
  | evaluating => exact ⟨rfl, rfl⟩
  | waiting => exact absurd rfl hgate
  | approved | rejected | failed | cancelled => exact absurd (by decide) hactive

/-- The gate, if there is one, is cancelled with a run that has not ended. -/
theorem cancel {gate : Option QualityGateRecord} (h : Phase status (gate.map (·.status)) decisions)
    (hactive : ¬ status.isTerminal) (cancelledAt : Instant) :
    Phase .cancelled ((gate.map (CiLabStore.cancelledGate cancelledAt)).map (·.status))
      decisions := by
  cases gate with
  | none =>
    have hnone : Phase status none decisions := h
    rw [hnone.nil_of_none]
    exact .ungated (by decide)
  | some g =>
    have hsome : Phase status (some g.status) decisions := h
    have hnil : decisions = [] := by
      by_cases hwaiting : g.status = .waitingApproval
      · rw [hwaiting] at hsome
        exact hsome.running_of_waiting.2
      · exact (hsome.evaluating_of_active hactive hwaiting).2
    rw [hnil]
    exact .cancelled

end Phase

/-! ## Observations -/

theorem terminalPoint_status (definition : PipelineDefinition) :
    definition.terminalPoint.status = .failed ∨ definition.terminalPoint.status = .succeeded := by
  unfold PipelineDefinition.terminalPoint
  split
  · exact .inl rfl
  · exact .inr rfl

/-- What an observation may be. -/
theorem observe_cases (definition : PipelineDefinition) (gated : Bool) (current : RunRecord)
    (elapsedMs : Nat) :
    let seen := observe definition gated current elapsedMs
    (seen.gateReached = true ∧ seen.status = .running)
      ∨ seen.gateReached = false ∧ (seen.status = .queued ∧ current.status ≠ .running
          ∨ seen.status = .running ∨ seen.status = .failed
          ∨ seen.status = .succeeded ∧ gated = false) := by
  have hseen : let seen := observeElapsed definition gated current.createdAt elapsedMs
      (seen.gateReached = true ∧ seen.status = .running)
        ∨ seen.gateReached = false ∧ (seen.status = .queued ∨ seen.status = .running
            ∨ seen.status = .failed ∨ seen.status = .succeeded ∧ gated = false) := by
    dsimp only
    unfold observeElapsed
    dsimp only
    split
    · split
      · exact .inl ⟨rfl, rfl⟩
      · next hgate =>
        refine .inr ⟨rfl, .inr (.inr ?_)⟩
        rcases terminalPoint_status definition with hfailed | hsucceeded
        · exact .inl hfailed
        · refine .inr ⟨hsucceeded, ?_⟩
          cases gated
          · rfl
          · exact absurd ⟨rfl, hsucceeded⟩ hgate
    · refine .inr ⟨rfl, ?_⟩
      by_cases hstarted : definition.queueDelayMs ≤ elapsedMs
      · exact .inr (.inl (by simp [hstarted]))
      · exact .inl (by simp [hstarted])
  dsimp only at hseen ⊢
  unfold observe
  dsimp only
  split
  · next hback =>
    -- the clock went backwards
    rcases hseen with ⟨-, hrunning⟩ | ⟨hreached, -⟩
    · rw [hback.2] at hrunning
      cases hrunning
    · exact .inr ⟨hreached, .inr (.inl rfl)⟩
  · next hforward =>
    rcases hseen with hreached | ⟨hreached, hqueued | hrest⟩
    · exact .inl hreached
    · exact .inr ⟨hreached, .inl ⟨hqueued, fun hrunning => hforward ⟨hrunning, hqueued⟩⟩⟩
    · exact .inr ⟨hreached, .inr hrest⟩

@[simp] theorem observedRun_status (now : Instant) (current : RunRecord) (seen : Observation) :
    (observedRun now current seen).status = seen.status := by
  unfold observedRun
  split
  · rfl
  · next hsame =>
    by_cases hstatus : current.status = seen.status
    · exact hstatus
    · exact absurd (.inl hstatus) hsame

@[simp] theorem pausedRun_status (now : Instant) (current : RunRecord) :
    (pausedRun now current).status = .running := by
  unfold pausedRun
  split
  · rfl
  · next hsame =>
    by_cases hstatus : current.status = .running
    · exact hstatus
    · exact absurd (.inl hstatus) hsame

theorem observedGate_status {terminalAt : Instant} {seen : Observation} {g : QualityGateRecord}
    (h : g.status = .evaluating) :
    (observedGate now terminalAt seen g).status
      = if seen.gateReached = true then .waitingApproval
        else if seen.status = .failed then .failed else .evaluating := by
  unfold observedGate
  by_cases hreached : seen.gateReached = true
  · rw [if_pos ⟨h, hreached⟩, if_pos hreached]
  · rw [if_neg fun hboth => hreached hboth.2, if_neg hreached]
    by_cases hfailed : seen.status = .failed
    · rw [if_pos ⟨h, hfailed⟩, if_pos hfailed]
    · rw [if_neg fun hboth => hfailed hboth.2, if_neg hfailed, h]

/-! ## Refreshing -/

/-- A run that has ended is not refreshed. -/
theorem refreshed_terminal (h : run.status.isTerminal) :
    refreshed setup definition now run gate = (run, gate) := by
  unfold refreshed
  rw [if_pos (.inr h)]

/-- A run that waits for approval goes on waiting. -/
theorem refreshed_waiting {g : QualityGateRecord} (h : g.status = .waitingApproval) :
    (refreshed setup definition now run (some g)).2 = some g := by
  unfold refreshed
  split
  · rfl
  · rw [if_pos (by simp [h])]

theorem refreshed_running (h : run.status = .running) :
    (refreshed setup definition now run gate).1.status ≠ .queued := by
  unfold refreshed
  split
  · simp [h]
  split
  · simp
  · dsimp only
    rw [observedRun_status]
    rcases observe_cases definition gate.isSome run (setup.elapsedMs now run.createdAt) with
      ⟨-, hs⟩ | ⟨-, ⟨-, hne⟩ | hs | hs | ⟨hs, -⟩⟩
    · simp [hs]
    · exact absurd h hne
    · simp [hs]
    · simp [hs]
    · simp [hs]

/-- A refresh goes from phase to phase. -/
theorem refreshed_phase {decisions : List GateDecision}
    (h : Phase run.status (gate.map (·.status)) decisions) :
    Phase (refreshed setup definition now run gate).1.status
      ((refreshed setup definition now run gate).2.map (·.status)) decisions := by
  unfold refreshed
  split
  · exact h
  next hactive =>
  split
  · next hwaiting =>
    cases gate with
    | none => simp at hwaiting
    | some g =>
      have hg : g.status = .waitingApproval := by simpa using hwaiting
      have hphase : Phase run.status (some g.status) decisions := h
      rw [hg] at hphase
      obtain ⟨-, rfl⟩ := hphase.running_of_waiting
      rw [pausedRun_status]
      show Phase .running (some g.status) []
      rw [hg]
      exact .waiting
  next hnot =>
  dsimp only
  rw [observedRun_status]
  have hcases := observe_cases definition gate.isSome run (setup.elapsedMs now run.createdAt)
  dsimp only at hcases
  generalize observe definition gate.isSome run (setup.elapsedMs now run.createdAt)
    = seen at hcases ⊢
  cases gate with
  | none =>
    rw [h.nil_of_none]
    refine .ungated ?_
    rcases hcases with ⟨-, hs⟩ | ⟨-, ⟨hs, -⟩ | hs | hs | ⟨hs, -⟩⟩
    all_goals simp [hs]
  | some g =>
    have hphase : Phase run.status (some g.status) decisions := h
    obtain ⟨hevaluating, rfl⟩ :=
      hphase.evaluating_of_active (fun hterminal => hactive (.inr hterminal))
      (fun hwaiting => hnot (by simp [hwaiting]))
    show Phase _ (some (observedGate _ _ _ _).status) []
    rw [observedGate_status hevaluating]
    rcases hcases with ⟨hreached, hs⟩ | ⟨hreached, ⟨hs, -⟩ | hs | hs | ⟨-, hgated⟩⟩
    · simp only [hreached, hs, if_true]
      exact .waiting
    · rw [hreached, hs]
      exact .evaluating (.inl rfl)
    · rw [hreached, hs]
      exact .evaluating (.inr rfl)
    · rw [hreached, hs]
      exact .failed
    · simp at hgated

namespace CiLabStore

open QaPlatform.Transition

variable {registry : DefinitionRegistry} {s s' s₁ : CiLabStore} {call : Call} {emittedAt : Instant}

/-! ## The invariant -/

/-- Every run is in a phase. -/
structure InPhase (s : CiLabStore) : Prop extends Known s where
  phases : ∀ {k run}, s.runs.get? k = some run →
    Phase run.status ((s.gates.get? k).map (·.status)) ((s.approvalsOf k).map (·.decision))

theorem empty_inPhase : empty.InPhase where
  gates _ _ := rfl
  approvals _ _ := rfl
  phases h := by cases h

theorem Written.known (h : Written setup registry s now call s₁ run gate emittedAt) (hs : s.Known) :
    s₁.Known := by
  have hothers {k : Uuid} (hk : s₁.runs.get? k = none) : k ≠ run.id := by
    rintro rfl
    rw [(h.row hs).1] at hk
    simp at hk
  refine ⟨fun k hk => ?_, fun k hk => ?_⟩
  · obtain ⟨hrun, hgate, -⟩ := h.others (hothers hk)
    rw [hgate]
    exact hs.gates k (hrun ▸ hk)
  · obtain ⟨hrun, -, happrovals, -⟩ := h.others (hothers hk)
    rw [happrovals]
    exact hs.approvals k (hrun ▸ hk)

theorem InPhase.current (hs : s.InPhase) {record : RunRecord}
    (hrecord : s.runs.get? record.id = some record) :
    Phase (s.current setup definition now record).1.status
      ((s.current setup definition now record).2.map (·.status))
      ((s.approvalsOf record.id).map (·.decision)) :=
  refreshed_phase (hs.phases hrecord)

/-- The gate that is decided was waiting, and its run went on. -/
theorem InPhase.decidable (hs : s.InPhase) {record : RunRecord} {g : QualityGateRecord}
    (hrecord : s.runs.get? record.id = some record)
    (hgate : (s.current setup definition now record).2 = some g)
    (hwaiting : g.status = .waitingApproval) :
    (s.current setup definition now record).1.status = .running ∧ ¬ record.status.isTerminal := by
  have hphase : Phase (s.current setup definition now record).1.status
      ((s.current setup definition now record).2.map (·.status))
      ((s.approvalsOf record.id).map (·.decision)) := hs.current hrecord
  have hsome : ((s.current setup definition now record).2.map (·.status))
    = some .waitingApproval := by
    rw [hgate]
    exact congrArg some hwaiting
  rw [hsome] at hphase
  obtain ⟨hrunning, -⟩ := hphase.running_of_waiting
  refine ⟨hrunning, fun hterminal => ?_⟩
  have hsame : s.current setup definition now record = (record, s.gates.get? record.id) :=
    refreshed_terminal hterminal
  rw [hsame] at hrunning
  rw [hrunning] at hterminal
  exact absurd hterminal (by decide)

theorem Written.inPhase (h : Written setup registry s now call s₁ run gate emittedAt)
    (hs : s.InPhase) : s₁.InPhase := by
  refine ⟨h.known hs.toKnown, fun {k r} hr => ?_⟩
  by_cases hk : k = run.id
  · subst hk
    obtain ⟨hrun, hgate⟩ := h.row hs.toKnown
    obtain rfl := Option.some.inj (hrun.symm.trans hr)
    rw [hgate]
    cases h with
    | created hdefinition hunused hgates hsubscriptions =>
      show Phase .queued _ ((s.approvalsOf s.runs.next).map _)
      rw [hs.approvals _ s.runs.get?_next]
      cases hnew : newGate _ now s.runs.next with
      | none => exact .ungated (by decide)
      | some g =>
        obtain ⟨policyRevision, -, rfl⟩ := Option.map_eq_some_iff.mp hnew
        exact .evaluating (.inl rfl)
    | refreshed hrecord hdefinition =>
      rw [current_id]
      exact hs.current hrecord
    | @cancelled record definition _ hrecord hdefinition hactive =>
      have hid : (s.current setup definition now record).1.id = record.id := current_id
      show Phase .cancelled _ ((s.approvalsOf (s.current setup definition now record).1.id).map _)
      rw [hid]
      exact (hs.current hrecord).cancel hactive emittedAt
    | @decided record definition request g _ hrecord hdefinition hcurrent hnone hwaiting =>
      have hid : (decidedRun request.decision emittedAt
        (s.current setup definition now record).1).id
          = record.id := current_id
      have hnil : s.approvals.rows.filter (·.runId = record.id) = [] := hnone
      have happrovals :
          (s.approvals.rows ++ [newApproval request record.id emittedAt s.approvals.next]).filter
              (·.runId = record.id)
            = [newApproval request record.id emittedAt s.approvals.next] := by
        rw [List.filter_append, hnil]
        simp [newApproval]
      show Phase _ _ (List.map _ (List.filter _ (s.approvals.rows ++ [_])))
      rw [hid, happrovals]
      show Phase (if request.decision = .approve then _ else _)
        (some (if request.decision = .approve then _ else _)) [request.decision]
      cases request.decision with
      | approve => exact .approved
      | reject => exact .rejected
  · obtain ⟨hrun, hgate, happrovals, -⟩ := h.others hk
    rw [hrun] at hr
    rw [hgate, happrovals]
    exact hs.phases hr

/-- The phases are about runs, gates and approvals only. -/
theorem InPhase.of_runs (hs : s.InPhase) (hruns : s'.runs = s.runs) (hgates : s'.gates = s.gates)
    (happrovals : s'.approvals = s.approvals) : s'.InPhase := by
  have hof (k : Uuid) : s'.approvalsOf k = s.approvalsOf k := by
    unfold approvalsOf
    rw [happrovals]
  refine ⟨⟨fun k hk => ?_, fun k hk => ?_⟩, fun {k run} hr => ?_⟩
  · rw [hgates]
    exact hs.gates k (hruns ▸ hk)
  · rw [hof]
    exact hs.approvals k (hruns ▸ hk)
  · rw [hruns] at hr
    rw [hgates, hof]
    exact hs.phases hr

theorem InPhase.part (hs : s.InPhase) (h : Step setup registry now call s s') : s'.InPhase := by
  cases h with
  | round hround =>
    obtain ⟨s₁, run, gate, emittedAt, emitted, hwritten, hemitted⟩ := hround
    obtain ⟨hruns, hgates, happrovals, -⟩ := enqueue_runs hemitted
    exact (hwritten.inPhase hs).of_runs hruns hgates happrovals
  | rewrites hrewrites =>
    exact hs.of_runs hrewrites.runs hrewrites.gates hrewrites.approvals

theorem run_inPhase (setup : Setup) (es : List Event) :
    (Transition.run (step setup) empty es).InPhase :=
  invariant_run (fun _ _ h => step_invariant (fun h hs => h.part hs) h) empty_inPhase es

/-! ## Transitions -/

/-- The call may end the wait of a run. -/
def Releases (call : Call) (k : Uuid) : Prop :=
  call = .cancel k ∨ ∃ request, call = .decideGate k request

/-- How runs go on: the ended ones stay, the running ones are not queued again, and the wait for
approval goes on unless it is released. -/
def Goes (call : Call) (s s' : CiLabStore) : Prop :=
  ∀ k run, s.runs.get? k = some run → ∃ run', s'.runs.get? k = some run'
    ∧ (run.status.isTerminal → run' = run)
    ∧ (run.status = .running → run'.status = .running ∨ run'.status.isTerminal)
    ∧ ∀ g, s.gates.get? k = some g → g.status = .waitingApproval →
      s'.gates.get? k = some g ∨ Releases call k

theorem Goes.refl (s : CiLabStore) : Goes call s s :=
  fun _ run hrun => ⟨run, hrun, fun _ => rfl, .inl, fun _ hg _ => .inl hg⟩

theorem Goes.trans {a b c : CiLabStore} (hab : Goes call a b) (hbc : Goes call b c) :
    Goes call a c := by
  intro k run hrun
  obtain ⟨run', hrun', hend, hgo, hwait⟩ := hab k run hrun
  obtain ⟨run'', hrun'', hend', hgo', hwait'⟩ := hbc k run' hrun'
  refine ⟨run'', hrun'', fun hterminal => ?_, fun hrunning => ?_, fun g hg hwaiting => ?_⟩
  · obtain rfl := hend hterminal
    exact hend' hterminal
  · rcases hgo hrunning with hrunning | hterminal
    · exact hgo' hrunning
    · obtain rfl := hend' hterminal
      exact .inr hterminal
  · rcases hwait g hg hwaiting with hg' | hreleases
    · exact hwait' g hg' hwaiting
    · exact .inr hreleases

/-- Where runs and gates stay, they go on. -/
theorem Goes.of_runs (hruns : s'.runs = s.runs) (hgates : s'.gates = s.gates) : Goes call s s' := by
  intro k run hrun
  rw [hruns, hgates]
  exact Goes.refl s k run hrun

theorem Written.goes (h : Written setup registry s now call s₁ run gate emittedAt)
    (hs : s.InPhase) : Goes call s s₁ := by
  intro k old hold
  by_cases hk : k = run.id
  · subst hk
    obtain ⟨hrow, hgate⟩ := h.row hs.toKnown
    refine ⟨run, hrow, ?_⟩
    rw [hgate]
    cases h with
    -- a run that is created has the next number, which no run has
    | created hdefinition hunused hgates hsubscriptions =>
      have hnone : s.runs.get? s.runs.next = some old := hold
      simp at hnone
    | @refreshed _ record definition hrecord hdefinition =>
      rw [current_id] at hold ⊢
      obtain rfl := Option.some.inj (hrecord.symm.trans hold)
      refine ⟨fun hterminal => ?_, fun hrunning => ?_, fun g hg hwaiting => .inl ?_⟩
      · exact congrArg Prod.fst (refreshed_terminal hterminal)
      · have hne : (s.current setup definition now record).1.status ≠ .queued :=
          refreshed_running hrunning
        -- waiting is not a status of the row, whatever the view shows
        have hphase : (s.current setup definition now record).1.status ≠ .waitingApproval :=
          (hs.current hrecord).ne_waiting
        cases hstatus : (s.current setup definition now record).1.status with
        | queued => exact absurd hstatus hne
        | running => exact .inl rfl
        | waitingApproval => exact absurd hstatus hphase
        | succeeded | failed | cancelled => exact .inr (by decide)
      · show (CiLab.refreshed _ _ _ _ (s.gates.get? record.id)).2 = _
        rw [hg]
        exact refreshed_waiting hwaiting
    | @cancelled record definition _ hrecord hdefinition hactive =>
      have hid : (s.current setup definition now record).1.id = record.id := current_id
      have hkey : (cancelledRun definition emittedAt (s.current setup definition now record).1).id
          = record.id := hid
      rw [hkey] at hold ⊢
      obtain rfl := Option.some.inj (hrecord.symm.trans hold)
      refine ⟨fun hterminal => ?_, fun _ => .inr (.inr (.inr rfl)), fun _ _ _ => .inr (.inl rfl)⟩
      -- a refresh leaves a run that has ended, so it would not be active
      have hsame : s.current setup definition now record = (record, s.gates.get? record.id) :=
        refreshed_terminal hterminal
      rw [hsame] at hactive
      exact absurd hterminal hactive
    | @decided record definition request g _ hrecord hdefinition hcurrent hnone hwaiting =>
      have hkey : (decidedRun request.decision emittedAt
        (s.current setup definition now record).1).id
          = record.id := current_id
      rw [hkey] at hold ⊢
      obtain rfl := Option.some.inj (hrecord.symm.trans hold)
      obtain ⟨-, hactive⟩ := hs.decidable hrecord hcurrent hwaiting
      refine ⟨fun hterminal => absurd hterminal hactive, fun _ => .inr ?_,
        fun _ _ _ => .inr (.inr ⟨request, rfl⟩)⟩
      show (if request.decision = .approve then RunStatus.succeeded else .failed).isTerminal
      cases request.decision with
      | approve => decide
      | reject => decide
  · obtain ⟨hrun, hgate, -⟩ := h.others hk
    rw [hrun, hgate]
    exact Goes.refl s k old hold

theorem Step.goes (h : Step setup registry now call s s') (hs : s.InPhase) : Goes call s s' := by
  cases h with
  | round hround =>
    obtain ⟨s₁, run, gate, emittedAt, emitted, hwritten, hemitted⟩ := hround
    obtain ⟨hruns, hgates, -⟩ := enqueue_runs hemitted
    exact (hwritten.goes hs).trans (.of_runs hruns hgates)
  | rewrites hrewrites => exact .of_runs hrewrites.runs hrewrites.gates

theorem step_goes (hs : s.InPhase) (e : Event) : Goes e.call s (s.step setup e) := by
  have hstep : s.InPhase → (s.step setup e).InPhase ∧ Goes e.call s (s.step setup e) :=
    step_rel (R := fun a b => a.InPhase → b.InPhase ∧ Goes e.call a b)
      (fun a ha => ⟨ha, .refl a⟩)
      (fun hab hbc ha => ⟨(hbc (hab ha).1).1, (hab ha).2.trans (hbc (hab ha).1).2⟩)
      (fun hpart ha => ⟨ha.part hpart, hpart.goes ha⟩) s
  exact (hstep hs).2

/-! ## Attempts that fail -/

/-- There is no deciding: the event was another decision's, there is a decision already, or the
gate does not wait. -/
def Undecidable (setup : Setup) (registry : DefinitionRegistry) (s : CiLabStore) (now : Instant)
    (k : Uuid) (request : GateDecisionRequest) : Prop :=
  (∃ a ∈ s.approvalsOf k, a.eventId = request.eventId
      ∧ a.requestFingerprint ≠ approvalFingerprint request)
    ∨ (s.approvalsOf k ≠ [] ∧ ∀ a ∈ s.approvalsOf k, a.eventId ≠ request.eventId)
    ∨ s.approvalsOf k = [] ∧ ∀ record definition, s.runs.get? k = some record →
        definitionForRecord registry record = .ok definition →
        (s.current setup definition now record).2.map (·.status) ≠ some .waitingApproval

/-- There is no cancelling: the run has ended otherwise. -/
def Uncancellable (setup : Setup) (registry : DefinitionRegistry) (s : CiLabStore) (now : Instant)
    (k : Uuid) : Prop :=
  ∀ record definition, s.runs.get? k = some record →
    definitionForRecord registry record = .ok definition →
    (s.current setup definition now record).1.status = .succeeded
      ∨ (s.current setup definition now record).1.status = .failed

/-- A run has one decision at most. -/
theorem InPhase.approvals_length (hs : s.InPhase) (k : Uuid) : (s.approvalsOf k).length ≤ 1 := by
  cases hrun : s.runs.get? k with
  | some run =>
    have hle := (hs.phases hrun).length_le
    rwa [List.length_map] at hle
  | none => simp [hs.approvals k hrun]

theorem Undecidable.raises {k : Uuid} {request : GateDecisionRequest}
    {x : CiLabStore × RunView} (hs : s.InPhase)
    (h : Undecidable setup registry s now k request) :
    s.decideGate setup registry k request now ≠ .ok x := by
  intro hcall
  obtain ⟨record, hrecord, hrest⟩ := bind_eq_ok.mp hcall
  obtain ⟨definition, hdefinition, hrest⟩ := bind_eq_ok.mp hrest
  obtain ⟨y, hy, hrest⟩ := bind_eq_ok.mp hrest
  obtain ⟨definition', hsame, rfl⟩ := refreshRecord_ok hy
  obtain rfl := Except.ok.inj (hdefinition.symm.trans hsame)
  obtain ⟨g, hgate, hrest⟩ := bind_eq_ok.mp hrest
  have hgate := demand_eq_ok.mp hgate
  cases hprevious : (s.approvalsOf k).find? (·.eventId = request.eventId) with
  | some previous =>
    simp only [hprevious] at hrest
    obtain ⟨hfingerprint, -⟩ := refuse_bind_eq_ok.mp hrest
    have hmem := List.mem_of_find?_eq_some hprevious
    rcases h with ⟨a, ha, hevent, hother⟩ | ⟨-, hnone⟩ | ⟨hnil, -⟩
    · -- there is one approval
      have hle := hs.approvals_length k
      have hsame : previous = a := by
        obtain ⟨b, hb⟩ := List.length_eq_one_iff.mp
          (Nat.le_antisymm hle (List.length_pos_of_mem ha))
        rw [hb] at hmem ha
        rw [List.mem_singleton.mp hmem, List.mem_singleton.mp ha]
      exact hother (hsame ▸ not_not.mp hfingerprint)
    · exact hnone previous hmem (by simpa using List.find?_some hprevious)
    · rw [hnil] at hmem
      cases hmem
  | none =>
    simp only [hprevious] at hrest
    obtain ⟨hnil, hrest⟩ := refuse_bind_eq_ok.mp hrest
    obtain ⟨hwaiting, -⟩ := refuse_bind_eq_ok.mp hrest
    rcases h with ⟨a, ha, -⟩ | ⟨hsome, -⟩ | ⟨-, hidle⟩
    · rw [not_not.mp hnil] at ha
      cases ha
    · exact hnil hsome
    · refine hidle record definition (requireRun_eq_ok.mp hrecord) hdefinition ?_
      rw [hgate]
      exact congrArg some (not_not.mp hwaiting)

theorem Uncancellable.raises {k : Uuid} {x : CiLabStore × RunView}
    (h : Uncancellable setup registry s now k) : s.cancel setup registry k now ≠ .ok x := by
  intro hcall
  obtain ⟨record, hrecord, hrest⟩ := bind_eq_ok.mp hcall
  obtain ⟨definition, hdefinition, hrest⟩ := bind_eq_ok.mp hrest
  obtain ⟨y, hy, hrest⟩ := bind_eq_ok.mp hrest
  obtain ⟨definition', hsame, rfl⟩ := refreshRecord_ok hy
  obtain rfl := Except.ok.inj (hdefinition.symm.trans hsame)
  have hstatus := h record definition (requireRun_eq_ok.mp hrecord) hdefinition
  split at hrest
  · next hcancelled =>
    rw [hcancelled] at hstatus
    simp at hstatus
  · obtain ⟨hactive, -⟩ := refuse_bind_eq_ok.mp hrest
    refine hactive ?_
    rcases hstatus with hs | hs
    · exact .inl hs
    · exact .inr (.inl hs)

/-- What is seen as waiting has a gate that waits. -/
theorem publicRunStatus_waiting (hrun : run.status ≠ .waitingApproval)
    (h : publicRunStatus run gate = .waitingApproval) :
    ∃ g, gate = some g ∧ g.status = .waitingApproval := by
  unfold publicRunStatus at h
  split at h
  · next hgate =>
    cases gate with
    | none => simp at hgate
    | some g => exact ⟨g, rfl, by simpa using hgate⟩
  · exact absurd h hrun

theorem call_error_of {α : Type} {f : α → CiLabStore} {x : Except CiLabError α}
    (hcall : s.call setup registry now call = x.map f) (hx : ∀ a, x ≠ .ok a) :
    ∃ error, s.call setup registry now call = .error error := by
  cases x with
  | error error => exact ⟨error, hcall⟩
  | ok a => exact absurd rfl (hx a)

/-! ## The machine -/

/-- CI Lab's machine over any run: the wait ends by a decision or a cancellation, a run has one
decision at most, what has ended stays, the gate tells of the decision, and a failed attempt
changes nothing. -/
theorem machine_of_runs (setup : Setup) (es : List Event) :
    let s := Transition.run (step setup) empty es
    (∀ (e : Event) k run run', s.runs.get? k = some run → (s.step setup e).runs.get? k = some run' →
        publicRunStatus run (s.gates.get? k) = .waitingApproval →
        publicRunStatus run' ((s.step setup e).gates.get? k) = .waitingApproval
          ∨ Releases e.call k)
    ∧ (∀ k, (s.approvalsOf k).length ≤ 1)
    ∧ (∀ (e : Event) k run, s.runs.get? k = some run →
      ∃ run', (s.step setup e).runs.get? k = some run'
        ∧ (run.status.isTerminal → run'.status = run.status)
        ∧ (run.status = .running → run'.status ≠ .queued))
    ∧ (∀ k run gate, s.runs.get? k = some run → s.gates.get? k = some gate →
        (run.status = .succeeded → gate.status = .approved)
          ∧ (gate.status = .approved ↔ ∃ a ∈ s.approvalsOf k, a.decision = .approve)
          ∧ (gate.status = .rejected ↔ ∃ a ∈ s.approvalsOf k, a.decision = .reject)
          ∧ (gate.status = .rejected → run.status = .failed))
    ∧ (∀ (e : Event) error, s.call setup e.registry e.now e.call = .error error →
      s.step setup e = s)
    ∧ (∀ (e : Event) k request, e.call = .decideGate k request →
        Undecidable setup e.registry s e.now k request →
        ∃ error, s.call setup e.registry e.now e.call = .error error)
    ∧ ∀ (e : Event) k, e.call = .cancel k → Uncancellable setup e.registry s e.now k →
        ∃ error, s.call setup e.registry e.now e.call = .error error := by
  have hs := run_inPhase setup es
  have hgoes (e : Event) : Goes e.call _ (CiLabStore.step setup _ e) := step_goes hs e
  refine ⟨?_, hs.approvals_length, ?_, ?_, fun e error h => step_error h, ?_, ?_⟩
  · intro e k run run' hrun hrun' hwaiting
    obtain ⟨r, hr, -, -, hwait⟩ := hgoes e k run hrun
    obtain ⟨g, hg, hgate⟩ := publicRunStatus_waiting (hs.phases hrun).ne_waiting hwaiting
    refine (hwait g hg hgate).imp (fun hsame => ?_) id
    unfold publicRunStatus
    rw [hsame, if_pos (by simp [hgate])]
  · intro e k run hrun
    obtain ⟨run', hrun', hend, hgo, -⟩ := hgoes e k run hrun
    refine ⟨run', hrun', fun hterminal => by rw [hend hterminal], fun hrunning hqueued => ?_⟩
    rcases hgo hrunning with hs | hs
    · simp [hs] at hqueued
    · rw [hqueued] at hs
      exact absurd hs (by decide)
  · intro k run gate hrun hgate
    have hphase := hs.phases hrun
    rw [hgate] at hphase
    have hphase : Phase run.status (some gate.status) _ := hphase
    refine ⟨fun hsucceeded => ?_, ?_, ?_, fun hrejected => ?_⟩
    · rw [hsucceeded] at hphase
      exact hphase.approved_of_succeeded
    · rw [hphase.approved_iff, List.mem_map]
    · rw [hphase.rejected_iff, List.mem_map]
    · rw [hrejected] at hphase
      exact hphase.failed_of_rejected
  · intro e k request hcall hundecidable
    rw [hcall]
    exact call_error_of rfl fun x => hundecidable.raises hs
  · intro e k hcall huncancellable
    rw [hcall]
    exact call_error_of rfl fun x => huncancellable.raises

end CiLabStore

end QaPlatform.CiLab
