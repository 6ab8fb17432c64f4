import QaPlatform.Base.Doubles
import QaPlatform.CiLab.RunMachine
import QaPlatform.CiLab.StageViews

/-!
# The lives of a run

A run's row is stored and goes on, whatever the clock does. `Life` lists how a row can stand to its
definition, through all the instants in it, and `Seen` says that a clock reading is as far as the
row is: what a refresh finds, a cancellation and a decision make lives of lives.
-/

namespace QaPlatform.CiLab

/-! ## Elapsed time -/

/-- `max(0, int((now - created_at).total_seconds() * 1000))`. -/
def elapsedMs (now createdAt : Instant) : Nat := Doubles.millis (now - createdAt).toNat

/-- CI Lab with the clock's own milliseconds. -/
def clockSetup (isoformat : Instant → String) (uuid : Uuid → String) : Setup :=
  { elapsedMs, isoformat, uuid }

/-- 139 years. -/
def horizonMs : Nat := 2 ^ 42

theorem elapsedMs_self (createdAt : Instant) : elapsedMs createdAt createdAt = 0 := by
  unfold elapsedMs
  rw [Int.sub_self]
  exact Doubles.millis_zero

/-- What has been counted has passed. -/
theorem le_of_le_elapsedMs {k : Nat} {now createdAt : Instant} (hpos : 0 < k) (hk : k ≤ horizonMs)
    (h : k ≤ elapsedMs now createdAt) : createdAt + milliseconds k ≤ now := by
  have hpassed : k * 1000 ≤ (now - createdAt).toNat := Doubles.le_of_le_millis hk h
  have hle : milliseconds k ≤ now - createdAt := by
    unfold milliseconds
    generalize now - createdAt = passed at hpassed ⊢
    omega
  exact Int.add_le_of_le_sub_left hle

namespace PipelineDefinition

/-- The queue delay is positive and so is what the first failing job takes; all of it is over
within 139 years. -/
structure Regular (definition : PipelineDefinition) : Prop where
  delayed : 0 < definition.queueDelayMs
  failing : ∀ failure, definition.firstFailure = some failure →
    failure.startMs < failure.finishMs
  short : ∀ item ∈ definition.timeline, item.finishMs ≤ horizonMs

theorem Regular.terminal_le {definition : PipelineDefinition} (h : definition.Regular) :
    0 < definition.terminalPoint.ms ∧ definition.terminalPoint.ms ≤ horizonMs := by
  obtain ⟨item, hitem, hms⟩ := definition.terminalPoint_mem
  have hshort := h.short item hitem
  have hdelay := h.delayed
  have hle := definition.queueDelay_le_terminal
  omega

end PipelineDefinition

namespace CiLabStore

variable {definition : PipelineDefinition} {now : Instant} {run : RunRecord}
  {gate : Option QualityGateRecord}

/-! ## Lives -/

/-- When the queue delay is over. -/
def startsAt (definition : PipelineDefinition) (run : RunRecord) : Instant :=
  run.createdAt + milliseconds definition.queueDelayMs

/-- When the run ends, if nobody cancels it and no gate holds it. -/
def terminalAt (definition : PipelineDefinition) (run : RunRecord) : Instant :=
  run.createdAt + milliseconds definition.terminalPoint.ms

theorem startsAt_le_terminalAt (definition : PipelineDefinition) (run : RunRecord) :
    startsAt definition run ≤ terminalAt definition run :=
  add_milliseconds_le definition.queueDelay_le_terminal _

/-- How a run and its gate stand to the definition. -/
inductive Life (definition : PipelineDefinition) (run : RunRecord)
    (gate : Option QualityGateRecord) : Prop where
  | queued (hstatus : run.status = .queued) (hstarted : run.startedAt = none)
      (hfinished : run.finishedAt = none) (hcancelled : run.cancelledAt = none)
      (hgate : ∀ g, gate = some g → g.status = .evaluating)
  | running (hstatus : run.status = .running)
      (hstarted : run.startedAt = some (startsAt definition run))
      (hfinished : run.finishedAt = none) (hcancelled : run.cancelledAt = none)
      (hgate : ∀ g, gate = some g → g.status = .evaluating)
  | waiting {g : QualityGateRecord} (hpasses : definition.firstFailure = none)
      (hstatus : run.status = .running)
      (hstarted : run.startedAt = some (startsAt definition run))
      (hfinished : run.finishedAt = none) (hcancelled : run.cancelledAt = none)
      (hgate : gate = some g) (hwaiting : g.status = .waitingApproval)
      (hreached : g.reachedAt = some (terminalAt definition run))
  | ended (hstatus : run.status = definition.terminalPoint.status)
      (hstarted : run.startedAt = some (startsAt definition run))
      (hfinished : run.finishedAt = some (terminalAt definition run))
      (hcancelled : run.cancelledAt = none)
      (hgate : ∀ g, gate = some g → g.status = .failed)
  | decided {g : QualityGateRecord} {decisionAt : Instant}
      (hpasses : definition.firstFailure = none)
      (hstatus : run.status = .succeeded ∧ g.status = .approved
        ∨ run.status = .failed ∧ g.status = .rejected)
      (hstarted : run.startedAt = some (startsAt definition run))
      (hfinished : run.finishedAt = some decisionAt)
      (hreached : terminalAt definition run ≤ decisionAt) (hcancelled : run.cancelledAt = none)
      (hgate : gate = some g)
  | cancelled {t : Instant} (hstatus : run.status = .cancelled)
      (hstarted : ∀ start, run.startedAt = some start → start ≤ t)
      (hfinished : run.finishedAt = some t) (hcancelled : run.cancelledAt = some t)
      (hgate : ∀ g, gate = some g → g.status = .cancelled)

/-- The run waits, or has ended otherwise than by a cancellation. -/
def Done (run : RunRecord) (gate : Option QualityGateRecord) : Prop :=
  run.status = .succeeded ∨ run.status = .failed
    ∨ ∃ g, gate = some g ∧ g.status = .waitingApproval

namespace Life

/-- A run goes on, or waits, or has ended. -/
theorem going (h : Life definition run gate) :
    ((run.status = .queued
        ∨ run.status = .running ∧ run.startedAt = some (startsAt definition run))
      ∧ run.cancelledAt = none ∧ ∀ g, gate = some g → g.status = .evaluating)
    ∨ (run.status = .running ∧ run.finishedAt = none ∧ run.cancelledAt = none
      ∧ ∃ g, gate = some g ∧ g.status = .waitingApproval
        ∧ g.reachedAt = some (terminalAt definition run))
    ∨ run.status.isTerminal := by
  cases h with
  | queued hstatus hstarted hfinished hcancelled hgate =>
    exact .inl ⟨.inl hstatus, hcancelled, hgate⟩
  | running hstatus hstarted hfinished hcancelled hgate =>
    exact .inl ⟨.inr ⟨hstatus, hstarted⟩, hcancelled, hgate⟩
  | waiting hpasses hstatus hstarted hfinished hcancelled hgate hwaiting hreached =>
    exact .inr (.inl ⟨hstatus, hfinished, hcancelled, _, hgate, hwaiting, hreached⟩)
  | ended hstatus =>
    rcases terminalPoint_status definition with hs | hs
    · exact .inr (.inr (.inr (.inl (hstatus.trans hs))))
    · exact .inr (.inr (.inl (hstatus.trans hs)))
  | decided hpasses hstatus =>
    rcases hstatus with ⟨hs, -⟩ | ⟨hs, -⟩
    · exact .inr (.inr (.inl hs))
    · exact .inr (.inr (.inr (.inl hs)))
  | cancelled hstatus => exact .inr (.inr (.inr (.inr hstatus)))

/-- What is public of a run. -/
theorem publicRunStatus (h : Life definition run gate) :
    (CiLab.publicRunStatus run gate = .waitingApproval
        ↔ ∃ g, gate = some g ∧ g.status = .waitingApproval)
      ∧ (CiLab.publicRunStatus run gate ≠ .waitingApproval →
        CiLab.publicRunStatus run gate = run.status) := by
  have hne : run.status ≠ .waitingApproval := by
    cases h with
    | ended hstatus =>
      rcases terminalPoint_status definition with hterminal | hterminal
      · simp [hstatus, hterminal]
      · simp [hstatus, hterminal]
    | decided hpasses hstatus => rcases hstatus with ⟨hs, -⟩ | ⟨hs, -⟩ <;> simp [hs]
    | queued hstatus | running hstatus | cancelled hstatus => simp [hstatus]
    | waiting hpasses hstatus => simp [hstatus]
  unfold CiLab.publicRunStatus
  by_cases hwaiting : gate.any (·.status = .waitingApproval) = true
  · rw [if_pos hwaiting]
    refine ⟨⟨fun _ => ?_, fun _ => rfl⟩, fun hother => absurd rfl hother⟩
    cases gate with
    | none => cases hwaiting
    | some g => exact ⟨g, rfl, by simpa using hwaiting⟩
  · rw [if_neg hwaiting]
    refine ⟨⟨fun hsame => absurd hsame hne, ?_⟩, fun _ => rfl⟩
    rintro ⟨g, rfl, hg⟩
    exact absurd (by simp [hg]) hwaiting

end Life

/-! ## Refreshing -/

@[simp] theorem observedRun_startedAt (now : Instant) (current : RunRecord) (seen : Observation) :
    (observedRun now current seen).startedAt = seen.startedAt := by
  unfold observedRun
  split
  · rfl
  · next hsame =>
    by_cases hstarted : current.startedAt = seen.startedAt
    · exact hstarted
    · exact absurd (.inr (.inl hstarted)) hsame

@[simp] theorem observedRun_finishedAt (now : Instant) (current : RunRecord) (seen : Observation) :
    (observedRun now current seen).finishedAt = seen.finishedAt := by
  unfold observedRun
  split
  · rfl
  · next hsame =>
    by_cases hfinished : current.finishedAt = seen.finishedAt
    · exact hfinished
    · exact absurd (.inr (.inr (.inl hfinished))) hsame

@[simp] theorem observedRun_createdAt (now : Instant) (current : RunRecord) (seen : Observation) :
    (observedRun now current seen).createdAt = current.createdAt := by
  unfold observedRun
  split <;> rfl

@[simp] theorem observedRun_cancelledAt (now : Instant) (current : RunRecord) (seen : Observation) :
    (observedRun now current seen).cancelledAt = current.cancelledAt := by
  unfold observedRun
  split <;> rfl

/-- What is observed of a run that has not ended. -/
inductive Observed (definition : PipelineDefinition) (gated : Bool) (run : RunRecord)
    (elapsedMs : Nat) : Observation → Prop where
  | queued {message : Option String} (h : elapsedMs < definition.queueDelayMs) :
      Observed definition gated run elapsedMs ⟨.queued, message, none, none, false⟩
  | running {message : Option String}
      (h : definition.queueDelayMs ≤ elapsedMs ∨ run.status = .running) :
      Observed definition gated run elapsedMs
        ⟨.running, message, some (startsAt definition run), none, false⟩
  | reached {message : Option String} (h : definition.terminalPoint.ms ≤ elapsedMs)
      (hgated : gated = true) (hsucceeds : definition.terminalPoint.status = .succeeded) :
      Observed definition gated run elapsedMs
        ⟨.running, message, some (startsAt definition run), none, true⟩
  | ended {message : Option String} (h : definition.terminalPoint.ms ≤ elapsedMs)
      (hopen : ¬ (gated = true ∧ definition.terminalPoint.status = .succeeded)) :
      Observed definition gated run elapsedMs
        ⟨definition.terminalPoint.status, message, some (startsAt definition run),
          some (terminalAt definition run), false⟩

theorem observe_observed (gated : Bool) (elapsedMs : Nat)
    (h : run.status = .queued
      ∨ run.status = .running ∧ run.startedAt = some (startsAt definition run)) :
    Observed definition gated run elapsedMs (observe definition gated run elapsedMs) := by
  have hle := definition.queueDelay_le_terminal
  unfold observe observeElapsed
  by_cases hterminal : definition.terminalPoint.ms ≤ elapsedMs
  · have hstarted : definition.queueDelayMs ≤ elapsedMs := Nat.le_trans hle hterminal
    simp only [if_pos hterminal, if_pos hstarted]
    by_cases hgated : gated = true ∧ definition.terminalPoint.status = .succeeded
    · simp only [if_pos hgated]
      rw [if_neg (by simp)]
      exact .reached hterminal hgated.1 hgated.2
    · simp only [if_neg hgated]
      rw [if_neg]
      · exact .ended hterminal hgated
      · rintro ⟨-, hqueued⟩
        have hqueued : definition.terminalPoint.status = .queued := hqueued
        rcases terminalPoint_status definition with hs | hs <;> simp [hqueued] at hs
  · simp only [if_neg hterminal]
    by_cases hstarted : definition.queueDelayMs ≤ elapsedMs
    · simp only [if_pos hstarted]
      rw [if_neg (by simp)]
      exact .running (.inl hstarted)
    · simp only [if_neg hstarted]
      rcases h with hqueued | ⟨hrunning, hstartedAt⟩
      · rw [if_neg (by simp [hqueued])]
        exact .queued (Nat.lt_of_not_le hstarted)
      · -- the clock went backwards
        rw [if_pos ⟨hrunning, trivial⟩, hstartedAt]
        exact .running (.inr hrunning)

/-- The time that a view of a run that is done looks at. -/
def shownAt (run : RunRecord) (now : Instant) : Instant :=
  max now (run.finishedAt.getD (run.startedAt.getD now))

/-- The time that a view looks at is as far as the run is. -/
structure Seen (definition : PipelineDefinition) (run : RunRecord)
    (gate : Option QualityGateRecord) (now : Instant) : Prop where
  queued : run.status = .queued → elapsedMs now run.createdAt < definition.queueDelayMs
  done : Done run gate → definition.terminalPoint.ms ≤ elapsedMs (shownAt run now) run.createdAt

theorem startsAt_observedRun (definition : PipelineDefinition) (now : Instant) (run : RunRecord)
    (seen : Observation) :
    startsAt definition (observedRun now run seen) = startsAt definition run
      ∧ terminalAt definition (observedRun now run seen) = terminalAt definition run := by
  unfold startsAt terminalAt
  rw [observedRun_createdAt]
  exact ⟨rfl, rfl⟩

/-- What is observed makes a life. -/
theorem Observed.life {elapsedMs : Nat} {seen : Observation}
    (h : Observed definition gate.isSome run elapsedMs seen) (hcancelled : run.cancelledAt = none)
    (hgate : ∀ g, gate = some g → g.status = .evaluating) (now : Instant) :
    Life definition (observedRun now run seen)
      (gate.map (observedGate now (terminalAt definition run) seen)) := by
  obtain ⟨hstarts, hterminal⟩ := startsAt_observedRun definition now run seen
  have hcancelled' : (observedRun now run seen).cancelledAt = none := by
    rw [observedRun_cancelledAt]
    exact hcancelled
  have hstatus := observedRun_status now run seen
  have hstartedAt := observedRun_startedAt now run seen
  have hfinishedAt := observedRun_finishedAt now run seen
  have hgates : ∀ g', gate.map (observedGate now (terminalAt definition run) seen) = some g' →
      ∃ g, gate = some g ∧ g.status = .evaluating
        ∧ g' = observedGate now (terminalAt definition run) seen g := by
    intro g' hg'
    obtain ⟨g, hg, rfl⟩ := Option.map_eq_some_iff.mp hg'
    exact ⟨g, hg, hgate g hg, rfl⟩
  generalize hrun : observedRun now run seen = current at *
  cases h with
  | queued helapsed =>
    refine .queued hstatus hstartedAt hfinishedAt hcancelled' fun g' hg' => ?_
    obtain ⟨g, -, heval, rfl⟩ := hgates g' hg'
    exact observedGate_status heval
  | running =>
    refine .running hstatus (by rw [hstartedAt, hstarts]) hfinishedAt hcancelled' fun g' hg' => ?_
    obtain ⟨g, -, heval, rfl⟩ := hgates g' hg'
    exact observedGate_status heval
  | reached helapsed hgated hsucceeds =>
    obtain ⟨g, rfl⟩ := Option.isSome_iff_exists.mp hgated
    refine .waiting (PipelineDefinition.firstFailure_of_succeeded hsucceeds) hstatus
      (by rw [hstartedAt, hstarts]) hfinishedAt hcancelled' rfl
      (observedGate_status (hgate g rfl)) ?_
    rw [hterminal]
    unfold observedGate
    rw [if_pos ⟨hgate g rfl, rfl⟩]
  | ended helapsed hopen =>
    refine .ended hstatus (by rw [hstartedAt, hstarts]) (by rw [hfinishedAt, hterminal])
      hcancelled' fun g' hg' => ?_
    obtain ⟨g, rfl, heval, rfl⟩ := hgates g' hg'
    have hfailed : definition.terminalPoint.status = .failed := by
      rcases terminalPoint_status definition with hfailed | hsucceeded
      · exact hfailed
      · exact absurd ⟨rfl, hsucceeded⟩ hopen
    rw [observedGate_status heval]
    simp [hfailed]

/-- A run that goes on is observed. -/
theorem refreshed_going {setup : Setup}
    (hstatus : run.status = .queued
      ∨ run.status = .running ∧ run.startedAt = some (startsAt definition run))
    (hcancelled : run.cancelledAt = none)
    (hgate : ∀ g, gate = some g → g.status = .evaluating) :
    refreshed setup definition now run gate
      = (observedRun now run
          (observe definition gate.isSome run (setup.elapsedMs now run.createdAt)),
        gate.map (observedGate now (terminalAt definition run)
          (observe definition gate.isSome run (setup.elapsedMs now run.createdAt)))) := by
  have hidle : ¬ gate.any (·.status = .waitingApproval) = true := by
    cases gate with
    | none => simp
    | some g => simp [hgate g rfl]
  have hactive : ¬ run.status.isTerminal := by
    rcases hstatus with hs | ⟨hs, -⟩
    · rw [hs]
      decide
    · rw [hs]
      decide
  unfold refreshed
  rw [if_neg (by simp [hcancelled, hactive]), if_neg hidle]
  rfl

theorem terminalAt_le (hregular : definition.Regular)
    (h : definition.terminalPoint.ms ≤ elapsedMs now run.createdAt) :
    terminalAt definition run ≤ now :=
  le_of_le_elapsedMs hregular.terminal_le.1 hregular.terminal_le.2 h

/-- A gate is made to wait by an observation that reaches it. -/
theorem gateReached_of_waiting {terminalAt : Instant} {seen : Observation} {g : QualityGateRecord}
    (hgate : ∀ g, gate = some g → g.status = .evaluating)
    (h : gate.map (observedGate now terminalAt seen) = some g)
    (hwaiting : g.status = .waitingApproval) :
    seen.gateReached = true ∧ g.reachedAt = some terminalAt := by
  obtain ⟨old, hold, rfl⟩ := Option.map_eq_some_iff.mp h
  have hevaluating := hgate old hold
  by_cases hreached : seen.gateReached = true
  · refine ⟨hreached, ?_⟩
    unfold observedGate
    rw [if_pos ⟨hevaluating, hreached⟩]
  · rw [observedGate_status hevaluating, if_neg hreached] at hwaiting
    split at hwaiting
    · cases hwaiting
    · cases hwaiting

/-- What has just been observed is as far as the clock is. -/
theorem Observed.seen {seen : Observation} (hregular : definition.Regular)
    (h : Observed definition gate.isSome run (elapsedMs now run.createdAt) seen)
    (hgate : ∀ g, gate = some g → g.status = .evaluating) :
    Seen definition (observedRun now run seen)
      (gate.map (observedGate now (terminalAt definition run) seen)) now := by
  constructor
  · intro hqueued
    rw [observedRun_createdAt]
    rw [observedRun_status] at hqueued
    cases h with
    | queued helapsed => exact helapsed
    | running | reached => cases hqueued
    | ended =>
      have hqueued : definition.terminalPoint.status = .queued := hqueued
      rcases terminalPoint_status definition with hs | hs <;> simp [hqueued] at hs
  · intro hdone
    unfold Done at hdone
    unfold shownAt
    rw [observedRun_status] at hdone
    rw [observedRun_createdAt, observedRun_finishedAt, observedRun_startedAt]
    cases h with
    | queued | running =>
      rcases hdone with hs | hs | ⟨g', hg', hwaiting⟩
      · cases hs
      · cases hs
      · cases (gateReached_of_waiting hgate hg' hwaiting).1
    | reached helapsed =>
      have hle := Int.le_trans (startsAt_le_terminalAt definition run)
        (terminalAt_le hregular helapsed)
      have hnow : max now (startsAt definition run) = now := max_eq_left hle
      exact hnow.symm ▸ helapsed
    | ended helapsed =>
      have hnow : max now (terminalAt definition run) = now :=
        max_eq_left (terminalAt_le hregular helapsed)
      exact hnow.symm ▸ helapsed

theorem pausedRun_fields (now : Instant) (current : RunRecord) :
    (pausedRun now current).createdAt = current.createdAt
      ∧ (pausedRun now current).startedAt = current.startedAt
      ∧ (pausedRun now current).cancelledAt = current.cancelledAt
      ∧ (current.finishedAt = none → (pausedRun now current).finishedAt = none) := by
  unfold pausedRun
  split
  · exact ⟨rfl, rfl, rfl, fun _ => rfl⟩
  · exact ⟨rfl, rfl, rfl, id⟩

/-- A run that waits is paused. -/
theorem refreshed_paused {setup : Setup} {g : QualityGateRecord} (hstatus : run.status = .running)
    (hcancelled : run.cancelledAt = none) (hgate : gate = some g)
    (hwaiting : g.status = .waitingApproval) :
    refreshed setup definition now run gate = (pausedRun now run, gate) := by
  have hactive : ¬ (run.cancelledAt.isSome ∨ run.status.isTerminal) := by
    rw [hcancelled, hstatus]
    decide
  unfold refreshed
  rw [if_neg hactive, if_pos (by simp [hgate, hwaiting])]

namespace Life

/-- What a waiting gate says of its run. -/
theorem of_waiting {g : QualityGateRecord} (h : Life definition run gate) (hgate : gate = some g)
    (hwaiting : g.status = .waitingApproval) :
    definition.firstFailure = none ∧ run.status = .running
      ∧ run.startedAt = some (startsAt definition run) ∧ run.finishedAt = none
      ∧ run.cancelledAt = none
      ∧ g.reachedAt = some (terminalAt definition run) := by
  cases h with
  | queued _ _ _ _ hother | running _ _ _ _ hother | ended _ _ _ _ hother
  | cancelled _ _ _ _ hother => simp [hother g hgate] at hwaiting
  | waiting hpasses hstatus hstarted hfinished hcancelled hg hwaits hreached =>
    obtain rfl := Option.some.inj (hgate.symm.trans hg)
    exact ⟨hpasses, hstatus, hstarted, hfinished, hcancelled, hreached⟩
  | decided _ hstatus _ _ _ _ hg =>
    obtain rfl := Option.some.inj (hgate.symm.trans hg)
    rcases hstatus with ⟨-, hs⟩ | ⟨-, hs⟩ <;> simp [hs] at hwaiting

/-- Without a decision or a cancellation the life goes on. -/
theorem refreshed (setup : Setup) (h : Life definition run gate) (now : Instant) :
    Life definition (CiLab.refreshed setup definition now run gate).1
      (CiLab.refreshed setup definition now run gate).2 := by
  rcases h.going with ⟨hstatus, hcancelled, hgate⟩
    | ⟨hstatus, -, hcancelled, g, hgate, hwaiting, -⟩ | hterminal
  · rw [refreshed_going hstatus hcancelled hgate]
    exact (observe_observed _ _ hstatus).life hcancelled hgate now
  · obtain ⟨hpasses, -, hstarted, hfinished, -, hreached⟩ := h.of_waiting hgate hwaiting
    obtain ⟨hcreatedAt, hstartedAt, hcancelledAt, hfinishedAt⟩ := pausedRun_fields now run
    rw [refreshed_paused hstatus hcancelled hgate hwaiting]
    refine .waiting hpasses (pausedRun_status now run) ?_ (hfinishedAt hfinished)
      (hcancelledAt.trans hcancelled) hgate hwaiting ?_
    · rw [hstartedAt, hstarted, startsAt, startsAt, hcreatedAt]
    · rw [hreached, terminalAt, terminalAt, hcreatedAt]
  · rw [refreshed_terminal hterminal]
    exact h

/-- A run that is stored as done has to be looked at from where it is done. -/
theorem seen {isoformat : Instant → String} {uuid : Uuid → String} (h : Life definition run gate)
    (hregular : definition.Regular)
    (hdone : Done run gate →
      definition.terminalPoint.ms ≤ elapsedMs (shownAt run now) run.createdAt) :
    Seen definition (CiLab.refreshed (clockSetup isoformat uuid) definition now run gate).1
      (CiLab.refreshed (clockSetup isoformat uuid) definition now run gate).2 now := by
  rcases h.going with ⟨hstatus, hcancelled, hgate⟩
    | ⟨hstatus, hfinished, hcancelled, g, hgate, hwaiting, -⟩ | hterminal
  · rw [refreshed_going hstatus hcancelled hgate]
    exact (observe_observed _ _ hstatus).seen hregular hgate
  · rw [refreshed_paused hstatus hcancelled hgate hwaiting]
    obtain ⟨hcreatedAt, hstartedAt, -, hfinishedAt⟩ := pausedRun_fields now run
    refine ⟨fun hqueued => ?_, fun _ => ?_⟩
    · rw [pausedRun_status] at hqueued
      cases hqueued
    · have hsame : shownAt (pausedRun now run) now = shownAt run now := by
        unfold shownAt
        rw [hstartedAt, hfinishedAt hfinished, hfinished]
      rw [hsame, hcreatedAt]
      exact hdone (.inr (.inr ⟨g, hgate, hwaiting⟩))
  · rw [refreshed_terminal hterminal]
    refine ⟨fun hqueued => ?_, hdone⟩
    rw [hqueued] at hterminal
    exact absurd hterminal (by decide)

end Life

/-! ## Cancellations and decisions -/

theorem le_cancelInstant (gate : Option QualityGateRecord) (now : Instant) :
    now ≤ cancelInstant gate now := Int.le_max_left _ _

theorem reached_le_cancelInstant {g : QualityGateRecord} {reachedAt : Instant}
    (hgate : gate = some g) (hreached : g.reachedAt = some reachedAt) (now : Instant) :
    reachedAt ≤ cancelInstant gate now := by
  unfold cancelInstant
  rw [hgate, Option.bind_some, hreached]
  exact Int.le_max_right _ _

/-- A gate that was just made to wait is decided now. -/
theorem Observed.decide_seen {seen : Observation} {g : QualityGateRecord}
    (hregular : definition.Regular)
    (h : Observed definition gate.isSome run (elapsedMs now run.createdAt) seen)
    (hgate : ∀ g, gate = some g → g.status = .evaluating)
    (hg : gate.map (observedGate now (terminalAt definition run) seen) = some g)
    (hwaiting : g.status = .waitingApproval) :
    definition.terminalPoint.ms
      ≤ elapsedMs (cancelInstant (some g) now) (observedRun now run seen).createdAt := by
  obtain ⟨hreached, hreachedAt⟩ := gateReached_of_waiting hgate hg hwaiting
  rw [observedRun_createdAt]
  cases h with
  | queued | running | ended => cases hreached
  | reached helapsed =>
    have hnow : cancelInstant (some g) now = now := by
      unfold cancelInstant
      rw [Option.bind_some, hreachedAt]
      exact max_eq_left (terminalAt_le hregular helapsed)
    rw [hnow]
    exact helapsed

/-- What has been observed running has started by now, unless it ran before. -/
theorem Observed.started_le {seen : Observation} (hregular : definition.Regular)
    (h : Observed definition gate.isSome run (elapsedMs now run.createdAt) seen)
    (hclock : run.status = .running → startsAt definition run ≤ now)
    (hrunning : seen.status = .running) : startsAt definition run ≤ now := by
  cases h with
  | queued => cases hrunning
  | running hstarted =>
    rcases hstarted with hpassed | hran
    · have hle := hregular.terminal_le.2
      have hdelay := definition.queueDelay_le_terminal
      exact le_of_le_elapsedMs hregular.delayed (by omega) hpassed
    · exact hclock hran
  | reached helapsed =>
    exact Int.le_trans (startsAt_le_terminalAt definition run) (terminalAt_le hregular helapsed)
  | ended =>
    have hrunning : definition.terminalPoint.status = .running := hrunning
    rcases terminalPoint_status definition with hs | hs <;> simp [hrunning] at hs

namespace Life

variable {g : QualityGateRecord}

/-- A cancellation of a running run comes after its start, if the clock does. -/
theorem started_le (isoformat : Instant → String) (uuid : Uuid → String)
    (h : Life definition run gate) (hregular : definition.Regular)
    (hclock : run.status = .running → (∀ g, gate = some g → g.status ≠ .waitingApproval) →
      ∀ start, run.startedAt = some start → start ≤ now)
    (hrunning : (CiLab.refreshed (clockSetup isoformat uuid) definition now run gate).1.status
      = .running) :
    startsAt definition run ≤ cancelInstant
      (CiLab.refreshed (clockSetup isoformat uuid) definition now run gate).2 now := by
  rcases h.going with ⟨hstatus, hcancelled, hgate⟩
    | ⟨hstatus, -, hcancelled, g, hgate, hwaiting, hreached⟩ | hterminal
  · rw [refreshed_going hstatus hcancelled hgate] at hrunning ⊢
    rw [observedRun_status] at hrunning
    refine Int.le_trans ?_ (le_cancelInstant _ now)
    refine (observe_observed _ _ hstatus).started_le hregular (fun hran => ?_) hrunning
    rcases hstatus with hqueued | ⟨-, hstarted⟩
    · simp [hqueued] at hran
    · exact hclock hran (fun g hg => by simp [hgate g hg]) _ hstarted
  · rw [refreshed_paused hstatus hcancelled hgate hwaiting]
    exact Int.le_trans (startsAt_le_terminalAt definition run)
      (reached_le_cancelInstant hgate hreached now)
  · rw [refreshed_terminal hterminal] at hrunning
    rw [hrunning] at hterminal
    exact absurd hterminal (by decide)

/-- A run that is cancelled no earlier than it started. -/
theorem cancel {cancelledAt : Instant} (h : Life definition run gate)
    (hactive : ¬ run.status.isTerminal)
    (hstarted : run.status = .running → startsAt definition run ≤ cancelledAt) :
    Life definition (cancelledRun definition cancelledAt run)
      (gate.map (cancelledGate cancelledAt)) := by
  refine .cancelled rfl (fun start hstart => ?_) rfl rfl fun g' hg' => ?_
  · have hstart : (run.startedAt.orElse fun _ => if startsAt definition run ≤ cancelledAt
        then some (startsAt definition run) else none) = some start := hstart
    have hsome : ∀ started, run.startedAt = some started →
        run.status = .running ∧ started = startsAt definition run := by
      intro started hs
      cases h with
      | queued _ hnone =>
        rw [hnone] at hs
        cases hs
      | running hstatus hsome | waiting _ hstatus hsome =>
        exact ⟨hstatus, Option.some.inj (hs.symm.trans hsome)⟩
      | ended hstatus =>
        rcases terminalPoint_status definition with hs | hs
        · exact absurd (.inr (.inl (hstatus.trans hs))) hactive
        · exact absurd (.inl (hstatus.trans hs)) hactive
      | decided _ hstatus =>
        rcases hstatus with ⟨hs, -⟩ | ⟨hs, -⟩
        · exact absurd (.inl hs) hactive
        · exact absurd (.inr (.inl hs)) hactive
      | cancelled hstatus => exact absurd (.inr (.inr hstatus)) hactive
    cases hrow : run.startedAt with
    | some started =>
      obtain ⟨hrunning, rfl⟩ := hsome started hrow
      rw [hrow] at hstart
      obtain rfl := Option.some.inj hstart
      exact hstarted hrunning
    | none =>
      rw [hrow] at hstart
      have hstart : (if startsAt definition run ≤ cancelledAt
        then some (startsAt definition run) else none) = some start := hstart
      split at hstart
      · next hle =>
        obtain rfl := Option.some.inj hstart
        exact hle
      · cases hstart
  · obtain ⟨g, -, rfl⟩ := Option.map_eq_some_iff.mp hg'
    rfl

theorem decide (h : Life definition run gate) (hgate : gate = some g)
    (hwaiting : g.status = .waitingApproval) (decision : GateDecision) (now : Instant) :
    Life definition (decidedRun decision (cancelInstant gate now) run)
      (some (decidedGate decision (cancelInstant gate now) g)) := by
  obtain ⟨hpasses, -, hstarted, -, hcancelled, hreached⟩ := h.of_waiting hgate hwaiting
  refine .decided hpasses ?_ hstarted rfl (reached_le_cancelInstant hgate hreached now)
    hcancelled rfl
  cases decision with
  | approve => exact .inl ⟨rfl, rfl⟩
  | reject => exact .inr ⟨rfl, rfl⟩

/-- A decision is made from where the gate was reached, if the clock is as far. -/
theorem decide_seen (isoformat : Instant → String) (uuid : Uuid → String)
    (h : Life definition run gate) (hregular : definition.Regular)
    (hclock : (∃ g, gate = some g ∧ g.status = .waitingApproval) →
      definition.terminalPoint.ms ≤ elapsedMs (cancelInstant gate now) run.createdAt)
    (hgate : (CiLab.refreshed (clockSetup isoformat uuid) definition now run gate).2 = some g)
    (hwaiting : g.status = .waitingApproval) :
    definition.terminalPoint.ms
      ≤ elapsedMs (cancelInstant
          (CiLab.refreshed (clockSetup isoformat uuid) definition now run gate).2 now)
        (CiLab.refreshed (clockSetup isoformat uuid) definition now run gate).1.createdAt := by
  rcases h.going with ⟨hstatus, hcancelled, hevaluating⟩
    | ⟨hstatus, -, hcancelled, old, hold, hwaits, -⟩ | hterminal
  · rw [hgate]
    rw [refreshed_going hstatus hcancelled hevaluating] at hgate ⊢
    exact (observe_observed _ _ hstatus).decide_seen hregular hevaluating hgate hwaiting
  · rw [refreshed_paused hstatus hcancelled hold hwaits, (pausedRun_fields now run).1]
    exact hclock ⟨old, hold, hwaits⟩
  · rw [refreshed_terminal hterminal] at hgate ⊢
    exact hclock ⟨g, hgate, hwaiting⟩

end Life

end CiLabStore

end QaPlatform.CiLab
