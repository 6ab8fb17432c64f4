import QaPlatform.Services.Calls

/-!
# A transition that fails between its writes

The plan is written first. What a transition leaves depends on which of its two writes
took effect, and a failure between them leaves the plan ahead of its execution.

`transition_outcomes` goes through the four outcomes of the two writes. When the second one
raises, the plan has the status of the transition and the execution may not; `cancel_joins` says
that the two can be brought together again by a cancellation.
-/

namespace QaPlatform.Services

namespace ExecutionService

/-- The status of a plan, if it is there. -/
def storedPlanStatus (s : QaStore) (planId : Uuid) : Option TestPlanStatus :=
  (s.testPlans.get? planId).map (·.status)

/-- The status of an execution, if it is there. -/
def storedStatus (s : QaStore) (executionId : Uuid) : Option ExecutionStatus :=
  (s.executions.get? executionId).map (·.status)

/-- Both have the status of a transition. -/
def BothMoved (s : QaStore) (executionId planId : Uuid) (target : ExecutionStatus) : Prop :=
  storedPlanStatus s planId = some (planStatus target) ∧ storedStatus s executionId = some target

/-- The store between the two writes. -/
def planMoved (c : Context) (s : QaStore) (target : ExecutionStatus) (plan : TestPlan) : QaStore :=
  { s with
    testPlans := s.testPlans.put (TestPlanService.withStatus c.now (planStatus target) plan) }

/-- The store when both the plan and the execution have been written. -/
def bothMoved (c : Context) (s : QaStore) (target : ExecutionStatus) (execution : TestExecution)
    (plan : TestPlan) : QaStore :=
  { planMoved c s target plan with
    executions := s.executions.put (withStatus c.now target execution) }

section
variable {c : Context} {s : QaStore} {executionId : Uuid} {execution : TestExecution}
  {plan : TestPlan} {target : ExecutionStatus}

theorem checkTransition_ne_created {u : Unit} (h : checkTransition s execution target = .ok u) :
    target ≠ .created := by
  rintro rfl
  cases h

theorem withStatus_status (now : Instant) (h : target ≠ .created) :
    (withStatus now target execution).status = target := by
  cases target with
  | created => exact absurd rfl h
  | running => rfl
  | completed => rfl
  | cancelled => rfl

theorem withStatus_id (now : Instant) : (withStatus now target execution).id = execution.id := by
  cases target <;> rfl

theorem plan_moved (h : s.testPlans.get? execution.planId = some plan) :
    storedPlanStatus (planMoved c s target plan) execution.planId = some (planStatus target) := by
  have hid : plan.id = execution.planId := Table.key_of_get? h
  show ((s.testPlans.put (TestPlanService.withStatus _ _ plan)).get? _).map _ = _
  rw [Table.get?_put_self h (r := TestPlanService.withStatus c.now (planStatus target) plan) hid]
  rfl

theorem both_moved (hget : s.executions.get? executionId = some execution)
    (hplan : s.testPlans.get? execution.planId = some plan) (htarget : target ≠ .created) :
    BothMoved (bothMoved c s target execution plan) executionId execution.planId target := by
  refine ⟨plan_moved hplan, ?_⟩
  have hid : execution.id = executionId := Table.key_of_get? hget
  show ((s.executions.put _).get? _).map _ = _
  rw [Table.get?_put_self hget ((withStatus_id c.now).trans hid)]
  exact congrArg some (withStatus_status c.now htarget)

/-- Nothing is to be done when the execution has the status. -/
theorem prepareTransition_none
    (h : prepareTransition s executionId target = .ok (execution, none)) :
    storedStatus s executionId = some target := by
  obtain ⟨found, hget, h⟩ := bind_eq_ok.mp h
  split at h
  · next hsame =>
    unfold storedStatus
    rw [demand_eq_ok.mp hget, ← hsame]
    rfl
  · obtain ⟨_, -, h⟩ := bind_eq_ok.mp h
    obtain ⟨_, -, h⟩ := bind_eq_ok.mp h
    cases (Prod.mk.inj (pure_eq_ok.mp h)).2

end

/-- What a transition leaves, by which of its writes took effect. -/
theorem transition_outcomes (c : Context) (s : QaStore) (executionId : Uuid)
    (target : ExecutionStatus) (planWrite executionWrite : WriteOutcome) :
    let r := transition c s executionId target planWrite executionWrite
    (∀ error, r.2 = .error error → error ≠ .storage ∨ planWrite = .raisedBefore → r.1 = s)
    ∧ (r.2 = .error .storage → planWrite ≠ .raisedBefore →
        ∃ execution, s.executions.get? executionId = some execution ∧ execution.status ≠ target
          ∧ (planWrite = .done ∧ executionWrite = .raisedAfter →
              BothMoved r.1 executionId execution.planId target)
          ∧ (¬ (planWrite = .done ∧ executionWrite = .raisedAfter) →
              storedPlanStatus r.1 execution.planId = some (planStatus target)
              ∧ r.1.executions = s.executions))
    ∧ ∀ updated, r.2 = .ok updated →
        (r.1 = s ∧ storedStatus s executionId = some target)
        ∨ planWrite = .done ∧ executionWrite = .done
          ∧ ∃ execution, s.executions.get? executionId = some execution
            ∧ execution.status ≠ target
            ∧ BothMoved r.1 executionId execution.planId target := by
  intro r
  -- an error of the storage after a write is no error of the first kind
  have not_storage : ∀ {write : WriteOutcome} {error : ServiceError},
      (.error .storage : Except ServiceError TestExecution) = .error error →
      write ≠ .raisedBefore → ¬ (error ≠ .storage ∨ write = .raisedBefore) := by
    intro write error h hwrite hne
    obtain rfl := Except.error.inj h
    exact hne.elim (fun h => h rfl) hwrite
  cases hprepare : prepareTransition s executionId target with
  | error e =>
    have hr : r = (s, .error (.domain e)) := by
      show transition c s executionId target planWrite executionWrite = _
      unfold transition
      rw [hprepare]
    rw [hr]
    exact ⟨fun _ _ _ => rfl, fun h _ => (nomatch h), fun _ h => (nomatch h)⟩
  | ok result =>
    obtain ⟨execution, plan⟩ := result
    cases plan with
    | none =>
      have hr : r = (s, .ok execution) := by
        show transition c s executionId target planWrite executionWrite = _
        unfold transition
        rw [hprepare]
      rw [hr]
      exact ⟨fun _ _ _ => rfl, fun h _ => (nomatch h),
        fun _ _ => .inl ⟨rfl, prepareTransition_none hprepare⟩⟩
    | some plan =>
      obtain ⟨hget, hother, hplan, u, hcheck⟩ := prepareTransition_ok hprepare
      have htarget := checkTransition_ne_created hcheck
      have hplanned : storedPlanStatus (planMoved c s target plan) execution.planId
          = some (planStatus target) := plan_moved hplan
      have hmoved := both_moved (c := c) hget hplan htarget
      have hr : r = transition c s executionId target planWrite executionWrite := rfl
      unfold transition at hr
      rw [hprepare] at hr
      cases planWrite with
      | raisedBefore =>
        rw [hr]
        exact ⟨fun _ _ _ => rfl, fun _ h => absurd rfl h, fun _ h => (nomatch h)⟩
      -- the plan is written although the call has raised, and the execution is not come to
      | raisedAfter =>
        rw [hr]
        refine ⟨fun error h hne => ?_, fun _ _ => ⟨execution, hget, hother, fun h => (nomatch h.1),
          fun _ => ⟨hplanned, rfl⟩⟩, fun _ h => (nomatch h)⟩
        exact absurd hne (not_storage h (by decide))
      | done =>
        cases executionWrite with
        | raisedBefore =>
          rw [hr]
          refine ⟨fun error h hne => ?_,
            fun _ _ => ⟨execution, hget, hother, fun h => (nomatch h.2),
            fun _ => ⟨hplanned, rfl⟩⟩, fun _ h => (nomatch h)⟩
          exact absurd hne (not_storage h (by decide))
        -- both are written, and the caller is told of an error
        | raisedAfter =>
          rw [hr]
          refine ⟨fun error h hne => ?_, fun _ _ => ⟨execution, hget, hother, fun _ => hmoved,
            fun h => absurd ⟨rfl, rfl⟩ h⟩, fun _ h => (nomatch h)⟩
          exact absurd hne (not_storage h (by decide))
        | done =>
          rw [hr]
          exact ⟨fun _ h => (nomatch h), fun h => (nomatch h),
            fun _ _ => .inr ⟨rfl, rfl, execution, hget, hother, hmoved⟩⟩

/-- Cancelling brings a plan and an execution together again, whatever a transition that failed
has made of the plan. -/
theorem cancel_joins (c : Context) (s : QaStore) (executionId : Uuid) (execution : TestExecution)
    (plan : TestPlan) (hget : s.executions.get? executionId = some execution)
    (hactive : execution.status.IsActive) (hplan : s.testPlans.get? execution.planId = some plan) :
    BothMoved (transition c s executionId .cancelled .done .done).1 executionId execution.planId
      .cancelled := by
  have hother : execution.status ≠ .cancelled := by
    rcases hactive with h | h
    · rw [h]
      decide
    · rw [h]
      decide
  have hcheck : checkTransition s execution .cancelled = .ok ⟨⟩ :=
    refuse_eq_ok.mpr fun h => hactive.elim h.1 h.2
  have hprepare : prepareTransition s executionId .cancelled = .ok (execution, some plan) := by
    refine bind_eq_ok.mpr ⟨execution, demand_eq_ok.mpr hget, ?_⟩
    rw [if_neg hother]
    refine bind_eq_ok.mpr ⟨⟨⟩, hcheck, ?_⟩
    exact bind_eq_ok.mpr ⟨plan, demand_eq_ok.mpr hplan, rfl⟩
  unfold transition
  rw [hprepare]
  exact both_moved hget hplan (by decide)

/-! ## A failure between the writes -/

/-- Texts whose case nothing changes. -/
def plainCasing : Casing := ⟨id, id, id, fun _ _ => rfl⟩

/-- Texts that are of no interest. -/
def plainTexts : Texts := ⟨fun _ => "", fun _ => ""⟩

/-- A plan of one case, ready, and its execution. -/
def readyPlan : List QaEvent :=
  let zero : UuidText := ⟨"0", some 0⟩
  [.createProject ⟨"DEMO", "demo", ""⟩,
    .createCase ⟨zero, none, "login", "", [⟨"open", "shown"⟩], .p1, .manual, []⟩,
    .transitionCase 0 .active, .createPlan ⟨zero, "smoke", "", [zero]⟩, .transitionPlan 0 .ready,
    .createExecution zero].map (⟨none, 0, ·⟩)

/-- A start whose second write fails leaves a running plan and a created execution. -/
theorem half_done : ¬ ∀ (casing : Casing) (texts : Texts) (es : List QaEvent)
    (currentActor : Option ActorIdentity) (now : Instant) (executionId : Uuid)
    (target : ExecutionStatus) (planWrite executionWrite : WriteOutcome),
    let s := Transition.run (QaStore.step casing texts) .empty es
    let r := transition ⟨casing, texts, currentActor, now⟩ s executionId target planWrite
      executionWrite
    ∀ execution, s.executions.get? executionId = some execution →
      ((∃ error, r.2 = .error error) →
        storedPlanStatus r.1 execution.planId = storedPlanStatus s execution.planId
        ∧ storedStatus r.1 executionId = storedStatus s executionId)
      ∧ ((∃ updated, r.2 = .ok updated) → BothMoved r.1 executionId execution.planId target) := by
  intro h
  have hstart := (h plainCasing plainTexts readyPlan none 1 0 .running .done .raisedBefore
    ⟨0, 0, 0, .created, [⟨0, "login", .notRun, "", "", none⟩], 0, 0, none, none⟩
    (by decide +kernel)).1 ⟨.storage, by decide +kernel⟩
  exact absurd hstart.1 (by decide +kernel)

end ExecutionService

end QaPlatform.Services
