import QaPlatform.Runtime.ProviderCoherence

/-!
# The quality gate

Whether a gated run can succeed without an approval. The guards of both snapshot
functions protect a gate that waits for its decision; while the gate is still
evaluating nothing protects it, and a decision to reject is recorded whatever
the provider answers. `OpensGate` says exactly which moves get past the gate.

`move_succeeded_iff` is the step lemma: the moves after which a run has succeeded without an
approval are those that open the gate. `KeepsGate` is its counterpart for events, which are not
about one run's rows alone; a webhook that the receiver refuses keeps the gate, whatever it
says. The run theorem is the induction over the events from the one that has created the run.
-/

namespace QaPlatform.Runtime

open Pipeline

namespace RunGraph

variable {g : RunGraph} {mv : Move}

/-- The run has a recorded approval. -/
def Approved (g : RunGraph) : Prop :=
  g.approval.any (·.decision = .approve)

instance (g : RunGraph) : Decidable g.Approved := by
  unfold Approved
  infer_instance

theorem approved_iff : g.Approved ↔ ∃ a, g.approval = some a ∧ a.decision = .approve := by
  unfold Approved
  cases g.approval with
  | none => simp
  | some a => simp

/-- The move reports success on a run that has not ended and has no approval, and
no guard stops it. -/
def OpensGate (g : RunGraph) (mv : Move) : Prop :=
  ¬ g.Approved ∧ ¬ g.run.status.Terminal ∧ match mv with
    | .webhook payload _ =>
      payload.status = .succeeded ∧ g.run.qualityGateStatus ≠ .waitingApproval
        ∧ ¬ g.run.externalId.any (· ≠ payload.externalId)
        ∧ g.run.correlationId = payload.correlationId
        ∧ payload.sequence = g.run.lastProviderSequence + 1
        ∧ ¬ g.run.lastProviderOccurredAt.any (payload.occurredAt < ·)
    | .finalize leaseToken run _ =>
      run.status = .succeeded ∧ g.run.qualityGateStatus ≠ .waitingApproval
        ∧ g.intent.status = .claimed ∧ g.intent.leaseTokenHash = some (tokenHash leaseToken)
        ∧ ¬ WebhookSnapshotIsNewer g.run run ∧ ¬ ExternalIdentityConflicts g.run run
    | .commitRefresh expectedVersion run _ =>
      run.status = .succeeded ∧ g.run.qualityGateStatus ≠ .waitingApproval
        ∧ g.run.version = expectedVersion
    | .commitDecision payload _ expectedVersion run _ =>
      run.status = .succeeded ∧ payload.decision = .reject ∧ g.approval = none
        ∧ g.run.version = expectedVersion
    | .claim .. | .settleFailure .. | .cancelBeforeDispatch .. => False

instance (g : RunGraph) (mv : Move) : Decidable (g.OpensGate mv) := by
  unfold OpensGate
  cases mv <;> infer_instance

end RunGraph

namespace ProviderRunRecord

variable {record : ProviderRunRecord} {run : ProviderRun} {source : SnapshotSource}

/-- A snapshot makes a run succeed exactly when it says so and no guard stops it. -/
theorem applyProviderRunSnapshot_succeeded (record : ProviderRunRecord) (run : ProviderRun)
    (source : SnapshotSource) (h : record.status ≠ .succeeded) (now : Instant) :
    (record.applyProviderRunSnapshot run source now).status = .succeeded
      ↔ ¬ record.GateGuard run source ∧ ¬ record.status.Terminal ∧ run.status = .succeeded := by
  rcases record.applyProviderRunSnapshot_cases run source now with
    ⟨hguard, he | he⟩ | ⟨-, hterm, -, he⟩ | ⟨hguard, hterm, he⟩
  · rw [he]
    exact ⟨fun hs => absurd hs h, fun hs => absurd hguard hs.1⟩
  · rw [he]
    exact ⟨fun hs => absurd hs h, fun hs => absurd hguard hs.1⟩
  · rw [he]
    exact ⟨fun hs => absurd hs h, fun hs => absurd hterm hs.2.1⟩
  · rw [he]
    refine ⟨fun hs => ⟨hguard, fun ht => h ((hterm ht).symm.trans hs), hs⟩, fun hs => hs.2.2⟩

/-- A successful snapshot of the CI Lab is stopped exactly by a gate that waits. -/
theorem gateGuard_of_succeeded (hprovider : run.provider = .learningCi)
    (hs : run.status = .succeeded) (hsource : source ≠ .gateDecision) :
    record.GateGuard run source ↔ record.qualityGateStatus = .waitingApproval := by
  refine ⟨fun h => h.2.1, fun h => ⟨hsource, h, fun hraw => ?_, ?_, ?_⟩⟩
  · have hq := (run.waiting hprovider hraw).1
    rw [hs] at hq
    simp at hq
  · simp [hs]
  · simp [hs]

/-- An event makes a run succeed exactly when it is the next one, says so and no
guard stops it. -/
theorem reduceWebhook_succeeded {payload : ProviderWebhookPayload}
    (h : record.status ≠ .succeeded) (now : Instant) :
    (record.reduceWebhook payload now).1.status = .succeeded
      ↔ payload.status = .succeeded ∧ record.qualityGateStatus ≠ .waitingApproval
        ∧ ¬ record.status.Terminal ∧ payload.sequence = record.lastProviderSequence + 1
        ∧ ¬ record.lastProviderOccurredAt.any (payload.occurredAt < ·) := by
  have hrefused (hs : payload.status = .succeeded) (hterm : ¬ record.status.Terminal)
      (hgate : record.qualityGateStatus ≠ .waitingApproval) :
      ¬ record.WebhookRefused payload.status := by
    have hactive : record.status = .queued ∨ record.status = .running := by
      cases hr : record.status with
      | queued => exact .inl rfl
      | running => exact .inr rfl
      | succeeded => exact absurd (by simp [hr, PipelineStatus.Terminal]) hterm
      | failed => exact absurd (by simp [hr, PipelineStatus.Terminal]) hterm
      | cancelled => exact absurd (by simp [hr, PipelineStatus.Terminal]) hterm
    rw [hs]
    rintro (⟨hw, -⟩ | hnot | ⟨-, hq, -⟩)
    · exact hgate hw
    · exact hnot (hactive.imp (fun hq => hq) .inl)
    · simp [nextLocal] at hq
  constructor
  · intro hs
    rcases record.reduceWebhook_cases payload now with he | ⟨-, he⟩ | ⟨hseq, htime, hnot, he⟩
    · rw [he] at hs
      exact absurd hs h
    · rw [he] at hs
      exact absurd hs h
    · rw [he] at hs
      have hstatus : payload.status = .succeeded := by
        have hnext : nextLocal payload.status = .succeeded := hs
        cases hp : payload.status with
        | succeeded => rfl
        | queued => simp [hp, nextLocal] at hnext
        | running => simp [hp, nextLocal] at hnext
        | waitingApproval => simp [hp, nextLocal] at hnext
        | failed => simp [hp, nextLocal] at hnext
        | cancelled => simp [hp, nextLocal] at hnext
      rw [hstatus] at hnot
      refine ⟨hstatus, fun hw => hnot (.inl ⟨hw, by simp⟩), fun hterm => ?_, hseq, htime⟩
      have hallowed : allowed record.status .succeeded :=
        not_not.mp fun hna => hnot (.inr (.inl hna))
      rcases hallowed with hq | hr | hs
      · simp [hq, PipelineStatus.Terminal] at hterm
      · simp [hr, PipelineStatus.Terminal] at hterm
      · exact h hs.symm
  · rintro ⟨hs, hgate, hterm, hseq, htime⟩
    unfold reduceWebhook applyWebhookSnapshot
    rw [if_neg (by omega), if_neg (by simpa using hseq), if_neg htime,
      if_neg (hrefused hs hterm hgate)]
    simp [hs, nextLocal]

end ProviderRunRecord

namespace RunGraph

variable {g : RunGraph} {mv : Move}

/-- The dispatcher's response makes a run succeed exactly when it says so, is not
passed over and is not stopped by a guard. -/
theorem finalizeRun_succeeded {record : ProviderRunRecord} {run : ProviderRun}
    (h : record.status ≠ .succeeded) (now : Instant) :
    (finalizeRun record run now).status = .succeeded
      ↔ ¬ (WebhookSnapshotIsNewer record run ∨ ExternalIdentityConflicts record run)
        ∧ ¬ record.GateGuard run .dispatch ∧ ¬ record.status.Terminal
        ∧ run.status = .succeeded := by
  rcases finalizeRun_cases record run now with ⟨hskip, _, he⟩ | ⟨hskip, he⟩
  · rw [he]
    exact ⟨fun hs => absurd hs h, fun hs => absurd hskip hs.1⟩
  · rw [he]
    have happly := ProviderRunRecord.applyProviderRunSnapshot_succeeded
      { record with dispatchStatus := .dispatched, reconciliationRequired := false } run .dispatch
      h now
    exact ⟨fun hs => ⟨hskip, happly.mp hs⟩, fun hs => happly.mpr hs.2⟩

theorem not_approved_of_none (h : g.approval = none) : ¬ g.Approved := by
  simp [Approved, h]

/-- `OpensGate` is exact: it is met by the moves after which a run has succeeded
without an approval, and by no other. -/
theorem move_succeeded_iff (h : g.run.status ≠ .succeeded)
    (hci : ∀ run, mv.snapshot = some run → run.provider = .learningCi) :
    (g.move mv).run.status = .succeeded ∧ ¬ (g.move mv).Approved ↔ g.OpensGate mv := by
  -- a move that leaves the status alone is on neither side
  have hkeep (hs : (g.move mv).run.status = g.run.status) (hno : ¬ g.OpensGate mv) :
      (g.move mv).run.status = .succeeded ∧ ¬ (g.move mv).Approved ↔ g.OpensGate mv :=
    ⟨fun hboth => absurd (hs.symm.trans hboth.1) h, fun hopen => absurd hopen hno⟩
  cases mv with
  | claim workerId token leaseSeconds now =>
    refine hkeep ?_ (fun hopen => hopen.2.2)
    rw [move_claim]
    split
    · rfl
    · rfl
  | cancelBeforeDispatch now =>
    rw [move_cancelBeforeDispatch]
    refine ⟨fun hboth => ?_, fun hopen => hopen.2.2.elim⟩
    split at hboth
    · simp [cancelBeforeDispatch] at hboth
    · exact absurd hboth.1 h
  | settleFailure token errorCode retryable now =>
    refine ⟨fun hboth => ?_, fun hopen => hopen.2.2.elim⟩
    rcases g.move_settleFailure token errorCode retryable now with he | ⟨-, -, he⟩ | ⟨-, -, he⟩
    · exact absurd (he ▸ hboth.1) h
    · rw [he] at hboth
      exact absurd hboth.1 h
    · rw [he] at hboth
      have hstatus : (if retryable then g.run.status else .failed) = .succeeded := hboth.1
      split at hstatus
      · exact absurd hstatus h
      · simp at hstatus
  | finalize token run now =>
    have hprovider : run.provider = .learningCi := hci run rfl
    rcases g.move_finalize token run now with ⟨he, hlease⟩ | ⟨hclaimed, htoken, he⟩
    · refine hkeep (by rw [he]) fun hopen => hlease ?_
      obtain ⟨-, -, -, -, hclaimed, htoken, -⟩ := hopen
      exact ⟨hclaimed, htoken⟩
    · have happ : (g.move (.finalize token run now)).approval = g.approval := by rw [he]
      unfold Approved OpensGate
      rw [happ, he]
      dsimp only
      rw [finalizeRun_succeeded h]
      constructor
      · rintro ⟨⟨hskip, hguard, hterm, hs⟩, hnot⟩
        rw [ProviderRunRecord.gateGuard_of_succeeded hprovider hs (by simp)] at hguard
        exact ⟨hnot, hterm, hs, hguard, hclaimed, htoken, fun hn => hskip (.inl hn),
          fun hc => hskip (.inr hc)⟩
      · rintro ⟨hnot, hterm, hs, hgate, -, -, hnewer, hconflict⟩
        refine ⟨⟨fun hskip => hskip.elim hnewer hconflict, fun hguard => hgate ?_, hterm, hs⟩, hnot⟩
        exact (ProviderRunRecord.gateGuard_of_succeeded hprovider hs (by simp)).mp hguard
  | commitRefresh expectedVersion run now =>
    have hprovider : run.provider = .learningCi := hci run rfl
    rw [move_commitRefresh]
    by_cases hversion : g.run.version = expectedVersion
    · rw [if_neg (not_not.mpr hversion)]
      unfold Approved OpensGate
      rw [g.run.applyProviderRunSnapshot_succeeded run _ h]
      constructor
      · rintro ⟨⟨hguard, hterm, hs⟩, hnot⟩
        rw [ProviderRunRecord.gateGuard_of_succeeded hprovider hs (by simp)] at hguard
        exact ⟨hnot, hterm, hs, hguard, hversion⟩
      · rintro ⟨hnot, hterm, hs, hgate, -⟩
        refine ⟨⟨fun hguard => hgate ?_, hterm, hs⟩, hnot⟩
        exact (ProviderRunRecord.gateGuard_of_succeeded hprovider hs (by simp)).mp hguard
    · rw [if_pos hversion]
      refine ⟨fun hboth => absurd hboth.1 h, fun hopen => ?_⟩
      obtain ⟨-, -, -, -, hv⟩ := hopen
      exact absurd hv hversion
  | commitDecision payload actor expectedVersion run now =>
    rcases g.move_commitDecision payload actor expectedVersion run now with
      ⟨he, hnot⟩ | ⟨hnone, hversion, approval, -, hdecision, -, he⟩
    · refine hkeep (by rw [he]) fun hopen => hnot ?_
      obtain ⟨-, -, -, -, hnone, hversion⟩ := hopen
      exact ⟨hnone, hversion⟩
    · have happ : (g.move (.commitDecision payload actor expectedVersion run now)).Approved
          ↔ payload.decision = .approve := by
        rw [he, approved_iff, ← hdecision]
        simp
      have hguard : ¬ g.run.GateGuard run .gateDecision := fun hg => hg.1 rfl
      rw [happ, he]
      dsimp only
      rw [g.run.applyProviderRunSnapshot_succeeded run _ h]
      constructor
      · rintro ⟨⟨-, hterm, hs⟩, hreject⟩
        refine ⟨not_approved_of_none hnone, hterm, hs, ?_, hnone, hversion⟩
        cases hd : payload.decision with
        | approve => exact absurd hd hreject
        | reject => rfl
      · rintro ⟨-, hterm, hs, hreject, -⟩
        exact ⟨⟨hguard, hterm, hs⟩, by simp [hreject]⟩
  | webhook payload now =>
    rcases g.move_webhook payload now with ⟨he, hnot⟩ | ⟨hext, hcorr, he⟩
    · refine hkeep (by rw [he]) fun hopen => hnot ?_
      obtain ⟨-, -, -, -, hext, hcorr, -⟩ := hopen
      exact ⟨hext, hcorr⟩
    · have happ : (g.move (.webhook payload now)).approval = g.approval := by rw [he]
      obtain ⟨hstatus, hgate, hseq, htime⟩ := g.run.bindExternal_same payload.externalId now
      have hbound : (g.run.bindExternal payload.externalId now).status ≠ .succeeded := hstatus ▸ h
      unfold Approved OpensGate
      rw [happ, he]
      dsimp only
      rw [ProviderRunRecord.reduceWebhook_succeeded hbound, hstatus, hgate, hseq, htime]
      constructor
      · rintro ⟨⟨hs, hgate, hterm, hnext, hlater⟩, hnot⟩
        exact ⟨hnot, hterm, hs, hgate, hext, hcorr, hnext, hlater⟩
      · rintro ⟨hnot, hterm, hs, hgate, -, -, hnext, hlater⟩
        exact ⟨⟨hs, hgate, hterm, hnext, hlater⟩, hnot⟩

/-- The gate has not been bypassed. -/
def GateHolds (g : RunGraph) : Prop :=
  g.run.status = .succeeded → g.Approved

theorem gateHolds_move (h : g.GateHolds) (hclosed : ¬ g.OpensGate mv)
    (hci : ∀ run, mv.snapshot = some run → run.provider = .learningCi) : (g.move mv).GateHolds := by
  intro hs
  by_cases hold : g.run.status = .succeeded
  · obtain ⟨a, ha, happrove⟩ := approved_iff.mp (h hold)
    exact approved_iff.mpr ⟨a, (g.extends_move mv).approval a ha, happrove⟩
  · exact not_not.mp fun hnot => hclosed ((move_succeeded_iff hold hci).mp ⟨hs, hnot⟩)

end RunGraph

namespace ProviderSystem

variable {safety : RuntimeSafetyConfig} {s : ProviderSystem} {k : Uuid}

/-- The event does not get past the gate of run `k`: a webhook that the receiver refuses does
not. -/
def KeepsGate (safety : RuntimeSafetyConfig) (k : Uuid) (s : ProviderSystem) (e : ProviderEvent) :
    Prop :=
  s.Takes safety e → ∀ m ∈ s.moveOf e, m.1 = k → ∀ g ∈ s.store.graphs.get? k, ¬ g.OpensGate m.2

instance (k : Uuid) (s : ProviderSystem) (e : ProviderEvent) :
    Decidable (KeepsGate safety k s e) := by
  unfold KeepsGate
  infer_instance

theorem KeepsGate.closed {e : ProviderEvent} {mv : RunGraph.Move} {g : RunGraph}
    (h : KeepsGate safety k s e) (htakes : s.Takes safety e) (hmove : s.moveOf e = some (k, mv))
    (hg : s.store.graphs.get? k = some g) : ¬ g.OpensGate mv :=
  h htakes (k, mv) hmove rfl g hg

/-- Run `k` is a run of the CI Lab whose gate has not been bypassed. -/
structure Gated (k : Uuid) (s : ProviderSystem) : Prop where
  coherent : s.Coherent
  kind : KindOf s.store k .learningCi
  holds : ∀ g, s.store.graphs.get? k = some g → g.GateHolds

theorem Gated.step {e : ProviderEvent} (h : Gated k s) (hkeep : KeepsGate safety k s e) :
    Gated k (ProviderSystem.step safety s e) where
  coherent := h.coherent.step e
  kind := h.kind.step e
  holds := by
    intro g' hg'
    rcases step_graph_cases hg' with
      hold | ⟨g, mv, hg, hmove, ⟨htakes, -⟩, rfl⟩ | ⟨_, _, _, _, _, -, -, -, -, rfl⟩
    · exact h.holds g' hold
    · refine RunGraph.gateHolds_move (h.holds g hg) (hkeep.closed htakes hmove hg)
        fun run hrun => ?_
      exact (h.coherent.moveOf_snapshot hmove hrun).unique h.kind
    · intro hs
      simp [ProviderStore.triggeredGraph] at hs

/-- A run that a step has just created with a gate to evaluate is gated. -/
theorem Coherent.gated {e : ProviderEvent} {g : RunGraph} (h : Coherent s)
    (hnone : s.store.graphs.get? k = none)
    (hg : (ProviderSystem.step safety s e).store.graphs.get? k = some g)
    (hgate : g.run.qualityGateStatus = .evaluating) : Gated k (ProviderSystem.step safety s e) := by
  rcases step_graph_cases hg with
    hold | ⟨_, _, hold, -⟩ | ⟨c, request, fingerprint, actor, now, -, hc, -, hsame, rfl⟩
  · simp [hnone] at hold
  · simp [hnone] at hold
  · have hkind : c.kind = .learningCi := by
      have hinitial : ProviderStore.initialGate c = .evaluating := hgate
      unfold ProviderStore.initialGate at hinitial
      split at hinitial
      · next hboth => exact hboth.1
      · simp at hinitial
    refine ⟨h.step e, ⟨_, c, hg, hsame ▸ hc, hkind⟩, fun g' hg' hs => ?_⟩
    obtain rfl := Option.some.inj (hg.symm.trans hg')
    simp [ProviderStore.triggeredGraph] at hs

/-- While no event reports success past the gate of a run, the run succeeds only
with an approval. -/
theorem approved_of_keepsGate (safety : RuntimeSafetyConfig) (before after : List ProviderEvent)
    (trigger : ProviderEvent) (k : Uuid) (g₀ : RunGraph)
    (hnew : (Transition.run (step safety) empty before).store.graphs.get? k = none)
    (hcreated : (Transition.run (step safety) empty (before ++ [trigger])).store.graphs.get? k
      = some g₀)
    (hgate : g₀.run.qualityGateStatus = .evaluating)
    (hkeep : Transition.Along (KeepsGate safety k) (step safety)
      (Transition.run (step safety) empty (before ++ [trigger])) after) :
    ∀ g, (Transition.run (step safety) empty (before ++ [trigger] ++ after)).store.graphs.get? k
        = some g → g.run.status = .succeeded →
      ∃ approval, g.approval = some approval ∧ approval.decision = .approve := by
  intro g hg hs
  rw [Transition.run_append] at hg
  rw [Transition.run_append, Transition.run_cons, Transition.run_nil] at hcreated hkeep hg
  have hstart : Gated k _ := (coherent_run safety before).gated hnew hcreated hgate
  have hend := Transition.invariant_along (I := Gated k) (fun _ _ h hk => h.step hk) hstart hkeep
  exact RunGraph.approved_iff.mp (hend.holds g hg hs)

/-- The lesson's run reaches its gate, is approved and succeeds. -/
def approvedLesson : List ProviderEvent :=
  [.claim "dispatcher" 60 "lease" 2 [], .checkVersion 0,
    .callTrigger 0 (.returned (lessonRun .queued .evaluating 1)) "", .settle 0 3,
    lessonWebhook 2 .waitingApproval 4,
    .prepareDecision 0 0 ⟨"decision", .approve, "ok"⟩ none,
    .commitDecision 0 (lessonRun .succeeded .approved 4) 5]

theorem approved_of_keepsGate_approvedLesson :
    ∃ g, (Transition.run (step lesson) empty ([lessonConnection "local-quality-gate"]
        ++ [lessonTrigger] ++ approvedLesson)).store.graphs.get? 0 = some g
      ∧ g.run.status = .succeeded
      ∧ ∃ approval, g.approval = some approval ∧ approval.decision = .approve := by
  obtain ⟨g₀, hg₀, hgate⟩ : ∃ g, (Transition.run (step lesson) empty
      ([lessonConnection "local-quality-gate"] ++ [lessonTrigger])).store.graphs.get? 0 = some g
      ∧ g.run.qualityGateStatus = .evaluating := exists_graph (by decide +kernel)
  obtain ⟨g, hg, hs⟩ : ∃ g, (Transition.run (step lesson) empty
      ([lessonConnection "local-quality-gate"] ++ [lessonTrigger]
        ++ approvedLesson)).store.graphs.get? 0 = some g
      ∧ g.run.status = .succeeded := exists_graph (by decide +kernel)
  exact ⟨g, hg, hs, approved_of_keepsGate lesson _ approvedLesson _ 0 g₀ (by decide +kernel) hg₀
    hgate (by decide +kernel) g hg hs⟩

/-- The first callback about a gated run says that it has succeeded. -/
theorem not_approved_after_webhook :
    ¬ ∀ (before after : List ProviderEvent) (trigger : ProviderEvent) (k : Uuid) (g₀ g : RunGraph),
      (Transition.run (step lesson) empty before).store.graphs.get? k = none →
      (Transition.run (step lesson) empty (before ++ [trigger])).store.graphs.get? k = some g₀ →
      g₀.run.qualityGateStatus = .evaluating →
      (Transition.run (step lesson) empty (before ++ [trigger] ++ after)).store.graphs.get? k
        = some g → g.run.status = .succeeded →
      ∃ approval, g.approval = some approval ∧ approval.decision = .approve := by
  intro h
  obtain ⟨g₀, hg₀, hgate⟩ : ∃ g, (Transition.run (step lesson) empty
      ([lessonConnection "local-quality-gate"] ++ [lessonTrigger])).store.graphs.get? 0 = some g
      ∧ g.run.qualityGateStatus = .evaluating := exists_graph (by decide +kernel)
  obtain ⟨g, hg, hend⟩ : ∃ g, (Transition.run (step lesson) empty
      ([lessonConnection "local-quality-gate"] ++ [lessonTrigger]
        ++ [lessonWebhook 1 .succeeded 2])).store.graphs.get? 0 = some g
      ∧ (g.run.status, g.approval.isSome) = (.succeeded, false) := exists_graph (by decide +kernel)
  obtain ⟨hs, hnone⟩ := Prod.mk.inj hend
  obtain ⟨approval, happroval, -⟩ := h _ _ _ 0 g₀ g (by decide +kernel) hg₀ hgate hg hs
  simp [happroval] at hnone

end ProviderSystem

end QaPlatform.Runtime
