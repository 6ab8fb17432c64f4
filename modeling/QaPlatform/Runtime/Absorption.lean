import QaPlatform.Runtime.ProviderCoherence

/-!
# Terminal statuses absorb

A run that has ended stays as it ended. Every channel but one asks for the status
first; the settlement of a failed trigger assigns `failed` without a look at it,
and a cancel before dispatch assigns `cancelled`. Both are saved by an invariant:
a run that has ended while its intent is still open has been called back, and
then neither of them writes a status.

`Accounted` is the invariant: it says how the rows of a run account for what has been received
about it. A numbered answer of the CI Lab ends a run only together with a watermark, so a run
that has ended before its trigger was settled has been called back, and the settlement looks for
that. Numbers are to be those that the column of the database holds (`Numbered`); in the
counterexample an answer has a greater one, no watermark is left, and a failed trigger turns a
success into a failure.
-/

namespace QaPlatform.Runtime

open Pipeline

namespace ProviderRunRecord

/-- A snapshot does not move a run that has ended. -/
theorem applyProviderRunSnapshot_terminal {record : ProviderRunRecord}
    (h : record.status.Terminal) (run : ProviderRun) (source : SnapshotSource) (now : Instant) :
    (record.applyProviderRunSnapshot run source now).status = record.status := by
  rcases record.applyProviderRunSnapshot_cases run source now with
    ⟨-, he | he⟩ | ⟨-, -, -, he⟩ | ⟨-, hsame, he⟩
  · rw [he]
  · rw [he]
    rfl
  · rw [he]
    rfl
  · rw [he]
    exact hsame h

/-- An event does not move a run that has ended. -/
theorem reduceWebhook_terminal {record : ProviderRunRecord} (h : record.status.Terminal)
    (payload : ProviderWebhookPayload) (now : Instant) :
    (record.reduceWebhook payload now).1.status = record.status := by
  rcases record.reduceWebhook_cases payload now with he | ⟨-, he⟩ | ⟨-, -, hrefused, he⟩
  · rw [he]
  · rw [he]
    rfl
  · rw [he]
    have hallowed : allowed record.status (nextLocal payload.status) :=
      not_not.mp fun hnot => hrefused (.inr (.inl hnot))
    rcases hallowed with hq | hr | hs
    · simp [hq, PipelineStatus.Terminal] at h
    · simp [hr, PipelineStatus.Terminal] at h
    · exact hs

end ProviderRunRecord

namespace RunGraph

variable {g : RunGraph} {mv : Move} {received received' : Prop}

/-- How the rows of a run account for what has been received about it. -/
structure Accounted (received : Prop) (g : RunGraph) : Prop where
  /-- Until its trigger is known to be taken, only a webhook names a run. -/
  named : g.run.externalId.isSome → g.intent.status ≠ .succeeded → received
  /-- A run that ended while its intent is open has been called back. -/
  ended : g.run.status.Terminal → IntentOpen g.intent → CalledBack g.run

/-- A numbered answer of the CI Lab ends a run only with a watermark. -/
theorem calledBack_of_terminal {record : ProviderRunRecord} {run : ProviderRun} {n : Nat}
    (hprovider : run.provider = .learningCi)
    (hnumber : run.metadata.watermark = some n) (hpos : 0 < n)
    (hold : record.status.Terminal → CalledBack record) (source : SnapshotSource) (now : Instant)
    (hterm : (record.applyProviderRunSnapshot run source now).status.Terminal) :
    CalledBack (record.applyProviderRunSnapshot run source now) := by
  rcases record.applyProviderRunSnapshot_cases run source now with
    ⟨-, he | he⟩ | ⟨-, -, -, he⟩ | ⟨-, -, he⟩
  · rw [he] at hterm ⊢
    exact hold hterm
  · rw [he] at hterm ⊢
    exact hold hterm
  · rw [he] at hterm ⊢
    exact hold hterm
  · rw [he]
    refine ⟨rfl, ?_⟩
    show 0 < record.snapshotSequence run
    unfold ProviderRunRecord.snapshotSequence
    rw [if_pos hprovider, hnumber]
    dsimp only
    split
    · exact hpos
    · omega

/-- An applied event leaves a run called back. -/
theorem calledBack_webhook {record : ProviderRunRecord} {payload : ProviderWebhookPayload}
    (hext : record.externalId.isSome) (hold : record.status.Terminal → CalledBack record)
    (now : Instant) (hterm : (record.reduceWebhook payload now).1.status.Terminal) :
    CalledBack (record.reduceWebhook payload now).1 := by
  rcases record.reduceWebhook_cases payload now with he | ⟨-, he⟩ | ⟨hseq, -, -, he⟩
  · rw [he] at hterm ⊢
    exact hold hterm
  · rw [he] at hterm ⊢
    exact hold hterm
  · rw [he]
    refine ⟨hext, ?_⟩
    show 0 < payload.sequence
    omega

theorem isSome_bindExternal (record : ProviderRunRecord) (externalId : String) (now : Instant) :
    (record.bindExternal externalId now).externalId.isSome := by
  unfold ProviderRunRecord.bindExternal
  split
  · rfl
  · next hne => exact Option.isSome_iff_ne_none.mpr hne

/-- A poll or a decision is about a run that has a name. -/
def Move.Asks : Move → Prop
  | .commitRefresh .. | .commitDecision .. => True
  | .claim .. | .finalize .. | .settleFailure .. | .cancelBeforeDispatch .. | .webhook .. => False

/-- What a move needs for the accounts to stay right. -/
structure Accountable (received received' : Prop) (g : RunGraph) (mv : Move) : Prop where
  later : received → received'
  asked : mv.Asks → g.run.externalId.isSome
  numbered : ∀ run, mv.snapshot = some run → received →
    run.provider = .learningCi ∧ ∃ n, run.metadata.watermark = some n ∧ 0 < n
  kept : ∀ payload now, mv = .webhook payload now → received'

theorem Accounted.snapshot (h : Accounted received g) (hext : g.run.externalId.isSome)
    {run : ProviderRun} (hlater : received → received')
    (hnumbered : received → run.provider = .learningCi
      ∧ ∃ n, run.metadata.watermark = some n ∧ 0 < n)
    (source : SnapshotSource) (now : Instant) (approval : Option ProviderRunApprovalRecord) :
    Accounted received' { g with
      run := g.run.applyProviderRunSnapshot run source now
      approval } where
  named := fun _ hopen => hlater (h.named hext hopen)
  ended := by
    intro hterm hopen
    obtain ⟨hprovider, n, hn, hpos⟩ := hnumbered (h.named hext hopen.ne_succeeded)
    exact calledBack_of_terminal hprovider hn hpos (fun ht => h.ended ht hopen) source now hterm

theorem Accounted.move (h : Accounted received g) (hm : Accountable received received' g mv) :
    Accounted received' (g.move mv) := by
  have hsame : Accounted received' g := ⟨fun he hi => hm.later (h.named he hi), h.ended⟩
  cases mv with
  | claim workerId token leaseSeconds now =>
    rw [move_claim]
    split
    · next hclaimable =>
      -- only an open intent is claimed, and an open one has not succeeded
      have hopen : IntentOpen g.intent := by
        rcases hclaimable.2 with ⟨hp | hr, -⟩ | ⟨hc, -⟩
        · exact .inl hp
        · exact .inr (.inr hr)
        · exact .inr (.inl hc)
      exact ⟨fun he _ => hm.later (h.named he hopen.ne_succeeded), fun ht _ => h.ended ht hopen⟩
    · exact hsame
  | finalize token run now =>
    rcases g.move_finalize token run now with ⟨he, -⟩ | ⟨-, -, he⟩
    · rw [he]
      exact hsame
    · rw [he]
      refine ⟨fun _ hne => absurd rfl hne, fun _ hopen => ?_⟩
      simp [IntentOpen, succeedIntent] at hopen
  | settleFailure token errorCode retryable now =>
    rcases g.move_settleFailure token errorCode retryable now with
      he | ⟨-, -, he⟩ | ⟨hclaimed, hnot, he⟩
    · rw [he]
      exact hsame
    · rw [he]
      refine ⟨fun _ hne => absurd rfl hne, fun _ hopen => ?_⟩
      simp [IntentOpen, succeedIntent] at hopen
    · rw [he]
      refine ⟨fun hext _ => hm.later (h.named hext (by simp [hclaimed])), fun hterm hopen => ?_⟩
      -- a failure that is final closes the intent
      have hretry : retryable = true := by
        cases retryable with
        | true => rfl
        | false => simp [IntentOpen, failIntent] at hopen
      subst hretry
      exact absurd (h.ended hterm (.inr (.inl hclaimed))) hnot
  | cancelBeforeDispatch now =>
    rw [move_cancelBeforeDispatch]
    split
    · next hund =>
      refine ⟨fun hext _ => ?_, fun _ hopen => ?_⟩
      · have hnone : g.run.externalId = none := hund.1
        simp [cancelBeforeDispatch, hnone] at hext
      · simp [IntentOpen, cancelBeforeDispatch] at hopen
    · exact hsame
  | commitRefresh expectedVersion run now =>
    rw [move_commitRefresh]
    split
    · exact hsame
    · exact h.snapshot (hm.asked trivial) hm.later (hm.numbered run rfl) .poll now g.approval
  | commitDecision payload actor expectedVersion run now =>
    rcases g.move_commitDecision payload actor expectedVersion run now with
      ⟨he, -⟩ | ⟨-, -, approval, -, -, -, he⟩
    · rw [he]
      exact hsame
    · rw [he]
      exact h.snapshot (hm.asked trivial) hm.later (hm.numbered run rfl) .gateDecision now
        (some approval)
  | webhook payload now =>
    rcases g.move_webhook payload now with ⟨he, -⟩ | ⟨-, -, he⟩
    · rw [he]
      exact hsame
    · rw [he]
      refine ⟨fun _ _ => hm.kept payload now rfl, fun hterm hopen => ?_⟩
      refine calledBack_webhook (isSome_bindExternal g.run payload.externalId now) (fun ht => ?_)
        now hterm
      obtain ⟨hstatus, -, hseq, -⟩ := g.run.bindExternal_same payload.externalId now
      rw [hstatus] at ht
      exact ⟨isSome_bindExternal _ _ _, hseq ▸ (h.ended ht hopen).2⟩

/-- No channel moves a run that has ended. -/
theorem Accounted.status_move (h : Accounted received g)
    (hterm : g.run.status.Terminal) (mv : Move) :
    (g.move mv).run.status = g.run.status := by
  cases mv with
  | claim workerId token leaseSeconds now =>
    rw [move_claim]
    split
    · rfl
    · rfl
  | finalize token run now =>
    rcases g.move_finalize token run now with ⟨he, -⟩ | ⟨-, -, he⟩
    · rw [he]
    · rw [he]
      rcases finalizeRun_cases g.run run now with ⟨-, _, hrun⟩ | ⟨-, hrun⟩
      · rw [hrun]
      · rw [hrun]
        exact ProviderRunRecord.applyProviderRunSnapshot_terminal
          (show ({ g.run with
            dispatchStatus := .dispatched
            reconciliationRequired := false } : ProviderRunRecord).status.Terminal from hterm)
          run .dispatch now
  | settleFailure token errorCode retryable now =>
    rcases g.move_settleFailure token errorCode retryable now with
      he | ⟨-, -, he⟩ | ⟨hclaimed, hnot, he⟩
    · rw [he]
    · rw [he]
    -- a terminal run has no claimed intent whose failure is final
    · exact absurd (h.ended hterm (.inr (.inl hclaimed))) hnot
  | cancelBeforeDispatch now =>
    rw [move_cancelBeforeDispatch]
    split
    · next hund =>
      -- an open intent of a terminal run has its external id, which the guard wants absent
      have hopen : IntentOpen g.intent := hund.2.2.imp (fun hp => hp) .inr
      have hext := (h.ended hterm hopen).1
      rw [hund.1] at hext
      simp at hext
    · rfl
  | commitRefresh expectedVersion run now =>
    rw [move_commitRefresh]
    split
    · rfl
    · exact ProviderRunRecord.applyProviderRunSnapshot_terminal hterm run .poll now
  | commitDecision payload actor expectedVersion run now =>
    rcases g.move_commitDecision payload actor expectedVersion run now with
      ⟨he, -⟩ | ⟨-, -, approval, -, -, -, he⟩
    · rw [he]
    · rw [he]
      exact ProviderRunRecord.applyProviderRunSnapshot_terminal hterm run .gateDecision now
  | webhook payload now =>
    rcases g.move_webhook payload now with ⟨he, -⟩ | ⟨-, -, he⟩
    · rw [he]
    · rw [he]
      have hstatus := (g.run.bindExternal_same payload.externalId now).1
      exact (ProviderRunRecord.reduceWebhook_terminal (hstatus.symm ▸ hterm) payload now).trans
        hstatus

end RunGraph

namespace ProviderSystem

variable {safety : RuntimeSafetyConfig} {s : ProviderSystem} {k : Uuid}

/-- Run `k` has an external identity. -/
def Named (s : ProviderStore) (k : Uuid) : Prop :=
  ∃ g, s.graphs.get? k = some g ∧ g.run.externalId.isSome

theorem Named.step (h : Named s.store k) (e : ProviderEvent) :
    Named (ProviderSystem.step safety s e).store k := by
  obtain ⟨g, hg, hext⟩ := h
  obtain ⟨g', hg', hextends⟩ := step_extends safety hg e
  exact ⟨g', hg', hextends.identified hext⟩

/-- The `webhook_sequence` of an answer that is an integer. -/
def webhookSequence (run : ProviderRun) : Option Int :=
  match run.metadata.lookup "webhook_sequence" with
  | some (.int value) => some value
  | _ => none

/-- An answer that the event applies to a run with webhooks carries a sequence
number in the range. -/
def Numbered (range : Int → Bool) (s : ProviderSystem) (e : ProviderEvent) : Prop :=
  ∀ m ∈ s.moveOf e, ∀ run ∈ m.2.snapshot, Received s.store m.1 → (webhookSequence run).any range

instance (range : Int → Bool) (s : ProviderSystem) (e : ProviderEvent) :
    Decidable (Numbered range s e) := by
  unfold Numbered
  infer_instance

/-- The sequence numbers that a column of the database holds, from 1 on. -/
def columnRange (n : Int) : Bool := 1 ≤ n ∧ n ≤ 2147483647

theorem watermark_of_columnRange {run : ProviderRun} (h : (webhookSequence run).any columnRange) :
    ∃ n, run.metadata.watermark = some n ∧ 0 < n := by
  unfold webhookSequence at h
  split at h
  · next value hvalue =>
    simp only [Option.any_some, columnRange, decide_eq_true_eq] at h
    refine ⟨value.toNat, ?_, by omega⟩
    have hrange : 0 ≤ value ∧ value ≤ 2147483647 := by omega
    simp [Metadata.watermark, hvalue, hrange]
  · simp at h

/-- The accounts of all runs are right. -/
structure Accounts (s : ProviderSystem) : Prop where
  coherent : s.Coherent
  refresh : ∀ p ∈ s.refreshes, Named s.store p.runId
  decision : ∀ p ∈ s.decisions, Named s.store p.runId
  run : ∀ k g, s.store.graphs.get? k = some g → g.Accounted (Received s.store k)

theorem Coherent.received_kind (h : s.Coherent) (hr : Received s.store k) :
    KindOf s.store k .learningCi := by
  obtain ⟨r, hr, rfl⟩ := hr
  exact h.receipt r hr

theorem Accounts.asked (h : Accounts s) {e : ProviderEvent} {mv : RunGraph.Move} {g : RunGraph}
    (hmove : s.moveOf e = some (k, mv)) (hg : s.store.graphs.get? k = some g) (hask : mv.Asks) :
    g.run.externalId.isSome := by
  have hnamed : Named s.store k := by
    cases moveOf_inv hmove with
    | refresh pending run now p hp => exact h.refresh p hp
    | decide pending run now p hp => exact h.decision p hp
    | claim => exact hask.elim
    | finalize => exact hask.elim
    | settle => exact hask.elim
    | cancel => exact hask.elim
    | webhook => exact hask.elim
  obtain ⟨g', hg', hext⟩ := hnamed
  obtain rfl := Option.some.inj (hg.symm.trans hg')
  exact hext

theorem Accounts.step {e : ProviderEvent} (h : Accounts s) (hnum : Numbered columnRange s e) :
    Accounts (ProviderSystem.step safety s e) where
  coherent := h.coherent.step e
  refresh := by
    intro p hp
    rcases (pendingStep safety s e).mem_refreshes hp with hold | ⟨g, c, hg, -, -, hext, -⟩
    · exact (h.refresh p hold).step e
    · exact Named.step ⟨g, hg, by rw [hext]; rfl⟩ e
  decision := by
    intro p hp
    rcases (pendingStep safety s e).mem_decisions hp with hold | ⟨g, c, hg, -, -, -, hext, -⟩
    · exact (h.decision p hold).step e
    · exact Named.step ⟨g, hg, by rw [hext]; rfl⟩ e
  run := by
    intro k g' hg'
    rcases step_graph_cases hg' with
      hold | ⟨g, mv, hg, hmove, hkept, rfl⟩ | ⟨_, _, _, _, _, -, -, -, -, rfl⟩
    · have hacc := h.run k g' hold
      exact ⟨fun hext hne => (hacc.named hext hne).step e, hacc.ended⟩
    · refine (h.run k g hg).move {
        later := fun hr => hr.step e
        asked := h.asked hmove hg
        numbered := fun run hrun hr => ?_
        kept := hkept.2 }
      have hkind := (h.coherent.moveOf_snapshot hmove hrun).unique (h.coherent.received_kind hr)
      exact ⟨hkind, watermark_of_columnRange (hnum (k, mv) hmove run hrun hr)⟩
    · refine ⟨fun hext _ => ?_, fun hterm _ => ?_⟩
      · simp [ProviderStore.triggeredGraph] at hext
      · simp [ProviderStore.triggeredGraph, PipelineStatus.Terminal] at hterm

theorem accounts_empty : Accounts empty where
  coherent := coherent_empty
  refresh := by simp [empty]
  decision := by simp [empty]
  run := by simp [empty, ProviderStore.empty]

/-- Run `k` is there and has ended with the status. -/
def Ended (k : Uuid) (status : PipelineStatus) (s : ProviderSystem) : Prop :=
  ∃ g, s.store.graphs.get? k = some g ∧ g.run.status = status

theorem Ended.step {e : ProviderEvent} {status : PipelineStatus} (h : Ended k status s)
    (hterm : status.Terminal) (hacc : Accounts s) :
    Ended k status (ProviderSystem.step safety s e) := by
  obtain ⟨g, hg, rfl⟩ := h
  rcases step_graph_of_some safety hg e with hsame | ⟨mv, -, hmoved⟩
  · exact ⟨g, hsame, rfl⟩
  · exact ⟨g.move mv, hmoved, (hacc.run k g hg).status_move hterm mv⟩

/-- While the CI Lab numbers its answers about runs with webhooks by what the
column holds, a run that has ended keeps its status for good. -/
theorem ended_of_numbered (safety : RuntimeSafetyConfig) (before after : List ProviderEvent)
    (k : Uuid) (g : RunGraph)
    (hnum : Transition.Along (Numbered columnRange) (step safety) empty (before ++ after))
    (hg : (Transition.run (step safety) empty before).store.graphs.get? k = some g)
    (hterm : g.run.status.Terminal) :
    ∃ g', (Transition.run (step safety) empty (before ++ after)).store.graphs.get? k = some g'
      ∧ g'.run.status = g.run.status := by
  rw [Transition.run_append]
  obtain ⟨hbefore, hafter⟩ := (Transition.along_append _ _ _).mp hnum
  have hacc := Transition.invariant_along (I := Accounts) (fun _ _ h hn => h.step hn)
    accounts_empty hbefore
  have hend := Transition.invariant_along
    (I := fun s => Accounts s ∧ Ended k g.run.status s)
    (fun _ _ h hn => ⟨h.1.step hn, h.2.step hterm h.1⟩) ⟨hacc, g, hg, rfl⟩ hafter
  exact hend.2

/-- A callback binds the lesson's run while its trigger is under way, and ends it. -/
def failedLesson : List ProviderEvent :=
  [lessonConnection "local-smoke", lessonTrigger, .claim "dispatcher" 60 "lease" 2 [],
    .checkVersion 0, lessonWebhook 1 .failed 3]

/-- Late news of the run that has failed. -/
def lateNews : List ProviderEvent :=
  [.callTrigger 0 (.raised (.configuration "refused")) "", .settle 0 4, .prepareRefresh 0 0 false 5,
    .commitRefresh 0 (lessonRun .succeeded .notRequired 7) 6,
    lessonWebhook 2 .succeeded 7]

theorem ended_of_numbered_failedLesson :
    ∃ g', (Transition.run (step lesson) empty (failedLesson ++ lateNews)).store.graphs.get? 0
      = some g' ∧ g'.run.status = .failed := by
  obtain ⟨g, hg, hs⟩ : ∃ g, (Transition.run (step lesson) empty failedLesson).store.graphs.get? 0
      = some g ∧ g.run.status = .failed := exists_graph (by decide +kernel)
  obtain ⟨g', hg', hsame⟩ := ended_of_numbered lesson failedLesson lateNews 0 g
    (by decide +kernel) hg (by rw [hs]; decide)
  exact ⟨g', hg', hsame.trans hs⟩

/-- A callback out of order names the run, and a poll with a sequence number
beyond the column ends it without a watermark. -/
def unmarkedLesson : List ProviderEvent :=
  [lessonConnection "local-smoke", lessonTrigger, .claim "dispatcher" 60 "lease" 2 [],
    .checkVersion 0, lessonWebhook 2 .running 3, .prepareRefresh 0 0 false 4,
    .commitRefresh 0 (lessonRun .succeeded .notRequired 2147483648) 5]

/-- With such a number the settlement of the failed trigger turns a success into
a failure. -/
theorem not_ended_without_watermark :
    ¬ ∀ (before after : List ProviderEvent) (k : Uuid) (g g' : RunGraph),
      Transition.Along (Numbered (1 ≤ ·)) (step lesson) empty (before ++ after) →
      (Transition.run (step lesson) empty before).store.graphs.get? k = some g →
      g.run.status.Terminal →
      (Transition.run (step lesson) empty (before ++ after)).store.graphs.get? k = some g' →
      g'.run.status = g.run.status := by
  intro h
  obtain ⟨g, hg, hs⟩ : ∃ g, (Transition.run (step lesson) empty unmarkedLesson).store.graphs.get? 0
      = some g ∧ g.run.status = .succeeded := exists_graph (by decide +kernel)
  obtain ⟨g', hg', hs'⟩ : ∃ g, (Transition.run (step lesson) empty (unmarkedLesson
      ++ [.callTrigger 0 (.raised (.configuration "refused")) "", .settle 0 6])).store.graphs.get? 0
      = some g ∧ g.run.status = .failed := exists_graph (by decide +kernel)
  have hsame := h _ _ 0 g g' (by decide +kernel) hg (by rw [hs]; decide) hg'
  rw [hs, hs'] at hsame
  simp at hsame

end ProviderSystem

end QaPlatform.Runtime
