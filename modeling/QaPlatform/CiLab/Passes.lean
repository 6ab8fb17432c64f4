import QaPlatform.CiLab.Tellings

/-!
# Passes over the subscribed runs

What `advance_webhook_runs_once` leaves behind: every run of its batch is as a refresh
at that instant makes it, so another pass at the same instant has nothing to do. A run
whose refresh raises ends the pass, and nothing of it is kept.
-/

namespace QaPlatform.CiLab

variable {setup : Setup} {definition : PipelineDefinition} {now : Instant} {run : RunRecord}
  {gate : Option QualityGateRecord}

/-! ## Refreshing twice -/

/-- The fields that an observation decides, and those that it leaves. -/
theorem observedRun_fields (now : Instant) (current : RunRecord) (seen : Observation) :
    (observedRun now current seen).status = seen.status
      ∧ (observedRun now current seen).startedAt = seen.startedAt
      ∧ (observedRun now current seen).finishedAt = seen.finishedAt
      ∧ (observedRun now current seen).message = seen.message
      ∧ (observedRun now current seen).createdAt = current.createdAt
      ∧ (observedRun now current seen).cancelledAt = current.cancelledAt := by
  unfold observedRun
  split
  · exact ⟨rfl, rfl, rfl, rfl, rfl, rfl⟩
  · next hsame =>
    simp only [ne_eq, not_or, not_not] at hsame
    obtain ⟨hstatus, hstarted, hfinished, hmessage⟩ := hsame
    exact ⟨hstatus, hstarted, hfinished, hmessage, rfl, rfl⟩

/-- What was observed is observed again. -/
theorem observedRun_again {now : Instant} {current : RunRecord} {seen : Observation}
    (hstatus : current.status = seen.status) (hstarted : current.startedAt = seen.startedAt)
    (hfinished : current.finishedAt = seen.finishedAt) (hmessage : current.message = seen.message) :
    observedRun now current seen = current := by
  unfold observedRun
  rw [if_neg]
  simp [hstatus, hstarted, hfinished, hmessage]

theorem pausedRun_again {now : Instant} {current : RunRecord} (hstatus : current.status = .running)
    (hmessage : current.message = some waitingMessage) : pausedRun now current = current := by
  unfold pausedRun
  rw [if_neg]
  simp [hstatus, hmessage]

theorem pausedRun_fields (now : Instant) (current : RunRecord) :
    (pausedRun now current).status = .running
      ∧ (pausedRun now current).message = some waitingMessage
      ∧ (pausedRun now current).cancelledAt = current.cancelledAt := by
  unfold pausedRun
  split
  · exact ⟨rfl, rfl, rfl⟩
  · next hsame =>
    simp only [ne_eq, not_or, not_not] at hsame
    exact ⟨hsame.1, hsame.2, rfl⟩

/-- A run whose gate is reached says so. -/
theorem observe_reached {gated : Bool} {current : RunRecord} {elapsedMs : Nat}
    (h : (observe definition gated current elapsedMs).gateReached = true) :
    (observe definition gated current elapsedMs).status = .running
      ∧ (observe definition gated current elapsedMs).message = some waitingMessage := by
  have hseen : (observeElapsed definition gated current.createdAt elapsedMs).gateReached = true →
      (observeElapsed definition gated current.createdAt elapsedMs).status = .running
        ∧ (observeElapsed definition gated current.createdAt elapsedMs).message
          = some waitingMessage := by
    unfold observeElapsed
    dsimp only
    split
    · split
      · exact fun _ => ⟨rfl, rfl⟩
      · exact fun h => by cases h
    · exact fun h => by cases h
  unfold observe at h ⊢
  dsimp only at h ⊢
  split at h
  · next hback =>
    obtain ⟨hrunning, -⟩ := hseen h
    rw [hback.2] at hrunning
    cases hrunning
  · next hforward =>
    rw [if_neg hforward]
    exact hseen h

/-- The same elapsed time shows the same. -/
theorem observe_again {gated : Bool} {current current' : RunRecord} {elapsedMs : Nat}
    (hcreated : current'.createdAt = current.createdAt)
    (hstatus : current'.status = (observe definition gated current elapsedMs).status)
    (hmessage : current'.message = (observe definition gated current elapsedMs).message)
    (hstarted : current'.startedAt = (observe definition gated current elapsedMs).startedAt) :
    observe definition gated current' elapsedMs = observe definition gated current elapsedMs := by
  unfold observe at hstatus hmessage hstarted ⊢
  dsimp only at hstatus hmessage hstarted ⊢
  rw [hcreated]
  split at hstatus
  · next hback =>
    rw [if_pos hback] at hmessage hstarted
    rw [if_pos ⟨hstatus, hback.2⟩, if_pos hback, hmessage, hstarted]
  · next hforward =>
    rw [if_neg hforward, if_neg]
    rintro ⟨hrunning, hqueued⟩
    rw [hrunning, hqueued] at hstatus
    cases hstatus

theorem observedGate_waiting {terminalAt : Instant} {seen : Observation} {g : QualityGateRecord}
    (h : (observedGate now terminalAt seen g).status = .waitingApproval)
    (hg : g.status ≠ .waitingApproval) : seen.gateReached = true := by
  unfold observedGate at h
  split at h
  · next hreached => exact hreached.2
  · split at h
    · cases h
    · exact absurd h hg

/-- A gate that neither waits nor has failed after an observation was not touched by it. -/
theorem observedGate_again {terminalAt : Instant} {seen : Observation} {g : QualityGateRecord}
    (hwaiting : (observedGate now terminalAt seen g).status ≠ .waitingApproval)
    (hfailed : seen.status ≠ .failed) :
    observedGate now terminalAt seen (observedGate now terminalAt seen g)
      = observedGate now terminalAt seen g := by
  have hsame : observedGate now terminalAt seen g = g := by
    unfold observedGate at hwaiting ⊢
    split at hwaiting
    · exact absurd rfl hwaiting
    · next hreached =>
      rw [if_neg hreached, if_neg fun hboth => hfailed hboth.2]
  rw [hsame, hsame]

/-- Refreshing at the same instant once more changes nothing. -/
theorem refreshed_again (setup : Setup) (definition : PipelineDefinition) (now : Instant)
    (run : RunRecord) (gate : Option QualityGateRecord) :
    let current := refreshed setup definition now run gate
    refreshed setup definition now current.1 current.2 = current := by
  dsimp only
  by_cases hended : run.cancelledAt.isSome ∨ run.status.isTerminal
  · have hsame : refreshed setup definition now run gate = (run, gate) := if_pos hended
    rw [hsame, hsame]
  by_cases hwaiting : gate.any (·.status = .waitingApproval)
  · have hpaused : refreshed setup definition now run gate = (pausedRun now run, gate) := by
      unfold refreshed
      rw [if_neg hended, if_pos hwaiting]
    obtain ⟨hstatus, hmessage, hcancelled⟩ := pausedRun_fields now run
    rw [hpaused]
    unfold refreshed
    rw [if_neg, if_pos hwaiting, pausedRun_again hstatus hmessage]
    rw [hcancelled, hstatus]
    rintro (hsome | hterminal)
    · exact hended (.inl hsome)
    · exact absurd hterminal (by decide)
  have hobserved : refreshed setup definition now run gate
      = (observedRun now run
          (observe definition gate.isSome run (setup.elapsedMs now run.createdAt)),
        gate.map (observedGate now (run.createdAt + milliseconds definition.terminalPoint.ms)
          (observe definition gate.isSome run (setup.elapsedMs now run.createdAt)))) := by
    unfold refreshed
    rw [if_neg hended, if_neg hwaiting]
  obtain ⟨hstatus, hstarted, hfinished, hmessage, hcreated, hcancelled⟩ :=
    observedRun_fields now run
    (observe definition gate.isSome run (setup.elapsedMs now run.createdAt))
  have hagain : observe definition gate.isSome
        (observedRun now run
          (observe definition gate.isSome run (setup.elapsedMs now run.createdAt)))
        (setup.elapsedMs now run.createdAt)
      = observe definition gate.isSome run (setup.elapsedMs now run.createdAt) :=
    observe_again hcreated hstatus hmessage hstarted
  have hreached :
      (observe definition gate.isSome run (setup.elapsedMs now run.createdAt)).gateReached
      = true → _ := observe_reached
  rw [hobserved]
  generalize observe definition gate.isSome run (setup.elapsedMs now run.createdAt) = seen at *
  generalize observedRun now run seen = current at *
  unfold refreshed
  by_cases hterminal : seen.status.isTerminal
  · rw [if_pos (.inr (hstatus ▸ hterminal))]
  have hgoes : ¬ (current.cancelledAt.isSome ∨ current.status.isTerminal) := by
    rintro (hsome | hend)
    · exact hended (.inl (hcancelled ▸ hsome))
    · exact hterminal (hstatus ▸ hend)
  rw [if_neg hgoes]
  split
  · next hpaused =>
    -- the observation has reached the gate
    cases gate with
    | none => cases hpaused
    | some g =>
      have hnow : (observedGate now (run.createdAt + milliseconds definition.terminalPoint.ms) seen
          g).status = .waitingApproval := by simpa using hpaused
      obtain ⟨hrunning, hsays⟩ := hreached (observedGate_waiting hnow (by simpa using hwaiting))
      rw [pausedRun_again (hstatus.trans hrunning) (hmessage.trans hsays)]
  · next hnot =>
    dsimp only
    rw [Option.isSome_map, hcreated, hagain, observedRun_again hstatus hstarted hfinished hmessage]
    cases gate with
    | none => rfl
    | some g =>
      have hnow : (observedGate now (run.createdAt + milliseconds definition.terminalPoint.ms) seen
          g).status ≠ .waitingApproval := by simpa using hnot
      have hfailed : seen.status ≠ .failed := fun hs => hterminal (.inr (.inl hs))
      rw [Option.map_some, Option.map_some, observedGate_again hnow hfailed]

namespace CiLabStore

open QaPlatform.Transition

variable {registry : DefinitionRegistry} {s s' : CiLabStore}

/-! ## What a pass leaves behind -/

/-- The runs that a worker may advance are as a refresh at this instant makes them. -/
def Fresh (setup : Setup) (registry : DefinitionRegistry) (s : CiLabStore) (now : Instant) : Prop :=
  ∀ record, s.runs.get? record.id = some record → s.Advanceable record →
    ∀ definition, definitionForRecord registry record = .ok definition →
      s.current setup definition now record = (record, s.gates.get? record.id)

theorem refreshed_definition (record : RunRecord) :
    (refreshed setup definition now record gate).1.definition = record.definition
      ∧ (refreshed setup definition now record gate).1.definitionRevision
        = record.definitionRevision := by
  unfold refreshed
  split
  · exact ⟨rfl, rfl⟩
  split
  · dsimp only
    unfold pausedRun
    split <;> exact ⟨rfl, rfl⟩
  · dsimp only
    unfold observedRun
    split <;> exact ⟨rfl, rfl⟩

/-- A refresh does not change which definition a run has. -/
theorem definitionForRecord_current {record : RunRecord} :
    definitionForRecord registry (s.current setup definition now record).1
      = definitionForRecord registry record := by
  obtain ⟨hdefinition, hrevision⟩ :=
    @refreshed_definition setup definition now (s.gates.get? record.id) record
  unfold definitionForRecord current
  rw [hdefinition, hrevision]

theorem advanceOne_ok {record : RunRecord} {emitted : Bool}
    (h : s.advanceOne setup registry now record = .ok (s', emitted)) :
    ∃ definition, definitionForRecord registry record = .ok definition
      ∧ (s.withCurrent setup definition now record).enqueueWebhookIfChanged setup
          (s.current setup definition now record).1 (s.current setup definition now record).2 now
        = .ok (s', emitted) := by
  obtain ⟨x, hx, h⟩ := bind_eq_ok.mp h
  obtain ⟨definition, hdefinition, rfl⟩ := refreshRecord_ok hx
  exact ⟨definition, hdefinition, h⟩

/-- What a pass makes of the runs: those of the batch are refreshed, the others stay. -/
theorem advanceAll_refreshes {records : List RunRecord} {created : Nat}
    (hnodup : (records.map (·.id)).Nodup)
    (hrecords : ∀ r ∈ records, s.runs.get? r.id = some r)
    (h : s.advanceAll setup registry now records = .ok (s', created)) :
    (∀ r ∈ records, ∃ definition, definitionForRecord registry r = .ok definition
        ∧ s'.runs.get? r.id = some (s.current setup definition now r).1
        ∧ s'.gates.get? r.id = (s.current setup definition now r).2)
      ∧ (∀ k, (∀ r ∈ records, r.id ≠ k) →
        s'.runs.get? k = s.runs.get? k ∧ s'.gates.get? k = s.gates.get? k)
      ∧ s'.subscriptions = s.subscriptions := by
  induction records generalizing s created with
  | nil =>
    obtain ⟨rfl, -⟩ := Prod.mk.inj (pure_eq_ok.mp h)
    exact ⟨fun r hr => (by cases hr), fun _ _ => ⟨rfl, rfl⟩, rfl⟩
  | cons record records ih =>
    obtain ⟨⟨s₂, emitted⟩, hone, h⟩ := bind_eq_ok.mp h
    obtain ⟨⟨s₃, rest⟩, hrest, h⟩ := bind_eq_ok.mp h
    obtain ⟨rfl, -⟩ := Prod.mk.inj (pure_eq_ok.mp h)
    rw [List.map_cons, List.nodup_cons] at hnodup
    obtain ⟨hfresh, hnodup⟩ := hnodup
    obtain ⟨definition, hdefinition, hemitted⟩ := advanceOne_ok hone
    obtain ⟨hruns, hgates, -, hsubscriptions⟩ := enqueue_runs hemitted
    have hrecord := hrecords record List.mem_cons_self
    have hrow : (s.withCurrent setup definition now record).runs.get? record.id = _ ∧ _ :=
      withCurrent_row hrecord
    rw [← hruns, ← hgates] at hrow
    have hothers {k : Uuid} (hk : record.id ≠ k) :
        s₂.runs.get? k = s.runs.get? k ∧ s₂.gates.get? k = s.gates.get? k := by
      rw [hruns, hgates]
      exact withCurrent_others fun he => hk he.symm
    have hne {r : RunRecord} (hr : r ∈ records) : record.id ≠ r.id := by
      intro he
      rw [he] at hfresh
      exact hfresh (List.mem_map_of_mem hr)
    have hkept : ∀ r ∈ records, s₂.runs.get? r.id = some r := by
      intro r hr
      rw [(hothers (hne hr)).1]
      exact hrecords r (List.mem_cons_of_mem _ hr)
    obtain ⟨hbatch, hrestOthers, hrestSubscriptions⟩ := ih hnodup hkept hrest
    refine ⟨fun r hr => ?_, fun k hk => ?_, hrestSubscriptions.trans hsubscriptions⟩
    · rcases List.mem_cons.mp hr with rfl | hr
      · obtain ⟨hrun, hgate⟩ := hrestOthers r.id fun r' hr' he => hne hr' he.symm
        exact ⟨definition, hdefinition, hrun.trans hrow.1, hgate.trans hrow.2⟩
      · obtain ⟨definition', hdefinition', hrun, hgate⟩ := hbatch r hr
        have hsame : s₂.current setup definition' now r = s.current setup definition' now r := by
          unfold current
          rw [(hothers (hne hr)).2]
        rw [hsame] at hrun hgate
        exact ⟨definition', hdefinition', hrun, hgate⟩
    · obtain ⟨hrun, hgate⟩ := hrestOthers k fun r hr => hk r (List.mem_cons_of_mem _ hr)
      obtain ⟨hrun', hgate'⟩ := hothers (hk record List.mem_cons_self)
      exact ⟨hrun.trans hrun', hgate.trans hgate'⟩

/-- The batch is all there is to advance. -/
def Covers (s : CiLabStore) (limit : Nat) : Prop :=
  (s.runs.rows.filter s.Advanceable).length ≤ limit

instance (s : CiLabStore) (limit : Nat) : Decidable (s.Covers limit) := by
  unfold Covers
  infer_instance

theorem Covers.mem (h : s.Covers limit) {record : RunRecord}
    (hrecord : s.runs.get? record.id = some record) (hadvanceable : s.Advanceable record) :
    record ∈ s.advanceBatch limit := by
  unfold advanceBatch
  rw [List.take_of_length_le (by rw [List.length_insertionSort]; exact h), List.mem_insertionSort,
    List.mem_filter]
  exact ⟨Table.mem_of_get? hrecord, by simpa using hadvanceable⟩

/-- After a pass the runs are fresh. -/
theorem advance_fresh {limit created : Nat} (hcovers : s.Covers limit)
    (h : s.advanceWebhookRunsOnce setup registry limit now = .ok (s', created)) :
    s'.Fresh setup registry now := by
  obtain ⟨-, h⟩ := refuse_bind_eq_ok.mp h
  obtain ⟨hbatch, hothers, hsubscriptions⟩ := advanceAll_refreshes (s.advanceBatch_nodup limit)
    (fun r hr => Table.get?_key (mem_advanceBatch hr).1) h
  intro record' hrecord' hadvanceable' definition' hdefinition'
  by_cases hin : ∃ r ∈ s.advanceBatch limit, r.id = record'.id
  · obtain ⟨r, hr, hid⟩ := hin
    obtain ⟨definition, hdefinition, hrun, hgate⟩ := hbatch r hr
    rw [hid, hrecord'] at hrun
    obtain rfl := Option.some.inj hrun
    rw [definitionForRecord_current, hdefinition] at hdefinition'
    obtain rfl := Except.ok.inj hdefinition'
    rw [← hid, hgate]
    show refreshed setup definition now _ (s'.gates.get? _) = _
    rw [← hid, hgate]
    exact refreshed_again setup definition now r (s.gates.get? r.id)
  · -- a run that the pass did not touch was not to be advanced
    have hk : ∀ r ∈ s.advanceBatch limit, r.id ≠ record'.id := fun r hr he => hin ⟨r, hr, he⟩
    obtain ⟨hrun, hgate⟩ := hothers _ hk
    have hadvanceable : s.Advanceable record' := by
      unfold Advanceable at hadvanceable' ⊢
      rwa [hgate, hsubscriptions] at hadvanceable'
    exact absurd rfl (hk record' (hcovers.mem (hrun ▸ hrecord') hadvanceable))

/-- A pass changes only what `Advanceable` runs are, and makes none. -/
theorem advance_covers {limit created : Nat} (hcovers : s.Covers limit)
    (h : s.advanceWebhookRunsOnce setup registry limit now = .ok (s', created)) :
    s'.Covers limit := by
  obtain ⟨-, h⟩ := refuse_bind_eq_ok.mp h
  obtain ⟨-, hothers, hsubscriptions⟩ := advanceAll_refreshes (s.advanceBatch_nodup limit)
    (fun r hr => Table.get?_key (mem_advanceBatch hr).1) h
  have hsubset : (s'.runs.rows.filter s'.Advanceable).map (·.id)
      ⊆ (s.runs.rows.filter s.Advanceable).map (·.id) := by
    intro k hk
    obtain ⟨record', hrecord', rfl⟩ := List.mem_map.mp hk
    obtain ⟨hmem, hadvanceable'⟩ := List.mem_filter.mp hrecord'
    by_cases hin : ∃ r ∈ s.advanceBatch limit, r.id = record'.id
    · obtain ⟨r, hr, hid⟩ := hin
      obtain ⟨hrow, hadvanceable⟩ := mem_advanceBatch hr
      exact List.mem_map.mpr ⟨r, List.mem_filter.mpr ⟨hrow, by simpa using hadvanceable⟩, hid⟩
    · obtain ⟨hrun, hgate⟩ := hothers record'.id fun r hr he => hin ⟨r, hr, he⟩
      have hadvanceable : s.Advanceable record' := by
        have hset : s'.Advanceable record' := by simpa using hadvanceable'
        unfold Advanceable at hset ⊢
        rwa [hgate, hsubscriptions] at hset
      have hrow : s.runs.get? record'.id = some record' := hrun ▸ Table.get?_key hmem
      exact List.mem_map.mpr
        ⟨record', List.mem_filter.mpr ⟨Table.mem_of_get? hrow, by simpa using hadvanceable⟩, rfl⟩
  have hnodup : ((s'.runs.rows.filter s'.Advanceable).map (·.id)).Nodup :=
    s'.runs.nodup.sublist (List.filter_sublist.map _)
  have hle := (List.subperm_of_subset hnodup hsubset).length_le
  rw [List.length_map, List.length_map] at hle
  exact Nat.le_trans hle hcovers

/-! ## Deliveries of a pass -/

theorem withDelivery_rows (s : CiLabStore) (subscription : SubscriptionRecord) (run : RunRecord)
    (gate : Option QualityGateRecord) :
    ∃ r, (s.withDelivery setup subscription run gate now).deliveries.rows = s.deliveries.rows ++ [r]
      ∧ r.availableAt = now :=
  ⟨_, rfl, rfl⟩

/-- The deliveries of a pass are of its instant. -/
theorem advanceAll_rows {records : List RunRecord} {created : Nat}
    (h : s.advanceAll setup registry now records = .ok (s', created)) :
    ∃ rows, s'.deliveries.rows = s.deliveries.rows ++ rows ∧ ∀ r ∈ rows, r.availableAt = now := by
  induction records generalizing s created with
  | nil =>
    obtain ⟨rfl, -⟩ := Prod.mk.inj (pure_eq_ok.mp h)
    exact ⟨[], by simp, by simp⟩
  | cons record records ih =>
    obtain ⟨⟨s₂, emitted⟩, hone, h⟩ := bind_eq_ok.mp h
    obtain ⟨⟨s₃, rest⟩, hrest, h⟩ := bind_eq_ok.mp h
    obtain ⟨rfl, -⟩ := Prod.mk.inj (pure_eq_ok.mp h)
    obtain ⟨definition, -, hemitted⟩ := advanceOne_ok hone
    obtain ⟨rows, hrows, hnow⟩ := ih hrest
    rcases enqueue_ok hemitted with ⟨rfl, -⟩ | ⟨subscription, -, -, rfl⟩
    · exact ⟨rows, hrows, hnow⟩
    · obtain ⟨new, hnew, hat⟩ := @withDelivery_rows setup now
        (s.withCurrent setup definition now record) subscription
        (s.current setup definition now record).1 (s.current setup definition now record).2
      refine ⟨new :: rows, ?_, ?_⟩
      · rw [hrows, hnew, List.append_assoc]
        rfl
      · intro r hr
        rcases List.mem_cons.mp hr with rfl | hr
        · exact hat
        · exact hnow r hr

/-- Writing a run and its gate back changes nothing. -/
theorem writeRun_self {record : RunRecord} (hrecord : s.runs.get? record.id = some record) :
    s.writeRun record (s.gates.get? record.id) = s := by
  unfold writeRun
  rw [Table.put_self hrecord]
  cases hgate : s.gates.get? record.id with
  | none => rfl
  | some g =>
    have hkey : key g = record.id := Table.key_of_get? hgate
    show { s with gates := s.gates.put g } = s
    rw [Table.put_self (hkey ▸ hgate)]

/-- Where everything is fresh and told, a pass does nothing. -/
theorem advanceAll_idle {records : List RunRecord} {created : Nat} (hs : s.Telling)
    (hfresh : s.Fresh setup registry now)
    (hrecords : ∀ r ∈ records, s.runs.get? r.id = some r ∧ s.Advanceable r)
    (h : s.advanceAll setup registry now records = .ok (s', created)) : s' = s := by
  induction records generalizing created with
  | nil => exact (Prod.mk.inj (pure_eq_ok.mp h)).1.symm
  | cons record records ih =>
    obtain ⟨⟨s₂, emitted⟩, hone, h⟩ := bind_eq_ok.mp h
    obtain ⟨⟨s₃, rest⟩, hrest, h⟩ := bind_eq_ok.mp h
    obtain ⟨rfl, -⟩ := Prod.mk.inj (pure_eq_ok.mp h)
    obtain ⟨definition, hdefinition, hemitted⟩ := advanceOne_ok hone
    obtain ⟨hrecord, hadvanceable⟩ := hrecords record List.mem_cons_self
    have hcurrent := hfresh record hrecord hadvanceable definition hdefinition
    have hwritten : s.withCurrent setup definition now record = s := by
      unfold withCurrent
      rw [hcurrent]
      exact writeRun_self hrecord
    have hsame : s₂ = s := by
      rw [hwritten, hcurrent] at hemitted
      rcases enqueue_ok hemitted with ⟨rfl, -⟩ | ⟨subscription, hsubscription, hnew, -⟩
      · rfl
      · refine absurd (.inr ((told_iff hs.numbered).mpr ?_)) hnew
        exact hs.latest hrecord (by rw [hsubscription]; rfl)
    subst hsame
    exact ih (fun r hr => hrecords r (List.mem_cons_of_mem _ hr)) hrest

end CiLabStore

end QaPlatform.CiLab
