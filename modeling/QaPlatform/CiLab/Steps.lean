import Mathlib.Logic.Relation
import QaPlatform.CiLab.Deliveries

/-!
# The steps of CI Lab

Every method on runs has the same two parts: it writes the rows of one run, then it
emits a delivery for what it has written. `Written` lists what the first part can do,
with the guards that it has passed; `advance_webhook_runs_once` goes through the two
parts once for every run of its batch. The methods on deliveries rewrite one row, which
`RowMove` tells of. `call_steps` puts it together: whatever is called is a sequence of
such steps, so what each of them preserves is preserved by every transaction.
-/

namespace QaPlatform.CiLab.CiLabStore

variable {setup : Setup} {registry : DefinitionRegistry} {s s' s₁ : CiLabStore} {now : Instant}
  {run : RunRecord} {gate : Option QualityGateRecord}

/-- A run and its gate as a method finds them. -/
def current (setup : Setup) (definition : PipelineDefinition) (s : CiLabStore) (now : Instant)
    (record : RunRecord) : RunRecord × Option QualityGateRecord :=
  refreshed setup definition now record (s.gates.get? record.id)

/-- The store with a refreshed run. -/
def withCurrent (setup : Setup) (definition : PipelineDefinition) (s : CiLabStore) (now : Instant)
    (record : RunRecord) : CiLabStore :=
  s.writeRun (s.current setup definition now record).1 (s.current setup definition now record).2

/-- What a method writes before it emits: the store, the run and its gate in it, and the
instant that it emits for. -/
inductive Written (setup : Setup) (registry : DefinitionRegistry) (s : CiLabStore) (now : Instant) :
    Call → CiLabStore → RunRecord → Option QualityGateRecord → Instant → Prop where
  | created {definitionKey idempotencyKey : String} {request : TriggerRunRequest}
      {definition : PipelineDefinition} {gates : Table QualityGateRecord}
      {subscriptions : Table SubscriptionRecord}
      (hdefinition : registry definitionKey = some definition)
      (hunused : ∀ r ∈ s.runs.rows, r.idempotencyKey ≠ idempotencyKey)
      (hgates : insertRow s.gates (newGate definition now s.runs.next) = .ok gates)
      (hsubscriptions :
        insertRow s.subscriptions (newSubscription request now s.runs.next) = .ok subscriptions) :
      Written setup registry s now (.trigger definitionKey request idempotencyKey)
        { s with
          runs := s.runs.add
            (newRun definition request idempotencyKey
              (triggerFingerprint setup definition request) now)
          gates
          subscriptions }
        (newRun definition request idempotencyKey (triggerFingerprint setup definition request) now
          s.runs.next)
        (newGate definition now s.runs.next) now
  | refreshed {call : Call} {record : RunRecord} {definition : PipelineDefinition}
      (hrecord : s.runs.get? record.id = some record)
      (hdefinition : definitionForRecord registry record = .ok definition) :
      Written setup registry s now call (s.withCurrent setup definition now record)
        (s.current setup definition now record).1 (s.current setup definition now record).2 now
  | cancelled {record : RunRecord} {definition : PipelineDefinition} {cancelledAt : Instant}
      (hrecord : s.runs.get? record.id = some record)
      (hdefinition : definitionForRecord registry record = .ok definition)
      (hactive : ¬ (s.current setup definition now record).1.status.isTerminal) :
      Written setup registry s now (.cancel record.id)
        ((s.withCurrent setup definition now record).writeRun
          (cancelledRun definition cancelledAt (s.current setup definition now record).1)
          ((s.current setup definition now record).2.map (cancelledGate cancelledAt)))
        (cancelledRun definition cancelledAt (s.current setup definition now record).1)
        ((s.current setup definition now record).2.map (cancelledGate cancelledAt)) cancelledAt
  | decided {record : RunRecord} {definition : PipelineDefinition} {request : GateDecisionRequest}
      {gate : QualityGateRecord} {decisionAt : Instant}
      (hrecord : s.runs.get? record.id = some record)
      (hdefinition : definitionForRecord registry record = .ok definition)
      (hgate : (s.current setup definition now record).2 = some gate)
      (hnone : s.approvalsOf record.id = [])
      (hwaiting : gate.status = .waitingApproval) :
      Written setup registry s now (.decideGate record.id request)
        (({ s.withCurrent setup definition now record with
            approvals := s.approvals.add (newApproval request record.id decisionAt) } :
              CiLabStore).writeRun
          (decidedRun request.decision decisionAt (s.current setup definition now record).1)
          (some (decidedGate request.decision decisionAt gate)))
        (decidedRun request.decision decisionAt (s.current setup definition now record).1)
        (some (decidedGate request.decision decisionAt gate)) decisionAt

/-- A method's writes, and what it emits for them. -/
def Round (setup : Setup) (registry : DefinitionRegistry) (now : Instant) (call : Call)
    (s s' : CiLabStore) : Prop :=
  ∃ s₁ run gate emittedAt emitted, Written setup registry s now call s₁ run gate emittedAt
    ∧ s₁.enqueueWebhookIfChanged setup run gate emittedAt = .ok (s', emitted)

/-- A method's writes, what it emits, and the view that it returns. -/
def Served (setup : Setup) (registry : DefinitionRegistry) (now : Instant) (call : Call)
    (s s' : CiLabStore) (view : RunView) : Prop :=
  ∃ s₁ run gate emittedAt emitted, Written setup registry s now call s₁ run gate emittedAt
    ∧ s₁.enqueueWebhookIfChanged setup run gate emittedAt = .ok (s', emitted)
    ∧ ∃ definition replayed, view = s'.runView setup run definition now gate replayed

theorem Served.round {call : Call} {view : RunView}
    (h : Served setup registry now call s s' view) : Round setup registry now call s s' := by
  obtain ⟨s₁, run, gate, emittedAt, emitted, hwritten, hemitted, -⟩ := h
  exact ⟨s₁, run, gate, emittedAt, emitted, hwritten, hemitted⟩

/-! ## The two parts -/

theorem requireRun_eq_ok {runId : Uuid} {record : RunRecord} :
    s.requireRun runId = .ok record ↔ s.runs.get? runId = some record := by
  unfold requireRun
  exact demand_eq_ok

theorem refreshRecord_ok {record : RunRecord}
    {x : CiLabStore × RunRecord × Option QualityGateRecord}
    (h : s.refreshRecord setup registry record now = .ok x) :
    ∃ definition, definitionForRecord registry record = .ok definition
      ∧ x = (s.withCurrent setup definition now record,
          s.current setup definition now record) := by
  obtain ⟨definition, hdefinition, hwritten⟩ := bind_eq_ok.mp h
  exact ⟨definition, hdefinition, (pure_eq_ok.mp hwritten).symm⟩

theorem emitAndView_ok {definition : PipelineDefinition} {emittedAt : Instant} {replayed : Bool}
    {view : RunView}
    (h : s₁.emitAndView setup run gate definition emittedAt now replayed = .ok (s', view)) :
    ∃ emitted, s₁.enqueueWebhookIfChanged setup run gate emittedAt = .ok (s', emitted)
      ∧ view = s'.runView setup run definition now gate replayed := by
  obtain ⟨⟨s₂, emitted⟩, hemitted, hview⟩ := bind_eq_ok.mp h
  obtain ⟨rfl, rfl⟩ := Prod.mk.inj (pure_eq_ok.mp hview)
  exact ⟨emitted, hemitted, rfl⟩

/-- The two parts make a served call. -/
theorem Written.served {call : Call} {emittedAt : Instant}
    (hwritten : Written setup registry s now call s₁ run gate emittedAt)
    {definition : PipelineDefinition} {replayed : Bool} {view : RunView}
    (h : s₁.emitAndView setup run gate definition emittedAt now replayed = .ok (s', view)) :
    Served setup registry now call s s' view := by
  obtain ⟨emitted, hemitted, hview⟩ := emitAndView_ok h
  exact ⟨s₁, run, gate, emittedAt, emitted, hwritten, hemitted, definition, replayed, hview⟩

/-! ## The methods -/

/-- What a trigger has done: it was made before, or the run is new. -/
theorem trigger_ok {definitionKey idempotencyKey : String} {request : TriggerRunRequest}
    {view : RunView}
    (h : s.trigger setup registry definitionKey request idempotencyKey now = .ok (s', view)) :
    ∃ definition, registry definitionKey = some definition
      ∧ ((∃ previous recorded,
          s.runs.rows.find? (·.idempotencyKey = idempotencyKey) = some previous
          ∧ s.runs.get? previous.id = some previous
          ∧ previous.requestFingerprint = triggerFingerprint setup definition request
          ∧ definitionForRecord registry previous = .ok recorded
          ∧ (s.withCurrent setup recorded now previous).emitAndView setup
              (s.current setup recorded now previous).1 (s.current setup recorded now previous).2
              definition now now true = .ok (s', view))
        ∨ s.runs.rows.find? (·.idempotencyKey = idempotencyKey) = none
          ∧ ∃ gates subscriptions,
            insertRow s.gates (newGate definition now s.runs.next) = .ok gates
            ∧ insertRow s.subscriptions (newSubscription request now s.runs.next)
              = .ok subscriptions
            ∧ ({ s with
                runs := s.runs.add (newRun definition request idempotencyKey
                  (triggerFingerprint setup definition request) now)
                gates
                subscriptions } : CiLabStore).emitAndView setup
                (newRun definition request idempotencyKey
                  (triggerFingerprint setup definition request) now s.runs.next)
                (newGate definition now s.runs.next) definition now now false
                = .ok (s', view)) := by
  obtain ⟨definition, hdefinition, h⟩ := bind_eq_ok.mp h
  refine ⟨definition, demand_eq_ok.mp hdefinition, ?_⟩
  obtain ⟨-, h⟩ := refuse_bind_eq_ok.mp h
  obtain ⟨-, h⟩ := refuse_bind_eq_ok.mp h
  cases hprevious : s.runs.rows.find? (·.idempotencyKey = idempotencyKey) with
  | some previous =>
    simp only [hprevious] at h
    obtain ⟨hfingerprint, h⟩ := refuse_bind_eq_ok.mp h
    obtain ⟨x, hx, h⟩ := bind_eq_ok.mp h
    obtain ⟨recorded, hrecorded, rfl⟩ := refreshRecord_ok hx
    exact .inl ⟨previous, recorded, rfl, Table.get?_key (List.mem_of_find?_eq_some hprevious),
      not_not.mp hfingerprint, hrecorded, h⟩
  | none =>
    simp only [hprevious] at h
    obtain ⟨gates, hgates, h⟩ := bind_eq_ok.mp h
    obtain ⟨subscriptions, hsubscriptions, h⟩ := bind_eq_ok.mp h
    exact .inr ⟨rfl, gates, subscriptions, hgates, hsubscriptions, h⟩

/-- A run as a method finds it. -/
structure Found (registry : DefinitionRegistry) (s : CiLabStore) (runId : Uuid) (record : RunRecord)
    (definition : PipelineDefinition) : Prop where
  id : record.id = runId
  row : s.runs.get? record.id = some record
  definition : definitionForRecord registry record = .ok definition

theorem found_of {runId : Uuid} {record : RunRecord} {definition : PipelineDefinition}
    (hrecord : s.requireRun runId = .ok record)
    (hdefinition : definitionForRecord registry record = .ok definition) :
    Found registry s runId record definition := by
  have hrecord := requireRun_eq_ok.mp hrecord
  obtain rfl : record.id = runId := Table.key_of_get? hrecord
  exact ⟨rfl, hrecord, hdefinition⟩

theorem get_ok {runId : Uuid} {view : RunView}
    (hcall : s.get setup registry runId now = .ok (s', view)) :
    ∃ record definition, Found registry s runId record definition
      ∧ (s.withCurrent setup definition now record).emitAndView setup
          (s.current setup definition now record).1 (s.current setup definition now record).2
          definition now now false = .ok (s', view) := by
  obtain ⟨record, hrecord, h⟩ := bind_eq_ok.mp hcall
  obtain ⟨definition, hdefinition, h⟩ := bind_eq_ok.mp h
  obtain ⟨x, hx, h⟩ := bind_eq_ok.mp h
  obtain ⟨definition', hsame, rfl⟩ := refreshRecord_ok hx
  obtain rfl := Except.ok.inj (hdefinition.symm.trans hsame)
  exact ⟨record, definition, found_of hrecord hdefinition, h⟩

/-- A cancellation finds the run cancelled, or cancels it. -/
theorem cancel_ok {runId : Uuid} {view : RunView}
    (hcall : s.cancel setup registry runId now = .ok (s', view)) :
    ∃ record definition, Found registry s runId record definition
      ∧ ((s.current setup definition now record).1.status = .cancelled
          ∧ (s.withCurrent setup definition now record).emitAndView setup
            (s.current setup definition now record).1 (s.current setup definition now record).2
            definition now now true = .ok (s', view)
        ∨ ¬ (s.current setup definition now record).1.status.isTerminal
          ∧ ∃ cancelledAt,
            cancelledAt = cancelInstant (s.current setup definition now record).2 now
            ∧ ((s.withCurrent setup definition now record).writeRun
                (cancelledRun definition cancelledAt (s.current setup definition now record).1)
                ((s.current setup definition now record).2.map
                  (cancelledGate cancelledAt))).emitAndView setup
              (cancelledRun definition cancelledAt (s.current setup definition now record).1)
              ((s.current setup definition now record).2.map (cancelledGate cancelledAt))
              definition cancelledAt now false = .ok (s', view)) := by
  obtain ⟨record, hrecord, h⟩ := bind_eq_ok.mp hcall
  obtain ⟨definition, hdefinition, h⟩ := bind_eq_ok.mp h
  obtain ⟨x, hx, h⟩ := bind_eq_ok.mp h
  obtain ⟨definition', hsame, rfl⟩ := refreshRecord_ok hx
  obtain rfl := Except.ok.inj (hdefinition.symm.trans hsame)
  refine ⟨record, definition, found_of hrecord hdefinition, ?_⟩
  split at h
  · next hcancelled => exact .inl ⟨hcancelled, h⟩
  · obtain ⟨hactive, h⟩ := refuse_bind_eq_ok.mp h
    exact .inr ⟨hactive, _, rfl, h⟩

/-- A decision was made before, or is made now. -/
theorem decideGate_ok {runId : Uuid} {request : GateDecisionRequest} {view : RunView}
    (hcall : s.decideGate setup registry runId request now = .ok (s', view)) :
    ∃ record definition gate, Found registry s runId record definition
      ∧ (s.current setup definition now record).2 = some gate
      ∧ ((∃ previous ∈ s.approvalsOf runId, previous.eventId = request.eventId)
          ∧ (s.withCurrent setup definition now record).emitAndView setup
            (s.current setup definition now record).1 (some gate) definition now now true
              = .ok (s', view)
        ∨ s.approvalsOf runId = [] ∧ gate.status = .waitingApproval
          ∧ ∃ decisionAt, decisionAt = cancelInstant (some gate) now
            ∧ (({ s.withCurrent setup definition now record with
                approvals := s.approvals.add (newApproval request runId decisionAt) } :
                  CiLabStore).writeRun
                (decidedRun request.decision decisionAt (s.current setup definition now record).1)
                (some (decidedGate request.decision decisionAt gate))).emitAndView setup
              (decidedRun request.decision decisionAt (s.current setup definition now record).1)
              (some (decidedGate request.decision decisionAt gate)) definition decisionAt now false
                = .ok (s', view)) := by
  obtain ⟨record, hrecord, h⟩ := bind_eq_ok.mp hcall
  obtain ⟨definition, hdefinition, h⟩ := bind_eq_ok.mp h
  obtain ⟨x, hx, h⟩ := bind_eq_ok.mp h
  obtain ⟨definition', hsame, rfl⟩ := refreshRecord_ok hx
  obtain rfl := Except.ok.inj (hdefinition.symm.trans hsame)
  obtain ⟨gate, hgate, h⟩ := bind_eq_ok.mp h
  refine ⟨record, definition, gate, found_of hrecord hdefinition, demand_eq_ok.mp hgate, ?_⟩
  cases hprevious : (s.approvalsOf runId).find? (·.eventId = request.eventId) with
  | some previous =>
    simp only [hprevious] at h
    obtain ⟨-, h⟩ := refuse_bind_eq_ok.mp h
    refine .inl ⟨⟨previous, List.mem_of_find?_eq_some hprevious, ?_⟩, h⟩
    simpa using List.find?_some hprevious
  | none =>
    simp only [hprevious] at h
    obtain ⟨hnone, h⟩ := refuse_bind_eq_ok.mp h
    obtain ⟨hwaiting, h⟩ := refuse_bind_eq_ok.mp h
    exact .inr ⟨not_not.mp hnone, not_not.mp hwaiting, _, rfl, h⟩

theorem trigger_served {definitionKey idempotencyKey : String} {request : TriggerRunRequest}
    {view : RunView}
    (h : s.trigger setup registry definitionKey request idempotencyKey now = .ok (s', view)) :
    Served setup registry now (.trigger definitionKey request idempotencyKey) s s' view := by
  obtain ⟨definition, hdefinition, hcase⟩ := trigger_ok h
  rcases hcase with ⟨previous, recorded, -, hrecord, -, hrecorded, h⟩
    | ⟨hprevious, gates, subscriptions, hgates, hsubscriptions, h⟩
  · exact (Written.refreshed hrecord hrecorded).served h
  · have hunused : ∀ r ∈ s.runs.rows, r.idempotencyKey ≠ idempotencyKey := by
      intro r hr
      simpa using List.find?_eq_none.mp hprevious r hr
    exact (Written.created hdefinition hunused hgates hsubscriptions).served h

theorem get_served {runId : Uuid} {view : RunView}
    (hcall : s.get setup registry runId now = .ok (s', view)) :
    Served setup registry now (.get runId) s s' view := by
  obtain ⟨record, definition, ⟨rfl, hrecord, hdefinition⟩, h⟩ := get_ok hcall
  exact (Written.refreshed hrecord hdefinition).served h

theorem cancel_served {runId : Uuid} {view : RunView}
    (hcall : s.cancel setup registry runId now = .ok (s', view)) :
    Served setup registry now (.cancel runId) s s' view := by
  obtain ⟨record, definition, ⟨rfl, hrecord, hdefinition⟩, hcase⟩ := cancel_ok hcall
  rcases hcase with ⟨-, h⟩ | ⟨hactive, cancelledAt, -, h⟩
  · exact (Written.refreshed hrecord hdefinition).served h
  · exact (Written.cancelled hrecord hdefinition hactive).served h

theorem decideGate_served {runId : Uuid} {request : GateDecisionRequest} {view : RunView}
    (hcall : s.decideGate setup registry runId request now = .ok (s', view)) :
    Served setup registry now (.decideGate runId request) s s' view := by
  obtain ⟨record, definition, gate, ⟨rfl, hrecord, hdefinition⟩, hgate, hcase⟩ :=
    decideGate_ok hcall
  rcases hcase with ⟨-, h⟩ | ⟨hnone, hwaiting, decisionAt, -, h⟩
  · rw [← hgate] at h
    exact (Written.refreshed hrecord hdefinition).served h
  · exact (Written.decided hrecord hdefinition hgate hnone hwaiting).served h

/-! ## The rows that are written -/

/-- A refreshed run keeps its number. -/
theorem refreshed_id (definition : PipelineDefinition) (record : RunRecord)
    (gate : Option QualityGateRecord) :
    (refreshed setup definition now record gate).1.id = record.id := by
  unfold refreshed
  split
  · rfl
  split
  · dsimp only
    unfold pausedRun
    split <;> rfl
  · dsimp only
    unfold observedRun
    split <;> rfl

/-- A refreshed gate keeps its number, too. -/
theorem refreshed_runId (definition : PipelineDefinition) (record : RunRecord)
    (gate : Option QualityGateRecord) :
    (refreshed setup definition now record gate).2.map (·.runId) = gate.map (·.runId) := by
  unfold refreshed
  split
  · rfl
  split
  · rfl
  · cases gate with
    | none => rfl
    | some g =>
      show some (observedGate _ _ _ _).runId = some g.runId
      unfold observedGate
      split
      · rfl
      · split <;> rfl

/-- A gate is written for a run that has one, and no other. -/
def GateOf (s : CiLabStore) (runId : Uuid) (gate : Option QualityGateRecord) : Prop :=
  gate.map (·.runId) = (s.gates.get? runId).map (·.runId)

theorem GateOf.runId {runId : Uuid} {g : QualityGateRecord} (h : s.GateOf runId (some g)) :
    g.runId = runId ∧ ∃ old, s.gates.get? runId = some old := by
  obtain ⟨old, hold, hsame⟩ := Option.map_eq_some_iff.mp (Eq.symm h)
  have hkey : old.runId = runId := Table.key_of_get? hold
  exact ⟨hsame.symm.trans hkey, old, hold⟩

theorem writeRun_row {record : RunRecord} (hrecord : s.runs.get? run.id = some record)
    (hgate : s.GateOf run.id gate) :
    (s.writeRun run gate).runs.get? run.id = some run
      ∧ (s.writeRun run gate).gates.get? run.id = gate := by
  refine ⟨Table.get?_put_self hrecord rfl, ?_⟩
  cases gate with
  | none => exact Option.map_eq_none_iff.mp (Eq.symm hgate)
  | some g =>
    obtain ⟨hkey, old, hold⟩ := hgate.runId
    exact Table.get?_put_self hold hkey

theorem writeRun_others {k : Uuid} (hgate : s.GateOf run.id gate) (hk : k ≠ run.id) :
    (s.writeRun run gate).runs.get? k = s.runs.get? k
      ∧ (s.writeRun run gate).gates.get? k = s.gates.get? k := by
  refine ⟨Table.get?_put_of_ne fun he => hk he.symm, ?_⟩
  cases gate with
  | none => rfl
  | some g =>
    obtain ⟨hkey, -⟩ := hgate.runId
    exact Table.get?_put_of_ne fun he => hk (he.symm.trans hkey)

section
variable {definition : PipelineDefinition} {record : RunRecord}

theorem current_id : (s.current setup definition now record).1.id = record.id :=
  refreshed_id definition record _

theorem current_gateOf :
    s.GateOf (s.current setup definition now record).1.id
      (s.current setup definition now record).2 := by
  rw [current_id]
  exact refreshed_runId definition record _

theorem withCurrent_row (hrecord : s.runs.get? record.id = some record) :
    (s.withCurrent setup definition now record).runs.get? record.id
        = some (s.current setup definition now record).1
      ∧ (s.withCurrent setup definition now record).gates.get? record.id
        = (s.current setup definition now record).2 := by
  have hid : (s.current setup definition now record).1.id = record.id := current_id
  have hrow : _ ∧ _ := writeRun_row (s := s) (hid.symm ▸ hrecord) current_gateOf
  rw [hid] at hrow
  exact hrow

theorem withCurrent_others {k : Uuid} (hk : k ≠ record.id) :
    (s.withCurrent setup definition now record).runs.get? k = s.runs.get? k
      ∧ (s.withCurrent setup definition now record).gates.get? k = s.gates.get? k :=
  writeRun_others current_gateOf (by rw [current_id]; exact hk)

/-- A gate made of the refreshed one. -/
theorem gateOf_current (hrecord : s.runs.get? record.id = some record)
    (hgates : s₁.gates = (s.withCurrent setup definition now record).gates)
    (hid : run.id = record.id)
    (hgate : gate.map (·.runId) = (s.current setup definition now record).2.map (·.runId)) :
    s₁.GateOf run.id gate := by
  unfold GateOf
  rw [hid, hgates, (withCurrent_row hrecord).2]
  exact hgate

/-- A refreshed run and its gate are written once more. -/
theorem rewritten_row (hrecord : s.runs.get? record.id = some record)
    (hruns : s₁.runs = (s.withCurrent setup definition now record).runs)
    (hgates : s₁.gates = (s.withCurrent setup definition now record).gates)
    (hid : run.id = record.id)
    (hgate : gate.map (·.runId) = (s.current setup definition now record).2.map (·.runId)) :
    (s₁.writeRun run gate).runs.get? run.id = some run
      ∧ (s₁.writeRun run gate).gates.get? run.id = gate := by
  have hrun : s₁.runs.get? run.id = some (s.current setup definition now record).1 := by
    rw [hid, hruns]
    exact (withCurrent_row hrecord).1
  exact writeRun_row hrun (gateOf_current hrecord hgates hid hgate)

theorem rewritten_others {k : Uuid} (hrecord : s.runs.get? record.id = some record)
    (hruns : s₁.runs = (s.withCurrent setup definition now record).runs)
    (hgates : s₁.gates = (s.withCurrent setup definition now record).gates)
    (hid : run.id = record.id)
    (hgate : gate.map (·.runId) = (s.current setup definition now record).2.map (·.runId))
    (hk : k ≠ run.id) :
    (s₁.writeRun run gate).runs.get? k = s.runs.get? k
      ∧ (s₁.writeRun run gate).gates.get? k = s.gates.get? k := by
  obtain ⟨hsame, hsameGate⟩ := writeRun_others (gateOf_current hrecord hgates hid hgate) hk
  rw [hruns] at hsame
  rw [hgates] at hsameGate
  rw [hid] at hk
  obtain ⟨hrun, hgate⟩ := withCurrent_others hk
  exact ⟨hsame.trans hrun, hsameGate.trans hgate⟩

end

theorem insertRow_get? {ρ : Type} [Keyed ρ] {t t' : Table ρ} {row : Option ρ} {id : Nat}
    (h : insertRow t row = .ok t') (hrow : ∀ r ∈ row, key r = id) :
    (∀ k, k ≠ id → t'.get? k = t.get? k) ∧ (t.get? id = none → t'.get? id = row) := by
  cases row with
  | none =>
    obtain rfl := Except.ok.inj h
    exact ⟨fun _ _ => rfl, fun hnone => hnone⟩
  | some r =>
    have hkey : key r = id := hrow r rfl
    obtain ht := demand_eq_ok.mp h
    refine ⟨fun k hk => ?_, fun _ => ?_⟩
    · rw [(Table.get?_insert? ht k).2, if_neg fun he => hk (he.symm.trans hkey)]
    · rw [(Table.get?_insert? ht id).2, if_pos hkey]

theorem newGate_key {definition : PipelineDefinition} {runId : Uuid} :
    ∀ g ∈ newGate definition now runId, key g = runId := by
  intro g hg
  obtain ⟨policyRevision, -, rfl⟩ := Option.map_eq_some_iff.mp hg
  rfl

theorem newSubscription_key {request : TriggerRunRequest} {runId : Uuid} :
    ∀ r ∈ newSubscription request now runId, key r = runId := by
  intro r hr
  obtain ⟨connectionId, -, rfl⟩ := Option.map_eq_some_iff.mp hr
  rfl

/-- Gates and approvals are of runs that there are. -/
structure Known (s : CiLabStore) : Prop where
  gates : ∀ k, s.runs.get? k = none → s.gates.get? k = none
  approvals : ∀ k, s.runs.get? k = none → s.approvalsOf k = []

section
variable {call : Call} {emittedAt : Instant}

/-- The run and its gate are in the store as they were written. -/
theorem Written.row (h : Written setup registry s now call s₁ run gate emittedAt) (hs : s.Known) :
    s₁.runs.get? run.id = some run ∧ s₁.gates.get? run.id = gate := by
  cases h with
  | created hdefinition hunused hgates hsubscriptions =>
    refine ⟨?_, (insertRow_get? hgates newGate_key).2 (hs.gates _ s.runs.get?_next)⟩
    exact (Table.get?_add _ _ (fun _ => rfl) _).trans (if_pos rfl)
  | refreshed hrecord hdefinition =>
    rw [current_id]
    exact withCurrent_row hrecord
  | cancelled hrecord hdefinition hactive =>
    refine rewritten_row hrecord rfl rfl current_id ?_
    rw [Option.map_map]
    rfl
  | decided hrecord hdefinition hgate hnone hwaiting =>
    refine rewritten_row hrecord rfl rfl current_id ?_
    rw [hgate]
    rfl

/-- The rows of the other runs are as before. -/
theorem Written.others (h : Written setup registry s now call s₁ run gate emittedAt) {k : Uuid}
    (hk : k ≠ run.id) :
    s₁.runs.get? k = s.runs.get? k ∧ s₁.gates.get? k = s.gates.get? k
      ∧ s₁.approvalsOf k = s.approvalsOf k ∧ s₁.subscriptions.get? k = s.subscriptions.get? k := by
  cases h with
  | created hdefinition hunused hgates hsubscriptions =>
    refine ⟨?_, (insertRow_get? hgates newGate_key).1 k hk, rfl,
      (insertRow_get? hsubscriptions newSubscription_key).1 k hk⟩
    exact (Table.get?_add _ _ (fun _ => rfl) _).trans (if_neg fun he => hk he.symm)
  | refreshed hrecord hdefinition =>
    rw [current_id] at hk
    obtain ⟨hrun, hgate⟩ := withCurrent_others (s := s) hk
    exact ⟨hrun, hgate, rfl, rfl⟩
  | cancelled hrecord hdefinition hactive =>
    refine and_assoc.mp ⟨rewritten_others hrecord rfl rfl current_id ?_ hk, rfl, rfl⟩
    rw [Option.map_map]
    rfl
  | @decided record definition request gate decisionAt hrecord hdefinition hgate hnone hwaiting =>
    have hid : (s.current setup definition now record).1.id = record.id := current_id
    have hne : record.id ≠ k := fun he => hk (hid.trans he).symm
    have happrovals :
      (s.approvals.rows ++ [newApproval request record.id emittedAt s.approvals.next]).filter
        (·.runId = k) = s.approvalsOf k := by
      rw [List.filter_append]
      simp [approvalsOf, newApproval, hne]
    refine and_assoc.mp ⟨rewritten_others hrecord rfl rfl current_id ?_ hk, happrovals, rfl⟩
    rw [hgate]
    rfl

end

/-! ## A pass over the runs -/

theorem advanceOne_round {call : Call} {record : RunRecord} {emitted : Bool}
    (hrecord : s.runs.get? record.id = some record)
    (h : s.advanceOne setup registry now record = .ok (s', emitted)) :
    Round setup registry now call s s' := by
  obtain ⟨x, hx, h⟩ := bind_eq_ok.mp h
  obtain ⟨definition, hdefinition, rfl⟩ := refreshRecord_ok hx
  exact ⟨_, _, _, now, emitted, .refreshed hrecord hdefinition, h⟩

/-- The store with one more delivery. -/
def withDelivery (setup : Setup) (s : CiLabStore) (subscription : SubscriptionRecord)
    (run : RunRecord) (gate : Option QualityGateRecord) (now : Instant) : CiLabStore :=
  { s with
    deliveries := s.deliveries.add
      (newDelivery setup subscription run (publicRunStatus run gate)
        ((s.latestDelivery run.id).elim 1 (·.sequence + 1))
        (occurredAt run gate (s.latestDelivery run.id) now) now) }

/-- There is nobody to tell, or nothing that has not been told. -/
def Quiet (s : CiLabStore) (run : RunRecord) (gate : Option QualityGateRecord) : Prop :=
  s.subscriptions.get? run.id = none
    ∨ Told (s.latestDelivery run.id) (publicRunStatus run gate) run.message

theorem enqueue_ok {emitted : Bool}
    (h : s.enqueueWebhookIfChanged setup run gate now = .ok (s', emitted)) :
    s' = s ∧ s.Quiet run gate
      ∨ ∃ subscription, s.subscriptions.get? run.id = some subscription ∧ ¬ s.Quiet run gate
          ∧ s' = s.withDelivery setup subscription run gate now := by
  unfold enqueueWebhookIfChanged at h
  split at h
  · next hnone =>
    obtain ⟨rfl, -⟩ := Prod.mk.inj (pure_eq_ok.mp h)
    exact .inl ⟨rfl, .inl hnone⟩
  next subscription hsubscription =>
  dsimp only at h
  split at h
  · next htold =>
    obtain ⟨rfl, -⟩ := Prod.mk.inj (pure_eq_ok.mp h)
    exact .inl ⟨rfl, .inr htold⟩
  next htold =>
  obtain ⟨-, h⟩ := refuse_bind_eq_ok.mp h
  obtain ⟨-, h⟩ := refuse_bind_eq_ok.mp h
  obtain ⟨rfl, -⟩ := Prod.mk.inj (pure_eq_ok.mp h)
  refine .inr ⟨subscription, hsubscription, fun hquiet => ?_, rfl⟩
  rcases hquiet with hnone | htold'
  · rw [hsubscription] at hnone
    simp at hnone
  · exact htold htold'

/-- Emitting touches the deliveries only. -/
theorem enqueue_runs {emitted : Bool}
    (h : s.enqueueWebhookIfChanged setup run gate now = .ok (s', emitted)) :
    s'.runs = s.runs ∧ s'.gates = s.gates ∧ s'.approvals = s.approvals
      ∧ s'.subscriptions = s.subscriptions := by
  rcases enqueue_ok h with ⟨rfl, -⟩ | ⟨subscription, -, -, rfl⟩
  · exact ⟨rfl, rfl, rfl, rfl⟩
  · exact ⟨rfl, rfl, rfl, rfl⟩

/-- A round leaves the other runs as they are. -/
theorem advanceOne_others {record : RunRecord} {emitted : Bool} {k : Uuid}
    (h : s.advanceOne setup registry now record = .ok (s', emitted)) (hk : k ≠ record.id) :
    s'.runs.get? k = s.runs.get? k := by
  obtain ⟨x, hx, h⟩ := bind_eq_ok.mp h
  obtain ⟨definition, -, rfl⟩ := refreshRecord_ok hx
  obtain ⟨hruns, -⟩ := enqueue_runs h
  rw [hruns]
  refine Table.get?_put_of_ne ?_
  show (refreshed setup definition now record _).1.id ≠ k
  rw [refreshed_id]
  exact fun he => hk he.symm

theorem advanceAll_rounds {call : Call} {records : List RunRecord} {created : Nat}
    (hnodup : (records.map (·.id)).Nodup)
    (hrecords : ∀ r ∈ records, s.runs.get? r.id = some r)
    (h : s.advanceAll setup registry now records = .ok (s', created)) :
    Relation.ReflTransGen (Round setup registry now call) s s' := by
  induction records generalizing s created with
  | nil =>
    obtain ⟨rfl, -⟩ := Prod.mk.inj (pure_eq_ok.mp h)
    exact .refl
  | cons record records ih =>
    obtain ⟨⟨s₂, emitted⟩, hone, h⟩ := bind_eq_ok.mp h
    obtain ⟨⟨s₃, rest⟩, hrest, h⟩ := bind_eq_ok.mp h
    obtain ⟨rfl, -⟩ := Prod.mk.inj (pure_eq_ok.mp h)
    rw [List.map_cons, List.nodup_cons] at hnodup
    obtain ⟨hfresh, hnodup⟩ := hnodup
    have hround : Round setup registry now call s s₂ :=
      advanceOne_round (hrecords record List.mem_cons_self) hone
    -- the rounds so far were about other runs, so the rest is still as it was selected
    have hkept : ∀ r ∈ records, s₂.runs.get? r.id = some r := by
      intro r hr
      have hne : r.id ≠ record.id := by
        intro he
        rw [← he] at hfresh
        exact hfresh (List.mem_map_of_mem hr)
      rw [advanceOne_others hone hne]
      exact hrecords r (List.mem_cons_of_mem _ hr)
    exact (ih hnodup hkept hrest).head hround

theorem advanceBatch_nodup (s : CiLabStore) (limit : Nat) :
    ((s.advanceBatch limit).map (·.id)).Nodup := by
  have hrows : ((s.runs.rows.filter s.Advanceable).map (·.id)).Nodup :=
    s.runs.nodup.sublist (List.filter_sublist.map _)
  have hsorted := ((List.perm_insertionSort
    (fun r r' : RunRecord => columnsLe [r.createdAt, r.id] [r'.createdAt, r'.id] = true)
    (s.runs.rows.filter s.Advanceable)).map (·.id)).nodup_iff.mpr hrows
  exact hsorted.sublist ((List.take_sublist _ _).map _)

theorem mem_advanceBatch {limit : Nat} {record : RunRecord} (h : record ∈ s.advanceBatch limit) :
    record ∈ s.runs.rows ∧ s.Advanceable record := by
  have hsorted := List.mem_of_mem_take h
  rw [List.mem_insertionSort] at hsorted
  simpa using hsorted

theorem advance_rounds {call : Call} {limit created : Nat}
    (h : s.advanceWebhookRunsOnce setup registry limit now = .ok (s', created)) :
    Relation.ReflTransGen (Round setup registry now call) s s' := by
  obtain ⟨-, h⟩ := refuse_bind_eq_ok.mp h
  refine advanceAll_rounds (s.advanceBatch_nodup limit) (fun r hr => ?_) h
  exact Table.get?_key (mem_advanceBatch hr).1

/-! ## Rows of the outbox -/

/-- What a method makes of a delivery's row. -/
inductive RowMove (s : CiLabStore) (now : Instant) (r : WebhookDeliveryRecord) :
    Call → WebhookDeliveryRecord → Prop where
  | claimed {workerId leaseToken : String} {leaseSeconds : Int} (h : s.ClaimableDelivery now r) :
      RowMove s now r (.claimWebhookDelivery workerId leaseSeconds leaseToken)
        (r.claimed (strip workerId) leaseToken leaseSeconds now)
  | corrupted {workerId leaseToken : String} {leaseSeconds : Int} (h : s.ClaimableDelivery now r) :
      RowMove s now r (.claimWebhookDelivery workerId leaseSeconds leaseToken)
        (r.deadLettered "payload_integrity_error" now)
  | completed {claimed : ClaimedWebhookDelivery} (hid : claimed.id = r.id)
      (h : r.HeldBy claimed now) :
      RowMove s now r (.completeWebhookDelivery claimed) (r.completed now)
  | failed {claimed : ClaimedWebhookDelivery} {errorCode : String} {retryable shouldRetry : Bool}
      (hid : claimed.id = r.id) (h : r.HeldBy claimed now)
      (hretry : shouldRetry = true → r.attempts < r.maxAttempts) :
      RowMove s now r (.failWebhookDelivery claimed errorCode retryable)
        (r.failed errorCode shouldRetry now)
  | expired {workerId leaseToken : String} {leaseSeconds : Int} (h : r.Exhausted now) :
      RowMove s now r (.claimWebhookDelivery workerId leaseSeconds leaseToken)
        (r.deadLettered "lease_expired" now)
  | retried (h : r.status = .deadLetter) :
      RowMove s now r (.retryWebhookDelivery r.id) (r.retried now)

/-- The rows of the outbox are rewritten, and nothing else is. -/
structure Rewrites (now : Instant) (call : Call) (s s' : CiLabStore) : Prop where
  rows : ∃ f, s'.deliveries.rows = s.deliveries.rows.map f
    ∧ ∀ r ∈ s.deliveries.rows, f r = r ∨ RowMove s now r call (f r)
  runs : s'.runs = s.runs
  gates : s'.gates = s.gates
  approvals : s'.approvals = s.approvals
  subscriptions : s'.subscriptions = s.subscriptions

/-- The arguments that a claim is made with are accepted. -/
def ClaimAccepted (workerId : String) (leaseSeconds : Int) : Prop :=
  isWorkerId (strip workerId) = true ∧ 5 ≤ leaseSeconds ∧ leaseSeconds ≤ 300

instance (workerId : String) (leaseSeconds : Int) :
    Decidable (ClaimAccepted workerId leaseSeconds) := by
  unfold ClaimAccepted
  infer_instance

/-- The parts that transactions are made of. -/
inductive Step (setup : Setup) (registry : DefinitionRegistry) (now : Instant) (call : Call)
    (s s' : CiLabStore) : Prop where
  | round (h : Round setup registry now call s s')
  | rewrites (h : Rewrites now call s s')

/-- One row is rewritten. -/
theorem Rewrites.moved {call : Call} {r r' : WebhookDeliveryRecord}
    (hr : s.deliveries.get? r.id = some r) (h : RowMove s now r call r') (hid : r'.id = r.id) :
    Rewrites now call s { s with deliveries := s.deliveries.put r' } := by
  refine ⟨⟨fun x => if key x = key r' then r' else x, rfl, fun x hx => ?_⟩, rfl, rfl, rfl, rfl⟩
  dsimp only
  by_cases hk : key x = key r'
  · have hsame : some x = some r := by
      rw [← hr, ← hid]
      exact (Table.get?_key hx).symm.trans (by rw [hk]; rfl)
    rw [if_pos hk, Option.some.inj hsame]
    exact .inr h
  · rw [if_neg hk]
    exact .inl rfl

theorem Rewrites.swept {workerId leaseToken : String} {leaseSeconds : Int} :
    Rewrites now (.claimWebhookDelivery workerId leaseSeconds leaseToken) s
      (s.expireExhausted now) := by
  refine ⟨⟨_, rfl, fun x hx => ?_⟩, rfl, rfl, rfl, rfl⟩
  by_cases h : x.Exhausted now
  · rw [if_pos h]
    exact .inr (.expired h)
  · rw [if_neg h]
    exact .inl rfl

theorem Step.moved {call : Call} {r r' : WebhookDeliveryRecord}
    (hr : s.deliveries.get? r.id = some r) (h : RowMove s now r call r') (hid : r'.id = r.id) :
    Step setup registry now call s { s with deliveries := s.deliveries.put r' } :=
  .rewrites (.moved hr h hid)

theorem deliveryCandidate_spec {r : WebhookDeliveryRecord} (h : s.deliveryCandidate now = some r) :
    s.deliveries.get? r.id = some r ∧ s.ClaimableDelivery now r := by
  have hmem := mem_of_firstBy h
  rw [List.mem_filter] at hmem
  exact ⟨Table.get?_key hmem.1, by simpa using hmem.2⟩

theorem claimWebhookDelivery_eq_ok {workerId leaseToken : String} {leaseSeconds : Int}
    {x : CiLabStore × Option ClaimedWebhookDelivery} :
    s.claimWebhookDelivery workerId leaseSeconds leaseToken now = .ok x
      ↔ ClaimAccepted workerId leaseSeconds
        ∧ x = (s.expireExhausted now).claimCandidate
          (strip workerId) leaseToken leaseSeconds now := by
  constructor
  · intro h
    obtain ⟨hworker, h⟩ := refuse_bind_eq_ok.mp h
    obtain ⟨hlease, h⟩ := refuse_bind_eq_ok.mp h
    exact ⟨⟨by simpa using hworker, not_not.mp hlease⟩, (pure_eq_ok.mp h).symm⟩
  · rintro ⟨⟨hworker, hlease⟩, rfl⟩
    exact refuse_bind_eq_ok.mpr ⟨by simp [hworker], refuse_bind_eq_ok.mpr ⟨not_not.mpr hlease, rfl⟩⟩

/-- A claim's steps, after those that ran out are swept. -/
theorem claimCandidate_steps (workerId leaseToken : String) (leaseSeconds : Int) :
    Relation.ReflTransGen (Step setup registry now
        (.claimWebhookDelivery workerId leaseSeconds leaseToken)) s
      (s.claimCandidate (strip workerId) leaseToken leaseSeconds now).1 := by
  unfold claimCandidate
  split
  · exact .refl
  · next r hr =>
    obtain ⟨hr, hclaimable⟩ := deliveryCandidate_spec hr
    split
    · exact .single (.moved hr (.claimed hclaimable) rfl)
    · exact .single (.moved hr (.corrupted hclaimable) rfl)

theorem claim_steps {workerId leaseToken : String} {leaseSeconds : Int}
    {claimed : Option ClaimedWebhookDelivery}
    (h : s.claimWebhookDelivery workerId leaseSeconds leaseToken now = .ok (s', claimed)) :
    Relation.ReflTransGen (Step setup registry now
      (.claimWebhookDelivery workerId leaseSeconds leaseToken)) s s' := by
  obtain ⟨-, hx⟩ := claimWebhookDelivery_eq_ok.mp h
  have hs : s' = ((s.expireExhausted now).claimCandidate (strip workerId) leaseToken leaseSeconds
      now).1 := congrArg Prod.fst hx
  rw [hs]
  exact .head (.rewrites .swept) (claimCandidate_steps workerId leaseToken leaseSeconds)

theorem requireWebhookDeliveryLease_eq_ok {claimed : ClaimedWebhookDelivery}
    {r : WebhookDeliveryRecord} :
    s.requireWebhookDeliveryLease claimed now = .ok r
      ↔ s.deliveries.get? claimed.id = some r ∧ r.HeldBy claimed now := by
  unfold requireWebhookDeliveryLease
  rw [bind_eq_ok]
  constructor
  · rintro ⟨record, hrecord, h⟩
    obtain ⟨hheld, h⟩ := refuse_bind_eq_ok.mp h
    obtain rfl := pure_eq_ok.mp h
    exact ⟨demand_eq_ok.mp hrecord, not_not.mp hheld⟩
  · rintro ⟨hr, hheld⟩
    exact ⟨r, demand_eq_ok.mpr hr, refuse_bind_eq_ok.mpr ⟨not_not.mpr hheld, rfl⟩⟩

theorem complete_steps {claimed : ClaimedWebhookDelivery} {r : WebhookDeliveryRecord}
    (h : s.completeWebhookDelivery claimed now = .ok (s', r)) :
    Relation.ReflTransGen (Step setup registry now (.completeWebhookDelivery claimed)) s s' := by
  obtain ⟨record, hrecord, h⟩ := bind_eq_ok.mp h
  obtain ⟨hr, hheld⟩ := requireWebhookDeliveryLease_eq_ok.mp hrecord
  obtain ⟨rfl, -⟩ := Prod.mk.inj (pure_eq_ok.mp h)
  have hid : record.id = claimed.id := Table.key_of_get? hr
  exact .single (.moved (hid ▸ hr) (.completed hid.symm hheld) rfl)

theorem fail_steps {claimed : ClaimedWebhookDelivery} {errorCode : String} {retryable : Bool}
    {r : WebhookDeliveryRecord}
    (h : s.failWebhookDelivery claimed errorCode retryable now = .ok (s', r)) :
    Relation.ReflTransGen (Step setup registry now
      (.failWebhookDelivery claimed errorCode retryable)) s s' := by
  obtain ⟨-, h⟩ := refuse_bind_eq_ok.mp h
  obtain ⟨record, hrecord, h⟩ := bind_eq_ok.mp h
  obtain ⟨hr, hheld⟩ := requireWebhookDeliveryLease_eq_ok.mp hrecord
  obtain ⟨rfl, -⟩ := Prod.mk.inj (pure_eq_ok.mp h)
  have hid : record.id = claimed.id := Table.key_of_get? hr
  refine .single (.moved (hid ▸ hr) (.failed hid.symm hheld fun hretry => ?_) rfl)
  simp only [Bool.and_eq_true, decide_eq_true_eq] at hretry
  exact hretry.2

theorem retry_steps {deliveryId : Uuid} {r : WebhookDeliveryRecord}
    (h : s.retryWebhookDelivery deliveryId now = .ok (s', r)) :
    Relation.ReflTransGen (Step setup registry now (.retryWebhookDelivery deliveryId)) s s' := by
  obtain ⟨record, hrecord, h⟩ := bind_eq_ok.mp h
  have hr := demand_eq_ok.mp hrecord
  split at h
  · obtain ⟨rfl, -⟩ := Prod.mk.inj (pure_eq_ok.mp h)
    exact .refl
  · obtain ⟨hdead, h⟩ := refuse_bind_eq_ok.mp h
    obtain ⟨rfl, -⟩ := Prod.mk.inj (pure_eq_ok.mp h)
    obtain rfl : record.id = deliveryId := Table.key_of_get? hr
    exact .single (.moved hr (.retried (not_not.mp hdead)) rfl)

/-! ## Transactions -/

theorem Served.steps {call : Call} {view : RunView}
    (h : Served setup registry now call s s' view) :
    Relation.ReflTransGen (Step setup registry now call) s s' :=
  .single (.round h.round)

theorem call_steps {call : Call} (hcall : s.call setup registry now call = .ok s') :
    Relation.ReflTransGen (Step setup registry now call) s s' := by
  cases call with
  | trigger definitionKey request idempotencyKey =>
    obtain ⟨⟨s', view⟩, h, rfl⟩ := map_eq_ok.mp hcall
    exact (trigger_served h).steps
  | get runId =>
    obtain ⟨⟨s', view⟩, h, rfl⟩ := map_eq_ok.mp hcall
    exact (get_served h).steps
  | cancel runId =>
    obtain ⟨⟨s', view⟩, h, rfl⟩ := map_eq_ok.mp hcall
    exact (cancel_served h).steps
  | decideGate runId request =>
    obtain ⟨⟨s', view⟩, h, rfl⟩ := map_eq_ok.mp hcall
    exact (decideGate_served h).steps
  | advanceWebhookRunsOnce limit =>
    obtain ⟨⟨s', created⟩, h, rfl⟩ := map_eq_ok.mp hcall
    exact (advance_rounds h).lift id fun _ _ h => Step.round h
  | claimWebhookDelivery workerId leaseSeconds leaseToken =>
    obtain ⟨⟨s', claimed⟩, h, rfl⟩ := map_eq_ok.mp hcall
    exact claim_steps h
  | completeWebhookDelivery claimed =>
    obtain ⟨⟨s', r⟩, h, rfl⟩ := map_eq_ok.mp hcall
    exact complete_steps h
  | failWebhookDelivery claimed errorCode retryable =>
    obtain ⟨⟨s', r⟩, h, rfl⟩ := map_eq_ok.mp hcall
    exact fail_steps h
  | retryWebhookDelivery deliveryId =>
    obtain ⟨⟨s', r⟩, h, rfl⟩ := map_eq_ok.mp hcall
    exact retry_steps h

/-- A call that raises changes nothing. -/
theorem step_error {e : Event} {error : CiLabError}
    (h : s.call setup e.registry e.now e.call = .error error) : s.step setup e = s := by
  unfold step
  rw [h]
  rfl

theorem step_ok {e : Event} (h : s.call setup e.registry e.now e.call = .ok s') :
    s.step setup e = s' := by
  unfold step
  rw [h]
  rfl

/-- What every part of a transaction preserves is preserved by transactions. -/
theorem step_rel {R : CiLabStore → CiLabStore → Prop} (hrefl : ∀ s, R s s)
    (htrans : ∀ {a b c}, R a b → R b c → R a c) {e : Event}
    (hstep : ∀ {a b}, Step setup e.registry e.now e.call a b → R a b) (s : CiLabStore) :
    R s (s.step setup e) := by
  cases h : s.call setup e.registry e.now e.call with
  | error error =>
    rw [step_error h]
    exact hrefl s
  | ok s' =>
    rw [step_ok h]
    have hsteps := call_steps h
    clear h
    induction hsteps with
    | refl => exact hrefl s
    | tail _ hlast ih => exact htrans ih (hstep hlast)

theorem step_invariant {I : CiLabStore → Prop} {e : Event}
    (hstep : ∀ {a b}, I a → Step setup e.registry e.now e.call a b → I b) (hs : I s) :
    I (s.step setup e) :=
  step_rel (R := fun a b => I a → I b) (fun _ h => h) (fun hab hbc h => hbc (hab h))
    (fun h ha => hstep ha h) s hs

end QaPlatform.CiLab.CiLabStore
