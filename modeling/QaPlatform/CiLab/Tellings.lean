import Mathlib.Data.List.Chain
import QaPlatform.CiLab.Outbox
import QaPlatform.CiLab.RunMachine

/-!
# What CI Lab tells

A subscribed run's latest delivery says what anybody who asks for the run is shown.
Runs and gates are written by `Written` only, and every round ends with the delivery
for what was written, so there is no state in which a change has not been told.

`Telling` is the invariant: for every subscribed run the latest delivery says what a view of the
run would show. The last part of the module says the same about the rows without the words of
the source, for the delivery with the highest number, so that `told_of_runs` can be read without
knowing how the latest delivery is looked up.
-/

namespace QaPlatform.CiLab.CiLabStore

open QaPlatform.Transition

variable {setup : Setup} {registry : DefinitionRegistry} {s s' s₁ : CiLabStore} {now : Instant}
  {run : RunRecord} {gate : Option QualityGateRecord} {call : Call} {emittedAt : Instant}

/-- What a delivery says of its run. -/
def said (r : WebhookDeliveryRecord) : RunStatus × Option String := (r.normalizedStatus, r.message)

/-- What a run is shown as. -/
def shown (run : RunRecord) (gate : Option QualityGateRecord) : RunStatus × Option String :=
  (publicRunStatus run gate, run.message)

/-- What the receivers have been told agrees with what the store shows. -/
structure Telling (s : CiLabStore) : Prop extends Known s where
  numbered : s.Numbered
  /-- The latest delivery says what is shown. -/
  latest : ∀ {k run}, s.runs.get? k = some run → (s.subscriptions.get? k).isSome →
    ((s.deliveriesOf k).map said).getLast? = some (shown run (s.gates.get? k))
  occurred : ∀ k, ((s.deliveriesOf k).map (·.occurredAt)).IsChain (· ≤ ·)
  /-- Nothing is told twice in a row. -/
  differ : ∀ k, ((s.deliveriesOf k).map said).IsChain (· ≠ ·)

theorem empty_telling : empty.Telling where
  gates _ _ := rfl
  approvals _ _ := rfl
  numbered _ := rfl
  latest h := by cases h
  occurred _ := List.isChain_nil
  differ _ := List.isChain_nil

/-! ## Rounds -/

theorem told_iff (hnumbered : s.Numbered) :
    Told (s.latestDelivery run.id) (publicRunStatus run gate) run.message
      ↔ ((s.deliveriesOf run.id).map said).getLast? = some (shown run gate) := by
  unfold Told
  rw [hnumbered.latestDelivery, List.getLast?_map]
  cases (s.deliveriesOf run.id).getLast? with
  | none => simp
  | some latest => simp [said, shown]

/-- A new delivery is not of an earlier instant. -/
theorem le_occurredAt {latest : WebhookDeliveryRecord} :
    latest.occurredAt ≤ occurredAt run gate (some latest) now := by
  unfold occurredAt
  exact Int.le_trans (Int.le_max_right _ _) (Int.le_max_left _ _)

/-- What the deliveries are after a round's emission. -/
theorem Telling.enqueue (hs : s.Telling) (hs₁ : s₁.deliveries = s.deliveries) (hknown : s₁.Known)
    (hrow : s₁.runs.get? run.id = some run ∧ s₁.gates.get? run.id = gate)
    (hothers : ∀ k, k ≠ run.id → s₁.runs.get? k = s.runs.get? k ∧ s₁.gates.get? k = s.gates.get? k
      ∧ s₁.subscriptions.get? k = s.subscriptions.get? k)
    {emitted : Bool} (h : s₁.enqueueWebhookIfChanged setup run gate emittedAt = .ok (s', emitted)) :
    s'.Telling := by
  have hof (k : Uuid) : s₁.deliveriesOf k = s.deliveriesOf k := by
    unfold deliveriesOf
    rw [hs₁]
  have hnumbered : s₁.Numbered := by
    intro k
    rw [hof k]
    exact hs.numbered k
  have hlatest {k : Uuid} {r : RunRecord} (hk : k ≠ run.id) (hr : s₁.runs.get? k = some r)
      (hsub : (s₁.subscriptions.get? k).isSome) :
      ((s₁.deliveriesOf k).map said).getLast? = some (shown r (s₁.gates.get? k)) := by
    obtain ⟨hrun, hgate, hsubscription⟩ := hothers k hk
    rw [hof k, hgate]
    exact hs.latest (hrun ▸ hr) (hsubscription ▸ hsub)
  rcases enqueue_ok h with ⟨rfl, hquiet⟩ | ⟨subscription, hsubscription, hnew, rfl⟩
  · refine ⟨hknown, hnumbered, fun {k r} hr hsub => ?_, fun k => ?_, fun k => ?_⟩
    · by_cases hk : k = run.id
      · subst hk
        obtain rfl := Option.some.inj (hrow.1.symm.trans hr)
        rw [hrow.2]
        rcases hquiet with hnone | htold
        · rw [hnone] at hsub
          cases hsub
        · exact (told_iff hnumbered).mp htold
      · exact hlatest hk hr hsub
    · rw [hof k]
      exact hs.occurred k
    · rw [hof k]
      exact hs.differ k
  · refine ⟨⟨hknown.gates, hknown.approvals⟩, hnumbered.withDelivery subscription,
      fun {k r} hr hsub => ?_, fun k => ?_, fun k => ?_⟩
    · rw [deliveriesOf_withDelivery]
      by_cases hk : k = run.id
      · subst hk
        obtain rfl := Option.some.inj (hrow.1.symm.trans hr)
        have hgate :
            (s₁.withDelivery setup subscription run gate emittedAt).gates.get? run.id = gate :=
          hrow.2
        rw [hgate, if_pos rfl, List.map_append, List.map_singleton, List.getLast?_concat]
        rfl
      · rw [if_neg fun he => hk he.symm, List.append_nil]
        exact hlatest hk hr hsub
    · rw [deliveriesOf_withDelivery]
      by_cases hk : run.id = k
      · subst hk
        rw [if_pos rfl, List.map_append, hof run.id]
        refine (hs.occurred run.id).append (List.isChain_singleton _) fun x hx y hy => ?_
        rw [List.getLast?_map, ← hof run.id, ← hnumbered.latestDelivery] at hx
        obtain ⟨latest, hlatest, rfl⟩ := Option.map_eq_some_iff.mp hx
        obtain rfl := Option.some.inj hy
        show latest.occurredAt ≤ occurredAt run gate (s₁.latestDelivery run.id) emittedAt
        rw [hlatest]
        exact le_occurredAt
      · rw [if_neg hk, List.append_nil, hof k]
        exact hs.occurred k
    · rw [deliveriesOf_withDelivery]
      by_cases hk : run.id = k
      · subst hk
        rw [if_pos rfl, List.map_append, hof run.id]
        refine (hs.differ run.id).append (List.isChain_singleton _) fun x hx y hy heq => ?_
        obtain rfl := Option.some.inj hy
        -- the latest one would have told of the run already
        rw [← hof run.id, heq] at hx
        exact hnew (.inr ((told_iff hnumbered).mpr hx))
      · rw [if_neg hk, List.append_nil, hof k]
        exact hs.differ k

theorem Telling.part (hs : s.Telling) (h : Step setup registry now call s s') : s'.Telling := by
  cases h with
  | round hround =>
    obtain ⟨s₁, run, gate, emittedAt, emitted, hwritten, hemitted⟩ := hround
    refine hs.enqueue hwritten.deliveries (hwritten.known hs.toKnown) (hwritten.row hs.toKnown)
      (fun k hk => ?_) hemitted
    obtain ⟨hrun, hgate, -, hsubscription⟩ := hwritten.others hk
    exact ⟨hrun, hgate, hsubscription⟩
  | rewrites h =>
    have hsaid (k : Uuid) : (s'.deliveriesOf k).map said = (s.deliveriesOf k).map said :=
      h.map_deliveriesOf (fun hmove => by
        obtain ⟨-, -, -, -, hstatus, hmessage⟩ := hmove.keeps
        unfold said
        rw [hstatus, hmessage]) k
    have hsequence (k : Uuid) :
        (s'.deliveriesOf k).map (·.sequence) = (s.deliveriesOf k).map (·.sequence) :=
      h.map_deliveriesOf (fun hmove => hmove.keeps.2.2.1) k
    have hoccurred (k : Uuid) :
        (s'.deliveriesOf k).map (·.occurredAt) = (s.deliveriesOf k).map (·.occurredAt) :=
      h.map_deliveriesOf (fun hmove => hmove.keeps.2.2.2.1) k
    refine ⟨⟨fun k hk => ?_, fun k hk => ?_⟩, fun k => ?_, fun {k run} hr hsub => ?_, fun k => ?_,
      fun k => ?_⟩
    · rw [h.gates]
      exact hs.gates k (h.runs ▸ hk)
    · have hof : s'.approvalsOf k = s.approvalsOf k := by
        unfold approvalsOf
        rw [h.approvals]
      rw [hof]
      exact hs.approvals k (h.runs ▸ hk)
    · have hlength := congrArg List.length (hsequence k)
      rw [List.length_map, List.length_map] at hlength
      rw [hsequence k, hlength]
      exact hs.numbered k
    · rw [hsaid k, h.gates]
      exact hs.latest (h.runs ▸ hr) (h.subscriptions ▸ hsub)
    · rw [hoccurred k]
      exact hs.occurred k
    · rw [hsaid k]
      exact hs.differ k

theorem run_telling (setup : Setup) (es : List Event) :
    (Transition.run (step setup) empty es).Telling :=
  invariant_run (fun _ _ h => step_invariant (fun h hs => h.part hs) h) empty_telling es

/-! ## In terms of the rows -/

/-- The delivery with the highest number of a run. -/
def Highest (s : CiLabStore) (k : Uuid) (r : WebhookDeliveryRecord) : Prop :=
  r ∈ s.deliveriesOf k ∧ ∀ r' ∈ s.deliveriesOf k, r'.sequence ≤ r.sequence

theorem Numbered.highest (h : s.Numbered) {k : Uuid} {r : WebhookDeliveryRecord}
    (hr : (s.deliveriesOf k).getLast? = some r) :
    s.Highest k r ∧ r.sequence = (s.deliveriesOf k).length := by
  have hmem := List.mem_of_getLast? hr
  have hpos := List.length_pos_of_mem hmem
  rw [List.getLast?_eq_getElem?] at hr
  have hnumber := h.sequence hr
  refine ⟨⟨hmem, fun r' hr' => ?_⟩, by omega⟩
  obtain ⟨-, -, hle⟩ := h.exists_index hr'
  omega

theorem foldl_max_range' (n : Nat) : (List.range' 1 n).foldl max 0 = n := by
  induction n with
  | zero => rfl
  | succ n ih =>
    rw [List.range'_concat, List.foldl_append, ih]
    show max n (1 + 1 * n) = n + 1
    omega

/-- The number that a view shows is the number of the run's deliveries. -/
theorem Numbered.webhookSequence (h : s.Numbered) (k : Uuid) :
    s.webhookSequence k = (s.deliveriesOf k).length := by
  unfold CiLabStore.webhookSequence
  rw [h k, foldl_max_range']

theorem Numbered.sequence_of_highest (h : s.Numbered) {k : Uuid} {r : WebhookDeliveryRecord}
    (hr : s.Highest k r) : r.sequence = (s.deliveriesOf k).length := by
  obtain ⟨hmem, hmax⟩ := hr
  have hlast := List.getLast?_eq_some_getLast (List.ne_nil_of_mem hmem)
  obtain ⟨⟨hlastMem, -⟩, hlength⟩ := h.highest hlast
  have hle := hmax _ hlastMem
  obtain ⟨-, -, hge⟩ := h.exists_index hmem
  omega

/-- The highest delivery says what is shown. -/
theorem Telling.highest (hs : s.Telling) {k : Uuid} (hrun : s.runs.get? k = some run)
    (hsub : (s.subscriptions.get? k).isSome) :
    ∃ r, s.Highest k r ∧ r.normalizedStatus = publicRunStatus run (s.gates.get? k)
      ∧ r.message = run.message := by
  have hlatest := hs.latest hrun hsub
  rw [List.getLast?_map] at hlatest
  obtain ⟨r, hr, hsays⟩ := Option.map_eq_some_iff.mp hlatest
  exact ⟨r, (hs.numbered.highest hr).1, congrArg Prod.fst hsays, congrArg Prod.snd hsays⟩

theorem Telling.occurred_le (hs : s.Telling) {k : Uuid} {r r' : WebhookDeliveryRecord}
    (hr : r ∈ s.deliveriesOf k) (hr' : r' ∈ s.deliveriesOf k) (hle : r.sequence ≤ r'.sequence) :
    r.occurredAt ≤ r'.occurredAt := by
  obtain ⟨hget, hpos, -⟩ := hs.numbered.exists_index hr
  obtain ⟨hget', hpos', -⟩ := hs.numbered.exists_index hr'
  rcases Nat.lt_or_eq_of_le hle with hlt | heq
  · have hpairwise := List.isChain_iff_pairwise.mp (hs.occurred k)
    rw [List.pairwise_map] at hpairwise
    obtain ⟨hi, hat⟩ := List.getElem?_eq_some_iff.mp hget
    obtain ⟨hj, hat'⟩ := List.getElem?_eq_some_iff.mp hget'
    have hle := List.pairwise_iff_getElem.mp hpairwise _ _ hi hj (by omega)
    rwa [hat, hat'] at hle
  · rw [heq] at hget
    rw [Option.some.inj (hget.symm.trans hget')]

theorem Telling.said_ne (hs : s.Telling) {k : Uuid} {r r' : WebhookDeliveryRecord}
    (hr : r ∈ s.deliveriesOf k) (hr' : r' ∈ s.deliveriesOf k)
    (hnext : r'.sequence = r.sequence + 1) : said r ≠ said r' := by
  obtain ⟨hget, hpos, -⟩ := hs.numbered.exists_index hr
  obtain ⟨hget', -, -⟩ := hs.numbered.exists_index hr'
  have hindex : r'.sequence - 1 = r.sequence - 1 + 1 := by omega
  rw [hindex] at hget'
  obtain ⟨hi, hat⟩ := List.getElem?_eq_some_iff.mp hget
  obtain ⟨hj, hat'⟩ := List.getElem?_eq_some_iff.mp hget'
  have hne := List.isChain_iff_getElem.mp ((List.isChain_map said).mp (hs.differ k)) _ hj
  rwa [hat, hat'] at hne

/-! ## Views -/

/-- The view that a call returns. -/
inductive Returns (setup : Setup) (s : CiLabStore) (e : Event) (view : RunView) : Prop where
  | trigger {definitionKey idempotencyKey : String} {request : TriggerRunRequest}
      (hcall : e.call = .trigger definitionKey request idempotencyKey)
      (h : (s.trigger setup e.registry definitionKey request idempotencyKey e.now).map (·.2)
        = .ok view)
  | get {runId : Uuid} (hcall : e.call = .get runId)
      (h : (s.get setup e.registry runId e.now).map (·.2) = .ok view)
  | cancel {runId : Uuid} (hcall : e.call = .cancel runId)
      (h : (s.cancel setup e.registry runId e.now).map (·.2) = .ok view)
  | decideGate {runId : Uuid} {request : GateDecisionRequest}
      (hcall : e.call = .decideGate runId request)
      (h : (s.decideGate setup e.registry runId request e.now).map (·.2) = .ok view)

theorem Returns.served {e : Event} {view : RunView} (h : Returns setup s e view) :
    Served setup e.registry e.now e.call s (s.step setup e) view := by
  have hstep {x : Except CiLabError (CiLabStore × RunView)} {s' : CiLabStore}
      (hcall : s.call setup e.registry e.now e.call = x.map (·.1)) (hx : x = .ok (s', view)) :
      s.step setup e = s' := step_ok (hcall.trans (by rw [hx]; rfl))
  cases h with
  | trigger hcall hview =>
    obtain ⟨⟨s', view⟩, h, rfl⟩ := map_eq_ok.mp hview
    rw [hstep (by rw [hcall]; rfl) h, hcall]
    exact trigger_served h
  | get hcall hview =>
    obtain ⟨⟨s', view⟩, h, rfl⟩ := map_eq_ok.mp hview
    rw [hstep (by rw [hcall]; rfl) h, hcall]
    exact get_served h
  | cancel hcall hview =>
    obtain ⟨⟨s', view⟩, h, rfl⟩ := map_eq_ok.mp hview
    rw [hstep (by rw [hcall]; rfl) h, hcall]
    exact cancel_served h
  | decideGate hcall hview =>
    obtain ⟨⟨s', view⟩, h, rfl⟩ := map_eq_ok.mp hview
    rw [hstep (by rw [hcall]; rfl) h, hcall]
    exact decideGate_served h

/-- A view shows the highest number there is. -/
theorem Returns.webhookSequence {e : Event} {view : RunView} (h : Returns setup s e view) :
    view.webhookSequence = (s.step setup e).webhookSequence view.id := by
  obtain ⟨s₁, run, gate, emittedAt, emitted, hwritten, hemitted, definition, replayed, rfl⟩ :=
    h.served
  rfl

/-- CI Lab tells of every visible change, over any run. -/
theorem told_of_runs (setup : Setup) (es : List Event) :
    let s := Transition.run (step setup) empty es
    (∀ k run, s.runs.get? k = some run → (s.subscriptions.get? k).isSome →
        ∃ latest, s.Highest k latest
          ∧ latest.normalizedStatus = publicRunStatus run (s.gates.get? k)
          ∧ latest.message = run.message)
    ∧ (∀ k, ∀ r ∈ s.deliveriesOf k, ∀ r' ∈ s.deliveriesOf k,
        (r.sequence ≤ r'.sequence → r.occurredAt ≤ r'.occurredAt)
          ∧ (r'.sequence = r.sequence + 1 →
              ¬ (r.normalizedStatus = r'.normalizedStatus ∧ r.message = r'.message)))
    ∧ ∀ (e : Event) view, Returns setup s e view →
        ∀ latest, (s.step setup e).Highest view.id latest →
          view.webhookSequence = latest.sequence := by
  have hs := run_telling setup es
  refine ⟨fun k run hrun hsub => ?_, fun k r hr r' hr' => ⟨hs.occurred_le hr hr', ?_⟩, ?_⟩
  · exact hs.highest hrun hsub
  · rintro hnext ⟨hstatus, hmessage⟩
    exact hs.said_ne hr hr' hnext (Prod.ext hstatus hmessage)
  · intro e view hview latest hlatest
    have hs' : ((Transition.run (step setup) empty es).step setup e).Telling :=
      step_invariant (fun h hs => h.part hs) hs
    rw [hview.webhookSequence, hs'.numbered.webhookSequence,
      hs'.numbered.sequence_of_highest hlatest]

end QaPlatform.CiLab.CiLabStore
