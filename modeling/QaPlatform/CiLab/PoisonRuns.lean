import Mathlib.Algebra.Order.BigOperators.Group.List
import Mathlib.Algebra.Order.Ring.Nat
import QaPlatform.CiLab.Passes
import QaPlatform.CiLab.WebhookWorker

/-!
# Poison runs

The worker's iteration begins with one pass over all subscribed runs, in one
transaction. When a run of the batch raises, so does the pass, and the iteration ends
before anything is claimed, every time. When no pass raises, a delivery that is due is
reached: each claim before it takes one of the attempts of a delivery that was to be
tried earlier, and passes add nothing that is to be tried earlier.

For the second half the attempts are counted: `debt` is how many attempts there can be before a
delivery is tried. An iteration that does not post the delivery takes one of them, a pass adds
none, and so the delivery is posted at the latest when the debt is paid. `blocked_by_orphan` is
a batch in which one run has lost its definition: another run is never advanced, and its
delivery never posted.
-/

namespace QaPlatform.CiLab.CiLabStore

open QaPlatform.Transition

variable {setup : Setup} {registry : DefinitionRegistry} {s s' s₁ : CiLabStore} {now t a : Instant}
  {call : Call}

/-! ## Bodies -/

theorem RowMove.body {r r' : WebhookDeliveryRecord} (h : RowMove s now r call r') :
    r'.payloadBody = r.payloadBody ∧ r'.bodySha256 = r.bodySha256 := by
  cases h
  all_goals exact ⟨rfl, rfl⟩

theorem enqueue_intact {run : RunRecord} {gate : Option QualityGateRecord} {emitted : Bool}
    (h : s.enqueueWebhookIfChanged setup run gate now = .ok (s', emitted))
    (hs : ∀ r ∈ s.deliveries.rows, BodyIntact r) : ∀ r ∈ s'.deliveries.rows, BodyIntact r := by
  unfold enqueueWebhookIfChanged at h
  split at h
  · obtain ⟨rfl, -⟩ := Prod.mk.inj (pure_eq_ok.mp h)
    exact hs
  dsimp only at h
  split at h
  · obtain ⟨rfl, -⟩ := Prod.mk.inj (pure_eq_ok.mp h)
    exact hs
  obtain ⟨hsize, h⟩ := refuse_bind_eq_ok.mp h
  obtain ⟨-, h⟩ := refuse_bind_eq_ok.mp h
  obtain ⟨rfl, -⟩ := Prod.mk.inj (pure_eq_ok.mp h)
  intro r hr
  rcases List.mem_append.mp hr with hold | hnew
  · exact hs r hold
  · obtain rfl := List.mem_singleton.mp hnew
    exact ⟨Nat.not_lt.mp hsize, rfl⟩

/-- What a reachable store has that a worker relies on. -/
structure Sound (s : CiLabStore) : Prop extends Telling s where
  ordered : s.Ordered
  intact : ∀ r ∈ s.deliveries.rows, BodyIntact r

theorem Sound.part (hs : s.Sound) (h : Step setup registry now call s s') : s'.Sound := by
  refine ⟨hs.toTelling.part h, hs.ordered.part h, ?_⟩
  cases h with
  | round hround =>
    obtain ⟨s₁, run, gate, emittedAt, emitted, hwritten, hemitted⟩ := hround
    exact enqueue_intact hemitted (hwritten.deliveries ▸ hs.intact)
  | rewrites hrewrites =>
    intro r' hr'
    obtain ⟨r, hr, rfl | hmove⟩ := hrewrites.row hr'
    · exact hs.intact _ hr
    · unfold BodyIntact
      rw [hmove.body.1, hmove.body.2]
      exact hs.intact r hr

theorem Sound.parts (hs : s.Sound)
    (h : Relation.ReflTransGen (Step setup registry now call) s s') : s'.Sound := by
  induction h with
  | refl => exact hs
  | tail _ hlast ih => exact ih.part hlast

theorem empty_sound : empty.Sound where
  toTelling := empty_telling
  ordered := empty_ordered
  intact r hr := by cases hr

theorem run_sound (setup : Setup) (es : List Event) :
    (Transition.run (step setup) empty es).Sound :=
  invariant_run (fun _ _ h => step_invariant (fun h hs => h.part hs) h) empty_sound es

/-! ## A delivery that waits -/

/-- The delivery is there to be claimed from `a` on. -/
structure Awaits (s : CiLabStore) (d : WebhookDeliveryRecord) : Prop where
  row : s.deliveries.get? d.id = some d
  idle : d.status = .pending ∨ d.status = .retryWait
  preceded : ∀ lower ∈ s.deliveries.rows, lower.runId = d.runId → lower.sequence < d.sequence →
    lower.status = .delivered

variable {d : WebhookDeliveryRecord}

theorem Awaits.mem (h : s.Awaits d) : d ∈ s.deliveries.rows := Table.mem_of_get? h.row

/-- Delivered rows are not rewritten, so the delivery waits as long as its row stays. -/
theorem Awaits.rewrites (h : s.Awaits d) (hs : Rewrites now call s s')
    (hrow : s'.deliveries.get? d.id = some d) : s'.Awaits d where
  row := hrow
  idle := h.idle
  preceded lower' hlower' hrun hlt := by
    obtain ⟨lower, hlower, rfl | hmove⟩ := hs.row hlower'
    · exact h.preceded _ hlower hrun hlt
    · obtain ⟨-, hsameRun, hsameNumber, -⟩ := hmove.keeps
      rw [hsameRun] at hrun
      rw [hsameNumber] at hlt
      exact absurd (h.preceded lower hlower hrun hlt) hmove.not_delivered

/-- New deliveries of the run come after it. -/
theorem Awaits.round (h : s.Awaits d) (hs : s.Ordered)
    (hround : Round setup registry now call s s') :
    s'.Awaits d where
  row := hround.keeps h.row
  idle := h.idle
  preceded lower hlower hrun hlt := by
    rcases hround.deliveries with hsame | ⟨s₁, subscription, run, gate, emittedAt, hold, hnew⟩
    · exact h.preceded lower (hsame ▸ hlower) hrun hlt
    · rw [hnew] at hlower
      rcases mem_withDelivery hlower with hlower | rfl
      · exact h.preceded lower (hold ▸ hlower) hrun hlt
      · have hs₁ : s₁.Ordered := hs.of_deliveries hold
        have hrun' : run.id = d.runId := hrun
        have hmem : d ∈ s₁.deliveriesOf run.id := mem_deliveriesOf.mpr ⟨hold ▸ h.mem, hrun'.symm⟩
        obtain ⟨-, -, hle⟩ := hs₁.numbered.exists_index hmem
        have hlast : (s₁.latestDelivery run.id).elim 1 (·.sequence + 1) < d.sequence := hlt
        rw [hs₁.numbered.next] at hlast
        omega

/-! ## The attempts before it -/

/-- The attempts that a delivery has left, when it may be tried before `d`. -/
def weight (d r : WebhookDeliveryRecord) : Nat :=
  if r.id ≠ d.id ∧ r.availableAt ≤ d.availableAt then r.maxAttempts - r.attempts else 0

/-- The attempts that there can be before `d` is tried. -/
def debt (s : CiLabStore) (d : WebhookDeliveryRecord) : Nat :=
  (s.deliveries.rows.map (weight d)).sum

theorem weight_later {r : WebhookDeliveryRecord} (h : d.availableAt < r.availableAt) :
    weight d r = 0 := by
  unfold weight
  rw [if_neg]
  rintro ⟨-, hle⟩
  exact absurd hle (Int.not_le.mpr h)

/-- A row with less to try is not tried more. -/
theorem weight_le {r r' : WebhookDeliveryRecord} (hid : r'.id = r.id)
    (havailable : r'.availableAt = r.availableAt) (hmax : r'.maxAttempts = r.maxAttempts)
    (hattempts : r.attempts ≤ r'.attempts) : weight d r' ≤ weight d r := by
  unfold weight
  rw [hid, havailable, hmax]
  split
  · omega
  · exact Nat.le_refl 0

theorem retryDelay_pos (attempts : Nat) : 0 < WebhookDeliveryRecord.retryDelay attempts := by
  have hpow : 0 < Nat.pow 2 (attempts - 1) := Nat.pow_pos (by decide)
  unfold WebhookDeliveryRecord.retryDelay seconds
  omega

/-- Only a retry that was asked for gives attempts back. -/
theorem RowMove.weight_le {r r' : WebhookDeliveryRecord} (h : RowMove s now r call r')
    (hcall : ∀ k, call ≠ .retryWebhookDelivery k) (hnow : d.availableAt ≤ now) :
    weight d r' ≤ weight d r := by
  cases h with
  | claimed h => exact CiLabStore.weight_le rfl rfl rfl (Nat.le_succ _)
  | corrupted h | completed _ h | expired h =>
    exact CiLabStore.weight_le rfl rfl rfl (Nat.le_refl _)
  | @failed claimed errorCode retryable shouldRetry hid h hretry =>
    cases shouldRetry with
    | false => exact CiLabStore.weight_le rfl rfl rfl (Nat.le_refl _)
    | true =>
      -- it is tried again later than `d`
      have hlater : d.availableAt < now + WebhookDeliveryRecord.retryDelay r.attempts :=
        Int.lt_of_le_of_lt hnow (Int.lt_add_of_pos_right now (retryDelay_pos r.attempts))
      rw [weight_later (r := r.failed errorCode true now) hlater]
      exact Nat.zero_le _
  | retried h => exact absurd rfl (hcall r.id)

theorem Rewrites.debt_le (h : Rewrites now call s s') (hcall : ∀ k, call ≠ .retryWebhookDelivery k)
    (hnow : d.availableAt ≤ now) : s'.debt d ≤ s.debt d := by
  obtain ⟨f, hrows, hf⟩ := h.rows
  unfold debt
  rw [hrows, List.map_map]
  refine List.sum_le_sum fun r hr => ?_
  show weight d (f r) ≤ weight d r
  rcases hf r hr with hsame | hmove
  · rw [hsame]
  · exact hmove.weight_le hcall hnow

/-- A claim of another delivery takes one of its attempts. -/
theorem debt_claimed {r : WebhookDeliveryRecord} {workerId leaseToken : String} {leaseSeconds : Int}
    (hr : s.deliveries.get? r.id = some r) (hne : r.id ≠ d.id)
    (hbefore : r.availableAt ≤ d.availableAt) (hspare : r.attempts < r.maxAttempts) :
    ({ s with deliveries := s.deliveries.put (r.claimed workerId leaseToken leaseSeconds now) } :
      CiLabStore).debt d < s.debt d := by
  have hless : weight d (r.claimed workerId leaseToken leaseSeconds now) < weight d r := by
    have hnew : weight d (r.claimed workerId leaseToken leaseSeconds now)
        = r.maxAttempts - (r.attempts + 1) := if_pos ⟨hne, hbefore⟩
    have hold : weight d r = r.maxAttempts - r.attempts := if_pos ⟨hne, hbefore⟩
    omega
  have hrow {x : WebhookDeliveryRecord} (hx : x ∈ s.deliveries.rows)
    (hk : key x = r.id) : x = r := by
    have hsame : some x = some r := by
      rw [← hr, ← hk]
      exact (Table.get?_key hx).symm
    exact Option.some.inj hsame
  show (List.map (weight d) (List.map _ s.deliveries.rows)).sum < _
  rw [List.map_map]
  refine List.sum_lt_sum _ _ (fun x hx => ?_) ⟨r, Table.mem_of_get? hr, ?_⟩
  · show weight d (if key x = r.id then _ else x) ≤ weight d x
    by_cases hk : key x = r.id
    · rw [if_pos hk, hrow hx hk]
      exact Nat.le_of_lt hless
    · rw [if_neg hk]
  · show weight d (if r.id = r.id then _ else r) < weight d r
    rw [if_pos rfl]
    exact hless

/-! ## Iterations -/

theorem Awaits.claimable (h : s.Awaits d) (hs : s.Ordered) (hdue : d.availableAt ≤ now) :
    s.ClaimableDelivery now d :=
  ⟨.inl ⟨h.idle, hdue⟩, hs.spare d h.mem h.idle, h.preceded⟩

/-- A sweep passes over a delivery that nobody holds. -/
theorem Awaits.swept (h : s.Awaits d) : (s.expireExhausted now).Awaits d := by
  have hrewrites : Rewrites now (.claimWebhookDelivery "" 0 "") s (s.expireExhausted now) := .swept
  refine h.rewrites hrewrites ?_
  have hrow : d ∈ (s.expireExhausted now).deliveries.rows := by
    refine List.mem_map.mpr ⟨d, h.mem, if_neg fun hover => ?_⟩
    have hclaimed := hover.1
    rcases h.idle with hs | hs
    · rw [hs] at hclaimed
      cases hclaimed
    · rw [hs] at hclaimed
      cases hclaimed
  exact Table.get?_key hrow

/-- A claim takes the delivery that waits, or one before it. -/
theorem claimCandidate_progress (hs : s.Sound) (h : s.Awaits d) (hdue : d.availableAt ≤ now)
    (workerId leaseToken : String) (leaseSeconds : Int) :
    ∃ r, s.claimCandidate workerId leaseToken leaseSeconds now
        = ({ s with
            deliveries := s.deliveries.put (r.claimed workerId leaseToken leaseSeconds now) },
          some (claimOf r workerId leaseToken))
      ∧ s.deliveries.get? r.id = some r ∧ s.ClaimableDelivery now r
      ∧ (r.id ≠ d.id → r.availableAt ≤ d.availableAt) := by
  have hclaimable := h.claimable hs.ordered hdue
  have hmem : d ∈ s.deliveries.rows.filter (s.ClaimableDelivery now) :=
    List.mem_filter.mpr ⟨h.mem, by simpa using hclaimable⟩
  cases hcandidate : s.deliveryCandidate now with
  | none =>
    have hnil := firstBy_eq_none.mp hcandidate
    rw [hnil] at hmem
    cases hmem
  | some r =>
    obtain ⟨hr, hrclaimable⟩ := deliveryCandidate_spec hcandidate
    have hbefore := firstBy_le hcandidate hmem
    refine ⟨r, ?_, hr, hrclaimable, fun _ => ?_⟩
    · unfold claimCandidate
      rw [hcandidate]
      exact if_pos (hs.intact r (Table.mem_of_get? hr))
    · simp only [columnsLe, decide_eq_true_eq] at hbefore
      rcases hbefore with hlt | ⟨heq, -⟩
      · exact Int.le_of_lt hlt
      · exact Int.le_of_eq heq

/-- Rows of the outbox are rewritten, and nothing else is. -/
structure Kept (s s' : CiLabStore) : Prop where
  sound : s'.Sound
  runs : s'.runs = s.runs
  gates : s'.gates = s.gates
  subscriptions : s'.subscriptions = s.subscriptions

theorem Sound.rewrites (setup : Setup) (registry : DefinitionRegistry) (hs : s.Sound)
    (h : Rewrites now call s s') : s'.Sound := by
  have hstep : Step setup registry now call s s' := .rewrites h
  exact hs.part hstep

theorem Kept.refl (hs : s.Sound) : Kept s s := ⟨hs, rfl, rfl, rfl⟩

theorem Kept.of_rewrites (setup : Setup) (registry : DefinitionRegistry) (hs : s.Sound)
    (h : Rewrites now call s s') : Kept s s' where
  sound := hs.rewrites setup registry h
  runs := h.runs
  gates := h.gates
  subscriptions := h.subscriptions

theorem Kept.trans (h : Kept s s₁) (h' : Kept s₁ s') : Kept s s' where
  sound := h'.sound
  runs := h'.runs.trans h.runs
  gates := h'.gates.trans h.gates
  subscriptions := h'.subscriptions.trans h.subscriptions

/-- They are rows of other deliveries. -/
structure Passed (d : WebhookDeliveryRecord) (s s' : CiLabStore) : Prop extends Kept s s' where
  awaits : s'.Awaits d

theorem Passed.of_rewrites (setup : Setup) (registry : DefinitionRegistry) (hs : s.Sound)
    (h : s.Awaits d) (hrewrites : Rewrites now call s s')
    (hrow : s'.deliveries.get? d.id = some d) : Passed d s s' where
  toKept := .of_rewrites setup registry hs hrewrites
  awaits := h.rewrites hrewrites hrow

theorem Passed.trans (h : Passed d s s₁) (h' : Passed d s₁ s') : Passed d s s' where
  toKept := h.toKept.trans h'.toKept
  awaits := h'.awaits

open CiLabWebhookWorker (settle settleOnce settle_moves runOnce_claims claimOnce_passes)

variable {w : CiLabWebhookWorker} {i : Iteration}

/-- A worker claims under its name as it is. -/
theorem RowMove.claimed_by {r : WebhookDeliveryRecord} {leaseToken : String}
    (w : CiLabWebhookWorker) (h : s.ClaimableDelivery now r) :
    RowMove s now r (.claimWebhookDelivery w.workerId w.leaseSeconds leaseToken)
      (r.claimed w.workerId leaseToken w.leaseSeconds now) := by
  have hmove : RowMove s now r (.claimWebhookDelivery w.workerId w.leaseSeconds leaseToken)
      (r.claimed (strip w.workerId) leaseToken w.leaseSeconds now) := .claimed h
  rwa [strip_workerId w.valid.1] at hmove

/-- A settlement of another delivery. -/
theorem Passed.settled (setup : Setup) (registry : DefinitionRegistry) (hs : s.Sound)
    (h : s.Awaits d) {claimed : ClaimedWebhookDelivery} (hid : claimed.id ≠ d.id)
    (hdue : d.availableAt ≤ i.settledAt) :
    Passed d s (settleOnce i s (some claimed)).1
      ∧ (settleOnce i s (some claimed)).1.debt d ≤ s.debt d := by
  have hsame : Passed d s s := ⟨.refl hs, h⟩
  unfold settleOnce
  dsimp only
  cases i.transmission with
  | none => exact ⟨hsame, Nat.le_refl _⟩
  | some transmission =>
    show Passed d s (settle s claimed (deliver claimed transmission) i.settledAt).1 ∧ _
    rcases settle_moves s claimed (deliver claimed transmission) i.settledAt with
      hkept | ⟨call, r, r', hcall, hclaim, hkey, hr, hmove, hmoved⟩
    · rw [hkept]
      exact ⟨hsame, Nat.le_refl _⟩
    · have hrewrites := Rewrites.moved hr hmove hkey
      have hother : r'.id ≠ d.id := by
        rw [hkey, hclaim]
        exact hid
      rw [hmoved]
      exact ⟨.of_rewrites setup registry hs h hrewrites ((Table.get?_put_of_ne hother).trans h.row),
        hrewrites.debt_le hcall hdue⟩

/-- An iteration posts the delivery that waits, or takes an attempt of one before it. -/
theorem runOnce_progress (hpass : w.Passes setup registry i s s₁) (hs : s₁.Sound) (h : s₁.Awaits d)
    (hdue : d.availableAt ≤ i.claimedAt) (hclock : i.claimedAt ≤ i.settledAt) :
    w.Posts setup registry i s d.id
      ∨ Passed d s₁ (w.runOnce setup registry i s).1
        ∧ (w.runOnce setup registry i s).1.debt d < s₁.debt d := by
  have hrewrites : Rewrites i.claimedAt (.claimWebhookDelivery "" 0 "") s₁
      (s₁.expireExhausted i.claimedAt) := .swept
  have hswept : Passed d s₁ (s₁.expireExhausted i.claimedAt) :=
    .of_rewrites setup registry hs h hrewrites h.swept.row
  have hdebt := hrewrites.debt_le (fun k hk => by cases hk) hdue
  obtain ⟨r, hcandidate, hr, hclaimable, hbefore⟩ := claimCandidate_progress hswept.sound
    hswept.awaits hdue w.workerId i.leaseToken w.leaseSeconds
  by_cases hid : r.id = d.id
  · refine .inl ⟨claimOf r w.workerId i.leaseToken, ?_, hid⟩
    rw [claimOnce_passes hpass, hcandidate]
  · refine .inr ?_
    have hmove : RowMove (s₁.expireExhausted i.claimedAt) i.claimedAt r
        (.claimWebhookDelivery w.workerId w.leaseSeconds i.leaseToken)
        (r.claimed w.workerId i.leaseToken w.leaseSeconds i.claimedAt) := .claimed_by w hclaimable
    have hother : (r.claimed w.workerId i.leaseToken w.leaseSeconds i.claimedAt).id ≠ d.id := hid
    have hclaimed := hswept.trans (.of_rewrites setup registry hswept.sound hswept.awaits
      (.moved hr hmove rfl) ((Table.get?_put_of_ne hother).trans hswept.awaits.row))
    have hless := @debt_claimed _ i.claimedAt d r w.workerId i.leaseToken w.leaseSeconds hr hid
      (hbefore hid) hclaimable.2.1
    have hkey : (claimOf r w.workerId i.leaseToken).id ≠ d.id := hid
    obtain ⟨hsettled, hsettledDebt⟩ := Passed.settled setup registry hclaimed.sound hclaimed.awaits
      hkey (Int.le_trans hdue hclock)
    rw [runOnce_claims hpass, hcandidate]
    exact ⟨hclaimed.trans hsettled,
      Nat.lt_of_le_of_lt hsettledDebt (Nat.lt_of_lt_of_le hless hdebt)⟩

/-! ## Whole iterations -/

theorem Kept.candidate (setup : Setup) (registry : DefinitionRegistry) (hs : s.Sound)
    (w : CiLabWebhookWorker) (leaseToken : String) (now : Instant) :
    Kept s (s.claimCandidate w.workerId leaseToken w.leaseSeconds now).1 := by
  unfold claimCandidate
  split
  · exact .refl hs
  · next r hcandidate =>
    obtain ⟨hr, hclaimable⟩ := deliveryCandidate_spec hcandidate
    split
    · have hmove : RowMove s now r (.claimWebhookDelivery w.workerId w.leaseSeconds leaseToken)
          (r.claimed w.workerId leaseToken w.leaseSeconds now) := .claimed_by w hclaimable
      exact .of_rewrites setup registry hs (.moved hr hmove rfl)
    · have hmove : RowMove s now r (.claimWebhookDelivery w.workerId w.leaseSeconds leaseToken)
          (r.deadLettered "payload_integrity_error" now) := .corrupted hclaimable
      exact .of_rewrites setup registry hs (.moved hr hmove rfl)

theorem Kept.settled (setup : Setup) (registry : DefinitionRegistry) (hs : s.Sound) (i : Iteration)
    (claimed : Option ClaimedWebhookDelivery) : Kept s (settleOnce i s claimed).1 := by
  cases claimed with
  | none => exact .refl hs
  | some claimed =>
    unfold settleOnce
    dsimp only
    cases i.transmission with
    | none => exact .refl hs
    | some transmission =>
      show Kept s (settle s claimed (deliver claimed transmission) i.settledAt).1
      rcases settle_moves s claimed (deliver claimed transmission) i.settledAt with
        hkept | ⟨call, r, r', hcall, hclaim, hkey, hr, hmove, hmoved⟩
      · rw [hkept]
        exact .refl hs
      · rw [hmoved]
        exact .of_rewrites setup registry hs (.moved hr hmove hkey)

/-- After its pass, an iteration is about the outbox. -/
theorem runOnce_kept (hpass : w.Passes setup registry i s s₁) (hs : s₁.Sound) :
    Kept s₁ (w.runOnce setup registry i s).1 := by
  have hrewrites : Rewrites i.claimedAt (.claimWebhookDelivery "" 0 "") s₁
      (s₁.expireExhausted i.claimedAt) := .swept
  have hswept : Kept s₁ _ := .of_rewrites setup registry hs hrewrites
  have hclaimed := hswept.trans
    (.candidate setup registry hswept.sound w i.leaseToken i.claimedAt)
  rw [runOnce_claims hpass]
  exact hclaimed.trans (.settled setup registry hclaimed.sound i _)

theorem Sound.pass (hs : s.Sound) (hpass : w.Passes setup registry i s s₁) : s₁.Sound := by
  obtain ⟨created, hadvanced⟩ := hpass
  have hrounds : Relation.ReflTransGen (Step setup registry i.advancedAt
      (.advanceWebhookRunsOnce w.refreshLimit)) s s₁ :=
    (advance_rounds hadvanced).lift id fun _ _ h => Step.round h
  exact hs.parts hrounds

/-- Runs are advanced while a delivery waits. -/
theorem Awaits.pass (h : s.Awaits d) (hs : s.Sound) (hpass : w.Passes setup registry i s s₁) :
    s₁.Awaits d := by
  obtain ⟨created, hadvanced⟩ := hpass
  have hrounds : Relation.ReflTransGen (Round setup registry i.advancedAt
      (.advanceWebhookRunsOnce w.refreshLimit)) s s₁ := advance_rounds hadvanced
  clear hadvanced
  have hboth : s₁.Sound ∧ s₁.Awaits d := by
    induction hrounds with
    | refl => exact ⟨hs, h⟩
    | tail _ hlast ih => exact ⟨ih.1.part (.round hlast), ih.2.round ih.1.ordered hlast⟩
  exact hboth.2

/-- A pass adds nothing that is to be tried before `d`, when that was due before the pass. -/
theorem debt_pass (hpass : w.Passes setup registry i s s₁) (hlate : d.availableAt < i.advancedAt) :
    s₁.debt d = s.debt d := by
  obtain ⟨created, hadvanced⟩ := hpass
  obtain ⟨-, hall⟩ := refuse_bind_eq_ok.mp hadvanced
  obtain ⟨rows, hrows, hnow⟩ := advanceAll_rows hall
  have hzero : (rows.map (weight d)).sum = 0 := by
    refine List.sum_eq_zero fun n hn => ?_
    obtain ⟨r, hr, rfl⟩ := List.mem_map.mp hn
    exact weight_later (by rw [hnow r hr]; exact hlate)
  unfold debt
  rw [hrows, List.map_append, List.sum_append, hzero, Nat.add_zero]

/-- Another pass at the same instant has nothing to do. -/
theorem pass_again (hs : s.Sound) (hfresh : s.Fresh setup registry i.advancedAt)
    (hpass : w.Passes setup registry i s s₁) : s₁ = s := by
  obtain ⟨created, hadvanced⟩ := hpass
  obtain ⟨-, hall⟩ := refuse_bind_eq_ok.mp hadvanced
  refine advanceAll_idle hs.toTelling hfresh (fun r hr => ?_) hall
  obtain ⟨hrow, hadvanceable⟩ := mem_advanceBatch hr
  exact ⟨Table.get?_key hrow, hadvanceable⟩

/-- Which runs there are to advance, and whether they are fresh, is a matter of three tables. -/
theorem fresh_of_same (hruns : s'.runs = s.runs) (hgates : s'.gates = s.gates)
    (hsubscriptions : s'.subscriptions = s.subscriptions) (h : s.Fresh setup registry now) :
    s'.Fresh setup registry now := by
  intro record hrecord hadvanceable definition hdefinition
  have hbefore : s.Advanceable record := by
    unfold Advanceable at hadvanceable ⊢
    rwa [hgates, hsubscriptions] at hadvanceable
  have hcurrent := h record (hruns ▸ hrecord) hbefore definition hdefinition
  unfold current at hcurrent ⊢
  rw [hgates]
  exact hcurrent

theorem covers_of_same {limit : Nat} (hruns : s'.runs = s.runs) (hgates : s'.gates = s.gates)
    (hsubscriptions : s'.subscriptions = s.subscriptions) (h : s.Covers limit) :
    s'.Covers limit := by
  have hsame : s'.Advanceable = s.Advanceable := by
    unfold Advanceable
    rw [hgates, hsubscriptions]
  unfold Covers at h ⊢
  simp only [hruns, hsame]
  exact h

/-! ## The loop -/

/-- The clock that the iterations are timed by does not go backwards. -/
def Forward (its : Nat → Iteration) : Prop :=
  ∀ n, (its n).advancedAt ≤ (its n).claimedAt ∧ (its n).claimedAt ≤ (its n).settledAt
    ∧ (its n).settledAt ≤ (its (n + 1)).advancedAt

/-- A run whose definition the worker does not have, or has in another revision. -/
def Poison (registry : DefinitionRegistry) (s : CiLabStore) (record : RunRecord) : Prop :=
  s.runs.get? record.id = some record ∧ s.Advanceable record
    ∧ ∀ definition, definitionForRecord registry record ≠ .ok definition

variable {its : Nat → Iteration} {record : RunRecord}

/-- No pass of the loop raises. -/
def NoneRaises (setup : Setup) (registry : DefinitionRegistry) (w : CiLabWebhookWorker)
    (its : Nat → Iteration) (s : CiLabStore) : Prop :=
  ∀ n, ∃ s₁, w.Passes setup registry (its n) (w.storeAfter setup registry its s n) s₁

theorem Forward.next (h : Forward its) (n : Nat) :
    (its n).advancedAt ≤ (its (n + 1)).advancedAt := by
  obtain ⟨hclaimed, hsettled, hnext⟩ := h n
  exact Int.le_trans (Int.le_trans hclaimed hsettled) hnext

theorem Forward.first (h : Forward its) (n : Nat) : (its 0).advancedAt ≤ (its n).advancedAt := by
  induction n with
  | zero => exact Int.le_refl _
  | succ n ih => exact Int.le_trans ih (h.next n)

theorem NoneRaises.from (h : NoneRaises setup registry w its s) (m : Nat) :
    NoneRaises setup registry w (fun n => its (m + n)) (w.storeAfter setup registry its s m) := by
  intro n
  obtain ⟨s₁, hpass⟩ := h (m + n)
  rw [CiLabWebhookWorker.storeAfter_add] at hpass
  exact ⟨s₁, hpass⟩

theorem pass_covers (hcovers : s.Covers w.refreshLimit) (hpass : w.Passes setup registry i s s₁) :
    s₁.Covers w.refreshLimit := by
  obtain ⟨created, hadvanced⟩ := hpass
  exact advance_covers hcovers hadvanced

theorem storeAfter_sound (h : NoneRaises setup registry w its s) (hs : s.Sound)
    (hcovers : s.Covers w.refreshLimit) (n : Nat) :
    (w.storeAfter setup registry its s n).Sound
      ∧ (w.storeAfter setup registry its s n).Covers w.refreshLimit := by
  induction n with
  | zero => exact ⟨hs, hcovers⟩
  | succ n ih =>
    obtain ⟨s₁, hpass⟩ := h n
    have hkept := runOnce_kept hpass (ih.1.pass hpass)
    exact ⟨hkept.sound,
      covers_of_same hkept.runs hkept.gates hkept.subscriptions (pass_covers ih.2 hpass)⟩

/-- After an iteration the runs are as its pass has made them. -/
theorem runOnce_fresh (hpass : w.Passes setup registry i s s₁) (hs : s.Sound)
    (hcovers : s.Covers w.refreshLimit) :
    (w.runOnce setup registry i s).1.Fresh setup registry i.advancedAt := by
  have hkept := runOnce_kept hpass (hs.pass hpass)
  refine fresh_of_same hkept.runs hkept.gates hkept.subscriptions ?_
  obtain ⟨created, hadvanced⟩ := hpass
  exact advance_fresh hcovers hadvanced

/-- Every run that is to be advanced is advanced by the next iteration. -/
theorem runOnce_advances (hpass : w.Passes setup registry i s s₁) (hs : s.Sound)
    (hcovers : s.Covers w.refreshLimit) (hrecord : s.runs.get? record.id = some record)
    (hadvanceable : s.Advanceable record) :
    ∃ definition, definitionForRecord registry record = .ok definition
      ∧ (w.runOnce setup registry i s).1.runs.get? record.id
        = some (s.current setup definition i.advancedAt record).1
      ∧ (w.runOnce setup registry i s).1.gates.get? record.id
        = (s.current setup definition i.advancedAt record).2 := by
  have hkept := runOnce_kept hpass (hs.pass hpass)
  rw [hkept.runs, hkept.gates]
  obtain ⟨created, hadvanced⟩ := hpass
  obtain ⟨-, hall⟩ := refuse_bind_eq_ok.mp hadvanced
  obtain ⟨hbatch, -⟩ := advanceAll_refreshes (s.advanceBatch_nodup w.refreshLimit)
    (fun r hr => Table.get?_key (mem_advanceBatch hr).1) hall
  exact hbatch record (hcovers.mem hrecord hadvanceable)

/-- A delivery that waits and is due is posted. -/
theorem posted_of_awaits (h : NoneRaises setup registry w its s) (hclock : Forward its)
    (hs : s.Sound)
    (hcovers : s.Covers w.refreshLimit) (hd : s.Awaits d)
    (hdue : d.availableAt ≤ (its 0).advancedAt) :
    ∃ n, w.Posts setup registry (its n) (w.storeAfter setup registry its s n) d.id := by
  have hdueAt (n : Nat) : d.availableAt ≤ (its n).advancedAt := Int.le_trans hdue (hclock.first n)
  have hround {n : Nat} (hawaits : (w.storeAfter setup registry its s n).Awaits d) {s₁ : CiLabStore}
      (hpass : w.Passes setup registry (its n) (w.storeAfter setup registry its s n) s₁) :
      w.Posts setup registry (its n) (w.storeAfter setup registry its s n) d.id
        ∨ Passed d s₁ (w.storeAfter setup registry its s (n + 1))
          ∧ (w.storeAfter setup registry its s (n + 1)).debt d < s₁.debt d := by
    have hsound := (storeAfter_sound h hs hcovers n).1
    exact runOnce_progress hpass (hsound.pass hpass) (hawaits.pass hsound hpass)
      (Int.le_trans (hdueAt n) (hclock n).1) (hclock n).2.1
  obtain ⟨s₁, hfirst⟩ := h 0
  have hstart : (w.storeAfter setup registry its s 0).Awaits d := hd
  rcases hround hstart hfirst with hposts | ⟨hpassed, -⟩
  · exact ⟨0, hposts⟩
  -- from the second iteration on, a pass leaves the debt as the iteration before has left it
  have hlater :
      ∃ n, w.Posts setup registry (its (n + 1)) (w.storeAfter setup registry its s (n + 1))
      d.id := by
    refine @exists_of_rank (fun n => (w.storeAfter setup registry its s (n + 1)).Awaits d) _
      (fun n => (w.storeAfter setup registry its s (n + 1)).debt d) hpassed.awaits
      fun n hawaits => ?_
    obtain ⟨s₁, hpass⟩ := h (n + 1)
    have hdebt : s₁.debt d = (w.storeAfter setup registry its s (n + 1)).debt d := by
      rcases Int.lt_or_eq_of_le (hclock.next n) with hlt | heq
      · exact debt_pass hpass (Int.lt_of_le_of_lt (hdueAt n) hlt)
      · obtain ⟨s₀, hbefore⟩ := h n
        obtain ⟨hsound, hcovered⟩ := storeAfter_sound h hs hcovers n
        have hfresh := runOnce_fresh hbefore hsound hcovered
        rw [heq] at hfresh
        rw [pass_again (storeAfter_sound h hs hcovers (n + 1)).1 hfresh hpass]
    rcases hround hawaits hpass with hposts | ⟨hpassed, hless⟩
    · exact .inl hposts
    · exact .inr ⟨hpassed.awaits, hdebt ▸ hless⟩
  obtain ⟨n, hposts⟩ := hlater
  exact ⟨n + 1, hposts⟩

/-- A poison run ends every pass. -/
theorem Poison.raises (h : s.Poison registry record) (setup : Setup)
    (hcovers : s.Covers w.refreshLimit) (i : Iteration) :
    ∃ e, s.advanceWebhookRunsOnce setup registry w.refreshLimit i.advancedAt = .error e := by
  obtain ⟨hrecord, hadvanceable, hnone⟩ := h
  cases hpass : s.advanceWebhookRunsOnce setup registry w.refreshLimit i.advancedAt with
  | error e => exact ⟨e, rfl⟩
  | ok x =>
    obtain ⟨-, hall⟩ := refuse_bind_eq_ok.mp hpass
    obtain ⟨hbatch, -⟩ := advanceAll_refreshes (s.advanceBatch_nodup w.refreshLimit)
      (fun r hr => Table.get?_key (mem_advanceBatch hr).1) hall
    obtain ⟨definition, hdefinition, -⟩ := hbatch record (hcovers.mem hrecord hadvanceable)
    exact absurd hdefinition (hnone definition)

/-- An iteration whose pass raises has done nothing. -/
theorem raises_posts_nothing {e : CiLabError} {deliveryId : Uuid}
    (h : s.advanceWebhookRunsOnce setup registry w.refreshLimit i.advancedAt = .error e) :
    ¬ w.Posts setup registry i s deliveryId := by
  rintro ⟨claimed, hclaimed, -⟩
  rw [CiLabWebhookWorker.claimOnce_raises h] at hclaimed
  cases hclaimed

theorem Poison.stuck (h : s.Poison registry record) (setup : Setup)
    (hcovers : s.Covers w.refreshLimit) (its : Nat → Iteration) (n : Nat) :
    w.storeAfter setup registry its s n = s
      ∧ ∀ deliveryId, ¬ w.Posts setup registry (its n) (w.storeAfter setup registry its s n)
        deliveryId := by
  have hsame : w.storeAfter setup registry its s n = s := by
    induction n with
    | zero => rfl
    | succ n ih =>
      obtain ⟨e, hraises⟩ := h.raises setup hcovers (its n)
      show (w.runOnce setup registry (its n) (w.storeAfter setup registry its s n)).1 = s
      rw [ih, CiLabWebhookWorker.runOnce_raises hraises]
  obtain ⟨e, hraises⟩ := h.raises setup hcovers (its n)
  refine ⟨hsame, fun deliveryId => ?_⟩
  rw [hsame]
  exact raises_posts_nothing hraises

/-- Nothing isolates a poison run: with one in the batch the worker's loop does nothing at all.
Where no pass raises, every run of the batch is advanced by the next iteration, and every
delivery that waits, is due and comes after delivered ones only is posted. -/
theorem all_or_nothing (setup : Setup) (registry : DefinitionRegistry) (w : CiLabWebhookWorker)
    (its : Nat → Iteration) (es : List Event) :
    let s := Transition.run (step setup) empty es
    let after := w.storeAfter setup registry its s
    (s.Covers w.refreshLimit → (∃ record, s.Poison registry record) → ∀ n, after n = s
      ∧ ∀ deliveryId, ¬ w.Posts setup registry (its n) (after n) deliveryId)
    ∧ (s.Covers w.refreshLimit → NoneRaises setup registry w its s →
      (∀ n record, (after n).runs.get? record.id = some record → (after n).Advanceable record →
        ∃ definition, definitionForRecord registry record = .ok definition
          ∧ (after (n + 1)).runs.get? record.id
            = some ((after n).current setup definition (its n).advancedAt record).1
          ∧ (after (n + 1)).gates.get? record.id
            = ((after n).current setup definition (its n).advancedAt record).2)
      ∧ (Forward its → ∀ m, ∀ d ∈ (after m).deliveries.rows,
        d.status = .pending ∨ d.status = .retryWait → d.availableAt ≤ (its m).advancedAt →
        (∀ lower ∈ (after m).deliveries.rows, lower.runId = d.runId →
          lower.sequence < d.sequence → lower.status = .delivered) →
        ∃ n, w.Posts setup registry (its (m + n)) (after (m + n)) d.id)) := by
  intro s after
  have hs : s.Sound := run_sound setup es
  refine ⟨fun hcovers hpoison n => ?_,
    fun hcovers hnone => ⟨fun n record hrecord hadvanceable => ?_,
    fun hclock m d hd hidle hdue hpreceded => ?_⟩⟩
  · obtain ⟨record, hrecord⟩ := hpoison
    exact hrecord.stuck setup hcovers its n
  · obtain ⟨s₁, hpass⟩ := hnone n
    obtain ⟨hsound, hcovered⟩ := storeAfter_sound hnone hs hcovers n
    exact runOnce_advances hpass hsound hcovered hrecord hadvanceable
  · obtain ⟨hsound, hcovered⟩ := storeAfter_sound hnone hs hcovers m
    have hlater : Forward fun n => its (m + n) := fun n => hclock (m + n)
    obtain ⟨n, hposts⟩ := posted_of_awaits (hnone.from m) hlater hsound hcovered
      ⟨Table.get?_key hd, hidle, hpreceded⟩ hdue
    refine ⟨n, ?_⟩
    show w.Posts setup registry (its (m + n)) (w.storeAfter setup registry its s (m + n)) d.id
    rw [CiLabWebhookWorker.storeAfter_add]
    exact hposts

/-- One job of a minute. -/
def lessonDefinition (key : String) : PipelineDefinition where
  key
  name := key
  revision := 1
  queueDelayMs := 0
  stages := [⟨"test", "test", [⟨"unit", "unit", 60000, false⟩], by simp⟩]
  stages_ne := by simp

/-- A registry of a few definitions that differ in their keys alone. -/
def lessonRegistry (keys : List String) : DefinitionRegistry := fun key =>
  if key ∈ keys then some (lessonDefinition key) else none

/-- Clock readings and numbers written in decimal. -/
def lessonSetup : Setup where
  elapsedMs now createdAt := ((now - createdAt) / 1000).toNat
  isoformat now := toString now
  uuid id := toString id

/-- A worker with leases of 30 seconds, which advances 100 runs in a pass. -/
def lessonWorker : CiLabWebhookWorker := ⟨"worker", 30, 100, by decide +kernel⟩

/-- A request with a subscription. -/
def lessonRequested (correlationId : String) : TriggerRunRequest :=
  ⟨none, [], some 0, some correlationId, rfl⟩

/-- Two runs are triggered, each with a subscription; then the first one's definition goes. -/
def orphaned : List Event :=
  [⟨lessonRegistry ["build", "deploy"], 0, .trigger "build" (lessonRequested "key-1") "key-1"⟩,
    ⟨lessonRegistry ["build", "deploy"], 0, .trigger "deploy" (lessonRequested "key-2") "key-2"⟩]

/-- A minute later the second run could be advanced, and its delivery posted. -/
theorem orphaned_rows :
    (Transition.run (step lessonSetup) empty orphaned).Covers lessonWorker.refreshLimit
    ∧ (∃ first ∈ (Transition.run (step lessonSetup) empty orphaned).runs.rows,
        (Transition.run (step lessonSetup) empty orphaned).Advanceable first
        ∧ (definitionForRecord (lessonRegistry ["deploy"]) first).toOption.isNone)
    ∧ (∃ second ∈ (Transition.run (step lessonSetup) empty orphaned).runs.rows, second.id = 1
        ∧ (Transition.run (step lessonSetup) empty orphaned).Advanceable second
        ∧ ((Transition.run (step lessonSetup) empty orphaned).current lessonSetup
          (lessonDefinition "deploy") 60000000 second).1 ≠ second)
    ∧ ∃ d ∈ (Transition.run (step lessonSetup) empty orphaned).deliveries.rows, d.id = 1
        ∧ d.runId = 1 ∧ d.status = .pending ∧ d.availableAt = 0
        ∧ ∀ lower ∈ (Transition.run (step lessonSetup) empty orphaned).deliveries.rows,
          lower.runId = d.runId → ¬ lower.sequence < d.sequence := by
  decide +kernel

/-- The second run is never advanced, and its delivery is never posted. -/
theorem blocked_by_orphan :
    let s := Transition.run (step lessonSetup) empty orphaned
    s.Covers lessonWorker.refreshLimit
    ∧ (∃ record, s.Poison (lessonRegistry ["deploy"]) record)
    ∧ (∃ second ∈ s.runs.rows, second.id = 1 ∧ s.Advanceable second
        ∧ (s.current lessonSetup (lessonDefinition "deploy") 60000000 second).1 ≠ second)
    ∧ (∃ d ∈ s.deliveries.rows, d.id = 1 ∧ d.runId = 1 ∧ d.status = .pending ∧ d.availableAt = 0
        ∧ ∀ lower ∈ s.deliveries.rows, lower.runId = d.runId → ¬ lower.sequence < d.sequence)
    ∧ ∀ (its : Nat → Iteration) n,
        lessonWorker.storeAfter lessonSetup (lessonRegistry ["deploy"]) its s n = s
        ∧ ¬ lessonWorker.Posts lessonSetup (lessonRegistry ["deploy"]) (its n)
          (lessonWorker.storeAfter lessonSetup (lessonRegistry ["deploy"]) its s n) 1 := by
  obtain ⟨hcovers, ⟨first, hfirst, hadvanceable, hgone⟩, hsecond, hdelivery⟩ := orphaned_rows
  have hpoison : (Transition.run (step lessonSetup) empty orphaned).Poison
      (lessonRegistry ["deploy"]) first := by
    refine ⟨Table.get?_key hfirst, hadvanceable, fun definition hdefinition => ?_⟩
    rw [hdefinition] at hgone
    cases hgone
  refine ⟨hcovers, ⟨first, hpoison⟩, hsecond, hdelivery, fun its n => ?_⟩
  obtain ⟨hsame, hnothing⟩ := hpoison.stuck lessonSetup hcovers its n
  exact ⟨hsame, hnothing 1⟩

end QaPlatform.CiLab.CiLabStore
