import QaPlatform.Base.Fence
import QaPlatform.Runtime.WakeupSteps

/-!
# Settling a wake-up

Publishing happens outside SQL, so old and new holders of a row overlap. Each claim
and each settlement gives the row another version: the row is a fenced slot, and a
dispatch is a ticket for it.

The fence of `Base.Fence` gives what is common to such rows: no two tickets of one row are out
at a time, and one that is not of the row's version is stale. What is added here is the log: a
row that is marked as published has been published for, by the dispatch whose claim the row had
when it was marked.
-/

namespace QaPlatform.Runtime

/-! ## Rows -/

namespace AutomationTaskWakeupOutboxRecord

/-- The check constraints of the table. -/
structure Shaped (r : AutomationTaskWakeupOutboxRecord) : Prop where
  lease : (r.status = .claimed ∧ r.leaseOwner.isSome ∧ r.leaseTokenHash.isSome
      ∧ r.leaseExpiresAt.isSome)
    ∨ (r.status ≠ .claimed ∧ r.leaseOwner = none ∧ r.leaseTokenHash = none
      ∧ r.leaseExpiresAt = none)
  published : r.status = .published ↔ r.publishedAt.isSome

variable {r : AutomationTaskWakeupOutboxRecord} {now : Instant}

theorem wakeupRow_shaped (task : AutomationTaskRecord) (now : Instant) (id : Uuid) :
    (wakeupRow task now id).Shaped :=
  ⟨.inr ⟨by simp [wakeupRow], rfl, rfl, rfl⟩, by simp [wakeupRow]⟩

theorem Due.not_published (h : r.Due now) : r.status ≠ .published := by
  rcases h with ⟨hs | hs, -⟩ | ⟨hs, -⟩
  · simp [hs]
  · simp [hs]
  · simp [hs]

theorem Shaped.claimed (h : r.Shaped) (hdue : r.Due now) (dispatcherId leaseToken : String)
    (leaseSeconds : Int) : (r.claimed dispatcherId leaseToken leaseSeconds now).Shaped where
  lease := .inl ⟨rfl, rfl, rfl, rfl⟩
  published := by
    have hnone : ¬ r.publishedAt.isSome := fun hsome => hdue.not_published (h.published.mpr hsome)
    refine ⟨fun hs => ?_, fun hsome => absurd hsome hnone⟩
    have hclaimed : WakeupStatus.claimed = .published := hs
    simp at hclaimed

theorem settled_shaped (r : AutomationTaskWakeupOutboxRecord) (published : Bool)
    (retryAt now : Instant) : (r.settled published retryAt now).Shaped where
  lease := by
    right
    cases published
    · exact ⟨by simp [settled], rfl, rfl, rfl⟩
    · exact ⟨by simp [settled], rfl, rfl, rfl⟩
  published := by
    cases published
    · simp [settled]
    · simp [settled]

/-- A row that may be claimed has no lease that is still valid. -/
theorem Shaped.free (h : r.Shaped) (hdue : r.Due now) {e : Instant}
    (he : r.leaseExpiresAt = some e) : e ≤ now := by
  rcases hdue with ⟨hs, -⟩ | ⟨-, hover⟩
  · rcases h.lease with ⟨hclaimed, -⟩ | ⟨-, -, -, hnone⟩
    · rcases hs with hs | hs
      · rw [hs] at hclaimed
        simp at hclaimed
      · rw [hs] at hclaimed
        simp at hclaimed
    · rw [hnone] at he
      simp at he
  · simpa [he] using hover

end AutomationTaskWakeupOutboxRecord

/-! ## The system -/

/-- The row as a slot. -/
def AutomationTaskWakeupOutboxRecord.slot (r : AutomationTaskWakeupOutboxRecord) : Fence.Slot :=
  ⟨r.version, r.leaseExpiresAt⟩

/-- The dispatch as a ticket. -/
def WakeupDispatch.ticket (d : WakeupDispatch) : Fence.Ticket :=
  ⟨d.claim.outboxId, d.claim.expectedVersion, d.expiresAt, d.progress = .settled true⟩

namespace WakeupSystem

/-- The rows of the outbox as what is leased. -/
def slots (queue : TaskStore) (k : Nat) : Option Fence.Slot :=
  (queue.outbox.get? k).map AutomationTaskWakeupOutboxRecord.slot

/-- The claims that have been made, as tickets. -/
def tickets (s : WakeupSystem) : List Fence.Ticket := s.wakeups.map WakeupDispatch.ticket

/-- No wake-up has been claimed later than `now`. -/
def ClaimedBy (s : WakeupSystem) (now : Instant) : Prop := ∀ d ∈ s.wakeups, d.claimedAt ≤ now

/-- The claims are fenced by the attempts of the rows, and what they have published is logged. -/
structure Inv (s : WakeupSystem) : Prop where
  fenced : ∀ now, s.ClaimedBy now → Fence.Fenced (slots s.queue) s.tickets now
  shaped : ∀ r ∈ s.queue.outbox.rows, r.Shaped
  logged : ∀ (p : Nat) (d : WakeupDispatch), s.wakeups[p]? = some d → d.progress = .attempted true →
    ∃ x ∈ s.publishes, x.dispatch = p ∧ x.published = true

variable {setup : Setup} {s : WakeupSystem}

theorem empty_inv : empty.Inv where
  fenced _ _ := .nil
  shaped := by simp [empty, queue, SchedulerSystem.empty, Table.empty]
  logged := by simp [empty]

theorem Inv.scheduler (h : s.Inv) (e : SchedulerEvent) :
    Inv { s with scheduler := s.scheduler.step setup e } where
  fenced now hnow := by
    have hgrows := (SchedulerSystem.step_queueSteps setup s.scheduler e).outboxGrows
    refine (h.fenced now hnow).extend fun k slot hslot => ?_
    obtain ⟨r, hr, rfl⟩ := Option.map_eq_some_iff.mp hslot
    exact Option.map_eq_some_iff.mpr ⟨r, hgrows.stay k r hr, rfl⟩
  shaped r hr := by
    have hgrows := (SchedulerSystem.step_queueSteps setup s.scheduler e).outboxGrows
    rcases hgrows.fresh r hr with hold | ⟨task, now, id, rfl⟩
    · exact h.shaped r hold
    · exact AutomationTaskWakeupOutboxRecord.wakeupRow_shaped task now id
  logged := h.logged

/-- One row is rewritten. -/
theorem slots_put {queue : TaskStore} {r : AutomationTaskWakeupOutboxRecord}
    (r' : AutomationTaskWakeupOutboxRecord) (hr : queue.outbox.get? r.id = some r)
    (hid : r'.id = r.id) :
    slots { queue with outbox := queue.outbox.put r' } r.id = some r'.slot
      ∧ ∀ j, j ≠ r.id → slots { queue with outbox := queue.outbox.put r' } j = slots queue j := by
  constructor
  · have hput : (queue.outbox.put r').get? r.id = some r' := Table.get?_put_self hr hid
    show ((queue.outbox.put r').get? r.id).map _ = _
    rw [hput]
    rfl
  · intro j hj
    have hput : (queue.outbox.put r').get? j = queue.outbox.get? j :=
      Table.get?_put_of_ne (by rw [AutomationTaskWakeupOutboxRecord.key_eq, hid]; exact hj.symm)
    show ((queue.outbox.put r').get? j).map _ = _
    rw [hput]
    rfl

theorem Inv.claimed (h : s.Inv) {r : AutomationTaskWakeupOutboxRecord} {now : Instant}
    (hr : s.queue.outbox.get? r.id = some r) (hdue : r.Due now) (dispatcherId leaseToken : String)
    (leaseSeconds : Int) :
    Inv { s.withQueue { s.queue with
        outbox := s.queue.outbox.put (r.claimed dispatcherId leaseToken leaseSeconds now) } with
      wakeups := s.wakeups ++ [⟨⟨r.id, dispatcherId, leaseToken, r.version + 1,
        r.publishAttempts + 1⟩, now, now + seconds leaseSeconds, .claimed⟩] } := by
  have hmem : r ∈ s.queue.outbox.rows := Table.mem_of_get? hr
  have hshaped := h.shaped r hmem
  obtain ⟨hself, hothers⟩ := slots_put (r.claimed dispatcherId leaseToken leaseSeconds now) hr rfl
  refine ⟨fun later hlater => ?_, fun r' hr' => ?_, fun p d hd hattempted => ?_⟩
  · have hslot : slots s.queue r.id = some r.slot := Option.map_eq_some_iff.mpr ⟨r, hr, rfl⟩
    have hbefore : s.ClaimedBy later := fun d hd => hlater d (List.mem_append_left _ hd)
    have hnow : now ≤ later := hlater _ (List.mem_append_right _ List.mem_cons_self)
    have htake := (h.fenced later hbefore).take hslot hself hothers (Nat.lt_succ_self _)
      (fun e he => (hshaped.free hdue he).trans hnow) rfl
    show Fence.Fenced _ ((s.wakeups ++ _).map WakeupDispatch.ticket) _
    rw [List.map_append]
    exact htake
  · rcases Table.mem_put hr' with rfl | ⟨hold, -⟩
    · exact hshaped.claimed hdue dispatcherId leaseToken leaseSeconds
    · exact h.shaped r' hold
  · rcases List.mem_append.mp (List.mem_of_getElem? hd) with hold | hnew
    · by_cases hp : p < s.wakeups.length
      · rw [List.getElem?_append_left hp] at hd
        exact h.logged p d hd hattempted
      · rw [List.getElem?_append_right (by omega)] at hd
        obtain rfl := List.mem_singleton.mp (List.mem_of_getElem? hd)
        simp at hattempted
    · obtain rfl := List.mem_singleton.mp hnew
      simp at hattempted

/-- A dispatch goes on without giving its claim back. -/
theorem tickets_advance {p : Nat} {d : WakeupDispatch} (hd : s.wakeups[p]? = some d)
    {progress : WakeupProgress}
    (hsame : (d.progress = .settled true) = (progress = .settled true)) :
    (s.advance p d progress).tickets = s.tickets := by
  obtain ⟨hp, hget⟩ := List.getElem?_eq_some_iff.mp hd
  have hlen : p < (s.wakeups.map WakeupDispatch.ticket).length := by simpa using hp
  have hticket : (s.wakeups.map WakeupDispatch.ticket)[p]
      = WakeupDispatch.ticket { d with progress } := by
    rw [List.getElem_map, hget]
    simp only [WakeupDispatch.ticket, hsame]
  show (s.wakeups.set p { d with progress }).map WakeupDispatch.ticket = _
  rw [List.map_set, ← hticket, List.set_getElem_self]
  rfl

theorem claimedBy_advance {queue : TaskStore} {p : Nat} {d : WakeupDispatch}
    (hd : s.wakeups[p]? = some d) {progress : WakeupProgress} {now : Instant}
    (h : ((s.withQueue queue).advance p d progress).ClaimedBy now) : s.ClaimedBy now := by
  intro d' hd'
  obtain ⟨q, hq⟩ := List.mem_iff_getElem?.mp hd'
  by_cases hpq : p = q
  · subst hpq
    obtain rfl := Option.some.inj (hd.symm.trans hq)
    obtain ⟨hp, -⟩ := List.getElem?_eq_some_iff.mp hd
    exact h { d with progress } (List.mem_set hp _)
  · refine h d' (List.mem_of_getElem? (i := q) ?_)
    show (s.wakeups.set p _)[q]? = _
    rw [List.getElem?_set_ne hpq, hq]

theorem Inv.published (h : s.Inv) {p : Nat} {d : WakeupDispatch} (hd : s.wakeups[p]? = some d)
    (hprogress : d.progress = .claimed) (now : Instant) (published : Bool) :
    Inv { s.advance p d (.attempted published) with
      publishes := s.publishes ++ [⟨p, now, published⟩] } where
  fenced later hlater := by
    show Fence.Fenced _ (s.advance p d (.attempted published)).tickets _
    rw [tickets_advance hd (by simp [hprogress])]
    exact h.fenced later (claimedBy_advance hd hlater)
  shaped := h.shaped
  logged q d' hd' hattempted := by
    rcases getElem?_advance hd' with ⟨rfl, rfl⟩ | ⟨-, hold⟩
    · refine ⟨_, List.mem_append_right _ List.mem_cons_self, rfl, ?_⟩
      exact WakeupProgress.attempted.inj hattempted
    · obtain ⟨x, hx, hkeys⟩ := h.logged q d' hold hattempted
      exact ⟨x, List.mem_append_left _ hx, hkeys⟩

/-- A dispatch that has been settled is not one that waits for its settlement. -/
theorem Inv.logged_settled (h : s.Inv) {queue : TaskStore} {p q : Nat} {d d' : WakeupDispatch}
    {found : Bool} (hd' : ((s.withQueue queue).advance p d (.settled found)).wakeups[q]? = some d')
    (hattempted : d'.progress = .attempted true) :
    ∃ x ∈ s.publishes, x.dispatch = q ∧ x.published = true := by
  rcases getElem?_advance hd' with ⟨rfl, rfl⟩ | ⟨-, hold⟩
  · simp at hattempted
  · exact h.logged q d' hold hattempted

theorem Inv.settled (h : s.Inv) {p : Nat} {d : WakeupDispatch} (hd : s.wakeups[p]? = some d)
    {r : AutomationTaskWakeupOutboxRecord} (hr : s.queue.outbox.get? r.id = some r)
    {now cutoff : Instant} (hsettleable : r.Settleable d.claim cutoff) (published : Bool) :
    ((s.withQueue { s.queue with
      outbox := s.queue.outbox.put
        (r.settled published (now + republishDelay d.claim.publishAttempts) now) }).advance p d
      (.settled true)).Inv where
  fenced later hlater := by
    have hticket : s.tickets[p]? = some d.ticket := by simp [tickets, hd]
    obtain ⟨hself, hothers⟩ := slots_put
      (r.settled published (now + republishDelay d.claim.publishAttempts) now) hr rfl
    have hslot : slots s.queue r.id = some r.slot := Option.map_eq_some_iff.mpr ⟨r, hr, rfl⟩
    rw [hsettleable.1] at hself hothers hslot
    have hback := (h.fenced later (claimedBy_advance hd hlater)).giveBack hticket hslot hself
      hothers hsettleable.2.2.2.2.1.symm (Nat.lt_succ_self _)
    show Fence.Fenced _ ((s.wakeups.set p _).map WakeupDispatch.ticket) _
    rw [List.map_set]
    exact hback
  shaped r' hr' := by
    rcases Table.mem_put hr' with rfl | ⟨hold, -⟩
    · exact AutomationTaskWakeupOutboxRecord.settled_shaped r published _ now
    · exact h.shaped r' hold
  logged _ _ hd' hattempted := h.logged_settled hd' hattempted

theorem Inv.step (h : s.Inv) (e : WakeupEvent) : (s.step setup e).Inv := by
  have hstep := step_cases setup s e
  generalize s.step setup e = s' at hstep ⊢
  cases hstep with
  | scheduler e => exact h.scheduler e
  | idle => exact h
  | claim now dispatcherId leaseSeconds leaseToken skipped r hlease hr hdue =>
    exact h.claimed hr hdue dispatcherId leaseToken leaseSeconds
  | publish p now published d hd hprogress => exact h.published hd hprogress now published
  | lost p now cutoff d published hd hprogress =>
    refine ⟨fun later hlater => ?_, h.shaped, fun _ _ hd' => h.logged_settled hd'⟩
    rw [tickets_advance hd (by simp [hprogress])]
    exact h.fenced later (claimedBy_advance hd hlater)
  | settle p now cutoff d published r hd hprogress hr hsettleable =>
    exact h.settled hd hr hsettleable published

theorem run_inv (setup : Setup) (es : List WakeupEvent) :
    (Transition.run (WakeupSystem.step setup) empty es).Inv :=
  Transition.invariant_run (I := WakeupSystem.Inv) (fun _ e h => h.step e) empty_inv es

/-! ## What is settled stays -/

/-- A published row is not written to. -/
theorem step_published {k : Uuid} {r : AutomationTaskWakeupOutboxRecord}
    (hr : s.queue.outbox.get? k = some r) (hpublished : r.status = .published)
    (e : WakeupEvent) : (s.step setup e).queue.outbox.get? k = some r := by
  have hput {r₁ r₁' : AutomationTaskWakeupOutboxRecord}
      (hr₁ : s.queue.outbox.get? r₁.id = some r₁) (hid : r₁'.id = r₁.id)
      (hother : r₁.status ≠ .published) : (s.queue.outbox.put r₁').get? k = some r := by
    have hne : r₁'.id ≠ k := by
      rintro rfl
      rw [hid, hr₁] at hr
      obtain rfl := Option.some.inj hr
      exact hother hpublished
    rw [← hr]
    exact Table.get?_put_of_ne hne
  have hstep := step_cases setup s e
  generalize s.step setup e = s' at hstep ⊢
  cases hstep with
  | scheduler e =>
    exact (SchedulerSystem.step_queueSteps setup s.scheduler e).outboxGrows.stay k r hr
  | idle => exact hr
  | publish => exact hr
  | lost => exact hr
  | claim now dispatcherId leaseSeconds leaseToken skipped r₁ hlease hr₁ hdue =>
    exact hput hr₁ rfl hdue.not_published
  | settle p now cutoff d published r₁ hd hprogress hr₁ hsettleable =>
    exact hput hr₁ rfl (by simp [hsettleable.2.1])

theorem run_published (es : List WakeupEvent) {k : Uuid} {r : AutomationTaskWakeupOutboxRecord}
    (hr : s.queue.outbox.get? k = some r) (hpublished : r.status = .published) :
    (Transition.run (WakeupSystem.step setup) s es).queue.outbox.get? k = some r := by
  induction es generalizing s with
  | nil => exact hr
  | cons e es ih => exact ih (step_published hr hpublished e)

/-- A settlement with a token, a version or a lease that is not the row's changes nothing. -/
def RefusesStale (s : WakeupSystem) : Prop :=
  ∀ (claim : ClaimedTaskWakeup) (published : Bool) (now cutoff : Instant)
    (r : AutomationTaskWakeupOutboxRecord), s.queue.outbox.get? claim.outboxId = some r →
    (r.leaseTokenHash ≠ some (tokenHash claim.leaseToken) ∨ r.version ≠ claim.expectedVersion
      ∨ r.leaseExpiresAt.all (· ≤ cutoff)) →
    s.queue.settleTaskWakeup claim published now cutoff = (s.queue, false)

/-- The claims that are out and have not expired are of different rows. -/
def ClaimedOnce (s : WakeupSystem) : Prop :=
  ∀ now, s.ClaimedBy now → ∀ (p q : Nat) (d d' : WakeupDispatch), s.wakeups[p]? = some d →
    s.wakeups[q]? = some d' → d.claim.outboxId = d'.claim.outboxId →
    d.progress ≠ .settled true → d'.progress ≠ .settled true →
    now < d.expiresAt → now < d'.expiresAt → p = q

/-- What marks a row published is the settlement of the claim that the row has, after a
publish for that claim. -/
def MarksWhatWasPublished (setup : Setup) (s : WakeupSystem) : Prop :=
  ∀ (e : WakeupEvent) (k : Uuid) (r' : AutomationTaskWakeupOutboxRecord),
    (s.step setup e).queue.outbox.get? k = some r' → r'.status = .published →
    (∀ r, s.queue.outbox.get? k = some r → r.status ≠ .published) →
    ∃ p now cutoff d r, e = .settle p now cutoff ∧ s.wakeups[p]? = some d
      ∧ s.queue.outbox.get? k = some r ∧ r.Settleable d.claim cutoff
      ∧ ∃ x ∈ s.publishes, x.dispatch = p ∧ x.published = true

theorem refusesStale (s : WakeupSystem) : s.RefusesStale := by
  intro claim published now cutoff r hr hstale
  rcases s.queue.settleTaskWakeup_cases claim published now cutoff
    with ⟨-, hsettled⟩ | ⟨r₁, hr₁, hsettleable, -⟩
  · exact hsettled
  · obtain rfl := Option.some.inj (hr.symm.trans hr₁)
    obtain ⟨-, -, -, htoken, hversion, hlease⟩ := hsettleable
    rcases hstale with hother | hother | hover
    · exact absurd htoken hother
    · exact absurd hversion hother
    · cases hexpiry : r.leaseExpiresAt with
      | none => simp [hexpiry] at hlease
      | some expiry =>
        have hlate : expiry ≤ cutoff := by simpa [hexpiry] using hover
        have hearly : cutoff < expiry := by simpa [hexpiry] using hlease
        exact absurd hearly (not_lt.mpr hlate)

theorem Inv.claimedOnce (h : s.Inv) : s.ClaimedOnce := by
  intro now hnow p q d d' hd hd' hrow hout hout' hlive hlive'
  have hticket {q : Nat} {d : WakeupDispatch} (hd : s.wakeups[q]? = some d) :
      s.tickets[q]? = some d.ticket := by
    simp [tickets, hd]
  exact (h.fenced now hnow).exclusive le_rfl (hticket hd) (hticket hd') hrow (decide_eq_false hout)
    (decide_eq_false hout') hlive hlive'

theorem Inv.marksWhatWasPublished (h : s.Inv) : s.MarksWhatWasPublished setup := by
  intro e k r' hr' hpublished hbefore
  have hput {r₁ : AutomationTaskWakeupOutboxRecord} (r₁' : AutomationTaskWakeupOutboxRecord)
      (hr₁ : s.queue.outbox.get? r₁.id = some r₁) (hid : r₁'.id = r₁.id)
      (hafter : (s.queue.outbox.put r₁').get? k = some r') : r₁.id = k ∧ r₁' = r' := by
    by_cases hk : r₁'.id = k
    · have hbefore₁ : s.queue.outbox.get? k = some r₁ := by rw [← hk, hid, hr₁]
      have hself : (s.queue.outbox.put r₁').get? k = some r₁' := Table.get?_put_self hbefore₁ hk
      exact ⟨hid ▸ hk, Option.some.inj (hself.symm.trans hafter)⟩
    · have hold : (s.queue.outbox.put r₁').get? k = s.queue.outbox.get? k :=
        Table.get?_put_of_ne hk
      exact absurd hpublished (hbefore r' (hold.symm.trans hafter))
  have hsame (hr' : s.queue.outbox.get? k = some r') : False := hbefore r' hr' hpublished
  have hstep := step_cases setup s e
  generalize s.step setup e = s' at hr' hstep
  cases hstep with
  | idle => exact (hsame hr').elim
  | publish => exact (hsame hr').elim
  | lost => exact (hsame hr').elim
  | scheduler e =>
    have hgrows := (SchedulerSystem.step_queueSteps setup s.scheduler e).outboxGrows
    rcases hgrows.fresh r' (Table.mem_of_get? hr') with hold | ⟨task, now, id, rfl⟩
    · have hid : r'.id = k := Table.key_of_get? hr'
      exact absurd hpublished (hbefore r' (Table.get?_eq_some.mpr ⟨hold, hid⟩))
    · simp [wakeupRow] at hpublished
  | claim now dispatcherId leaseSeconds leaseToken skipped r hlease hr hdue =>
    obtain ⟨-, rfl⟩ := hput (r.claimed dispatcherId leaseToken leaseSeconds now) hr rfl hr'
    have hclaimed : WakeupStatus.claimed = .published := hpublished
    simp at hclaimed
  | settle p now cutoff d published r hd hprogress hr hsettleable =>
    obtain ⟨rfl, rfl⟩ := hput (r.settled published
      (now + republishDelay d.claim.publishAttempts) now) hr rfl hr'
    have htrue : published = true := by
      by_contra hfalse
      simp [AutomationTaskWakeupOutboxRecord.settled, hfalse] at hpublished
    subst htrue
    exact ⟨p, now, cutoff, d, r, rfl, hd, hr, hsettleable, h.logged p d hd hprogress⟩

/-- The compare-and-set of the outbox, over a run `es` and what comes after it. -/
theorem wakeup_cas (setup : Setup) (es fs : List WakeupEvent) :
    (Transition.run (WakeupSystem.step setup) empty es).RefusesStale
    ∧ (∀ k r, (Transition.run (WakeupSystem.step setup) empty es).queue.outbox.get? k = some r →
      r.status = .published →
      (Transition.run (WakeupSystem.step setup) empty (es ++ fs)).queue.outbox.get? k = some r)
    ∧ (Transition.run (WakeupSystem.step setup) empty es).ClaimedOnce
    ∧ (Transition.run (WakeupSystem.step setup) empty es).MarksWhatWasPublished setup := by
  have hinv := run_inv setup es
  refine ⟨refusesStale _, fun k r hr hpublished => ?_, hinv.claimedOnce,
    hinv.marksWhatWasPublished⟩
  rw [Transition.run_append]
  exact run_published fs hr hpublished

end WakeupSystem

end QaPlatform.Runtime
