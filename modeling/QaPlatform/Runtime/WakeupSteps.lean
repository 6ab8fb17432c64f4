import QaPlatform.Base.Transition
import QaPlatform.Runtime.QueueSteps
import QaPlatform.Runtime.Wakeups

/-!
# What dispatchers do to the outbox

The queue only adds rows to the outbox, and they are pending. Dispatchers rewrite one
row at a time: a claim one that is due, a settlement the one that its claim is of.
-/

namespace QaPlatform.Runtime

namespace TaskStore

variable {s s' : TaskStore} {now : Instant}

/-- The outbox keeps its rows, and the rows that come are pending. -/
structure OutboxGrows (s s' : TaskStore) : Prop where
  stay : ∀ k r, s.outbox.get? k = some r → s'.outbox.get? k = some r
  fresh : ∀ r ∈ s'.outbox.rows, r ∈ s.outbox.rows ∨ ∃ task now id, r = wakeupRow task now id

theorem OutboxGrows.refl (s : TaskStore) : OutboxGrows s s := ⟨fun _ _ => id, fun _ => .inl⟩

theorem OutboxGrows.trans {a b c : TaskStore} (h : OutboxGrows a b) (h' : OutboxGrows b c) :
    OutboxGrows a c where
  stay k r hr := h'.stay k r (h.stay k r hr)
  fresh r hr := by
    rcases h'.fresh r hr with hold | hnew
    · exact h.fresh r hold
    · exact .inr hnew

theorem outboxGrows_addWakeup (s : TaskStore) (tasks : Table AutomationTaskRecord)
    (t : AutomationTaskRecord) (now : Instant) :
    OutboxGrows s { tasks, outbox := s.addWakeup t now } where
  stay _ _ hr := get?_addWakeup hr
  fresh r hr := by
    rcases mem_addWakeup hr with hold | rfl
    · exact .inl hold
    · exact .inr ⟨t, now, _, rfl⟩

end TaskStore

open TaskStore (OutboxGrows)

theorem QueueStep.outboxGrows {s s' : TaskStore} (h : QueueStep s s') : OutboxGrows s s' := by
  cases h with
  | write hwrite =>
    cases hwrite with
    | move => exact ⟨fun _ _ => id, fun _ => .inl⟩
    | wait => exact TaskStore.outboxGrows_addWakeup s _ _ _
    | insert => exact TaskStore.outboxGrows_addWakeup s _ _ _
  | lease => exact ⟨fun _ _ => id, fun _ => .inl⟩

theorem QueueSteps.outboxGrows {s s' : TaskStore} (h : QueueSteps s s') : OutboxGrows s s' := by
  induction h with
  | refl => exact .refl s
  | tail _ hstep ih => exact ih.trans hstep.outboxGrows

namespace TaskStore

variable {s s' : TaskStore} {now : Instant}

theorem claimTaskWakeup_some {dispatcherId leaseToken : String} {leaseSeconds : Int}
    {skipped : List Uuid} {claim : ClaimedTaskWakeup}
    (h : s.claimTaskWakeup dispatcherId leaseSeconds leaseToken now skipped = (s', some claim)) :
    ∃ r, s.outbox.get? r.id = some r ∧ r.Due now
      ∧ claim = ⟨r.id, dispatcherId, leaseToken, r.version + 1, r.publishAttempts + 1⟩
      ∧ s' = { s with
          outbox := s.outbox.put (r.claimed dispatcherId leaseToken leaseSeconds now) } := by
  unfold claimTaskWakeup at h
  cases hr : s.claimTaskWakeupOutbox now skipped with
  | none =>
    rw [hr] at h
    exact absurd (Prod.mk.inj h).2 (by simp)
  | some r =>
    rw [hr] at h
    obtain ⟨rfl, hclaim⟩ := Prod.mk.inj h
    have hmem := List.mem_filter.mp (mem_of_firstBy hr)
    exact ⟨r, Table.get?_key hmem.1, (of_decide_eq_true hmem.2).1, (Option.some.inj hclaim).symm,
      rfl⟩

theorem settleable_eq_some {claim : ClaimedTaskWakeup} {cutoff : Instant}
    {r : AutomationTaskWakeupOutboxRecord} :
    s.settleable claim cutoff = some r
      ↔ s.outbox.get? claim.outboxId = some r ∧ r.Settleable claim cutoff := by
  simp [settleable, Option.filter_eq_some_iff]

/-- A settlement finds its row and rewrites it, or does nothing. -/
theorem settleTaskWakeup_cases (s : TaskStore) (claim : ClaimedTaskWakeup) (published : Bool)
    (now cutoff : Instant) :
    (s.settleable claim cutoff = none
      ∧ s.settleTaskWakeup claim published now cutoff = (s, false))
    ∨ ∃ r, s.outbox.get? claim.outboxId = some r ∧ r.Settleable claim cutoff
      ∧ s.settleTaskWakeup claim published now cutoff = ({ s with
          outbox := s.outbox.put
            (r.settled published (now + republishDelay claim.publishAttempts) now) }, true) := by
  unfold settleTaskWakeup
  cases hr : s.settleable claim cutoff with
  | none => exact .inl ⟨rfl, rfl⟩
  | some r =>
    obtain ⟨hget, hsettleable⟩ := settleable_eq_some.mp hr
    exact .inr ⟨r, hget, hsettleable, rfl⟩

end TaskStore

/-! ## Events -/

namespace WakeupSystem

variable {setup : Setup} {s : WakeupSystem}

theorem outcome_eq_some {progress : WakeupProgress} {published : Bool} :
    progress.outcome = some published ↔ progress = .attempted published := by
  cases progress with
  | claimed => simp [WakeupProgress.outcome]
  | attempted published' => simp [WakeupProgress.outcome]
  | settled found => simp [WakeupProgress.outcome]

theorem getElem?_advance {p q : Nat} {d d' : WakeupDispatch} {progress : WakeupProgress}
    (h : (s.advance p d progress).wakeups[q]? = some d') :
    (p = q ∧ d' = { d with progress }) ∨ (p ≠ q ∧ s.wakeups[q]? = some d') := by
  have hset : (s.wakeups.set p { d with progress })[q]? = some d' := h
  rw [List.getElem?_set] at hset
  by_cases hpq : p = q
  · rw [if_pos hpq] at hset
    split at hset
    · exact .inl ⟨hpq, (Option.some.inj hset).symm⟩
    · simp at hset
  · rw [if_neg hpq] at hset
    exact .inr ⟨hpq, hset⟩

/-- What an event does. -/
inductive WakeupStep (setup : Setup) (s : WakeupSystem) : WakeupEvent → WakeupSystem → Prop
  | scheduler (e : SchedulerEvent) :
      WakeupStep setup s (.scheduler e) { s with scheduler := s.scheduler.step setup e }
  | idle (e : WakeupEvent) : WakeupStep setup s e s
  | claim (now : Instant) (dispatcherId : String) (leaseSeconds : Int) (leaseToken : String)
      (skipped : List Uuid) (r : AutomationTaskWakeupOutboxRecord) (hlease : 0 ≤ leaseSeconds)
      (hr : s.queue.outbox.get? r.id = some r) (hdue : r.Due now) :
      WakeupStep setup s (.claim now dispatcherId leaseSeconds leaseToken skipped)
        { s.withQueue { s.queue with
            outbox := s.queue.outbox.put (r.claimed dispatcherId leaseToken leaseSeconds now) } with
          wakeups := s.wakeups ++ [⟨⟨r.id, dispatcherId, leaseToken, r.version + 1,
            r.publishAttempts + 1⟩, now, now + seconds leaseSeconds, .claimed⟩] }
  | publish (p : Nat) (now : Instant) (published : Bool) (d : WakeupDispatch)
      (hd : s.wakeups[p]? = some d) (hprogress : d.progress = .claimed) :
      WakeupStep setup s (.publish p now published)
        { s.advance p d (.attempted published) with
          publishes := s.publishes ++ [⟨p, now, published⟩] }
  /-- The settlement does not find the row. -/
  | lost (p : Nat) (now cutoff : Instant) (d : WakeupDispatch) (published : Bool)
      (hd : s.wakeups[p]? = some d) (hprogress : d.progress = .attempted published) :
      WakeupStep setup s (.settle p now cutoff) (s.advance p d (.settled false))
  | settle (p : Nat) (now cutoff : Instant) (d : WakeupDispatch) (published : Bool)
      (r : AutomationTaskWakeupOutboxRecord) (hd : s.wakeups[p]? = some d)
      (hprogress : d.progress = .attempted published)
      (hr : s.queue.outbox.get? r.id = some r) (hsettleable : r.Settleable d.claim cutoff) :
      WakeupStep setup s (.settle p now cutoff)
        ((s.withQueue { s.queue with
          outbox := s.queue.outbox.put
            (r.settled published (now + republishDelay d.claim.publishAttempts) now) }).advance p d
          (.settled true))

theorem validateTaskWakeupDispatcher_lease {dispatcherId : String} {leaseSeconds : Int} {u : Unit}
    (h : validateTaskWakeupDispatcher dispatcherId leaseSeconds = .ok u) : 0 ≤ leaseSeconds := by
  unfold validateTaskWakeupDispatcher at h
  obtain ⟨-, h⟩ := refuse_bind_eq_ok.mp h
  have hbounds := not_not.mp (refuse_eq_ok.mp h)
  omega

theorem step_claim (setup : Setup) (s : WakeupSystem) (now : Instant) (dispatcherId : String)
    (leaseSeconds : Int) (leaseToken : String) (skipped : List Uuid) :
    WakeupStep setup s (.claim now dispatcherId leaseSeconds leaseToken skipped)
      (s.step setup (.claim now dispatcherId leaseSeconds leaseToken skipped)) := by
  show WakeupStep setup s _ ((validateTaskWakeupDispatcher dispatcherId leaseSeconds).toOption.elim
    s fun _ => s.claimDispatch now dispatcherId leaseSeconds leaseToken skipped)
  cases hvalid : validateTaskWakeupDispatcher dispatcherId leaseSeconds with
  | error e => exact .idle _
  | ok u =>
    show WakeupStep setup s _ (s.claimDispatch now dispatcherId leaseSeconds leaseToken skipped)
    unfold claimDispatch
    cases hclaim : s.queue.claimTaskWakeup dispatcherId leaseSeconds leaseToken now skipped with
    | mk queue claim =>
      cases claim with
      | none => exact .idle _
      | some claim =>
        obtain ⟨r, hr, hdue, rfl, rfl⟩ := TaskStore.claimTaskWakeup_some hclaim
        exact .claim now dispatcherId leaseSeconds leaseToken skipped r
          (validateTaskWakeupDispatcher_lease hvalid) hr hdue

theorem step_settle (setup : Setup) (s : WakeupSystem) (p : Nat) (now cutoff : Instant) :
    WakeupStep setup s (.settle p now cutoff) (s.step setup (.settle p now cutoff)) := by
  show WakeupStep setup s _ ((s.wakeups[p]?).elim s fun d => s.settleDispatch p d now cutoff)
  cases hd : s.wakeups[p]? with
  | none => exact .idle _
  | some d =>
    show WakeupStep setup s _ (s.settleDispatch p d now cutoff)
    unfold settleDispatch
    cases houtcome : d.progress.outcome with
    | none => exact .idle _
    | some published =>
      have hprogress := outcome_eq_some.mp houtcome
      show WakeupStep setup s _
        ((s.withQueue (s.queue.settleTaskWakeup d.claim published now cutoff).1).advance p d
          (.settled (s.queue.settleTaskWakeup d.claim published now cutoff).2))
      rcases s.queue.settleTaskWakeup_cases d.claim published now cutoff
        with ⟨-, hsettled⟩ | ⟨r, hr, hsettleable, hsettled⟩
      · rw [hsettled]
        exact .lost p now cutoff d published hd hprogress
      · rw [hsettled]
        have hown : s.queue.outbox.get? r.id = some r := by rw [hsettleable.1, hr]
        exact .settle p now cutoff d published r hd hprogress hown hsettleable

theorem step_cases (setup : Setup) (s : WakeupSystem) (e : WakeupEvent) :
    WakeupStep setup s e (s.step setup e) := by
  cases e with
  | scheduler e => exact .scheduler e
  | claim now dispatcherId leaseSeconds leaseToken skipped =>
    exact step_claim setup s now dispatcherId leaseSeconds leaseToken skipped
  | publish p now published =>
    show WakeupStep setup s _ ((s.wakeups[p]?).elim s fun d => s.publishDispatch p d now published)
    cases hd : s.wakeups[p]? with
    | none => exact .idle _
    | some d =>
      show WakeupStep setup s _ (s.publishDispatch p d now published)
      unfold publishDispatch
      split
      · next hprogress => exact .publish p now published d hd hprogress
      · exact .idle _
  | settle p now cutoff => exact step_settle setup s p now cutoff

end WakeupSystem

end QaPlatform.Runtime
