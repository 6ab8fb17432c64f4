import QaPlatform.Base.Transition
import QaPlatform.Runtime.MirroredTasks
import QaPlatform.Runtime.TaskLifecycle

/-!
# One machine in two queues

The in-memory queue and the persistent one beside each other, with the same calls at
the same times. Each method keeps the relation of the queues, and either both refuse
it or both return the row of the same task; so does every run.

There is one lemma for each operation, with the same parts in each: the row that is looked up,
what is checked of it, and the write. A claim recovers the leases that have run out before,
which is a write of each. What a write keeps is given by `Mirrors` and `MirrorsQueue`.
-/

namespace QaPlatform.Runtime

open Automation (AutomationTask InMemoryTaskQueue TaskStatus ManagerError DateTime QueueSetup)

/-- Both queues refuse a call, or both do what it asks for. -/
inductive Matches {α β : Type} (s : TaskStore) (rel : α → β → Prop)
    (x : InMemoryTaskQueue × Except ManagerError α) (y : Except DomainError (TaskStore × β)) : Prop
  | refused (e : ManagerError) (e' : DomainError) (hx : x.2 = .error e) (hy : y = .error e')
      (h : MirrorsQueue x.1 s)
  | done (a : α) (s' : TaskStore) (b : β) (hx : x.2 = .ok a) (hy : y = .ok (s', b))
      (hrel : rel a b) (h : MirrorsQueue x.1 s')

variable {q : InMemoryTaskQueue} {s s' : TaskStore} {t : AutomationTask}
  {r : AutomationTaskRecord} {now : Instant} {taskId : Uuid} {workerId leaseToken : String}

/-- What the two queues say to a worker that names a lease. -/
theorem MirrorsQueue.lease (h : MirrorsQueue q s) (taskId : Uuid) (workerId leaseToken : String)
    (now : Instant) :
    (∃ e e', q.requireValidLease taskId workerId leaseToken now = .error e
      ∧ s.requireTaskLease taskId workerId leaseToken now = .error e')
    ∨ ∃ t r, q.requireValidLease taskId workerId leaseToken now = .ok t
      ∧ s.requireTaskLease taskId workerId leaseToken now = .ok r
      ∧ q.tasks.get? t.id = some t ∧ s.tasks.get? r.id = some r ∧ Mirrors t r
      ∧ t.status = .running ∧ r.LeasedBy workerId leaseToken now := by
  cases hq : q.requireValidLease taskId workerId leaseToken now with
  | ok t =>
    obtain ⟨ht, hleased⟩ := InMemoryTaskQueue.requireValidLease_eq_ok.mp hq
    obtain ⟨r, hr, hrow⟩ := h.tasks.partner ht
    have hleased' := hrow.leasedBy_iff.mp hleased
    refine .inr ⟨t, r, rfl, TaskStore.requireTaskLease_eq_ok.mpr ⟨hr, hleased'⟩, ?_, ?_, hrow,
      hleased.1, hleased'⟩
    · exact Table.get?_key (Table.mem_of_get? ht)
    · exact Table.get?_key (Table.mem_of_get? hr)
  | error e =>
    cases hs : s.requireTaskLease taskId workerId leaseToken now with
    | error e' => exact .inl ⟨e, e', rfl, rfl⟩
    | ok r =>
      obtain ⟨hr, hleased⟩ := TaskStore.requireTaskLease_eq_ok.mp hs
      obtain ⟨t, ht, hrow⟩ := h.tasks.flip.partner hr
      rw [InMemoryTaskQueue.requireValidLease_eq_ok.mpr ⟨ht, hrow.leasedBy_iff.mpr hleased⟩] at hq
      nomatch hq

/-- Both queues have written the row of one task and return it. -/
theorem Matches.write (h : MirrorsQueue q s) {t' : AutomationTask} {r' : AutomationTaskRecord}
    {x : InMemoryTaskQueue × Except ManagerError AutomationTask}
    {y : Except DomainError (TaskStore × AutomationTaskRecord)}
    (ht : q.tasks.get? t.id = some t) (hrow : Mirrors t' r')
    (hwrote : InMemoryTaskQueue.Wrote q t' x) (hsame : SameRequest t t') (hy : y = .ok (s', r'))
    (hput : s'.tasks = s.tasks.put r') (hcovered : s'.Covered) : Matches s Mirrors x y :=
  .done t' s' r' hwrote.result hy hrow
    (h.wrote ht hrow hsame hwrote.tasks hwrote.idempotency hput hcovered)

/-! ## Methods -/

theorem heartbeat_matches (h : MirrorsQueue q s) {leaseSeconds : Int}
    (hseconds : 1 ≤ leaseSeconds) :
    Matches s Mirrors (q.heartbeat taskId workerId leaseToken leaseSeconds now)
      (s.heartbeatTask taskId workerId leaseToken leaseSeconds now) := by
  have hguard : (refuse (leaseSeconds < 1) (.validation "task lease duration must be positive") :
      Except ManagerError Unit) = .ok () := refuse_eq_ok.mpr (by omega)
  unfold InMemoryTaskQueue.heartbeat TaskStore.heartbeatTask
  rw [andThen_ok hguard]
  rcases h.lease taskId workerId leaseToken now with
    ⟨e, e', hq, hs⟩ | ⟨t, r, hq, hs, ht, hr, hrow, -, hleased⟩
  · rw [andThen_error hq, hs]
    exact .refused e e' rfl rfl h
  · rw [andThen_ok hq, hs]
    have hcovered := h.covered.write (.move hr (.extended workerId leaseToken leaseSeconds hleased))
    exact .write h ht (hrow.extended (some now) (some (now + seconds leaseSeconds))) ⟨rfl, rfl, rfl⟩
      ⟨rfl, rfl, rfl, rfl⟩ rfl rfl hcovered

/-- The two fingerprints are taken of texts of the same length. -/
theorem fingerprint_matches (encoded : Json) :
    (∃ e e', Automation.fingerprint encoded = .error e ∧ jsonFingerprint encoded = .error e')
      ∨ Automation.fingerprint encoded = .ok ⟨encoded⟩
      ∧ jsonFingerprint encoded = .ok ⟨encoded⟩ := by
  by_cases hsize : 262144 < encoded.utf8ByteSize
  · refine .inl ⟨.validation "task payload exceeds 256 KiB",
      .businessValidation "任务数据不能超过 256 KiB", ?_, ?_⟩
    · rw [Automation.fingerprint, refuse, if_pos hsize]
      rfl
    · rw [jsonFingerprint, refuse, if_pos hsize]
      rfl
  · exact .inr ⟨refuse_bind_eq_ok.mpr ⟨hsize, rfl⟩, refuse_bind_eq_ok.mpr ⟨hsize, rfl⟩⟩

theorem complete_matches (h : MirrorsQueue q s) (result : Json) :
    Matches s Mirrors (q.complete taskId workerId leaseToken (some result) now)
      (s.completeTask taskId workerId leaseToken result now) := by
  unfold InMemoryTaskQueue.complete
  rw [Option.getD_some]
  dsimp only
  rcases fingerprint_matches result with ⟨e, e', hq, hs⟩ | ⟨hq, hs⟩
  · rw [andThen_error hq]
    refine .refused e e' rfl ?_ h
    rw [TaskStore.completeTask, hs]
    rfl
  rw [andThen_ok hq]
  have hrest : s.completeTask taskId workerId leaseToken result now
      = (s.requireTaskLease taskId workerId leaseToken now >>= fun record =>
          let record' := record.ended (if record.cancelRequested then .cancelled else .succeeded)
            record.errorCode (if record.cancelRequested then none else some result) now
          pure ({ s with tasks := s.tasks.put record' }, record')) := by
    rw [TaskStore.completeTask, hs]
    rfl
  rw [hrest]
  rcases h.lease taskId workerId leaseToken now with
    ⟨e, e', hq, hs⟩ | ⟨t, r, hq, hs, ht, hr, hrow, -, hleased⟩
  · rw [andThen_error hq, hs]
    exact .refused e e' rfl rfl h
  · rw [andThen_ok hq, hs]
    have hcancel : t.cancelRequested = r.cancelRequested := by cases hrow; rfl
    have hcovered := h.covered.write (.move hr (.completed workerId leaseToken result hleased))
    have hstatus : (if r.cancelRequested then .cancelled else .succeeded) = TaskStatus.succeeded
        ∨ (if r.cancelRequested then .cancelled else .succeeded) = TaskStatus.cancelled := by
      split
      · exact .inr rfl
      · exact .inl rfl
    refine .write h ht (hrow.completed hstatus (if r.cancelRequested then none else some result)) ?_
      ⟨rfl, rfl, rfl, rfl⟩ rfl rfl hcovered
    by_cases hc : t.cancelRequested = true
    · have hc' : r.cancelRequested = true := hcancel ▸ hc
      rw [if_pos hc, if_pos hc', if_pos hc']
      exact InMemoryTaskQueue.finish_wrote q { t with result := none } .cancelled now
    · have hc' : ¬ r.cancelRequested = true := hcancel ▸ hc
      rw [if_neg hc, if_neg hc', if_neg hc']
      exact InMemoryTaskQueue.finish_wrote q { t with result := some result } .succeeded now

theorem fail_matches (h : MirrorsQueue q s) {errorCode : String}
    (hcode : 1 ≤ errorCode.length ∧ errorCode.length ≤ 100) (retryable : Bool)
    (isoformat : Instant → String) (uuid : Uuid → String) :
    Matches s Mirrors
      (q.fail (Automation.midpoint isoformat uuid) taskId workerId leaseToken errorCode
        retryable now)
      (s.failTask taskId workerId leaseToken errorCode retryable now) := by
  have hguard : (refuse (errorCode = "" ∨ 100 < errorCode.length)
      (.validation "task error code is invalid") : Except ManagerError Unit) = .ok () := by
    refine refuse_eq_ok.mpr (not_or.mpr ⟨?_, by omega⟩)
    rintro rfl
    exact absurd hcode.1 (by decide)
  unfold InMemoryTaskQueue.fail
  rw [andThen_ok hguard]
  rcases h.lease taskId workerId leaseToken now with
    ⟨e, e', hq, hs⟩ | ⟨t, r, hq, hs, ht, hr, hrow, hrunning, hleased⟩
  · rw [andThen_error hq]
    refine .refused e e' rfl ?_ h
    rw [TaskStore.failTask, hs]
    rfl
  rw [andThen_ok hq]
  have hcancel : t.cancelRequested = r.cancelRequested := by cases hrow; rfl
  have hattempts : t.attempts = r.attempts ∧ t.maxAttempts = r.maxAttempts := by
    cases hrow
    exact ⟨rfl, rfl⟩
  -- the three ways to be over
  have hover : ∀ {status : TaskStatus}, r.EndsAs status →
      s.failTask taskId workerId leaseToken errorCode retryable now
        = .ok ({ s with tasks := s.tasks.put (r.ended status (some errorCode) r.result now) },
          r.ended status (some errorCode) r.result now) →
      Matches s Mirrors (q.finish { t with errorCode := some errorCode } status now)
        (s.failTask taskId workerId leaseToken errorCode retryable now) := by
    intro status hends hy
    have hcovered := h.covered.write
      (.move hr (.failed workerId leaseToken errorCode status hleased hends))
    obtain ⟨hr', hq', hw', -⟩ := hends.ne_running
    exact .write h ht (hrow.failed hrunning ⟨hq', hw', hr'⟩ errorCode)
      (InMemoryTaskQueue.finish_wrote q { t with errorCode := some errorCode } status now)
      ⟨rfl, rfl, rfl, rfl⟩ hy rfl hcovered
  by_cases hc : t.cancelRequested = true
  · have hc' : r.cancelRequested = true := hcancel ▸ hc
    show Matches s Mirrors (if t.cancelRequested = true then _ else _) _
    rw [if_pos hc]
    refine hover (.inl ⟨hc', rfl⟩) ?_
    rw [TaskStore.failTask, hs]
    show (if r.cancelRequested = true then _ else _) = _
    rw [if_pos hc']
    rfl
  have hc' : ¬ r.cancelRequested = true := hcancel ▸ hc
  have hnot : r.cancelRequested = false := by simpa using hc'
  show Matches s Mirrors (if t.cancelRequested = true then _ else _) _
  rw [if_neg hc]
  by_cases hagain : retryable = true ∧ t.attempts < t.maxAttempts
  · have hagain' : retryable = true ∧ r.attempts < r.maxAttempts := by
      rw [← hattempts.1, ← hattempts.2]
      exact hagain
    show Matches s Mirrors (if retryable = true ∧ t.attempts < t.maxAttempts then _ else _) _
    rw [if_pos hagain]
    have hnew := h.covered.unannounced hr (.inl hleased.1)
    have hpositive : 1 ≤ t.attempts := (h.regular (Table.mem_of_get? ht)).running hrunning
    have hcovered := h.covered.write
      (.wait hr (.failed workerId leaseToken errorCode hleased hnot hagain'.2) hnew)
    refine .write h ht (hrow.delayed hrunning hagain.2 errorCode)
      (InMemoryTaskQueue.retryLater_wrote
        (t := { t with errorCode := some errorCode }) hpositive rfl)
      ⟨rfl, rfl, rfl, rfl⟩ ?_ rfl hcovered
    rw [TaskStore.failTask, hs]
    show (if r.cancelRequested = true then _ else if retryable = true ∧ r.attempts < r.maxAttempts
      then _ else _) = _
    rw [if_neg hc', if_pos hagain']
    exact bind_eq_ok.mpr ⟨_, TaskStore.addTaskWakeupOutbox_eq_ok.mpr ⟨hnew, rfl⟩, rfl⟩
  have hagain' : ¬ (retryable = true ∧ r.attempts < r.maxAttempts) := by
    rw [← hattempts.1, ← hattempts.2]
    exact hagain
  show Matches s Mirrors (if retryable = true ∧ t.attempts < t.maxAttempts then _ else _) _
  rw [if_neg hagain]
  cases retryable with
  | true =>
    refine hover (.inr ⟨hnot, .inl rfl⟩) ?_
    rw [TaskStore.failTask, hs]
    show (if r.cancelRequested = true then _ else if _ then _ else _) = _
    rw [if_neg hc', if_neg hagain']
    rfl
  | false =>
    refine hover (.inr ⟨hnot, .inr rfl⟩) ?_
    rw [TaskStore.failTask, hs]
    show (if r.cancelRequested = true then _ else if _ then _ else _) = _
    rw [if_neg hc', if_neg hagain']
    rfl

theorem requestCancel_matches (h : MirrorsQueue q s) :
    Matches s Mirrors (q.requestCancel taskId now) (s.cancelTask taskId now) := by
  unfold InMemoryTaskQueue.requestCancel InMemoryTaskQueue.require TaskStore.cancelTask
    TaskStore.requireTask
  cases ht : q.tasks.get? taskId with
  | none =>
    rw [h.tasks.no_partner ht]
    exact .refused _ _ rfl rfl h
  | some t =>
    obtain ⟨r, hr, hrow⟩ := h.tasks.partner ht
    obtain rfl : t.id = taskId := Table.key_of_get? ht
    have hr' : s.tasks.get? r.id = some r := hrow.id_eq ▸ hr
    have hstatus : t.status = r.status := by cases hrow; rfl
    rw [hr, andThen_ok rfl]
    by_cases hwaiting : t.status = .queued ∨ t.status = .retryWait
    · have hwaiting' : r.status = .queued ∨ r.status = .retryWait := hstatus ▸ hwaiting
      have hcovered := h.covered.write (.move hr' (@TaskMove.cancelled now r hwaiting'))
      show Matches s Mirrors (if t.status = .queued ∨ t.status = .retryWait then _ else _) _
      rw [if_pos hwaiting]
      refine .write h ht (hrow.cancelled hwaiting)
        (InMemoryTaskQueue.finish_wrote q { t with cancelRequested := true } .cancelled now)
        ⟨rfl, rfl, rfl, rfl⟩ ?_ rfl hcovered
      show Except.ok (_, if r.status = .queued ∨ r.status = .retryWait then _ else _) = _
      rw [if_pos hwaiting']
      rfl
    have hwaiting' : ¬ (r.status = .queued ∨ r.status = .retryWait) := hstatus ▸ hwaiting
    show Matches s Mirrors (if t.status = .queued ∨ t.status = .retryWait then _ else _) _
    rw [if_neg hwaiting]
    by_cases hrunning : t.status = .running
    · have hrunning' : r.status = .running := hstatus ▸ hrunning
      have hcovered := h.covered.write (.move hr' (@TaskMove.cancelAsked now r hrunning'))
      rw [if_pos hrunning]
      refine .write h ht hrow.cancelAsked ⟨rfl, rfl, rfl⟩ ⟨rfl, rfl, rfl, rfl⟩ ?_ rfl hcovered
      show Except.ok (_, if r.status = .queued ∨ r.status = .retryWait then _ else
        if r.status = .running then _ else _) = _
      rw [if_neg hwaiting', if_pos hrunning']
    · have hrunning' : ¬ r.status = .running := hstatus ▸ hrunning
      have hsame : s.tasks.put r = s.tasks := Table.put_self hr'
      have hcovered : TaskStore.Covered { s with tasks := s.tasks.put r } := by
        rw [hsame]
        exact h.covered
      rw [if_neg hrunning]
      refine .write h ht hrow ⟨rfl, rfl, rfl⟩ ⟨rfl, rfl, rfl, rfl⟩ ?_ rfl hcovered
      show Except.ok (_, if r.status = .queued ∨ r.status = .retryWait then _ else
        if r.status = .running then _ else _) = _
      rw [if_neg hwaiting', if_neg hrunning']

/-- A claim chooses from the same tasks in the same order. -/
theorem MirrorsQueue.candidate (h : MirrorsQueue q s) (queues : List String) (now : Instant) :
    Option.Rel Mirrors
      (firstBy (fun t => [-(t.priority : Int), t.availableAt, t.createdAt, t.id])
        (q.candidates queues now))
      (s.claimTaskCandidate queues now []) := by
  refine h.tasks.firstBy (fun t r hrow => ?_) (fun t r hrow => ?_) fun r x hcolumns => ?_
  · cases hrow
    rfl
  · cases hrow with
    | intro code regular _ =>
      rw [decide_eq_decide]
      constructor
      · rintro ⟨hqueue, hwaiting, havailable, hcancel⟩
        exact ⟨⟨hqueue, hwaiting, regular.waiting hwaiting, havailable, hcancel⟩, by simp⟩
      · rintro ⟨⟨hqueue, hwaiting, -, havailable, hcancel⟩, -⟩
        exact ⟨hqueue, hwaiting, havailable, hcancel⟩
  · simp only [List.cons.injEq] at hcolumns
    exact Int.ofNat.inj hcolumns.2.2.2.1

theorem claim_matches (h : MirrorsQueue q s) {queues : List String} {leaseSeconds : Int}
    (hworker : workerId ≠ "") (hseconds : 1 ≤ leaseSeconds) (hqueues : queues ≠ [])
    (hnames : queues.Nodup ∧ ∀ queue ∈ queues, strip queue ≠ "") (token : String)
    (isoformat : Instant → String) (uuid : Uuid → String) :
    Matches s (Option.Rel fun a b => Mirrors a.1 b.1)
      (q.claim (Automation.midpoint isoformat uuid) workerId queues leaseSeconds token now)
      (s.claimTask workerId queues leaseSeconds token now []) := by
  obtain ⟨s₁, hs₁, h₁, changed, hchanged⟩ := @MirrorsQueue.recovered now q s h isoformat uuid
  have hguard : ¬ (¬ queues.Nodup ∨ queues.any (strip · = "")) := by
    refine not_or.mpr ⟨not_not.mpr hnames.1, ?_⟩
    simpa using hnames.2
  unfold InMemoryTaskQueue.claim
  rw [if_neg (not_or.mpr ⟨hworker, by omega⟩), if_neg hqueues, andThen_ok hchanged]
  have hcandidate := h₁.candidate queues now
  generalize hq : firstBy
    (fun t : AutomationTask => [-(t.priority : Int), t.availableAt, t.createdAt, t.id])
    ((q.recoverExpiredLocked (Automation.midpoint isoformat uuid) now).1.candidates queues now) = a
    at hcandidate ⊢
  generalize hs : s₁.claimTaskCandidate queues now [] = b at hcandidate ⊢
  cases hcandidate with
  | none =>
    refine .done none s₁ none rfl (refuse_bind_eq_ok.mpr ⟨hguard, bind_eq_ok.mpr ⟨s₁, hs₁, ?_⟩⟩)
      .none h₁
    rw [hs]
    rfl
  | @some t r hrow =>
    have ht := Table.get?_key (List.mem_of_mem_filter (mem_of_firstBy hq))
    obtain ⟨hr, hclaimable⟩ := TaskStore.claimTaskCandidate_some hs
    have hwaiting : t.status = .queued ∨ t.status = .retryWait := by
      cases hrow
      exact hclaimable.2.1
    have hrow' := @Mirrors.claimed t r now hrow hwaiting workerId token leaseSeconds
    have hcovered := h₁.covered.queueStep (.lease workerId token leaseSeconds hr hclaimable)
    refine .done (some (t.claimed workerId token leaseSeconds now, token))
      { s₁ with tasks := s₁.tasks.put (r.claimed workerId token leaseSeconds now) }
      (some (r.claimed workerId token leaseSeconds now, token)) rfl
      (refuse_bind_eq_ok.mpr ⟨hguard, bind_eq_ok.mpr ⟨s₁, hs₁, ?_⟩⟩) (.some hrow')
      (h₁.wrote ht hrow' ⟨rfl, rfl, rfl, rfl⟩ rfl rfl rfl hcovered)
    rw [hs]
    rfl

/-- Both queues find the same task under an idempotency key, or none. -/
theorem MirrorsQueue.lookup (h : MirrorsQueue q s) (taskType : String)
    (idempotencyKey : Option String) :
    ((idempotencyKey.bind fun k => q.idempotency.lookup (taskType, k)) = none
      ∧ (idempotencyKey.bind fun k => s.tasks.rows.find? fun r =>
          r.taskType = taskType ∧ r.idempotencyKey = some k) = none)
    ∨ ∃ t r, (idempotencyKey.bind fun k => q.idempotency.lookup (taskType, k))
          = some (t.id, t.requestFingerprint)
      ∧ (idempotencyKey.bind fun k => s.tasks.rows.find? fun r =>
          r.taskType = taskType ∧ r.idempotencyKey = some k) = some r
      ∧ q.tasks.get? t.id = some t ∧ Mirrors t r := by
  cases idempotencyKey with
  | none => exact .inl ⟨rfl, rfl⟩
  | some k =>
    rw [Option.bind_some, Option.bind_some]
    cases hfind : s.tasks.rows.find? fun r => r.taskType = taskType ∧ r.idempotencyKey = some k with
    | some r =>
      have hkeys : r.taskType = taskType ∧ r.idempotencyKey = some k := by
        simpa using List.find?_some hfind
      obtain ⟨t, ht, -, hrow⟩ := h.tasks.flip.mem_partner (List.mem_of_find?_eq_some hfind)
      have htype : t.taskType = taskType := by cases hrow; exact hkeys.1
      have hkey : t.idempotencyKey = some k := by cases hrow; exact hkeys.2
      exact .inr ⟨t, r, htype ▸ h.kept t ht k hkey, rfl, Table.get?_key ht, hrow⟩
    | none =>
      refine .inl ⟨?_, rfl⟩
      cases hlookup : q.idempotency.lookup (taskType, k) with
      | none => rfl
      | some entry =>
        obtain ⟨t, ht, htype, hkey, -⟩ := h.bound taskType k entry.1 entry.2 hlookup
        obtain ⟨r, hr, hrow⟩ := h.tasks.partner ht
        have hno := List.find?_eq_none.mp hfind r (Table.mem_of_get? hr)
        refine absurd ?_ hno
        cases hrow
        simpa using ⟨htype, hkey⟩

/-- The dictionary with the key of a new task. -/
theorem lookup_bound (idempotency : List ((String × String) × Uuid × Digest Json))
    (new : AutomationTask) (taskType k : String) :
    ((new.idempotencyKey.toList.map fun k => ((new.taskType, k), new.id, new.requestFingerprint))
        ++ idempotency).lookup (taskType, k)
      = if new.taskType = taskType ∧ new.idempotencyKey = some k then
          some (new.id, new.requestFingerprint)
        else idempotency.lookup (taskType, k) := by
  cases hkey : new.idempotencyKey with
  | none => simp
  | some k₀ =>
    by_cases hsame : new.taskType = taskType ∧ k₀ = k
    · obtain ⟨rfl, rfl⟩ := hsame
      simp
    · have hne : ¬ (taskType, k) = (new.taskType, k₀) := fun he =>
        hsame ⟨(congrArg Prod.fst he).symm, (congrArg Prod.snd he).symm⟩
      have hne' : ¬ (new.taskType = taskType ∧ some k₀ = some k) := fun he =>
        hsame ⟨he.1, Option.some.inj he.2⟩
      rw [if_neg hne']
      show List.lookup (taskType, k) (_ :: idempotency) = _
      rw [List.lookup_cons, beq_eq_false_iff_ne.mpr hne]

/-- Both queues have a new task. -/
theorem MirrorsQueue.added (h : MirrorsQueue q s) {task : Uuid → AutomationTask}
    {record : Uuid → AutomationTaskRecord} {outbox : Table AutomationTaskWakeupOutboxRecord}
    (hid : ∀ id, (task id).id = id) (hid' : ∀ id, (record id).id = id)
    (hrow : Mirrors (task q.tasks.next) (record q.tasks.next))
    (hfree : ((task q.tasks.next).idempotencyKey.bind fun k =>
      q.idempotency.lookup ((task q.tasks.next).taskType, k)) = none)
    (hcovered : TaskStore.Covered ⟨s.tasks.add record hid', outbox⟩) :
    MirrorsQueue
      { q with
        tasks := q.tasks.add task hid
        idempotency := ((task q.tasks.next).idempotencyKey.toList.map fun k =>
          (((task q.tasks.next).taskType, k), (task q.tasks.next).id,
            (task q.tasks.next).requestFingerprint)) ++ q.idempotency }
      ⟨s.tasks.add record hid', outbox⟩ where
  tasks :=
    have htasks : Table.Paired Mirrors (q.tasks.add task hid) (s.tasks.add record hid') :=
      h.tasks.add hrow
    htasks
  bound taskType k id fingerprint hlookup := by
    rw [lookup_bound] at hlookup
    split at hlookup
    · next hkeys =>
      obtain ⟨rfl, rfl⟩ := Prod.mk.inj (Option.some.inj hlookup)
      refine ⟨task q.tasks.next, ?_, hkeys.1, hkeys.2, rfl⟩
      rw [Table.get?_add, if_pos (hid _).symm]
    · obtain ⟨t, ht, hkeys⟩ := h.bound taskType k id fingerprint hlookup
      have hold : (q.tasks.add task hid).get? id = some t := Table.get?_add_old ht
      exact ⟨t, hold, hkeys⟩
  kept t ht k hk := by
    have hmem : t ∈ (q.tasks.add task hid).rows := ht
    rw [lookup_bound]
    rcases Table.mem_add hmem with hold | rfl
    · have hkept := h.kept t hold k hk
      by_cases hkeys : (task q.tasks.next).taskType = t.taskType
          ∧ (task q.tasks.next).idempotencyKey = some k
      · -- the key would not have been free
        rw [hkeys.2, Option.bind_some, hkeys.1, hkept] at hfree
        nomatch hfree
      · rw [if_neg hkeys]
        exact hkept
    · rw [if_pos ⟨rfl, hk⟩]
  covered := hcovered

/-- The call of a method that changes nothing when it raises. -/
def orNothing {α : Type} (q : InMemoryTaskQueue)
    (x : Except ManagerError (InMemoryTaskQueue × α)) : InMemoryTaskQueue × Except ManagerError α :=
  match x with
  | .error e => (q, .error e)
  | .ok (q', a) => (q', .ok a)

theorem enqueue_matches (h : MirrorsQueue q s) {payload : TaskEnqueue} {taskTypes : List String}
    (hpayload : payload.Accepted) (htype : payload.taskType ∈ taskTypes)
    (hqueue : strip payload.queue ≠ "") {aware : Bool}
    (haware : payload.availableAt ≠ none → aware = true) (isoformat : Instant → String)
    (uuid : Uuid → String) :
    Matches s (fun a b => Mirrors a.1 b.1)
      (orNothing q (q.enqueue (Automation.midpoint isoformat uuid) payload.taskType payload.payload
        payload.queue payload.priority payload.maxAttempts payload.idempotencyKey none
        (payload.availableAt.map (DateTime.mk · aware)) now))
      (s.enqueueTask taskTypes ⟨isoformat, uuid⟩ payload now) := by
  -- both take the fingerprint of the same text
  have hdue : Automation.asUtc ((payload.availableAt.map (DateTime.mk · aware)).getD ⟨now, true⟩)
      = .ok (payload.availableAt.getD now) := by
    cases hat : payload.availableAt with
    | none => rfl
    | some instant =>
      rw [haware (by simp [hat])]
      rfl
  have hrequest : Automation.requestValue (Automation.midpoint isoformat uuid) payload.taskType
        payload.payload payload.queue payload.priority payload.maxAttempts none
        ((payload.availableAt.map (DateTime.mk · aware)).map fun _ => payload.availableAt.getD now)
      = payload.request ⟨isoformat, uuid⟩ none := by
    unfold TaskEnqueue.request Automation.requestValue
    cases payload.availableAt with
    | none => rfl
    | some instant => rfl
  unfold InMemoryTaskQueue.enqueue TaskStore.enqueueTask TaskStore.enqueueRecord
  rw [refuse_bind_of_not (not_not.mpr htype), refuse_bind_of_not hqueue,
    refuse_bind_of_not (not_not.mpr htype), hdue, ok_bind, hrequest]
  dsimp only
  rcases fingerprint_matches (payload.request ⟨isoformat, uuid⟩ none) with
    ⟨e, e', hq, hs⟩ | ⟨hq, hs⟩
  · rw [hq, hs]
    exact .refused e e' rfl rfl h
  rw [hq, hs, ok_bind, ok_bind]
  rcases h.lookup payload.taskType payload.idempotencyKey with
    ⟨hfree, hfree'⟩ | ⟨t, r, hfound, hfound', ht, hrow⟩
  · rw [hfree, hfree']
    dsimp only
    rw [refuse_bind_of_not (by exact not_not.mpr hpayload)]
    let task (id : Uuid) : AutomationTask :=
      { id, taskType := payload.taskType, payload := payload.payload, queue := payload.queue
        priority := payload.priority, status := .queued, idempotencyKey := payload.idempotencyKey
        requestFingerprint := ⟨payload.request ⟨isoformat, uuid⟩ none⟩, sourceScheduleId := none
        attempts := 0, maxAttempts := payload.maxAttempts
        availableAt := payload.availableAt.getD now, leaseOwner := none, leaseTokenHash := none
        leaseExpiresAt := none, heartbeatAt := none, cancelRequested := false, result := none
        errorCode := none, createdAt := now, startedAt := none, finishedAt := none }
    let record := enqueuedTask payload ⟨payload.request ⟨isoformat, uuid⟩ none⟩ none now
    have hrow : Mirrors (task q.tasks.next) (record q.tasks.next) :=
      Mirrors.new rfl rfl hpayload.2.2.2.1.1 rfl ⟨rfl, rfl⟩
    have hnew : s.Unannounced (record s.tasks.next) := h.covered.unannounced_new rfl
    have hcovered := h.covered.write (.insert payload _ none trivial hnew)
    have hqueue' := @MirrorsQueue.added q s h task record _ (fun _ => rfl) (fun _ => rfl) hrow hfree
      hcovered
    refine .done (task q.tasks.next, false) _ (record s.tasks.next, false) rfl ?_ ?_ hqueue'
    · exact bind_eq_ok.mpr ⟨_, TaskStore.addTaskWakeupOutbox_eq_ok.mpr ⟨hnew, rfl⟩, rfl⟩
    · exact h.tasks.next ▸ hrow
  · rw [hfound, hfound']
    dsimp only
    have hfingerprint : t.requestFingerprint = r.requestFingerprint := by cases hrow; rfl
    rw [← hfingerprint]
    by_cases hsame : (⟨payload.request ⟨isoformat, uuid⟩ none⟩ : Digest Json) = t.requestFingerprint
    · rw [refuse_bind_of_not (not_not.mpr hsame), refuse_bind_of_not (not_not.mpr hsame.symm), ht]
      exact .done (t, true) s (r, true) rfl rfl hrow h
    · rw [refuse_bind_of hsame, refuse_bind_of (Ne.symm hsame)]
      exact .refused _ _ rfl rfl h

end QaPlatform.Runtime
