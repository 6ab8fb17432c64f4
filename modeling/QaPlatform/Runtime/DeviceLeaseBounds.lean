import QaPlatform.Runtime.DeviceConsistency
import QaPlatform.Runtime.WakeupCoverage

/-!
# Device leases within task leases

Acquiring and renewing a device cap its lease at the lease of the task. The task's
own expiry is written by a claim and by a heartbeat, and neither looks at the device
leases: one of these that goes through and sets an earlier expiry than an active
device lease has leaves the device leased for longer than the task. Nothing else
does.

The proof is in two halves. A method of the queue either leaves the expiry of a running task as
it is or sets it (`Sets`), and a device method leaves the queue alone and caps what it writes
(`Caps`). So the invariant can be broken by calls that set an expiry before that of a device
lease, and these break it: the condition is exact.
-/

namespace QaPlatform.Runtime

open Automation (TaskStatus DeviceLeaseStatus)

/-! ## Running tasks over the methods of the queue -/

/-- What runs afterwards ran before, with the same expiry. -/
def KeepsRunning (tasks tasks' : Table AutomationTaskRecord) : Prop :=
  ∀ k t', tasks'.get? k = some t' → t'.status = .running →
    ∃ t, tasks.get? k = some t ∧ t.status = .running ∧ t'.leaseExpiresAt = t.leaseExpiresAt

section
variable {a b c : Table AutomationTaskRecord} {t t' : AutomationTaskRecord}

theorem KeepsRunning.refl (tasks : Table AutomationTaskRecord) : KeepsRunning tasks tasks :=
  fun _ t ht hrunning => ⟨t, ht, hrunning, rfl⟩

theorem KeepsRunning.trans (h : KeepsRunning a b) (h' : KeepsRunning b c) : KeepsRunning a c := by
  intro k t'' ht'' hrunning''
  obtain ⟨t', ht', hrunning', hsame'⟩ := h' k t'' ht'' hrunning''
  obtain ⟨t, ht, hrunning, hsame⟩ := h k t' ht' hrunning'
  exact ⟨t, ht, hrunning, hsame'.trans hsame⟩

/-- Rewriting a row so that it does not run, or as it ran. -/
theorem KeepsRunning.put (ht : a.get? t.id = some t) (hid : t'.id = t.id)
    (hkeep : t'.status = .running → t.status = .running ∧ t'.leaseExpiresAt = t.leaseExpiresAt) :
    KeepsRunning a (a.put t') := by
  intro k x hx hrunning
  rcases Table.get?_put_cases ht hx hid with ⟨rfl, rfl⟩ | ⟨-, hold⟩
  · obtain ⟨hran, hsame⟩ := hkeep hrunning
    exact ⟨t, ht, hran, hsame⟩
  · exact ⟨x, hold, hrunning, rfl⟩

/-- Rewriting a row so that it does not run. -/
theorem KeepsRunning.stop (ht : a.get? t.id = some t) (hid : t'.id = t.id)
    (hstop : t'.status ≠ .running) : KeepsRunning a (a.put t') :=
  .put ht hid fun hrunning => absurd hrunning hstop

end

namespace TaskStore

variable {s s' : TaskStore} {now : Instant}

theorem keepsRunning_addTask (payload : TaskEnqueue) (fingerprint : Digest Json)
    (source : Option Uuid) (now : Instant) :
    KeepsRunning s.tasks (s.addTask payload fingerprint source now) := by
  intro k t ht hrunning
  unfold addTask at ht
  rw [Table.get?_add] at ht
  split at ht
  · obtain rfl := Option.some.inj ht
    exact absurd hrunning (by simp [enqueuedTask])
  · exact ⟨t, ht, hrunning, rfl⟩

theorem foldlM_recoverExpiredTask_keeps {queues : List String} {skipped : List Uuid}
    (records : List AutomationTaskRecord) (hnodup : (records.map AutomationTaskRecord.id).Nodup)
    (hrecords : ∀ t ∈ records, s.tasks.get? t.id = some t ∧ t.Expired now)
    (h : records.foldlM (recoverExpiredTask now) s = .ok s') :
    KeepsRunning s.tasks s'.tasks
      ∧ s'.claimTaskCandidate queues now skipped = s.claimTaskCandidate queues now skipped := by
  induction records generalizing s with
  | nil =>
    rw [List.foldlM_nil] at h
    obtain rfl := pure_eq_ok.mp h
    exact ⟨.refl _, rfl⟩
  | cons t records ih =>
    rw [List.foldlM_cons] at h
    obtain ⟨s₁, hone, hrest⟩ := bind_eq_ok.mp h
    obtain ⟨ht, hexpired⟩ := hrecords t List.mem_cons_self
    rw [List.map_cons, List.nodup_cons] at hnodup
    obtain ⟨t', hid, hstopped, -, hlater, hput⟩ := recoverExpiredTask_put hone
    have hrest' : ∀ x ∈ records, s₁.tasks.get? x.id = some x ∧ x.Expired now := by
      intro x hx
      have hne : t.id ≠ x.id := fun he => hnodup.1 (he ▸ List.mem_map_of_mem hx)
      rw [recoverExpiredTask_get? hone hne]
      exact hrecords x (List.mem_cons_of_mem t hx)
    obtain ⟨hkeeps, hcandidate⟩ := ih hnodup.2 hrest' hrest
    have hfirst : KeepsRunning s.tasks s₁.tasks := by
      rw [hput]
      exact .stop ht hid hstopped
    refine ⟨hfirst.trans hkeeps, hcandidate.trans ?_⟩
    -- neither the expired row nor what has become of it can be claimed now
    have hbefore : ¬ claimable queues now t := by
      rintro ⟨-, hwaiting, -⟩
      rw [hexpired.1] at hwaiting
      exact absurd hwaiting (by decide)
    have hafter : ¬ claimable queues now t' := by
      rintro ⟨-, hwaiting, -, hdue, -⟩
      exact absurd hdue (Int.not_le.mpr (hlater hwaiting))
    unfold claimTaskCandidate
    rw [hput, Table.filter_put ht hid (by simp [hbefore]) (by simp [hafter])]

theorem recoverExpiredTasks_keeps (queues : List String) {skipped : List Uuid}
    (h : s.recoverExpiredTasks now skipped = .ok s') :
    KeepsRunning s.tasks s'.tasks
      ∧ s'.claimTaskCandidate queues now skipped = s.claimTaskCandidate queues now skipped := by
  refine foldlM_recoverExpiredTask_keeps _ (nodup_lockExpiredTaskLeases s now skipped) ?_ h
  intro t ht
  obtain ⟨hmem, hexpired⟩ := mem_lockExpiredTaskLeases ht
  exact ⟨Table.get?_key hmem, hexpired⟩

theorem enqueueRecord_keeps {taskTypes : List String} {render : Rendering} {payload : TaskEnqueue}
    {source : Option Uuid} {t : AutomationTaskRecord} {replayed : Bool}
    (h : s.enqueueRecord taskTypes render payload source now = .ok (s', t, replayed)) :
    KeepsRunning s.tasks s'.tasks := by
  rcases enqueueRecord_ok h with ⟨-, rfl, -⟩ | ⟨-, fingerprint, rfl, -, -, rfl⟩
  · exact .refl _
  · exact keepsRunning_addTask payload fingerprint source now

theorem completeTask_keeps {taskId : Uuid} {workerId leaseToken : String} {result : Json}
    {t' : AutomationTaskRecord}
    (h : s.completeTask taskId workerId leaseToken result now = .ok (s', t')) :
    KeepsRunning s.tasks s'.tasks := by
  obtain ⟨t, ht, -, rfl, rfl⟩ := completeTask_ok h
  obtain rfl : t.id = taskId := Table.key_of_get? ht
  refine .stop ht rfl ?_
  rw [ended_status]
  split
  · decide
  · decide

theorem failTask_keeps {taskId : Uuid} {workerId leaseToken errorCode : String}
    {retryable : Bool} {t' : AutomationTaskRecord}
    (h : s.failTask taskId workerId leaseToken errorCode retryable now = .ok (s', t')) :
    KeepsRunning s.tasks s'.tasks := by
  obtain ⟨t, ht, -, hcase⟩ := failTask_ok h
  obtain rfl : t.id = taskId := Table.key_of_get? ht
  rcases hcase with ⟨status, hends, rfl, rfl⟩ | ⟨-, -, rfl, -, rfl⟩
  · refine .stop ht rfl ?_
    rw [ended_status]
    rcases hends with ⟨-, rfl⟩ | ⟨-, rfl | rfl⟩
    · decide
    · decide
    · decide
  · exact .stop ht rfl (by simp)

theorem cancelTask_keeps {taskId : Uuid} {t' : AutomationTaskRecord}
    (h : s.cancelTask taskId now = .ok (s', t')) : KeepsRunning s.tasks s'.tasks := by
  unfold cancelTask at h
  obtain ⟨t, hget, hput⟩ := bind_eq_ok.mp h
  have ht := requireTask_eq_ok.mp hget
  obtain rfl : t.id = taskId := Table.key_of_get? ht
  dsimp only at hput
  obtain ⟨rfl, -⟩ := Prod.mk.inj (pure_eq_ok.mp hput)
  split
  · exact .stop ht rfl (by simp)
  · split
    · next hrunning => exact .put ht rfl fun _ => ⟨hrunning, rfl⟩
    · exact .put ht rfl fun hrunning => ⟨hrunning, rfl⟩

theorem retryTask_keeps {taskId : Uuid} {t' : AutomationTaskRecord}
    (h : s.retryTask taskId now = .ok (s', t')) : KeepsRunning s.tasks s'.tasks := by
  unfold retryTask at h
  obtain ⟨t, hget, hbody⟩ := bind_eq_ok.mp h
  have ht := requireTask_eq_ok.mp hget
  obtain rfl : t.id = taskId := Table.key_of_get? ht
  simp only [refuse_bind_eq_ok] at hbody
  obtain ⟨-, -, hbody⟩ := hbody
  obtain ⟨s₁, hadd, hput⟩ := bind_eq_ok.mp hbody
  obtain ⟨-, rfl⟩ := addTaskWakeupOutbox_eq_ok.mp hadd
  obtain ⟨rfl, -⟩ := Prod.mk.inj (pure_eq_ok.mp hput)
  exact .stop ht rfl (by simp)

theorem deadLetterTask_keeps {taskId : Uuid} {errorCode : String} {t' : AutomationTaskRecord}
    (h : s.deadLetterTask taskId errorCode now = .ok (s', t')) : KeepsRunning s.tasks s'.tasks := by
  unfold deadLetterTask at h
  obtain ⟨t, hget, hbody⟩ := bind_eq_ok.mp h
  have ht := requireTask_eq_ok.mp hget
  obtain rfl : t.id = taskId := Table.key_of_get? ht
  simp only [refuse_bind_eq_ok] at hbody
  obtain ⟨-, -, hput⟩ := hbody
  obtain ⟨rfl, -⟩ := Prod.mk.inj (pure_eq_ok.mp hput)
  exact .stop ht rfl (by simp)

/-- The call goes through and sets the expiry of the lease of `t` to `expiry`. -/
inductive Sets (s : TaskStore) (now : Instant) (t : AutomationTaskRecord) (expiry : Instant) :
    Call → Prop
  | claimed {workerId : String} {queues : List String} {leaseSeconds : Int} {token : String}
      {skipped : List Uuid} (hqueues : ¬ (¬ queues.Nodup ∨ queues.any (strip · = "")))
      (ht : s.claimTaskCandidate queues now skipped = some t)
      (hexpiry : expiry = now + seconds leaseSeconds) :
      Sets s now t expiry (.claimTask workerId queues leaseSeconds token skipped)
  | extended {workerId leaseToken : String} {leaseSeconds : Int}
      (ht : s.tasks.get? t.id = some t) (hleased : t.LeasedBy workerId leaseToken now)
      (hexpiry : expiry = now + seconds leaseSeconds) :
      Sets s now t expiry (.heartbeatTask t.id workerId leaseToken leaseSeconds)

/-- What runs after a call ran before it with the same expiry, or the call set the expiry. -/
theorem call_running {taskTypes : List String} {render : Rendering} {c : Call}
    (h : s.call taskTypes render now c = .ok s') {k : Uuid} {t' : AutomationTaskRecord}
    (ht' : s'.tasks.get? k = some t') (hrunning : t'.status = .running) :
    (∃ t, s.tasks.get? k = some t ∧ t.status = .running ∧ t'.leaseExpiresAt = t.leaseExpiresAt)
    ∨ ∃ t expiry, t.id = k ∧ t'.leaseExpiresAt = some expiry ∧ s.Sets now t expiry c := by
  cases c with
  | enqueueTask payload =>
    obtain ⟨⟨s₁, t, replayed⟩, hcall, rfl⟩ := map_eq_ok.mp h
    unfold enqueueTask at hcall
    simp only [refuse_bind_eq_ok] at hcall
    exact .inl (enqueueRecord_keeps hcall.2.2 k t' ht' hrunning)
  | claimTask workerId queues leaseSeconds token skipped =>
    obtain ⟨⟨s₂, result⟩, hcall, rfl⟩ := map_eq_ok.mp h
    have hqueues := (refuse_bind_eq_ok.mp hcall).1
    obtain ⟨s₁, hrecover, hcase⟩ := claimTask_candidate hcall
    obtain ⟨hkeeps, hcandidate⟩ := recoverExpiredTasks_keeps queues hrecover
    rcases hcase with ⟨-, -, rfl⟩ | ⟨t, ht, -, rfl⟩
    · exact .inl (hkeeps k t' ht' hrunning)
    · have hget := (claimTaskCandidate_some ht).1
      rcases Table.get?_put_cases hget ht' rfl with ⟨hk, rfl⟩ | ⟨-, hold⟩
      · exact .inr ⟨t, _, hk, rfl, .claimed hqueues (hcandidate ▸ ht) rfl⟩
      · exact .inl (hkeeps k t' hold hrunning)
  | heartbeatTask taskId workerId leaseToken leaseSeconds =>
    obtain ⟨⟨s₁, t''⟩, hcall, rfl⟩ := map_eq_ok.mp h
    obtain ⟨t, ht, hleased, rfl, rfl⟩ := heartbeatTask_ok hcall
    obtain rfl : t.id = taskId := Table.key_of_get? ht
    rcases Table.get?_put_cases ht ht' rfl with ⟨hk, rfl⟩ | ⟨-, hold⟩
    · exact .inr ⟨t, _, hk, rfl, .extended ht hleased rfl⟩
    · exact .inl ⟨t', hold, hrunning, rfl⟩
  | completeTask taskId workerId leaseToken result =>
    obtain ⟨⟨s₁, t''⟩, hcall, rfl⟩ := map_eq_ok.mp h
    exact .inl (completeTask_keeps hcall k t' ht' hrunning)
  | failTask taskId workerId leaseToken errorCode retryable =>
    obtain ⟨⟨s₁, t''⟩, hcall, rfl⟩ := map_eq_ok.mp h
    exact .inl (failTask_keeps hcall k t' ht' hrunning)
  | cancelTask taskId =>
    obtain ⟨⟨s₁, t''⟩, hcall, rfl⟩ := map_eq_ok.mp h
    exact .inl (cancelTask_keeps hcall k t' ht' hrunning)
  | retryTask taskId =>
    obtain ⟨⟨s₁, t''⟩, hcall, rfl⟩ := map_eq_ok.mp h
    exact .inl (retryTask_keeps hcall k t' ht' hrunning)
  | deadLetterTask taskId errorCode =>
    obtain ⟨⟨s₁, t''⟩, hcall, rfl⟩ := map_eq_ok.mp h
    exact .inl (deadLetterTask_keeps hcall k t' ht' hrunning)

/-- Such a call commits the expiry. -/
theorem Sets.commits (hcovered : s.Covered) (taskTypes : List String) (render : Rendering)
    {c : Call} {t : AutomationTaskRecord} {expiry : Instant} (h : s.Sets now t expiry c) :
    ∃ s' t', s.call taskTypes render now c = .ok s' ∧ s'.tasks.get? t.id = some t'
      ∧ t'.status = .running ∧ t'.leaseExpiresAt = some expiry := by
  cases h with
  | @claimed workerId queues leaseSeconds token skipped hqueues ht hexpiry =>
    obtain ⟨s₁, hrecover⟩ := hcovered.recoverExpiredTasks_goesThrough now skipped
    have hcandidate := (recoverExpiredTasks_keeps queues hrecover).2.trans ht
    have hget := (claimTaskCandidate_some hcandidate).1
    have hcall : s.claimTask workerId queues leaseSeconds token now skipped
        = .ok ({ s₁ with tasks := s₁.tasks.put (t.claimed workerId token leaseSeconds now) },
          some (t.claimed workerId token leaseSeconds now, token)) := by
      unfold claimTask
      refine refuse_bind_eq_ok.mpr ⟨hqueues, bind_eq_ok.mpr ⟨s₁, hrecover, ?_⟩⟩
      rw [hcandidate]
      rfl
    refine ⟨_, _, map_eq_ok.mpr ⟨_, hcall, rfl⟩, Table.get?_put_self hget rfl, rfl, ?_⟩
    rw [hexpiry]
    rfl
  | @extended workerId leaseToken leaseSeconds ht hleased hexpiry =>
    have hcall : s.heartbeatTask t.id workerId leaseToken leaseSeconds now
        = .ok ({ s with tasks := s.tasks.put { t with
            heartbeatAt := some now
            leaseExpiresAt := some (now + seconds leaseSeconds) } }, { t with
          heartbeatAt := some now
          leaseExpiresAt := some (now + seconds leaseSeconds) }) := by
      unfold heartbeatTask
      exact bind_eq_ok.mpr ⟨t, requireTaskLease_eq_ok.mpr ⟨ht, hleased⟩, rfl⟩
    refine ⟨_, _, map_eq_ok.mpr ⟨_, hcall, rfl⟩, Table.get?_put_self ht rfl, hleased.1, ?_⟩
    rw [hexpiry]

end TaskStore

namespace DeviceStore

variable {s s' : DeviceStore} {now : Instant}

/-- While its task runs, the device lease ends no later than the lease of the task. -/
def Within (queue : TaskStore) (l : DeviceLeaseRecord) : Prop :=
  ∀ t ∈ queue.tasks.get? l.taskId, t.status = .running →
    t.leaseExpiresAt.any (l.expiresAt ≤ ·)

/-- No device is leased longer than the task that it was leased for. -/
def LeasesWithin (s : DeviceStore) : Prop :=
  ∀ l ∈ s.leases.rows, l.status = .active → Within s.queue l

instance (s : DeviceStore) : Decidable s.LeasesWithin := by
  unfold LeasesWithin Within
  infer_instance

/-- The request schemas let a lease last from a second to an hour. -/
def LeaseSecondsAdmitted : Call → Prop
  | .task (.claimTask _ _ leaseSeconds _ _) => 1 ≤ leaseSeconds ∧ leaseSeconds ≤ 3600
  | .task (.heartbeatTask _ _ _ leaseSeconds) => 1 ≤ leaseSeconds ∧ leaseSeconds ≤ 3600
  | .acquireDevice payload _ _ => 1 ≤ payload.leaseSeconds ∧ payload.leaseSeconds ≤ 3600
  | .renewDeviceLease _ _ _ _ leaseSeconds => 1 ≤ leaseSeconds ∧ leaseSeconds ≤ 3600
  | _ => True

instance (c : Call) : Decidable (LeaseSecondsAdmitted c) := by
  unfold LeaseSecondsAdmitted
  split
  · infer_instance
  · infer_instance
  · infer_instance
  · infer_instance
  · infer_instance

/-- The call sets the expiry of a task's lease before that of an active device lease
of the task. -/
def CutsShort (s : DeviceStore) (e : Instant × Call) : Prop :=
  ∃ c, e.2 = .task c ∧ ∃ t expiry, s.queue.Sets e.1 t expiry c
    ∧ ∃ l ∈ s.leases.rows, l.status = .active ∧ l.taskId = t.id ∧ expiry < l.expiresAt

theorem requireDeviceLease_task {leaseId : Uuid} {owner token : String} {l : DeviceLeaseRecord}
    {d : DeviceRecord} {task : AutomationTaskRecord}
    (h : s.requireDeviceLease leaseId owner token now = .ok (l, d, task)) :
    s.queue.tasks.get? l.taskId = some task := by
  unfold requireDeviceLease at h
  split at h
  · simp at h
  next x hx =>
  split at h
  · next t y ht hy =>
    split at h
    · simp at h
    obtain ⟨rfl, -, rfl⟩ : x = l ∧ y = d ∧ t = task := by simpa using h
    exact ht
  · simp at h

/-- A lease that is capped at the lease of its task. -/
theorem within_min {queue : TaskStore} {l : DeviceLeaseRecord} {t : AutomationTaskRecord}
    {bound : Instant} (ht : queue.tasks.get? l.taskId = some t) (hlease : t.leaseExpiresAt.isSome)
    (hl : l.expiresAt = min bound (t.leaseExpiresAt.getD now)) : Within queue l := by
  intro t' ht' _
  obtain rfl := Option.some.inj (ht.symm.trans ht')
  obtain ⟨expiry, hexpiry⟩ := Option.isSome_iff_exists.mp hlease
  rw [hexpiry, Option.getD_some] at hl
  simp [hexpiry, hl]

theorem isSome_of_leasedBy {t : AutomationTaskRecord} {workerId token : String}
    (h : t.LeasedBy workerId token now) : t.leaseExpiresAt.isSome := by
  obtain ⟨expiry, hexpiry, -⟩ := (Option.any_eq_true _ _).mp h.2.2.2
  simp [hexpiry]

/-- Device methods leave the queue alone; an active lease is an old one, or capped. -/
def Caps (s s' : DeviceStore) : Prop :=
  s'.queue = s.queue
    ∧ ∀ l ∈ s'.leases.rows, l.status = .active → l ∈ s.leases.rows ∨ Within s.queue l

theorem Caps.same (hqueue : s'.queue = s.queue) (hleases : s'.leases = s.leases) : Caps s s' :=
  ⟨hqueue, fun _ hl _ => .inl (hleases ▸ hl)⟩

/-- One lease is rewritten, and is over or capped. -/
theorem Caps.putLease {l' : DeviceLeaseRecord} (hqueue : s'.queue = s.queue)
    (hleases : s'.leases = s.leases.put l') (h : l'.status = .active → Within s.queue l') :
    Caps s s' := by
  refine ⟨hqueue, fun l hl hactive => ?_⟩
  rw [hleases] at hl
  rcases Table.mem_put hl with rfl | ⟨hold, -⟩
  · exact .inr (h hactive)
  · exact .inl hold

theorem expireDeviceLease_caps {offlineAfter : Int} {leaseId : Uuid}
    (h : s.expireDeviceLease offlineAfter leaseId now = .ok s') : Caps s s' := by
  unfold expireDeviceLease at h
  split at h
  · cases h
    exact .same rfl rfl
  split at h
  · split at h
    · cases h
      exact .same rfl rfl
    · dsimp only at h
      split at h
      · cases h
        exact .putLease rfl rfl (by simp)
      · cases h
        exact .putLease rfl rfl (by simp)
  · simp at h

theorem acquireDevice_caps {lower : String → String} {offlineAfter : Int} {payload : DeviceAcquire}
    {token : String} {skipped : List Uuid} {result : Option ClaimedDevice}
    (h : s.acquireDevice lower offlineAfter payload token now skipped = .ok (s', result)) :
    Caps s s' := by
  unfold acquireDevice at h
  obtain ⟨-, -, h⟩ := bind_eq_ok.mp h
  obtain ⟨task, hlease, h⟩ := bind_eq_ok.mp h
  obtain ⟨ht, hleased⟩ := TaskStore.requireTaskLease_eq_ok.mp hlease
  obtain ⟨-, h⟩ := refuse_bind_eq_ok.mp h
  dsimp only at h
  split at h
  · obtain ⟨rfl, -⟩ := Prod.mk.inj (pure_eq_ok.mp h)
    exact .same rfl rfl
  · obtain ⟨-, h⟩ := refuse_bind_eq_ok.mp h
    obtain ⟨rfl, -⟩ := Prod.mk.inj (pure_eq_ok.mp h)
    refine ⟨rfl, fun l hl _ => ?_⟩
    rcases Table.mem_add hl with hold | rfl
    · exact .inl hold
    · exact .inr (within_min ht (isSome_of_leasedBy hleased) rfl)

theorem renewDeviceLease_caps {offlineAfter : Int} {leaseId : Uuid}
    {owner token taskToken : String} {leaseSeconds : Int} {result : DeviceLeaseRecord}
    (h : s.renewDeviceLease offlineAfter leaseId owner token taskToken leaseSeconds now
      = .ok (s', result)) : Caps s s' := by
  unfold renewDeviceLease at h
  obtain ⟨⟨l, d, task⟩, hlease, h⟩ := bind_eq_ok.mp h
  have ht := requireDeviceLease_task hlease
  obtain ⟨_, hvalid, h⟩ := bind_eq_ok.mp h
  have hleased := validateTaskLeaseRecord_eq_ok.mp hvalid
  obtain ⟨-, h⟩ := refuse_bind_eq_ok.mp h
  obtain ⟨-, -, h⟩ := bind_eq_ok.mp h
  obtain ⟨rfl, -⟩ := Prod.mk.inj (pure_eq_ok.mp h)
  exact .putLease rfl rfl fun _ => within_min ht (isSome_of_leasedBy hleased) rfl

theorem releaseDeviceLease_caps {offlineAfter : Int} {leaseId : Uuid} {owner token : String}
    {result : DeviceLeaseRecord}
    (h : s.releaseDeviceLease offlineAfter leaseId owner token now = .ok (s', result)) :
    Caps s s' := by
  unfold releaseDeviceLease at h
  obtain ⟨⟨l, d, task⟩, -, h⟩ := bind_eq_ok.mp h
  obtain ⟨rfl, -⟩ := Prod.mk.inj (pure_eq_ok.mp h)
  exact .putLease rfl rfl (by simp)

theorem call_caps {cfg : Config} {c : Call} (h : s.call cfg now c = .ok s')
    (hc : ∀ c', c ≠ .task c') : Caps s s' := by
  cases c with
  | task c' => exact absurd rfl (hc c')
  | createDevice payload =>
    replace h : s.createDevice payload now = .ok s' := h
    unfold createDevice at h
    obtain ⟨-, -, h⟩ := bind_eq_ok.mp h
    obtain ⟨-, h⟩ := refuse_bind_eq_ok.mp h
    obtain ⟨-, h⟩ := refuse_bind_eq_ok.mp h
    obtain rfl := pure_eq_ok.mp h
    exact .same rfl rfl
  | updateDevice deviceId payload =>
    obtain ⟨-, -, -, -, rfl⟩ := updateDevice_eq_ok.mp h
    exact .same rfl rfl
  | deleteDevice deviceId =>
    replace h : s.deleteDevice deviceId = .ok s' := h
    unfold deleteDevice at h
    obtain ⟨-, -, h⟩ := bind_eq_ok.mp h
    obtain ⟨-, h⟩ := refuse_bind_eq_ok.mp h
    obtain rfl := pure_eq_ok.mp h
    exact .same rfl rfl
  | heartbeatDevice deviceId agentId =>
    replace h : s.heartbeatDevice deviceId agentId now = .ok s' := h
    unfold heartbeatDevice at h
    obtain ⟨d, -, h⟩ := bind_eq_ok.mp h
    obtain ⟨same, -, h⟩ := bind_eq_ok.mp h
    obtain ⟨-, h⟩ := refuse_bind_eq_ok.mp h
    obtain rfl := pure_eq_ok.mp h
    exact .same rfl rfl
  | expireDeviceLease leaseId => exact expireDeviceLease_caps h
  | acquireDevice payload token skipped =>
    obtain ⟨⟨s₁, result⟩, hcall, rfl⟩ := map_eq_ok.mp h
    exact acquireDevice_caps hcall
  | startDeviceWork leaseId owner leaseToken =>
    obtain ⟨⟨s₁, result⟩, hcall, rfl⟩ := map_eq_ok.mp h
    unfold startDeviceWork at hcall
    obtain ⟨⟨l, d, task⟩, -, hcall⟩ := bind_eq_ok.mp hcall
    obtain ⟨-, -, hcall⟩ := bind_eq_ok.mp hcall
    obtain ⟨-, -, hcall⟩ := bind_eq_ok.mp hcall
    obtain ⟨rfl, -⟩ := Prod.mk.inj (pure_eq_ok.mp hcall)
    exact .same rfl rfl
  | renewDeviceLease leaseId owner leaseToken taskLeaseToken leaseSeconds =>
    obtain ⟨⟨s₁, result⟩, hcall, rfl⟩ := map_eq_ok.mp h
    exact renewDeviceLease_caps hcall
  | releaseDeviceLease leaseId owner leaseToken =>
    obtain ⟨⟨s₁, result⟩, hcall, rfl⟩ := map_eq_ok.mp h
    exact releaseDeviceLease_caps hcall

/-! ## Steps and runs -/

theorem LeasesWithin.caps (h : s.LeasesWithin) (hcaps : Caps s s') : s'.LeasesWithin := by
  intro l hl hactive
  rw [hcaps.1]
  rcases hcaps.2 l hl hactive with hold | hcapped
  · exact h l hold hactive
  · exact hcapped

/-- A method of the queue keeps every device lease within its task's, unless it cuts
a task's lease short. -/
theorem LeasesWithin.task (h : s.LeasesWithin) {cfg : Config} {c : TaskStore.Call}
    {queue : TaskStore} (hcall : s.queue.call cfg.taskTypes cfg.render now c = .ok queue)
    (hkeep : ¬ s.CutsShort (now, .task c)) : ({ s with queue } : DeviceStore).LeasesWithin := by
  intro l hl hactive t' ht' hrunning
  rcases TaskStore.call_running hcall ht' hrunning with
    ⟨t, ht, hran, hsame⟩ | ⟨t, expiry, hid, hexpiry, hsets⟩
  · rw [hsame]
    exact h l hl hactive t ht hran
  · have hle : l.expiresAt ≤ expiry := by
      by_contra hlt
      exact hkeep ⟨c, rfl, t, expiry, hsets, l, hl, hactive, hid.symm, Int.not_le.mp hlt⟩
    simp [hexpiry, hle]

theorem CutsShort.breaks (hcovered : s.queue.Covered) (cfg : Config) {e : Instant × Call}
    (h : s.CutsShort e) : ¬ (s.step cfg e).LeasesWithin := by
  obtain ⟨now, c⟩ := e
  obtain ⟨c, rfl, t, expiry, hsets, l, hl, hactive, htask, hlt⟩ := h
  obtain ⟨queue, t', hcall, ht', hrunning, hexpiry⟩ :=
    hsets.commits hcovered cfg.taskTypes cfg.render
  have hcommit : s.call cfg now (.task c) = .ok { s with queue } :=
    map_eq_ok.mpr ⟨queue, hcall, rfl⟩
  have hstep : s.step cfg (now, .task c) = { s with queue } := by
    simp only [step, hcommit]
  rw [hstep]
  intro hwithin
  have hle := hwithin l hl hactive t' (htask ▸ ht') hrunning
  rw [hexpiry] at hle
  exact absurd hlt (by simpa using hle)

theorem step_within_iff (hcovered : s.queue.Covered) (cfg : Config) (h : s.LeasesWithin)
    (e : Instant × Call) : (s.step cfg e).LeasesWithin ↔ ¬ s.CutsShort e := by
  refine ⟨fun hwithin hcuts => hcuts.breaks hcovered cfg hwithin, fun hkeep => ?_⟩
  obtain ⟨now, c⟩ := e
  unfold step
  cases hcall : s.call cfg now c with
  | error _ => exact h
  | ok s' =>
    by_cases hc : ∃ c', c = .task c'
    · obtain ⟨c', rfl⟩ := hc
      obtain ⟨queue, hqueue, rfl⟩ := map_eq_ok.mp hcall
      exact h.task hqueue hkeep
    · exact h.caps (call_caps hcall fun c' he => hc ⟨c', he⟩)

theorem step_covered (cfg : Config) (e : Instant × Call) (h : s.queue.Covered) :
    (s.step cfg e).queue.Covered := by
  obtain ⟨now, c⟩ := e
  unfold step
  cases hcall : s.call cfg now c with
  | error _ => exact h
  | ok s' =>
    by_cases hc : ∃ c', c = .task c'
    · obtain ⟨c', rfl⟩ := hc
      obtain ⟨queue, hqueue, rfl⟩ := map_eq_ok.mp hcall
      exact h.queueSteps (TaskStore.call_queueSteps hqueue)
    · have hsame := (call_caps hcall fun c' he => hc ⟨c', he⟩).1
      show s'.queue.Covered
      rw [hsame]
      exact h

/-- Every device lease is within its task's in every state of a run exactly if no
claim and no heartbeat of the run cuts a task's lease short. -/
theorem leases_within_iff_never_cut (cfg : Config) (es : List (Instant × Call)) :
    (∀ fs, fs <+: es → (Transition.run (step cfg) empty fs).LeasesWithin)
      ↔ Transition.Along (fun s e => ¬ s.CutsShort e) (step cfg) empty es :=
  Transition.prefixes_iff_along (J := fun s => s.queue.Covered)
    (fun (_ : DeviceStore) e hcovered => step_covered cfg e hcovered)
    (fun (_ : DeviceStore) e hcovered hwithin => step_within_iff hcovered cfg hwithin e)
    (fun l hl => by simp [empty, Table.empty] at hl) TaskStore.empty_covered es

/-- A heartbeat that asks for a second takes the task's lease back to before the end
of the lease on its device. -/
def shortHeartbeat : List (Instant × Call) :=
  [(0, .createDevice ⟨"rig", "agent", "device", "linux", ∅⟩),
    (1, .heartbeatDevice 0 "agent"),
    (2, .task (.enqueueTask ⟨"qa.device.execute", "\x7b\x7d", "default", 50, 3, none, none⟩)),
    (3, .task (.claimTask "worker" ["default"] 60 "the token of the task's lease" [])),
    (4, .acquireDevice ⟨0, "worker", "the token of the task's lease", ∅, 60⟩
      "the token of the device's lease" []),
    (5, .task (.heartbeatTask 0 "worker" "the token of the task's lease" 1))]

theorem not_within_after_heartbeat :
    ¬ ∀ (cfg : Config) (es : List (Instant × Call)), (es.map Prod.fst).Pairwise (· ≤ ·) →
      (∀ e ∈ es, LeaseSecondsAdmitted e.2) →
      (Transition.run (step cfg) empty es).LeasesWithin := by
  intro h
  exact absurd (h lesson shortHeartbeat (by decide) (by decide)) (by decide +kernel)

end DeviceStore

end QaPlatform.Runtime
