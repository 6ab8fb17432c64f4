import QaPlatform.Base.Transition
import QaPlatform.Runtime.ReplaceRaces

/-!
# Leases of replaced tasks

A worker's transaction writes a row that nobody else has written since it was read,
because the row is locked. T2 writes a row that may have been claimed since it was
read. What it sets then is decided by the row as it was: a task that was waiting is
set to `cancelled` while the claim's lease stays in the row, and the worker that has
the lease cannot settle. Any other order of statements leaves the lease columns and
the status in agreement.

`Sound` relates the rows to what workers have been told, and `Inv` adds the locks: what a
session has locked is as it has read it. A statement of a worker writes rows that it has locked,
so what was decided still fits. A T2 locks at its UPDATE only. It `Clobbers` when it commits the
cancellation of a task that it has read as waiting and that runs by then; from there on the
lease of the worker is lost, so the condition is exact over runs of statements.
-/

namespace QaPlatform.Runtime

open Automation (TaskStatus)

/-- The lease columns are set while the task runs, and only then. -/
def LeaseColumns (t : AutomationTaskRecord) : Prop :=
  (t.leaseOwner.isSome ↔ t.status = .running) ∧ (t.leaseTokenHash.isSome ↔ t.status = .running)
    ∧ (t.leaseExpiresAt.isSome ↔ t.status = .running)

instance (t : AutomationTaskRecord) : Decidable (LeaseColumns t) := by
  unfold LeaseColumns
  infer_instance

/-- The row gives `h` the lease that it was told it has. -/
def Holds (t : AutomationTaskRecord) (h : Holder) : Prop :=
  t.status = .running ∧ t.leaseOwner = some h.workerId
    ∧ t.leaseTokenHash = some (tokenHash h.token) ∧ t.leaseExpiresAt.any (h.expiresAt ≤ ·)

theorem Holds.leasedBy {t : AutomationTaskRecord} {h : Holder} (hholds : Holds t h) {now : Instant}
    (hnow : now < h.expiresAt) : t.LeasedBy h.workerId h.token now := by
  obtain ⟨hrunning, howner, htoken, hexpiry⟩ := hholds
  obtain ⟨expiry, he, hle⟩ := (Option.any_eq_true _ _).mp hexpiry
  have hlt : now < expiry := lt_of_lt_of_le hnow (by simpa using hle)
  exact ⟨hrunning, howner, htoken, by simp [he, hlt]⟩

/-- What a worker's transaction has decided about a row that reads `t`. -/
inductive Decided (now : Instant) (t : AutomationTaskRecord) : LockedWrite → Prop
  | granted (workerId token : String) (leaseSeconds : Int) :
      Decided now t ⟨t.claimed workerId token leaseSeconds now,
        .granted ⟨workerId, token, now + seconds leaseSeconds⟩⟩
  | extended (workerId token : String) (leaseSeconds : Int) (h : t.LeasedBy workerId token now) :
      Decided now t ⟨{ t with
        heartbeatAt := some now
        leaseExpiresAt := some (now + seconds leaseSeconds) },
          .extended (now + seconds leaseSeconds)⟩
  | ended {t' : AutomationTaskRecord} (hid : t'.id = t.id) (hstop : t'.status ≠ .running)
      (hclear : t'.leaseOwner = none ∧ t'.leaseTokenHash = none ∧ t'.leaseExpiresAt = none)
      (hlater : t'.Waiting → now < t'.availableAt) : Decided now t ⟨t', .ended⟩

theorem Decided.id_eq {now : Instant} {t : AutomationTaskRecord} {x : LockedWrite}
    (h : Decided now t x) : x.row.id = t.id := by
  cases h with
  | granted => rfl
  | extended => rfl
  | ended hid => exact hid

theorem leaseColumns_of_clear {t : AutomationTaskRecord} (hstop : t.status ≠ .running)
    (hclear : t.leaseOwner = none ∧ t.leaseTokenHash = none ∧ t.leaseExpiresAt = none) :
    LeaseColumns t := by
  obtain ⟨howner, htoken, hexpiry⟩ := hclear
  simp [LeaseColumns, howner, htoken, hexpiry, hstop]

theorem Decided.leaseColumns {now : Instant} {t : AutomationTaskRecord} {x : LockedWrite}
    (h : Decided now t x) (hcolumns : LeaseColumns t) : LeaseColumns x.row := by
  cases h with
  | granted => simp [LeaseColumns, AutomationTaskRecord.claimed]
  | extended workerId token leaseSeconds hleased =>
    exact ⟨hcolumns.1, hcolumns.2.1, by simp [hleased.1]⟩
  | ended hid hstop hclear => exact leaseColumns_of_clear hstop hclear

/-- Who holds the lease after a write has it from the row that was written. -/
theorem Decided.holds {now : Instant} {t : AutomationTaskRecord} {x : LockedWrite}
    (h : Decided now t x) {old : Option Holder} (hold : ∀ h ∈ old, Holds t h) {holder : Holder}
    (hholder : x.effect.holder old = some holder) : Holds x.row holder := by
  cases h with
  | granted workerId token leaseSeconds =>
    obtain rfl : _ = holder := Option.some.inj hholder
    simp [Holds, AutomationTaskRecord.claimed]
  | extended workerId token leaseSeconds hleased =>
    obtain ⟨before, hbefore, rfl⟩ := Option.map_eq_some_iff.mp hholder
    obtain ⟨hrunning, howner, htoken, -⟩ := hold before hbefore
    exact ⟨hrunning, howner, htoken, by simp⟩
  | ended => simp [LeaseEffect.holder] at hholder

namespace QueueRace

variable {s s' : QueueRace} {now : Instant}

/-- The columns agree with the statuses, and every worker holds what it was told. -/
structure Sound (s : QueueRace) : Prop where
  columns : ∀ t ∈ s.tasks.rows, LeaseColumns t
  holders : ∀ k h, s.holders k = some h → ∃ t, s.tasks.get? k = some t ∧ Holds t h

/-! ## Rows that a worker has locked -/

theorem write_get?_of_ne {x : LockedWrite} {k : Uuid} (hk : x.row.id ≠ k) :
    (s.write x).tasks.get? k = s.tasks.get? k := Table.get?_put_of_ne hk

theorem write_holders_self (s : QueueRace) (x : LockedWrite) :
    (s.write x).holders x.row.id = x.effect.holder (s.holders x.row.id) := by
  simp [QueueRace.write]

theorem write_holders_of_ne {x : LockedWrite} {k : Uuid} (hk : k ≠ x.row.id) :
    (s.write x).holders k = s.holders k := by
  simp [QueueRace.write, hk]

theorem Sound.write (h : s.Sound) {t : AutomationTaskRecord} {x : LockedWrite}
    (ht : s.tasks.get? t.id = some t) (hx : Decided now t x) : (s.write x).Sound where
  columns := by
    intro t' ht'
    rcases Table.mem_put ht' with rfl | ⟨hold, -⟩
    · exact hx.leaseColumns (h.columns t (Table.mem_of_get? ht))
    · exact h.columns t' hold
  holders := by
    intro k holder hholder
    by_cases hk : k = x.row.id
    · subst hk
      have hget : (s.tasks.put x.row).get? x.row.id = some x.row :=
        Table.get?_put_self (hx.id_eq ▸ ht) rfl
      rw [write_holders_self] at hholder
      refine ⟨x.row, hget, hx.holds (fun before hbefore => ?_) hholder⟩
      obtain ⟨t₀, ht₀, hholds⟩ := h.holders _ before hbefore
      obtain rfl : t = t₀ := Option.some.inj (ht.symm.trans (hx.id_eq ▸ ht₀))
      exact hholds
    · rw [write_holders_of_ne hk] at hholder
      obtain ⟨t₀, ht₀, hholds⟩ := h.holders k holder hholder
      exact ⟨t₀, (write_get?_of_ne (Ne.symm hk)).trans ht₀, hholds⟩

theorem foldl_write_get? {xs : List LockedWrite} {k : Uuid} (hk : k ∉ xs.map (·.row.id)) :
    (xs.foldl write s).tasks.get? k = s.tasks.get? k := by
  induction xs generalizing s with
  | nil => rfl
  | cons x xs ih =>
    rw [List.map_cons, List.mem_cons, not_or] at hk
    exact (ih hk.2).trans (write_get?_of_ne (Ne.symm hk.1))

theorem foldl_write_rest (s : QueueRace) (xs : List LockedWrite) :
    (xs.foldl write s).locks = s.locks ∧ (xs.foldl write s).workers = s.workers
      ∧ (xs.foldl write s).finalisations = s.finalisations := by
  induction xs generalizing s with
  | nil => exact ⟨rfl, rfl, rfl⟩
  | cons x xs ih => exact ih (s.write x)

/-- The writes of a transaction are to different rows, so each finds its own as it
was read. -/
theorem Sound.foldl_write (h : s.Sound) {xs : List LockedWrite}
    (hnodup : (xs.map (·.row.id)).Nodup)
    (hxs : ∀ x ∈ xs, ∃ t, s.tasks.get? x.row.id = some t ∧ Decided now t x) :
    (xs.foldl QueueRace.write s).Sound := by
  induction xs generalizing s with
  | nil => exact h
  | cons x xs ih =>
    rw [List.map_cons, List.nodup_cons] at hnodup
    obtain ⟨t, ht, hdecided⟩ := hxs x List.mem_cons_self
    refine ih (h.write (hdecided.id_eq ▸ ht) hdecided) hnodup.2 fun x' hx' => ?_
    have hne : x.row.id ≠ x'.row.id :=
      fun he => hnodup.1 (he ▸ List.mem_map_of_mem (f := fun x : LockedWrite => x.row.id) hx')
    rw [write_get?_of_ne hne]
    exact hxs x' (List.mem_cons_of_mem x hx')

/-! ## Rows that T2 updates -/

/-- The row after the UPDATEs of a T2. -/
def replaced (now : Instant) (reads : List AutomationTaskRecord) (t : AutomationTaskRecord) :
    AutomationTaskRecord :=
  reads.foldl (fun t read => if read.id = t.id then (replaceChanges now read).apply t else t) t

theorem updateRow_get? (tasks : Table AutomationTaskRecord) (read : AutomationTaskRecord)
    (k : Uuid) : (updateRow now tasks read).get? k
      = (tasks.get? k).map fun t =>
        if read.id = t.id then (replaceChanges now read).apply t else t := by
  unfold updateRow
  cases hread : tasks.get? read.id with
  | none =>
    cases hk : tasks.get? k with
    | none => simp [hk]
    | some t =>
      have hid : t.id = k := Table.key_of_get? hk
      have hne : read.id ≠ t.id := by
        intro he
        rw [he, hid, hk] at hread
        cases hread
      simp [hk, hne]
  | some t₀ =>
    have hid₀ : t₀.id = read.id := Table.key_of_get? hread
    by_cases hk : read.id = k
    · subst hk
      have hput : (tasks.put ((replaceChanges now read).apply t₀)).get? read.id
          = some ((replaceChanges now read).apply t₀) := Table.get?_put_self hread hid₀
      simp [hput, hread, hid₀]
    · have hput : (tasks.put ((replaceChanges now read).apply t₀)).get? k = tasks.get? k :=
        Table.get?_put_of_ne fun he => hk (hid₀.symm.trans he)
      cases hget : tasks.get? k with
      | none => simp [hput, hget]
      | some t =>
        have hne : read.id ≠ t.id := fun he => hk (he.trans (Table.key_of_get? hget))
        simp [hput, hget, hne]

theorem foldl_updateRow_get? (tasks : Table AutomationTaskRecord)
    (reads : List AutomationTaskRecord) (k : Uuid) :
    (reads.foldl (updateRow now) tasks).get? k = (tasks.get? k).map (replaced now reads) := by
  induction reads generalizing tasks with
  | nil => exact Option.map_id.symm ▸ rfl
  | cons read reads ih =>
    rw [List.foldl_cons, ih, updateRow_get?, Option.map_map]
    rfl

theorem replaced_of_not_read {reads : List AutomationTaskRecord} {t : AutomationTaskRecord}
    (h : ∀ read ∈ reads, read.id ≠ t.id) : replaced now reads t = t := by
  induction reads with
  | nil => rfl
  | cons read reads ih =>
    have hrest := ih fun other hother => h other (List.mem_cons_of_mem read hother)
    unfold replaced at hrest ⊢
    rw [List.foldl_cons, if_neg (h read List.mem_cons_self)]
    exact hrest

/-- Some T2 decided to cancel the task because it was waiting. -/
def Cancels (reads : List AutomationTaskRecord) (k : Uuid) : Prop :=
  ∃ read ∈ reads, read.id = k ∧ read.status ≠ .running

/-- What an UPDATE does not touch. -/
def SameLease (t t' : AutomationTaskRecord) : Prop :=
  t'.id = t.id ∧ t'.leaseOwner = t.leaseOwner ∧ t'.leaseTokenHash = t.leaseTokenHash
    ∧ t'.leaseExpiresAt = t.leaseExpiresAt

theorem replaced_sameLease (now : Instant) (reads : List AutomationTaskRecord)
    (t : AutomationTaskRecord) : SameLease t (replaced now reads t) := by
  induction reads generalizing t with
  | nil => exact ⟨rfl, rfl, rfl, rfl⟩
  | cons read reads ih =>
    have hfirst :
      SameLease t (if read.id = t.id then (replaceChanges now read).apply t else t) := by
      split
      · exact ⟨rfl, rfl, rfl, rfl⟩
      · exact ⟨rfl, rfl, rfl, rfl⟩
    obtain ⟨hid, howner, htoken, hexpiry⟩ := hfirst
    obtain ⟨hid', howner', htoken', hexpiry'⟩ := ih (if read.id = t.id then
      (replaceChanges now read).apply t else t)
    exact ⟨hid'.trans hid, howner'.trans howner, htoken'.trans htoken, hexpiry'.trans hexpiry⟩

/-- The task ends up cancelled if one of the UPDATEs cancels it, and otherwise keeps
the status it has by then. -/
theorem replaced_status (now : Instant) (reads : List AutomationTaskRecord)
    (t : AutomationTaskRecord) :
    (Cancels reads t.id → (replaced now reads t).status = .cancelled)
      ∧ (¬ Cancels reads t.id → (replaced now reads t).status = t.status) := by
  induction reads generalizing t with
  | nil => exact ⟨fun ⟨_, hread, _⟩ => absurd hread List.not_mem_nil, fun _ => rfl⟩
  | cons read reads ih =>
    by_cases hid : read.id = t.id
    · obtain ⟨hcancels, hkeeps⟩ := ih ((replaceChanges now read).apply t)
      have hreplaced : replaced now (read :: reads) t
          = replaced now reads ((replaceChanges now read).apply t) := by
        simp [replaced, hid]
      rw [hreplaced]
      by_cases hrest : Cancels reads t.id
      · have hcons : Cancels (read :: reads) t.id := by
          obtain ⟨other, hother, heq, hwaits⟩ := hrest
          exact ⟨other, List.mem_cons_of_mem read hother, heq, hwaits⟩
        exact ⟨fun _ => hcancels hrest, fun hnot => absurd hcons hnot⟩
      · rw [hkeeps hrest]
        by_cases hrunning : read.status = .running
        · have hcons : ¬ Cancels (read :: reads) t.id := by
            rintro ⟨other, hother, heq, hwaits⟩
            rcases List.mem_cons.mp hother with rfl | hother
            · exact hwaits hrunning
            · exact hrest ⟨other, hother, heq, hwaits⟩
          refine ⟨fun hyes => absurd hyes hcons, fun _ => ?_⟩
          simp [TaskChanges.apply, replaceChanges, hrunning]
        · have hcons : Cancels (read :: reads) t.id :=
            ⟨read, List.mem_cons_self, hid, hrunning⟩
          refine ⟨fun _ => ?_, fun hnot => absurd hcons hnot⟩
          simp [TaskChanges.apply, replaceChanges, hrunning]
    · have hreplaced : replaced now (read :: reads) t = replaced now reads t := by
        simp [replaced, hid]
      have hcons : Cancels (read :: reads) t.id ↔ Cancels reads t.id := by
        constructor
        · rintro ⟨other, hother, heq, hwaits⟩
          rcases List.mem_cons.mp hother with rfl | hother
          · exact absurd heq hid
          · exact ⟨other, hother, heq, hwaits⟩
        · rintro ⟨other, hother, heq, hwaits⟩
          exact ⟨other, List.mem_cons_of_mem read hother, heq, hwaits⟩
      rw [hreplaced, hcons]
      exact ih t

/-! ## Rows that T2 inserts -/

theorem get?_insertRow {scheduleId : Uuid} {tasks : Table AutomationTaskRecord} (r : Replacement)
    {k : Uuid} {t : AutomationTaskRecord} (ht : tasks.get? k = some t) :
    (insertRow scheduleId now tasks r).get? k = some t := Table.get?_add_old ht

theorem mem_insertRow {scheduleId : Uuid} {tasks : Table AutomationTaskRecord} {r : Replacement}
    {t : AutomationTaskRecord} (ht : t ∈ (insertRow scheduleId now tasks r).rows) :
    t ∈ tasks.rows ∨ t = r.row scheduleId now tasks.next := Table.mem_add ht

theorem foldl_insertRow_get? {scheduleId : Uuid} {tasks : Table AutomationTaskRecord}
    (rs : List Replacement) {k : Uuid} {t : AutomationTaskRecord} (ht : tasks.get? k = some t) :
    (rs.foldl (insertRow scheduleId now) tasks).get? k = some t := by
  induction rs generalizing tasks with
  | nil => exact ht
  | cons r rs ih => exact ih (get?_insertRow r ht)

theorem mem_foldl_insertRow {scheduleId : Uuid} {tasks : Table AutomationTaskRecord}
    (rs : List Replacement) {t : AutomationTaskRecord}
    (ht : t ∈ (rs.foldl (insertRow scheduleId now) tasks).rows) :
    t ∈ tasks.rows ∨ ∃ r id, t = Replacement.row r scheduleId now id := by
  induction rs generalizing tasks with
  | nil => exact .inl ht
  | cons r rs ih =>
    rcases ih ht with hold | hnew
    · rcases mem_insertRow hold with hold | rfl
      · exact .inl hold
      · exact .inr ⟨r, _, rfl⟩
    · exact .inr hnew

theorem Replacement.leaseColumns (r : Replacement) (scheduleId : Uuid) (now : Instant) (id : Uuid) :
    LeaseColumns (r.row scheduleId now id) := by
  refine leaseColumns_of_clear ?_ ⟨rfl, rfl, rfl⟩
  show (if r.cancelled then TaskStatus.cancelled else .queued) ≠ .running
  split
  · decide
  · decide

/-! ## Locks -/

/-- What sessions have locked is as they read it, and T2 holds the locks of what it
has updated. -/
structure Inv (s : QueueRace) : Prop where
  writes : ∀ w ∈ s.workers.rows, ∀ x ∈ w.writes, s.locks.Held x.row.id (.worker w.id)
    ∧ ∃ t, s.tasks.get? x.row.id = some t ∧ Decided w.now t x
  nodup : ∀ w ∈ s.workers.rows, (w.writes.map (·.row.id)).Nodup
  updated : ∀ f ∈ s.finalisations.rows, ∀ k ∈ f.updated, s.locks.Held k (.finalisation f.id)

theorem empty_inv : empty.Inv where
  writes := by simp [empty, Table.empty]
  nodup := by simp [empty, Table.empty]
  updated := by simp [empty, Table.empty]

/-- The end of a transaction that has written no row but those it has locked. -/
theorem Inv.finish (h : s.Inv) {tx : QueueTx} (hlocks : s'.locks = s.locks.release tx)
    (hworkers : ∀ w ∈ s'.workers.rows, w ∈ s.workers.rows ∧ .worker w.id ≠ tx)
    (hfinalisations : ∀ f ∈ s'.finalisations.rows,
      f ∈ s.finalisations.rows ∧ .finalisation f.id ≠ tx)
    (hframe : ∀ k t, s.tasks.get? k = some t → ¬ s.locks.Held k tx → s'.tasks.get? k = some t) :
    s'.Inv where
  writes := by
    intro w hw x hx
    obtain ⟨hold, hne⟩ := hworkers w hw
    obtain ⟨hheld, t, ht, hdecided⟩ := h.writes w hold x hx
    refine ⟨hlocks ▸ hheld.release hne, t, hframe _ t ht fun hother => ?_, hdecided⟩
    exact hne (hheld.unique hother)
  nodup := fun w hw => h.nodup w (hworkers w hw).1
  updated := by
    intro f hf k hk
    obtain ⟨hold, hne⟩ := hfinalisations f hf
    exact hlocks ▸ (h.updated f hold k hk).release hne

theorem mem_erase_worker {id : Uuid} {w : WorkerSession} (hw : w ∈ (s.workers.erase id).rows) :
    w ∈ s.workers.rows ∧ QueueTx.worker w.id ≠ .worker id := by
  have hmem := List.mem_filter.mp hw
  exact ⟨hmem.1, fun he => of_decide_eq_true hmem.2 (QueueTx.worker.inj he)⟩

theorem mem_erase_finalisation {id : Uuid} {f : FinalisationSession}
    (hf : f ∈ (s.finalisations.erase id).rows) :
    f ∈ s.finalisations.rows ∧ QueueTx.finalisation f.id ≠ .finalisation id := by
  have hmem := List.mem_filter.mp hf
  exact ⟨hmem.1, fun he => of_decide_eq_true hmem.2 (QueueTx.finalisation.inj he)⟩

theorem Inv.endWorker (h : s.Inv) (id : Uuid) : (s.endWorker id).Inv :=
  h.finish rfl (fun _ hw => mem_erase_worker hw) (fun _ hf => ⟨hf, QueueTx.noConfusion⟩)
    fun _ _ ht _ => ht

theorem Inv.endFinalisation (h : s.Inv) (id : Uuid) : (s.endFinalisation id).Inv :=
  h.finish rfl (fun _ hw => ⟨hw, QueueTx.noConfusion⟩) (fun _ hf => mem_erase_finalisation hf)
    fun _ _ ht _ => ht

theorem Inv.commit (h : s.Inv) {w : WorkerSession} (hw : w ∈ s.workers.rows) :
    (s.commit w).Inv := by
  obtain ⟨hlocks, hworkers, hfinalisations⟩ := foldl_write_rest s w.writes
  have hrelease : (s.commit w).locks = s.locks.release (.worker w.id) := by
    show RowLocks.release _ _ = _
    rw [hlocks]
  refine h.finish hrelease (fun w' hw' => ?_) (fun f hf => ?_) fun k t ht hfree => ?_
  · have hw'' : w' ∈ ((w.writes.foldl QueueRace.write s).workers.erase w.id).rows := hw'
    rw [hworkers] at hw''
    exact mem_erase_worker hw''
  · have hf' : f ∈ (w.writes.foldl QueueRace.write s).finalisations.rows := hf
    rw [hfinalisations] at hf'
    exact ⟨hf', QueueTx.noConfusion⟩
  · show (w.writes.foldl QueueRace.write s).tasks.get? k = some t
    rw [foldl_write_get?, ht]
    intro hk
    obtain ⟨x, hx, rfl⟩ := List.mem_map.mp hk
    exact hfree (h.writes w hw x hx).1

/-- The rows that a T2 leaves alone. -/
theorem commitFinalisation_frame (h : s.Inv) {f : FinalisationSession}
    (hf : f ∈ s.finalisations.rows) {k : Uuid} {t : AutomationTaskRecord}
    (ht : s.tasks.get? k = some t) (hfree : ¬ s.locks.Held k (.finalisation f.id)) :
    (f.inserted.foldl (insertRow f.scheduleId f.now)
      ((f.loaded.filter fun read => read.id ∈ f.updated).foldl (updateRow f.now) s.tasks)).get? k
      = some t := by
  refine foldl_insertRow_get? _ ?_
  rw [foldl_updateRow_get?, ht, Option.map_some, replaced_of_not_read]
  intro read hread hid
  have hmem := List.mem_filter.mp hread
  have hheld := h.updated f hf read.id (of_decide_eq_true hmem.2)
  have hkey : t.id = k := Table.key_of_get? ht
  rw [hid, hkey] at hheld
  exact hfree hheld

theorem Inv.commitFinalisation (h : s.Inv) {f : FinalisationSession}
    (hf : f ∈ s.finalisations.rows) : (s.commitFinalisation f).Inv := by
  unfold QueueRace.commitFinalisation
  split
  · exact h.finish rfl (fun _ hw => ⟨hw, QueueTx.noConfusion⟩)
      (fun _ hf' => mem_erase_finalisation hf') fun _ _ ht hfree =>
        commitFinalisation_frame h hf ht hfree
  · exact h

/-- A statement that takes locks and changes no row. -/
theorem Inv.lock (h : s.Inv) {tx : QueueTx} {ks : List Uuid} (htasks : s'.tasks = s.tasks)
    (hlocks : s'.locks = s.locks.takeAll ks tx) (hks : ∀ k ∈ ks, s.locks.Available k tx)
    (hworkers : ∀ w ∈ s'.workers.rows, (∀ x ∈ w.writes,
        (∃ w₀ ∈ s.workers.rows, w₀.id = w.id ∧ w₀.now = w.now ∧ x ∈ w₀.writes)
        ∨ .worker w.id = tx ∧ x.row.id ∈ ks
          ∧ ∃ t, s.tasks.get? x.row.id = some t ∧ Decided w.now t x)
      ∧ (w.writes.map (·.row.id)).Nodup)
    (hfinalisations : ∀ f ∈ s'.finalisations.rows, ∀ k ∈ f.updated,
      (∃ f₀ ∈ s.finalisations.rows, f₀.id = f.id ∧ k ∈ f₀.updated)
      ∨ .finalisation f.id = tx ∧ k ∈ ks) : s'.Inv where
  writes := by
    intro w hw x hx
    rw [htasks, hlocks]
    rcases (hworkers w hw).1 x hx with ⟨w₀, hw₀, hid, hnow, hx₀⟩ | ⟨rfl, hk, hdecided⟩
    · obtain ⟨hheld, hdecided⟩ := h.writes w₀ hw₀ x hx₀
      rw [hid] at hheld
      rw [hnow] at hdecided
      exact ⟨hheld.takeAll hks, hdecided⟩
    · exact ⟨RowLocks.held_takeAll hks hk, hdecided⟩
  nodup := fun w hw => (hworkers w hw).2
  updated := by
    intro f hf k hk
    rw [hlocks]
    rcases hfinalisations f hf k hk with ⟨f₀, hf₀, hid, hk₀⟩ | ⟨rfl, hin⟩
    · have hheld := h.updated f₀ hf₀ k hk₀
      rw [hid] at hheld
      exact hheld.takeAll hks
    · exact RowLocks.held_takeAll hks hin

/-- A worker's transaction begins with the rows that it locks and what it decides. -/
theorem Inv.openWorker (h : s.Inv) {now : Instant} {claiming : Bool} {writes : List LockedWrite}
    (hnodup : (writes.map (·.row.id)).Nodup)
    (hwrites : ∀ x ∈ writes, s.locks.Available x.row.id (.worker s.workers.next)
      ∧ ∃ t, s.tasks.get? x.row.id = some t ∧ Decided now t x) :
    Inv { s with
      locks := s.locks.takeAll (writes.map (·.row.id)) (.worker s.workers.next)
      workers := s.workers.add fun id => { id, now, claiming, writes } } := by
  refine h.lock rfl rfl (fun k hk => ?_) (fun w hw => ?_) fun f hf k hk => ?_
  · obtain ⟨x, hx, rfl⟩ := List.mem_map.mp hk
    exact (hwrites x hx).1
  · rcases Table.mem_add hw with hold | rfl
    · exact ⟨fun _ hx => .inl ⟨w, hold, rfl, rfl, hx⟩, h.nodup w hold⟩
    · refine ⟨fun x hx => .inr ⟨rfl, ?_, (hwrites x hx).2⟩, hnodup⟩
      exact List.mem_map_of_mem (f := fun x : LockedWrite => x.row.id) hx
  · exact .inl ⟨f, hf, rfl, hk⟩

/-! ## What sessions decide about the rows they lock -/

theorem toOption_eq_some {α : Type} {e : Except DomainError α} {a : α} :
    e.toOption = some a ↔ e = .ok a := by
  cases e with
  | error => simp [Except.toOption]
  | ok => simp [Except.toOption]

theorem available_of_not_skipped {tx : QueueTx} {t : AutomationTaskRecord}
    (ht : t ∈ s.tasks.rows) (h : t.id ∉ s.lockedByOthers tx) : s.locks.Available t.id tx := by
  by_contra hlocked
  refine h (List.mem_filter.mpr ⟨List.mem_map_of_mem ht, ?_⟩)
  simpa using hlocked

theorem not_skipped_of_lockExpired {queue : TaskStore} {skipped : List Uuid}
    {t : AutomationTaskRecord} (h : t ∈ queue.lockExpiredTaskLeases now skipped) :
    t.id ∉ skipped := by
  unfold TaskStore.lockExpiredTaskLeases at h
  rw [List.mem_mergeSort] at h
  exact (of_decide_eq_true (List.mem_filter.mp h).2).2.2

theorem foldlM_recover_get?_of_ne {queue queue' : TaskStore} {records : List AutomationTaskRecord}
    (h : records.foldlM (TaskStore.recoverExpiredTask now) queue = .ok queue') {k : Uuid}
    (hk : ∀ t ∈ records, t.id ≠ k) : queue'.tasks.get? k = queue.tasks.get? k := by
  induction records generalizing queue with
  | nil =>
    rw [List.foldlM_nil] at h
    obtain rfl := pure_eq_ok.mp h
    rfl
  | cons t records ih =>
    rw [List.foldlM_cons] at h
    obtain ⟨queue₁, hone, hrest⟩ := bind_eq_ok.mp h
    rw [ih hrest fun t' ht' => hk t' (List.mem_cons_of_mem t ht')]
    exact TaskStore.recoverExpiredTask_get? hone (hk t List.mem_cons_self)

/-- What becomes of each expired task. -/
theorem foldlM_recover_decided {queue queue' : TaskStore} {records : List AutomationTaskRecord}
    (hnodup : (records.map AutomationTaskRecord.id).Nodup)
    (hrecords : ∀ t ∈ records, queue.tasks.get? t.id = some t)
    (h : records.foldlM (TaskStore.recoverExpiredTask now) queue = .ok queue') :
    ∀ t ∈ records, ∃ t', queue'.tasks.get? t.id = some t' ∧ Decided now t ⟨t', .ended⟩ := by
  induction records generalizing queue with
  | nil => exact fun t ht => absurd ht List.not_mem_nil
  | cons t records ih =>
    rw [List.foldlM_cons] at h
    obtain ⟨queue₁, hone, hrest⟩ := bind_eq_ok.mp h
    rw [List.map_cons, List.nodup_cons] at hnodup
    have hne : ∀ x ∈ records, t.id ≠ x.id := fun x hx he => hnodup.1 (he ▸ List.mem_map_of_mem hx)
    intro x hx
    rcases List.mem_cons.mp hx with rfl | hx
    · obtain ⟨t', hid, hstop, hclear, hlater, hput⟩ := TaskStore.recoverExpiredTask_put hone
      refine ⟨t', ?_, .ended hid hstop hclear hlater⟩
      rw [foldlM_recover_get?_of_ne hrest fun y hy => (hne y hy).symm, hput]
      exact Table.get?_put_self (hrecords x List.mem_cons_self) hid
    · refine ih hnodup.2 (fun y hy => ?_) hrest x hx
      rw [TaskStore.recoverExpiredTask_get? hone (hne y hy)]
      exact hrecords y (List.mem_cons_of_mem t hy)

theorem leaseWrite_decided {tasks : Table AutomationTaskRecord} {c : TaskStore.Call}
    {x : LockedWrite} (h : leaseWrite tasks now c = some x) :
    ∃ t, tasks.get? x.row.id = some t ∧ Decided now t x := by
  cases c with
  | heartbeatTask taskId workerId leaseToken leaseSeconds =>
    obtain ⟨⟨queue, t'⟩, hcall, rfl⟩ := Option.map_eq_some_iff.mp h
    obtain ⟨t, ht, hleased, rfl, -⟩ := TaskStore.heartbeatTask_ok (toOption_eq_some.mp hcall)
    obtain rfl : t.id = taskId := Table.key_of_get? ht
    exact ⟨t, ht, .extended workerId leaseToken leaseSeconds hleased⟩
  | completeTask taskId workerId leaseToken result =>
    obtain ⟨⟨queue, t'⟩, hcall, rfl⟩ := Option.map_eq_some_iff.mp h
    obtain ⟨t, ht, -, rfl, -⟩ := TaskStore.completeTask_ok (toOption_eq_some.mp hcall)
    obtain rfl : t.id = taskId := Table.key_of_get? ht
    refine ⟨t, ht, .ended rfl ?_ ⟨rfl, rfl, rfl⟩ ?_⟩
    · cases t.cancelRequested with
      | false => simp
      | true => simp
    · cases t.cancelRequested with
      | false => simp
      | true => simp
  | failTask taskId workerId leaseToken errorCode retryable =>
    obtain ⟨⟨queue, t'⟩, hcall, rfl⟩ := Option.map_eq_some_iff.mp h
    obtain ⟨t, ht, -, hcase⟩ := TaskStore.failTask_ok (toOption_eq_some.mp hcall)
    obtain rfl : t.id = taskId := Table.key_of_get? ht
    rcases hcase with ⟨status, hends, rfl, -⟩ | ⟨-, -, rfl, -⟩
    · refine ⟨t, ht, .ended rfl ?_ ⟨rfl, rfl, rfl⟩ ?_⟩
      · rcases hends with ⟨-, rfl⟩ | ⟨-, rfl | rfl⟩
        · simp
        · simp
        · simp
      · rcases hends with ⟨-, rfl⟩ | ⟨-, rfl | rfl⟩
        · simp
        · simp
        · simp
    · exact ⟨t, ht, .ended rfl (by simp) ⟨rfl, rfl, rfl⟩ fun _ => lt_add_retryDelay now t.attempts⟩
  | enqueueTask | claimTask | cancelTask | retryTask | deadLetterTask => cases h

/-- A row in a session's eyes is one that it writes, or one that is committed. -/
theorem mem_view {tasks : Table AutomationTaskRecord} {writes : List LockedWrite}
    {t : AutomationTaskRecord}
    (h : t ∈ (writes.foldl (fun tasks x => tasks.put x.row) tasks).rows) :
    (∃ x ∈ writes, t = x.row) ∨ t ∈ tasks.rows ∧ t.id ∉ writes.map (·.row.id) := by
  induction writes generalizing tasks with
  | nil => exact .inr ⟨h, by simp⟩
  | cons x writes ih =>
    rcases ih h with ⟨y, hy, rfl⟩ | ⟨hput, hnot⟩
    · exact .inl ⟨y, List.mem_cons_of_mem x hy, rfl⟩
    · rcases Table.mem_put hput with rfl | ⟨hold, hne⟩
      · exact .inl ⟨x, List.mem_cons_self, rfl⟩
      · refine .inr ⟨hold, ?_⟩
        rw [List.map_cons, List.mem_cons, not_or]
        exact ⟨hne, hnot⟩

/-- The candidate of a claim is not one of the tasks that the same claim has recovered. -/
theorem Inv.candidate (h : s.Inv) {w : WorkerSession} (hw : w ∈ s.workers.rows)
    {queues : List String} {skipped : List Uuid} {t : AutomationTaskRecord}
    (ht : (queueOf (s.view w)).claimTaskCandidate queues w.now skipped = some t) :
    t ∈ s.tasks.rows ∧ t.id ∉ w.writes.map (·.row.id) ∧ t.id ∉ skipped := by
  have hmem := List.mem_filter.mp (mem_of_firstBy ht)
  obtain ⟨hclaimable, hskipped⟩ := of_decide_eq_true hmem.2
  rcases mem_view hmem.1 with ⟨x, hx, rfl⟩ | ⟨hrow, hnot⟩
  · obtain ⟨-, t₀, -, hdecided⟩ := h.writes w hw x hx
    obtain ⟨-, hwaiting, -, hdue, -⟩ := hclaimable
    have hrunning : ¬ x.row.status = .running := by
      intro he
      rw [he] at hwaiting
      exact absurd hwaiting (by decide)
    cases hdecided with
    | granted => exact absurd rfl hrunning
    | extended workerId token leaseSeconds hleased => exact absurd hleased.1 hrunning
    | ended hid hstop hclear hlater => exact absurd hdue (Int.not_le.mpr (hlater hwaiting))
  · exact ⟨hrow, hnot, hskipped⟩

/-! ## Every statement keeps the locks right -/

theorem Inv.recover (h : s.Inv) (now : Instant) : (s.recover now).Inv := by
  unfold QueueRace.recover
  dsimp only
  cases hrecover : (queueOf s.tasks).recoverExpiredTasks now
      (s.lockedByOthers (.worker s.workers.next)) with
  | error _ => exact h
  | ok recovered =>
    have hnodup := TaskStore.nodup_lockExpiredTaskLeases (queueOf s.tasks) now
      (s.lockedByOthers (.worker s.workers.next))
    have hrecords : ∀ t ∈ (queueOf s.tasks).lockExpiredTaskLeases now
        (s.lockedByOthers (.worker s.workers.next)),
        s.tasks.get? t.id = some t ∧ s.locks.Available t.id (.worker s.workers.next) := by
      intro t ht
      have hrow := (TaskStore.mem_lockExpiredTaskLeases ht).1
      exact ⟨Table.get?_key hrow, available_of_not_skipped hrow (not_skipped_of_lockExpired ht)⟩
    have hdecided := foldlM_recover_decided hnodup (fun t ht => (hrecords t ht).1) hrecover
    -- the sweep is its list of records from here on, whatever query found them
    generalize (queueOf s.tasks).lockExpiredTaskLeases now
      (s.lockedByOthers (.worker s.workers.next)) = records at hnodup hrecords hdecided ⊢
    -- each write ends one of the records the sweep locked
    have hwrites : ∀ x ∈ records.filterMap fun record =>
        (recovered.tasks.get? record.id).map fun row => (⟨row, .ended⟩ : LockedWrite),
        ∃ t ∈ records, x.row.id = t.id ∧ Decided now t x := by
      intro x hx
      obtain ⟨t, ht, hsome⟩ := List.mem_filterMap.mp hx
      obtain ⟨t', ht', hended⟩ := hdecided t ht
      rw [ht', Option.map_some] at hsome
      obtain rfl := Option.some.inj hsome
      exact ⟨t, ht, hended.id_eq, hended⟩
    refine h.openWorker ?_ fun x hx => ?_
    · have hids : ∀ rs : List AutomationTaskRecord, (∀ t ∈ rs, ∃ t',
          recovered.tasks.get? t.id = some t' ∧ Decided now t ⟨t', .ended⟩) →
          ((rs.filterMap fun record => (recovered.tasks.get? record.id).map
            fun row => (⟨row, .ended⟩ : LockedWrite)).map (·.row.id))
            = rs.map AutomationTaskRecord.id := by
        intro rs hrs
        induction rs with
        | nil => rfl
        | cons t rs ih =>
          obtain ⟨t', ht', hended⟩ := hrs t List.mem_cons_self
          have hrest := ih fun y hy => hrs y (List.mem_cons_of_mem t hy)
          have hid : t'.id = t.id := hended.id_eq
          simp [ht', hid, hrest]
      rw [hids records hdecided]
      exact hnodup
    · obtain ⟨t, ht, hid, hended⟩ := hwrites x hx
      rw [hid]
      exact ⟨(hrecords t ht).2, t, (hrecords t ht).1, hended⟩

theorem Inv.claim (h : s.Inv) {w : WorkerSession} (hw : w ∈ s.workers.rows) (workerId : String)
    (queues : List String) (leaseSeconds : Int) (token : String) :
    (s.claim w workerId queues leaseSeconds token).Inv := by
  unfold QueueRace.claim
  dsimp only
  cases hcandidate : (queueOf (s.view w)).claimTaskCandidate queues w.now
      (s.lockedByOthers (.worker w.id)) with
  | none =>
    have hlocks : s.locks = s.locks.takeAll [] (.worker w.id) := rfl
    refine h.lock rfl hlocks (by simp) (fun w' hw' => ?_) fun f hf k hk => .inl ⟨f, hf, rfl, hk⟩
    rcases Table.mem_put hw' with rfl | ⟨hold, -⟩
    · exact ⟨fun _ hx => .inl ⟨w, hw, rfl, rfl, hx⟩, h.nodup w hw⟩
    · exact ⟨fun _ hx => .inl ⟨w', hold, rfl, rfl, hx⟩, h.nodup w' hold⟩
  | some t =>
    obtain ⟨hrow, hnot, hskipped⟩ := h.candidate hw hcandidate
    have hget : s.tasks.get? t.id = some t := Table.get?_key hrow
    have havailable := available_of_not_skipped hrow hskipped
    have hlocks : s.locks.take t.id (.worker w.id) = s.locks.takeAll [t.id] (.worker w.id) := rfl
    refine h.lock rfl hlocks (by simpa using havailable) (fun w' hw' => ?_)
      fun f hf k hk => .inl ⟨f, hf, rfl, hk⟩
    rcases Table.mem_put hw' with rfl | ⟨hold, -⟩
    · refine ⟨fun x hx => ?_, ?_⟩
      · rcases List.mem_append.mp hx with hx | hx
        · exact .inl ⟨w, hw, rfl, rfl, hx⟩
        · obtain rfl := List.mem_singleton.mp hx
          exact .inr ⟨rfl, List.mem_singleton.mpr rfl, t, hget,
            .granted workerId token leaseSeconds⟩
      · rw [List.map_append]
        refine List.Nodup.append (h.nodup w hw) (by simp) ?_
        rw [List.map_singleton, List.disjoint_singleton]
        exact hnot
    · exact ⟨fun _ hx => .inl ⟨w', hold, rfl, rfl, hx⟩, h.nodup w' hold⟩

theorem Inv.lease (h : s.Inv) (c : TaskStore.Call) (now : Instant) : (s.lease c now).Inv := by
  unfold QueueRace.lease
  dsimp only
  cases hwrite : leaseWrite s.tasks now c with
  | none => exact h
  | some x =>
    dsimp only [Option.elim]
    split
    · next havailable =>
      have hx : ∀ y ∈ [x], s.locks.Available y.row.id (.worker s.workers.next)
          ∧ ∃ t, s.tasks.get? y.row.id = some t ∧ Decided now t y := by
        intro y hy
        obtain rfl := List.mem_singleton.mp hy
        exact ⟨havailable, leaseWrite_decided hwrite⟩
      exact h.openWorker (by simp) hx
    · exact h

/-- A T2 goes on: what it holds is known, or is the lock that it has just taken. -/
theorem Inv.putFinalisation (h : s.Inv) {f f' : FinalisationSession} {ks : List Uuid}
    (hf : f ∈ s.finalisations.rows) (hid : f'.id = f.id)
    (hks : ∀ k ∈ ks, s.locks.Available k (.finalisation f.id))
    (hupdated : ∀ k ∈ f'.updated, k ∈ f.updated ∨ k ∈ ks) :
    Inv { s with
      locks := s.locks.takeAll ks (.finalisation f.id)
      finalisations := s.finalisations.put f' } := by
  refine h.lock rfl rfl hks (fun w hw => ?_) fun f₁ hf₁ k hk => ?_
  · exact ⟨fun _ hx => .inl ⟨w, hw, rfl, rfl, hx⟩, h.nodup w hw⟩
  · rcases Table.mem_put hf₁ with rfl | ⟨hold, -⟩
    · rcases hupdated k hk with hk | hk
      · exact .inl ⟨f, hf, hid.symm, hk⟩
      · exact .inr ⟨by rw [hid], hk⟩
    · exact .inl ⟨f₁, hold, rfl, hk⟩

theorem Inv.readActive (h : s.Inv) {f : FinalisationSession} (hf : f ∈ s.finalisations.rows) :
    (s.readActive f).Inv := by
  unfold QueueRace.readActive
  split
  · have hnone : ∀ k ∈ ([] : List Uuid), s.locks.Available k (.finalisation f.id) := by simp
    refine h.putFinalisation hf ?_ hnone fun _ hk => .inl ?_
    · rfl
    · exact hk
  · exact h

theorem Inv.update (h : s.Inv) {f : FinalisationSession} (hf : f ∈ s.finalisations.rows)
    (taskId : Uuid) : (s.update f taskId).Inv := by
  unfold QueueRace.update
  split
  · next hturn =>
    have hks : ∀ k ∈ [taskId], s.locks.Available k (.finalisation f.id) := by
      intro k hk
      obtain rfl := List.mem_singleton.mp hk
      exact hturn.2
    refine h.putFinalisation hf ?_ hks fun _ hk => List.mem_append.mp ?_
    · rfl
    · exact hk
  · exact h

theorem Inv.finalise (h : s.Inv) (scheduleId : Uuid) (now : Instant) :
    (s.step (.finalise scheduleId now)).Inv := by
  unfold QueueRace.step
  dsimp only
  split
  · exact h
  · refine ⟨h.writes, h.nodup, fun f hf k hk => ?_⟩
    rcases Table.mem_add hf with hold | rfl
    · exact h.updated f hold k hk
    · exact absurd hk List.not_mem_nil

theorem Inv.step (h : s.Inv) (e : RaceStatement) : (s.step e).Inv := by
  cases e with
  | enqueue payload fingerprint source now =>
    refine ⟨fun w hw x hx => ?_, h.nodup, h.updated⟩
    obtain ⟨hheld, t, ht, hdecided⟩ := h.writes w hw x hx
    exact ⟨hheld, t, TaskStore.get?_addTask ht, hdecided⟩
  | recover now => exact h.recover now
  | claim id workerId queues leaseSeconds token =>
    refine Transition.elim_invariant h fun w hw => ?_
    split
    · exact h.claim (Table.mem_of_get? hw) workerId queues leaseSeconds token
    · exact h
  | lease c now => exact h.lease c now
  | commit id => exact Transition.elim_invariant h fun w hw => h.commit (Table.mem_of_get? hw)
  | rollback id => exact h.endWorker id
  | finalise scheduleId now => exact h.finalise scheduleId now
  | readActive id =>
    exact Transition.elim_invariant h fun f hf => h.readActive (Table.mem_of_get? hf)
  | update id taskId =>
    exact Transition.elim_invariant h fun f hf => h.update (Table.mem_of_get? hf) taskId
  | insert id payload fingerprint =>
    refine Transition.elim_invariant h fun f hf => ?_
    have hnone : ∀ k ∈ ([] : List Uuid), s.locks.Available k (.finalisation f.id) := by simp
    refine h.putFinalisation (Table.mem_of_get? hf) ?_ hnone fun _ hk => .inl ?_
    · rfl
    · exact hk
  | commitFinalisation id =>
    exact Transition.elim_invariant h fun f hf => h.commitFinalisation (Table.mem_of_get? hf)
  | rollbackFinalisation id => exact h.endFinalisation id

/-! ## Which statements keep the leases right -/

/-- A T2 commits an UPDATE that cancels a task because it was waiting when it was read,
and the task is running. -/
def Clobbers (s : QueueRace) (e : RaceStatement) : Prop :=
  ∃ id, e = .commitFinalisation id ∧ ∃ f ∈ s.finalisations.get? id, Flushed f
    ∧ ∃ read ∈ f.loaded, read.id ∈ f.updated ∧ read.status ≠ .running
      ∧ ∃ t ∈ s.tasks.get? read.id, t.status = .running

/-- The rows after a T2 that commits. -/
theorem commitFinalisation_get? {f : FinalisationSession} (hflushed : Flushed f) {k : Uuid}
    {t : AutomationTaskRecord} (ht : s.tasks.get? k = some t) :
    (s.commitFinalisation f).tasks.get? k
      = some (replaced f.now (f.loaded.filter fun read => read.id ∈ f.updated) t) := by
  unfold commitFinalisation
  rw [if_pos hflushed]
  refine foldl_insertRow_get? _ ?_
  rw [foldl_updateRow_get?, ht]
  rfl

theorem mem_commitFinalisation {f : FinalisationSession} (hflushed : Flushed f)
    {t' : AutomationTaskRecord} (ht' : t' ∈ (s.commitFinalisation f).tasks.rows) :
    (∃ t ∈ s.tasks.rows, t' = replaced f.now (f.loaded.filter fun read => read.id ∈ f.updated) t)
    ∨ ∃ r id, t' = Replacement.row r f.scheduleId f.now id := by
  unfold commitFinalisation at ht'
  rw [if_pos hflushed] at ht'
  rcases mem_foldl_insertRow _ ht' with hold | hnew
  · left
    have hget := Table.get?_key hold
    rw [foldl_updateRow_get?] at hget
    obtain ⟨t, ht, hsame⟩ := Option.map_eq_some_iff.mp hget
    exact ⟨t, Table.mem_of_get? ht, hsame.symm⟩
  · exact .inr hnew

theorem Sound.same (h : s.Sound) (htasks : s'.tasks = s.tasks) (hholders : s'.holders = s.holders) :
    s'.Sound := by
  refine ⟨fun t ht => h.columns t (htasks ▸ ht), fun k holder hholder => ?_⟩
  rw [htasks]
  exact h.holders k holder (hholders ▸ hholder)

theorem Sound.enqueue (h : s.Sound) (payload : TaskEnqueue) (fingerprint : Digest Json)
    (source : Option Uuid) (now : Instant) :
    (s.step (.enqueue payload fingerprint source now)).Sound where
  columns := by
    intro t ht
    rcases TaskStore.mem_addTask ht with hold | rfl
    · exact h.columns t hold
    · exact leaseColumns_of_clear (by simp [enqueuedTask]) ⟨rfl, rfl, rfl⟩
  holders := by
    intro k holder hholder
    obtain ⟨t, ht, hholds⟩ := h.holders k holder hholder
    exact ⟨t, TaskStore.get?_addTask ht, hholds⟩

theorem Sound.commit (h : s.Sound) (hinv : s.Inv) {w : WorkerSession} (hw : w ∈ s.workers.rows) :
    (s.commit w).Sound := by
  have hwrites := h.foldl_write (hinv.nodup w hw) fun x hx => (hinv.writes w hw x hx).2
  exact hwrites.same rfl rfl

/-- A T2 keeps the leases right as long as what it cancels is not running. -/
theorem Sound.commitFinalisation (h : s.Sound) {f : FinalisationSession} (hflushed : Flushed f)
    (hkeep : ∀ t ∈ s.tasks.rows, t.status = .running →
      ¬ Cancels (f.loaded.filter fun read => read.id ∈ f.updated) t.id) :
    (s.commitFinalisation f).Sound where
  columns := by
    intro t' ht'
    rcases mem_commitFinalisation hflushed ht' with ⟨t, ht, rfl⟩ | ⟨r, id, rfl⟩
    · obtain ⟨hid, howner, htoken, hexpiry⟩ := replaced_sameLease f.now
        (f.loaded.filter fun read => read.id ∈ f.updated) t
      obtain ⟨hcancels, hkeeps⟩ := replaced_status f.now
        (f.loaded.filter fun read => read.id ∈ f.updated) t
      have hcolumns := h.columns t ht
      unfold LeaseColumns at hcolumns ⊢
      rw [howner, htoken, hexpiry]
      by_cases hc : Cancels (f.loaded.filter fun read => read.id ∈ f.updated) t.id
      · have hstopped : t.status ≠ .running := fun hrunning => hkeep t ht hrunning hc
        simpa [hcancels hc, hstopped] using hcolumns
      · rw [hkeeps hc]
        exact hcolumns
    · exact Replacement.leaseColumns r f.scheduleId f.now id
  holders := by
    intro k holder hholder
    have hholder' : s.holders k = some holder := by
      unfold QueueRace.commitFinalisation at hholder
      rw [if_pos hflushed] at hholder
      exact hholder
    obtain ⟨t, ht, hrunning, hrest⟩ := h.holders k holder hholder'
    refine ⟨_, commitFinalisation_get? hflushed ht, ?_⟩
    obtain ⟨hid, howner, htoken, hexpiry⟩ := replaced_sameLease f.now
      (f.loaded.filter fun read => read.id ∈ f.updated) t
    have hstatus := (replaced_status f.now (f.loaded.filter fun read => read.id ∈ f.updated) t).2
      (hkeep t (Table.mem_of_get? ht) hrunning)
    unfold Holds
    rw [howner, htoken, hexpiry, hstatus]
    exact ⟨hrunning, hrest⟩

theorem Clobbers.breaks (h : s.Sound) {e : RaceStatement} (hclobbers : s.Clobbers e) :
    ¬ (s.step e).Sound := by
  obtain ⟨id, rfl, f, hf, hflushed, read, hread, hupdated, hwaits, t, ht, hrunning⟩ := hclobbers
  intro hsound
  have hcancels : Cancels (f.loaded.filter fun read => read.id ∈ f.updated) t.id :=
    ⟨read, List.mem_filter.mpr ⟨hread, decide_eq_true hupdated⟩,
      (Table.key_of_get? ht).symm, hwaits⟩
  have hstep : s.step (.commitFinalisation id) = s.commitFinalisation f := by
    show (s.finalisations.get? id).elim s s.commitFinalisation = _
    rw [Option.mem_def.mp hf]
    rfl
  rw [hstep] at hsound
  have hafter := hsound.columns _ (Table.mem_of_get? (commitFinalisation_get? hflushed ht))
  have hbefore := (h.columns t (Table.mem_of_get? ht)).1.mpr hrunning
  obtain ⟨-, howner, -⟩ := replaced_sameLease f.now
    (f.loaded.filter fun read => read.id ∈ f.updated) t
  have hstatus :=
    (replaced_status f.now (f.loaded.filter fun read => read.id ∈ f.updated) t).1 hcancels
  have hset := hafter.1
  rw [howner, hstatus] at hset
  exact absurd (hset.mp hbefore) (by decide)

theorem step_sound_iff (hinv : s.Inv) (h : s.Sound) (e : RaceStatement) :
    (s.step e).Sound ↔ ¬ s.Clobbers e := by
  refine ⟨fun hsound hclobbers => hclobbers.breaks h hsound, fun hkeep => ?_⟩
  cases e with
  | enqueue payload fingerprint source now => exact h.enqueue payload fingerprint source now
  | recover now => exact Transition.elim_invariant h fun _ _ => h.same rfl rfl
  | claim id workerId queues leaseSeconds token =>
    refine Transition.elim_invariant h fun w hw => ?_
    split
    · exact Transition.elim_invariant (h.same rfl rfl) fun _ _ => h.same rfl rfl
    · exact h
  | lease c now =>
    refine Transition.elim_invariant h fun x hx => ?_
    split
    · exact h.same rfl rfl
    · exact h
  | commit id => exact Transition.elim_invariant h fun w hw => h.commit hinv (Table.mem_of_get? hw)
  | rollback id => exact h.same rfl rfl
  | finalise scheduleId now =>
    unfold QueueRace.step
    dsimp only
    split
    · exact h
    · exact h.same rfl rfl
  | readActive id =>
    refine Transition.elim_invariant h fun f hf => ?_
    unfold QueueRace.readActive
    split
    · exact h.same rfl rfl
    · exact h
  | update id taskId =>
    refine Transition.elim_invariant h fun f hf => ?_
    unfold QueueRace.update
    split
    · exact h.same rfl rfl
    · exact h
  | insert id payload fingerprint => exact Transition.elim_invariant h fun _ _ => h.same rfl rfl
  | commitFinalisation id =>
    refine Transition.elim_invariant h fun f hf => ?_
    by_cases hflushed : Flushed f
    · refine h.commitFinalisation hflushed fun t ht hrunning hcancels => ?_
      obtain ⟨read, hread, hid, hwaits⟩ := hcancels
      have hmem := List.mem_filter.mp hread
      exact hkeep ⟨id, rfl, f, hf, hflushed, read, hmem.1, of_decide_eq_true hmem.2, hwaits, t,
        hid ▸ Table.get?_key ht, hrunning⟩
    · unfold QueueRace.commitFinalisation
      rw [if_neg hflushed]
      exact h
  | rollbackFinalisation id => exact h.same rfl rfl

/-! ## Settling -/

/-- Until its lease runs out, the worker can complete its task, which succeeds or is
cancelled, and can fail it. -/
def CanSettle (tasks : Table AutomationTaskRecord) (k : Uuid) (holder : Holder) : Prop :=
  ∀ now < holder.expiresAt,
    (∀ result, (∃ digest, jsonFingerprint result = .ok digest) →
      ∃ queue t, (queueOf tasks).completeTask k holder.workerId holder.token result now
        = .ok (queue, t) ∧ (t.status = .succeeded ∨ t.status = .cancelled))
    ∧ ∀ errorCode retryable, ∃ queue t,
      (queueOf tasks).failTask k holder.workerId holder.token errorCode retryable now
        = .ok (queue, t)

/-- Lease columns are set exactly on running tasks, and whoever holds a lease can settle. -/
structure Intact (s : QueueRace) : Prop where
  columns : ∀ t ∈ s.tasks.rows, LeaseColumns t
  settles : ∀ k holder, s.holders k = some holder → CanSettle s.tasks k holder

theorem completeTask_of_holds {tasks : Table AutomationTaskRecord} {k : Uuid}
    {t : AutomationTaskRecord} {holder : Holder} (ht : tasks.get? k = some t) (h : Holds t holder)
    (hnow : now < holder.expiresAt) {result : Json} {digest : Digest Json}
    (hresult : jsonFingerprint result = .ok digest) :
    ∃ queue t', (queueOf tasks).completeTask k holder.workerId holder.token result now
      = .ok (queue, t') ∧ (t'.status = .succeeded ∨ t'.status = .cancelled) := by
  have hlease : (queueOf tasks).requireTaskLease k holder.workerId holder.token now = .ok t :=
    TaskStore.requireTaskLease_eq_ok.mpr ⟨ht, h.leasedBy hnow⟩
  unfold TaskStore.completeTask
  refine ⟨_, _, bind_eq_ok.mpr ⟨digest, hresult, bind_eq_ok.mpr ⟨t, hlease, rfl⟩⟩, ?_⟩
  cases t.cancelRequested with
  | false => simp
  | true => simp

theorem failTask_of_holds {tasks : Table AutomationTaskRecord} {k : Uuid}
    {t : AutomationTaskRecord} {holder : Holder} (ht : tasks.get? k = some t) (h : Holds t holder)
    (hnow : now < holder.expiresAt) (errorCode : String) (retryable : Bool) :
    ∃ queue t', (queueOf tasks).failTask k holder.workerId holder.token errorCode retryable now
      = .ok (queue, t') := by
  have hlease : (queueOf tasks).requireTaskLease k holder.workerId holder.token now = .ok t :=
    TaskStore.requireTaskLease_eq_ok.mpr ⟨ht, h.leasedBy hnow⟩
  have hnew : ∀ x : AutomationTaskRecord, (queueOf tasks).Unannounced x :=
    fun _ _ hr => absurd hr List.not_mem_nil
  unfold TaskStore.failTask
  simp only [hlease, bind, Except.bind, TaskStore.addTaskWakeupOutbox_eq_ok.mpr ⟨hnew _, rfl⟩]
  split
  · exact ⟨_, _, rfl⟩
  · split
    · exact ⟨_, _, rfl⟩
    · split
      · exact ⟨_, _, rfl⟩
      · exact ⟨_, _, rfl⟩

theorem canSettle_iff {tasks : Table AutomationTaskRecord} {k : Uuid} {holder : Holder} :
    CanSettle tasks k holder ↔ ∃ t, tasks.get? k = some t ∧ Holds t holder := by
  constructor
  · intro h
    -- just before the lease runs out
    obtain ⟨queue, t', hfail⟩ := (h (holder.expiresAt - 1) (Int.sub_one_lt_of_le le_rfl)).2 "" false
    obtain ⟨t, ht, ⟨hrunning, howner, htoken, hexpiry⟩, -⟩ := TaskStore.failTask_ok hfail
    obtain ⟨expiry, he, hlt⟩ := (Option.any_eq_true _ _).mp hexpiry
    have hle : holder.expiresAt ≤ expiry := Int.le_of_sub_one_lt (by simpa using hlt)
    exact ⟨t, ht, hrunning, howner, htoken, by simp [he, hle]⟩
  · rintro ⟨t, ht, hholds⟩ now hnow
    refine ⟨fun result ⟨digest, hdigest⟩ => ?_, fun errorCode retryable => ?_⟩
    · exact completeTask_of_holds ht hholds hnow hdigest
    · exact failTask_of_holds ht hholds hnow errorCode retryable

theorem intact_iff : s.Intact ↔ s.Sound :=
  ⟨fun h => ⟨h.columns, fun k holder hholder => canSettle_iff.mp (h.settles k holder hholder)⟩,
    fun h => ⟨h.columns, fun k holder hholder => canSettle_iff.mpr (h.holders k holder hholder)⟩⟩

theorem empty_sound : empty.Sound where
  columns := by simp [empty, Table.empty]
  holders := by simp [empty]

/-- Leases stay intact in every state of a run of statements exactly if no T2 of the
run commits the cancel of a task that has been claimed since it was read. -/
theorem replace_intact_iff_never_clobbers (es : List RaceStatement) :
    (∀ fs, fs <+: es → (Transition.run step empty fs).Intact)
      ↔ Transition.Along (fun s e => ¬ s.Clobbers e) step empty es := by
  simp only [intact_iff]
  exact Transition.prefixes_iff_along (J := Inv) (fun (_ : QueueRace) e hinv => hinv.step e)
    (fun (_ : QueueRace) e hinv hsound => step_sound_iff hinv hsound e) empty_sound empty_inv es

/-- T2 reads the task while it is queued, a worker claims it, and T2 cancels it. -/
def claimedWhileReplaced : List RaceStatement :=
  [.enqueue ⟨"qa.noop", "\x7b\x7d", "default", 50, 3, none, none⟩ ⟨"request"⟩ (some 7) 0,
    .finalise 7 10,
    .readActive 0,
    .recover 11,
    .claim 0 "worker" ["default"] 60 "the token of the task's lease",
    .commit 0,
    .update 0 0,
    .commitFinalisation 0]

/-- The task is cancelled with the worker's lease in its row. -/
theorem not_intact_after_replace :
    ¬ ∀ es : List RaceStatement, (Transition.run step empty es).Intact := by
  intro h
  exact absurd (h claimedWhileReplaced).columns (by decide +kernel)

end QueueRace

end QaPlatform.Runtime
